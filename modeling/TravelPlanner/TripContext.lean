import TravelPlanner.Snapshots

namespace TravelPlanner.TripContext

open Clock IsoDates Requests SavedPlans Snapshots
open TripService (SegmentKind)

abbrev Text := List Char

section Sanitizing

/-- Each run of the chosen characters becomes one blank. -/
def collapseRuns (p : Char → Bool) (inRun : Bool) : Text → Text
  | [] => []
  | c :: s =>
    if p c then (if inRun then collapseRuns p true s else ' ' :: collapseRuns p true s)
    else c :: collapseRuns p false s

def isControl (c : Char) : Bool := c.toNat ≤ 0x1f || c.toNat = 0x7f

def isSpace (c : Char) : Bool :=
  (9 ≤ c.toNat && c.toNat ≤ 13) || (0x1c ≤ c.toNat && c.toNat ≤ 0x20) || c.toNat = 0x85 || c.toNat = 0xA0 ||
    c.toNat = 0x1680 || (0x2000 ≤ c.toNat && c.toNat ≤ 0x200A) || c.toNat = 0x2028 || c.toNat = 0x2029 ||
    c.toNat = 0x202F || c.toNat = 0x205F || c.toNat = 0x3000

def strip (s : Text) : Text := ((s.dropWhile isSpace).reverse.dropWhile isSpace).reverse

def maxFieldLen : ℕ := 200

def sanitizeForPrompt (text : String) : Text :=
  (strip (collapseRuns (· = ' ') false (collapseRuns isControl false text.toList))).take maxFieldLen

theorem mem_collapseRuns {p : Char → Bool} {inRun : Bool} {s : Text} {c : Char} (h : c ∈ collapseRuns p inRun s) :
    c = ' ' ∨ c ∈ s ∧ p c = false := by
  induction s generalizing inRun with
  | nil => cases h
  | cons d s ih =>
    have hlater : ∀ {inRun}, c ∈ collapseRuns p inRun s → c = ' ' ∨ c ∈ d :: s ∧ p c = false := fun h ↦
      (ih h).imp_right fun hc ↦ ⟨List.mem_cons_of_mem d hc.1, hc.2⟩
    rw [collapseRuns] at h
    split_ifs at h with hd hrun
    · exact hlater h
    · rcases List.mem_cons.mp h with rfl | h
      · exact .inl rfl
      · exact hlater h
    · rcases List.mem_cons.mp h with rfl | h
      · exact .inr ⟨List.mem_cons_self, by simpa using hd⟩
      · exact hlater h

theorem mem_strip {s : Text} {c : Char} (h : c ∈ strip s) : c ∈ s := by
  rw [strip, List.mem_reverse] at h
  have hmiddle := List.mem_reverse.mp ((List.dropWhile_sublist isSpace).subset h)
  exact (List.dropWhile_sublist isSpace).subset hmiddle

/-- A field cannot open a line of its own. -/
theorem sanitizeForPrompt_newline (text : String) : '\n' ∉ sanitizeForPrompt text := by
  intro h
  rcases mem_collapseRuns (mem_strip (List.mem_of_mem_take h)) with hblank | ⟨h, _⟩
  · exact absurd hblank (by decide)
  · rcases mem_collapseRuns h with hblank | ⟨_, hcontrol⟩
    · exact absurd hblank (by decide)
    · exact absurd hcontrol (by decide)

end Sanitizing

section Formats

def hourMinute (t : Time) : Text := digits 2 t.hour ++ ':' :: digits 2 t.minute

def number (n : ℤ) : Text := (toString n).toList

def twoDigits (n : ℤ) : Text := if (number n).length < 2 then '0' :: number n else number n

def dateText (d : Date) : Text := (isoformat d).toList

def window (cfg : DayConfig) : Text :=
  let start := secondsToTime (resolveDayBoundS cfg.dayStartHour cfg.dayStartTime)
  let endS := resolveDayBoundS cfg.dayEndHour cfg.dayEndTime
  let endText := if endS < 24 * 3600 then hourMinute (secondsToTime endS) else "24:00".toList
  hourMinute start ++ '-' :: endText

def assignment (pref : PlaceDayPreference) : Text :=
  match pref.dayPreferences with
  | [] => "AUTO".toList
  | [slot] =>
    match slot.preferredHourFrom, slot.preferredHourTo with
    | some hourFrom, some hourTo => "PINNED day ".toList ++ number slot.dayIndex ++ ", pref ".toList ++
        twoDigits hourFrom ++ ":00-".toList ++ twoDigits hourTo ++ ":00".toList
    | _, _ => "PINNED day ".toList ++ number slot.dayIndex
  | slots => "FLEXIBLE days ".toList ++ [','].intercalate (slots.map fun slot ↦ number slot.dayIndex)

end Formats

structure TripPromptContext where
  tripId : String
  name : String
  request : MultiDayRequest
  placeNames : List (PlaceId × String)
  itineraryDigest : List Text
  unassignedNames : List String

section Details

def harvest (entries : List (PlaceId × Option String)) : List (PlaceId × String) :=
  entries.filterMap fun entry ↦
    match entry.2 with
    | some name => if name = "" then none else some (entry.1, name)
    | none => none

def harvestSteps (steps : List RouteStep) : List (PlaceId × String) :=
  harvest (steps.map fun step ↦ (step.placeId, step.name))

def harvestSkipped (skipped : List SkippedPlace) : List (PlaceId × String) :=
  harvest (skipped.map fun place ↦ (place.placeId, place.name))

def collectPlaceNames (response : MultiDayResponse) : List (PlaceId × String) :=
  (response.days.flatMap fun day ↦ harvestSteps day.steps ++
    day.routeSegments.flatMap (fun segment ↦ harvestSteps segment.steps) ++ harvestSkipped day.skipped) ++
      harvestSkipped response.unassigned

def stopsOf (segments : List DayRouteSegment) (kind : SegmentKind) : ℕ :=
  ((segments.filter fun segment ↦ segment.kind = kind).getLast?.map fun segment ↦ segment.steps.length).getD 0

def digestLine (day : DayPlan) : Text :=
  if day.routeSegments ≠ [] then
    "- day ".toList ++ number day.dayIndex ++ ": transfer day, ".toList ++
      number (stopsOf day.routeSegments .preTransfer) ++ " stops before / ".toList ++
      number (stopsOf day.routeSegments .postTransfer) ++ " after".toList
  else
    let ends := (day.steps.getLast?.map fun step ↦ hourMinute step.departureTime.time).getD "—".toList
    "- day ".toList ++ number day.dayIndex ++ ": ".toList ++ number day.steps.length ++ " stops, ends ".toList ++ ends

def buildItineraryDigest (response : MultiDayResponse) : List Text := response.days.map digestLine

def unassignedName (place : SkippedPlace) : String :=
  match place.name with
  | some name => if name = "" then place.placeId else name
  | none => place.placeId

def fromDetail (trip : TripDetail) : Option TripPromptContext :=
  match trip.body with
  | .multiDay _ _ _ _ request response => some
    { tripId := trip.id
      name := trip.name
      request := request
      placeNames := collectPlaceNames response
      itineraryDigest := buildItineraryDigest response
      unassignedNames := response.unassigned.map unassignedName }
  | .singleDay .. => none

end Details

section Prompt

def maxPromptChars : ℕ := 6000

def dayLine (day : DayConfig × ℕ) : Text :=
  "- day ".toList ++ number day.2 ++ ' ' :: dateText day.1.date ++ "  window ".toList ++ window day.1

def placeLine (names : List (PlaceId × String)) (pref : PlaceDayPreference) : Text :=
  let name := ((names.find? fun entry ↦ entry.1 = pref.placeId).map Prod.snd).getD pref.placeId
  "- [id=".toList ++ pref.placeId.toList ++ "] ".toList ++ sanitizeForPrompt name ++ "  ".toList ++ assignment pref

def shownStays (request : MultiDayRequest) : List AccommodationStay :=
  request.accommodations.insertionSort fun a b ↦ a.checkInDate ≤ b.checkInDate

def stayMark : Text := "- [stay ".toList

def stayLine (stay : AccommodationStay × ℕ) : Text :=
  let extra :=
    match stay.1.checkInFrom with
    | some t => "  (check-in from ".toList ++ hourMinute t ++ ")".toList
    | none => []
  stayMark ++ number stay.2 ++ "] ".toList ++ sanitizeForPrompt stay.1.name ++ "  ".toList ++
    dateText stay.1.checkInDate ++ " -> ".toList ++ dateText stay.1.checkOutDate ++ extra

def stayLines (request : MultiDayRequest) : List Text := (shownStays request).zipIdx.map stayLine

def accommodationLines (request : MultiDayRequest) : List Text :=
  if request.accommodations = [] then [] else "Accommodations:".toList :: stayLines request

def transferLine (transfer : TransferBlock) : Text :=
  let label :=
    match transfer.label with
    | some label => if label = "" then [] else "  (".toList ++ sanitizeForPrompt label ++ ")".toList
    | none => []
  "- ".toList ++ dateText transfer.date ++ "  depart ".toList ++ hourMinute transfer.departureTime ++
    " -> arrive ".toList ++ hourMinute transfer.arrivalTime ++ label

def transferLines (request : MultiDayRequest) : List Text :=
  if request.transfers = [] then []
  else "Transfers:".toList :: (request.transfers.insertionSort fun a b ↦ a.date ≤ b.date).map transferLine

def digestTitle : Text := "Itinerary digest:".toList

def headLines (ctx : TripPromptContext) (first last : Date) : List Text :=
  ["You are editing the saved multi-day trip below.".toList,
    "Trip id: ".toList ++ ctx.tripId.toList ++ " | Name: ".toList ++ sanitizeForPrompt ctx.name ++
      " | Dates: ".toList ++ dateText first ++ '-' :: dateText last ++ " (".toList ++
      number ctx.request.days.length ++ " days)".toList,
    [], "Days:".toList] ++ ctx.request.days.zipIdx.map dayLine ++
  "Places (id -> assignment):".toList :: (ctx.request.places.take 50).map (placeLine ctx.placeNames)

def tailLines (ctx : TripPromptContext) : List Text :=
  transferLines ctx.request ++
  (if ctx.itineraryDigest = [] then [] else digestTitle :: ctx.itineraryDigest) ++
  (if ctx.unassignedNames = [] then []
    else ["Unassigned: ".toList ++ ", ".toList.intercalate (ctx.unassignedNames.map sanitizeForPrompt)]) ++
  [[], ("To change this trip call edit_multi_day_trip(operations=[...]). Describe the change and get " ++
    "explicit user confirmation first. Do NOT use update_visit_hours / skip_place / add_place here.").toList]

def joinLines (lines : List Text) : Text := ['\n'].intercalate lines

/-- The prompt of a trip that has days; the digest goes first when it gets too long. -/
def buildTripContextPrompt (ctx : TripPromptContext) : Option Text := do
  let dates := ctx.request.days.map DayConfig.date
  let first ← dates.min?
  let last ← dates.max?
  let lines := headLines ctx first last ++ accommodationLines ctx.request ++ tailLines ctx
  let prompt := joinLines lines
  if maxPromptChars < prompt.length then
    let withoutDigest := lines.filter fun line ↦ line ∉ ctx.itineraryDigest ∧ line ≠ digestTitle
    return (joinLines withoutDigest).take maxPromptChars
  else return prompt

end Prompt

section Shown

variable {ctx : TripPromptContext} {trip : TripDetail} {text line : Text}

theorem digits_newline (w n : ℕ) : '\n' ∉ digits w n := by
  induction w generalizing n with
  | zero => exact List.not_mem_nil
  | succ w ih =>
    rw [digits, List.mem_append, List.mem_singleton]
    rintro (h | h)
    · exact ih _ h
    · exact absurd (h ▸ (digit_isDigit n).1) (by decide)

theorem dateText_newline (d : Date) : '\n' ∉ dateText d := by simp [dateText, isoformat, digits_newline]

theorem hourMinute_newline (t : Time) : '\n' ∉ hourMinute t := by simp [hourMinute, digits_newline]

theorem unmarked {start : Text} (rest : Text) (h₁ : ¬stayMark <+: start) (h₂ : ¬start <+: stayMark) :
    ¬stayMark <+: start ++ rest := fun h ↦
  (List.prefix_or_prefix_of_prefix h (List.prefix_append start rest)).elim h₁ h₂

theorem dayLine_unmarked (day : DayConfig × ℕ) : ¬stayMark <+: dayLine day := by
  unfold dayLine
  simp only [List.append_assoc]
  exact unmarked _ (by decide) (by decide)

theorem placeLine_unmarked (names : List (PlaceId × String)) (pref : PlaceDayPreference) :
    ¬stayMark <+: placeLine names pref := by
  unfold placeLine
  simp only [List.append_assoc]
  exact unmarked _ (by decide) (by decide)

theorem dateText_digit (d : Date) : ∃ n rest, dateText d = digit n :: rest := by
  simp [dateText, isoformat, digits]

theorem transferLine_unmarked (transfer : TransferBlock) : ¬stayMark <+: transferLine transfer := by
  obtain ⟨n, rest, hdate⟩ := dateText_digit transfer.date
  unfold transferLine
  simp only [List.append_assoc, hdate]
  intro h
  have hbracket : '[' = digit n := (List.cons_prefix_cons.mp (List.cons_prefix_cons.mp (List.cons_prefix_cons.mp h).2).2).1
  exact absurd (hbracket ▸ (digit_isDigit n).1) (by decide)

theorem digestLine_unmarked (day : DayPlan) : ¬stayMark <+: digestLine day := by
  rw [digestLine]
  split_ifs
  · simp only [List.append_assoc]
    exact unmarked _ (by decide) (by decide)
  · simp only [List.append_assoc]
    exact unmarked _ (by decide) (by decide)

theorem headLines_unmarked (ctx : TripPromptContext) (first last : Date) :
    ∀ line ∈ headLines ctx first last, ¬stayMark <+: line := by
  intro line h
  unfold headLines at h
  rcases List.mem_append.mp h with h | h
  · rcases List.mem_append.mp h with h | h
    · rcases List.mem_cons.mp h with rfl | h
      · decide
      rcases List.mem_cons.mp h with rfl | h
      · simp only [List.append_assoc]
        exact unmarked _ (by decide) (by decide)
      rcases List.mem_cons.mp h with rfl | h
      · decide
      · obtain rfl := List.mem_singleton.mp h
        decide
    · obtain ⟨day, _, rfl⟩ := List.mem_map.mp h
      exact dayLine_unmarked day
  · rcases List.mem_cons.mp h with rfl | h
    · decide
    · obtain ⟨pref, _, rfl⟩ := List.mem_map.mp h
      exact placeLine_unmarked ctx.placeNames pref

theorem tailLines_unmarked (hdigest : ∀ line ∈ ctx.itineraryDigest, ¬stayMark <+: line) :
    ∀ line ∈ tailLines ctx, ¬stayMark <+: line := by
  intro line h
  unfold tailLines transferLines at h
  simp only [List.mem_append, List.mem_ite_nil_left, List.mem_cons, List.mem_map, List.not_mem_nil, or_false] at h
  rcases h with ((⟨_, rfl | ⟨transfer, _, rfl⟩⟩ | ⟨_, rfl | h⟩) | ⟨_, rfl⟩) | rfl | hclosing
  · decide
  · exact transferLine_unmarked transfer
  · decide
  · exact hdigest line h
  · exact unmarked _ (by decide) (by decide)
  · decide
  · rw [hclosing, String.toList_append]
    exact unmarked _ (by decide) (by decide)

theorem digest_unmarked (h : fromDetail trip = some ctx) : ∀ line ∈ ctx.itineraryDigest, ¬stayMark <+: line := by
  unfold fromDetail at h
  split at h
  · next request response hbody =>
    obtain rfl := Option.some.inj h
    intro line hline
    obtain ⟨day, _, rfl⟩ := List.mem_map.mp hline
    exact digestLine_unmarked day
  · cases h

theorem stayLine_marked (stay : AccommodationStay × ℕ) : stayMark <+: stayLine stay := by
  unfold stayLine
  simp only [List.append_assoc]
  exact List.prefix_append stayMark _

/-- The stays stand in a prompt one to a line, in a block of their own; only the end of
a prompt is ever cut off. -/
theorem prompt_shows (hctx : fromDetail trip = some ctx) (h : buildTripContextPrompt ctx = some text) :
    ∃ head tail, text = (joinLines (head ++ stayLines ctx.request ++ tail)).take maxPromptChars ∧
      ∀ line ∈ head ++ tail, ¬stayMark <+: line := by
  have hdigest := digest_unmarked hctx
  obtain ⟨first, _, h⟩ := Option.bind_eq_some_iff.mp h
  obtain ⟨last, _, h⟩ := Option.bind_eq_some_iff.mp h
  obtain ⟨title, htitle, hlines⟩ : ∃ title : List Text, (∀ line ∈ title, ¬stayMark <+: line) ∧
      accommodationLines ctx.request = title ++ stayLines ctx.request := by
    unfold accommodationLines
    split_ifs with hnone
    · exact ⟨[], by simp, by simp [stayLines, shownStays, hnone]⟩
    · refine ⟨["Accommodations:".toList], ?_, rfl⟩
      rw [List.forall_mem_singleton]
      decide
  have hhead : ∀ line ∈ headLines ctx first last ++ title, ¬stayMark <+: line :=
    List.forall_mem_append.mpr ⟨headLines_unmarked ctx first last, htitle⟩
  have htail := tailLines_unmarked hdigest
  dsimp only at h
  rw [hlines, ← List.append_assoc] at h
  split_ifs at h with hlong
  · obtain rfl := Option.some.inj h
    have hkept : (stayLines ctx.request).filter (fun line ↦ line ∉ ctx.itineraryDigest ∧ line ≠ digestTitle) =
        stayLines ctx.request := by
      refine List.filter_eq_self.mpr fun line hline ↦ decide_eq_true ?_
      obtain ⟨stay, _, rfl⟩ := List.mem_map.mp hline
      have hmarked := stayLine_marked stay
      exact ⟨fun hmem ↦ hdigest _ hmem hmarked, fun he ↦ absurd (he ▸ hmarked) (by decide)⟩
    rw [List.filter_append, List.filter_append, hkept]
    refine ⟨_, _, rfl, List.forall_mem_append.mpr ⟨fun line hline ↦ ?_, fun line hline ↦ ?_⟩⟩
    · exact hhead line (List.mem_filter.mp hline).1
    · exact htail line (List.mem_filter.mp hline).1
  · obtain rfl := Option.some.inj h
    exact ⟨_, _, (List.take_of_length_le (not_lt.mp hlong)).symm, List.forall_mem_append.mpr ⟨hhead, htail⟩⟩

end Shown

end TravelPlanner.TripContext
