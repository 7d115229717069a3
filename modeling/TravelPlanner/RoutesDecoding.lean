import Mathlib.Data.List.DropRight
import Mathlib.Data.List.ProdSigma
import Mathlib.Data.Rat.Floor
import TravelPlanner.Fallible
import TravelPlanner.MatrixCache

namespace TravelPlanner.RoutesDecoding

open Requests Engine RouteService Fallible
open MatrixCache (Located RouteItem)

section Answers

/-- The `status` of an element: an object with a code, or any other value. -/
inductive ElementStatus
  | object (code : Option ℤ)
  | other

structure MatrixElement where
  status : Option ElementStatus := none
  originIndex : ℕ
  destinationIndex : ℕ
  duration : Option String := none
  distanceMeters : Option ℤ := none

def MatrixElement.code (item : MatrixElement) : ℤ :=
  match item.status with
  | some (.object code) => code.getD 0
  | _ => 0

structure ErrorBody where
  status : Option String
  message : Option String

def refusal (statusCode : ℕ) (error : Option ErrorBody) (text : String) : String × String :=
  (((error.bind ErrorBody.status).filter (· ≠ "")).getD s!"HTTP_{statusCode}",
    ((error.bind ErrorBody.message).filter (· ≠ "")).getD (String.ofList (text.toList.take 200)))

inductive Response
  | refused (statusCode : ℕ) (error : Option ErrorBody) (text : String)
  | unexpected
  | elements (items : List MatrixElement)

inductive Crash
  | indexError
  | valueError
  deriving DecidableEq

end Answers

section Durations

/-- `int(text)`, for a text without spaces and underscores. -/
def parseInt (text : List Char) : Option ℤ :=
  let digits := if text.head? = some '-' ∨ text.head? = some '+' then text.tail else text
  if digits = [] ∨ digits.all Char.isDigit = false then none
  else if text.head? = some '-' then some (-(Nat.ofDigitChars 10 digits 0 : ℤ))
  else some (Nat.ofDigitChars 10 digits 0 : ℤ)

def durationSeconds (text : String) : Option ℤ :=
  if text.toList.getLast? = some 's' then parseInt (text.toList.rdropWhile (· = 's')) else some 0

/-- A duration as the service writes it: `<digits>[.<digits>]s`. -/
structure Duration where
  whole : List Char
  fraction : Option (List Char) := none
  whole_digits : whole ≠ [] ∧ ∀ c ∈ whole, c.isDigit = true
  fraction_digits : ∀ f ∈ fraction, f ≠ [] ∧ ∀ c ∈ f, c.isDigit = true

def Duration.number (d : Duration) : List Char := d.whole ++ d.fraction.elim [] ('.' :: ·)

def Duration.text (d : Duration) : String := String.ofList (d.number ++ ['s'])

def Duration.seconds (d : Duration) : ℚ :=
  (Nat.ofDigitChars 10 d.whole 0 : ℚ) +
    d.fraction.elim (0 : ℚ) fun f ↦ (Nat.ofDigitChars 10 f 0 : ℚ) / 10 ^ f.length

end Durations

section Decoding

def decodeElement (originIds destIds : List PlaceId) (item : MatrixElement) :
    Except Crash (Option MatrixEntry) :=
  if item.code ≠ 0 then .ok none
  else
    match originIds[item.originIndex]?, destIds[item.destinationIndex]? with
    | some originId, some destId =>
      if originId = destId then .ok none
      else
        match durationSeconds (item.duration.getD "0s") with
        | none => .error .valueError
        | some durationS => .ok (some ⟨originId, destId, item.distanceMeters.getD 0, durationS⟩)
    | _, _ => .error .indexError

def decodeElements (originIds destIds : List PlaceId) : List MatrixElement → Except Crash (List MatrixEntry)
  | [] => .ok []
  | item :: items => do
    let entry ← decodeElement originIds destIds item
    let entries ← decodeElements originIds destIds items
    return entry.toList ++ entries

/-- `compute_matrix`, from the answer to its request on. -/
def computeMatrix (apiKey : String) (placeCoords : List Located) (destCoords : Option (List Located))
    (response : Response) : Except Crash (Except MatrixFailure (List MatrixEntry)) :=
  if apiKey = "" then .ok (.error ⟨some "MISSING_API_KEY", none⟩)
  else
    match response with
    | .refused statusCode error text =>
      let (status, message) := refusal statusCode error text
      .ok (.error ⟨some status, some message⟩)
    | .unexpected =>
      .ok (.error ⟨some "UNEXPECTED_RESPONSE", some "Expected a JSON array from computeRouteMatrix"⟩)
    | .elements items => do
      let entries ← decodeElements (placeCoords.map Prod.fst) ((destCoords.getD placeCoords).map Prod.fst) items
      return .ok entries

end Decoding

section Reading

variable {s f : List Char}

theorem parseInt_digits (hs : s ≠ []) (hdigits : ∀ c ∈ s, c.isDigit = true) :
    parseInt s = some (Nat.ofDigitChars 10 s 0 : ℤ) := by
  obtain ⟨c, rest, rfl⟩ := List.exists_cons_of_ne_nil hs
  have hc := hdigits c List.mem_cons_self
  have hminus : c ≠ '-' := fun h ↦ absurd (h ▸ hc) (by decide)
  have hplus : c ≠ '+' := fun h ↦ absurd (h ▸ hc) (by decide)
  simp only [parseInt, List.head?_cons, Option.some.injEq, hminus, hplus, or_self, if_false]
  rw [if_neg]
  rintro (hnil | hbad)
  · exact hs hnil
  · rw [List.all_eq_true.mpr hdigits] at hbad
    cases hbad

theorem parseInt_point (hs : s ≠ []) (hpoint : '.' ∈ s.tail) : parseInt s = none := by
  obtain ⟨c, rest, rfl⟩ := List.exists_cons_of_ne_nil hs
  rw [parseInt]
  refine if_pos (.inr ?_)
  rw [Bool.eq_false_iff, Ne, List.all_eq_true]
  intro hall
  have hmem : '.' ∈ if (c :: rest).head? = some '-' ∨ (c :: rest).head? = some '+' then (c :: rest).tail
      else c :: rest := by
    split_ifs
    · exact hpoint
    · exact List.mem_cons_of_mem c hpoint
  exact absurd (hall '.' hmem) (by decide)

variable (d : Duration)

theorem number_ne_nil : d.number ≠ [] := by
  simp [Duration.number, d.whole_digits.1]

theorem number_last : ∀ c ∈ d.number.getLast?, c ≠ 's' := by
  intro c hc
  have hdigit : c.isDigit = true := by
    cases hf : d.fraction with
    | none =>
      simp only [Duration.number, hf, Option.elim_none, List.append_nil] at hc
      exact d.whole_digits.2 c (List.mem_of_getLast? hc)
    | some f =>
      obtain ⟨hne, hdigits⟩ := d.fraction_digits f hf
      obtain ⟨x, rest, rfl⟩ := List.exists_cons_of_ne_nil hne
      simp only [Duration.number, hf, Option.elim_some] at hc
      rw [List.getLast?_append_of_ne_nil _ (List.cons_ne_nil _ _), List.getLast?_cons_cons] at hc
      exact hdigits c (List.mem_of_getLast? hc)
  rintro rfl
  exact absurd hdigit (by decide)

/-- What is left of a duration is its number, and `int` reads it. -/
theorem durationSeconds_text : durationSeconds d.text = parseInt d.number := by
  have hlist : d.text.toList = d.number ++ ['s'] := String.toList_ofList
  have hnumber : d.number.rdropWhile (· = 's') = d.number := by
    rw [List.rdropWhile_eq_self_iff]
    intro hne
    simpa using number_last d _ (List.getLast?_eq_some_getLast hne)
  rw [durationSeconds, hlist, if_pos List.getLast?_concat, List.rdropWhile_concat, if_pos (by simp), hnumber]

theorem point_mem_text : '.' ∈ d.text.toList ↔ d.fraction ≠ none := by
  have hlist : d.text.toList = d.number ++ ['s'] := String.toList_ofList
  have hwhole : '.' ∉ d.whole := fun h ↦ absurd (d.whole_digits.2 '.' h) (by decide)
  cases hf : d.fraction with
  | none => simp [hlist, Duration.number, hf, hwhole]
  | some f => simp [hlist, Duration.number, hf]

theorem durationSeconds_whole (h : d.fraction = none) :
    ∃ n : ℕ, durationSeconds d.text = some (n : ℤ) ∧ d.seconds = n := by
  refine ⟨Nat.ofDigitChars 10 d.whole 0, ?_, ?_⟩
  · rw [durationSeconds_text, Duration.number, h, Option.elim_none, List.append_nil]
    exact parseInt_digits d.whole_digits.1 d.whole_digits.2
  · rw [Duration.seconds, h, Option.elim_none, add_zero]

theorem durationSeconds_fraction (h : d.fraction ≠ none) : durationSeconds d.text = none := by
  obtain ⟨f, hf⟩ := Option.ne_none_iff_exists'.mp h
  rw [durationSeconds_text]
  refine parseInt_point (number_ne_nil d) ?_
  obtain ⟨c, rest, hwhole⟩ := List.exists_cons_of_ne_nil d.whole_digits.1
  simp [Duration.number, hf, hwhole]

def Duration.ofSeconds (n : ℕ) : Duration where
  whole := Nat.toDigits 10 n
  whole_digits := ⟨Nat.toDigits_ne_nil, fun _ hc ↦ Nat.isDigit_of_mem_toDigits (by decide) (by decide) hc⟩
  fraction_digits := by simp

theorem durationSeconds_ofSeconds (n : ℕ) : durationSeconds (Duration.ofSeconds n).text = some (n : ℤ) := by
  have hdigits := (Duration.ofSeconds n).whole_digits
  have hread : parseInt (Nat.toDigits 10 n) = some ↑(Nat.ofDigitChars 10 (Nat.toDigits 10 n) 0) :=
    parseInt_digits hdigits.1 hdigits.2
  rw [durationSeconds_text, Duration.number, Duration.ofSeconds, Option.elim_none, List.append_nil, hread,
    Nat.ofDigitChars_ten_toDigits]

theorem durationSeconds_zero : durationSeconds "0s" = some 0 := durationSeconds_ofSeconds 0

end Reading

section Elements

variable {originIds destIds : List PlaceId} {item : MatrixElement} {items : List MatrixElement} {o d : PlaceId}
  {e : MatrixEntry} {entries : List MatrixEntry}

def MatrixElement.Joins (item : MatrixElement) (originIds destIds : List PlaceId) (o d : PlaceId) : Prop :=
  originIds[item.originIndex]? = some o ∧ destIds[item.destinationIndex]? = some d

theorem decodeElement_of_skipped (hjoins : item.Joins originIds destIds o d) (h : item.code ≠ 0 ∨ o = d) :
    decodeElement originIds destIds item = .ok none := by
  rw [decodeElement]
  split_ifs with hcode
  · rfl
  · rw [hjoins.1, hjoins.2]
    exact if_pos (h.resolve_left hcode)

theorem decodeElement_of_read (hjoins : item.Joins originIds destIds o d) (hcode : item.code = 0) (hne : o ≠ d)
    {durationS : ℤ} (hread : durationSeconds (item.duration.getD "0s") = some durationS) :
    decodeElement originIds destIds item = .ok (some ⟨o, d, item.distanceMeters.getD 0, durationS⟩) := by
  rw [decodeElement, if_neg (not_not.mpr hcode), hjoins.1, hjoins.2]
  simp only [if_neg hne, hread]

theorem decodeElement_of_unread (hjoins : item.Joins originIds destIds o d) (hcode : item.code = 0) (hne : o ≠ d)
    (hread : durationSeconds (item.duration.getD "0s") = none) :
    decodeElement originIds destIds item = .error .valueError := by
  rw [decodeElement, if_neg (not_not.mpr hcode), hjoins.1, hjoins.2]
  simp only [if_neg hne, hread]

theorem decodeElement_some (h : decodeElement originIds destIds item = .ok (some e)) :
    item.Joins originIds destIds e.originId e.destId ∧ e.originId ≠ e.destId ∧ item.code = 0 ∧
      durationSeconds (item.duration.getD "0s") = some e.durationS := by
  rw [decodeElement] at h
  split_ifs at h with hcode
  · cases h
  · split at h
    · rename_i originId destId horigin hdest
      split_ifs at h with hsame
      · cases h
      · split at h
        · cases h
        · rename_i durationS hread
          cases h
          exact ⟨⟨horigin, hdest⟩, hsame, not_not.mp hcode, hread⟩
    · cases h

theorem mem_decodeElements (h : decodeElements originIds destIds items = .ok entries) :
    e ∈ entries ↔ ∃ item ∈ items, decodeElement originIds destIds item = .ok (some e) := by
  induction items generalizing entries with
  | nil =>
    obtain rfl := Except.ok.inj h
    simp
  | cons item items ih =>
    obtain ⟨entry, hentry, h⟩ := bind_eq_ok.mp h
    obtain ⟨rest, hrest, h⟩ := bind_eq_ok.mp h
    obtain rfl := pure_eq_ok.mp h
    rw [List.mem_append, ih hrest, List.exists_mem_cons_iff, hentry]
    simp

theorem decodeElements_returns (h : ∀ item ∈ items, ∃ entry, decodeElement originIds destIds item = .ok entry) :
    ∃ entries, decodeElements originIds destIds items = .ok entries := by
  induction items with
  | nil => exact ⟨[], rfl⟩
  | cons item items ih =>
    obtain ⟨⟨entry, hentry⟩, hitems⟩ := List.forall_mem_cons.mp h
    obtain ⟨entries, hentries⟩ := ih hitems
    exact ⟨_, bind_eq_ok.mpr ⟨entry, hentry, bind_eq_ok.mpr ⟨entries, hentries, rfl⟩⟩⟩

/-- One element that cannot be read fails the whole answer. -/
theorem decodeElement_of_returned (h : decodeElements originIds destIds items = .ok entries) (hitem : item ∈ items) :
    ∃ entry, decodeElement originIds destIds item = .ok entry := by
  induction items generalizing entries with
  | nil => cases hitem
  | cons first items ih =>
    obtain ⟨entry, hentry, h⟩ := bind_eq_ok.mp h
    obtain ⟨rest, hrest, -⟩ := bind_eq_ok.mp h
    rcases List.mem_cons.mp hitem with rfl | hitem
    · exact ⟨entry, hentry⟩
    · exact ih hrest hitem

/-- No place gets a leg to itself. -/
theorem decodeElements_apart (h : decodeElements originIds destIds items = .ok entries) (he : e ∈ entries) :
    e.originId ≠ e.destId := by
  obtain ⟨item, -, hentry⟩ := (mem_decodeElements h).mp he
  exact (decodeElement_some hentry).2.1

theorem computeMatrix_elements {apiKey : String} (hkey : apiKey ≠ "") (placeCoords : List Located)
    (destCoords : Option (List Located)) : computeMatrix apiKey placeCoords destCoords (.elements items) =
      .ok (.ok entries) ↔ decodeElements (placeCoords.map Prod.fst)
        ((destCoords.getD placeCoords).map Prod.fst) items = .ok entries := by
  rw [computeMatrix, if_neg hkey]
  simp only [bind_eq_ok, pure_eq_ok, Except.ok.injEq, exists_eq_right]

end Elements

section Faithful

structure MatrixElement.WellFormed (item : MatrixElement) (originIds destIds : List PlaceId) : Prop where
  origin : item.originIndex < originIds.length
  dest : item.destinationIndex < destIds.length
  duration : ∀ text ∈ item.duration, ∃ d : Duration, d.text = text

/-- A duration truncated or rounded to whole seconds. -/
def WholeSeconds (text : String) (n : ℤ) : Prop :=
  ∃ d : Duration, d.text = text ∧ (n = ⌊d.seconds⌋ ∨ |d.seconds - n| ≤ 1 / 2)

structure Faithful (originIds destIds : List PlaceId) (items : List MatrixElement) (entries : List MatrixEntry) :
    Prop where
  pairs : ∀ o d, o ≠ d → ((∃ e ∈ entries, e.originId = o ∧ e.destId = d) ↔
    ∃ item ∈ items, item.Joins originIds destIds o d ∧ item.code = 0 ∧ item.duration ≠ none)
  durations : ∀ e ∈ entries, ∃ item ∈ items, item.Joins originIds destIds e.originId e.destId ∧ item.code = 0 ∧
    ∃ text ∈ item.duration, WholeSeconds text e.durationS
  freeLegs : ∀ item ∈ items, item.duration = none →
    ∀ e, decodeElement originIds destIds item = .ok (some e) → e.durationS ≠ 0

def Timed (originIds destIds : List PlaceId) (items : List MatrixElement) : Prop :=
  ∀ item ∈ items, ∀ o d, item.Joins originIds destIds o d → o ≠ d → item.code = 0 →
    ∃ text ∈ item.duration, '.' ∉ text.toList

variable {originIds destIds : List PlaceId} {item : MatrixElement} {items : List MatrixElement} {o d : PlaceId}
  {entries : List MatrixEntry}

theorem joins_of_wellFormed (h : item.WellFormed originIds destIds) :
    ∃ o d, item.Joins originIds destIds o d :=
  ⟨_, _, List.getElem?_eq_getElem h.origin, List.getElem?_eq_getElem h.dest⟩

theorem zero_leg (hjoins : item.Joins originIds destIds o d) (hcode : item.code = 0) (hne : o ≠ d)
    (hduration : item.duration = none) :
    decodeElement originIds destIds item = .ok (some ⟨o, d, item.distanceMeters.getD 0, 0⟩) := by
  refine decodeElement_of_read hjoins hcode hne ?_
  rw [hduration]
  exact durationSeconds_zero

theorem decodeElement_of_timed (hform : item.WellFormed originIds destIds) (hjoins : item.Joins originIds destIds o d)
    (hcode : item.code = 0) (hne : o ≠ d) {text : String} (htext : text ∈ item.duration) (hwhole : '.' ∉ text.toList) :
    ∃ n : ℤ, WholeSeconds text n ∧
      decodeElement originIds destIds item = .ok (some ⟨o, d, item.distanceMeters.getD 0, n⟩) := by
  obtain ⟨duration, rfl⟩ := hform.duration text htext
  rw [point_mem_text, not_not] at hwhole
  obtain ⟨n, hread, hseconds⟩ := durationSeconds_whole duration hwhole
  refine ⟨n, ⟨duration, rfl, .inl ?_⟩, decodeElement_of_read hjoins hcode hne ?_⟩
  · rw [hseconds, Int.floor_natCast]
  · rw [Option.mem_def.mp htext, Option.getD_some, hread]

theorem timed_of_faithful (hform : ∀ item ∈ items, item.WellFormed originIds destIds)
    (hentries : decodeElements originIds destIds items = .ok entries)
    (hfaithful : Faithful originIds destIds items entries) : Timed originIds destIds items := by
  intro item hitem o d hjoins hne hcode
  cases hduration : item.duration with
  | none => exact absurd rfl (hfaithful.freeLegs item hitem hduration _ (zero_leg hjoins hcode hne hduration))
  | some text =>
    refine ⟨text, rfl, fun hpoint ↦ ?_⟩
    obtain ⟨duration, rfl⟩ := (hform item hitem).duration text hduration
    have hread : durationSeconds (item.duration.getD "0s") = none := by
      rw [hduration]
      exact durationSeconds_fraction duration ((point_mem_text duration).mp hpoint)
    obtain ⟨entry, hentry⟩ := decodeElement_of_returned hentries hitem
    rw [decodeElement_of_unread hjoins hcode hne hread] at hentry
    cases hentry

theorem returns_of_timed (hform : ∀ item ∈ items, item.WellFormed originIds destIds)
    (htimed : Timed originIds destIds items) : ∃ entries, decodeElements originIds destIds items = .ok entries := by
  refine decodeElements_returns fun item hitem ↦ ?_
  obtain ⟨o, d, hjoins⟩ := joins_of_wellFormed (hform item hitem)
  by_cases hskip : item.code ≠ 0 ∨ o = d
  · exact ⟨_, decodeElement_of_skipped hjoins hskip⟩
  · obtain ⟨hcode, hne⟩ := not_or.mp hskip
    obtain ⟨text, htext, hwhole⟩ := htimed item hitem o d hjoins hne (not_not.mp hcode)
    obtain ⟨n, -, hentry⟩ := decodeElement_of_timed (hform item hitem) hjoins (not_not.mp hcode) hne htext hwhole
    exact ⟨_, hentry⟩

theorem faithful_of_timed (hform : ∀ item ∈ items, item.WellFormed originIds destIds)
    (htimed : Timed originIds destIds items) (hentries : decodeElements originIds destIds items = .ok entries) :
    Faithful originIds destIds items entries where
  pairs := by
    intro o d hne
    constructor
    · rintro ⟨e, he, rfl, rfl⟩
      obtain ⟨item, hitem, hentry⟩ := (mem_decodeElements hentries).mp he
      obtain ⟨hjoins, -, hcode, -⟩ := decodeElement_some hentry
      obtain ⟨text, htext, -⟩ := htimed item hitem _ _ hjoins hne hcode
      exact ⟨item, hitem, hjoins, hcode, Option.ne_none_iff_exists'.mpr ⟨text, htext⟩⟩
    · rintro ⟨item, hitem, hjoins, hcode, -⟩
      obtain ⟨text, htext, hwhole⟩ := htimed item hitem o d hjoins hne hcode
      obtain ⟨n, -, hentry⟩ := decodeElement_of_timed (hform item hitem) hjoins hcode hne htext hwhole
      exact ⟨_, (mem_decodeElements hentries).mpr ⟨item, hitem, hentry⟩, rfl, rfl⟩
  durations := by
    intro e he
    obtain ⟨item, hitem, hentry⟩ := (mem_decodeElements hentries).mp he
    obtain ⟨hjoins, hne, hcode, -⟩ := decodeElement_some hentry
    obtain ⟨text, htext, hwhole⟩ := htimed item hitem _ _ hjoins hne hcode
    obtain ⟨n, hseconds, hsame⟩ := decodeElement_of_timed (hform item hitem) hjoins hcode hne htext hwhole
    have hvalue := congrArg MatrixEntry.durationS (Option.some.inj (Except.ok.inj (hentry.symm.trans hsame)))
    exact ⟨item, hitem, hjoins, hcode, text, htext, hvalue ▸ hseconds⟩
  freeLegs := by
    intro item hitem hduration e hentry
    obtain ⟨hjoins, hne, hcode, -⟩ := decodeElement_some hentry
    obtain ⟨text, htext, -⟩ := htimed item hitem _ _ hjoins hne hcode
    rw [hduration] at htext
    cases htext

/-- An answer is decoded faithfully exactly when no leg lacks a duration and none has a
fraction of a second. -/
theorem decoding_faithful_iff (apiKey : String) (hkey : apiKey ≠ "") (placeCoords : List Located)
    (destCoords : Option (List Located)) (items : List MatrixElement)
    (hform : ∀ item ∈ items,
      item.WellFormed (placeCoords.map Prod.fst) ((destCoords.getD placeCoords).map Prod.fst)) :
    (∃ entries, computeMatrix apiKey placeCoords destCoords (.elements items) = .ok (.ok entries) ∧
      Faithful (placeCoords.map Prod.fst) ((destCoords.getD placeCoords).map Prod.fst) items entries) ↔
        Timed (placeCoords.map Prod.fst) ((destCoords.getD placeCoords).map Prod.fst) items := by
  simp only [computeMatrix_elements hkey]
  constructor
  · rintro ⟨entries, hentries, hfaithful⟩
    exact timed_of_faithful hform hentries hfaithful
  · intro htimed
    obtain ⟨entries, hentries⟩ := returns_of_timed hform htimed
    exact ⟨entries, hentries, faithful_of_timed hform htimed hentries⟩

end Faithful

section Items

def routeElement (item : RouteItem) (originIndex destinationIndex : ℕ) : MatrixElement where
  status := some (.object (some item.code))
  originIndex := originIndex
  destinationIndex := destinationIndex
  duration := item.durationS.map fun s ↦ (Duration.ofSeconds s.toNat).text
  distanceMeters := item.distanceMeters

/-- The elements of whole seconds are decoded as the cache reads them. -/
theorem decodeElement_routeElement {originIds destIds : List PlaceId} {item : RouteItem}
    (hduration : ∀ s ∈ item.durationS, 0 ≤ s) {i j : ℕ} {o d : PlaceId}
    (hjoins : (routeElement item i j).Joins originIds destIds o d) (hne : o ≠ d) :
    decodeElement originIds destIds (routeElement item i j) = .ok (item.entry o d) := by
  by_cases hcode : item.code = 0
  · rw [RouteItem.entry, if_neg (not_not.mpr hcode)]
    refine decodeElement_of_read hjoins hcode hne ?_
    cases hs : item.durationS with
    | none =>
      simp only [routeElement, hs, Option.map_none, Option.getD_none]
      exact durationSeconds_zero
    | some s =>
      simp only [routeElement, hs, Option.map_some, Option.getD_some]
      rw [durationSeconds_ofSeconds, Int.toNat_of_nonneg (hduration s hs)]
  · rw [RouteItem.entry, if_pos hcode, decodeElement_of_skipped hjoins (.inl hcode)]

theorem decodeElements_map {originIds destIds : List PlaceId} {α : Type} {element : α → MatrixElement}
    {entry : α → Option MatrixEntry} (items : List α)
    (h : ∀ a ∈ items, decodeElement originIds destIds (element a) = .ok (entry a)) :
    decodeElements originIds destIds (items.map element) = .ok (items.filterMap entry) := by
  induction items with
  | nil => rfl
  | cons a items ih =>
    obtain ⟨hfirst, hrest⟩ := List.forall_mem_cons.mp h
    refine bind_eq_ok.mpr ⟨entry a, hfirst, bind_eq_ok.mpr ⟨_, ih hrest, ?_⟩⟩
    rw [pure_eq_ok, List.filterMap_cons]
    cases entry a <;> rfl

variable (route : Located → Located → RouteItem) (origins dests : List Located)

def gridElements : List MatrixElement :=
  (origins.zipIdx ×ˢ dests.zipIdx).map fun p ↦ routeElement (route p.1.1 p.2.1) p.1.2 p.2.2

def routeEntry (o d : Located) : Option MatrixEntry := if o.1 = d.1 then none else (route o d).entry o.1 d.1

theorem grid_entries : (origins.zipIdx ×ˢ dests.zipIdx).filterMap (fun p ↦ routeEntry route p.1.1 p.2.1) =
    origins.flatMap fun o ↦ dests.filterMap (routeEntry route o) := by
  have hdests (o : Located) : (dests.zipIdx.filterMap fun y ↦ routeEntry route o y.1) =
      dests.filterMap (routeEntry route o) := by
    conv_rhs => rw [← List.zipIdx_map_fst 0 dests, List.filterMap_map]
    rfl
  conv_rhs => rw [← List.zipIdx_map_fst 0 origins, List.flatMap_map]
  change (origins.zipIdx.flatMap fun x ↦ dests.zipIdx.map (Prod.mk x)).filterMap _ = _
  rw [List.filterMap_flatMap]
  refine List.flatMap_congr fun x _ ↦ ?_
  rw [List.filterMap_map, ← hdests]
  rfl

theorem decodeElements_grid (hduration : ∀ o ∈ origins, ∀ d ∈ dests, ∀ s ∈ (route o d).durationS, 0 ≤ s) :
    decodeElements (origins.map Prod.fst) (dests.map Prod.fst) (gridElements route origins dests) =
      .ok (origins.flatMap fun o ↦ dests.filterMap (routeEntry route o)) := by
  rw [← grid_entries, gridElements]
  refine decodeElements_map _ ?_
  rintro ⟨⟨o, i⟩, d, j⟩ hmem
  obtain ⟨ho, hd⟩ := List.mem_product.mp hmem
  have hoi : origins[i]? = some o := List.mk_mem_zipIdx_iff_getElem?.mp ho
  have hdj : dests[j]? = some d := List.mk_mem_zipIdx_iff_getElem?.mp hd
  have hjoins : (routeElement (route o d) i j).Joins (origins.map Prod.fst) (dests.map Prod.fst) o.1 d.1 := by
    constructor
    · simp [routeElement, hoi]
    · simp [routeElement, hdj]
  rw [routeEntry]
  split_ifs with hsame
  · exact decodeElement_of_skipped hjoins (.inr hsame)
  · exact decodeElement_routeElement (hduration o (List.mem_of_getElem? hoi) d (List.mem_of_getElem? hdj)) hjoins hsame

/-- What the cache takes for the answer of the service is what the decoder makes of a full
answer in whole seconds. -/
theorem computeMatrix_grid {apiKey : String} (hkey : apiKey ≠ "") (routes : MatrixCache.Routes)
    (transit : Coord × Coord → Coord × Coord → RouteItem) (mode : TransportMode)
    (hroute : ∀ o d, route o d = if mode = .transit then transit o.2 d.2 else routes o.2 d.2 mode)
    (hduration : ∀ o ∈ origins, ∀ d ∈ dests, ∀ s ∈ (route o d).durationS, 0 ≤ s) :
    computeMatrix apiKey origins (some dests) (.elements (gridElements route origins dests)) =
      .ok (MatrixCache.computeMatrix routes (.items transit) mode origins dests) := by
  rw [MatrixCache.computeMatrix]
  simp only [← hroute]
  exact (computeMatrix_elements hkey origins (some dests)).mpr (decodeElements_grid route origins dests hduration)

end Items

section Legs

def city : List Located := [("p1", 0, 0), ("p2", 0, 1)]

def directLeg : MatrixElement := { originIndex := 0, destinationIndex := 1, duration := some "300s" }

def unrouted : MatrixElement := { status := some (.object none), originIndex := 0, destinationIndex := 1 }

def halfSecond : MatrixElement := { originIndex := 0, destinationIndex := 1, duration := some "300.5s" }

theorem directLeg_wellFormed : directLeg.WellFormed (city.map Prod.fst) (city.map Prod.fst) where
  origin := by decide
  dest := by decide
  duration := by
    rintro _ ⟨⟩
    exact ⟨Duration.ofSeconds 300, by decide⟩

theorem directLeg_faithful : ∃ entries, computeMatrix "key" city none (.elements [directLeg]) = .ok (.ok entries) ∧
    Faithful (city.map Prod.fst) (city.map Prod.fst) [directLeg] entries := by
  refine (decoding_faithful_iff "key" (by decide) city none [directLeg] ?_).mpr ?_
  · exact List.forall_mem_singleton.mpr directLeg_wellFormed
  · exact List.forall_mem_singleton.mpr fun _ _ _ _ _ ↦ ⟨"300s", rfl, by decide⟩

theorem unrouted_wellFormed : unrouted.WellFormed (city.map Prod.fst) (city.map Prod.fst) :=
  ⟨by decide, by decide, by simp [unrouted]⟩

example : decodeElement ["p1", "p2"] ["p1", "p2"] halfSecond = .error .valueError := by decide

theorem unrouted_unfaithful : ¬∀ (apiKey : String) (placeCoords : List Located) (destCoords : Option (List Located))
    (items : List MatrixElement), apiKey ≠ "" →
    (∀ item ∈ items, item.WellFormed (placeCoords.map Prod.fst) ((destCoords.getD placeCoords).map Prod.fst)) →
    ∃ entries, computeMatrix apiKey placeCoords destCoords (.elements items) = .ok (.ok entries) ∧
      Faithful (placeCoords.map Prod.fst) ((destCoords.getD placeCoords).map Prod.fst) items entries := by
  intro h
  obtain ⟨entries, -, hfaithful⟩ := h "key" city none [unrouted] (by decide)
    (List.forall_mem_singleton.mpr unrouted_wellFormed)
  have hjoins : unrouted.Joins (city.map Prod.fst) (city.map Prod.fst) "p1" "p2" := ⟨rfl, rfl⟩
  have hleg := zero_leg hjoins rfl (by decide) rfl
  exact hfaithful.freeLegs unrouted List.mem_cons_self rfl _ hleg rfl

end Legs

end TravelPlanner.RoutesDecoding
