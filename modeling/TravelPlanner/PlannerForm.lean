import TravelPlanner.FirstMatch
import TravelPlanner.PlannerPage

namespace TravelPlanner.PlannerForm

open Clock IsoDates Fallible Tables Planner PlannerRequests Reopening FormChecks StayNights Lines Runs
open PlannerPage (Browser Prefill canSubmit openPage defaultDayConfig maxMultidayPlaces)
open Requests (Coord DaySlot PlaceId)
open FirstMatch (map_modify)

section Maps

variable {V : Type}

def getEntry (m : EntryMap V) (key : String) : Option V := (m.entries.find? fun e ↦ e.1 = key).map Prod.snd

def setEntry (m : EntryMap V) (key : String) (value : V) : EntryMap V :=
  let table := Table.put (⟨m.entries, m.keys_nodup⟩ : Table (String × V) Prod.fst) (key, value)
  ⟨table.rows, table.nodup⟩

def deleteEntry (m : EntryMap V) (key : String) : EntryMap V := m.filter (· ≠ key)

theorem mem_setEntry {m : EntryMap V} {key : String} {value : V} {e : String × V}
    (h : e ∈ (setEntry m key value).entries) : e = (key, value) ∨ e ∈ m.entries := by
  by_cases hkey : key ∈ m.entries.map Prod.fst
  · have hrows := Table.put_of_mem (t := ⟨m.entries, m.keys_nodup⟩) (r := (key, value)) hkey
    simp only [setEntry, hrows, Table.replace] at h
    obtain ⟨x, hx, rfl⟩ := List.mem_map.mp h
    split_ifs
    · exact .inl rfl
    · exact .inr hx
  · have hrows := Table.put_rows_of_not_mem (t := ⟨m.entries, m.keys_nodup⟩) (r := (key, value)) hkey
    simp only [setEntry, hrows, List.mem_append, List.mem_singleton] at h
    exact h.symm

theorem getEntry_mem {m : EntryMap V} {key : String} {value : V} (h : getEntry m key = some value) :
    (key, value) ∈ m.entries := by
  obtain ⟨e, he, rfl⟩ := Option.map_eq_some_iff.mp h
  have hkey := List.find?_some he
  obtain rfl : e.1 = key := of_decide_eq_true hkey
  exact List.mem_of_find?_eq_some he

end Maps

section Model

/-- The next day, until the last one of the year 9999. -/
def nextDay (d : Date) : Option Date :=
  (ofYearMonthDay d.year d.month (d.day + 1)).or
    ((ofYearMonthDay d.year (d.month + 1) 1).or (ofYearMonthDay (d.year + 1) 1 1))

def plusDays (d : Date) : ℕ → Option Date
  | 0 => some d
  | n + 1 => (plusDays d n).bind nextDay

/-- The first ten letters of a day. Past the year 9999 no trip gets beyond January. -/
def dayText (d : Option Date) : String := (d.map isoformat).getD "+010000-01"

/-- `none` where the source throws. A date field gives a day or an empty text. -/
def addDays (dateStr : String) (days : ℕ) : Option String :=
  (parseDate dateStr).map fun d ↦ dayText (plusDays d days)

def reconcileDays (existing : List DayConfig) (startDate : String) (numDays : ℕ) : Option (List DayConfig) :=
  (List.range numDays).mapM fun i ↦ (addDays startDate i).map fun date ↦
    match existing[i]? with
    | some prev => { prev with date := date }
    | none => defaultDayConfig date

def serializeBoundary (boundary : DayBoundaryState) (isEndBoundary : Bool) : ℤ × Option String :=
  match boundary.mode with
  | .hour => (boundary.hour, none)
  | .exact => (if isEndBoundary && boundary.hour = 24 then 23 else boundary.hour, boundary.time)

/-- What is done to one bound of a day. A number field gives a whole number, 0 once it is cleared. -/
inductive BoundaryInput
  | mode (mode : DayTimeMode)
  | hour (value : ℤ)
  | time (value : String)

def fullHour (hour : ℤ) : String := String.ofList ((toString hour).toList.leftpad 2 '0') ++ ":00"

def enterBoundary (isEndBoundary : Bool) (boundary : DayBoundaryState) : BoundaryInput → DayBoundaryState
  | .mode mode =>
    if mode = .exact ∧ boundary.time = none then
      let hour := if isEndBoundary && boundary.hour = 24 then 23 else boundary.hour
      { boundary with mode := mode, time := some (fullHour hour) }
    else { boundary with mode := mode }
  | .hour value => { boundary with hour := value }
  | .time value => { boundary with time := some value }

/-- What is done to one row of the stays. Only places with coordinates can be picked. -/
inductive StayInput
  | name (value : String)
  | place (name : Option String) (lat lng : Coord)
  | noPlace
  | lat (value : Option Coord)
  | lng (value : Option Coord)
  | checkInDate (value : String)
  | checkOutDate (value : String)
  | checkInFrom (value : String)
  | checkOutBy (value : String)

def orNull (value : String) : Option String := if value = "" then none else some value

def enterStay (draft : AccommodationDraft) : StayInput → AccommodationDraft
  | .name value => { draft with name := value }
  | .place name lat lng =>
    { draft with lat := some lat, lng := some lng, name := if draft.name = "" then name.getD "" else draft.name }
  | .noPlace => { draft with lat := none, lng := none }
  | .lat value => { draft with lat := value }
  | .lng value => { draft with lng := value }
  | .checkInDate value => { draft with checkInDate := value }
  | .checkOutDate value => { draft with checkOutDate := value }
  | .checkInFrom value => { draft with checkInFrom := orNull value }
  | .checkOutBy value => { draft with checkOutBy := orNull value }

def emptyAccommodationDraft (localKey date : String) : AccommodationDraft :=
  ⟨localKey, "", none, none, date, date, none, none⟩

inductive TransferInput
  | departure (value : String)
  | arrival (value : String)
  | label (value : String)

def enterTransfer (transfer : TransferBlock) : TransferInput → TransferBlock
  | .departure value => { transfer with departureTime := value }
  | .arrival value => { transfer with arrivalTime := value }
  | .label value => { transfer with label := orNull value }

def toggleDaySlot (current : List DaySlot) (dayIndex : ℕ) (checked : Bool) : List DaySlot :=
  if checked then
    if current.any fun s ↦ s.dayIndex = dayIndex then current else current ++ [{ dayIndex := dayIndex }]
  else current.filter fun s ↦ s.dayIndex ≠ dayIndex

inductive Event
  | startDate (value : String)
  | numDays (value : ℤ)
  | dayStart (index : ℕ) (input : BoundaryInput)
  | dayEnd (index : ℕ) (input : BoundaryInput)
  | toggleInclude (placeId : PlaceId) (included : Bool)
  | toggleDay (placeId : PlaceId) (dayIndex : ℕ) (checked : Bool)
  | addRow (localKey : String)
  | updateRow (index : ℕ) (input : StayInput)
  | removeRow (index : ℕ)
  | toggleTransfer (date : String) (checked : Bool)
  | updateTransfer (date : String) (input : TransferInput)
  | transportMode (mode : TransportModeNoTransit)

structure Form where
  state : MultiDayEditableState
  startDate : String
  numDays : ℕ

def minTripDays : ℤ := 1

def maxTripDays : ℤ := 31

def enterDayStart (input : BoundaryInput) (day : DayConfig) : DayConfig :=
  let boundary := hydrateBoundary (day.dayStartHour.getD defaultDayStartHour) day.dayStartTime
  let (hour, time) := serializeBoundary (enterBoundary false boundary input) false
  { day with dayStartHour := some hour, dayStartTime := time }

def enterDayEnd (input : BoundaryInput) (day : DayConfig) : DayConfig :=
  let boundary := hydrateBoundary (day.dayEndHour.getD defaultDayEndHour) day.dayEndTime
  let (hour, time) := serializeBoundary (enterBoundary true boundary input) true
  { day with dayEndHour := some hour, dayEndTime := time }

namespace Form

def propagate (form : Form) (next : MultiDayEditableState) : Form := { form with state := reconcileEditableState next }

def changeRange (form : Form) : Form :=
  match reconcileDays form.state.days form.startDate form.numDays with
  | some days => form.propagate { form.state with days := days }
  | none => form

def tripStart (form : Form) : String := (form.state.dayDates.head?).getD ""

def step (form : Form) : Event → Form
  | .startDate value => { form with startDate := value }.changeRange
  | .numDays value => { form with numDays := (min maxTripDays (max minTripDays value)).toNat }.changeRange
  | .dayStart index input =>
    form.propagate { form.state with days := form.state.days.modify index (enterDayStart input) }
  | .dayEnd index input =>
    form.propagate { form.state with days := form.state.days.modify index (enterDayEnd input) }
  | .toggleInclude placeId included =>
    if included && maxMultidayPlaces ≤ form.state.placeSelections.entries.length then form
    else
      form.propagate { form.state with
        placeSelections :=
          if included then setEntry form.state.placeSelections placeId []
          else deleteEntry form.state.placeSelections placeId }
  | .toggleDay placeId dayIndex checked =>
    form.propagate { form.state with
      placeSelections := setEntry form.state.placeSelections placeId
        (toggleDaySlot ((getEntry form.state.placeSelections placeId).getD []) dayIndex checked) }
  | .addRow localKey =>
    form.propagate { form.state with
      accommodations := form.state.accommodations ++ [emptyAccommodationDraft localKey form.tripStart] }
  | .updateRow index input =>
    form.propagate { form.state with
      accommodations := form.state.accommodations.modify index fun draft ↦ enterStay draft input }
  | .removeRow index => form.propagate { form.state with accommodations := form.state.accommodations.eraseIdx index }
  | .toggleTransfer date checked =>
    form.propagate { form.state with
      transfers :=
        if checked then setEntry form.state.transfers date ⟨date, "10:00", "11:00", none⟩
        else deleteEntry form.state.transfers date }
  | .updateTransfer date input =>
    match getEntry form.state.transfers date with
    | some transfer =>
      form.propagate { form.state with transfers := setEntry form.state.transfers date (enterTransfer transfer input) }
    | none => form
  | .transportMode mode => form.propagate { form.state with transportMode := mode }

end Form

def openForm {Response : Type} (browser : Browser) (prefill : Option (Prefill Response)) (today : String) : Form :=
  let state := (openPage browser prefill today).editableState
  ⟨state, (state.dayDates.head?).getD today, max state.days.length 1⟩

end Model

section Entering

structure DayFit (day : DayConfig) : Prop where
  endOnce : ¬(day.dayEndHour.getD 21 = 24 ∧ day.dayEndTime ≠ none)
  startPaired : day.startLat.isNone = day.startLng.isNone
  endPaired : day.endLat.isNone = day.endLng.isNone

/-- What the handlers of the form keep true of what is entered. -/
structure Entered (state : MultiDayEditableState) : Prop where
  days_count : 1 ≤ state.days.length ∧ state.days.length ≤ 31
  dates_distinct : (∀ date ∈ state.dayDates, parseDate date ≠ none) → state.dayDates.Nodup
  days : ∀ day ∈ state.days, DayFit day
  slots : ∀ e ∈ state.placeSelections.entries, ∀ slot ∈ e.2, 0 ≤ slot.dayIndex
  keys : (state.accommodations.map AccommodationDraft.localKey).Nodup
  transfers : ∀ e ∈ state.transfers.entries, e.2.date = e.1

structure Settled (state : MultiDayEditableState) : Prop where
  slots : ∀ e ∈ state.placeSelections.entries, ∀ slot ∈ e.2, slot.dayIndex < state.days.length
  transfers : ∀ e ∈ state.transfers.entries, e.1 ∈ state.dayDates
  changeovers : hasIncompleteAccommodation state = false →
    ∀ e ∈ state.transfers.entries, isTransitionDay (anchorsOf state.accommodations e.1) = true

variable {state : MultiDayEditableState} {day : DayConfig}

theorem filter_complete (h : hasIncompleteAccommodation state = false) :
    state.accommodations.filter isCompleteAccommodationDraft = state.accommodations := by
  rw [List.filter_eq_self]
  intro draft hdraft
  simpa using List.any_eq_false.mp h draft hdraft

theorem Entered.reconcile (h : Entered state) :
    Entered (reconcileEditableState state) ∧ Settled (reconcileEditableState state) := by
  have hkept := pruneToTrip_sublist state.dayDates state.accommodations
  constructor
  · refine ⟨h.days_count, h.dates_distinct, h.days, ?_, h.keys.sublist (hkept.map _), ?_⟩
    · intro e he slot hslot
      obtain ⟨e', he', rfl⟩ := List.mem_map.mp he
      exact h.slots e' he' slot (List.mem_filter.mp hslot).1
    · exact fun e he ↦ h.transfers e (transfers_kept he).1
  · refine ⟨fun e he slot hslot ↦ slots_in_range he hslot, fun e he ↦ (transfers_kept he).2.1, ?_⟩
    intro hcomplete e he
    have htransition := (transfers_kept he).2.2
    rw [filter_complete hcomplete] at htransition
    exact htransition

theorem enterDayStart_fit (h : DayFit day) (input : BoundaryInput) : DayFit (enterDayStart input day) :=
  ⟨h.endOnce, h.startPaired, h.endPaired⟩

theorem serializeBoundary_once (boundary : DayBoundaryState) (h : (serializeBoundary boundary true).2 ≠ none) :
    (serializeBoundary boundary true).1 ≠ 24 := by
  unfold serializeBoundary at h ⊢
  cases hmode : boundary.mode with
  | hour =>
    rw [hmode] at h
    exact absurd rfl h
  | exact =>
    simp only [Bool.true_and, decide_eq_true_eq]
    split_ifs with h24
    · decide
    · exact h24

theorem enterDayEnd_fit (h : DayFit day) (input : BoundaryInput) : DayFit (enterDayEnd input day) := by
  refine ⟨fun hboth ↦ ?_, h.startPaired, h.endPaired⟩
  exact serializeBoundary_once _ hboth.2 hboth.1

end Entering

section Range

variable {d d' : Date} {existing days : List DayConfig} {startDate : String} {n : ℕ}

theorem ofYearMonthDay_fields {y m day : ℕ} (h : ofYearMonthDay y m day = some d) :
    d.year = y ∧ d.month = m ∧ d.day = day := by
  unfold ofYearMonthDay at h
  split_ifs at h
  obtain rfl := Option.some.inj h
  exact ⟨rfl, rfl, rfl⟩

theorem lt_nextDay (h : nextDay d = some d') : d < d' := by
  have hmonth := d.month_range
  have hday := d.day_range.2.trans (daysInMonth_le _ _)
  rw [date_lt_iff, Date.key, Date.key]
  unfold nextDay at h
  rcases Option.or_eq_some_iff.mp h with h | ⟨-, h⟩
  · obtain ⟨hy, hm, hd⟩ := ofYearMonthDay_fields h
    omega
  · rcases Option.or_eq_some_iff.mp h with h | ⟨-, h⟩
    · obtain ⟨hy, hm, hd⟩ := ofYearMonthDay_fields h
      omega
    · obtain ⟨hy, hm, hd⟩ := ofYearMonthDay_fields h
      omega

theorem plusDays_lt {i k : ℕ} {a b : Date} (ha : plusDays d i = some a) (hb : plusDays d (i + k + 1) = some b) :
    a < b := by
  induction k generalizing b with
  | zero =>
    rw [Nat.add_zero, plusDays, ha, Option.bind_some] at hb
    exact lt_nextDay hb
  | succ k ih =>
    rw [plusDays] at hb
    obtain ⟨c, hc, hb⟩ := Option.bind_eq_some_iff.mp hb
    exact (ih hc).trans (lt_nextDay hb)

theorem dayText_read {d : Option Date} (h : parseDate (dayText d) ≠ none) : ∃ a, d = some a := by
  cases d with
  | some a => exact ⟨a, rfl⟩
  | none => exact absurd (by decide) h

theorem plusDays_text_injective {i j : ℕ} (hi : parseDate (dayText (plusDays d i)) ≠ none)
    (hj : parseDate (dayText (plusDays d j)) ≠ none) (h : dayText (plusDays d i) = dayText (plusDays d j)) : i = j := by
  obtain ⟨a, ha⟩ := dayText_read hi
  obtain ⟨b, hb⟩ := dayText_read hj
  rw [ha, hb] at h
  have hab : a = b := isoformat_strictMono.injective h
  rcases lt_trichotomy i j with hlt | heq | hgt
  · obtain ⟨k, rfl⟩ := Nat.exists_eq_add_of_lt hlt
    exact absurd hab (plusDays_lt ha hb).ne
  · exact heq
  · obtain ⟨k, rfl⟩ := Nat.exists_eq_add_of_lt hgt
    exact absurd hab (plusDays_lt hb ha).ne'

theorem reconcileDays_cons (h : reconcileDays existing startDate n = some days) :
    List.Forall₂ (fun i (day : DayConfig) ↦ addDays startDate i = some day.date ∧
      (∃ prev ∈ existing, day = { prev with date := day.date }) ∨
      addDays startDate i = some day.date ∧ day = defaultDayConfig day.date) (List.range n) days := by
  refine (forall₂_of_mapM h).imp fun i day hday ↦ ?_
  obtain ⟨date, hdate, rfl⟩ := Option.map_eq_some_iff.mp hday
  cases hprev : existing[i]? with
  | some prev => exact .inl ⟨hdate, prev, List.mem_of_getElem? hprev, rfl⟩
  | none => exact .inr ⟨hdate, rfl⟩

theorem reconcileDays_dates (h : reconcileDays existing startDate n = some days) (hn : 0 < n) :
    ∃ d, parseDate startDate = some d ∧
      days.map DayConfig.date = (List.range n).map fun i ↦ dayText (plusDays d i) := by
  have hdates : List.Forall₂ (fun i (day : DayConfig) ↦ addDays startDate i = some day.date) (List.range n) days :=
    (reconcileDays_cons h).imp fun i day hday ↦ hday.elim And.left And.left
  obtain ⟨day, -, hday⟩ := mem_of_forall₂ hdates.flip (List.mem_range.mpr hn)
  obtain ⟨d, hd, -⟩ := Option.map_eq_some_iff.mp hday
  refine ⟨d, hd, ?_⟩
  refine map_eq_of_forall₂ (fun day i hday ↦ ?_) hdates.flip
  rw [addDays, hd, Option.map_some] at hday
  exact (Option.some.inj hday).symm

end Range

section Runs

/-- A new row of the stays gets a new key. -/
def Conforming (form : Form) : Event → Prop
  | .addRow localKey => localKey ∉ form.state.accommodations.map AccommodationDraft.localKey
  | _ => True

structure FormInv (form : Form) : Prop where
  entered : Entered form.state
  range : 0 < form.numDays ∧ form.numDays ≤ 31

variable {form : Form} {state : MultiDayEditableState}

theorem mem_modify {α : Type} {f : α → α} {l : List α} {i : ℕ} {a : α} (h : a ∈ l.modify i f) :
    a ∈ l ∨ ∃ b ∈ l, a = f b := by
  induction l generalizing i with
  | nil =>
    rw [List.modify_nil] at h
    exact .inl h
  | cons b l ih =>
    cases i with
    | zero =>
      rcases List.mem_cons.mp h with rfl | h
      · exact .inr ⟨b, List.mem_cons_self, rfl⟩
      · exact .inl (List.mem_cons_of_mem _ h)
    | succ i =>
      rcases List.mem_cons.mp h with rfl | h
      · exact .inl List.mem_cons_self
      · rcases ih h with hmem | ⟨c, hc, he⟩
        · exact .inl (List.mem_cons_of_mem _ hmem)
        · exact .inr ⟨c, List.mem_cons_of_mem _ hc, he⟩

theorem Entered.modifyDay (h : Entered state) (f : DayConfig → DayConfig) (hdate : ∀ day, (f day).date = day.date)
    (hfit : ∀ day, DayFit day → DayFit (f day)) (i : ℕ) : Entered { state with days := state.days.modify i f } := by
  have hdates : (state.days.modify i f).map DayConfig.date = state.dayDates := map_modify hdate _ _
  refine ⟨?_, ?_, ?_, h.slots, h.keys, h.transfers⟩
  · rw [List.length_modify]
    exact h.days_count
  · rw [MultiDayEditableState.dayDates, hdates]
    exact h.dates_distinct
  · intro day hday
    rcases mem_modify hday with hday | ⟨prev, hprev, rfl⟩
    · exact h.days day hday
    · exact hfit prev (h.days prev hprev)

theorem Entered.places (h : Entered state) {selections : EntryMap (List DaySlot)}
    (hslots : ∀ e ∈ selections.entries, ∀ slot ∈ e.2, 0 ≤ slot.dayIndex) :
    Entered { state with placeSelections := selections } :=
  ⟨h.days_count, h.dates_distinct, h.days, hslots, h.keys, h.transfers⟩

theorem Entered.rows (h : Entered state) {drafts : List AccommodationDraft}
    (hkeys : (drafts.map AccommodationDraft.localKey).Nodup) : Entered { state with accommodations := drafts } :=
  ⟨h.days_count, h.dates_distinct, h.days, h.slots, hkeys, h.transfers⟩

theorem Entered.blocks (h : Entered state) {transfers : EntryMap TransferBlock}
    (hkeyed : ∀ e ∈ transfers.entries, e.2.date = e.1) : Entered { state with transfers := transfers } :=
  ⟨h.days_count, h.dates_distinct, h.days, h.slots, h.keys, hkeyed⟩

theorem toggleDaySlot_nonneg {slots : List DaySlot} (h : ∀ slot ∈ slots, 0 ≤ slot.dayIndex) (dayIndex : ℕ)
    (checked : Bool) : ∀ slot ∈ toggleDaySlot slots dayIndex checked, 0 ≤ slot.dayIndex := by
  intro slot hslot
  unfold toggleDaySlot at hslot
  split_ifs at hslot
  · exact h slot hslot
  · rcases List.mem_append.mp hslot with hslot | hnew
    · exact h slot hslot
    · obtain rfl := List.mem_singleton.mp hnew
      exact Int.natCast_nonneg _
  · exact h slot (List.mem_filter.mp hslot).1

theorem defaultDay_fit (date : String) : DayFit (defaultDayConfig date) :=
  ⟨fun hboth ↦ hboth.2 rfl, rfl, rfl⟩

theorem enterStay_key (draft : AccommodationDraft) (input : StayInput) :
    (enterStay draft input).localKey = draft.localKey := by
  cases input <;> rfl

theorem enterTransfer_date (transfer : TransferBlock) (input : TransferInput) :
    (enterTransfer transfer input).date = transfer.date := by
  cases input <;> rfl

/-- The days of a new range keep what the old ones held but their dates. -/
theorem Entered.range (h : Entered state) {startDate : String} {n : ℕ} {days : List DayConfig}
    (hdays : reconcileDays state.days startDate n = some days) (hn : 0 < n ∧ n ≤ 31) :
    Entered { state with days := days } := by
  obtain ⟨d, hd, hdates⟩ := reconcileDays_dates hdays hn.1
  have hlength : days.length = n := by simpa using (reconcileDays_cons hdays).length_eq.symm
  refine ⟨?_, ?_, ?_, h.slots, h.keys, h.transfers⟩
  · rw [hlength]
    exact hn
  · rw [MultiDayEditableState.dayDates, hdates]
    intro hread
    refine List.Nodup.map_on (fun i hi j hj hij ↦ ?_) List.nodup_range
    exact plusDays_text_injective (hread _ (List.mem_map_of_mem hi)) (hread _ (List.mem_map_of_mem hj)) hij
  · intro day hday
    obtain ⟨i, -, ⟨-, prev, hprev, he⟩ | ⟨-, he⟩⟩ := mem_of_forall₂ (reconcileDays_cons hdays) hday
    · have hfit := h.days prev hprev
      rw [he]
      exact ⟨hfit.endOnce, hfit.startPaired, hfit.endPaired⟩
    · rw [he]
      exact defaultDay_fit _

theorem propagate_inv (h : FormInv form) {next : MultiDayEditableState} (hnext : Entered next) :
    FormInv (form.propagate next) ∧ Settled (form.propagate next).state :=
  ⟨⟨hnext.reconcile.1, h.range⟩, hnext.reconcile.2⟩

theorem changeRange_inv (h : FormInv form) :
    FormInv form.changeRange ∧ (Settled form.state → Settled form.changeRange.state) := by
  unfold Form.changeRange
  cases hdays : reconcileDays form.state.days form.startDate form.numDays with
  | none => exact ⟨h, id⟩
  | some days =>
    obtain ⟨hinv, hsettled⟩ := propagate_inv h (h.entered.range hdays h.range)
    exact ⟨hinv, fun _ ↦ hsettled⟩

theorem Entered.toggleInclude (h : Entered state) (placeId : PlaceId) (included : Bool) :
    Entered { state with
      placeSelections :=
        if included then setEntry state.placeSelections placeId []
        else deleteEntry state.placeSelections placeId } := by
  apply h.places
  intro e he slot hslot
  cases included with
  | true =>
    rcases mem_setEntry he with rfl | he
    · exact absurd hslot List.not_mem_nil
    · exact h.slots e he slot hslot
  | false => exact h.slots e (List.mem_filter.mp he).1 slot hslot

theorem Entered.toggleDay (h : Entered state) (placeId : PlaceId) (dayIndex : ℕ) (checked : Bool) :
    Entered { state with
      placeSelections := setEntry state.placeSelections placeId
        (toggleDaySlot ((getEntry state.placeSelections placeId).getD []) dayIndex checked) } := by
  apply h.places
  intro e he
  rcases mem_setEntry he with rfl | he
  · apply toggleDaySlot_nonneg
    intro slot hslot
    cases hslots : getEntry state.placeSelections placeId with
    | none =>
      rw [hslots] at hslot
      exact absurd hslot List.not_mem_nil
    | some slots =>
      rw [hslots] at hslot
      exact h.slots _ (getEntry_mem hslots) slot hslot
  · exact h.slots e he

theorem Entered.addRow (h : Entered state) {localKey : String} (date : String)
    (hnew : localKey ∉ state.accommodations.map AccommodationDraft.localKey) :
    Entered { state with accommodations := state.accommodations ++ [emptyAccommodationDraft localKey date] } := by
  apply h.rows
  rw [List.map_append]
  exact h.keys.append (List.nodup_singleton _) (List.disjoint_singleton.mpr hnew)

theorem Entered.updateRow (h : Entered state) (index : ℕ) (input : StayInput) :
    Entered { state with
      accommodations := state.accommodations.modify index fun draft ↦ enterStay draft input } := by
  apply h.rows
  rw [map_modify fun draft ↦ enterStay_key draft input]
  exact h.keys

theorem Entered.removeRow (h : Entered state) (index : ℕ) :
    Entered { state with accommodations := state.accommodations.eraseIdx index } := by
  apply h.rows
  exact h.keys.sublist ((List.eraseIdx_sublist _ _).map _)

theorem Entered.toggleTransfer (h : Entered state) (date : String) (checked : Bool) :
    Entered { state with
      transfers :=
        if checked then setEntry state.transfers date ⟨date, "10:00", "11:00", none⟩
        else deleteEntry state.transfers date } := by
  apply h.blocks
  intro e he
  cases checked with
  | true =>
    rcases mem_setEntry he with rfl | he
    · rfl
    · exact h.transfers e he
  | false => exact h.transfers e (List.mem_filter.mp he).1

theorem Entered.updateTransfer (h : Entered state) {date : String} {transfer : TransferBlock}
    (htransfer : getEntry state.transfers date = some transfer) (input : TransferInput) :
    Entered { state with transfers := setEntry state.transfers date (enterTransfer transfer input) } := by
  apply h.blocks
  intro e he
  rcases mem_setEntry he with rfl | he
  · rw [enterTransfer_date]
    exact h.transfers _ (getEntry_mem htransfer)
  · exact h.transfers e he

theorem step_inv (h : FormInv form) (hsettled : Settled form.state) {e : Event} (hok : Conforming form e) :
    FormInv (form.step e) ∧ Settled (form.step e).state := by
  have hin := h.entered
  cases e with
  | startDate value =>
    have hentered : FormInv { form with startDate := value } := ⟨hin, h.range⟩
    obtain ⟨hinv, hkept⟩ := changeRange_inv hentered
    exact ⟨hinv, hkept hsettled⟩
  | numDays value =>
    have hrange : 0 < (min maxTripDays (max minTripDays value)).toNat ∧
        (min maxTripDays (max minTripDays value)).toNat ≤ 31 := by
      simp only [maxTripDays, minTripDays]
      omega
    have hentered : FormInv { form with numDays := (min maxTripDays (max minTripDays value)).toNat } := ⟨hin, hrange⟩
    obtain ⟨hinv, hkept⟩ := changeRange_inv hentered
    exact ⟨hinv, hkept hsettled⟩
  | dayStart index input =>
    have hfit : ∀ day, DayFit day → DayFit (enterDayStart input day) := fun _ hday ↦ enterDayStart_fit hday input
    exact propagate_inv h (hin.modifyDay (enterDayStart input) (fun _ ↦ rfl) hfit index)
  | dayEnd index input =>
    have hfit : ∀ day, DayFit day → DayFit (enterDayEnd input day) := fun _ hday ↦ enterDayEnd_fit hday input
    exact propagate_inv h (hin.modifyDay (enterDayEnd input) (fun _ ↦ rfl) hfit index)
  | toggleInclude placeId included =>
    simp only [Form.step]
    by_cases hfull : (included && maxMultidayPlaces ≤ form.state.placeSelections.entries.length) = true
    · rw [if_pos hfull]
      exact ⟨h, hsettled⟩
    · rw [if_neg hfull]
      exact propagate_inv h (hin.toggleInclude placeId included)
  | toggleDay placeId dayIndex checked => exact propagate_inv h (hin.toggleDay placeId dayIndex checked)
  | addRow localKey => exact propagate_inv h (hin.addRow form.tripStart hok)
  | updateRow index input => exact propagate_inv h (hin.updateRow index input)
  | removeRow index => exact propagate_inv h (hin.removeRow index)
  | toggleTransfer date checked => exact propagate_inv h (hin.toggleTransfer date checked)
  | updateTransfer date input =>
    simp only [Form.step]
    cases htransfer : getEntry form.state.transfers date with
    | none => exact ⟨h, hsettled⟩
    | some transfer => exact propagate_inv h (hin.updateTransfer htransfer input)
  | transportMode mode =>
    exact propagate_inv h ⟨hin.days_count, hin.dates_distinct, hin.days, hin.slots, hin.keys, hin.transfers⟩

end Runs

section Items

variable {time : Option String} {day : DayConfig} {c : Requests.DayConfig} {draft : AccommodationDraft}
  {stay : AccommodationStay} {transfer : TransferBlock}

theorem readOptional_iff : (∃ t, readOptional parseClock time = some t) ↔ ∀ s ∈ time, parseClock s ≠ none := by
  cases time with
  | none => exact iff_of_true ⟨none, rfl⟩ (by simp)
  | some s => simp [readOptional, Option.ne_none_iff_exists', Option.map_eq_some_iff]

theorem receiveDay_iff : (∃ c, receiveDay parseClock day = some c) ↔ parseDate day.date ≠ none ∧
    (∀ s ∈ day.dayStartTime, parseClock s ≠ none) ∧ ∀ s ∈ day.dayEndTime, parseClock s ≠ none := by
  rw [← readOptional_iff, ← readOptional_iff]
  simp only [receiveDay, Option.bind_eq_bind, Option.bind_eq_some_iff, Option.ne_none_iff_exists', Option.some.injEq]
  constructor
  · rintro ⟨_, d, hd, start, hstart, finish, hfinish, rfl⟩
    exact ⟨⟨d, hd⟩, ⟨start, hstart⟩, finish, hfinish⟩
  · rintro ⟨⟨d, hd⟩, ⟨start, hstart⟩, finish, hfinish⟩
    exact ⟨_, d, hd, start, hstart, finish, hfinish, rfl⟩

theorem receiveDay_coords (h : receiveDay parseClock day = some c) :
    (c.startLat = day.startLat ∧ c.startLng = day.startLng) ∧ c.endLat = day.endLat ∧ c.endLng = day.endLng := by
  simp only [receiveDay, Option.bind_eq_bind, Option.bind_eq_some_iff, Option.some.injEq] at h
  obtain ⟨_, -, _, -, _, -, rfl⟩ := h
  exact ⟨⟨rfl, rfl⟩, rfl, rfl⟩

theorem readOptional_none {t : Option Time} (h : readOptional parseClock time = some t) : t = none ↔ time = none := by
  cases time with
  | none =>
    obtain rfl := Option.some.inj h
    exact iff_of_true rfl rfl
  | some s =>
    obtain ⟨u, -, rfl⟩ := Option.map_eq_some_iff.mp h
    simp

theorem complete_of_fit (h : receiveDay parseClock day = some c) (hfit : DayFit day) : Complete c := by
  obtain ⟨-, hend, -, hendTime⟩ := receiveDay_spec h
  obtain ⟨⟨hlat, hlng⟩, hlat', hlng'⟩ := receiveDay_coords h
  refine ⟨?_, ?_, ?_⟩
  · rw [hend, Ne, readOptional_none hendTime]
    exact hfit.endOnce
  · rw [hlat, hlng]
    exact hfit.startPaired
  · rw [hlat', hlng']
    exact hfit.endPaired

/-- What the page does not look at in a day. -/
structure DaySendable (day : DayConfig) : Prop where
  date : parseDate day.date ≠ none
  startHour : 0 ≤ day.dayStartHour.getD 9 ∧ day.dayStartHour.getD 9 ≤ 23
  endHour : 1 ≤ day.dayEndHour.getD 21 ∧ day.dayEndHour.getD 21 ≤ 24
  startTime : ∀ s ∈ day.dayStartTime, parseClock s ≠ none
  endTime : ∀ s ∈ day.dayEndTime, parseClock s ≠ none

theorem hoursInRange_of_validate (h : c.validate = .ok ()) : HoursInRange c := by
  simp only [Requests.DayConfig.validate, Requests.validateDayHours, Requests.then_ok, Requests.check_ok] at h
  exact h.1

theorem day_accepted_iff (hfit : DayFit day) (hvalid : isDayConfigValid day = true) :
    (∃ c, receiveDay parseClock day = some c ∧ c.validate = .ok ()) ↔ DaySendable day := by
  constructor
  · rintro ⟨c, hread, hok⟩
    obtain ⟨hstart, hend, -⟩ := receiveDay_spec hread
    obtain ⟨hdate, hstartTime, hendTime⟩ := receiveDay_iff.mp ⟨c, hread⟩
    obtain ⟨hstartHour, hendHour⟩ := hoursInRange_of_validate hok
    rw [hstart] at hstartHour
    rw [hend] at hendHour
    exact ⟨hdate, hstartHour, hendHour, hstartTime, hendTime⟩
  · intro h
    obtain ⟨c, hread⟩ := receiveDay_iff.mpr ⟨h.date, h.startTime, h.endTime⟩
    obtain ⟨hstart, hend, -⟩ := receiveDay_spec hread
    have hhours : HoursInRange c := ⟨hstart ▸ h.startHour, hend ▸ h.endHour⟩
    have hminutes := (isDayConfigValid_iff hread hhours).mp hvalid
    have hseconds : startS c < endS c := by omega
    exact ⟨c, hread, (validate_day_iff hhours).mpr ⟨hseconds, complete_of_fit hread hfit⟩⟩

theorem draftToStay_fields (h : draftToStay draft = some stay) :
    stay.name = String.ofList (trim draft.name.toList) ∧ draft.lat = some stay.lat ∧ draft.lng = some stay.lng ∧
      (stay.checkInDate = draft.checkInDate ∧ stay.checkOutDate = draft.checkOutDate) ∧
      stay.checkInFrom = draft.checkInFrom ∧ stay.checkOutBy = draft.checkOutBy ∧
      isCompleteAccommodationDraft draft = true := by
  unfold draftToStay at h
  split at h
  · next lat lng hlat hlng =>
    split_ifs at h with hcomplete
    obtain rfl := Option.some.inj h
    exact ⟨rfl, hlat, hlng, ⟨rfl, rfl⟩, rfl, rfl, hcomplete⟩
  · cases h

theorem receiveStay_iff : (∃ s, receiveStay parseClock stay = some s) ↔
    parseDate stay.checkInDate ≠ none ∧ parseDate stay.checkOutDate ≠ none ∧
      (∀ s ∈ stay.checkInFrom, parseClock s ≠ none) ∧ ∀ s ∈ stay.checkOutBy, parseClock s ≠ none := by
  rw [← readOptional_iff, ← readOptional_iff]
  simp only [receiveStay, Option.bind_eq_bind, Option.bind_eq_some_iff, Option.ne_none_iff_exists', Option.some.injEq]
  constructor
  · rintro ⟨_, d, hd, d', hd', t, ht, t', ht', rfl⟩
    exact ⟨⟨d, hd⟩, ⟨d', hd'⟩, ⟨t, ht⟩, t', ht'⟩
  · rintro ⟨⟨d, hd⟩, ⟨d', hd'⟩, ⟨t, ht⟩, t', ht'⟩
    exact ⟨_, d, hd, d', hd', t, ht, t', ht', rfl⟩

theorem receiveStay_fields {s : Requests.AccommodationStay} (h : receiveStay parseClock stay = some s) :
    s.name = stay.name ∧ s.lat = stay.lat ∧ s.lng = stay.lng := by
  simp only [receiveStay, Option.bind_eq_bind, Option.bind_eq_some_iff, Option.some.injEq] at h
  obtain ⟨_, -, _, -, _, -, _, -, rfl⟩ := h
  exact ⟨rfl, rfl, rfl⟩

structure StaySendable (draft : AccommodationDraft) : Prop where
  checkIn : parseDate draft.checkInDate ≠ none
  checkOut : parseDate draft.checkOutDate ≠ none
  checkInFrom : ∀ s ∈ draft.checkInFrom, parseClock s ≠ none
  checkOutBy : ∀ s ∈ draft.checkOutBy, parseClock s ≠ none
  name : (trim draft.name.toList).length ≤ 200
  lat : ∀ lat ∈ draft.lat, -90 ≤ lat ∧ lat ≤ 90
  lng : ∀ lng ∈ draft.lng, -180 ≤ lng ∧ lng ≤ 180

theorem validate_stay_iff (hstay : draftToStay draft = some stay) {s : Requests.AccommodationStay}
    (hs : receiveStay parseClock stay = some s) : s.validate = .ok () ↔
      (trim draft.name.toList).length ≤ 200 ∧ (-90 ≤ stay.lat ∧ stay.lat ≤ 90) ∧ -180 ≤ stay.lng ∧ stay.lng ≤ 180 := by
  obtain ⟨hname, -, -, ⟨hin, hout⟩, -, -, hcomplete⟩ := draftToStay_fields hstay
  obtain ⟨hsname, hslat, hslng⟩ := receiveStay_fields hs
  obtain ⟨hsin, hsout⟩ := receiveStay_dates hs
  have hlt : s.checkInDate < s.checkOutDate := by
    rw [← isoformat_strictMono.lt_iff_lt, ← hsin, ← hsout, hin, hout]
    exact complete_nights hcomplete
  have hlength : 1 ≤ (trim draft.name.toList).length := by
    simp only [isCompleteAccommodationDraft, Bool.and_eq_true, decide_eq_true_eq] at hcomplete
    exact hcomplete.1.1.1
  have hslength : s.name.length = (trim draft.name.toList).length := by
    rw [hsname, hname, String.length_ofList]
  simp only [Requests.AccommodationStay.validate, Requests.then_ok, Requests.check_ok, hslength, hslat, hslng, hlt,
    hlength, true_and, and_true]

theorem stay_accepted_iff (hstay : draftToStay draft = some stay) :
    (∃ s, receiveStay parseClock stay = some s ∧ s.validate = .ok ()) ↔ StaySendable draft := by
  obtain ⟨-, hlat, hlng, ⟨hin, hout⟩, hfrom, hby, -⟩ := draftToStay_fields hstay
  constructor
  · rintro ⟨s, hs, hvalid⟩
    obtain ⟨h200, hlatOk, hlngOk⟩ := (validate_stay_iff hstay hs).mp hvalid
    obtain ⟨hcheckIn, hcheckOut, hcheckInFrom, hcheckOutBy⟩ := receiveStay_iff.mp ⟨s, hs⟩
    refine ⟨hin ▸ hcheckIn, hout ▸ hcheckOut, hfrom ▸ hcheckInFrom, hby ▸ hcheckOutBy, h200, ?_, ?_⟩
    · rw [hlat]
      intro lat he
      obtain rfl := Option.some.inj he
      exact hlatOk
    · rw [hlng]
      intro lng he
      obtain rfl := Option.some.inj he
      exact hlngOk
  · intro h
    obtain ⟨s, hs⟩ := receiveStay_iff.mpr
      ⟨hin ▸ h.checkIn, hout ▸ h.checkOut, hfrom ▸ h.checkInFrom, hby ▸ h.checkOutBy⟩
    exact ⟨s, hs, (validate_stay_iff hstay hs).mpr ⟨h.name, h.lat _ hlat, h.lng _ hlng⟩⟩

theorem receiveTransfer_iff : (∃ t, receiveTransfer parseClock transfer = some t) ↔ parseDate transfer.date ≠ none ∧
    parseClock transfer.departureTime ≠ none ∧ parseClock transfer.arrivalTime ≠ none := by
  simp only [receiveTransfer, Option.bind_eq_bind, Option.bind_eq_some_iff, Option.ne_none_iff_exists',
    Option.some.injEq]
  constructor
  · rintro ⟨_, d, hd, t, ht, t', ht', rfl⟩
    exact ⟨⟨d, hd⟩, ⟨t, ht⟩, t', ht'⟩
  · rintro ⟨⟨d, hd⟩, ⟨t, ht⟩, t', ht'⟩
    exact ⟨_, d, hd, t, ht, t', ht', rfl⟩

theorem receiveTransfer_label {t : Requests.TransferBlock} (h : receiveTransfer parseClock transfer = some t) :
    t.label = transfer.label := by
  simp only [receiveTransfer, Option.bind_eq_bind, Option.bind_eq_some_iff, Option.some.injEq] at h
  obtain ⟨_, -, _, -, _, -, rfl⟩ := h
  rfl

structure TransferSendable (transfer : TransferBlock) : Prop where
  departure : parseClock transfer.departureTime ≠ none
  arrival : parseClock transfer.arrivalTime ≠ none
  label : ∀ l ∈ transfer.label, l.length ≤ 200
  later : transfer.arrivalTime ≠ transfer.departureTime ++ ":00"

theorem validate_transfer_iff {t : Requests.TransferBlock} (ht : receiveTransfer parseClock transfer = some t) :
    t.validate = .ok () ↔ (∀ l ∈ transfer.label, l.length ≤ 200) ∧ t.departureTime < t.arrivalTime := by
  simp only [Requests.TransferBlock.validate, Requests.then_ok, Requests.check_ok, receiveTransfer_label ht]

theorem transfer_accepted_iff (hdate : parseDate transfer.date ≠ none) (hvalid : isTransferBlockValid transfer = true) :
    (∃ t, receiveTransfer parseClock transfer = some t ∧ t.validate = .ok ()) ↔ TransferSendable transfer := by
  constructor
  · rintro ⟨t, ht, hok⟩
    obtain ⟨-, hdeparture, harrival⟩ := receiveTransfer_iff.mp ⟨t, ht⟩
    obtain ⟨hlabel, hlt⟩ := (validate_transfer_iff ht).mp hok
    exact ⟨hdeparture, harrival, hlabel, fun hsame ↦ not_later_of_seconds ht hsame hlt⟩
  · intro h
    obtain ⟨t, ht⟩ := receiveTransfer_iff.mpr ⟨hdate, h.departure, h.arrival⟩
    have hlater := (isTransferBlockValid_iff ht).mp hvalid
    exact ⟨t, ht, (validate_transfer_iff ht).mpr ⟨h.label, hlater.resolve_right h.later⟩⟩

end Items

section Requests

variable {browser : Browser} {state : MultiDayEditableState} {form : MultiDayRequest} {r : Requests.MultiDayRequest}

/-- What the server asks of a request and the page does not look at. -/
structure Sendable (state : MultiDayEditableState) : Prop where
  days : ∀ day ∈ state.days, DaySendable day
  stays : ∀ draft ∈ state.accommodations, StaySendable draft
  transfers : ∀ e ∈ state.transfers.entries, TransferSendable e.2
  anchors : ∀ day ∈ state.days, (∀ e ∈ state.transfers.entries, e.1 ≠ day.date) ∨
    day.startLat = none ∧ day.endLat = none

def Accepted (state : MultiDayEditableState) : Prop :=
  ∃ form r, buildMultiDayRequest state = some form ∧ receive parseClock form = some r ∧ r.Valid

structure Checked (browser : Browser) (state : MultiDayEditableState) : Prop where
  days : ∀ day ∈ state.days, isDayConfigValid day = true
  places : 2 ≤ state.placeSelections.entries.length ∧ state.placeSelections.entries.length ≤ 50
  complete : hasIncompleteAccommodation state = false
  apart : hasNoStayOverlaps browser.sort state.accommodations = true
  transfers : ∀ e ∈ state.transfers.entries, isTransferBlockValid e.2 = true

theorem checked_of_canSubmit (h : canSubmit browser false state = true) : Checked browser state := by
  simp only [canSubmit, Bool.not_false, Bool.true_and, Bool.and_eq_true, List.all_eq_true, decide_eq_true_eq,
    Bool.not_eq_true'] at h
  obtain ⟨⟨⟨⟨⟨hdays, hfew⟩, hmany⟩, hcomplete⟩, hapart⟩, htransfers⟩ := h
  exact ⟨hdays, ⟨hfew, hmany⟩, hcomplete, hapart, htransfers⟩

theorem receive_fields {readTime : String → Option Time} (h : receive readTime form = some r) :
    form.days.mapM (receiveDay readTime) = some r.days ∧
      form.accommodations.mapM (receiveStay readTime) = some r.accommodations ∧
      form.transfers.mapM (receiveTransfer readTime) = some r.transfers ∧ r.places = form.places ∧
      r.transportMode = receiveMode form.transportMode ∧
      (r.startLat = form.startLat ∧ r.startLng = form.startLng) ∧ r.endLat = form.endLat ∧ r.endLng = form.endLng := by
  simp only [receive, Option.bind_eq_bind, Option.bind_eq_some_iff, Option.some.injEq] at h
  obtain ⟨days, hdays, stays, hstays, transfers, htransfers, rfl⟩ := h
  exact ⟨hdays, hstays, htransfers, rfl, rfl, ⟨rfl, rfl⟩, rfl, rfl⟩

theorem build_fields (h : buildMultiDayRequest state = some form) :
    (state.accommodations.filter isCompleteAccommodationDraft).mapM draftToStay = some form.accommodations ∧
      form.days = state.days ∧ (form.places = state.placeSelections.entries.map fun e ↦ ⟨e.1, e.2⟩) ∧
      (form.startLat.isNone = form.startLng.isNone ∧ form.endLat.isNone = form.endLng.isNone) ∧
      form.transfers = state.transfers.entries.map Prod.snd := by
  simp only [buildMultiDayRequest, Option.bind_eq_bind, Option.bind_eq_some_iff, Option.some.injEq] at h
  obtain ⟨stays, hstays, rfl⟩ := h
  exact ⟨hstays, rfl, rfl, ⟨by simp, by simp⟩, rfl⟩

theorem isoformat_read (d : Date) : parseDate (isoformat d) ≠ none := by
  rw [parseDate_iff.mpr rfl]
  exact Option.some_ne_none _

theorem nodup_of_isoformat {α : Type} {date : α → Date} {l : List α} (h : (l.map fun a ↦ isoformat (date a)).Nodup) :
    (l.map date).Nodup := by
  apply List.Nodup.of_map isoformat
  rw [List.map_map]
  exact h

theorem sent_length (hsent : SentFrom state r) : r.days.length = state.days.length := by
  have h := congrArg List.length hsent.days
  simpa [MultiDayEditableState.dayDates] using h.symm

theorem sent_dates (hin : Entered state) (hsent : SentFrom state r) :
    (r.days.map Requests.DayConfig.date).Nodup := by
  apply nodup_of_isoformat
  rw [← hsent.days]
  apply hin.dates_distinct
  rw [hsent.days]
  intro date hdate
  obtain ⟨c, -, rfl⟩ := List.mem_map.mp hdate
  exact isoformat_read _

theorem sent_keys (hin : Entered state) (hsent : SentFrom state r) :
    state.transfers.entries.map Prod.fst = r.transfers.map fun t ↦ isoformat t.date := by
  rw [← hsent.transfers]
  exact List.map_congr_left fun e he ↦ (hin.transfers e he).symm

theorem sent_transferDates (hin : Entered state) (hsent : SentFrom state r) :
    (r.transfers.map Requests.TransferBlock.date).Nodup := by
  apply nodup_of_isoformat
  rw [← sent_keys hin hsent]
  exact state.transfers.keys_nodup

theorem sent_entry (hin : Entered state) (hsent : SentFrom state r) :
    ∀ t ∈ r.transfers, ∃ e ∈ state.transfers.entries, e.1 = isoformat t.date := by
  intro t ht
  have hdate : isoformat t.date ∈ r.transfers.map fun t ↦ isoformat t.date := List.mem_map_of_mem ht
  rw [← sent_keys hin hsent] at hdate
  exact List.mem_map.mp hdate

theorem sent_onTrip (hin : Entered state) (hsettled : Settled state) (hsent : SentFrom state r) :
    ∀ t ∈ r.transfers, t.date ∈ r.days.map Requests.DayConfig.date := by
  intro t ht
  obtain ⟨e, he, hdate⟩ := sent_entry hin hsent t ht
  have hday := hsettled.transfers e he
  rw [hsent.days, hdate] at hday
  obtain ⟨c, hc, hsame⟩ := List.mem_map.mp hday
  exact List.mem_map.mpr ⟨c, hc, isoformat_strictMono.injective hsame⟩

/-- Where no row is left incomplete, the rows are the stays that are sent. -/
theorem sent_rows (hchecked : Checked browser state) (hsent : SentFrom state r) :
    List.Forall₂ SameDates state.accommodations r.accommodations := by
  have hsame := hsent.stays
  rwa [filter_complete hchecked.complete] at hsame

theorem sent_changeovers (hin : Entered state) (hsettled : Settled state) (hchecked : Checked browser state)
    (hsent : SentFrom state r) : ∀ t ∈ r.transfers, Requests.validateTransferDay r t = .ok () := by
  intro t ht
  obtain ⟨e, he, hdate⟩ := sent_entry hin hsent t ht
  have htransition := hsettled.changeovers hchecked.complete e he
  rw [hdate, transition_agrees hin.keys (sent_rows hchecked hsent)] at htransition
  rw [Requests.validateTransferDay, Requests.check_ok]
  exact htransition

theorem sent_apart (hchecked : Checked browser state) (hsort : ArraySort browser.sort) (hsent : SentFrom state r) :
    Requests.validateNoStayOverlaps r.accommodations = .ok () := by
  have hsame := sent_rows hchecked hsent
  have hnights : ∀ draft ∈ state.accommodations, draft.checkInDate < draft.checkOutDate := by
    rw [← filter_complete hchecked.complete]
    exact fun draft hdraft ↦ complete_nights (List.mem_filter.mp hdraft).2
  have hstayNights : ∀ s ∈ r.accommodations, s.checkInDate < s.checkOutDate := by
    intro s hs
    obtain ⟨draft, hdraft, hin, hout⟩ := mem_of_forall₂ hsame hs
    rw [← isoformat_strictMono.lt_iff_lt, ← hin, ← hout]
    exact hnights draft hdraft
  have hdrafts := (hasNoStayOverlaps_iff hsort).mp hchecked.apart
  rw [filter_complete hchecked.complete] at hdrafts
  exact (noStayOverlaps_iff_apart hstayNights).mpr ((pairwise_agrees hnights hsame).mp hdrafts)

theorem sent_slots (hin : Entered state) (hsettled : Settled state) (hsent : SentFrom state r) :
    ∀ p ∈ r.places, ∀ slot ∈ p.dayPreferences, 0 ≤ slot.dayIndex ∧ slot.dayIndex < state.days.length := by
  rw [hsent.places]
  intro p hp slot hslot
  obtain ⟨e, he, rfl⟩ := List.mem_map.mp hp
  exact ⟨hin.slots e he slot hslot, hsettled.slots e he slot hslot⟩

theorem sent_placeIds (hsent : SentFrom state r) : (r.places.map Requests.PlaceDayPreference.placeId).Nodup := by
  rw [hsent.places, List.map_map]
  exact state.placeSelections.keys_nodup

/-- Whatever relates the parts of a request has been seen to by the page: what is left to
the server's validators are the parts one by one, and anchors on the days of transfers. -/
theorem valid_iff (hin : Entered state) (hsettled : Settled state) (hchecked : Checked browser state)
    (hsort : ArraySort browser.sort) (hbuild : buildMultiDayRequest state = some form)
    (hread : receive parseClock form = some r) :
    r.Valid ↔ (∀ c ∈ r.days, c.validate = .ok ()) ∧ (∀ s ∈ r.accommodations, s.validate = .ok ()) ∧
      (∀ t ∈ r.transfers, t.validate = .ok ()) ∧ ∀ c ∈ r.days, Requests.validateConfigConflict r c = .ok () := by
  have hsent := sentFrom_of_receive hbuild hread
  obtain ⟨-, -, -, -, hmode, ⟨hstartLat, hstartLng⟩, hendLat, hendLng⟩ := receive_fields hread
  obtain ⟨-, -, -, ⟨hstart, hend⟩, -⟩ := build_fields hbuild
  have hplaceCount : r.places.length = state.placeSelections.entries.length := by rw [hsent.places, List.length_map]
  have hslots := sent_slots hin hsettled hsent
  have htransit : r.transportMode ≠ .transit := by
    rw [hmode]
    cases form.transportMode <;> decide
  simp only [Requests.MultiDayRequest.Valid, Requests.MultiDayRequest.validate, Requests.then_ok, Requests.check_ok,
    Requests.checkAll_ok, Requests.validateStartLocation, Requests.validateEndLocation, sent_length hsent, hplaceCount,
    hstartLat, hstartLng, hendLat, hendLng, hstart, hend, sent_apart hchecked hsort hsent, sent_dates hin hsent,
    sent_transferDates hin hsent, sent_placeIds hsent, true_and]
  constructor
  · rintro ⟨-, hdays, -, -, hstays, htransfers, -, -, -, -, hconflict⟩
    exact ⟨hdays, hstays, htransfers, hconflict⟩
  · rintro ⟨hdays, hstays, htransfers, hconflict⟩
    refine ⟨hin.days_count, hdays, hchecked.places, ?_, hstays, htransfers, htransit, ?_, ?_, ?_, hconflict⟩
    · exact fun p hp slot hslot ↦ (hslots p hp slot hslot).1
    · exact fun p hp slot hslot ↦ (hslots p hp slot hslot).2
    · exact sent_onTrip hin hsettled hsent
    · exact sent_changeovers hin hsettled hchecked hsent

theorem conflict_iff (hbuild : buildMultiDayRequest state = some form) (hread : receive parseClock form = some r)
    (hin : Entered state) :
    (∀ c ∈ r.days, Requests.validateConfigConflict r c = .ok ()) ↔
      ∀ day ∈ state.days,
        (∀ e ∈ state.transfers.entries, e.1 ≠ day.date) ∨ day.startLat = none ∧ day.endLat = none := by
  have hsent := sentFrom_of_receive hbuild hread
  obtain ⟨hdays, -⟩ := receive_fields hread
  obtain ⟨-, hsame, -⟩ := build_fields hbuild
  rw [hsame] at hdays
  have hday : ∀ day c, receiveDay parseClock day = some c → (Requests.validateConfigConflict r c = .ok () ↔
      (∀ e ∈ state.transfers.entries, e.1 ≠ day.date) ∨ day.startLat = none ∧ day.endLat = none) := by
    intro day c hc
    obtain ⟨⟨hstart, -⟩, hend, -⟩ := receiveDay_coords hc
    have hdate : c.date ∈ r.transfers.map Requests.TransferBlock.date ↔
        ∃ e ∈ state.transfers.entries, e.1 = day.date := by
      have hmem : isoformat c.date ∈ (r.transfers.map fun t ↦ isoformat t.date) ↔
          c.date ∈ r.transfers.map Requests.TransferBlock.date := by
        rw [← Function.comp_def isoformat, ← List.map_map]
        exact List.mem_map_of_injective isoformat_strictMono.injective
      rw [← hmem, ← sent_keys hin hsent, ← receiveDay_date hc, List.mem_map]
    rw [Requests.validateConfigConflict, Requests.check_ok, hdate, hstart, hend, not_and_or, not_exists, not_or,
      not_not, not_not]
    refine or_congr_left (forall_congr' fun e ↦ ?_)
    rw [not_and]
  have hall := forall₂_of_mapM hdays
  constructor
  · intro h day hmem
    obtain ⟨c, hc, hread⟩ := mem_of_forall₂ hall.flip hmem
    exact (hday day c hread).mp (h c hc)
  · intro h c hc
    obtain ⟨day, hmem, hread⟩ := mem_of_forall₂ hall hc
    exact (hday day c hread).mpr (h day hmem)

theorem days_accepted_iff (hin : Entered state) (hchecked : Checked browser state) :
    (∃ days, state.days.mapM (receiveDay parseClock) = some days ∧ ∀ c ∈ days, c.validate = .ok ()) ↔
      ∀ day ∈ state.days, DaySendable day := by
  rw [mapM_all_iff]
  exact forall₂_congr fun day hday ↦ day_accepted_iff (hin.days day hday) (hchecked.days day hday)

theorem stays_accepted_iff {stays : List AccommodationStay}
    (hstays : state.accommodations.mapM draftToStay = some stays) :
    (∃ received, stays.mapM (receiveStay parseClock) = some received ∧ ∀ s ∈ received, s.validate = .ok ()) ↔
      ∀ draft ∈ state.accommodations, StaySendable draft := by
  rw [mapM_all_iff]
  have hall := forall₂_of_mapM hstays
  constructor
  · intro h draft hdraft
    obtain ⟨stay, hstay, hdraftToStay⟩ := mem_of_forall₂ hall.flip hdraft
    exact (stay_accepted_iff hdraftToStay).mp (h stay hstay)
  · intro h stay hstay
    obtain ⟨draft, hdraft, hdraftToStay⟩ := mem_of_forall₂ hall hstay
    exact (stay_accepted_iff hdraftToStay).mpr (h draft hdraft)

theorem transfers_accepted_iff (hin : Entered state) (hsettled : Settled state) (hchecked : Checked browser state)
    (hdays : ∀ day ∈ state.days, DaySendable day) :
    (∃ received, (state.transfers.entries.map Prod.snd).mapM (receiveTransfer parseClock) = some received ∧
      ∀ t ∈ received, t.validate = .ok ()) ↔ ∀ e ∈ state.transfers.entries, TransferSendable e.2 := by
  rw [mapM_all_iff, List.forall_mem_map]
  refine forall₂_congr fun e he ↦ ?_
  obtain ⟨day, hday, hdate⟩ := List.mem_map.mp (hsettled.transfers e he)
  have hread := (hdays day hday).date
  rw [hdate, ← hin.transfers e he] at hread
  exact transfer_accepted_iff hread (hchecked.transfers e he)

/-- Where the button is enabled, the server accepts what it sends exactly if nothing is
wrong with what the page does not look at. -/
theorem accepted_iff (hin : Entered state) (hsettled : Settled state) (hchecked : Checked browser state)
    (hsort : ArraySort browser.sort) : Accepted state ↔ Sendable state := by
  obtain ⟨form, hbuild⟩ := build_succeeds state
  obtain ⟨hstays, hsame, -, -, hblocks⟩ := build_fields hbuild
  rw [filter_complete hchecked.complete] at hstays
  have hdaysIff := days_accepted_iff hin hchecked
  have htransfersIff := transfers_accepted_iff hin hsettled hchecked
  rw [← hsame] at hdaysIff
  rw [← hblocks] at htransfersIff
  constructor
  · rintro ⟨form', r, hbuild', hread, hvalid⟩
    obtain rfl : form = form' := Option.some.inj (hbuild.symm.trans hbuild')
    obtain ⟨hdays, hreceived, htransfers, hconflict⟩ := (valid_iff hin hsettled hchecked hsort hbuild hread).mp hvalid
    obtain ⟨hreadDays, hreadStays, hreadTransfers, -⟩ := receive_fields hread
    have hdaysOk := hdaysIff.mp ⟨r.days, hreadDays, hdays⟩
    rw [hsame] at hdaysOk
    exact ⟨hdaysOk, (stays_accepted_iff hstays).mp ⟨_, hreadStays, hreceived⟩,
      (htransfersIff hdaysOk).mp ⟨_, hreadTransfers, htransfers⟩, (conflict_iff hbuild hread hin).mp hconflict⟩
  · intro h
    have hdaysOk := h.days
    rw [← hsame] at hdaysOk
    obtain ⟨days, hreadDays, hdays⟩ := hdaysIff.mpr hdaysOk
    obtain ⟨received, hreadStays, hreceived⟩ := (stays_accepted_iff hstays).mpr h.stays
    obtain ⟨transfers, hreadTransfers, htransfers⟩ := (htransfersIff h.days).mpr h.transfers
    have hread : ∃ r, receive parseClock form = some r ∧ r.days = days ∧ r.accommodations = received ∧
        r.transfers = transfers := by
      simp only [receive, hreadDays, hreadStays, hreadTransfers, Option.bind_eq_bind, Option.bind_some]
      exact ⟨_, rfl, rfl, rfl, rfl⟩
    obtain ⟨r, hread, rfl, rfl, rfl⟩ := hread
    exact ⟨form, r, hbuild, hread, (valid_iff hin hsettled hchecked hsort hbuild hread).mpr
      ⟨hdays, hreceived, htransfers, (conflict_iff hbuild hread hin).mpr h.anchors⟩⟩

end Requests

section Opening

variable {form : MultiDayRequest} {r : Requests.MultiDayRequest} {randomUUID : ℕ → String}

structure Parts (r : Requests.MultiDayRequest) : Prop where
  days_count : 1 ≤ r.days.length ∧ r.days.length ≤ 31
  days : ∀ c ∈ r.days, c.validate = .ok ()
  slots : ∀ p ∈ r.places, ∀ slot ∈ p.dayPreferences, 0 ≤ slot.dayIndex ∧ slot.dayIndex < r.days.length
  dates : (r.days.map Requests.DayConfig.date).Nodup
  onTrip : ∀ t ∈ r.transfers, t.date ∈ r.days.map Requests.DayConfig.date
  changeovers : ∀ t ∈ r.transfers, Requests.isTransitionDay (Requests.dayAnchors r.accommodations t.date) = true

theorem parts_of_valid (h : r.Valid) : Parts r := by
  simp only [Requests.MultiDayRequest.Valid, Requests.MultiDayRequest.validate, Requests.then_ok, Requests.check_ok,
    Requests.checkAll_ok, Requests.validateTransferDay] at h
  obtain ⟨hcount, hdays, -, hslots, -, -, -, hrange, -, -, -, -, hdates, -, honTrip, hchangeovers, -⟩ := h
  exact ⟨hcount, hdays, fun p hp slot hslot ↦ ⟨hslots p hp slot hslot, hrange p hp slot hslot⟩, hdates, honTrip,
    hchangeovers⟩

theorem received_fit {day : DayConfig} {c : Requests.DayConfig} (h : receiveDay parseClock day = some c)
    (hvalid : c.validate = .ok ()) : DayFit day := by
  obtain ⟨-, hend, -, hendTime⟩ := receiveDay_spec h
  obtain ⟨⟨hlat, hlng⟩, hlat', hlng'⟩ := receiveDay_coords h
  simp only [Requests.DayConfig.validate, Requests.validateDayEndTimeSemantics, Requests.validateStartLocation,
    Requests.validateEndLocation, Requests.then_ok, Requests.check_ok, hend, hlat, hlng, hlat', hlng', Ne,
    readOptional_none hendTime] at hvalid
  obtain ⟨-, ⟨-, honce⟩, -, hpaired, hpaired'⟩ := hvalid
  exact ⟨honce, hpaired, hpaired'⟩

theorem drafts_keys (h : Function.Injective randomUUID) (stays : List AccommodationStay) :
    ((draftsOf randomUUID stays.zipIdx).map AccommodationDraft.localKey).Nodup := by
  have hkeys : (draftsOf randomUUID stays.zipIdx).map AccommodationDraft.localKey =
      (List.range stays.length).map randomUUID := by
    calc (draftsOf randomUUID stays.zipIdx).map AccommodationDraft.localKey
        = (stays.zipIdx.map Prod.snd).map randomUUID := by
          rw [draftsOf, List.map_map, List.map_map]
          rfl
      _ = (List.range stays.length).map randomUUID := by rw [List.zipIdx_map_snd, List.range_eq_range']
  rw [hkeys]
  exact List.nodup_range.map h

theorem drafts_dates (hread : form.accommodations.mapM (receiveStay parseClock) = some r.accommodations) :
    List.Forall₂ SameDates (draftsOf randomUUID form.accommodations.zipIdx) r.accommodations := by
  have hstays : List.Forall₂ (fun (s : AccommodationStay × ℕ) stay ↦ s.1.checkInDate = isoformat stay.checkInDate ∧
      s.1.checkOutDate = isoformat stay.checkOutDate) form.accommodations.zipIdx r.accommodations := by
    have hall := (forall₂_of_mapM hread).imp fun _ _ h ↦ receiveStay_dates h
    rw [← List.zipIdx_map_fst 0 form.accommodations, List.forall₂_map_left_iff] at hall
    exact hall
  rw [draftsOf, List.forall₂_map_left_iff]
  exact hstays

theorem hydrated_slots (hread : receive parseClock form = some r) (hvalid : r.Valid)
    (availablePlaceIds : Option (Finset PlaceId)) :
    ∀ e ∈ (hydrateEditableState randomUUID form availablePlaceIds).placeSelections.entries,
      ∀ slot ∈ e.2, 0 ≤ slot.dayIndex ∧ slot.dayIndex < form.days.length := by
  obtain ⟨hdays, -, -, hplaces, -⟩ := receive_fields hread
  have hlength : form.days.length = r.days.length := (forall₂_of_mapM hdays).length_eq
  have hentries : (hydrateEditableState randomUUID form availablePlaceIds).placeSelections.entries =
      (availablePlaces form.places availablePlaceIds).map fun p ↦ (p.placeId, p.dayPreferences) := by
    apply newMap_entries
    rw [List.map_map]
    refine (accepted_of_receive hread hvalid).places_distinct.sublist (List.Sublist.map _ ?_)
    cases availablePlaceIds with
    | none => exact List.Sublist.refl _
    | some _ => exact List.filter_sublist
  rw [hentries, hlength]
  intro e he slot hslot
  obtain ⟨p, hp, rfl⟩ := List.mem_map.mp he
  have hmem : p ∈ r.places := by
    rw [hplaces]
    cases availablePlaceIds with
    | none => exact hp
    | some _ => exact (List.mem_filter.mp hp).1
  exact (parts_of_valid hvalid).slots p hmem slot hslot

theorem hydrated_transfer (hread : receive parseClock form = some r) (hvalid : r.Valid)
    (availablePlaceIds : Option (Finset PlaceId)) :
    ∀ e ∈ (hydrateEditableState randomUUID form availablePlaceIds).transfers.entries,
      e.2.date = e.1 ∧ ∃ t ∈ r.transfers, e.1 = isoformat t.date := by
  obtain ⟨-, -, htransfers, -⟩ := receive_fields hread
  have hentries : (hydrateEditableState randomUUID form availablePlaceIds).transfers.entries =
      form.transfers.map fun t ↦ (t.date, t) := by
    apply newMap_entries
    rw [List.map_map]
    exact (accepted_of_receive hread hvalid).transfers_distinct
  rw [hentries]
  intro e he
  obtain ⟨transfer, htransfer, rfl⟩ := List.mem_map.mp he
  obtain ⟨t, ht, hreadTransfer⟩ := mem_of_forall₂ (forall₂_of_mapM htransfers).flip htransfer
  exact ⟨rfl, t, ht, receiveTransfer_date hreadTransfer⟩

theorem read_dates (hread : receive parseClock form = some r) :
    form.days.map DayConfig.date = r.days.map fun c ↦ isoformat c.date := by
  obtain ⟨hdays, -⟩ := receive_fields hread
  exact map_eq_of_forall₂ (fun _ _ h ↦ receiveDay_date h) (forall₂_of_mapM hdays)

theorem hydrated_entered (hread : receive parseClock form = some r) (hvalid : r.Valid)
    (hkeys : Function.Injective randomUUID) (availablePlaceIds : Option (Finset PlaceId)) :
    Entered (hydrateEditableState randomUUID form availablePlaceIds) := by
  have hparts := parts_of_valid hvalid
  obtain ⟨hdays, -⟩ := receive_fields hread
  have hall := forall₂_of_mapM hdays
  refine ⟨?_, fun _ ↦ ?_, ?_, ?_, drafts_keys hkeys _, ?_⟩
  · exact hall.length_eq ▸ hparts.days_count
  · have hnodup := hparts.dates.map isoformat_strictMono.injective
    rw [List.map_map] at hnodup
    have hdistinct : (form.days.map DayConfig.date).Nodup := by
      rw [read_dates hread]
      exact hnodup
    exact hdistinct
  · intro day hday
    obtain ⟨c, hc, hreadDay⟩ := mem_of_forall₂ hall.flip hday
    exact received_fit hreadDay (hparts.days c hc)
  · exact fun e he slot hslot ↦ (hydrated_slots hread hvalid _ e he slot hslot).1
  · exact fun e he ↦ (hydrated_transfer hread hvalid _ e he).1

theorem hydrated_settled (hread : receive parseClock form = some r) (hvalid : r.Valid)
    (hkeys : Function.Injective randomUUID) (availablePlaceIds : Option (Finset PlaceId)) :
    Settled (hydrateEditableState randomUUID form availablePlaceIds) := by
  have hparts := parts_of_valid hvalid
  obtain ⟨-, hstays, -⟩ := receive_fields hread
  refine ⟨fun e he slot hslot ↦ (hydrated_slots hread hvalid _ e he slot hslot).2, ?_, ?_⟩
  · intro e he
    obtain ⟨-, t, ht, hdate⟩ := hydrated_transfer hread hvalid _ e he
    obtain ⟨c, hc, hsame⟩ := List.mem_map.mp (hparts.onTrip t ht)
    have hmem : e.1 ∈ form.days.map DayConfig.date := by
      rw [read_dates hread, hdate, ← hsame]
      exact List.mem_map_of_mem hc
    exact hmem
  · intro _ e he
    obtain ⟨-, t, ht, hdate⟩ := hydrated_transfer hread hvalid _ e he
    rw [hdate]
    exact (transition_agrees (drafts_keys hkeys _) (drafts_dates hstays) t.date).trans (hparts.changeovers t ht)

variable {Response : Type} {browser : Browser} {prefill : Option (Prefill Response)} {today : String}

def Held (form : Form) : Prop := FormInv form ∧ Settled form.state

theorem new_entered (today : String) :
    Entered (openPage browser (none : Option (Prefill Response)) today).editableState := by
  refine ⟨⟨le_refl 1, ?_⟩, fun _ ↦ List.nodup_singleton _, ?_, ?_, List.nodup_nil, ?_⟩
  · exact Nat.succ_le_of_lt (by decide : 0 < 31)
  · intro day hday
    obtain rfl := List.mem_singleton.mp hday
    exact defaultDay_fit today
  · exact fun e he ↦ absurd he List.not_mem_nil
  · exact fun e he ↦ absurd he List.not_mem_nil

theorem new_settled (today : String) :
    Settled (openPage browser (none : Option (Prefill Response)) today).editableState :=
  ⟨fun _ he ↦ absurd he List.not_mem_nil, fun _ he ↦ absurd he List.not_mem_nil,
    fun _ _ he ↦ absurd he List.not_mem_nil⟩

theorem open_held (hkeys : Function.Injective browser.randomUUID)
    (hsaved : ∀ p, prefill = some p → ∃ r, receive parseClock p.multiDayRequest = some r ∧ r.Valid) :
    Held (openForm browser prefill today) := by
  have hstate : Entered (openPage browser prefill today).editableState ∧
      Settled (openPage browser prefill today).editableState := by
    cases prefill with
    | none => exact ⟨new_entered today, new_settled today⟩
    | some p =>
      obtain ⟨r, hread, hvalid⟩ := hsaved p rfl
      exact ⟨hydrated_entered hread hvalid hkeys _, hydrated_settled hread hvalid hkeys _⟩
  refine ⟨⟨hstate.1, ?_, ?_⟩, hstate.2⟩
  · exact lt_of_lt_of_le Nat.zero_lt_one (le_max_right _ _)
  · exact max_le hstate.1.days_count.2 (by decide)

end Opening

section Weekend

def weekendBrowser : Browser where
  sort := sortByInsertion
  randomUUID := fun n ↦ String.ofList (List.replicate n 'k')
  availablePlaceIds := {"louvre", "orsay"}

def weekendEvents : List Event :=
  [.startDate "2059-05-02", .numDays 2, .toggleInclude "louvre" true, .toggleInclude "orsay" true,
    .toggleDay "orsay" 1 true, .dayEnd 1 (.hour 81), .dayEnd 1 (.hour 18), .dayEnd 1 (.mode .exact), .addRow "r",
    .updateRow 0 (.place (some "Hotel") 48 2), .updateRow 0 (.checkOutDate "2059-05-03")]

def weekendForm : Form := openForm weekendBrowser (none : Option (Prefill ℕ)) "2059-05-01"

theorem weekend_keys : Function.Injective weekendBrowser.randomUUID := by
  intro m n h
  have hlists := String.ofList_injective h
  have hlengths := congrArg List.length hlists
  rwa [List.length_replicate, List.length_replicate] at hlengths

end Weekend

end TravelPlanner.PlannerForm
