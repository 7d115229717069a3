import TravelPlanner.IsoDates
import TravelPlanner.Lines
import TravelPlanner.Requests

namespace TravelPlanner.Planner

open Lines
open Requests (Coord DaySlot PlaceDayPreference)

@[ext]
structure EntryMap (V : Type) where
  entries : List (String × V)
  keys_nodup : (entries.map Prod.fst).Nodup

variable {V : Type}

def EntryMap.mapValues (f : V → V) (m : EntryMap V) : EntryMap V where
  entries := m.entries.map fun e ↦ (e.1, f e.2)
  keys_nodup := by
    rw [List.map_map]
    exact m.keys_nodup

def EntryMap.filter (p : String → Bool) (m : EntryMap V) : EntryMap V where
  entries := m.entries.filter fun e ↦ p e.1
  keys_nodup := m.keys_nodup.sublist ((List.filter_sublist).map Prod.fst)

inductive TransportModeNoTransit
  | walk | drive | bicycle
  deriving DecidableEq, Repr

/-- Dates and times are the texts of the date and time inputs of the page. -/
structure DayConfig where
  date : String
  dayStartHour : Option ℤ := none
  dayEndHour : Option ℤ := none
  dayStartTime : Option String := none
  dayEndTime : Option String := none
  startLat : Option Coord := none
  startLng : Option Coord := none
  endLat : Option Coord := none
  endLng : Option Coord := none
  deriving DecidableEq

structure AccommodationStay where
  name : String
  lat : Coord
  lng : Coord
  checkInDate : String
  checkOutDate : String
  checkInFrom : Option String
  checkOutBy : Option String
  deriving DecidableEq

structure TransferBlock where
  date : String
  departureTime : String
  arrivalTime : String
  label : Option String := none
  deriving DecidableEq

structure AccommodationDraft where
  localKey : String
  name : String
  lat : Option Coord
  lng : Option Coord
  checkInDate : String
  checkOutDate : String
  checkInFrom : Option String
  checkOutBy : Option String
  deriving DecidableEq

structure Point where
  lat : Coord
  lng : Coord
  deriving DecidableEq

structure MultiDayEditableState where
  days : List DayConfig
  placeSelections : EntryMap (List DaySlot)
  transportMode : TransportModeNoTransit
  accommodations : List AccommodationDraft
  transfers : EntryMap TransferBlock
  globalStart : Option Point
  globalEnd : Option Point

structure MultiDayRequest where
  days : List DayConfig
  places : List PlaceDayPreference
  transportMode : TransportModeNoTransit
  startLat : Option Coord
  startLng : Option Coord
  endLat : Option Coord
  endLng : Option Coord
  accommodations : List AccommodationStay
  transfers : List TransferBlock
  deriving DecidableEq

def isCompleteAccommodationDraft (draft : AccommodationDraft) : Bool :=
  0 < (trim draft.name.toList).length && draft.lat ≠ none && draft.lng ≠ none &&
    draft.checkInDate < draft.checkOutDate

/-- `none` where the source throws. -/
def draftToStay (draft : AccommodationDraft) : Option AccommodationStay :=
  match draft.lat, draft.lng with
  | some lat, some lng =>
    if isCompleteAccommodationDraft draft then
      some
        { name := String.ofList (trim draft.name.toList)
          lat := lat
          lng := lng
          checkInDate := draft.checkInDate
          checkOutDate := draft.checkOutDate
          checkInFrom := draft.checkInFrom
          checkOutBy := draft.checkOutBy }
    else none
  | _, _ => none

def pruneSlotsToRange (slots : List DaySlot) (numDays : ℕ) : List DaySlot :=
  slots.filter fun s ↦ s.dayIndex < numDays

def isStayRelevantToRange (stay : AccommodationDraft) (tripStart tripEnd : String) : Bool :=
  stay.checkInDate ≤ tripEnd && tripStart ≤ stay.checkOutDate

def pruneAccommodationsToRange (accommodations : List AccommodationDraft) (tripStart tripEnd : String) :
    List AccommodationDraft := accommodations.filter fun entry ↦ isStayRelevantToRange entry tripStart tripEnd

def pruneTransfersToRange (transfers : EntryMap TransferBlock) (dayDates : List String) :
    EntryMap TransferBlock := transfers.filter fun date ↦ date ∈ dayDates

structure DayAnchors where
  start : Option AccommodationDraft
  finish : Option AccommodationDraft
  deriving DecidableEq

def anchorsOf (accommodations : List AccommodationDraft) (day : String) : DayAnchors where
  start := accommodations.find? fun a ↦ a.checkInDate < day ∧ day ≤ a.checkOutDate
  finish := accommodations.find? fun a ↦ a.checkInDate ≤ day ∧ day < a.checkOutDate

def resolveDayAnchors (dates : List String) (accommodations : List AccommodationDraft) : List DayAnchors :=
  dates.map (anchorsOf accommodations)

def isTransitionDay (anchors : DayAnchors) : Bool :=
  match anchors.start, anchors.finish with
  | some s, some e => s.localKey != e.localKey
  | _, _ => false

def computeTransitionDates (dayDates : List String) (accommodations : List AccommodationDraft) : List String :=
  ((dayDates.zip (resolveDayAnchors dayDates accommodations)).filter fun d ↦ isTransitionDay d.2).map Prod.fst

def MultiDayEditableState.dayDates (state : MultiDayEditableState) : List String := state.days.map DayConfig.date

def pruneToTrip (dayDates : List String) (accommodations : List AccommodationDraft) : List AccommodationDraft :=
  match dayDates.head?, dayDates.getLast? with
  | some tripStart, some tripEnd => pruneAccommodationsToRange accommodations tripStart tripEnd
  | _, _ => accommodations

def reconcileEditableState (state : MultiDayEditableState) : MultiDayEditableState :=
  let accommodations := pruneToTrip state.dayDates state.accommodations
  let transitionDates :=
    computeTransitionDates state.dayDates (accommodations.filter isCompleteAccommodationDraft)
  { state with
    placeSelections := state.placeSelections.mapValues fun slots ↦ pruneSlotsToRange slots state.days.length
    accommodations := accommodations
    transfers := (pruneTransfersToRange state.transfers state.dayDates).filter fun date ↦ date ∈ transitionDates }

def buildMultiDayRequest (state : MultiDayEditableState) : Option MultiDayRequest := do
  let accommodations ← (state.accommodations.filter isCompleteAccommodationDraft).mapM draftToStay
  some
    { days := state.days
      places := state.placeSelections.entries.map fun e ↦ ⟨e.1, e.2⟩
      transportMode := state.transportMode
      startLat := state.globalStart.map Point.lat
      startLng := state.globalStart.map Point.lng
      endLat := state.globalEnd.map Point.lat
      endLng := state.globalEnd.map Point.lng
      accommodations := accommodations
      transfers := state.transfers.entries.map Prod.snd }

theorem mapValues_idem {f : V → V} (hf : ∀ v, f (f v) = f v) (m : EntryMap V) :
    (m.mapValues f).mapValues f = m.mapValues f := by
  ext1
  simp [EntryMap.mapValues, hf]

theorem filter_filter (p q : String → Bool) (m : EntryMap V) :
    (m.filter p).filter q = m.filter fun k ↦ p k && q k := by
  ext1
  simp only [EntryMap.filter, List.filter_filter, Bool.and_comm]

theorem pruneSlots_idem (slots : List DaySlot) (numDays : ℕ) :
    pruneSlotsToRange (pruneSlotsToRange slots numDays) numDays = pruneSlotsToRange slots numDays := by
  simp [pruneSlotsToRange]

theorem pruneToTrip_idem (dayDates : List String) (accommodations : List AccommodationDraft) :
    pruneToTrip dayDates (pruneToTrip dayDates accommodations) = pruneToTrip dayDates accommodations := by
  cases hfirst : dayDates.head? with
  | none => simp [pruneToTrip, hfirst]
  | some tripStart =>
    cases hlast : dayDates.getLast? with
    | none => simp [pruneToTrip, hlast]
    | some tripEnd => simp [pruneToTrip, hfirst, hlast, pruneAccommodationsToRange]

theorem pruneToTrip_sublist (dayDates : List String) (accommodations : List AccommodationDraft) :
    (pruneToTrip dayDates accommodations).Sublist accommodations := by
  unfold pruneToTrip
  split
  · exact List.filter_sublist
  · exact List.Sublist.refl _

theorem reconcile_idem (state : MultiDayEditableState) :
    reconcileEditableState (reconcileEditableState state) = reconcileEditableState state := by
  have hdates : (reconcileEditableState state).dayDates = state.dayDates := rfl
  have hslots := mapValues_idem (fun slots ↦ pruneSlots_idem slots state.days.length) state.placeSelections
  have hstays := pruneToTrip_idem state.dayDates state.accommodations
  rw [reconcileEditableState, hdates]
  simp only [reconcileEditableState, hslots, hstays, pruneTransfersToRange, filter_filter]
  congr 2
  funext k
  generalize decide (k ∈ state.dayDates) = a
  generalize decide (k ∈ computeTransitionDates _ _) = b
  cases a <;> simp

theorem head_le {l : List String} (h : l.Pairwise (· < ·)) {a b : String} (ha : l.head? = some a) (hb : b ∈ l) :
    a ≤ b := by
  cases l with
  | nil => cases ha
  | cons c l =>
    obtain rfl := Option.some.inj ha
    rcases List.mem_cons.mp hb with rfl | hb
    · exact le_rfl
    · exact ((List.pairwise_cons.mp h).1 b hb).le

theorem le_last {l : List String} (h : l.Pairwise (· < ·)) {a b : String} (ha : l.getLast? = some a) (hb : b ∈ l) :
    b ≤ a := by
  obtain ⟨init, rfl⟩ := List.getLast?_eq_some_iff.mp ha
  rcases List.mem_append.mp hb with hb | hb
  · exact ((List.pairwise_append.mp h).2.2 b hb a (by simp)).le
  · exact (List.mem_singleton.mp hb).le

theorem find?_filter_of_imp {α : Type} {p q : α → Bool} (h : ∀ a, p a = true → q a = true) (l : List α) :
    (l.filter q).find? p = l.find? p := by
  rw [List.find?_filter]
  congr 1
  funext a
  cases hp : p a with
  | true => simp [h a hp]
  | false => simp

/-- A stay that anchors a day of the trip overlaps the trip, so the pruning keeps it. -/
theorem anchorsOf_prune {dayDates : List String} (hdates : dayDates.Pairwise (· < ·)) {day : String}
    (hday : day ∈ dayDates) (accommodations : List AccommodationDraft) :
    anchorsOf (pruneToTrip dayDates accommodations) day = anchorsOf accommodations day := by
  unfold pruneToTrip
  split
  case h_2 => rfl
  case h_1 tripStart tripEnd hfirst hlast =>
    have hstart := head_le hdates hfirst hday
    have hend := le_last hdates hlast hday
    have hkeep : ∀ stay : AccommodationDraft, stay.checkInDate ≤ day → day ≤ stay.checkOutDate →
        isStayRelevantToRange stay tripStart tripEnd = true := by
      intro stay hin hout
      simp [isStayRelevantToRange, hin.trans hend, hstart.trans hout]
    rw [anchorsOf, anchorsOf, pruneAccommodationsToRange]
    congr 1
    · apply find?_filter_of_imp
      intro stay hstay
      obtain ⟨hin, hout⟩ := of_decide_eq_true hstay
      exact hkeep stay hin.le hout
    · apply find?_filter_of_imp
      intro stay hstay
      obtain ⟨hin, hout⟩ := of_decide_eq_true hstay
      exact hkeep stay hin hout.le

theorem pruneToTrip_filter (p : AccommodationDraft → Bool) (dayDates : List String)
    (accommodations : List AccommodationDraft) :
    (pruneToTrip dayDates accommodations).filter p = pruneToTrip dayDates (accommodations.filter p) := by
  unfold pruneToTrip
  split
  · simp only [pruneAccommodationsToRange, List.filter_filter, Bool.and_comm]
  · rfl

theorem resolve_prune {dayDates : List String} (hdates : dayDates.Pairwise (· < ·))
    (accommodations : List AccommodationDraft) :
    resolveDayAnchors dayDates (pruneToTrip dayDates accommodations) = resolveDayAnchors dayDates accommodations :=
  List.map_congr_left fun _ hday ↦ anchorsOf_prune hdates hday accommodations

theorem mem_transitionDates {dayDates : List String} {accommodations : List AccommodationDraft} {day : String} :
    day ∈ computeTransitionDates dayDates accommodations ↔
      day ∈ dayDates ∧ isTransitionDay (anchorsOf accommodations day) = true := by
  rw [computeTransitionDates, resolveDayAnchors, ← List.map_prod_left_eq_zip]
  simp [List.filter_map, Function.comp_def]

theorem draftToStay_of_complete {draft : AccommodationDraft} (h : isCompleteAccommodationDraft draft = true) :
    ∃ stay, draftToStay draft = some stay := by
  have h' := h
  simp only [isCompleteAccommodationDraft, Bool.and_eq_true, decide_eq_true_eq] at h'
  obtain ⟨⟨⟨-, hlat⟩, hlng⟩, -⟩ := h'
  obtain ⟨lat, hlat⟩ := Option.ne_none_iff_exists'.mp hlat
  obtain ⟨lng, hlng⟩ := Option.ne_none_iff_exists'.mp hlng
  simp [draftToStay, hlat, hlng, h]

theorem draftToStay_dates {draft : AccommodationDraft} {stay : AccommodationStay} (h : draftToStay draft = some stay) :
    stay.checkInDate = draft.checkInDate ∧ stay.checkOutDate = draft.checkOutDate := by
  unfold draftToStay at h
  split at h
  · split_ifs at h
    obtain rfl := Option.some.inj h
    exact ⟨rfl, rfl⟩
  · cases h

theorem slots_in_range {state : MultiDayEditableState} {e : String × List DaySlot}
    (he : e ∈ (reconcileEditableState state).placeSelections.entries) {slot : DaySlot} (hslot : slot ∈ e.2) :
    slot.dayIndex < state.days.length := by
  obtain ⟨e', -, rfl⟩ := List.mem_map.mp he
  exact of_decide_eq_true (List.mem_filter.mp hslot).2

theorem transfers_kept {state : MultiDayEditableState} {e : String × TransferBlock}
    (he : e ∈ (reconcileEditableState state).transfers.entries) :
    e ∈ state.transfers.entries ∧ e.1 ∈ state.dayDates ∧ isTransitionDay
      (anchorsOf ((reconcileEditableState state).accommodations.filter isCompleteAccommodationDraft) e.1) = true := by
  obtain ⟨hin, htransition⟩ := List.mem_filter.mp he
  obtain ⟨hmem, hday⟩ := List.mem_filter.mp hin
  exact ⟨hmem, of_decide_eq_true hday, (mem_transitionDates.mp (of_decide_eq_true htransition)).2⟩

end TravelPlanner.Planner
