import TravelPlanner.EditRuns
import TravelPlanner.StaySelectors
import TravelPlanner.TripRequests

namespace TravelPlanner.EditFrame

open Clock Requests EditOperations FirstMatch Fallible TripEditing EditRuns StaySelectors TripRequests

variable {request data data' data'' : MultiDayRequest} {op : DirectOp} {ops : List DirectOp}
  {operations : List TripEditOperation} {outcome : ApplyOutcome} {after : MultiDayRequest}

section Naming

def namedPlaces (operations : List TripEditOperation) : List PlaceId :=
  (directOps operations).filterMap DirectOp.placeId?

def namedDays (operations : List TripEditOperation) : List ℕ := (directOps operations).filterMap DirectOp.dayWindow?

def namedTransferDates (operations : List TripEditOperation) : List Date :=
  (directOps operations).filterMap DirectOp.transferDate?

def namedModes (operations : List TripEditOperation) : List TransportMode :=
  (directOps operations).filterMap DirectOp.transportMode?

def selectedPositions (request : MultiDayRequest) (operations : List TripEditOperation) : List ℕ :=
  (accommodationOps operations).filterMap fun op ↦
    op.stayIndex?.bind fun selector ↦ (sortedPositions request.accommodations)[selector]?

/-- A batch changes what its operations name and nothing else. -/
structure ChangesOnlyNamed (request : MultiDayRequest) (operations : List TripEditOperation)
    (outcome : ApplyOutcome) (edited : MultiDayRequest) : Prop where
  valid : outcome.request.Valid
  places : (outcome.request.places.filter fun p ↦ p.placeId ∉ namedPlaces operations) =
    request.places.filter fun p ↦ p.placeId ∉ namedPlaces operations
  dates : outcome.request.days.map DayConfig.date = request.days.map DayConfig.date
  days : ∀ i ∉ namedDays operations, outcome.request.days[i]? = request.days[i]?
  stays : ((request.accommodations.zipIdx.filter fun s ↦ s.2 ∉ selectedPositions request operations).map
    Prod.fst).Sublist outcome.request.accommodations
  transfers : (outcome.request.transfers.filter fun t ↦ t.date ∉ namedTransferDates operations) =
    request.transfers.filter fun t ↦ t.date ∉ namedTransferDates operations ∧
      isChangeover outcome.request.days outcome.request.accommodations t.date = true
  mode : namedModes operations = [] → outcome.request.transportMode = request.transportMode
  start : outcome.request.startLat = request.startLat ∧ outcome.request.startLng = request.startLng
  finish : outcome.request.endLat = request.endLat ∧ outcome.request.endLng = request.endLng
  /-- `edited` is the request as the operations left it, before the reconciliation. -/
  reconciled : runHandlers operations ⟨request, request⟩ = .ok ⟨request, edited⟩ ∧
    outcome.request.transfers.Sublist edited.transfers ∧
    outcome.removedTransferDates =
      (edited.transfers.filter fun t ↦ t ∉ outcome.request.transfers).map TransferBlock.date

end Naming

section Handlers

structure Framed (ops : List DirectOp) (data data' : MultiDayRequest) : Prop where
  places : ∀ q : PlaceId → Bool, (∀ op ∈ ops, ∀ id ∈ op.placeId?, q id = false) →
    (data'.places.filter fun p ↦ q p.placeId) = data.places.filter fun p ↦ q p.placeId
  dates : data'.days.map DayConfig.date = data.days.map DayConfig.date
  days : ∀ i, (∀ op ∈ ops, op.dayWindow? ≠ some i) → data'.days[i]? = data.days[i]?
  accommodations : data'.accommodations = data.accommodations
  transfers : ∀ q : Date → Bool, (∀ op ∈ ops, ∀ date ∈ op.transferDate?, q date = false) →
    (data'.transfers.filter fun t ↦ q t.date) = data.transfers.filter fun t ↦ q t.date
  mode : (∀ op ∈ ops, op.transportMode? = none) → data'.transportMode = data.transportMode
  start : data'.startLat = data.startLat ∧ data'.startLng = data.startLng
  finish : data'.endLat = data.endLat ∧ data'.endLng = data.endLng

theorem Framed.refl (ops : List DirectOp) (data : MultiDayRequest) : Framed ops data data :=
  ⟨fun _ _ ↦ rfl, rfl, fun _ _ ↦ rfl, rfl, fun _ _ ↦ rfl, fun _ ↦ rfl, ⟨rfl, rfl⟩, ⟨rfl, rfl⟩⟩

theorem Framed.trans (h : Framed ops data data') (h' : Framed ops data' data'') : Framed ops data data'' where
  places := fun q hq ↦ (h'.places q hq).trans (h.places q hq)
  dates := h'.dates.trans h.dates
  days := fun i hi ↦ (h'.days i hi).trans (h.days i hi)
  accommodations := h'.accommodations.trans h.accommodations
  transfers := fun q hq ↦ (h'.transfers q hq).trans (h.transfers q hq)
  mode := fun hmode ↦ (h'.mode hmode).trans (h.mode hmode)
  start := ⟨h'.start.1.trans h.start.1, h'.start.2.trans h.start.2⟩
  finish := ⟨h'.finish.1.trans h.finish.1, h'.finish.2.trans h.finish.2⟩

theorem filter_writePlace {placeId : PlaceId} {slots : List DaySlot} {q : PlaceId → Bool} (hq : q placeId = false) :
    ((writePlace data placeId slots).places.filter fun p ↦ q p.placeId) = data.places.filter fun p ↦ q p.placeId := by
  refine filter_updateFirst (fun p hp ↦ ?_) data.places
  rw [decide_eq_true_eq] at hp
  simp only [hp, hq, and_self]

theorem framed_of_handled (h : Handled data op data') (hop : op ∈ ops) : Framed ops data data' := by
  have hkept := Framed.refl ops data
  cases h with
  | @placeAuto op _ _ =>
    exact { hkept with places := fun q hq ↦ filter_writePlace (hq _ hop op.placeId rfl) }
  | @placePinned op _ _ _ =>
    exact { hkept with places := fun q hq ↦ filter_writePlace (hq _ hop op.placeId rfl) }
  | @placeFlexible op _ _ _ _ =>
    exact { hkept with places := fun q hq ↦ filter_writePlace (hq _ hop op.placeId rfl) }
  | @placeRemoved op _ _ _ =>
    exact { hkept with places := fun q hq ↦ filter_filter_ne (hq _ hop op.placeId rfl) data.places }
  | @dayWindow op _ =>
    refine { hkept with dates := ?_, days := fun i hi ↦ ?_ }
    · refine List.ext_getElem? fun i ↦ ?_
      rw [List.getElem?_map, List.getElem?_map, List.getElem?_modify]
      cases data.days[i]? with
      | none => rfl
      | some day => by_cases hi : op.dayIndex = i <;> simp [hi, updatedDay]
    · have hne : op.dayIndex ≠ i := fun he ↦ hi _ hop (congrArg some he)
      exact List.getElem?_modify_ne _ _ hne
  | transportMode =>
    refine { hkept with mode := fun hmode ↦ ?_ }
    cases hmode _ hop
  | @transferAdded op _ _ =>
    refine { hkept with transfers := fun q hq ↦ ?_ }
    have hnamed : q op.date = false := hq _ hop op.date rfl
    rw [List.filter_append, List.filter_cons_of_neg (by simp [hnamed]), List.filter_nil, List.append_nil]
  | @transferUpdated op _ _ =>
    refine { hkept with transfers := fun q hq ↦ filter_updateFirst (fun t ht ↦ ?_) data.transfers }
    have hnamed : q op.date = false := hq _ hop op.date rfl
    rw [decide_eq_true_eq] at ht
    simp only [updatedTransfer, ht, hnamed, and_self]
  | @transferRemoved op _ _ =>
    exact { hkept with transfers := fun q hq ↦ filter_filter_ne (hq _ hop op.date rfl) data.transfers }

theorem framed_of_handleAll (h : handleAll ops data = .ok data') : Framed ops data data' :=
  handleAll_invariant h (Framed.refl ops data) fun _ hop _ _ hkept hstep ↦
    hkept.trans (framed_of_handled hstep hop)

end Handlers

section Batches

variable {resolved : List (AccommodationOp × ℕ)}

theorem selectors_ok (h : resolveAccommodationSelectors request.accommodations (accommodationOps operations) =
    .ok resolved) :
    resolved = selections (sortedPositions request.accommodations) (accommodationOps operations) ∧
      (resolved.map Prod.snd).Nodup := by
  obtain ⟨rfl, hselectable⟩ := resolveSelectors_ok_iff.mp h
  exact ⟨rfl, hselectable.distinct⟩

theorem selectedPositions_eq (request : MultiDayRequest) (operations : List TripEditOperation) :
    selectedPositions request operations =
      (selections (sortedPositions request.accommodations) (accommodationOps operations)).map Prod.snd := by
  rw [selectedPositions, selections, List.map_filterMap]
  refine List.filterMap_congr fun op _ ↦ ?_
  cases op.stayIndex? with
  | none => rfl
  | some selector => simp [Option.map_map, Function.comp_def]

theorem isChangeover_congr {days days' : List DayConfig} {stays : List AccommodationStay} {date : Date}
    (h : days.map DayConfig.date = days'.map DayConfig.date) :
    isChangeover days stays date = isChangeover days' stays date := by
  rw [isChangeover, isChangeover, h]

/-- The reconciliation judges a transfer from before the batch by the changeovers alone. -/
theorem keepsTransfer_old {t : TransferBlock} (ht : t ∈ request.transfers) :
    keepsTransfer data (request.transfers.map TransferBlock.date) t = isChangeover data.days data.accommodations t.date := by
  have hold : t.date ∈ request.transfers.map TransferBlock.date := List.mem_map_of_mem ht
  rw [keepsTransfer, decide_eq_false (not_not.mpr hold), Bool.or_false]

theorem accepted_frame (h : Accepted request operations outcome resolved data) :
    ChangesOnlyNamed request operations outcome data := by
  obtain ⟨hrequest, hremoved, hvalid⟩ := h.reconciled
  have hframe := framed_of_handleAll h.handled
  obtain ⟨hresolved, hdistinct⟩ := selectors_ok h.selectors
  have haccommodations : outcome.request.accommodations =
      applyAccommodationOps request.accommodations (accommodationOps operations) resolved := by
    rw [hrequest]
    exact hframe.accommodations
  refine
    { valid := hvalid, places := ?_, dates := ?_, days := ?_, stays := ?_, transfers := ?_, mode := ?_, start := ?_,
      finish := ?_, reconciled := ⟨h.run, ?_, ?_⟩ }
  · rw [hrequest]
    refine hframe.places (fun id ↦ id ∉ namedPlaces operations) fun op hop id hid ↦ ?_
    exact decide_eq_false (not_not.mpr (List.mem_filterMap.mpr ⟨op, hop, hid⟩))
  · rw [hrequest]
    exact hframe.dates
  · intro i hi
    rw [hrequest]
    exact hframe.days i fun op hop hday ↦ hi (List.mem_filterMap.mpr ⟨op, hop, hday⟩)
  · rw [haccommodations, selectedPositions_eq, ← hresolved]
    exact unselected_sublist hdistinct request.accommodations (accommodationOps operations)
  · have hunnamed := hframe.transfers (fun date ↦ date ∉ namedTransferDates operations) fun op hop date hdate ↦
      decide_eq_false (not_not.mpr (List.mem_filterMap.mpr ⟨op, hop, hdate⟩))
    calc (outcome.request.transfers.filter fun t ↦ t.date ∉ namedTransferDates operations)
        = (data.transfers.filter fun t ↦ t.date ∉ namedTransferDates operations).filter
            (keepsTransfer data (request.transfers.map TransferBlock.date)) := by
          rw [hrequest, List.filter_comm]
      _ = (request.transfers.filter fun t ↦ t.date ∉ namedTransferDates operations).filter
            (keepsTransfer data (request.transfers.map TransferBlock.date)) := by
          rw [hunnamed]
          rfl
      _ = request.transfers.filter fun t ↦ t.date ∉ namedTransferDates operations ∧
            isChangeover outcome.request.days outcome.request.accommodations t.date = true := by
          rw [List.filter_filter]
          refine List.filter_congr fun t ht ↦ ?_
          rw [keepsTransfer_old ht, hrequest]
          simp [Bool.and_comm]
  · intro hmode
    rw [hrequest]
    refine hframe.mode fun op hop ↦ ?_
    rw [namedModes, List.filterMap_eq_nil_iff] at hmode
    exact hmode op hop
  · rw [hrequest]
    exact hframe.start
  · rw [hrequest]
    exact hframe.finish
  · rw [hrequest]
    exact List.filter_sublist
  · rw [hremoved, hrequest]
    refine congrArg _ (List.filter_congr fun t ht ↦ ?_)
    simp [List.mem_filter, ht]

/-- An accepted batch changes what it names and leaves the caller's request as it was. -/
theorem batch_changes_only_named (h : applyOperations request operations = .ok (outcome, after)) :
    after = request ∧ ∃ edited, ChangesOnlyNamed request operations outcome edited := by
  obtain ⟨hafter, resolved, data, haccepted⟩ := accepted_of_ok h
  exact ⟨hafter, data, accepted_frame haccepted⟩

def leaveSouth : List TripEditOperation :=
  [.direct (.setPlaceAuto ⟨"65f0c0ffee0000000000000a"⟩), .accommodation (.remove ⟨1⟩)]

def withoutSouth : MultiDayRequest :=
  { changeover with
    places := [⟨"65f0c0ffee0000000000000a", []⟩, ⟨"65f0c0ffee0000000000000b", []⟩]
    accommodations := changeover.accommodations.take 1
    transfers := [] }

theorem batch_changes_only_named_leaveSouth :
    changeover = changeover ∧ ∃ edited, ChangesOnlyNamed changeover leaveSouth ⟨withoutSouth, [dayTwo]⟩ edited :=
  batch_changes_only_named (by decide +kernel)

end Batches

end TravelPlanner.EditFrame
