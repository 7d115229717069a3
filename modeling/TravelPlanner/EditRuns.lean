import TravelPlanner.TripEditing

namespace TravelPlanner.EditRuns

open Clock Requests EditOperations FirstMatch Fallible TripEditing

variable {request data data' : MultiDayRequest} {op : DirectOp} {ops : List DirectOp}
  {operations : List TripEditOperation} {outcome : ApplyOutcome} {after : MultiDayRequest}

section Handlers

inductive Handled (data : MultiDayRequest) : DirectOp → MultiDayRequest → Prop
  | placeAuto {op : SetPlaceAutoOp} {place : PlaceDayPreference}
      (hplace : (data.places.find? fun p ↦ p.placeId = op.placeId) = some place) :
      Handled data (.setPlaceAuto op) (writePlace data op.placeId [])
  | placePinned {op : SetPlacePinnedOp} {place : PlaceDayPreference}
      (hplace : (data.places.find? fun p ↦ p.placeId = op.placeId) = some place)
      (hday : op.dayIndex < data.days.length) :
      Handled data (.setPlacePinned op) (writePlace data op.placeId [pinnedSlot place.dayPreferences op])
  | placeFlexible {op : SetPlaceFlexibleOp} {place : PlaceDayPreference}
      (hplace : (data.places.find? fun p ↦ p.placeId = op.placeId) = some place)
      (hdistinct : dedupeFlexibleSlots op = .ok ()) (hdays : assertSlotsInRange data.days.length op.slots = .ok ()) :
      Handled data (.setPlaceFlexible op)
        (writePlace data op.placeId (op.slots.map (flexibleSlot place.dayPreferences)))
  | placeRemoved {op : RemovePlaceOp} {place : PlaceDayPreference}
      (hplace : (data.places.find? fun p ↦ p.placeId = op.placeId) = some place)
      (hcount : minPlaces ≤ data.places.length - 1) :
      Handled data (.removePlace op) { data with places := data.places.filter fun p ↦ p.placeId ≠ op.placeId }
  | dayWindow {op : UpdateDayWindowOp} (hday : op.dayIndex < data.days.length) :
      Handled data (.updateDayWindow op) { data with days := data.days.modify op.dayIndex (updatedDay op) }
  | transportMode {op : SetTransportModeOp} :
      Handled data (.setTransportMode op) { data with transportMode := op.mode }
  | transferAdded {op : AddTransferOp} (hnew : ∀ t ∈ data.transfers, t.date ≠ op.date)
      (hday : op.date ∈ data.days.map DayConfig.date) :
      Handled data (.addTransfer op)
        { data with transfers := data.transfers ++ [⟨op.date, op.departureTime, op.arrivalTime, op.label⟩] }
  | transferUpdated {op : UpdateTransferOp} {transfer : TransferBlock}
      (hfound : (data.transfers.find? fun t ↦ t.date = op.date) = some transfer) :
      Handled data (.updateTransfer op)
        { data with transfers := updateFirst (fun t ↦ t.date = op.date) (updatedTransfer op) data.transfers }
  | transferRemoved {op : RemoveTransferOp} {transfer : TransferBlock}
      (hfound : (data.transfers.find? fun t ↦ t.date = op.date) = some transfer) :
      Handled data (.removeTransfer op) { data with transfers := data.transfers.filter fun t ↦ t.date ≠ op.date }

theorem assertPlaceInTrip_ok {places : List PlaceDayPreference} {placeId : PlaceId} {place : PlaceDayPreference}
    (h : assertPlaceInTrip places placeId = .ok place) : (places.find? fun p ↦ p.placeId = placeId) = some place := by
  unfold assertPlaceInTrip at h
  split at h
  · next found hfound => rw [hfound, Except.ok.inj h]
  · cases h

theorem assertDayIndexInRange_ok {numDays dayIndex : ℕ} {u : Unit}
    (h : assertDayIndexInRange numDays dayIndex = .ok u) : dayIndex < numDays := by
  unfold assertDayIndexInRange at h
  split_ifs at h with hle
  exact not_le.mp hle

theorem findTransfer_ok {date : Date} {transfer : TransferBlock} (h : findTransfer data date = .ok transfer) :
    (data.transfers.find? fun t ↦ t.date = date) = some transfer := by
  unfold findTransfer at h
  split at h
  · next found hfound => rw [hfound, Except.ok.inj h]
  · cases h

theorem handled_of_ok (h : handle data op = .ok data') : Handled data op data' := by
  cases op with
  | setPlaceAuto op =>
    obtain ⟨place, hplace, h⟩ := bind_eq_ok.mp h
    obtain rfl := pure_eq_ok.mp h
    exact .placeAuto (assertPlaceInTrip_ok hplace)
  | setPlacePinned op =>
    obtain ⟨place, hplace, h⟩ := bind_eq_ok.mp h
    obtain ⟨_, hday, h⟩ := bind_eq_ok.mp h
    obtain rfl := pure_eq_ok.mp h
    exact .placePinned (assertPlaceInTrip_ok hplace) (assertDayIndexInRange_ok hday)
  | setPlaceFlexible op =>
    obtain ⟨place, hplace, h⟩ := bind_eq_ok.mp h
    obtain ⟨_, hdistinct, h⟩ := bind_eq_ok.mp h
    obtain ⟨_, hdays, h⟩ := bind_eq_ok.mp h
    obtain rfl := pure_eq_ok.mp h
    exact .placeFlexible (assertPlaceInTrip_ok hplace) hdistinct hdays
  | removePlace op =>
    obtain ⟨place, hplace, h⟩ := bind_eq_ok.mp h
    obtain ⟨_, hcount, h⟩ := bind_eq_ok.mp h
    obtain rfl := pure_eq_ok.mp h
    unfold ensureMinPlaces at hcount
    split_ifs at hcount with hlt
    exact .placeRemoved (assertPlaceInTrip_ok hplace) (not_lt.mp hlt)
  | updateDayWindow op =>
    obtain ⟨_, hday, h⟩ := bind_eq_ok.mp h
    obtain rfl := pure_eq_ok.mp h
    exact .dayWindow (assertDayIndexInRange_ok hday)
  | setTransportMode op =>
    obtain rfl := pure_eq_ok.mp h
    exact .transportMode
  | addTransfer op =>
    rw [handle, handleAddTransfer] at h
    split_ifs at h with hexists hday
    obtain rfl := Except.ok.inj h
    exact .transferAdded (by simpa using hexists) hday
  | updateTransfer op =>
    obtain ⟨transfer, hfound, h⟩ := bind_eq_ok.mp h
    obtain rfl := pure_eq_ok.mp h
    exact .transferUpdated (findTransfer_ok hfound)
  | removeTransfer op =>
    obtain ⟨transfer, hfound, h⟩ := bind_eq_ok.mp h
    obtain rfl := pure_eq_ok.mp h
    exact .transferRemoved (findTransfer_ok hfound)

/-- What every handler keeps, all of them keep together. -/
theorem handleAll_invariant {Inv : MultiDayRequest → Prop} (h : handleAll ops data = .ok data') (hinit : Inv data)
    (hstep : ∀ op ∈ ops, ∀ d d', Inv d → Handled d op d' → Inv d') : Inv data' := by
  induction ops generalizing data with
  | nil =>
    obtain rfl := Except.ok.inj h
    exact hinit
  | cons op ops ih =>
    obtain ⟨next, hnext, h⟩ := bind_eq_ok.mp h
    have hkept := hstep op List.mem_cons_self data next hinit (handled_of_ok hnext)
    exact ih h hkept fun op' hop ↦ hstep op' (List.mem_cons_of_mem op hop)

end Handlers

section Batches

theorem asEditError_ok {A : Type} {r : Except ValidationError A} {a : A} : asEditError r = .ok a ↔ r = .ok a := by
  cases r <;> simp [asEditError]

/-- A transfer that the reconciliation leaves in place. -/
def keepsTransfer (data : MultiDayRequest) (preBatchTransferDates : List Date) (t : TransferBlock) : Bool :=
  isChangeover data.days data.accommodations t.date || t.date ∉ preBatchTransferDates

theorem reconcile_ok {days : List DayConfig} {accommodations : List AccommodationStay} {dates : List Date}
    {transfers : List TransferBlock} {result : List TransferBlock × List Date}
    (h : reconcileTransfersAfterTransitionChange days accommodations transfers dates = .ok result) :
    result.1 = (transfers.filter fun t ↦ isChangeover days accommodations t.date || t.date ∉ dates) ∧
      result.2 = (transfers.filter fun t ↦
        !(isChangeover days accommodations t.date || t.date ∉ dates)).map TransferBlock.date := by
  unfold reconcileTransfersAfterTransitionChange at h
  split_ifs at h with hnone
  · obtain rfl := Except.ok.inj h
    simp [hnone]
  · obtain ⟨_, _, rfl⟩ := map_eq_ok.mp h
    exact ⟨rfl, rfl⟩

/-- What the end of a batch makes of the edited request. -/
structure Reconciled (data : MultiDayRequest) (dates : List Date) (outcome : ApplyOutcome) : Prop where
  request : outcome.request = { data with transfers := data.transfers.filter (keepsTransfer data dates) }
  removed : outcome.removedTransferDates =
    (data.transfers.filter fun t ↦ !keepsTransfer data dates t).map TransferBlock.date
  valid : outcome.request.Valid

theorem reconciled_of_ok {dates : List Date} (h : reconcileAndValidate dates data = .ok outcome) :
    Reconciled data dates outcome := by
  obtain ⟨⟨transfers, removed⟩, hreconcile, h⟩ := bind_eq_ok.mp h
  obtain ⟨_, hvalid, h⟩ := bind_eq_ok.mp h
  obtain rfl := pure_eq_ok.mp h
  obtain ⟨hkept, hremoved⟩ := reconcile_ok (asEditError_ok.mp hreconcile)
  dsimp only at hkept hremoved
  subst hkept hremoved
  exact ⟨rfl, rfl, asEditError_ok.mp hvalid⟩

def withStays (request : MultiDayRequest) (operations : List TripEditOperation)
    (resolved : List (AccommodationOp × ℕ)) : MultiDayRequest :=
  { request with
    accommodations := applyAccommodationOps request.accommodations (accommodationOps operations) resolved }

structure Accepted (request : MultiDayRequest) (operations : List TripEditOperation) (outcome : ApplyOutcome)
    (resolved : List (AccommodationOp × ℕ)) (data : MultiDayRequest) : Prop where
  selectors : resolveAccommodationSelectors request.accommodations (accommodationOps operations) = .ok resolved
  handled : handleAll (directOps operations) (withStays request operations resolved) = .ok data
  reconciled : Reconciled data (request.transfers.map TransferBlock.date) outcome

theorem runHandlers_ok_iff {w : Workspace} : runHandlers operations ⟨request, request⟩ = .ok w ↔ ∃ resolved,
    resolveAccommodationSelectors request.accommodations (accommodationOps operations) = .ok resolved ∧
      handleAll (directOps operations) (withStays request operations resolved) = .ok w.data ∧ w.request = request := by
  constructor
  · intro h
    obtain ⟨resolved, hresolved, h⟩ := bind_eq_ok.mp h
    obtain ⟨w₁, h₁, h⟩ := bind_eq_ok.mp h
    obtain ⟨_, hdata, rfl⟩ := map_eq_ok.mp h₁
    obtain rfl := Except.ok.inj hdata
    obtain ⟨data, hdata, rfl⟩ := map_eq_ok.mp h
    exact ⟨resolved, hresolved, hdata, rfl⟩
  · obtain ⟨caller, data⟩ := w
    rintro ⟨resolved, hresolved, hdata, rfl⟩
    refine bind_eq_ok.mpr ⟨resolved, hresolved, ?_⟩
    refine bind_eq_ok.mpr ⟨⟨caller, withStays caller operations resolved⟩, rfl, ?_⟩
    exact map_eq_ok.mpr ⟨data, hdata, rfl⟩

/-- A batch is accepted when each of its stages is; the caller's request is only read. -/
theorem applyOperations_ok_iff : applyOperations request operations = .ok (outcome, after) ↔ after = request ∧
    ∃ resolved data,
      resolveAccommodationSelectors request.accommodations (accommodationOps operations) = .ok resolved ∧
      handleAll (directOps operations) (withStays request operations resolved) = .ok data ∧
      reconcileAndValidate (request.transfers.map TransferBlock.date) data = .ok outcome := by
  constructor
  · intro h
    obtain ⟨w, hw, h⟩ := bind_eq_ok.mp h
    obtain ⟨result, hresult, h⟩ := bind_eq_ok.mp h
    obtain ⟨rfl, rfl⟩ := Prod.mk.inj (pure_eq_ok.mp h)
    obtain ⟨resolved, hresolved, hdata, hrequest⟩ := runHandlers_ok_iff.mp hw
    rw [hrequest] at hresult
    exact ⟨hrequest, resolved, w.data, hresolved, hdata, hresult⟩
  · rintro ⟨rfl, resolved, data, hresolved, hdata, hresult⟩
    have hrun : runHandlers operations ⟨after, after⟩ = .ok ⟨after, data⟩ :=
      runHandlers_ok_iff.mpr ⟨resolved, hresolved, hdata, rfl⟩
    exact bind_eq_ok.mpr ⟨⟨after, data⟩, hrun, bind_eq_ok.mpr ⟨outcome, hresult, rfl⟩⟩

theorem Accepted.run {resolved : List (AccommodationOp × ℕ)} (h : Accepted request operations outcome resolved data) :
    runHandlers operations ⟨request, request⟩ = .ok ⟨request, data⟩ :=
  runHandlers_ok_iff.mpr ⟨resolved, h.selectors, h.handled, rfl⟩

theorem accepted_of_ok (h : applyOperations request operations = .ok (outcome, after)) :
    after = request ∧ ∃ resolved data, Accepted request operations outcome resolved data := by
  obtain ⟨hafter, resolved, data, hresolved, hdata, hresult⟩ := applyOperations_ok_iff.mp h
  exact ⟨hafter, resolved, data, hresolved, hdata, reconciled_of_ok hresult⟩

end Batches

end TravelPlanner.EditRuns
