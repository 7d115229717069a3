import TravelPlanner.EditOperations
import TravelPlanner.Fallible
import TravelPlanner.FirstMatch

namespace TravelPlanner.TripEditing

open Clock Requests EditOperations FirstMatch Fallible

/-- The failures of an edit. The two about days are one class of the source, with the
text of either; a text renders the values carried here. -/
inductive TripEditError
  | placeNotInTrip (placeId : PlaceId)
  | invalidDayIndex (dayIndex numDays : ℕ)
  | invalidDay (date : Date)
  | tooFewPlaces
  | operationValidation (dayIndex : ℕ)
  | accommodationNotFound (selector numStays : ℕ)
  | accommodationSelectorConflict
  | transferAlreadyExists (date : Date)
  | transferNotFound (date : Date)
  | tripEditValidation (e : ValidationError)
  deriving DecidableEq

section Reconcile

def minPlaces : ℕ := 2

def assertPlaceInTrip (places : List PlaceDayPreference) (placeId : PlaceId) :
    Except TripEditError PlaceDayPreference :=
  match places.find? fun p ↦ p.placeId = placeId with
  | some place => .ok place
  | none => .error (.placeNotInTrip placeId)

def assertDayIndexInRange (numDays dayIndex : ℕ) : Except TripEditError Unit :=
  if numDays ≤ dayIndex then .error (.invalidDayIndex dayIndex numDays) else .ok ()

def ensureMinPlaces (count : ℕ) : Except TripEditError Unit :=
  if count < minPlaces then .error .tooFewPlaces else .ok ()

/-- Field by field, what the operation leaves unset is kept from the slot on the day. -/
def mergePreservedHours (existingSlots : List DaySlot) (dayIndex : ℕ) (requestedFrom requestedTo : Option ℤ) :
    Option ℤ × Option ℤ :=
  let existing := existingSlots.find? fun slot ↦ slot.dayIndex = (dayIndex : ℤ)
  (requestedFrom.or (existing.bind DaySlot.preferredHourFrom), requestedTo.or (existing.bind DaySlot.preferredHourTo))

def dedupeSlots (seen : List ℕ) : List DaySlotOp → Except TripEditError Unit
  | [] => .ok ()
  | slot :: slots =>
    if slot.dayIndex ∈ seen then .error (.operationValidation slot.dayIndex)
    else dedupeSlots (slot.dayIndex :: seen) slots

def dedupeFlexibleSlots (op : SetPlaceFlexibleOp) : Except TripEditError Unit := dedupeSlots [] op.slots

def sortedPositions (stays : List AccommodationStay) : List ℕ :=
  (stays.zipIdx.insertionSort fun a b ↦ a.1.checkInDate ≤ b.1.checkInDate).map Prod.snd

/-- The loop over the operations; each one that selects a stay is paired with its position. -/
def resolveSelectors (positions claimed : List ℕ) :
    List AccommodationOp → Except TripEditError (List (AccommodationOp × ℕ))
  | [] => .ok []
  | op :: ops =>
    match op.stayIndex? with
    | none => resolveSelectors positions claimed ops
    | some selector =>
      match positions[selector]? with
      | none => .error (.accommodationNotFound selector positions.length)
      | some original =>
        if original ∈ claimed then .error .accommodationSelectorConflict
        else (resolveSelectors positions (original :: claimed) ops).map fun resolved ↦ (op, original) :: resolved

def resolveAccommodationSelectors (preBatchStays : List AccommodationStay) (ops : List AccommodationOp) :
    Except TripEditError (List (AccommodationOp × ℕ)) :=
  resolveSelectors (sortedPositions preBatchStays) [] ops

def isChangeover (days : List DayConfig) (accommodations : List AccommodationStay) (date : Date) : Bool :=
  date ∈ days.map DayConfig.date && isTransitionDay (dayAnchors accommodations date)

/-- The transfers that stay, and the dates of the ones that go. -/
def reconcileTransfersAfterTransitionChange (days : List DayConfig) (accommodations : List AccommodationStay)
    (transfers : List TransferBlock) (reconcilableDates : List Date) :
    Except ValidationError (List TransferBlock × List Date) :=
  if transfers = [] then .ok ([], [])
  else
    (checkAll AccommodationStay.validate accommodations).map fun _ ↦
      let kept := fun t : TransferBlock ↦ isChangeover days accommodations t.date || t.date ∉ reconcilableDates
      (transfers.filter kept, (transfers.filter fun t ↦ !kept t).map TransferBlock.date)

end Reconcile

section Accommodations

def applyAccommodationUpdate (stay : AccommodationStay) (op : UpdateAccommodationOp) : AccommodationStay where
  name := op.name.getD stay.name
  lat := op.lat.getD stay.lat
  lng := op.lng.getD stay.lng
  checkInDate := op.checkInDate.getD stay.checkInDate
  checkOutDate := op.checkOutDate.getD stay.checkOutDate
  checkInFrom := if op.clearCheckInFrom then none else op.checkInFrom.or stay.checkInFrom
  checkOutBy := if op.clearCheckOutBy then none else op.checkOutBy.or stay.checkOutBy

def updateSelected (stays : List AccommodationStay) : AccommodationOp × ℕ → List AccommodationStay
  | (.update op, i) => stays.modify i fun stay ↦ applyAccommodationUpdate stay op
  | _ => stays

def removedIndex : AccommodationOp × ℕ → Option ℕ
  | (.remove _, i) => some i
  | _ => none

/-- Updates before removals before additions. -/
def applyAccommodationOps (stays : List AccommodationStay) (ops : List AccommodationOp)
    (resolved : List (AccommodationOp × ℕ)) : List AccommodationStay :=
  let updated := resolved.foldl updateSelected stays
  let removed := resolved.filterMap removedIndex
  (updated.zipIdx.filter fun s ↦ s.2 ∉ removed).map Prod.fst ++ ops.filterMap AccommodationOp.added?

end Accommodations

section Handlers

variable (data : MultiDayRequest)

def writePlace (placeId : PlaceId) (slots : List DaySlot) : MultiDayRequest :=
  { data with
    places := updateFirst (fun p ↦ p.placeId = placeId) (fun p ↦ { p with dayPreferences := slots }) data.places }

def handleSetPlaceAuto (op : SetPlaceAutoOp) : Except TripEditError MultiDayRequest := do
  let _ ← assertPlaceInTrip data.places op.placeId
  return writePlace data op.placeId []

/-- A pin without hours takes over those of the only slot, on whatever day it is. -/
def pinnedSlot (existing : List DaySlot) (op : SetPlacePinnedOp) : DaySlot :=
  let hours := mergePreservedHours existing op.dayIndex op.preferredHourFrom op.preferredHourTo
  match hours, existing with
  | (none, none), [slot] => ⟨op.dayIndex, slot.preferredHourFrom, slot.preferredHourTo⟩
  | _, _ => ⟨op.dayIndex, hours.1, hours.2⟩

def handleSetPlacePinned (op : SetPlacePinnedOp) : Except TripEditError MultiDayRequest := do
  let place ← assertPlaceInTrip data.places op.placeId
  assertDayIndexInRange data.days.length op.dayIndex
  return writePlace data op.placeId [pinnedSlot place.dayPreferences op]

def flexibleSlot (existing : List DaySlot) (slot : DaySlotOp) : DaySlot :=
  let hours := mergePreservedHours existing slot.dayIndex slot.preferredHourFrom slot.preferredHourTo
  ⟨slot.dayIndex, hours.1, hours.2⟩

def assertSlotsInRange (numDays : ℕ) : List DaySlotOp → Except TripEditError Unit
  | [] => .ok ()
  | slot :: slots => do
    assertDayIndexInRange numDays slot.dayIndex
    assertSlotsInRange numDays slots

def handleSetPlaceFlexible (op : SetPlaceFlexibleOp) : Except TripEditError MultiDayRequest := do
  let place ← assertPlaceInTrip data.places op.placeId
  dedupeFlexibleSlots op
  assertSlotsInRange data.days.length op.slots
  return writePlace data op.placeId (op.slots.map (flexibleSlot place.dayPreferences))

def handleRemovePlace (op : RemovePlaceOp) : Except TripEditError MultiDayRequest := do
  let _ ← assertPlaceInTrip data.places op.placeId
  ensureMinPlaces (data.places.length - 1)
  return { data with places := data.places.filter fun p ↦ p.placeId ≠ op.placeId }

def updatedDay (op : UpdateDayWindowOp) (day : DayConfig) : DayConfig :=
  { day with
    dayStartHour := op.dayStartHour.getD day.dayStartHour
    dayEndHour := op.dayEndHour.getD day.dayEndHour
    dayStartTime := if op.clearStartTime then none else op.dayStartTime.or day.dayStartTime
    dayEndTime := if op.clearEndTime then none else op.dayEndTime.or day.dayEndTime }

def handleUpdateDayWindow (op : UpdateDayWindowOp) : Except TripEditError MultiDayRequest := do
  assertDayIndexInRange data.days.length op.dayIndex
  return { data with days := data.days.modify op.dayIndex (updatedDay op) }

def handleSetTransportMode (op : SetTransportModeOp) : Except TripEditError MultiDayRequest :=
  return { data with transportMode := op.mode }

def handleAddTransfer (op : AddTransferOp) : Except TripEditError MultiDayRequest :=
  if data.transfers.any fun entry ↦ entry.date = op.date then .error (.transferAlreadyExists op.date)
  else if op.date ∉ data.days.map DayConfig.date then .error (.invalidDay op.date)
  else .ok { data with transfers := data.transfers ++ [⟨op.date, op.departureTime, op.arrivalTime, op.label⟩] }

def findTransfer (onDate : Date) : Except TripEditError TransferBlock :=
  match data.transfers.find? fun entry ↦ entry.date = onDate with
  | some transfer => .ok transfer
  | none => .error (.transferNotFound onDate)

def updatedTransfer (op : UpdateTransferOp) (transfer : TransferBlock) : TransferBlock :=
  { transfer with
    departureTime := op.departureTime.getD transfer.departureTime
    arrivalTime := op.arrivalTime.getD transfer.arrivalTime
    label := if op.clearLabel then none else op.label.or transfer.label }

def handleUpdateTransfer (op : UpdateTransferOp) : Except TripEditError MultiDayRequest := do
  let _ ← findTransfer data op.date
  let transfers := updateFirst (fun entry ↦ entry.date = op.date) (updatedTransfer op) data.transfers
  return { data with transfers := transfers }

def handleRemoveTransfer (op : RemoveTransferOp) : Except TripEditError MultiDayRequest := do
  let _ ← findTransfer data op.date
  return { data with transfers := data.transfers.filter fun entry ↦ entry.date ≠ op.date }

def handle : DirectOp → Except TripEditError MultiDayRequest
  | .setPlaceAuto op => handleSetPlaceAuto data op
  | .setPlacePinned op => handleSetPlacePinned data op
  | .setPlaceFlexible op => handleSetPlaceFlexible data op
  | .removePlace op => handleRemovePlace data op
  | .updateDayWindow op => handleUpdateDayWindow data op
  | .setTransportMode op => handleSetTransportMode data op
  | .addTransfer op => handleAddTransfer data op
  | .updateTransfer op => handleUpdateTransfer data op
  | .removeTransfer op => handleRemoveTransfer data op

end Handlers

def handleAll : List DirectOp → MultiDayRequest → Except TripEditError MultiDayRequest
  | [], data => .ok data
  | op :: ops, data => do
    let data ← handle data op
    handleAll ops data

structure ApplyOutcome where
  request : MultiDayRequest
  removedTransferDates : List Date := []
  deriving DecidableEq

/-- The request of the caller and the deep copy that is written to. -/
structure Workspace where
  request : MultiDayRequest
  data : MultiDayRequest

def Workspace.write (w : Workspace) (f : MultiDayRequest → Except TripEditError MultiDayRequest) :
    Except TripEditError Workspace :=
  (f w.data).map fun data ↦ { w with data := data }

def asEditError {A : Type} : Except ValidationError A → Except TripEditError A
  | .ok a => .ok a
  | .error e => .error (.tripEditValidation e)

/-- The accommodation operations first, then the others in their order. -/
def runHandlers (operations : List TripEditOperation) (w : Workspace) : Except TripEditError Workspace := do
  let resolved ← resolveAccommodationSelectors w.request.accommodations (accommodationOps operations)
  let w ← w.write fun data ↦ .ok
    { data with
      accommodations := applyAccommodationOps data.accommodations (accommodationOps operations) resolved }
  w.write (handleAll (directOps operations))

/-- Transfers without a changeover go, then every validator runs on the whole. -/
def reconcileAndValidate (preBatchTransferDates : List Date) (data : MultiDayRequest) :
    Except TripEditError ApplyOutcome := do
  let (transfers, removed) ← asEditError (reconcileTransfersAfterTransitionChange data.days data.accommodations
    data.transfers preBatchTransferDates)
  let mutated := { data with transfers := transfers }
  asEditError mutated.validate
  return { request := mutated, removedTransferDates := removed }

/-- What a batch makes of a request, with the caller's request as it is afterwards. -/
def applyOperations (request : MultiDayRequest) (operations : List TripEditOperation) :
    Except TripEditError (ApplyOutcome × MultiDayRequest) := do
  let w ← runHandlers operations { request := request, data := request }
  let outcome ← reconcileAndValidate (w.request.transfers.map TransferBlock.date) w.data
  return (outcome, w.request)

end TravelPlanner.TripEditing
