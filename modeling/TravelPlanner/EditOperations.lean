import TravelPlanner.Requests

namespace TravelPlanner.EditOperations

open Clock Requests

structure DaySlotOp where
  dayIndex : ℕ
  preferredHourFrom : Option ℤ := none
  preferredHourTo : Option ℤ := none
  deriving DecidableEq

structure SetPlaceAutoOp where
  placeId : PlaceId
  deriving DecidableEq

structure SetPlacePinnedOp where
  placeId : PlaceId
  dayIndex : ℕ
  preferredHourFrom : Option ℤ := none
  preferredHourTo : Option ℤ := none
  deriving DecidableEq

structure SetPlaceFlexibleOp where
  placeId : PlaceId
  slots : List DaySlotOp
  deriving DecidableEq

structure RemovePlaceOp where
  placeId : PlaceId
  deriving DecidableEq

structure UpdateDayWindowOp where
  dayIndex : ℕ
  dayStartHour : Option ℤ := none
  dayEndHour : Option ℤ := none
  dayStartTime : Option Time := none
  dayEndTime : Option Time := none
  clearStartTime : Bool := false
  clearEndTime : Bool := false
  deriving DecidableEq

structure SetTransportModeOp where
  mode : TransportMode
  not_transit : mode ≠ .transit
  deriving DecidableEq

structure AddTransferOp where
  date : Date
  departureTime : Time
  arrivalTime : Time
  label : Option String := none
  deriving DecidableEq

structure UpdateTransferOp where
  date : Date
  departureTime : Option Time := none
  arrivalTime : Option Time := none
  label : Option String := none
  clearLabel : Bool := false
  deriving DecidableEq

structure RemoveTransferOp where
  date : Date
  deriving DecidableEq

structure AddAccommodationOp where
  name : String
  lat : Coord
  lng : Coord
  checkInDate : Date
  checkOutDate : Date
  checkInFrom : Option Time := none
  checkOutBy : Option Time := none
  deriving DecidableEq

structure UpdateAccommodationOp where
  stayIndex : ℕ
  name : Option String := none
  lat : Option Coord := none
  lng : Option Coord := none
  checkInDate : Option Date := none
  checkOutDate : Option Date := none
  checkInFrom : Option Time := none
  checkOutBy : Option Time := none
  clearCheckInFrom : Bool := false
  clearCheckOutBy : Bool := false
  deriving DecidableEq

structure RemoveAccommodationOp where
  stayIndex : ℕ
  deriving DecidableEq

inductive AccommodationOp
  | add (op : AddAccommodationOp)
  | update (op : UpdateAccommodationOp)
  | remove (op : RemoveAccommodationOp)
  deriving DecidableEq

inductive DirectOp
  | setPlaceAuto (op : SetPlaceAutoOp)
  | setPlacePinned (op : SetPlacePinnedOp)
  | setPlaceFlexible (op : SetPlaceFlexibleOp)
  | removePlace (op : RemovePlaceOp)
  | updateDayWindow (op : UpdateDayWindowOp)
  | setTransportMode (op : SetTransportModeOp)
  | addTransfer (op : AddTransferOp)
  | updateTransfer (op : UpdateTransferOp)
  | removeTransfer (op : RemoveTransferOp)
  deriving DecidableEq

inductive TripEditOperation
  | accommodation (op : AccommodationOp)
  | direct (op : DirectOp)
  deriving DecidableEq

def TripEditOperation.accommodation? : TripEditOperation → Option AccommodationOp
  | .accommodation op => some op
  | .direct _ => none

def TripEditOperation.direct? : TripEditOperation → Option DirectOp
  | .accommodation _ => none
  | .direct op => some op

def accommodationOps (operations : List TripEditOperation) : List AccommodationOp :=
  operations.filterMap TripEditOperation.accommodation?

def directOps (operations : List TripEditOperation) : List DirectOp :=
  operations.filterMap TripEditOperation.direct?

def AccommodationOp.stayIndex? : AccommodationOp → Option ℕ
  | .add _ => none
  | .update op => some op.stayIndex
  | .remove op => some op.stayIndex

def AccommodationOp.added? : AccommodationOp → Option AccommodationStay
  | .add op => some
    { name := op.name
      lat := op.lat
      lng := op.lng
      checkInDate := op.checkInDate
      checkOutDate := op.checkOutDate
      checkInFrom := op.checkInFrom
      checkOutBy := op.checkOutBy }
  | _ => none

def DirectOp.placeId? : DirectOp → Option PlaceId
  | .setPlaceAuto op => some op.placeId
  | .setPlacePinned op => some op.placeId
  | .setPlaceFlexible op => some op.placeId
  | .removePlace op => some op.placeId
  | _ => none

def DirectOp.dayWindow? : DirectOp → Option ℕ
  | .updateDayWindow op => some op.dayIndex
  | _ => none

def DirectOp.transportMode? : DirectOp → Option TransportMode
  | .setTransportMode op => some op.mode
  | _ => none

def DirectOp.transferDate? : DirectOp → Option Date
  | .addTransfer op => some op.date
  | .updateTransfer op => some op.date
  | .removeTransfer op => some op.date
  | _ => none

end TravelPlanner.EditOperations
