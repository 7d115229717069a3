import Mathlib.Algebra.Order.Ring.Rat
import Mathlib.Data.List.Nodup
import Mathlib.Data.List.Sort
import TravelPlanner.Clock

namespace TravelPlanner.Requests

open Clock

abbrev PlaceId := String

abbrev Coord := ℚ

inductive TransportMode
  | walk | drive | bicycle | transit
  deriving DecidableEq, Repr

structure DaySlot where
  dayIndex : ℤ
  preferredHourFrom : Option ℤ := none
  preferredHourTo : Option ℤ := none
  deriving DecidableEq, Repr

/-- No slot means any day, one slot pins the place, more slots leave a choice. -/
structure PlaceDayPreference where
  placeId : PlaceId
  dayPreferences : List DaySlot := []
  deriving DecidableEq, Repr

structure AccommodationStay where
  name : String
  lat : Coord
  lng : Coord
  checkInDate : Date
  checkOutDate : Date
  checkInFrom : Option Time := none
  checkOutBy : Option Time := none
  deriving DecidableEq

structure TransferBlock where
  date : Date
  departureTime : Time
  arrivalTime : Time
  label : Option String := none
  deriving DecidableEq

structure OptimizeRequest where
  placeIds : List PlaceId
  transportMode : TransportMode := .walk
  dayStartHour : ℤ := 9
  dayEndHour : ℤ := 21
  dayStartTime : Option Time := none
  dayEndTime : Option Time := none
  startLat : Option Coord := none
  startLng : Option Coord := none
  endLat : Option Coord := none
  endLng : Option Coord := none
  departureDate : Option Date := none
  deriving DecidableEq

structure DayConfig where
  date : Date
  dayStartHour : ℤ := 9
  dayEndHour : ℤ := 21
  dayStartTime : Option Time := none
  dayEndTime : Option Time := none
  startLat : Option Coord := none
  startLng : Option Coord := none
  endLat : Option Coord := none
  endLng : Option Coord := none
  deriving DecidableEq

structure MultiDayRequest where
  days : List DayConfig
  places : List PlaceDayPreference
  transportMode : TransportMode := .walk
  startLat : Option Coord := none
  startLng : Option Coord := none
  endLat : Option Coord := none
  endLng : Option Coord := none
  accommodations : List AccommodationStay := []
  transfers : List TransferBlock := []
  deriving DecidableEq

/-- Why a request is rejected: a field constraint of the model, the text of a
validator, or a validator whose text renders the values carried here. -/
inductive ValidationError
  | field (name : String)
  | value (msg : String)
  | dayIndexOutOfRange (dayIndex : ℤ) (numDays : ℕ)
  | staysOverlap (previous current : AccommodationStay)
  | transferOffTrip (date : Date)
  | transferNotTransition (date : Date)
  | transferAnchorConflict (date : Date)
  deriving DecidableEq

abbrev Validated := Except ValidationError Unit

def check (p : Prop) [Decidable p] (e : ValidationError) : Validated :=
  if p then .ok () else .error e

@[simp] theorem check_ok {p : Prop} [Decidable p] {e : ValidationError} :
    check p e = .ok () ↔ p := by
  unfold check; split_ifs with h <;> simp [h]

@[simp] theorem then_ok {a b : Validated} :
    (do a; b) = .ok () ↔ a = .ok () ∧ b = .ok () := by
  cases a <;> simp [bind, Except.bind]

def checkAll {α : Type} (f : α → Validated) : List α → Validated
  | [] => .ok ()
  | a :: l => do f a; checkAll f l

@[simp] theorem checkAll_ok {α : Type} {f : α → Validated} {l : List α} :
    checkAll f l = .ok () ↔ ∀ a ∈ l, f a = .ok () := by
  induction l with
  | nil => simp [checkAll]
  | cons a l ih => simp [checkAll, ih]

def endTimeMidnight : ValidationError :=
  .value "day_end_time cannot represent midnight; use day_end_hour=24 instead"

def endTimeWithHour24 : ValidationError :=
  .value "day_end_time cannot be combined with day_end_hour=24"

def emptyDayRange : ValidationError :=
  .value "effective day start must be before effective day end"

def validateDayHours (startHour endHour : ℤ) : Validated := do
  check (0 ≤ startHour ∧ startHour ≤ 23) (.field "day_start_hour")
  check (1 ≤ endHour ∧ endHour ≤ 24) (.field "day_end_hour")

def validateDayEndTimeSemantics (endHour : ℤ) (endTime : Option Time) : Validated := do
  check (endTime ≠ some midnight) endTimeMidnight
  check (¬(endHour = 24 ∧ endTime ≠ none)) endTimeWithHour24

def validateDayRange (startHour : ℤ) (startTime : Option Time) (endHour : ℤ) (endTime : Option Time) :
    Validated :=
  check (resolveDayBoundS startHour startTime < resolveDayBoundS endHour endTime) emptyDayRange

def validateStartLocation (lat lng : Option Coord) : Validated :=
  check (lat.isNone = lng.isNone) (.value "start_lat and start_lng must both be provided or both omitted")

def validateEndLocation (lat lng : Option Coord) : Validated :=
  check (lat.isNone = lng.isNone) (.value "end_lat and end_lng must both be provided or both omitted")

def OptimizeRequest.validate (r : OptimizeRequest) : Validated := do
  check (1 ≤ r.placeIds.length ∧ r.placeIds.length ≤ 50) (.field "place_ids")
  validateDayHours r.dayStartHour r.dayEndHour
  validateDayEndTimeSemantics r.dayEndHour r.dayEndTime
  validateDayRange r.dayStartHour r.dayStartTime r.dayEndHour r.dayEndTime
  validateStartLocation r.startLat r.startLng
  validateEndLocation r.endLat r.endLng

def DayConfig.validate (c : DayConfig) : Validated := do
  validateDayHours c.dayStartHour c.dayEndHour
  validateDayEndTimeSemantics c.dayEndHour c.dayEndTime
  validateDayRange c.dayStartHour c.dayStartTime c.dayEndHour c.dayEndTime
  validateStartLocation c.startLat c.startLng
  validateEndLocation c.endLat c.endLng

def AccommodationStay.validate (s : AccommodationStay) : Validated := do
  check (1 ≤ s.name.length ∧ s.name.length ≤ 200) (.field "name")
  check (-90 ≤ s.lat ∧ s.lat ≤ 90) (.field "lat")
  check (-180 ≤ s.lng ∧ s.lng ≤ 180) (.field "lng")
  check (s.checkInDate < s.checkOutDate) (.value "check_out_date must be after check_in_date")

def TransferBlock.validate (t : TransferBlock) : Validated := do
  check (∀ l ∈ t.label, l.length ≤ 200) (.field "label")
  check (t.departureTime < t.arrivalTime)
    (.value "arrival_time must be after departure_time; overnight transfers are not supported in this slice")

def checkAdjacentStays : List AccommodationStay → Validated
  | previous :: current :: rest => do
    check (¬current.checkInDate < previous.checkOutDate) (.staysOverlap previous current)
    checkAdjacentStays (current :: rest)
  | _ => .ok ()

def validateNoStayOverlaps (stays : List AccommodationStay) : Validated :=
  checkAdjacentStays (stays.insertionSort (fun a b ↦ a.checkInDate ≤ b.checkInDate))

/-- A stay with its position in the request. Positions stand for object
identity, which is what the changeover test compares. -/
abbrev StayRef := AccommodationStay × ℕ

/-- The stay a traveller woke up in and the stay they will sleep in. -/
structure DayAccommodationAnchors where
  start : Option StayRef
  finish : Option StayRef
  deriving DecidableEq

def dayAnchors (stays : List AccommodationStay) (day : Date) : DayAccommodationAnchors where
  start := stays.zipIdx.find? (fun s ↦ s.1.checkInDate < day ∧ day ≤ s.1.checkOutDate)
  finish := stays.zipIdx.find? (fun s ↦ s.1.checkInDate ≤ day ∧ day < s.1.checkOutDate)

def resolveDayAnchors (dates : List Date) (stays : List AccommodationStay) :
    List DayAccommodationAnchors := dates.map (dayAnchors stays)

def isTransitionDay (a : DayAccommodationAnchors) : Bool :=
  match a.start, a.finish with
  | some s, some e => s.2 != e.2
  | _, _ => false

def validateTransferDay (r : MultiDayRequest) (t : TransferBlock) : Validated :=
  check (isTransitionDay (dayAnchors r.accommodations t.date)) (.transferNotTransition t.date)

def validateConfigConflict (r : MultiDayRequest) (c : DayConfig) : Validated :=
  check (¬(c.date ∈ r.transfers.map TransferBlock.date ∧ (c.startLat ≠ none ∨ c.endLat ≠ none)))
    (.transferAnchorConflict c.date)

def noTransitError : ValidationError :=
  .value "TRANSIT mode is not supported for multi-day trips; the distance matrix cache does not track departure_date per day"

def MultiDayRequest.validate (r : MultiDayRequest) : Validated := do
  check (1 ≤ r.days.length ∧ r.days.length ≤ 31) (.field "days")
  checkAll DayConfig.validate r.days
  check (2 ≤ r.places.length ∧ r.places.length ≤ 50) (.field "places")
  checkAll (fun p ↦ checkAll (fun s : DaySlot ↦ check (0 ≤ s.dayIndex) (.field "day_index")) p.dayPreferences) r.places
  checkAll AccommodationStay.validate r.accommodations
  checkAll TransferBlock.validate r.transfers
  check (r.transportMode ≠ .transit) noTransitError
  checkAll (fun p ↦ checkAll (fun s : DaySlot ↦
    check (s.dayIndex < r.days.length) (.dayIndexOutOfRange s.dayIndex r.days.length)) p.dayPreferences) r.places
  check (r.places.map PlaceDayPreference.placeId).Nodup (.value "duplicate place_id found in places list")
  validateStartLocation r.startLat r.startLng
  validateEndLocation r.endLat r.endLng
  validateNoStayOverlaps r.accommodations
  check (r.days.map DayConfig.date).Nodup (.value "duplicate date found in days list")
  check (r.transfers.map TransferBlock.date).Nodup (.value "duplicate date found in transfers list")
  checkAll (fun t : TransferBlock ↦ check (t.date ∈ r.days.map DayConfig.date) (.transferOffTrip t.date)) r.transfers
  checkAll (validateTransferDay r) r.transfers
  checkAll (validateConfigConflict r) r.days

def OptimizeRequest.Valid (r : OptimizeRequest) : Prop := r.validate = .ok ()

def MultiDayRequest.Valid (r : MultiDayRequest) : Prop := r.validate = .ok ()

instance (r : OptimizeRequest) : Decidable r.Valid := inferInstanceAs (Decidable (_ = _))

instance (r : MultiDayRequest) : Decidable r.Valid := inferInstanceAs (Decidable (_ = _))

end TravelPlanner.Requests
