import TravelPlanner.TripService

namespace TravelPlanner.SavedPlans

open Clock Requests TripService

abbrev UtcOffset := {m : ℤ // -1440 < m ∧ m < 1440}

/-- A `time` as a response may hold it: naive, or aware of its offset. -/
structure OffsetTime where
  time : Time
  offset : Option UtcOffset := none
  deriving DecidableEq

structure SkippedPlace where
  placeId : PlaceId
  name : Option String
  reason : String
  deriving DecidableEq, Repr

structure RouteStep where
  placeId : PlaceId
  name : Option String
  lat : Option Coord
  lng : Option Coord
  arrivalTime : OffsetTime
  departureTime : OffsetTime
  travelFromPreviousS : ℤ
  visitDurationMin : ℤ
  waitMin : ℤ := 0
  deriving DecidableEq

structure OptimizeResponse where
  steps : List RouteStep
  totalTravelTimeS : ℤ
  totalVisitTimeMin : ℤ
  totalWaitMin : ℤ
  transportMode : TransportMode
  skipped : List SkippedPlace
  travelToEndS : ℤ := 0
  deriving DecidableEq

structure TransferSegment where
  origin : TransferEndpoint
  destination : TransferEndpoint
  departureTime : OffsetTime
  arrivalTime : OffsetTime
  durationS : ℤ
  label : Option String := none
  deriving DecidableEq

structure DayRouteSegment where
  kind : SegmentKind
  steps : List RouteStep
  totalTravelTimeS : ℤ
  totalVisitTimeMin : ℤ
  totalWaitMin : ℤ
  travelToEndS : ℤ := 0
  skipped : List SkippedPlace
  deriving DecidableEq

structure DayPlan where
  dayIndex : ℤ
  date : Date
  steps : List RouteStep
  totalTravelTimeS : ℤ
  totalVisitTimeMin : ℤ
  totalWaitMin : ℤ
  skipped : List SkippedPlace
  travelToEndS : ℤ := 0
  transfer : Option TransferSegment := none
  routeSegments : List DayRouteSegment := []
  deriving DecidableEq

structure MultiDayResponse where
  days : List DayPlan
  transportMode : TransportMode
  unassigned : List SkippedPlace
  deriving DecidableEq

section Solver

def reasonText : RouteService.SkipReason → String
  | .noCoordinates => "NO_COORDINATES"
  | .timeWindowInfeasible => "TIME_WINDOW_INFEASIBLE"
  | .noMatrixEntry => "NO_MATRIX_ENTRY"
  | .matrixIncomplete => "MATRIX_INCOMPLETE"
  | .droppedLowPriority => "DROPPED_LOW_PRIORITY"
  | .transferWindowInfeasible => "TRANSFER_WINDOW_INFEASIBLE"
  | .capacityExceeded => "CAPACITY_EXCEEDED"
  | .preTransferWindowInfeasible => "PRE_TRANSFER_WINDOW_INFEASIBLE"
  | .preTransferCapacityExceeded => "PRE_TRANSFER_CAPACITY_EXCEEDED"

def SkippedPlace.ofSolver (p : RouteService.SkippedPlace) : SkippedPlace := ⟨p.placeId, p.name, reasonText p.reason⟩

def RouteStep.ofSolver (s : RouteService.RouteStep) : RouteStep where
  placeId := s.placeId
  name := s.name
  lat := s.lat
  lng := s.lng
  arrivalTime := ⟨s.arrivalTime, none⟩
  departureTime := ⟨s.departureTime, none⟩
  travelFromPreviousS := s.travelFromPreviousS
  visitDurationMin := s.visitDurationMin
  waitMin := s.waitMin

def TransferSegment.ofSolver (t : TripService.TransferSegment) : TransferSegment where
  origin := t.origin
  destination := t.destination
  departureTime := ⟨t.departureTime, none⟩
  arrivalTime := ⟨t.arrivalTime, none⟩
  durationS := t.durationS
  label := t.label

def DayRouteSegment.ofSolver (s : TripService.DayRouteSegment) : DayRouteSegment where
  kind := s.kind
  steps := s.steps.map .ofSolver
  totalTravelTimeS := s.totalTravelTimeS
  totalVisitTimeMin := s.totalVisitTimeMin
  totalWaitMin := s.totalWaitMin
  travelToEndS := s.travelToEndS
  skipped := s.skipped.map .ofSolver

def DayPlan.ofSolver (d : TripService.DayPlan) : DayPlan where
  dayIndex := d.dayIndex
  date := d.date
  steps := d.steps.map .ofSolver
  totalTravelTimeS := d.totalTravelTimeS
  totalVisitTimeMin := d.totalVisitTimeMin
  totalWaitMin := d.totalWaitMin
  skipped := d.skipped.map .ofSolver
  travelToEndS := d.travelToEndS
  transfer := d.transfer.map .ofSolver
  routeSegments := d.routeSegments.map .ofSolver

def MultiDayResponse.ofSolver (r : TripService.MultiDayResponse) : MultiDayResponse where
  days := r.days.map .ofSolver
  transportMode := r.transportMode
  unassigned := r.unassigned.map .ofSolver

end Solver

end TravelPlanner.SavedPlans
