import TravelPlanner.Priorities

namespace TravelPlanner.RouteService

open Clock Requests Windows Engine TimedRoutes Construction LocalSearch Priorities

/-- Sentinel ids of the day's anchors, never exposed in a response. -/
def startAnchorId : PlaceId := "__start__"

def endAnchorId : PlaceId := "__end__"

inductive SkipReason
  | noCoordinates | timeWindowInfeasible | noMatrixEntry | matrixIncomplete | droppedLowPriority
  | transferWindowInfeasible | capacityExceeded | preTransferWindowInfeasible | preTransferCapacityExceeded
  deriving DecidableEq, Repr

structure SkippedPlace where
  placeId : PlaceId
  name : Option String
  reason : SkipReason
  deriving DecidableEq, Repr

structure RouteStep where
  placeId : PlaceId
  name : Option String
  lat : Option Coord
  lng : Option Coord
  arrivalTime : Time
  departureTime : Time
  travelFromPreviousS : ℤ
  visitDurationMin : ℤ
  waitMin : ℤ := 0
  deriving DecidableEq

structure OptimizeResponse where
  steps : List RouteStep
  totalTravelTimeS : ℤ
  totalVisitTimeMin : ℤ
  totalWaitMin : ℤ
  transportMode : TransportMode
  skipped : List SkippedPlace
  travelToEndS : ℤ := 0
  deriving DecidableEq

inductive SolverError
  | matrixUnavailable (status : String) (error : Option String)
  | validation (e : ValidationError)
  | assertion
  | noCandidateDay
  deriving DecidableEq

structure MatrixQuery where
  placeCoords : List (PlaceId × Coord × Coord)
  transportMode : TransportMode
  departureTime : Option DateTime
  startAnchor : Option (PlaceId × Coord × Coord)
  endAnchor : Option (PlaceId × Coord × Coord)

structure MatrixFailure where
  status : Option String
  error : Option String

abbrev GetMatrix := MatrixQuery → Except MatrixFailure DistanceMatrix

structure Candidate where
  placeId : PlaceId
  lat : Coord
  lng : Coord
  window : TimeWindow
  visitS : ℤ

section Preparation

variable (request : OptimizeRequest) (docs : List PlaceDoc)

def dayStartS : ℤ := resolveDayBoundS request.dayStartHour request.dayStartTime

def dayEndS : ℤ := resolveDayBoundS request.dayEndHour request.dayEndTime

def windowOf (doc : PlaceDoc) : Option TimeWindow :=
  parseTimeWindow doc (dayStartS request) (dayEndS request) (request.departureDate.map googleWeekday)

def examine (placeId : PlaceId) : SkippedPlace ⊕ Candidate :=
  match docMap docs placeId with
  | none => .inl ⟨placeId, none, .noCoordinates⟩
  | some doc =>
    match doc.lat, doc.lng with
    | some lat, some lng =>
      match windowOf request doc with
      | none => .inl ⟨placeId, doc.name, .timeWindowInfeasible⟩
      | some window => .inr ⟨placeId, lat, lng, window, doc.visitMin * 60⟩
    | _, _ => .inl ⟨placeId, doc.name, .noCoordinates⟩

def preSkipped : List SkippedPlace :=
  request.placeIds.filterMap fun id ↦ (examine request docs id).getLeft?

def candidates : List Candidate :=
  request.placeIds.filterMap fun id ↦ (examine request docs id).getRight?

def candidateOf (placeId : PlaceId) : Option Candidate :=
  (candidates request docs).find? (·.placeId = placeId)

def nodeIds : List PlaceId := (candidates request docs).map Candidate.placeId

def anchorOf (id : PlaceId) (lat lng : Option Coord) : Option (PlaceId × Coord × Coord) := do
  let lat ← lat
  let lng ← lng
  return (id, lat, lng)

def startAnchor : Option (PlaceId × Coord × Coord) := anchorOf startAnchorId request.startLat request.startLng

def endAnchor : Option (PlaceId × Coord × Coord) := anchorOf endAnchorId request.endLat request.endLng

def startId : Option PlaceId := (startAnchor request).map Prod.fst

def endId : Option PlaceId := (endAnchor request).map Prod.fst

/-- Departure of the day, moved up to `now` when it has already passed. -/
def departureTime (now : DateTime) : Option DateTime :=
  request.departureDate.map fun date ↦
    let departure : DateTime := ⟨date, secondsToTime (dayStartS request)⟩
    if departure.before now then now else departure

def matrixQuery (now : DateTime) : MatrixQuery where
  placeCoords := (candidates request docs).map fun c ↦ (c.placeId, c.lat, c.lng)
  transportMode := request.transportMode
  departureTime := departureTime request now
  startAnchor := startAnchor request
  endAnchor := endAnchor request

def dayProblem (matrix : DistanceMatrix) : DayProblem where
  matrix := matrix
  timeWindows := fun id ↦ (candidateOf request docs id).map Candidate.window
  visitDurationsS := fun id ↦ (candidateOf request docs id).map Candidate.visitS
  dayStartS := dayStartS request
  dayEndS := dayEndS request

def priorities (placeId : PlaceId) : Option Priority :=
  if placeId ∈ nodeIds request docs then
    some (((docMap docs placeId).bind PlaceDoc.priority).getD .normal)
  else none

def nameOf (placeId : PlaceId) : Option String := (docMap docs placeId).bind PlaceDoc.name

end Preparation

section Solving

variable (order : SetOrder) (request : OptimizeRequest) (docs : List PlaceDoc) (matrix : DistanceMatrix)

def finalRoute : Option Solved := do
  let p := dayProblem request docs matrix
  let s ← solveWithPriorities p order (priorities request docs) (startId request) (endId request)
    (nodeIds request docs)
  return { s with route := twoOpt p s.route 100 (endId request).isSome }

def actualEdges (candidates : List PlaceId) (placeId : PlaceId) : ℕ :=
  (candidates.filter fun other ↦ other ≠ placeId ∧
    ((matrix.get placeId other).isSome ∨ (matrix.get other placeId).isSome)).length

def skipReason (candidates : List PlaceId) (placeId : PlaceId) : SkipReason :=
  if actualEdges matrix candidates placeId = 0 then .noMatrixEntry
  else if (actualEdges matrix candidates placeId : ℤ) < candidates.length - 1 then .matrixIncomplete
  else .timeWindowInfeasible

def solverSkips (s : Solved) : List SkippedPlace :=
  s.dropped.map (fun id ↦ ⟨id, nameOf docs id, .droppedLowPriority⟩) ++
    s.solverSkipped.map (fun id ↦ ⟨id, nameOf docs id, skipReason matrix s.candidates id⟩)

def isAnchor (id : PlaceId) : Prop := some id = endId request ∨ some id = startId request

instance (id : PlaceId) : Decidable (isAnchor request id) := inferInstanceAs (Decidable (_ ∨ _))

def stepOf (v : Visit) : RouteStep :=
  let visitS := ((dayProblem request docs matrix).visitS v.placeId)
  let waitS := max 0 (v.departureS - visitS - v.arrivalS)
  { placeId := v.placeId
    name := nameOf docs v.placeId
    lat := (docMap docs v.placeId).bind PlaceDoc.lat
    lng := (docMap docs v.placeId).bind PlaceDoc.lng
    arrivalTime := secondsToTime v.arrivalS
    departureTime := secondsToTime v.departureS
    travelFromPreviousS := v.travelS
    visitDurationMin := visitS / 60
    waitMin := waitS / 60 }

/-- The anchors of a schedule are timing points, not steps. -/
def stepsOf (schedule : List Visit) : List RouteStep :=
  (schedule.filter (¬isAnchor request ·.placeId)).map (stepOf request docs matrix)

def travelToEnd (schedule : List Visit) : ℤ :=
  match schedule.reverse.find? (some ·.placeId = endId request) with
  | some v => v.travelS
  | none => 0

def buildResponse (s : Solved) : OptimizeResponse :=
  let schedule := scheduleRoute (dayProblem request docs matrix) s.route
  let steps := stepsOf request docs matrix schedule
  { steps := steps
    totalTravelTimeS := (schedule.map Visit.travelS).sum
    totalVisitTimeMin := (steps.map RouteStep.visitDurationMin).sum
    totalWaitMin := (steps.map RouteStep.waitMin).sum
    transportMode := request.transportMode
    skipped := preSkipped request docs ++ solverSkips docs matrix s
    travelToEndS := travelToEnd request schedule }

end Solving

def emptyResponse (request : OptimizeRequest) (docs : List PlaceDoc) : OptimizeResponse where
  steps := []
  totalTravelTimeS := 0
  totalVisitTimeMin := 0
  totalWaitMin := 0
  transportMode := request.transportMode
  skipped := preSkipped request docs

def optimizeRoute (order : SetOrder) (getMatrix : GetMatrix) (now : DateTime) (request : OptimizeRequest)
    (docs : List PlaceDoc) : Except SolverError OptimizeResponse :=
  if candidates request docs = [] then .ok (emptyResponse request docs)
  else
    match getMatrix (matrixQuery request docs now) with
    | .error e => .error (.matrixUnavailable ((e.status.filter (· ≠ "")).getD "UNKNOWN") e.error)
    | .ok matrix =>
      match finalRoute order request docs matrix with
      | none => .error .assertion
      | some s => .ok (buildResponse request docs matrix s)

end TravelPlanner.RouteService
