import TravelPlanner.DayPartition

namespace TravelPlanner.TripService

open Clock Requests Windows Engine RouteService DayPartition

structure TransferEndpoint where
  name : String
  lat : Coord
  lng : Coord
  deriving DecidableEq

structure TransferSegment where
  origin : TransferEndpoint
  destination : TransferEndpoint
  departureTime : Time
  arrivalTime : Time
  durationS : ℤ
  label : Option String := none
  deriving DecidableEq

inductive SegmentKind
  | preTransfer | postTransfer
  deriving DecidableEq, Repr

structure DayRouteSegment where
  kind : SegmentKind
  steps : List RouteStep
  totalTravelTimeS : ℤ
  totalVisitTimeMin : ℤ
  totalWaitMin : ℤ
  travelToEndS : ℤ := 0
  skipped : List SkippedPlace
  deriving DecidableEq

structure DayPlan where
  dayIndex : ℕ
  date : Date
  steps : List RouteStep
  totalTravelTimeS : ℤ
  totalVisitTimeMin : ℤ
  totalWaitMin : ℤ
  skipped : List SkippedPlace
  travelToEndS : ℤ := 0
  transfer : Option TransferSegment := none
  routeSegments : List DayRouteSegment := []
  deriving DecidableEq

structure MultiDayResponse where
  days : List DayPlan
  transportMode : TransportMode
  unassigned : List SkippedPlace
  deriving DecidableEq

/-- An end bound as a pair of fields a single-day request accepts. -/
def resolveSegmentEndBoundFields (endS : ℤ) : ℤ × Option Time :=
  if 24 * 3600 ≤ endS then (24, none) else (23, some (secondsToTime endS))

def endpointOf (stay : AccommodationStay) : TransferEndpoint := ⟨stay.name, stay.lat, stay.lng⟩

def buildTransferSegment (ctx : TransitionDayContext) : TransferSegment where
  origin := endpointOf ctx.origin
  destination := endpointOf ctx.destination
  departureTime := ctx.transfer.departureTime
  arrivalTime := ctx.transfer.arrivalTime
  durationS := resolveDayBoundS 0 (some ctx.transfer.arrivalTime) -
    resolveDayBoundS 0 (some ctx.transfer.departureTime)
  label := ctx.transfer.label

/-- The slot of a place on a day; a later slot of the same day wins. -/
def slotFor (places : List PlaceDayPreference) (placeId : PlaceId) (day : ℕ) : Option DaySlot :=
  ((places.flatMap fun p ↦ p.dayPreferences.map (p.placeId, ·)).reverse.find?
    fun s ↦ s.1 = placeId ∧ DaySlot.day s.2 = day).map Prod.snd

/-- Hours of the slot replace those of the document. -/
def overrideHours (slot : Option DaySlot) (doc : PlaceDoc) : PlaceDoc :=
  match slot with
  | none => doc
  | some slot =>
    { doc with
      preferredHourFrom := slot.preferredHourFrom.or doc.preferredHourFrom
      preferredHourTo := slot.preferredHourTo.or doc.preferredHourTo }

def dayDoc (places : List PlaceDayPreference) (docs : PlaceId → Option PlaceDoc) (day : ℕ) (placeId : PlaceId) :
    Option PlaceDoc :=
  (docs placeId).map (overrideHours (slotFor places placeId day))

def buildDayDocs (places : List PlaceDayPreference) (docs : PlaceId → Option PlaceDoc) (day : ℕ)
    (dayPlaceIds : List PlaceId) : List PlaceDoc :=
  dayPlaceIds.filterMap (dayDoc places docs day)

inductive CallKind
  | ordinary | preTransfer | postTransfer
  deriving DecidableEq, Repr

structure SolverCall where
  request : OptimizeRequest
  docs : List PlaceDoc

/-- What a trip depends on besides its request: each call asks the matrix
service anew and reads the clock anew. -/
structure World where
  order : SetOrder
  getMatrix : ℕ → CallKind → GetMatrix
  now : ℕ → CallKind → DateTime

/-- Building the request validates it before the pipeline starts. -/
def runCall (w : World) (day : ℕ) (kind : CallKind) (c : SolverCall) : Except SolverError OptimizeResponse :=
  match c.request.validate with
  | .error e => .error (.validation e)
  | .ok () => optimizeRoute w.order (w.getMatrix day kind) (w.now day kind) c.request c.docs

def runOptional (w : World) (day : ℕ) (kind : CallKind) :
    Option SolverCall → Except SolverError (Option OptimizeResponse)
  | none => .ok none
  | some c => (runCall w day kind c).map some

def segmentFromResult (kind : SegmentKind) (result : Option OptimizeResponse) (windowSkipped : List SkippedPlace) :
    DayRouteSegment :=
  match result with
  | none =>
    { kind := kind, steps := [], totalTravelTimeS := 0, totalVisitTimeMin := 0, totalWaitMin := 0
      skipped := windowSkipped }
  | some r =>
    { kind := kind
      steps := r.steps
      totalTravelTimeS := r.totalTravelTimeS
      totalVisitTimeMin := r.totalVisitTimeMin
      totalWaitMin := r.totalWaitMin
      travelToEndS := r.travelToEndS
      skipped := r.skipped }

/-- Explicit coordinate of the day, else of the stay, else of the trip. -/
def anchorCoord (configured : Option Coord) (stay : Option StayRef) (coord : AccommodationStay → Coord)
    (fallback : Option Coord) : Option Coord :=
  configured.or ((stay.map fun s ↦ some (coord s.1)).getD fallback)

section Trip

variable (request : MultiDayRequest) (docs : PlaceId → Option PlaceDoc) (packing : Packing)

def preCall (cfg : DayConfig) (day : ℕ) (ctx : TransitionDayContext) : Option SolverCall :=
  if packing.preBuckets day ≠ [] ∧ 0 < ctx.preVisitBudgetMin then
    some
      { request :=
          { placeIds := packing.preBuckets day
            transportMode := request.transportMode
            dayStartHour := cfg.dayStartHour
            dayEndHour := (resolveSegmentEndBoundFields ctx.preEndS).1
            dayStartTime := cfg.dayStartTime
            dayEndTime := (resolveSegmentEndBoundFields ctx.preEndS).2
            departureDate := some cfg.date
            startLat := some ctx.origin.lat
            startLng := some ctx.origin.lng
            endLat := some ctx.origin.lat
            endLng := some ctx.origin.lng }
        docs := buildDayDocs request.places docs day (packing.preBuckets day) }
  else none

def postCall (cfg : DayConfig) (day : ℕ) (ctx : TransitionDayContext) : Option SolverCall :=
  if packing.postBuckets day ≠ [] ∧ 0 < ctx.postVisitBudgetMin then
    some
      { request :=
          { placeIds := packing.postBuckets day
            transportMode := request.transportMode
            dayStartHour := cfg.dayStartHour
            dayEndHour := cfg.dayEndHour
            dayStartTime := some (secondsToTime ctx.postStartS)
            dayEndTime := cfg.dayEndTime
            departureDate := some cfg.date
            startLat := some ctx.destination.lat
            startLng := some ctx.destination.lng
            endLat := some ctx.destination.lat
            endLng := some ctx.destination.lng }
        docs := buildDayDocs request.places docs day (packing.postBuckets day) }
  else none

/-- On a changeover without a transfer neither stay becomes an anchor. -/
def ordinaryCall (cfg : DayConfig) (day : ℕ) : Option SolverCall :=
  let anchors := dayAnchors request.accommodations cfg.date
  let accommodationStart := if isTransitionDay anchors then none else anchors.start
  let accommodationEnd := if isTransitionDay anchors then none else anchors.finish
  if packing.buckets day ≠ [] then
    some
      { request :=
          { placeIds := packing.buckets day
            transportMode := request.transportMode
            dayStartHour := cfg.dayStartHour
            dayEndHour := cfg.dayEndHour
            dayStartTime := cfg.dayStartTime
            dayEndTime := cfg.dayEndTime
            departureDate := some cfg.date
            startLat := anchorCoord cfg.startLat accommodationStart AccommodationStay.lat request.startLat
            startLng := anchorCoord cfg.startLng accommodationStart AccommodationStay.lng request.startLng
            endLat := anchorCoord cfg.endLat accommodationEnd AccommodationStay.lat request.endLat
            endLng := anchorCoord cfg.endLng accommodationEnd AccommodationStay.lng request.endLng }
        docs := buildDayDocs request.places docs day (packing.buckets day) }
  else none

def windowSkipped (placeIds : List PlaceId) (budgetMin : ℤ) (reason : SkipReason) : List SkippedPlace :=
  if budgetMin = 0 then placeIds.map fun id ↦ ⟨id, (docs id).bind PlaceDoc.name, reason⟩ else []

variable (w : World)

def preSegment (day : ℕ) (ctx : TransitionDayContext) (result : Option OptimizeResponse) : DayRouteSegment :=
  segmentFromResult .preTransfer result
    (windowSkipped docs (packing.preBuckets day) ctx.preVisitBudgetMin .preTransferWindowInfeasible)

def postSegment (day : ℕ) (ctx : TransitionDayContext) (result : Option OptimizeResponse) : DayRouteSegment :=
  segmentFromResult .postTransfer result
    (windowSkipped docs (packing.postBuckets day) ctx.postVisitBudgetMin .transferWindowInfeasible)

def transitionPlan (cfg : DayConfig) (day : ℕ) (ctx : TransitionDayContext) (pre post : DayRouteSegment) :
    DayPlan where
  dayIndex := day
  date := cfg.date
  steps := post.steps
  totalTravelTimeS := post.totalTravelTimeS
  totalVisitTimeMin := post.totalVisitTimeMin
  totalWaitMin := post.totalWaitMin
  skipped := packing.preSolverSkipped day ++ pre.skipped ++ post.skipped
  travelToEndS := post.travelToEndS
  transfer := some (buildTransferSegment ctx)
  routeSegments := [pre, post]

def buildTransitionDayPlan (cfg : DayConfig) (day : ℕ) (ctx : TransitionDayContext) :
    Except SolverError DayPlan := do
  let pre ← runOptional w day .preTransfer (preCall request docs packing cfg day ctx)
  let post ← runOptional w day .postTransfer (postCall request docs packing cfg day ctx)
  return transitionPlan packing cfg day ctx (preSegment docs packing day ctx pre)
    (postSegment docs packing day ctx post)

def ordinaryPlan (cfg : DayConfig) (day : ℕ) : Option OptimizeResponse → DayPlan
  | none =>
    { dayIndex := day, date := cfg.date, steps := [], totalTravelTimeS := 0, totalVisitTimeMin := 0
      totalWaitMin := 0, skipped := [] }
  | some r =>
    { dayIndex := day
      date := cfg.date
      steps := r.steps
      totalTravelTimeS := r.totalTravelTimeS
      totalVisitTimeMin := r.totalVisitTimeMin
      totalWaitMin := r.totalWaitMin
      skipped := r.skipped
      travelToEndS := r.travelToEndS }

def planDay (cfg : DayConfig) (day : ℕ) : Except SolverError DayPlan :=
  match transferContexts request day with
  | some ctx => buildTransitionDayPlan request docs packing w cfg day ctx
  | none => (runOptional w day .ordinary (ordinaryCall request docs packing cfg day)).map (ordinaryPlan cfg day)

def planDays : List (DayConfig × ℕ) → Except SolverError (List DayPlan)
  | [] => .ok []
  | (cfg, day) :: rest => do
    let plan ← planDay request docs packing w cfg day
    let plans ← planDays rest
    return plan :: plans

def dayCalls (cfg : DayConfig) (day : ℕ) : List (CallKind × SolverCall) :=
  match transferContexts request day with
  | some ctx =>
    (preCall request docs packing cfg day ctx).toList.map (.preTransfer, ·) ++
      (postCall request docs packing cfg day ctx).toList.map (.postTransfer, ·)
  | none => (ordinaryCall request docs packing cfg day).toList.map (.ordinary, ·)

end Trip

variable (km : Haversine) (w : World) (request : MultiDayRequest) (docs : List PlaceDoc)

def partition : Option Packing :=
  partitionPlaces km request.days (transferContexts request) (docMap docs) request.places

def tripCalls : List (ℕ × CallKind × SolverCall) :=
  match partition km request docs with
  | none => []
  | some packing => request.days.zipIdx.flatMap fun cfg ↦
      (dayCalls request (docMap docs) packing cfg.1 cfg.2).map (cfg.2, ·)

def optimizeTrip : Except SolverError MultiDayResponse :=
  match partition km request docs with
  | none => .error .noCandidateDay
  | some packing => do
    let days ← planDays request (docMap docs) packing w request.days.zipIdx
    return { days := days, transportMode := request.transportMode, unassigned := packing.unassigned }

end TravelPlanner.TripService
