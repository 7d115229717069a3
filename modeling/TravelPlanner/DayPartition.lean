import Mathlib.Data.List.MinMax
import TravelPlanner.RouteAccounting

namespace TravelPlanner.DayPartition

open Clock Requests Windows RouteService RouteAccounting

structure TransitionDayContext where
  transfer : TransferBlock
  origin : AccommodationStay
  destination : AccommodationStay
  preStartS : ℤ
  preEndS : ℤ
  postStartS : ℤ
  postEndS : ℤ
  preVisitBudgetMin : ℤ
  postVisitBudgetMin : ℤ

def optionalBound (bound : Option Time) (otherwise : ℤ) : ℤ :=
  match bound with
  | some t => resolveDayBoundS 0 (some t)
  | none => otherwise

def buildTransitionDayContext (transfer : TransferBlock) (origin destination : AccommodationStay)
    (cfg : DayConfig) : TransitionDayContext :=
  let configuredStartS := resolveDayBoundS cfg.dayStartHour cfg.dayStartTime
  let configuredEndS := resolveDayBoundS cfg.dayEndHour cfg.dayEndTime
  let departureS := resolveDayBoundS 0 (some transfer.departureTime)
  let arrivalS := resolveDayBoundS 0 (some transfer.arrivalTime)
  let checkInS := optionalBound destination.checkInFrom configuredStartS
  let checkOutS := optionalBound origin.checkOutBy departureS
  let preEndS := min (min departureS configuredEndS) checkOutS
  let postStartS := max (max arrivalS checkInS) configuredStartS
  { transfer := transfer
    origin := origin
    destination := destination
    preStartS := configuredStartS
    preEndS := preEndS
    postStartS := postStartS
    postEndS := configuredEndS
    preVisitBudgetMin := max 0 ((preEndS - configuredStartS) / 60)
    postVisitBudgetMin := max 0 ((configuredEndS - postStartS) / 60) }

/-- The transfer of a date; with several on one date the last would win. -/
def resolveDayTransfer (transfers : List TransferBlock) (day : Date) : Option TransferBlock :=
  transfers.reverse.find? (·.date = day)

def dayContext (request : MultiDayRequest) (cfg : DayConfig) : Option TransitionDayContext :=
  let anchors := dayAnchors request.accommodations cfg.date
  match resolveDayTransfer request.transfers cfg.date, anchors.start, anchors.finish with
  | some transfer, some origin, some destination =>
    if isTransitionDay anchors then some (buildTransitionDayContext transfer origin.1 destination.1 cfg) else none
  | _, _, _ => none

def transferContexts (request : MultiDayRequest) (day : ℕ) : Option TransitionDayContext :=
  request.days[day]?.bind (dayContext request)

inductive TransitionSide
  | origin | destination | noCoordinates
  deriving DecidableEq, Repr

/-- Great-circle distance between two points. Its floating-point value only
decides which side of a transfer a place belongs to. -/
abbrev Haversine := Coord → Coord → Coord → Coord → ℚ

/-- The nearer of the two stays; a tie goes to the origin. -/
def transitionSide (km : Haversine) (doc : Option PlaceDoc) (origin destination : AccommodationStay) :
    TransitionSide :=
  match doc.bind PlaceDoc.lat, doc.bind PlaceDoc.lng with
  | some lat, some lng =>
    if km lat lng destination.lat destination.lng < km lat lng origin.lat origin.lng then .destination else .origin
  | _, _ => .noCoordinates

def openDayIndices (doc : Option PlaceDoc) (days : List DayConfig) : List ℕ :=
  let periods := (doc.map PlaceDoc.openingPeriods).getD []
  let result := (days.zipIdx.filter fun cfg ↦
    periods.any (fun p ↦ p.day = some (googleWeekday cfg.1.date : ℤ))).map Prod.snd
  if periods = [] ∨ result = [] then List.range days.length else result

def priorityRank (doc : Option PlaceDoc) : ℕ :=
  match doc.bind PlaceDoc.priority with
  | some .mustSee => 0
  | some .optional => 2
  | _ => 1

def visitMinOf (doc : Option PlaceDoc) : ℕ := (doc.map PlaceDoc.visitMin).getD 30

def DaySlot.day (s : DaySlot) : ℕ := s.dayIndex.toNat

structure Packing where
  buckets : ℕ → List PlaceId := fun _ ↦ []
  fill : ℕ → ℤ := fun _ ↦ 0
  preBuckets : ℕ → List PlaceId := fun _ ↦ []
  postBuckets : ℕ → List PlaceId := fun _ ↦ []
  preFill : ℕ → ℤ := fun _ ↦ 0
  postFill : ℕ → ℤ := fun _ ↦ 0
  unassigned : List SkippedPlace := []
  preSolverSkipped : ℕ → List SkippedPlace := fun _ ↦ []

section Packing

variable (km : Haversine) (days : List DayConfig) (contexts : ℕ → Option TransitionDayContext)
  (docs : PlaceId → Option PlaceDoc)

def capacity (day : ℕ) : ℤ :=
  match days[day]? with
  | some cfg => (cfg.dayEndHour - cfg.dayStartHour) * 60
  | none => 0

def remainingCapacity (s : Packing) (day : ℕ) (side : Option TransitionSide) : ℤ :=
  match contexts day with
  | none => capacity days day - s.fill day
  | some ctx =>
    if side = some .origin then ctx.preVisitBudgetMin - s.preFill day else ctx.postVisitBudgetMin - s.postFill day

def admissible (s : Packing) (day : ℕ) (doc : Option PlaceDoc) (visitMin : ℤ) : Bool × Option TransitionSide :=
  match contexts day with
  | none => (true, none)
  | some ctx =>
    let side := transitionSide km doc ctx.origin ctx.destination
    if side = .noCoordinates then (false, some side)
    else (visitMin ≤ remainingCapacity days contexts s day (some side), some side)

def rejectionReason : Option TransitionSide → SkipReason
  | some .noCoordinates => .noCoordinates
  | some .origin => .preTransferCapacityExceeded
  | _ => .capacityExceeded

def placeIntoBucket (day : ℕ) (side : Option TransitionSide) (placeId : PlaceId) (visitMin : ℤ) (s : Packing) :
    Packing :=
  match contexts day with
  | none =>
    { s with
      buckets := Function.update s.buckets day (s.buckets day ++ [placeId])
      fill := Function.update s.fill day (s.fill day + visitMin) }
  | some _ =>
    if side = some .origin then
      { s with
        preBuckets := Function.update s.preBuckets day (s.preBuckets day ++ [placeId])
        preFill := Function.update s.preFill day (s.preFill day + visitMin) }
    else
      { s with
        postBuckets := Function.update s.postBuckets day (s.postBuckets day ++ [placeId])
        postFill := Function.update s.postFill day (s.postFill day + visitMin) }

-- `argmax` compares remaining minutes by the computable order
local instance (priority := 2000) intPreorder : Preorder ℤ := Int.instLinearOrder.toPreorder

/-- The roomiest admissible day takes the place; without one the place is
rejected for the reason of the roomiest day. `none` is the maximum of no days. -/
def packUnpinned (pref : PlaceDayPreference) (candidateDays : List ℕ) (s : Packing) : Option Packing :=
  let doc := docs pref.placeId
  let visitMin : ℤ := visitMinOf doc
  let classified := candidateDays.map fun d ↦ (d, admissible km days contexts s d doc visitMin)
  let room := fun c : ℕ × Bool × Option TransitionSide ↦ remainingCapacity days contexts s c.1 c.2.2
  match (classified.filter (·.2.1)).argmax room with
  | some best => some (placeIntoBucket contexts best.1 best.2.2 pref.placeId visitMin s)
  | none => do
    let best ← classified.argmax room
    return { s with
      unassigned := s.unassigned ++ [⟨pref.placeId, doc.bind PlaceDoc.name, rejectionReason best.2.2⟩] }

def packPinned (s : Packing) (pref : PlaceDayPreference) : Option Packing := do
  let slot ← pref.dayPreferences.head?
  let day := DaySlot.day slot
  let doc := docs pref.placeId
  let visitMin : ℤ := visitMinOf doc
  match contexts day with
  | none => return placeIntoBucket contexts day none pref.placeId visitMin s
  | some ctx =>
    let side := transitionSide km doc ctx.origin ctx.destination
    if side = .noCoordinates then
      return { s with
        preSolverSkipped := Function.update s.preSolverSkipped day
          (s.preSolverSkipped day ++ [⟨pref.placeId, doc.bind PlaceDoc.name, .noCoordinates⟩]) }
    else return placeIntoBucket contexts day (some side) pref.placeId visitMin s

def flexibleDays (pref : PlaceDayPreference) : List ℕ :=
  let slots := pref.dayPreferences.map DaySlot.day
  let openSlots := slots.filter (· ∈ openDayIndices (docs pref.placeId) days)
  if openSlots = [] then slots else openSlots

def packFlexible (s : Packing) (pref : PlaceDayPreference) : Option Packing :=
  packUnpinned km days contexts docs pref (flexibleDays days docs pref) s

def packAuto (s : Packing) (pref : PlaceDayPreference) : Option Packing :=
  packUnpinned km days contexts docs pref (openDayIndices (docs pref.placeId) days) s

def byRank (places : List PlaceDayPreference) : List PlaceDayPreference :=
  places.insertionSort fun a b ↦ priorityRank (docs a.placeId) ≤ priorityRank (docs b.placeId)

def pinned (places : List PlaceDayPreference) : List PlaceDayPreference :=
  places.filter (·.dayPreferences.length = 1)

def flexible (places : List PlaceDayPreference) : List PlaceDayPreference :=
  places.filter (1 < ·.dayPreferences.length)

def auto (places : List PlaceDayPreference) : List PlaceDayPreference :=
  places.filter (·.dayPreferences.length = 0)

def partitionPlaces (places : List PlaceDayPreference) : Option Packing := do
  let s ← (pinned places).foldlM (packPinned km contexts docs) {}
  let s ← (byRank docs (flexible places)).foldlM (packFlexible km days contexts docs) s
  (byRank docs (auto places)).foldlM (packAuto km days contexts docs) s

end Packing

end TravelPlanner.DayPartition
