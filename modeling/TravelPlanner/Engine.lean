import Mathlib.Data.List.Dedup
import TravelPlanner.Windows

namespace TravelPlanner.Engine

open Requests Windows

structure MatrixEntry where
  originId : PlaceId
  destId : PlaceId
  distanceM : ℤ
  durationS : ℤ
  deriving DecidableEq, Repr

structure DistanceMatrix where
  entries : PlaceId × PlaceId → Option MatrixEntry

def DistanceMatrix.get (m : DistanceMatrix) (originId destId : PlaceId) : Option MatrixEntry :=
  m.entries (originId, destId)

def DistanceMatrix.NonNeg (m : DistanceMatrix) : Prop :=
  ∀ o d e, m.get o d = some e → 0 ≤ e.durationS

structure DayProblem where
  matrix : DistanceMatrix
  timeWindows : PlaceId → Option TimeWindow
  visitDurationsS : PlaceId → Option ℤ
  dayStartS : ℤ
  dayEndS : ℤ

def large : ℤ := 10 ^ 9

structure Visit where
  placeId : PlaceId
  arrivalS : ℤ
  departureS : ℤ
  travelS : ℤ
  deriving DecidableEq, Repr

variable (p : DayProblem)

def DayProblem.visitS (node : PlaceId) : ℤ := (p.visitDurationsS node).getD 0

def DayProblem.serviceStart (node : PlaceId) (arrivalS : ℤ) : Option ℤ :=
  match p.timeWindows node with
  | some tw => tw.earliestStart arrivalS (p.visitS node)
  | none => some (max arrivalS p.dayStartS)

def DayProblem.travelTo (node : PlaceId) : Option PlaceId → Option ℤ
  | none => some 0
  | some prev => (p.matrix.get prev node).map MatrixEntry.durationS

def scheduleFrom : Option PlaceId → ℤ → List PlaceId → Option (List Visit)
  | _, _, [] => some []
  | prev, currentS, node :: rest => do
    let travelS ← p.travelTo node prev
    let arrivalS := currentS + travelS
    let startS ← p.serviceStart node arrivalS
    let departureS := startS + p.visitS node
    let tail ← scheduleFrom (some node) departureS rest
    return ⟨node, arrivalS, departureS, travelS⟩ :: tail

/-- Arrival and departure times along a route; empty when a leg is missing or a
visit does not fit its window. -/
def scheduleRoute (route : List PlaceId) : List Visit :=
  (scheduleFrom p none p.dayStartS route).getD []

def isFeasible (route : List PlaceId) : Bool :=
  match (scheduleRoute p route).getLast? with
  | none => false
  | some last => last.departureS ≤ p.dayEndS

def legSum : List PlaceId → Option ℤ
  | a :: b :: rest => do
    let entry ← p.matrix.get a b
    let total ← legSum (b :: rest)
    return entry.durationS + total
  | _ => some 0

def routeTravelTime (route : List PlaceId) : ℤ := (legSum p route).getD large

def routeScore (weights : Option (PlaceId → Option ℤ)) (route : List PlaceId) : ℤ :=
  match weights with
  | none => route.length
  | some w => (route.map (fun n ↦ (w n).getD 1)).sum

/-- Enumeration order of the set of unvisited nodes in one process. It may
depend on how the set was built and on what was removed from it since. -/
structure SetOrder where
  enum : List PlaceId → List PlaceId → List PlaceId → List PlaceId
  perm : ∀ nodes route unvisited, (enum nodes route unvisited).Perm unvisited

def SetOrder.insertion : SetOrder := ⟨fun _ _ unvisited ↦ unvisited, fun _ _ _ ↦ .rfl⟩

structure Best where
  node : Option PlaceId
  closeS : ℤ
  travelS : ℤ

def Best.start : Best := ⟨none, large, large⟩

def candidateSlot (candidate : PlaceId) (arrivalS : ℤ) : Option (ℤ × ℤ) :=
  match p.timeWindows candidate with
  | some tw => (tw.earliestStart arrivalS (p.visitS candidate)).map (fun s ↦ (s, tw.closeS))
  | none => if p.dayEndS < arrivalS then none else some (max arrivalS p.dayStartS, p.dayEndS)

def reachesEnd (endAnchor : Option PlaceId) (node : PlaceId) (departureS : ℤ) : Bool :=
  match endAnchor with
  | none => true
  | some anchor =>
    match p.matrix.get node anchor with
    | none => false
    | some leg => departureS + leg.durationS ≤ p.dayEndS

/-- One turn of the candidate loop: the soonest deadline wins, travel breaks ties. -/
def consider (endAnchor : Option PlaceId) (last : PlaceId) (currentS : ℤ) (best : Best)
    (candidate : PlaceId) : Best :=
  match p.matrix.get last candidate with
  | none => best
  | some entry =>
    match candidateSlot p candidate (currentS + entry.durationS) with
    | none => best
    | some (startS, closeS) =>
      if !reachesEnd p endAnchor candidate (startS + p.visitS candidate) then best
      else if closeS < best.closeS ∨ closeS = best.closeS ∧ entry.durationS < best.travelS then
        ⟨some candidate, closeS, entry.durationS⟩
      else best

structure NNState where
  route : List PlaceId
  currentS : ℤ
  unvisited : List PlaceId

variable (order : SetOrder) (nodes : List PlaceId) (endAnchor : Option PlaceId)

/-- One turn of the construction loop; `none` is its `break`. -/
def nnStep (s : NNState) : Option NNState := do
  let last ← s.route.getLast?
  let best := (order.enum nodes s.route s.unvisited).foldl
    (consider p endAnchor last s.currentS) Best.start
  let node ← best.node
  let startS ← p.serviceStart node (s.currentS + best.travelS)
  let departureS := startS + p.visitS node
  if p.dayEndS < departureS then none
  else some ⟨s.route ++ [node], departureS, s.unvisited.erase node⟩

/-- The construction loop. Every turn visits one node, so the number of nodes
bounds the number of turns. -/
def nnLoop : ℕ → NNState → NNState
  | 0, s => s
  | n + 1, s =>
    match nnStep p order nodes endAnchor s with
    | none => s
    | some s' => nnLoop n s'

def nnStart (start : PlaceId) : Option ℤ :=
  match p.timeWindows start with
  | some tw => tw.earliestStart p.dayStartS (p.visitS start)
  | none => some p.dayStartS

def appendEndAnchor (s : NNState) : Option (List PlaceId) :=
  match endAnchor with
  | none => some s.route
  | some anchor => do
    let last ← s.route.getLast?
    let leg ← p.matrix.get last anchor
    if p.dayEndS < s.currentS + leg.durationS then none else some (s.route ++ [anchor])

def setWithout (start : PlaceId) : List PlaceId := nodes.dedup.filter (· ≠ start)

def nnFromStart (start : PlaceId) : List PlaceId × List PlaceId :=
  match nnStart p start with
  | none => ([], nodes)
  | some startS =>
    if p.dayEndS < startS + p.visitS start then ([], nodes)
    else
      let unvisited := setWithout nodes start
      let s := nnLoop p order nodes endAnchor unvisited.length
        ⟨[start], startS + p.visitS start, unvisited⟩
      match appendEndAnchor p endAnchor s with
      | none => ([], nodes)
      | some route => (route, order.enum nodes s.route s.unvisited)

structure BestRoute where
  route : List PlaceId
  score : ℤ
  timeS : ℤ

def considerStart (weights : Option (PlaceId → Option ℤ)) (best : BestRoute) (start : PlaceId) :
    BestRoute :=
  let route := (nnFromStart p order nodes endAnchor start).1
  let timeS := routeTravelTime p route
  let score := routeScore weights route
  if best.score < score ∨ score = best.score ∧ timeS < best.timeS then ⟨route, score, timeS⟩ else best

/-- Every node is tried as the start; the heaviest route wins, travel breaks ties. -/
def nearestNeighbor (weights : Option (PlaceId → Option ℤ)) : List PlaceId × List PlaceId :=
  let best := nodes.foldl (considerStart p order nodes endAnchor weights) ⟨[], 0, large⟩
  (best.route, nodes.filter (· ∉ best.route))

def reverseSegment (route : List PlaceId) (i j : ℕ) : List PlaceId :=
  route.take (i + 1) ++ ((route.drop (i + 1)).take (j - i)).reverse ++ route.drop (j + 1)

def findImprovement (jUpper : ℕ) (route : List PlaceId) : Option (List PlaceId) :=
  (List.range (route.length - 1)).findSome? fun i ↦
    (List.range' (i + 2) (jUpper - (i + 2))).findSome? fun j ↦
      let candidate := reverseSegment route i j
      if routeTravelTime p candidate < routeTravelTime p route ∧ isFeasible p candidate then
        some candidate
      else none

def twoOptLoop (jUpper : ℕ) : ℕ → List PlaceId → List PlaceId
  | 0, route => route
  | n + 1, route =>
    match findImprovement p jUpper route with
    | none => route
    | some better => twoOptLoop jUpper n better

def twoOpt (route : List PlaceId) (maxIterations : ℕ) (pinEnd : Bool) : List PlaceId :=
  if route.length < 4 then route
  else twoOptLoop p (if pinEnd then route.length - 1 else route.length) maxIterations route

end TravelPlanner.Engine
