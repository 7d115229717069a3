import TravelPlanner.PlaceStore
import TravelPlanner.RouteService
import TravelPlanner.Tables

namespace TravelPlanner.MatrixCache

open Clock Requests Windows Engine RouteService Tables Runs

abbrev Located := PlaceId × Coord × Coord

section Routes

structure RouteItem where
  code : ℤ := 0
  durationS : Option ℤ
  distanceMeters : Option ℤ
  deriving DecidableEq

def RouteItem.entry (item : RouteItem) (originId destId : PlaceId) : Option MatrixEntry :=
  if item.code ≠ 0 then none else some ⟨originId, destId, item.distanceMeters.getD 0, item.durationS.getD 0⟩

abbrev Routes := Coord × Coord → Coord × Coord → TransportMode → RouteItem

inductive Answer
  | failed (e : MatrixFailure)
  | items (transit : Coord × Coord → Coord × Coord → RouteItem)

def computeMatrix (routes : Routes) (answer : Answer) (mode : TransportMode) (origins dests : List Located) :
    Except MatrixFailure (List MatrixEntry) :=
  match answer with
  | .failed e => .error e
  | .items transit => .ok (origins.flatMap fun o ↦ dests.filterMap fun d ↦
      if o.1 = d.1 then none
      else (if mode = .transit then transit o.2 d.2 else routes o.2 d.2 mode).entry o.1 d.1)

end Routes

section Cache

/-- A row of the cache; times are milliseconds. -/
structure CacheRow where
  originId : PlaceId
  destId : PlaceId
  transportMode : TransportMode
  distanceM : ℤ
  durationS : ℤ
  computedAt : ℤ
  deriving DecidableEq

def CacheRow.key (r : CacheRow) : PlaceId × PlaceId × TransportMode := (r.originId, r.destId, r.transportMode)

def CacheRow.entry (r : CacheRow) : MatrixEntry := ⟨r.originId, r.destId, r.distanceM, r.durationS⟩

abbrev Cache := Table CacheRow CacheRow.key

def ttlForMode (mode : TransportMode) : ℤ :=
  if mode = .transit then 60 * 60 * 1000 else 7 * 24 * 60 * 60 * 1000

structure TimedMatrix where
  matrix : DistanceMatrix
  transportMode : TransportMode
  computedAt : ℤ

abbrev EntryMap := PlaceId × PlaceId → Option MatrixEntry

/-- `entry_map.update({(e.origin_id, e.dest_id): e for e in entries})`. -/
def updateEntries (m : EntryMap) (entries : List MatrixEntry) : EntryMap :=
  entries.foldl (fun m e ↦ Function.update m (e.originId, e.destId) (some e)) m

def originDestPairs (placeIds : List PlaceId) : List (PlaceId × PlaceId) :=
  (placeIds ×ˢ placeIds).filter fun p ↦ p.1 ≠ p.2

def freshRows (cache : Cache) (now : ℤ) (placeIds : List PlaceId) (mode : TransportMode) : List CacheRow :=
  cache.rows.filter fun r ↦
    r.transportMode = mode ∧ r.originId ∈ placeIds ∧ r.destId ∈ placeIds ∧ now - ttlForMode mode ≤ r.computedAt

def loadCachedMatrix (cache : Cache) (now : ℤ) (placeIds : List PlaceId) (mode : TransportMode) :
    Option TimedMatrix :=
  let pairs := originDestPairs placeIds
  let docs := freshRows cache now placeIds mode
  if pairs = [] ∨ (docs.map fun r ↦ (r.originId, r.destId)).dedup.length < pairs.length then none
  else
    some
      { matrix := ⟨updateEntries (fun _ ↦ none) (docs.map CacheRow.entry)⟩
        transportMode := mode
        computedAt := (docs.map CacheRow.computedAt).min?.getD now }

def storeEntry (cache : Cache) (mode : TransportMode) (now : ℤ) (e : MatrixEntry) : Cache :=
  let row : CacheRow := ⟨e.originId, e.destId, mode, e.distanceM, e.durationS, now⟩
  (cache.insert row).getD (cache.replace row)

def invalidateCache (cache : Cache) (mode : Option TransportMode) : Cache :=
  cache.deleteWhere fun k ↦ mode = none ∨ mode = some k.2.2

end Cache

section Calls

inductive Phase
  | load
  | compute
  | store (entries pending : List MatrixEntry) (now : ℤ)
  | startLegs (entryMap : EntryMap) (computedAt : ℤ)
  | endLegs (entryMap : EntryMap) (computedAt : ℤ)
  | done (result : Except MatrixFailure TimedMatrix)

/-- A call with its history: when it read the cache, and when it fetched the square
matrix itself. -/
structure Call where
  query : MatrixQuery
  phase : Phase := .load
  loadedAt : Option ℤ := none
  fetchedAt : Option ℤ := none

def Call.placeIds (c : Call) : List PlaceId := c.query.placeCoords.map Prod.fst

def noPlaces : MatrixFailure := ⟨some "NO_PLACES", some "At least one place is required"⟩

def Call.resume (routes : Routes) (answer : Answer) (now : ℤ) (cache : Cache) (c : Call) : Call × Cache :=
  let q := c.query
  match c.phase with
  | .load =>
    if q.placeCoords = [] then ({ c with phase := .done (.error noPlaces) }, cache)
    else
      let c := { c with loadedAt := some now }
      match loadCachedMatrix cache now c.placeIds q.transportMode with
      | some cached =>
        if q.startAnchor = none ∧ q.endAnchor = none then ({ c with phase := .done (.ok cached) }, cache)
        else ({ c with phase := .startLegs cached.matrix.entries cached.computedAt }, cache)
      | none =>
        if q.placeCoords.length = 1 then ({ c with phase := .startLegs (fun _ ↦ none) now }, cache)
        else ({ c with phase := .compute }, cache)
  | .compute =>
    match computeMatrix routes answer q.transportMode q.placeCoords q.placeCoords with
    | .error e => ({ c with phase := .done (.error e) }, cache)
    | .ok entries => ({ c with phase := .store entries entries now, fetchedAt := some now }, cache)
  | .store entries [] _ => ({ c with phase := .startLegs (updateEntries (fun _ ↦ none) entries) now }, cache)
  | .store entries (e :: pending) stamp =>
    ({ c with phase := .store entries pending stamp }, storeEntry cache q.transportMode stamp e)
  | .startLegs entryMap computedAt =>
    match q.startAnchor with
    | none => ({ c with phase := .endLegs entryMap computedAt }, cache)
    | some anchor =>
      match computeMatrix routes answer q.transportMode [anchor] q.placeCoords with
      | .error e => ({ c with phase := .done (.error e) }, cache)
      | .ok entries => ({ c with phase := .endLegs (updateEntries entryMap entries) now }, cache)
  | .endLegs entryMap computedAt =>
    match q.endAnchor with
    | none => ({ c with phase := .done (.ok ⟨⟨entryMap⟩, q.transportMode, computedAt⟩) }, cache)
    | some anchor =>
      match computeMatrix routes answer q.transportMode q.placeCoords [anchor] with
      | .error e => ({ c with phase := .done (.error e) }, cache)
      | .ok entries => ({ c with phase := .done (.ok ⟨⟨updateEntries entryMap entries⟩, q.transportMode, now⟩) }, cache)
  | .done _ => (c, cache)

end Calls

section System

structure System where
  places : List PlaceStore.PlaceDocument := []
  cache : Cache := .empty
  now : ℤ
  calls : List Call := []

def storedCoords (places : List PlaceStore.PlaceDocument) (placeId : PlaceId) : Option Located := do
  let doc ← places.reverse.find? fun d ↦ d.id.hex = placeId
  let lat ← doc.lat
  let lng ← doc.lng
  return (placeId, lat, lng)

def queryOf (places : List PlaceStore.PlaceDocument) (request : OptimizeRequest) (kept : List PlaceId)
    (departureTime : Option DateTime) : MatrixQuery where
  placeCoords := kept.filterMap (storedCoords places)
  transportMode := request.transportMode
  departureTime := departureTime
  startAnchor := startAnchor request
  endAnchor := endAnchor request

/-- Requests read the stored coordinates, later run call by call between the awaits of
others, while places change and time passes. -/
inductive Event
  | wait (ms : ℕ)
  | place (e : PlaceStore.Event)
  | invalidate (mode : Option TransportMode)
  | request (r : OptimizeRequest) (kept : List PlaceId) (departureTime : Option DateTime)
  | resume (i : ℕ) (answer : Answer)

def step (routes : Routes) (s : System) : Event → System
  | .wait ms => { s with now := s.now + ms }
  | .place e => { s with places := PlaceStore.step s.places e }
  | .invalidate mode => { s with cache := invalidateCache s.cache mode }
  | .request r kept departureTime =>
    { s with calls := s.calls ++ [{ query := queryOf s.places r kept departureTime }] }
  | .resume i answer =>
    match s.calls[i]? with
    | none => s
    | some c =>
      let next := c.resume routes answer s.now s.cache
      { s with calls := s.calls.set i next.1, cache := next.2 }

end System

end TravelPlanner.MatrixCache
