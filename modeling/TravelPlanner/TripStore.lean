import Mathlib.Data.List.Sort
import TravelPlanner.Snapshots
import TravelPlanner.Tables

namespace TravelPlanner.TripStore

open Requests TripService Snapshots Tables

abbrev TripId := String

inductive RevisionSource
  | created | manual | orchestrator | revert | migration
  deriving DecidableEq, Repr

inductive TripUpdateSource
  | manual | orchestrator
  deriving DecidableEq, Repr

def TripUpdateSource.toSource : TripUpdateSource → RevisionSource
  | .manual => .manual
  | .orchestrator => .orchestrator

structure TripRow (Text Hash : Type) where
  id : TripId
  name : String
  planType : PlanType
  schemaVersion : ℤ
  revision : ℤ
  snapshot : Text
  snapshotHash : Hash
  compression : Compression := .none
  display : SnapshotDisplayFields
  createdAt : String
  updatedAt : Option String

structure RevisionRow (Text Hash : Type) where
  tripId : TripId
  revision : ℤ
  source : RevisionSource
  summary : String
  restoredFromRevision : Option ℤ
  schemaVersion : ℤ
  snapshot : Text
  snapshotHash : Hash
  compression : Compression := .none
  recordedAt : String

variable {Text Hash : Type}

def RevisionRow.key (r : RevisionRow Text Hash) : TripId × ℤ := (r.tripId, r.revision)

structure Store (Text Hash : Type) where
  trips : Table (TripRow Text Hash) TripRow.id
  revisions : Table (RevisionRow Text Hash) RevisionRow.key

def Store.empty : Store Text Hash := ⟨Table.empty, Table.empty⟩

inductive ImportConflict
  | differentHash | unbackedTrip
  deriving DecidableEq, Repr

inductive TripError
  | planTypeConflict (tripId : TripId) (existing requested : PlanType)
  | missingExpectedRevision (tripId : TripId)
  | concurrencyConflict (tripId : TripId) (expected : ℤ)
  | tripNotFound (tripId : TripId)
  | revisionAlreadyCurrent (tripId : TripId) (revision : ℤ)
  | revisionNotFound (tripId : TripId) (revision : ℤ)
  | baselineConflict (tripId : TripId) (revision : ℤ) (reason : ImportConflict)
  | database
  | snapshot
  deriving DecidableEq, Repr

/-- Integers the driver can bind. -/
def Bindable (n : ℤ) : Prop := -2 ^ 63 ≤ n ∧ n < 2 ^ 63

instance (n : ℤ) : Decidable (Bindable n) := inferInstanceAs (Decidable (_ ∧ _))

def orRaise {A : Type} (e : TripError) : Option A → Except TripError A
  | some a => .ok a
  | none => .error e

/-- A transaction block: its writes happen together or, when it raises, not at all. -/
def transaction {A : Type} (block : Store Text Hash → Except TripError (A × Store Text Hash))
    (s : Store Text Hash) : Except TripError A × Store Text Hash :=
  match block s with
  | .ok (a, s') => (.ok a, s')
  | .error e => (.error e, s)

def insertTripRow (row : TripRow Text Hash) (s : Store Text Hash) : Except TripError (Store Text Hash) :=
  if Bindable row.revision then
    (orRaise .database (s.trips.insert row)).map fun trips ↦ { s with trips := trips }
  else .error .database

/-- A revision row needs its trip and a fresh number. -/
def insertRevision (row : RevisionRow Text Hash) (s : Store Text Hash) : Except TripError (Store Text Hash) :=
  if Bindable row.revision ∧ s.trips.find row.tripId ≠ none then
    (orRaise .database (s.revisions.insert row)).map fun revisions ↦ { s with revisions := revisions }
  else .error .database

structure TripUpdate (Text Hash : Type) where
  name : String
  planType : PlanType
  schemaVersion : ℤ
  snapshot : Text
  snapshotHash : Hash
  display : SnapshotDisplayFields
  updatedAt : String

def TripUpdate.applyTo (u : TripUpdate Text Hash) (row : TripRow Text Hash) : TripRow Text Hash :=
  { row with
    name := u.name
    planType := u.planType
    schemaVersion := u.schemaVersion
    revision := row.revision + 1
    snapshot := u.snapshot
    snapshotHash := u.snapshotHash
    compression := .none
    display := u.display
    updatedAt := some u.updatedAt }

/-- `UPDATE trips SET ... WHERE id = ? AND revision = ?`; `none` when no row matches. -/
def compareAndSet (tripId : TripId) (expected : ℤ) (u : TripUpdate Text Hash) (s : Store Text Hash) :
    Option (Store Text Hash) := do
  let row ← s.trips.find tripId
  if row.revision = expected then some { s with trips := s.trips.replace (u.applyTo row) } else none

variable [DecidableEq Hash] (codec : SnapshotCodec Text Hash)

def get (s : Store Text Hash) (tripId : TripId) : Except TripError (Option TripDetail) :=
  match s.trips.find tripId with
  | none => .ok none
  | some row => do
    let payload ← orRaise .snapshot (loadSnapshot codec row.snapshot row.compression)
    let detail ← orRaise .snapshot (detailFromSnapshot tripId payload row.revision row.createdAt row.updatedAt)
    return some detail

def summaryOf (row : TripRow Text Hash) : TripSummary :=
  ⟨row.id, row.name, row.createdAt, summaryBody row.planType row.display⟩

def newestFirst (a b : TripRow Text Hash) : Prop := b.createdAt ≤ a.createdAt

instance : DecidableRel (@newestFirst Text Hash) := fun _ _ ↦
  inferInstanceAs (Decidable (_ ≤ _))

def listAll (s : Store Text Hash) : List TripSummary := (s.trips.rows.insertionSort newestFirst).map summaryOf

def createBlock (row : TripRow Text Hash) (revision : RevisionRow Text Hash) (s : Store Text Hash) :
    Except TripError (Unit × Store Text Hash) := do
  let s ← insertTripRow row s
  let s ← insertRevision revision s
  return ((), s)

def newTripRow (tripId : TripId) (payload : Payload) (canonical : Text) (digest : Hash)
    (display : SnapshotDisplayFields) (revision : ℤ) (createdAt : String) : TripRow Text Hash where
  id := tripId
  name := payload.name
  planType := payload.plan.planType
  schemaVersion := payload.schemaVersion
  revision := revision
  snapshot := canonical
  snapshotHash := digest
  display := display
  createdAt := createdAt
  updatedAt := none

def save (tripId : TripId) (request : TripSave) (now : String) (s : Store Text Hash) :
    Except TripError TripDetail × Store Text Hash :=
  match buildSnapshot codec request.1 with
  | none => (.error .snapshot, s)
  | some (canonical, digest, display) =>
    match loadSnapshot codec canonical .none with
    | none => (.error .snapshot, s)
    | some payload =>
      let result := transaction (createBlock (newTripRow tripId payload canonical digest display 0 now)
        { tripId := tripId, revision := 0, source := .created, summary := "Trip created"
          restoredFromRevision := none, schemaVersion := payload.schemaVersion, snapshot := canonical
          snapshotHash := digest, recordedAt := now }) s
      (do
        result.1
        orRaise .snapshot (detailFromSnapshot tripId payload 0 now none), result.2)

def updateBlock (tripId : TripId) (request : SaveTripRequest) (source : TripUpdateSource) (summary : String)
    (now : String) (canonical : Text) (digest : Hash) (display : SnapshotDisplayFields) (payload : Payload)
    (s : Store Text Hash) : Except TripError (Option TripDetail × Store Text Hash) :=
  match s.trips.find tripId with
  | none => .ok (none, s)
  | some row =>
    if row.planType ≠ request.plan.planType then
      .error (.planTypeConflict tripId row.planType request.plan.planType)
    else
      match request.expectedRevision with
      | none => .error (.missingExpectedRevision tripId)
      | some expected =>
        if expected ≠ row.revision then .error (.concurrencyConflict tripId expected)
        else if digest = row.snapshotHash then do
          let current ← orRaise .snapshot (loadSnapshot codec row.snapshot row.compression)
          let detail ← orRaise .snapshot
            (detailFromSnapshot tripId current row.revision row.createdAt row.updatedAt)
          return (some detail, s)
        else do
          let s ← orRaise (.concurrencyConflict tripId expected) (compareAndSet tripId row.revision
            { name := payload.name, planType := payload.plan.planType, schemaVersion := payload.schemaVersion
              snapshot := canonical, snapshotHash := digest, display := display, updatedAt := now } s)
          let s ← insertRevision
            { tripId := tripId, revision := row.revision + 1, source := source.toSource, summary := summary
              restoredFromRevision := none, schemaVersion := payload.schemaVersion, snapshot := canonical
              snapshotHash := digest, recordedAt := now } s
          let detail ← orRaise .snapshot
            (detailFromSnapshot tripId payload (row.revision + 1) row.createdAt (some now))
          return (some detail, s)

def update (tripId : TripId) (request : TripSave) (source : TripUpdateSource) (summary : String) (now : String)
    (s : Store Text Hash) : Except TripError (Option TripDetail) × Store Text Hash :=
  match buildSnapshot codec request.1 with
  | none => (.error .snapshot, s)
  | some (canonical, digest, display) =>
    match loadSnapshot codec canonical .none with
    | none => (.error .snapshot, s)
    | some payload =>
      transaction (updateBlock codec tripId request.1 source summary now canonical digest display payload) s

/-- Removes the trip and its history; the answer tells whether the trip existed. -/
def delete (tripId : TripId) (s : Store Text Hash) : Bool × Store Text Hash :=
  ((s.trips.find tripId).isSome,
    ⟨s.trips.deleteWhere (· = tripId), s.revisions.deleteWhere (·.1 = tripId)⟩)

def restoreRead (tripId : TripId) (targetRevision expectedRevision : ℤ) (s : Store Text Hash) :
    Except TripError (TripRow Text Hash) := do
  let row ← orRaise (.tripNotFound tripId) (s.trips.find tripId)
  if expectedRevision ≠ row.revision then .error (.concurrencyConflict tripId expectedRevision)
  else if targetRevision = row.revision then .error (.revisionAlreadyCurrent tripId targetRevision)
  else return row

structure RestorePlan (Text Hash : Type) where
  row : TripRow Text Hash
  target : RevisionRow Text Hash
  payload : Payload
  display : SnapshotDisplayFields

def restoreTarget (tripId : TripId) (targetRevision : ℤ) (row : TripRow Text Hash) (s : Store Text Hash) :
    Except TripError (RestorePlan Text Hash) := do
  let target ← orRaise (.revisionNotFound tripId targetRevision) (s.revisions.find (tripId, targetRevision))
  let payload ← orRaise .snapshot (loadSnapshot codec target.snapshot target.compression)
  let display ← orRaise .snapshot (displayFields payload)
  return ⟨row, target, payload, display⟩

def restoreBlock (tripId : TripId) (targetRevision expectedRevision : ℤ) (now : String)
    (plan : RestorePlan Text Hash) (s : Store Text Hash) : Except TripError (Unit × Store Text Hash) := do
  let s ← orRaise (.concurrencyConflict tripId expectedRevision) (compareAndSet tripId expectedRevision
    { name := plan.payload.name, planType := plan.payload.plan.planType, schemaVersion := plan.target.schemaVersion
      snapshot := plan.target.snapshot, snapshotHash := plan.target.snapshotHash, display := plan.display
      updatedAt := now } s)
  let s ← insertRevision
    { tripId := tripId, revision := plan.row.revision + 1, source := .revert
      summary := s!"Restored revision {targetRevision}", restoredFromRevision := some targetRevision
      schemaVersion := plan.target.schemaVersion, snapshot := plan.target.snapshot
      snapshotHash := plan.target.snapshotHash, recordedAt := now } s
  return ((), s)

def restoreCommit (tripId : TripId) (targetRevision expectedRevision : ℤ) (now : String)
    (plan : RestorePlan Text Hash) (s : Store Text Hash) : Except TripError TripDetail × Store Text Hash :=
  let result := transaction (restoreBlock tripId targetRevision expectedRevision now plan) s
  (do
    result.1
    orRaise .snapshot
      (detailFromSnapshot tripId plan.payload (plan.row.revision + 1) plan.row.createdAt (some now)), result.2)

def restoreRevision (tripId : TripId) (targetRevision expectedRevision : ℤ) (now : String) (s : Store Text Hash) :
    Except TripError TripDetail × Store Text Hash :=
  match restoreRead tripId targetRevision expectedRevision s with
  | .error e => (.error e, s)
  | .ok row =>
    match restoreTarget codec tripId targetRevision row s with
    | .error e => (.error e, s)
    | .ok plan => restoreCommit tripId targetRevision expectedRevision now plan s

inductive ImportAnswer
  | created | skippedIdentical
  deriving DecidableEq, Repr

def migrationBaseline (tripId : TripId) (revision : ℤ) (s : Store Text Hash) : Option (RevisionRow Text Hash) :=
  (s.revisions.find (tripId, revision)).filter (·.source = .migration)

def importMigrationBaseline (tripId : TripId) (request : TripSave) (revision : ℤ) (createdAt now : String)
    (s : Store Text Hash) : Except TripError ImportAnswer × Store Text Hash :=
  match buildSnapshot codec request.1 with
  | none => (.error .snapshot, s)
  | some (canonical, digest, display) =>
    match loadSnapshot codec canonical .none with
    | none => (.error .snapshot, s)
    | some payload =>
      match migrationBaseline tripId revision s with
      | some existing =>
        if existing.snapshotHash = digest then (.ok .skippedIdentical, s)
        else (.error (.baselineConflict tripId revision .differentHash), s)
      | none =>
        if s.trips.find tripId ≠ none then (.error (.baselineConflict tripId revision .unbackedTrip), s)
        else
          let result := transaction (createBlock
            (newTripRow tripId payload canonical digest display revision createdAt)
            { tripId := tripId, revision := revision, source := .migration
              summary := s!"Imported from previous store at revision {revision}"
              restoredFromRevision := none, schemaVersion := payload.schemaVersion, snapshot := canonical
              snapshotHash := digest, recordedAt := now }) s
          (result.1.map fun _ ↦ .created, result.2)

/-- The write calls of the repository with their arguments; the fresh id of a
saved trip and the clock readings are arguments. -/
inductive TripCall
  | save (tripId : TripId) (request : TripSave) (now : String)
  | update (tripId : TripId) (request : TripSave) (source : TripUpdateSource) (summary : String) (now : String)
  | restoreRevision (tripId : TripId) (targetRevision expectedRevision : ℤ) (now : String)
  | delete (tripId : TripId)
  | importMigrationBaseline (tripId : TripId) (request : TripSave) (revision : ℤ) (createdAt now : String)

inductive Answer
  | detail (d : TripDetail)
  | nothing
  | deleted (existed : Bool)
  | imported (a : ImportAnswer)
  deriving DecidableEq

def runCall (s : Store Text Hash) : TripCall → Except TripError Answer × Store Text Hash
  | .save tripId request now =>
    let r := save codec tripId request now s
    (r.1.map .detail, r.2)
  | .update tripId request source summary now =>
    let r := update codec tripId request source summary now s
    (r.1.map fun d ↦ (d.map .detail).getD .nothing, r.2)
  | .restoreRevision tripId target expected now =>
    let r := restoreRevision codec tripId target expected now s
    (r.1.map .detail, r.2)
  | .delete tripId =>
    let r := delete tripId s
    (.ok (.deleted r.1), r.2)
  | .importMigrationBaseline tripId request revision createdAt now =>
    let r := importMigrationBaseline codec tripId request revision createdAt now s
    (r.1.map .imported, r.2)

def Failed : Except TripError Answer → Prop
  | .error _ => True
  | .ok .nothing => True
  | .ok _ => False

def runCalls (calls : List TripCall) (s : Store Text Hash) : Store Text Hash :=
  calls.foldl (fun s call ↦ (runCall codec s call).2) s

end TravelPlanner.TripStore
