import TravelPlanner.Runs
import TravelPlanner.StoreInvariant

namespace TravelPlanner.Migration

open Requests Snapshots Tables TripStore Runs

/-- A document of the legacy collection: its id and revision as the script reads them
(`none` where `int` raises), what the request model makes of it (`none` is a rejection),
and the creation time it carries. -/
structure SourceDocument where
  id : TripId
  revision : Option ℤ
  request : Option TripSave
  createdAt : Option String

structure MigrationMarker where
  completedAt : String
  tripCount : ℕ
  verifiedAt : String
  toolVersion : String
  deriving DecidableEq

def toolVersion : String := "mongo_trips_to_turso_v1"

structure Db (Text Hash : Type) where
  store : Store Text Hash
  marker : Option MigrationMarker

structure Options where
  dryRun : Bool
  skipInvalid : Bool
  deriving DecidableEq

/-- The two readings of the clock within one step, in their order. -/
structure Clock where
  first : String
  second : String

inductive Stage (Hash : Type)
  | importing
  | verifying (left : List (TripId × ℤ × Hash))
  | strays
  | stamping
  | reporting
  | returned (code : ℕ)
  | raised
  deriving DecidableEq

structure Progress (Hash : Type) where
  rest : List SourceDocument
  stage : Stage Hash := .importing
  imported : ℕ := 0
  skippedIdentical : ℕ := 0
  invalid : List TripId := []
  expected : List (TripId × ℤ × Hash) := []
  problems : ℕ := 0

variable {Text Hash : Type}

def Db.empty : Db Text Hash := ⟨Store.empty, none⟩

def hasMatchingMigrationBaseline [DecidableEq Hash] (s : Store Text Hash) (tripId : TripId) (revision : ℤ)
    (digest : Hash) : Bool :=
  (migrationBaseline tripId revision s).any fun row ↦ row.snapshotHash = digest

def migrationBaselineIds (s : Store Text Hash) : List TripId :=
  ((s.revisions.rows.filter fun row ↦ row.source = .migration).map RevisionRow.tripId).dedup

def countTrips (s : Store Text Hash) : ℕ := s.trips.rows.length

/-- `expected[trip_id] = (mongo_revision, digest)`. -/
def setExpected (expected : List (TripId × ℤ × Hash)) (tripId : TripId) (revision : ℤ) (digest : Hash) :
    List (TripId × ℤ × Hash) :=
  if tripId ∈ expected.map Prod.fst then
    expected.map fun x ↦ if x.1 = tripId then (tripId, revision, digest) else x
  else expected ++ [(tripId, revision, digest)]

variable [DecidableEq Hash] (codec : SnapshotCodec Text Hash) (options : Options)

/-- One turn of the import loop. A document that ends the run stays in `rest`. -/
def importDocument (clock : Clock) (p : Progress Hash) (db : Db Text Hash) (doc : SourceDocument)
    (rest : List SourceDocument) : Progress Hash × Db Text Hash :=
  match doc.revision with
  | none => ({ p with stage := .raised }, db)
  | some revision =>
    match doc.request with
    | none =>
      if options.skipInvalid then ({ p with rest := rest, invalid := p.invalid ++ [doc.id] }, db)
      else ({ p with stage := .returned 1 }, db)
    | some request =>
      match buildSnapshot codec request.1 with
      | none => ({ p with stage := .raised }, db)
      | some (_, digest, _) =>
        let p := { p with expected := setExpected p.expected doc.id revision digest }
        if options.dryRun then ({ p with rest := rest, imported := p.imported + 1 }, db)
        else
          match importMigrationBaseline codec doc.id request revision (doc.createdAt.getD clock.first) clock.second
            db.store with
          | (.ok .created, store) => ({ p with rest := rest, imported := p.imported + 1 }, { db with store := store })
          | (.ok .skippedIdentical, store) =>
            ({ p with rest := rest, skippedIdentical := p.skippedIdentical + 1 }, { db with store := store })
          | (.error (.baselineConflict ..), store) => ({ p with stage := .returned 1 }, { db with store := store })
          | (.error _, store) => ({ p with stage := .raised }, { db with store := store })

def markComplete (clock : Clock) (db : Db Text Hash) : Db Text Hash :=
  { db with marker := some ⟨clock.second, countTrips db.store, clock.first, toolVersion⟩ }

def step (s : Progress Hash × Db Text Hash) (clock : Clock) : Progress Hash × Db Text Hash :=
  let (p, db) := s
  match p.stage with
  | .importing =>
    match p.rest with
    | doc :: rest => importDocument codec options clock p db doc rest
    | [] =>
      if options.dryRun then ({ p with stage := .returned (if p.invalid = [] then 0 else 1) }, db)
      else ({ p with stage := .verifying p.expected }, db)
  | .verifying ((tripId, revision, digest) :: left) =>
    let problem := if hasMatchingMigrationBaseline db.store tripId revision digest then 0 else 1
    ({ p with stage := .verifying left, problems := p.problems + problem }, db)
  | .verifying [] => ({ p with stage := .strays }, db)
  | .strays =>
    let stray := (migrationBaselineIds db.store).filter fun id ↦ id ∉ p.expected.map Prod.fst
    let p := { p with problems := p.problems + stray.length }
    if p.invalid ≠ [] then ({ p with stage := .returned 1 }, db)
    else if p.problems ≠ 0 then ({ p with stage := .returned 1 }, db)
    else ({ p with stage := .stamping }, db)
  | .stamping => ({ p with stage := .reporting }, markComplete clock db)
  | .reporting => ({ p with stage := .returned 0 }, db)
  | .returned _ => (p, db)
  | .raised => (p, db)

/-- A run of the script that stops, by itself or from outside, after as many steps as
there are readings. -/
def session (docs : List SourceDocument) (clocks : List Clock) (db : Db Text Hash) : Progress Hash × Db Text Hash :=
  run (step codec options) ({ rest := docs }, db) clocks

/-- The states of the database that runs over one source leave behind, wherever they
stopped. -/
inductive Reached (docs : List SourceDocument) : Db Text Hash → Prop
  | empty : Reached docs .empty
  | session {db : Db Text Hash} (h : Reached docs db) (options : Options) (clocks : List Clock) :
      Reached docs (session codec options docs clocks db).2

end TravelPlanner.Migration
