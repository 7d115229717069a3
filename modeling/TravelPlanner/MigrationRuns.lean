import TravelPlanner.Migration

namespace TravelPlanner.MigrationRuns

open Requests Snapshots Tables TripStore StoreInvariant Migration Runs

section Rows

variable {Text Hash : Type}

/-- Rows are added, none is changed or removed. -/
structure Grows (s s' : Store Text Hash) : Prop where
  trips : ∀ row ∈ s.trips.rows, row ∈ s'.trips.rows
  revisions : ∀ row ∈ s.revisions.rows, row ∈ s'.revisions.rows

theorem Grows.refl (s : Store Text Hash) : Grows s s := ⟨fun _ ↦ id, fun _ ↦ id⟩

theorem Grows.trans {s s' s'' : Store Text Hash} (h : Grows s s') (h' : Grows s' s'') : Grows s s'' :=
  ⟨fun row hrow ↦ h'.trips row (h.trips row hrow), fun row hrow ↦ h'.revisions row (h.revisions row hrow)⟩

def digestOf (codec : SnapshotCodec Text Hash) (request : TripSave) : Hash :=
  codec.snapshotHash (codec.canonicalJson (snapshotPayload request.1))

def importedTrip (codec : SnapshotCodec Text Hash) (tripId : TripId) (request : TripSave) (revision : ℤ)
    (display : SnapshotDisplayFields) (createdAt : String) : TripRow Text Hash :=
  newTripRow tripId (snapshotPayload request.1) (codec.canonicalJson (snapshotPayload request.1))
    (digestOf codec request) display revision createdAt

def importedRevision (codec : SnapshotCodec Text Hash) (tripId : TripId) (request : TripSave) (revision : ℤ)
    (now : String) : RevisionRow Text Hash :=
  { tripId := tripId, revision := revision, source := .migration
    summary := s!"Imported from previous store at revision {revision}"
    restoredFromRevision := none, schemaVersion := (snapshotPayload request.1).schemaVersion
    snapshot := codec.canonicalJson (snapshotPayload request.1), snapshotHash := digestOf codec request
    recordedAt := now }

structure Imported (codec : SnapshotCodec Text Hash) (tripId : TripId) (request : TripSave) (revision : ℤ)
    (createdAt now : String) (s s' : Store Text Hash) : Prop where
  unrecorded : migrationBaseline tripId revision s = none
  fresh : s.trips.find tripId = none
  trips : ∃ display, displayFields (snapshotPayload request.1) = some display ∧
    s'.trips.rows = importedTrip codec tripId request revision display createdAt :: s.trips.rows
  revisions : s'.revisions.rows = importedRevision codec tripId request revision now :: s.revisions.rows

variable {codec : SnapshotCodec Text Hash} {tripId : TripId} {request : TripSave} {revision : ℤ}
  {createdAt now : String}
  {s s' : Store Text Hash}

theorem Imported.grows (h : Imported codec tripId request revision createdAt now s s') : Grows s s' := by
  obtain ⟨display, -, htrips⟩ := h.trips
  constructor
  · intro row hrow
    rw [htrips]
    exact List.mem_cons_of_mem _ hrow
  · intro row hrow
    rw [h.revisions]
    exact List.mem_cons_of_mem _ hrow

theorem Imported.baseline (h : Imported codec tripId request revision createdAt now s s') :
    migrationBaseline tripId revision s' = some (importedRevision codec tripId request revision now) := by
  have hkey : (importedRevision codec tripId request revision now).key = (tripId, revision) := rfl
  rw [migrationBaseline, Table.find_cons h.revisions, if_pos hkey]
  rfl

/-- An import leaves the baselines that were there. -/
theorem Imported.keeps (h : Imported codec tripId request revision createdAt now s s') {id : TripId} {n : ℤ}
    {row : RevisionRow Text Hash} (hrow : migrationBaseline id n s = some row) :
    migrationBaseline id n s' = some row := by
  rw [migrationBaseline, Table.find_cons h.revisions]
  split_ifs with hkey
  · obtain ⟨rfl, rfl⟩ := Prod.mk.inj hkey
    rw [importedRevision, h.unrecorded] at hrow
    cases hrow
  · exact hrow

theorem insertTripRow_rows {row : TripRow Text Hash} (h : insertTripRow row s = .ok s') :
    s'.trips.rows = row :: s.trips.rows ∧ s'.revisions = s.revisions := by
  unfold insertTripRow at h
  split_ifs at h
  obtain ⟨trips, htrips, rfl⟩ := Fallible.map_eq_ok.mp h
  exact ⟨Table.insert_rows (orRaise_ok htrips), rfl⟩

theorem insertRevision_rows {row : RevisionRow Text Hash} (h : insertRevision row s = .ok s') :
    s'.revisions.rows = row :: s.revisions.rows ∧ s'.trips = s.trips := by
  unfold insertRevision at h
  split_ifs at h
  obtain ⟨revisions, hrevisions, rfl⟩ := Fallible.map_eq_ok.mp h
  exact ⟨Table.insert_rows (orRaise_ok hrevisions), rfl⟩

variable [DecidableEq Hash]

theorem import_cases (codec : SnapshotCodec Text Hash) (tripId : TripId) (request : TripSave) (revision : ℤ)
    (createdAt now : String) (s : Store Text Hash) :
    (∃ e, importMigrationBaseline codec tripId request revision createdAt now s = (.error e, s)) ∨
    (∃ row, migrationBaseline tripId revision s = some row ∧ row.snapshotHash = digestOf codec request ∧
      importMigrationBaseline codec tripId request revision createdAt now s = (.ok .skippedIdentical, s)) ∨
    ∃ s', Imported codec tripId request revision createdAt now s s' ∧
      importMigrationBaseline codec tripId request revision createdAt now s = (.ok .created, s') := by
  obtain ⟨display, hdisplay, hbuild⟩ := buildSnapshot_total codec request.2
  simp only [importMigrationBaseline, hbuild, load_canonical]
  cases hbase : migrationBaseline tripId revision s with
  | some row =>
    by_cases hhash : row.snapshotHash = codec.snapshotHash (codec.canonicalJson (snapshotPayload request.1))
    · exact .inr (.inl ⟨row, rfl, hhash, if_pos hhash⟩)
    · exact .inl ⟨_, if_neg hhash⟩
  | none =>
    by_cases htrip : s.trips.find tripId = none
    · rw [if_neg (not_not.mpr htrip)]
      rcases transaction_cases (createBlock _ _) s with ⟨e, he⟩ | ⟨u, s', hblock, he⟩
      · exact .inl ⟨e, by rw [he]; rfl⟩
      · obtain ⟨s₁, h₁, hblock⟩ := Fallible.bind_eq_ok.mp hblock
        obtain ⟨s₂, h₂, hblock⟩ := Fallible.bind_eq_ok.mp hblock
        obtain rfl : s₂ = s' := congrArg Prod.snd (Fallible.pure_eq_ok.mp hblock)
        obtain ⟨htrips, hsame⟩ := insertTripRow_rows h₁
        obtain ⟨hrevisions, hsame'⟩ := insertRevision_rows h₂
        refine .inr (.inr ⟨s₂, ⟨hbase, htrip, ⟨display, hdisplay, ?_⟩, ?_⟩, by rw [he]; rfl⟩)
        · rw [hsame', htrips]
          rfl
        · rw [hrevisions, hsame]
          rfl
    · exact .inl ⟨_, if_pos htrip⟩

end Rows

section Passes

variable {Text Hash : Type} {codec : SnapshotCodec Text Hash} {s s' : Store Text Hash}
  {docs past rest : List SourceDocument}
  {doc : SourceDocument}

def HasBaseline (codec : SnapshotCodec Text Hash) (s : Store Text Hash) (doc : SourceDocument) : Prop :=
  ∃ request revision row, doc.request = some request ∧ doc.revision = some revision ∧
    migrationBaseline doc.id revision s = some row ∧ row.snapshotHash = digestOf codec request

/-- What a store holds after one pass over some documents, the latest first. -/
inductive Passed (codec : SnapshotCodec Text Hash) : List SourceDocument → Store Text Hash → Prop
  | nil : Passed codec [] .empty
  | invalid {past : List SourceDocument} {s : Store Text Hash} {doc : SourceDocument} (h : Passed codec past s)
      (hrequest : doc.request = none) : Passed codec (doc :: past) s
  | identical {past : List SourceDocument} {s : Store Text Hash} {doc : SourceDocument} (h : Passed codec past s)
      (hbase : HasBaseline codec s doc) : Passed codec (doc :: past) s
  | created {past : List SourceDocument} {s s' : Store Text Hash} {doc : SourceDocument} {request : TripSave}
      {revision : ℤ} {clock : Clock} (h : Passed codec past s) (hrequest : doc.request = some request)
      (hrevision : doc.revision = some revision)
      (himport : Imported codec doc.id request revision (doc.createdAt.getD clock.first) clock.second s s') :
      Passed codec (doc :: past) s'

theorem Imported.hasBaseline {request : TripSave} {revision : ℤ} {createdAt now : String}
    (h : Imported codec doc.id request revision createdAt now s s') (hrequest : doc.request = some request)
    (hrevision : doc.revision = some revision) : HasBaseline codec s' doc :=
  ⟨request, revision, _, hrequest, hrevision, h.baseline, rfl⟩

theorem HasBaseline.mono
    (hkeep : ∀ id n row, migrationBaseline id n s = some row → migrationBaseline id n s' = some row)
    (h : HasBaseline codec s doc) : HasBaseline codec s' doc := by
  obtain ⟨request, revision, row, hrequest, hrevision, hrow, hhash⟩ := h
  exact ⟨request, revision, row, hrequest, hrevision, hkeep _ _ _ hrow, hhash⟩

theorem Passed.hasBaseline (h : Passed codec past s) (hdoc : doc ∈ past) (hvalid : doc.request ≠ none) :
    HasBaseline codec s doc := by
  induction h with
  | nil => cases hdoc
  | invalid _ hrequest ih =>
    rcases List.mem_cons.mp hdoc with rfl | hdoc
    · exact absurd hrequest hvalid
    · exact ih hdoc
  | identical _ hbase ih =>
    rcases List.mem_cons.mp hdoc with rfl | hdoc
    · exact hbase
    · exact ih hdoc
  | created _ hrequest hrevision himport ih =>
    rcases List.mem_cons.mp hdoc with rfl | hdoc
    · exact himport.hasBaseline hrequest hrevision
    · exact (ih hdoc).mono fun _ _ _ ↦ himport.keeps

theorem Passed.trip_of_revision (h : Passed codec past s) :
    ∀ row ∈ s.revisions.rows, s.trips.find row.tripId ≠ none := by
  induction h with
  | nil => simp [Store.empty, Table.empty]
  | invalid _ _ ih => exact ih
  | identical _ _ ih => exact ih
  | created _ _ _ himport ih =>
    obtain ⟨display, -, htrips⟩ := himport.trips
    intro row hrow
    rw [himport.revisions] at hrow
    rw [Table.find_cons htrips]
    split_ifs with hid
    · simp
    · rcases List.mem_cons.mp hrow with rfl | hrow
      · exact absurd rfl hid
      · exact ih row hrow

theorem baseline_mem {id : TripId} {n : ℤ} {row : RevisionRow Text Hash} (h : migrationBaseline id n s = some row) :
    row ∈ s.revisions.rows ∧ row.tripId = id ∧ row.revision = n ∧ row.source = .migration := by
  obtain ⟨hfind, hsource⟩ := Option.filter_eq_some_iff.mp h
  have hkey := Table.find_key hfind
  exact ⟨Table.find_mem hfind, congrArg Prod.fst hkey, congrArg Prod.snd hkey, of_decide_eq_true hsource⟩

theorem Passed.trip_of_doc (h : Passed codec past s) (hdoc : doc ∈ past) (hvalid : doc.request ≠ none) :
    s.trips.find doc.id ≠ none := by
  obtain ⟨_, _, row, -, -, hrow, -⟩ := h.hasBaseline hdoc hvalid
  obtain ⟨hmem, hid, -⟩ := baseline_mem hrow
  rw [← hid]
  exact h.trip_of_revision row hmem

theorem setExpected_mem {expected : List (TripId × ℤ × Hash)} {tripId : TripId} {revision : ℤ} {digest : Hash}
    {x : TripId × ℤ × Hash} (hx : x ∈ setExpected expected tripId revision digest) : x ∈ expected ∨ tripId = x.1 := by
  unfold setExpected at hx
  split_ifs at hx
  · obtain ⟨y, hy, rfl⟩ := List.mem_map.mp hx
    split_ifs
    · exact .inr rfl
    · exact .inl hy
  · refine (List.mem_append.mp hx).imp id fun hx ↦ ?_
    rw [List.mem_singleton.mp hx]

end Passes

section Undated

variable {Text Hash : Type} {codec : SnapshotCodec Text Hash} {s s' : Store Text Hash}
  {docs past rest : List SourceDocument}

def sourceOf (docs : List SourceDocument) (tripId : TripId) : Option SourceDocument :=
  docs.find? fun doc ↦ doc.id = tripId ∧ doc.request.isSome

def undatedTrip (docs : List SourceDocument) (row : TripRow Text Hash) : TripRow Text Hash :=
  if ((sourceOf docs row.id).bind SourceDocument.createdAt).isSome then row else { row with createdAt := "" }

def undatedRevision (row : RevisionRow Text Hash) : RevisionRow Text Hash := { row with recordedAt := "" }

def undated (docs : List SourceDocument) (s : Store Text Hash) :
    List (TripRow Text Hash) × List (RevisionRow Text Hash) :=
  (s.trips.rows.map (undatedTrip docs), s.revisions.rows.map undatedRevision)

theorem baseline_undated (h : s.revisions.rows.map undatedRevision = s'.revisions.rows.map undatedRevision)
    (id : TripId) (n : ℤ) :
    (migrationBaseline id n s).map undatedRevision = (migrationBaseline id n s').map undatedRevision := by
  have hfind : ∀ s : Store Text Hash, (migrationBaseline id n s).map undatedRevision =
      ((s.revisions.rows.map undatedRevision).find? (RevisionRow.key · = (id, n))).filter (·.source = .migration) := by
    intro s
    rw [List.find?_map, migrationBaseline, Table.find]
    change _ = (Option.map undatedRevision (s.revisions.rows.find? fun row ↦ row.key = (id, n))).filter _
    cases s.revisions.rows.find? fun row ↦ row.key = (id, n) with
    | none => rfl
    | some row => by_cases hsource : row.source = .migration <;> simp [Option.filter, hsource, undatedRevision]
  rw [hfind, hfind, h]

theorem sourceOf_first {doc : SourceDocument} (hvalid : doc.request ≠ none)
    (hnew : ∀ d ∈ past, d.request ≠ none → d.id ≠ doc.id) :
    sourceOf (past.reverse ++ doc :: rest) doc.id = some doc := by
  have hbefore : past.reverse.find? (fun d ↦ d.id = doc.id ∧ d.request.isSome) = none := by
    rw [List.find?_eq_none]
    intro d hd hmatch
    obtain ⟨hid, hsome⟩ := of_decide_eq_true hmatch
    exact hnew d (List.mem_reverse.mp hd) (Option.isSome_iff_ne_none.mp hsome) hid
  have hself : decide (doc.id = doc.id ∧ doc.request.isSome) = true := by
    simp [Option.isSome_iff_ne_none, hvalid]
  rw [sourceOf, List.find?_append, hbefore, Option.none_or]
  exact List.find?_cons_of_pos hself

theorem unrecorded_of_undated (docs : List SourceDocument) {doc : SourceDocument}
    (hsame : undated docs s = undated docs s')
    (hbase : HasBaseline codec s doc) {request : TripSave} {revision : ℤ} {createdAt now : String} {t : Store Text Hash}
    (hrevision : doc.revision = some revision) (himport : Imported codec doc.id request revision createdAt now s' t) :
    False := by
  obtain ⟨_, n, row, -, hn, hrow, -⟩ := hbase
  obtain rfl := Option.some.inj (hn.symm.trans hrevision)
  have h := baseline_undated (congrArg Prod.snd hsame) doc.id n
  rw [hrow, himport.unrecorded] at h
  cases h

/-- Importing a document into stores with the same rows leaves the same rows. -/
theorem imported_undated {doc : SourceDocument} {request : TripSave} {revision : ℤ} {clock clock' : Clock}
    {t t' : Store Text Hash} (hsource : sourceOf docs doc.id = some doc) (hsame : undated docs s = undated docs s')
    (h : Imported codec doc.id request revision (doc.createdAt.getD clock.first) clock.second s t)
    (h' : Imported codec doc.id request revision (doc.createdAt.getD clock'.first) clock'.second s' t') :
    undated docs t = undated docs t' := by
  obtain ⟨display, hdisplay, htrips⟩ := h.trips
  obtain ⟨display', hdisplay', htrips'⟩ := h'.trips
  obtain rfl := Option.some.inj (hdisplay.symm.trans hdisplay')
  obtain ⟨hrows, hrevisions⟩ := Prod.mk.inj hsame
  have htrip : undatedTrip docs (importedTrip codec doc.id request revision display (doc.createdAt.getD clock.first)) =
      undatedTrip docs (importedTrip codec doc.id request revision display (doc.createdAt.getD clock'.first)) := by
    simp only [undatedTrip, importedTrip, newTripRow, hsource, Option.bind_some]
    cases doc.createdAt with
    | none => rfl
    | some createdAt => rfl
  simp only [undated, htrips, htrips', h.revisions, h'.revisions, List.map_cons, htrip, hrows, hrevisions]
  rfl

theorem Passed.undated_eq (rest : List SourceDocument) (hdocs : docs = past.reverse ++ rest)
    (h : Passed codec past s) (h' : Passed codec past s') :
    undated docs s = undated docs s' := by
  induction past generalizing rest s s' with
  | nil =>
    cases h
    cases h'
    rfl
  | cons doc past ih =>
    have hdocs' : docs = past.reverse ++ doc :: rest := by
      rw [hdocs, List.reverse_cons, List.append_assoc, List.singleton_append]
    cases h with
    | invalid h hrequest =>
      cases h' with
      | invalid h' _ => exact ih _ hdocs' h h'
      | identical _ hbase =>
        obtain ⟨_, _, _, hsome, -⟩ := hbase
        exact absurd (hrequest.symm.trans hsome) (by simp)
      | created _ hsome => exact absurd (hrequest.symm.trans hsome) (by simp)
    | identical h hbase =>
      cases h' with
      | invalid _ hrequest =>
        obtain ⟨_, _, _, hsome, -⟩ := hbase
        exact absurd (hrequest.symm.trans hsome) (by simp)
      | identical h' _ => exact ih _ hdocs' h h'
      | created h' _ hrevision himport =>
        exact (unrecorded_of_undated docs (ih _ hdocs' h h') hbase hrevision himport).elim
    | created h hrequest hrevision himport =>
      cases h' with
      | invalid _ hnone => exact absurd (hnone.symm.trans hrequest) (by simp)
      | identical h' hbase =>
        exact (unrecorded_of_undated docs (ih _ hdocs' h' h) hbase hrevision himport).elim
      | created h' hrequest' hrevision' himport' =>
        obtain rfl := Option.some.inj (hrequest.symm.trans hrequest')
        obtain rfl := Option.some.inj (hrevision.symm.trans hrevision')
        have hsource : sourceOf docs doc.id = some doc := by
          rw [hdocs']
          apply sourceOf_first (by simp [hrequest])
          intro d hd hvalid hid
          exact h.trip_of_doc hd hvalid (hid ▸ himport.fresh)
        exact imported_undated hsource (ih _ hdocs' h h') himport himport'

end Undated

section Steps

variable {Text Hash : Type} [DecidableEq Hash] {codec : SnapshotCodec Text Hash} {options : Options}
  {p p' : Progress Hash} {db db' : Db Text Hash}

def PassesOver (codec : SnapshotCodec Text Hash) (doc : SourceDocument) (s s' : Store Text Hash) : Prop :=
  s' = s ∧ HasBaseline codec s doc ∨ ∃ (request : TripSave) (revision : ℤ) (clock : Clock),
    doc.request = some request ∧ doc.revision = some revision ∧
    Imported codec doc.id request revision (doc.createdAt.getD clock.first) clock.second s s'

inductive Stepped (codec : SnapshotCodec Text Hash) (options : Options) (p : Progress Hash) (db : Db Text Hash) :
    Progress Hash × Db Text Hash → Prop
  | stopped {p' : Progress Hash} (hfrom : p.stage = .importing ∨ p.stage = .strays)
      (hrest : p'.rest = p.rest) (hinvalid : p'.invalid = p.invalid)
      (hstage : p'.stage = .raised ∨ p'.stage = .returned 1)
      (hexpected : ∀ x ∈ p'.expected, x ∈ p.expected ∨ ∃ doc ∈ p.rest, doc.id = x.1) :
      Stepped codec options p db (p', db)
  | invalid {p' : Progress Hash} {doc : SourceDocument} (hstage : p.stage = .importing)
      (hrest : p.rest = doc :: p'.rest)
      (hrevision : doc.revision ≠ none) (hrequest : doc.request = none) (hinvalid : p'.invalid = p.invalid ++ [doc.id])
      (hexpected : p'.expected = p.expected) (hstage' : p'.stage = .importing) : Stepped codec options p db (p', db)
  | passed {p' : Progress Hash} {doc : SourceDocument} {store : Store Text Hash} (hstage : p.stage = .importing)
      (hrest : p.rest = doc :: p'.rest) (hrevision : doc.revision ≠ none) (hrequest : doc.request ≠ none)
      (hinvalid : p'.invalid = p.invalid) (hexpected : ∀ x ∈ p'.expected, x ∈ p.expected ∨ doc.id = x.1)
      (hstage' : p'.stage = .importing) (hdry : options.dryRun = true → store = db.store)
      (hstore : options.dryRun = false → PassesOver codec doc db.store store) :
      Stepped codec options p db (p', { db with store := store })
  | dryEnd {p' : Progress Hash} {code : ℕ} (hstage : p.stage = .importing) (hdry : options.dryRun = true)
      (hrest : p'.rest = p.rest)
      (hinvalid : p'.invalid = p.invalid) (hexpected : p'.expected = p.expected) (hstage' : p'.stage = .returned code) :
      Stepped codec options p db (p', db)
  | verify {p' : Progress Hash}
      (hfrom : p.stage = .importing ∧ p.rest = [] ∧ options.dryRun = false ∨ ∃ left, p.stage = .verifying left)
      (hrest : p'.rest = p.rest) (hinvalid : p'.invalid = p.invalid) (hexpected : p'.expected = p.expected)
      (hstage' : (∃ left, p'.stage = .verifying left) ∨ p'.stage = .strays) : Stepped codec options p db (p', db)
  | cleared {p' : Progress Hash} (hstage : p.stage = .strays) (hrest : p'.rest = p.rest)
      (hinvalid : p'.invalid = p.invalid)
      (hexpected : p'.expected = p.expected) (hclean : p.invalid = [])
      (hstray : ∀ id ∈ migrationBaselineIds db.store, id ∈ p.expected.map Prod.fst) (hstage' : p'.stage = .stamping) :
      Stepped codec options p db (p', db)
  | stamped {p' : Progress Hash} {marker : MigrationMarker} (hstage : p.stage = .stamping) (hrest : p'.rest = p.rest)
      (hinvalid : p'.invalid = p.invalid) (hexpected : p'.expected = p.expected) (hstage' : p'.stage = .reporting) :
      Stepped codec options p db (p', { db with marker := some marker })
  | reported {p' : Progress Hash} (hstage : p.stage = .reporting) (hrest : p'.rest = p.rest)
      (hinvalid : p'.invalid = p.invalid) (hexpected : p'.expected = p.expected) (hstage' : p'.stage = .returned 0) :
      Stepped codec options p db (p', db)
  | idle : Stepped codec options p db (p, db)

theorem importDocument_stepped {doc : SourceDocument} {rest : List SourceDocument} (hstage : p.stage = .importing)
    (hrest : p.rest = doc :: rest) (clock : Clock) :
    Stepped codec options p db (importDocument codec options clock p db doc rest) := by
  have hsame : ∀ x ∈ p.expected, x ∈ p.expected ∨ ∃ doc ∈ p.rest, doc.id = x.1 := fun x hx ↦ .inl hx
  unfold importDocument
  cases hrevision : doc.revision with
  | none => exact .stopped (.inl hstage) rfl rfl (.inl rfl) hsame
  | some revision =>
    cases hrequest : doc.request with
    | none =>
      dsimp only
      split_ifs
      · exact .invalid hstage hrest (by simp [hrevision]) hrequest rfl rfl hstage
      · exact .stopped (.inl hstage) rfl rfl (.inr rfl) hsame
    | some request =>
      obtain ⟨display, -, hbuild⟩ := buildSnapshot_total codec request.2
      have hset : ∀ x ∈ setExpected p.expected doc.id revision (digestOf codec request),
          x ∈ p.expected ∨ doc.id = x.1 := fun x hx ↦ setExpected_mem hx
      have hahead : ∀ x ∈ setExpected p.expected doc.id revision (digestOf codec request),
          x ∈ p.expected ∨ ∃ doc ∈ p.rest, doc.id = x.1 := by
        intro x hx
        refine (hset x hx).imp id fun hid ↦ ⟨doc, ?_, hid⟩
        rw [hrest]
        exact List.mem_cons_self
      dsimp only
      rw [hbuild]
      dsimp only
      split_ifs with hdry
      · exact .passed hstage hrest (by simp [hrevision]) (by simp [hrequest]) rfl hset hstage (fun _ ↦ rfl)
          (by simp [hdry])
      · rcases import_cases codec doc.id request revision (doc.createdAt.getD clock.first) clock.second db.store with
          ⟨e, he⟩ | ⟨row, hrow, hhash, he⟩ | ⟨store, himport, he⟩
        · rw [he]
          cases e with
          | baselineConflict id n reason => exact .stopped (.inl hstage) rfl rfl (.inr rfl) hahead
          | _ => exact .stopped (.inl hstage) rfl rfl (.inl rfl) hahead
        · rw [he]
          refine .passed hstage hrest (by simp [hrevision]) (by simp [hrequest]) rfl hset hstage (fun _ ↦ rfl) ?_
          exact fun _ ↦ Or.inl ⟨rfl, request, revision, row, hrequest, hrevision, hrow, hhash⟩
        · rw [he]
          refine .passed hstage hrest (by simp [hrevision]) (by simp [hrequest]) rfl hset hstage (by simp [hdry]) ?_
          exact fun _ ↦ Or.inr ⟨request, revision, clock, hrequest, hrevision, himport⟩

theorem step_stepped (codec : SnapshotCodec Text Hash) (options : Options) (p : Progress Hash) (db : Db Text Hash)
    (clock : Clock) : Stepped codec options p db (step codec options (p, db) clock) := by
  have hsame : ∀ x ∈ p.expected, x ∈ p.expected ∨ ∃ doc ∈ p.rest, doc.id = x.1 := fun x hx ↦ .inl hx
  unfold step
  dsimp only
  cases hstage : p.stage with
  | importing =>
    cases hrest : p.rest with
    | cons doc rest => exact importDocument_stepped hstage hrest clock
    | nil =>
      dsimp only
      split_ifs with hdry
      · exact .dryEnd hstage hdry hrest.symm rfl rfl rfl
      · exact .dryEnd hstage hdry hrest.symm rfl rfl rfl
      · exact .verify (.inl ⟨hstage, hrest, by simpa using hdry⟩) hrest.symm rfl rfl (.inl ⟨_, rfl⟩)
  | verifying left =>
    cases left with
    | nil => exact .verify (.inr ⟨[], hstage⟩) rfl rfl rfl (.inr rfl)
    | cons x left => exact .verify (.inr ⟨_, hstage⟩) rfl rfl rfl (.inl ⟨left, rfl⟩)
  | strays =>
    dsimp only
    split_ifs with hinvalid hproblems
    · exact .stopped (.inr hstage) rfl rfl (.inr rfl) hsame
    · exact .stopped (.inr hstage) rfl rfl (.inr rfl) hsame
    · refine .cleared hstage rfl rfl rfl (by simpa using hinvalid) ?_ rfl
      intro id hid
      by_contra hstray
      have hmem : id ∈ (migrationBaselineIds db.store).filter fun id ↦ id ∉ p.expected.map Prod.fst :=
        List.mem_filter.mpr ⟨hid, by simpa using hstray⟩
      have hlength := List.length_pos_of_mem hmem
      exact hproblems (by omega)
  | stamping => exact .stamped hstage rfl rfl rfl rfl
  | reporting => exact .reported hstage rfl rfl rfl rfl
  | returned code => exact .idle
  | raised => exact .idle

end Steps

section Stores

variable {Text Hash : Type} {codec : SnapshotCodec Text Hash} {docs : List SourceDocument} {s s' : Store Text Hash}

def PartlyPassed (codec : SnapshotCodec Text Hash) (docs : List SourceDocument) (s : Store Text Hash) : Prop :=
  ∃ past rest, docs = past.reverse ++ rest ∧ Passed codec past s

def Ahead (codec : SnapshotCodec Text Hash) (docs rest : List SourceDocument) (s : Store Text Hash) : Prop :=
  ∃ done ahead tail, docs = done ++ (ahead ++ tail) ∧ rest = ahead ++ tail ∧ Passed codec (done ++ ahead).reverse s

theorem PassesOver.grows {doc : SourceDocument} (h : PassesOver codec doc s s') : Grows s s' := by
  rcases h with ⟨rfl, -⟩ | ⟨_, _, _, -, -, himport⟩
  · exact .refl _
  · exact himport.grows

theorem PassesOver.keeps {doc : SourceDocument} (h : PassesOver codec doc s s') {id : TripId} {n : ℤ}
    {row : RevisionRow Text Hash} (hrow : migrationBaseline id n s = some row) :
    migrationBaseline id n s' = some row := by
  rcases h with ⟨rfl, -⟩ | ⟨_, _, _, -, -, himport⟩
  · exact hrow
  · exact himport.keeps hrow

theorem PassesOver.hasBaseline {doc : SourceDocument} (h : PassesOver codec doc s s') : HasBaseline codec s' doc := by
  rcases h with ⟨rfl, hbase⟩ | ⟨_, _, _, hrequest, hrevision, himport⟩
  · exact hbase
  · exact himport.hasBaseline hrequest hrevision

/-- A document that was imported before is found; the next one extends the pass. -/
theorem Ahead.passesOver {doc : SourceDocument} {rest : List SourceDocument} (h : Ahead codec docs (doc :: rest) s)
    (hvalid : doc.request ≠ none) (hpass : PassesOver codec doc s s') : Ahead codec docs rest s' := by
  obtain ⟨done, ahead, tail, hdocs, hrest, hpassed⟩ := h
  cases ahead with
  | cons d ahead =>
    obtain ⟨rfl, rfl⟩ := List.cons.inj hrest
    have hseen : HasBaseline codec s doc := hpassed.hasBaseline (by simp) hvalid
    refine ⟨done ++ [doc], ahead, tail, by simp [hdocs], rfl, ?_⟩
    rcases hpass with ⟨rfl, -⟩ | ⟨request, revision, clock, hrequest, hrevision, himport⟩
    · simpa using hpassed
    · exact (unrecorded_of_undated docs rfl hseen hrevision himport).elim
  | nil =>
    rw [List.nil_append] at hrest
    rw [List.append_nil] at hpassed
    refine ⟨done ++ [doc], [], rest, by simp [hdocs, ← hrest], rfl, ?_⟩
    rw [List.append_nil, List.reverse_append, List.reverse_singleton, List.singleton_append]
    rcases hpass with ⟨rfl, hbase⟩ | ⟨request, revision, clock, hrequest, hrevision, himport⟩
    · exact .identical hpassed hbase
    · exact .created hpassed hrequest hrevision himport

theorem Ahead.invalid {doc : SourceDocument} {rest : List SourceDocument} (h : Ahead codec docs (doc :: rest) s)
    (hinvalid : doc.request = none) : Ahead codec docs rest s := by
  obtain ⟨done, ahead, tail, hdocs, hrest, hpassed⟩ := h
  cases ahead with
  | cons d ahead =>
    obtain ⟨rfl, rfl⟩ := List.cons.inj hrest
    refine ⟨done ++ [doc], ahead, tail, by simp [hdocs], rfl, ?_⟩
    simpa using hpassed
  | nil =>
    rw [List.nil_append] at hrest
    rw [List.append_nil] at hpassed
    refine ⟨done ++ [doc], [], rest, by simp [hdocs, ← hrest], rfl, ?_⟩
    rw [List.append_nil, List.reverse_append, List.reverse_singleton, List.singleton_append]
    exact .invalid hpassed hinvalid

end Stores

section Sessions

variable {Text Hash : Type} {codec : SnapshotCodec Text Hash} {options : Options}
  {docs : List SourceDocument} {db₀ db : Db Text Hash} {p : Progress Hash} {next : Progress Hash × Db Text Hash}

def NoStray (docs : List SourceDocument) (s : Store Text Hash) : Prop :=
  ∀ row ∈ s.revisions.rows, row.source = .migration → ∃ doc ∈ docs, doc.id = row.tripId

def Stamped (options : Options) (stage : Stage Hash) : Prop :=
  stage = .reporting ∨ stage = .returned 0 ∧ options.dryRun = false

def Clean (options : Options) (stage : Stage Hash) : Prop := stage = .stamping ∨ Stamped options stage

def Verifying (options : Options) (stage : Stage Hash) : Prop :=
  (∃ left, stage = .verifying left) ∨ stage = .strays ∨ Clean options stage

structure Processed (codec : SnapshotCodec Text Hash) (options : Options) (docs : List SourceDocument)
    (p : Progress Hash) (db : Db Text Hash) : Prop where
  behind : ∃ done, docs = done ++ p.rest ∧ ∀ doc ∈ done, doc.revision ≠ none ∧ (doc.request = none → p.invalid ≠ []) ∧
    (options.dryRun = false → doc.request ≠ none → HasBaseline codec db.store doc)
  expected : ∀ x ∈ p.expected, ∃ doc ∈ docs, doc.id = x.1

theorem Processed.same {p' : Progress Hash} {db' : Db Text Hash} (h : Processed codec options docs p db)
    (hrest : p'.rest = p.rest) (hinvalid : p'.invalid = p.invalid) (hexpected : p'.expected = p.expected)
    (hstore : db'.store = db.store) : Processed codec options docs p' db' where
  behind := by
    rw [hrest, hinvalid, hstore]
    exact h.behind
  expected := by
    rw [hexpected]
    exact h.expected

theorem stepped_processed (h : Processed codec options docs p db) (hstep : Stepped codec options p db next) :
    Processed codec options docs next.1 next.2 := by
  obtain ⟨done, hdocs, hdone⟩ := h.behind
  cases hstep with
  | stopped _ hrest hinvalid _ hexpected =>
    refine ⟨⟨done, by rw [hdocs, hrest], ?_⟩, ?_⟩
    · rw [hinvalid]
      exact hdone
    · intro x hx
      rcases hexpected x hx with hx | ⟨doc, hdoc, hid⟩
      · exact h.expected x hx
      · exact ⟨doc, hdocs ▸ List.mem_append_right _ hdoc, hid⟩
  | @invalid p' doc _ hrest hrevision hrequest hinvalid hexpected _ =>
    refine ⟨⟨done ++ [doc], by rw [hdocs, hrest, List.append_assoc, List.singleton_append], ?_⟩,
      by rw [hexpected]; exact h.expected⟩
    intro d hd
    have hskipped : p'.invalid ≠ [] := by simp [hinvalid]
    rcases List.mem_append.mp hd with hd | hd
    · exact ⟨(hdone d hd).1, fun _ ↦ hskipped, (hdone d hd).2.2⟩
    · obtain rfl := List.mem_singleton.mp hd
      exact ⟨hrevision, fun _ ↦ hskipped, fun _ hvalid ↦ absurd hrequest hvalid⟩
  | @passed p' doc store _ hrest hrevision hrequest hinvalid hexpected _ _ hstore =>
    refine ⟨⟨done ++ [doc], by rw [hdocs, hrest, List.append_assoc, List.singleton_append], ?_⟩, ?_⟩
    · intro d hd
      rw [hinvalid]
      rcases List.mem_append.mp hd with hd | hd
      · obtain ⟨hread, hskipped, hbase⟩ := hdone d hd
        exact ⟨hread, hskipped, fun hdry hvalid ↦ (hbase hdry hvalid).mono fun _ _ _ ↦ (hstore hdry).keeps⟩
      · obtain rfl := List.mem_singleton.mp hd
        exact ⟨hrevision, fun hnone ↦ absurd hnone hrequest, fun hdry _ ↦ (hstore hdry).hasBaseline⟩
    · intro x hx
      rcases hexpected x hx with hx | hid
      · exact h.expected x hx
      · exact ⟨doc, by rw [hdocs, hrest]; simp, hid⟩
  | dryEnd _ _ hrest hinvalid hexpected _ => exact h.same hrest hinvalid hexpected rfl
  | verify _ hrest hinvalid hexpected _ => exact h.same hrest hinvalid hexpected rfl
  | cleared _ hrest hinvalid hexpected _ _ _ => exact h.same hrest hinvalid hexpected rfl
  | stamped _ hrest hinvalid hexpected _ => exact h.same hrest hinvalid hexpected rfl
  | reported _ hrest hinvalid hexpected _ => exact h.same hrest hinvalid hexpected rfl
  | idle => exact h

/-- What the store of a run has to do with the store it began with. -/
structure Stored (codec : SnapshotCodec Text Hash) (options : Options) (docs : List SourceDocument) (db₀ : Db Text Hash)
    (p : Progress Hash) (db : Db Text Hash) : Prop where
  grows : Grows db₀.store db.store
  dry : options.dryRun = true → db.store = db₀.store
  ahead : PartlyPassed codec docs db₀.store → options.dryRun = false → Ahead codec docs p.rest db.store

theorem Stored.same {p' : Progress Hash} {db' : Db Text Hash} (h : Stored codec options docs db₀ p db)
    (hrest : p'.rest = p.rest) (hstore : db'.store = db.store) : Stored codec options docs db₀ p' db' where
  grows := hstore ▸ h.grows
  dry := hstore ▸ h.dry
  ahead := by
    rw [hrest, hstore]
    exact h.ahead

theorem stepped_stored (h : Stored codec options docs db₀ p db) (hstep : Stepped codec options p db next) :
    Stored codec options docs db₀ next.1 next.2 := by
  cases hstep with
  | stopped _ hrest _ _ _ => exact h.same hrest rfl
  | invalid _ hrest _ hrequest _ _ _ =>
    refine ⟨h.grows, h.dry, fun hpassed hdry ↦ ?_⟩
    have hahead := h.ahead hpassed hdry
    rw [hrest] at hahead
    exact hahead.invalid hrequest
  | @passed p' doc store _ hrest _ hrequest _ _ _ hdry hstore =>
    cases hoption : options.dryRun with
    | true =>
      have hsame := hdry hoption
      exact ⟨hsame ▸ h.grows, fun _ ↦ hsame.trans (h.dry hoption), by simp [hoption]⟩
    | false =>
      refine ⟨h.grows.trans (hstore hoption).grows, by simp [hoption], fun hpassed _ ↦ ?_⟩
      have hahead := h.ahead hpassed hoption
      rw [hrest] at hahead
      exact hahead.passesOver hrequest (hstore hoption)
  | dryEnd _ _ hrest _ _ _ => exact h.same hrest rfl
  | verify _ hrest _ _ _ => exact h.same hrest rfl
  | cleared _ hrest _ _ _ _ _ => exact h.same hrest rfl
  | stamped _ hrest _ _ _ => exact h.same hrest rfl
  | reported _ hrest _ _ _ => exact h.same hrest rfl
  | idle => exact h

structure Staged (options : Options) (docs : List SourceDocument) (db₀ : Db Text Hash) (p : Progress Hash)
    (db : Db Text Hash) : Prop where
  verifying : Verifying options p.stage → p.rest = [] ∧ options.dryRun = false
  clean : Clean options p.stage → p.invalid = [] ∧ NoStray docs db.store
  stamped : Stamped options p.stage → db.marker ≠ none
  unstamped : ¬Stamped options p.stage → db.marker = db₀.marker

theorem Staged.before {p' : Progress Hash} {db' : Db Text Hash} (h : Staged options docs db₀ p db)
    (hbefore : ¬Stamped options p.stage) (hafter : ¬Verifying options p'.stage) (hmarker : db'.marker = db.marker) :
    Staged options docs db₀ p' db' where
  verifying := fun hstage ↦ absurd hstage hafter
  clean := fun hstage ↦ absurd (.inr (.inr hstage)) hafter
  stamped := fun hstage ↦ absurd (.inr (.inr (.inr hstage))) hafter
  unstamped := fun _ ↦ hmarker.trans (h.unstamped hbefore)

theorem noStray_of_expected (hexpected : ∀ x ∈ p.expected, ∃ doc ∈ docs, doc.id = x.1)
    (hstray : ∀ id ∈ migrationBaselineIds db.store, id ∈ p.expected.map Prod.fst) : NoStray docs db.store := by
  intro row hrow hsource
  have hid : row.tripId ∈ migrationBaselineIds db.store := by
    simp only [migrationBaselineIds, List.mem_dedup, List.mem_map, List.mem_filter]
    exact ⟨row, ⟨hrow, by simpa using hsource⟩, rfl⟩
  obtain ⟨x, hx, hid⟩ := List.mem_map.mp (hstray _ hid)
  obtain ⟨doc, hdoc, hsame⟩ := hexpected x hx
  exact ⟨doc, hdoc, hsame.trans hid⟩

theorem stepped_staged (hprocessed : Processed codec options docs p db) (h : Staged options docs db₀ p db)
    (hstep : Stepped codec options p db next) : Staged options docs db₀ next.1 next.2 := by
  cases hstep with
  | stopped hfrom _ _ hstage' _ =>
    apply h.before
    · rcases hfrom with hstage | hstage <;> simp [Stamped, hstage]
    · rcases hstage' with hstage | hstage <;> simp [Verifying, Clean, Stamped, hstage]
    · rfl
  | invalid hstage _ _ _ _ _ hstage' =>
    exact h.before (by simp [Stamped, hstage]) (by simp [Verifying, Clean, Stamped, hstage']) rfl
  | passed hstage _ _ _ _ _ hstage' _ _ =>
    exact h.before (by simp [Stamped, hstage]) (by simp [Verifying, Clean, Stamped, hstage']) rfl
  | dryEnd hstage hdry _ _ _ hstage' =>
    exact h.before (by simp [Stamped, hstage]) (by simp [Verifying, Clean, Stamped, hstage', hdry]) rfl
  | @verify p' hfrom hrest _ _ hstage' =>
    have hunclean : ¬Clean options p'.stage := by
      rcases hstage' with ⟨left, hstage⟩ | hstage <;> simp [Clean, Stamped, hstage]
    have hbefore : ¬Stamped options p.stage := by
      rcases hfrom with ⟨hstage, -⟩ | ⟨left, hstage⟩ <;> simp [Stamped, hstage]
    refine ⟨fun _ ↦ ?_, fun hclean ↦ absurd hclean hunclean, fun hstamped ↦ absurd (.inr hstamped) hunclean,
      fun _ ↦ h.unstamped hbefore⟩
    rw [hrest]
    rcases hfrom with ⟨-, hempty, hdry⟩ | hleft
    · exact ⟨hempty, hdry⟩
    · exact h.verifying (.inl hleft)
  | @cleared p' hstage hrest hinvalid hexpected hclean hstray hstage' =>
    have hunstamped : ¬Stamped options p'.stage := by simp [Stamped, hstage']
    refine ⟨fun _ ↦ ?_, fun _ ↦ ⟨hinvalid.trans hclean, ?_⟩, fun hstamped ↦ absurd hstamped hunstamped, fun _ ↦ ?_⟩
    · rw [hrest]
      exact h.verifying (.inr (.inl hstage))
    · exact noStray_of_expected hprocessed.expected hstray
    · exact h.unstamped (by simp [Stamped, hstage])
  | stamped hstage hrest hinvalid _ hstage' =>
    obtain ⟨hempty, hdry⟩ := h.verifying (.inr (.inr (.inl hstage)))
    obtain ⟨hnone, hstray⟩ := h.clean (.inl hstage)
    exact ⟨fun _ ↦ ⟨hrest.trans hempty, hdry⟩, fun _ ↦ ⟨hinvalid.trans hnone, hstray⟩,
      by simp, by simp [Stamped, hstage']⟩
  | reported hstage hrest hinvalid _ hstage' =>
    have hstamped : Stamped options p.stage := .inl hstage
    obtain ⟨hempty, hdry⟩ := h.verifying (.inr (.inr (.inr hstamped)))
    obtain ⟨hnone, hstray⟩ := h.clean (.inr hstamped)
    exact ⟨fun _ ↦ ⟨hrest.trans hempty, hdry⟩, fun _ ↦ ⟨hinvalid.trans hnone, hstray⟩, fun _ ↦ h.stamped hstamped,
      by simp [Stamped, hstage', hdry]⟩
  | idle => exact h

structure SessionInv (codec : SnapshotCodec Text Hash) (options : Options) (docs : List SourceDocument)
    (db₀ : Db Text Hash) (s : Progress Hash × Db Text Hash) : Prop where
  processed : Processed codec options docs s.1 s.2
  stored : Stored codec options docs db₀ s.1 s.2
  staged : Staged options docs db₀ s.1 s.2

def Completed (options : Options) (p : Progress Hash) : Prop := options.dryRun = false ∧ p.rest = []

theorem completed_passed (hinv : SessionInv codec options docs db₀ (p, db)) (hstart : PartlyPassed codec docs db₀.store)
    (h : Completed options p) : Passed codec docs.reverse db.store := by
  obtain ⟨done, ahead, tail, hdocs, hrest, hpassed⟩ := hinv.stored.ahead hstart h.1
  obtain ⟨rfl, rfl⟩ : ahead = [] ∧ tail = [] := by simpa using hrest.symm.trans h.2
  rw [hdocs]
  simpa using hpassed

variable [DecidableEq Hash]

theorem session_inv (codec : SnapshotCodec Text Hash) (docs : List SourceDocument) (db₀ : Db Text Hash)
    (options : Options) (clocks : List Clock) :
    SessionInv codec options docs db₀ (session codec options docs clocks db₀) := by
  have hstart : SessionInv codec options docs db₀ ({ rest := docs }, db₀) := by
    refine ⟨⟨⟨[], rfl, by simp⟩, by simp⟩, ⟨.refl _, fun _ ↦ rfl, fun h _ ↦ ?_⟩, ?_⟩
    · obtain ⟨past, rest, hdocs, hpassed⟩ := h
      exact ⟨[], past.reverse, rest, hdocs, hdocs, by simpa using hpassed⟩
    · exact ⟨by simp [Verifying, Clean, Stamped], by simp [Clean, Stamped], by simp [Stamped], fun _ ↦ rfl⟩
  have hstep : ∀ s clock, SessionInv codec options docs db₀ s → True →
      SessionInv codec options docs db₀ (step codec options s clock) := by
    intro s clock hs _
    have hstepped := step_stepped codec options s.1 s.2 clock
    exact ⟨stepped_processed hs.processed hstepped, stepped_stored hs.stored hstepped,
      stepped_staged hs.processed hs.staged hstepped⟩
  exact (trace_invariant_of hstart hstep clocks fun _ _ ↦ trivial).1

theorem reached_passed (h : Reached codec docs db) : PartlyPassed codec docs db.store := by
  induction h with
  | empty => exact ⟨[], docs, rfl, .nil⟩
  | @session db _ options clocks ih =>
    have hstored := (session_inv codec docs db options clocks).stored
    cases hdry : options.dryRun with
    | true =>
      rw [hstored.dry hdry]
      exact ih
    | false =>
      obtain ⟨done, ahead, tail, hdocs, -, hpassed⟩ := hstored.ahead ih hdry
      exact ⟨(done ++ ahead).reverse, tail, by simp [hdocs], hpassed⟩

/-- What is behind a run of the script that returned without a complaint. -/
structure Migrated (codec : SnapshotCodec Text Hash) (docs : List SourceDocument) (db : Db Text Hash) : Prop where
  baselines : ∀ doc ∈ docs, HasBaseline codec db.store doc
  strays : NoStray docs db.store
  marker : db.marker ≠ none

/-- The migration is honest from any database, and where only runs of it came before it can
be taken up again. -/
theorem migration_honest (codec : SnapshotCodec Text Hash) (docs : List SourceDocument) (db : Db Text Hash)
    (options : Options) (clocks : List Clock) :
    let (p, db') := session codec options docs clocks db
    (options.dryRun = false → p.stage = .returned 0 → Migrated codec docs db' ∧ Completed options p) ∧
    (options.dryRun = true ∨ ¬Stamped options p.stage → db'.marker = db.marker) ∧ Grows db.store db'.store ∧
    (Reached codec docs db → Completed options p →
      ∀ options' clocks', Completed options' (session codec options' docs clocks' .empty).1 →
        undated docs db'.store = undated docs (session codec options' docs clocks' .empty).2.store) := by
  have hinv := session_inv codec docs db options clocks
  refine ⟨fun hdry hreturned ↦ ?_, fun hunstamped ↦ hinv.staged.unstamped ?_, hinv.stored.grows,
    fun hreached hcompleted options' clocks' hclean ↦ ?_⟩
  · have hstamped : Stamped options (session codec options docs clocks db).1.stage := .inr ⟨hreturned, hdry⟩
    obtain ⟨hrest, -⟩ := hinv.staged.verifying (.inr (.inr (.inr hstamped)))
    obtain ⟨hinvalid, hstray⟩ := hinv.staged.clean (.inr hstamped)
    obtain ⟨done, hdocs, hdone⟩ := hinv.processed.behind
    rw [hrest, List.append_nil] at hdocs
    refine ⟨⟨?_, hstray, hinv.staged.stamped hstamped⟩, hdry, hrest⟩
    intro doc hdoc
    obtain ⟨-, hskipped, hbase⟩ := hdone doc (hdocs ▸ hdoc)
    exact hbase hdry fun hnone ↦ hskipped hnone hinvalid
  · rcases hunstamped with hdry | hunstamped
    · intro hstamped
      have hwrites := (hinv.staged.verifying (.inr (.inr (.inr hstamped)))).2
      exact absurd (hdry.symm.trans hwrites) (by decide)
    · exact hunstamped
  · have hempty : PartlyPassed codec docs (Db.empty : Db Text Hash).store := ⟨[], docs, rfl, .nil⟩
    have hinv' := session_inv codec docs .empty options' clocks'
    exact Passed.undated_eq [] (by simp) (completed_passed hinv (reached_passed hreached) hcompleted)
      (completed_passed hinv' hempty hclean)

end Sessions

section Scenarios

def listCodec : SnapshotCodec (List Payload) (List Payload) := ⟨fun p ↦ [p], id, List.head?, fun _ ↦ rfl⟩

def noon : Clock := ⟨"2034-02-03T12:00:00+00:00", "2034-02-03T12:00:01+00:00"⟩

def writing : Options := ⟨false, false⟩

/-- A run over an empty collection that dies while it prints its report. -/
theorem dead_run_stamped : ¬∀ (docs : List SourceDocument) (db : Db (List Payload) (List Payload)),
    Reached listCodec docs db →
    ∀ options clocks, options.dryRun = true ∨ (session listCodec options docs clocks db).1.stage ≠ .returned 0 →
      (session listCodec options docs clocks db).2.marker = db.marker := by
  intro h
  have hmarker := h [] .empty .empty writing (List.replicate 4 noon) (.inr (by decide))
  exact absurd hmarker (by decide)

def legacyPlan : TripPlan :=
  .singleDay ⟨2034, 2, 3, by decide, by decide, by decide⟩ { placeIds := ["castle"] }
    { steps := [], totalTravelTimeS := 0, totalVisitTimeMin := 0, totalWaitMin := 0,
      transportMode := .walk, skipped := [] }

def legacyTrip (name : String) (h : (SaveTripRequest.validate ⟨name, legacyPlan, none⟩) = .ok ()) : TripSave :=
  ⟨⟨name, legacyPlan, none⟩, h⟩

def legacyDocs : List SourceDocument :=
  [⟨"a1", some 3, some (legacyTrip "Castle" (by decide)), some "2030-01-01T00:00:00+00:00"⟩,
    ⟨"b2", some 0, some (legacyTrip "Again" (by decide)), none⟩]

/-- A run that stops after its first document, and the next one that returns. -/
theorem resumed_migrated :
    let interrupted := (session listCodec writing legacyDocs [noon] .empty).2
    let resumed := (session listCodec writing legacyDocs (List.replicate 9 noon) interrupted).2
    Migrated listCodec legacyDocs resumed ∧ undated legacyDocs resumed.store =
      undated legacyDocs (session listCodec writing legacyDocs (List.replicate 9 noon) .empty).2.store := by
  have h := migration_honest listCodec legacyDocs (session listCodec writing legacyDocs [noon] .empty).2
    writing (List.replicate 9 noon)
  obtain ⟨hmigrated, hcompleted⟩ := h.1 rfl (by decide)
  refine ⟨hmigrated, h.2.2.2 (.session .empty writing [noon]) hcompleted writing (List.replicate 9 noon) ?_⟩
  exact ⟨rfl, by decide⟩

end Scenarios

end TravelPlanner.MigrationRuns
