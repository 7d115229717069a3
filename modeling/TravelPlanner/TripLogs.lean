import TravelPlanner.Restores
import TravelPlanner.VersionLogs

namespace TravelPlanner.TripLogs

open Fallible Requests Snapshots Tables TripStore StoreInvariant RevisionReads Restores
open VersionLogs (Command Log Logs Origin Reply Version)

section Reading

variable {Text Hash : Type} (codec : SnapshotCodec Text Hash)

def contentOf (request : TripSave) : Text := codec.canonicalJson (snapshotPayload request.1)

def kindOf (text : Text) : Option PlanType := (codec.parse text).map (·.plan.planType)

/-- A call of the repository as a command to version logs. -/
def command : TripCall → Command TripId Text
  | .save tripId request _ => .create tripId (contentOf codec request)
  | .update tripId request _ _ _ => .write tripId (contentOf codec request) request.1.expectedRevision
  | .restoreRevision tripId target expected _ => .copy tripId target expected
  | .delete tripId => .remove tripId
  | .importMigrationBaseline tripId request revision _ _ => .adopt tripId (contentOf codec request) revision

/-- An answer of the repository as a reply of version logs; they have none for a snapshot
that does not load. -/
def reply : Except TripError Answer → Option Reply
  | .ok (.detail detail) => some (.version detail.revision)
  | .ok .nothing => some .nothing
  | .ok (.deleted existed) => some (.removed existed)
  | .ok (.imported .created) => some .adopted
  | .ok (.imported .skippedIdentical) => some .alreadyAdopted
  | .error (.planTypeConflict ..) => some (.refused .otherKind)
  | .error (.missingExpectedRevision _) => some (.refused .noToken)
  | .error (.concurrencyConflict ..) => some (.refused .stale)
  | .error (.tripNotFound _) => some (.refused .absent)
  | .error (.revisionAlreadyCurrent ..) => some (.refused .already)
  | .error (.revisionNotFound ..) => some (.refused .unknown)
  | .error (.baselineConflict _ _ .differentHash) => some (.refused .differs)
  | .error (.baselineConflict _ _ .unbackedTrip) => some (.refused .taken)
  | .error .database => some (.refused .storage)
  | .error .snapshot => none

def originOf (source : RevisionSource) (restoredFrom : Option ℤ) : Origin :=
  match source, restoredFrom with
  | .revert, some n => .copy n
  | .migration, _ => .adopted
  | _, _ => .written

def version (rev : RevisionRow Text Hash) : Version Text :=
  ⟨rev.snapshot, originOf rev.source rev.restoredFromRevision⟩

def shows (text : Text) : Option (String × DetailBody) := do
  let payload ← codec.parse text
  let detail ← detailFromSnapshot "" payload 0 "" none
  return content detail

def outlines (text : Text) : Option (String × SummaryBody) := do
  let payload ← codec.parse text
  let display ← displayFields payload
  return (payload.name, summaryBody payload.plan.planType display)

def listedEntry (r : TripRevisionSummary Hash) : ℤ × Origin × Hash :=
  (r.revision, originOf r.source r.restoredFromRevision, r.snapshotHash)

def loggedEntry (v : ℤ × Version Text) : ℤ × Origin × Hash := (v.1, v.2.origin, codec.snapshotHash v.2.content)

/-- The two tables tell the same as the logs. -/
structure Represents (s : Store Text Hash) (logs : Logs TripId Text) : Prop where
  trips : ∀ id, (s.trips.find id).map TripRow.revision = (logs id).map Log.current
  revisions : ∀ id n, (s.revisions.find (id, n)).map version = (logs id).bind (·.lookup n)
  marked : ∀ key rev, s.revisions.find key = some rev →
    (rev.source = .revert ↔ rev.restoredFromRevision ≠ none)

end Reading

section Tables

variable {Text Hash : Type} {codec : SnapshotCodec Text Hash} {s s' : Store Text Hash} {logs : Logs TripId Text}
  {tripId : TripId} {row : TripRow Text Hash} {rev : RevisionRow Text Hash} {log : Log Text}

theorem represents_empty : Represents (Store.empty : Store Text Hash) fun _ ↦ none where
  trips := fun _ ↦ rfl
  revisions := fun _ _ ↦ rfl
  marked := fun _ _ h ↦ by cases h

theorem Represents.missing (h : Represents s logs) (hrow : s.trips.find tripId = none) : logs tripId = none := by
  have htrips := h.trips tripId
  rw [hrow, Option.map_none, eq_comm, Option.map_eq_none_iff] at htrips
  exact htrips

theorem Represents.present (h : Represents s logs) (hrow : s.trips.find tripId = some row) :
    ∃ log, logs tripId = some log ∧ log.current = row.revision := by
  have htrips := h.trips tripId
  rw [hrow, Option.map_some, eq_comm, Option.map_eq_some_iff] at htrips
  exact htrips

theorem Represents.lookup_eq (h : Represents s logs) (hlog : logs tripId = some log) (n : ℤ) :
    log.lookup n = (s.revisions.find (tripId, n)).map version := by
  rw [h.revisions, hlog, Option.bind_some]

theorem Represents.newest (h : Represents s logs) (hinv : StoreInv codec s) (hrow : s.trips.find tripId = some row)
    (hlog : logs tripId = some log) (hcurrent : log.current = row.revision) :
    log.newest.content = row.snapshot ∧ kindOf codec log.newest.content = some row.planType ∧
      codec.snapshotHash log.newest.content = row.snapshotHash := by
  obtain ⟨payload, hprojected⟩ := hinv.projected _ _ hrow
  obtain ⟨base, hbacked⟩ := hinv.backed _ _ hrow
  obtain ⟨rev, hrev, hsnapshot, -, -⟩ := hbacked.current
  have hnewest := h.lookup_eq hlog row.revision
  rw [Table.find_key hrow] at hrev
  rw [← hcurrent, Log.lookup_current, hcurrent, hrev] at hnewest
  have hcontent : log.newest.content = row.snapshot :=
    (congrArg Version.content (Option.some.inj hnewest)).trans hsnapshot
  have hload := hprojected.loads
  rw [compression_of_load hload] at hload
  have hparse : codec.parse row.snapshot = some payload := hload
  refine ⟨hcontent, ?_, ?_⟩
  · rw [hcontent, kindOf, hparse, hprojected.planType]
    rfl
  · rw [hcontent, hprojected.hash]

theorem originOf_eq_adopted {source : RevisionSource} {restoredFrom : Option ℤ} :
    originOf source restoredFrom = .adopted ↔ source = .migration := by
  cases source <;> cases restoredFrom <;> simp [originOf]

theorem Represents.baseline (h : Represents s logs) (hlog : logs tripId = some log) (revision : ℤ) :
    (log.lookup revision).filter (fun v ↦ v.origin = .adopted) = (migrationBaseline tripId revision s).map version := by
  rw [h.lookup_eq hlog, migrationBaseline]
  cases s.revisions.find (tripId, revision) with
  | none => rfl
  | some rev =>
    by_cases hsource : rev.source = .migration
    · have horigin : (version rev).origin = .adopted := originOf_eq_adopted.mpr hsource
      simp [Option.filter, hsource, horigin]
    · have horigin : (version rev).origin ≠ .adopted := mt originOf_eq_adopted.mp hsource
      simp [Option.filter, hsource, horigin]

theorem Represents.wrote (h : Represents s logs) (hw : Wrote s s' row rev) (hcurrent : log.current = row.revision)
    (hlookup : ∀ n, log.lookup n = if row.revision = n then some (version rev) else (logs row.id).bind (·.lookup n))
    (hmark : rev.source = .revert ↔ rev.restoredFromRevision ≠ none) :
    Represents s' (Function.update logs row.id (some log)) where
  trips := by
    intro id
    rw [hw.trips, Function.update_apply]
    by_cases hid : row.id = id
    · rw [if_pos hid, if_pos hid.symm, Option.map_some, Option.map_some, hcurrent]
    · rw [if_neg hid, if_neg (Ne.symm hid), h.trips]
  revisions := by
    intro id n
    rw [hw.revisions, Function.update_apply]
    by_cases hid : row.id = id
    · rw [if_pos hid.symm, Option.bind_some, hlookup]
      by_cases hn : row.revision = n
      · rw [if_pos hn, if_pos (Prod.ext hid hn), Option.map_some]
      · rw [if_neg hn, if_neg fun he ↦ hn (congrArg Prod.snd he), ← hid, h.revisions]
    · rw [if_neg (Ne.symm hid), if_neg fun he ↦ hid (congrArg Prod.fst he), h.revisions]
  marked := by
    intro key r hr
    rw [hw.revisions] at hr
    split_ifs at hr
    · obtain rfl := Option.some.inj hr
      exact hmark
    · exact h.marked key r hr

theorem Represents.started (h : Represents s logs) (hc : Created s s' row rev) (hkey : rev.key = (row.id, row.revision))
    (hmark : rev.source ≠ .revert ∧ rev.restoredFromRevision = none) :
    Represents s' (Function.update logs row.id (some (.start row.revision (version rev)))) := by
  have hw : Wrote s s' row rev := ⟨hc.trips, hkey ▸ hc.revisions⟩
  apply h.wrote hw (Log.current_start _ _)
  · intro n
    rw [Log.lookup_start, h.missing hc.fresh]
    rfl
  · exact iff_of_false hmark.1 fun hne ↦ hne hmark.2

theorem Represents.appended (h : Represents s logs) {row' : TripRow Text Hash} (ha : Advanced s s' row row' rev)
    (hkey : rev.key = (row.id, row.revision + 1)) (hrevision : row'.revision = row.revision + 1)
    (hlog : logs row.id = some log) (hcurrent : log.current = row.revision)
    (hmark : rev.source = .revert ↔ rev.restoredFromRevision ≠ none) :
    Represents s' (Function.update logs row.id (some (log.append (version rev)))) := by
  have hkey' : rev.key = (row'.id, row'.revision) := by rw [hkey, ha.same, hrevision]
  have hw : Wrote s s' row' rev := ⟨ha.same ▸ ha.trips, hkey' ▸ ha.revisions⟩
  rw [← ha.same] at hlog ⊢
  apply h.wrote hw
  · rw [Log.current_append, hcurrent, hrevision]
  · intro n
    rw [Log.lookup_append, hcurrent, hrevision, hlog]
    rfl
  · exact hmark

theorem Represents.removed (h : Represents s logs) (tripId : TripId) :
    Represents (delete tripId s).2 (Function.update logs tripId none) := by
  obtain ⟨htrips, hrevisions⟩ := delete_spec tripId s
  refine ⟨?_, ?_, ?_⟩
  · intro id
    rw [htrips, Function.update_apply]
    split_ifs
    · rfl
    · exact h.trips id
  · intro id n
    rw [hrevisions, Function.update_apply]
    split_ifs
    · rfl
    · exact h.revisions id n
  · intro key rev hrev
    rw [hrevisions] at hrev
    split_ifs at hrev
    exact h.marked key rev hrev

theorem parse_kind (request : TripSave) :
    kindOf codec (contentOf codec request) = some request.1.plan.planType := by
  rw [kindOf, contentOf, codec.parse_canonicalJson]
  rfl

theorem current_kind (hinv : StoreInv codec s) (h : Represents s logs) (hrow : s.trips.find tripId = some row)
    (hlog : logs tripId = some log) (hcurrent : log.current = row.revision) (request : TripSave) :
    kindOf codec log.newest.content ≠ kindOf codec (contentOf codec request) ↔
      row.planType ≠ request.1.plan.planType := by
  obtain ⟨-, hkind, -⟩ := h.newest hinv hrow hlog hcurrent
  rw [hkind, parse_kind, Ne, Option.some.injEq]

theorem shows_of_load {text : Text} {compression : Compression} {p : Payload} {body : DetailBody}
    (hload : loadSnapshot codec text compression = some p)
    (hbody : ∀ tripId revision createdAt updatedAt, detailFromSnapshot tripId p revision createdAt updatedAt =
      some ⟨tripId, p.name, createdAt, updatedAt, revision, body⟩) : shows codec text = some (p.name, body) := by
  rw [compression_of_load hload] at hload
  have hparse : codec.parse text = some p := hload
  simp only [shows, hparse, hbody, Option.bind_eq_bind, Option.bind_some, Option.pure_def, content]

end Tables

section Blocks

variable {Text Hash : Type} {codec : SnapshotCodec Text Hash} {s s' : Store Text Hash}
  {tripId : TripId} {row : TripRow Text Hash} {rev : RevisionRow Text Hash}

theorem createBlock_ok (hinv : StoreInv codec s) (rev : RevisionRow Text Hash) (hkey : rev.key = (row.id, row.revision))
    (hfresh : s.trips.find row.id = none) (hbind : Bindable row.revision) :
    ∃ s', createBlock row rev s = .ok ((), s') := by
  cases hinsert : s.trips.insert row with
  | none => exact absurd hfresh (Table.insert_eq_none.mp hinsert)
  | some trips =>
    have htrip : insertTripRow row s = .ok { s with trips := trips } := by
      rw [insertTripRow, if_pos hbind, hinsert]
      rfl
    have hbind' : Bindable rev.revision := by
      rw [show rev.revision = row.revision from congrArg Prod.snd hkey]
      exact hbind
    have hid : rev.tripId = row.id := congrArg Prod.fst hkey
    have hfound : trips.find rev.tripId ≠ none := by
      rw [hid, Table.find_insert hinsert, if_pos rfl]
      exact Option.some_ne_none row
    have hnone : s.revisions.find rev.key = none := by
      rw [hkey]
      exact hinv.no_history hfresh row.revision
    obtain ⟨s₂, hs₂⟩ := insertRevision_fresh (s := { s with trips := trips }) hbind' hfound hnone
    refine ⟨s₂, ?_⟩
    simp only [createBlock, htrip, hs₂, bind, Except.bind, pure, Except.pure]

theorem createBlock_error (h : s.trips.find row.id ≠ none ∨ ¬Bindable row.revision) :
    createBlock row rev s = .error .database := by
  have htrip : insertTripRow row s = .error .database := by
    rw [insertTripRow]
    split_ifs with hbind
    · rw [Table.insert_eq_none.mpr (h.resolve_right (not_not.mpr hbind))]
      rfl
    · rfl
  simp only [createBlock, htrip, bind, Except.bind]

theorem advance_cases (hinv : StoreInv codec s) (hrow : s.trips.find tripId = some row) (u : TripUpdate Text Hash)
    (rev : RevisionRow Text Hash) (hkey : rev.key = (tripId, row.revision + 1)) :
    ∃ s₁, compareAndSet tripId row.revision u s = some s₁ ∧
      (Bindable (row.revision + 1) ∧
          (∃ s', insertRevision rev s₁ = .ok s' ∧ Advanced s s' row (u.applyTo row) rev) ∨
        ¬Bindable (row.revision + 1) ∧ insertRevision rev s₁ = .error .database) := by
  obtain ⟨s₁, hset, hfound, hrevisions⟩ := compareAndSet_found hrow u
  have hid : rev.tripId = tripId := congrArg Prod.fst hkey
  have hnumber : rev.revision = row.revision + 1 := congrArg Prod.snd hkey
  refine ⟨s₁, hset, ?_⟩
  by_cases hbind : Bindable (row.revision + 1)
  · refine .inl ⟨hbind, ?_⟩
    obtain ⟨base, hbacked⟩ := hinv.backed _ _ hrow
    have hfresh : s₁.revisions.find rev.key = none := by
      by_contra hne
      rw [hrevisions, hkey, ← Table.find_key hrow] at hne
      have hle := ((hbacked.range _).mp hne).2
      omega
    obtain ⟨s', hs'⟩ := insertRevision_fresh (hnumber ▸ hbind) (hid ▸ hfound) hfresh
    obtain ⟨row₀, hrow₀, -, hadvanced⟩ := advance_spec hset hs'
    obtain rfl : row = row₀ := Option.some.inj (hrow.symm.trans hrow₀)
    exact ⟨s', hs', hadvanced⟩
  · refine .inr ⟨hbind, ?_⟩
    rw [insertRevision, if_neg]
    intro hboth
    exact hbind (hnumber ▸ hboth.1)

end Blocks

section Simulation

variable {Text Hash : Type} [DecidableEq Hash] {codec : SnapshotCodec Text Hash} {s : Store Text Hash}
  {logs : Logs TripId Text}

def stepLogs (codec : SnapshotCodec Text Hash) (logs : Logs TripId Text) (c : Command TripId Text) :
    Reply × Logs TripId Text :=
  VersionLogs.step (kindOf codec) codec.snapshotHash Bindable logs c

def Simulates (codec : SnapshotCodec Text Hash) (s : Store Text Hash) (logs : Logs TripId Text) (call : TripCall) :
    Prop :=
  reply (runCall codec s call).1 = some (stepLogs codec logs (command codec call)).1 ∧
    Represents (runCall codec s call).2 (stepLogs codec logs (command codec call)).2

theorem save_simulates (hinv : StoreInv codec s) (h : Represents s logs) (tripId : TripId) (request : TripSave)
    (now : String) : Simulates codec s logs (.save tripId request now) := by
  have hv := save_plan_valid request.2
  obtain ⟨display, hd, hbuild⟩ := buildSnapshot_total codec request.2
  have hzero : Bindable 0 := by decide
  simp only [Simulates, runCall, save, hbuild, load_canonical, command, stepLogs, VersionLogs.step]
  generalize hnew : newTripRow tripId (snapshotPayload request.1) _ _ display 0 now = row
  have hrow_id : row.id = tripId := by rw [← hnew]; rfl
  have hrow_revision : row.revision = 0 := by rw [← hnew]; rfl
  cases hfound : s.trips.find tripId with
  | some old =>
    obtain ⟨log, hlog, -⟩ := h.present hfound
    have htaken : s.trips.find row.id ≠ none := by
      rw [hrow_id, hfound]
      exact Option.some_ne_none old
    rw [transaction, createBlock_error (.inl htaken), hlog]
    exact ⟨rfl, h⟩
  | none =>
    have hfresh : s.trips.find row.id = none := hrow_id ▸ hfound
    rw [h.missing hfound]
    dsimp only
    rw [if_pos hzero]
    obtain ⟨s', hblock⟩ := createBlock_ok hinv
      { tripId := tripId, revision := 0, source := .created, summary := "Trip created"
        restoredFromRevision := none, schemaVersion := (snapshotPayload request.1).schemaVersion
        snapshot := codec.canonicalJson (snapshotPayload request.1)
        snapshotHash := codec.snapshotHash (codec.canonicalJson (snapshotPayload request.1)), recordedAt := now }
      (by rw [hrow_id, hrow_revision]; rfl) hfresh (hrow_revision ▸ hzero)
    obtain ⟨detail, hdetail, -, hrevision⟩ := detail_agrees hv tripId 0 now none hd
    rw [transaction, hblock]
    constructor
    · dsimp only
      rw [hdetail]
      exact congrArg some (congrArg Reply.version hrevision)
    · have hstarted := h.started (createBlock_spec hblock) (by rw [hrow_id, hrow_revision]; rfl)
        ⟨RevisionSource.noConfusion, rfl⟩
      rw [hrow_id, hrow_revision] at hstarted
      exact hstarted

/-- An update that repeats the stored snapshot answers with the trip as it is. -/
theorem update_unchanged {row : TripRow Text Hash} {tripId : TripId} {request : TripSave} (hinv : StoreInv codec s)
    (h : Represents s logs) (hrow : s.trips.find tripId = some row) (hplan : row.planType = request.1.plan.planType)
    (htoken : request.1.expectedRevision = some row.revision)
    (hsame : codec.snapshotHash (contentOf codec request) = row.snapshotHash) (source : TripUpdateSource)
    (summary now : String) : Simulates codec s logs (.update tripId request source summary now) := by
  obtain ⟨display, -, hbuild⟩ := buildSnapshot_total codec request.2
  obtain ⟨log, hlog, hcurrent⟩ := h.present hrow
  obtain ⟨-, -, hdigest⟩ := h.newest hinv hrow hlog hcurrent
  have hkind := mt (current_kind hinv h hrow hlog hcurrent request).mp (not_not.mpr hplan)
  have hsame' : codec.snapshotHash (codec.canonicalJson (snapshotPayload request.1)) = row.snapshotHash := hsame
  obtain ⟨payload, hprojected⟩ := hinv.projected _ _ hrow
  obtain ⟨detail, hdetail, -, hrevision⟩ :=
    detail_agrees hprojected.accepted tripId row.revision row.createdAt row.updatedAt hprojected.display
  simp only [Simulates, runCall, update, hbuild, load_canonical, command, stepLogs, VersionLogs.step]
  simp only [transaction, updateBlock, hrow, hlog, htoken]
  rw [if_neg (not_not.mpr hplan), if_neg hkind, hcurrent, if_neg (not_not.mpr rfl), if_neg (not_not.mpr rfl), hdigest,
    if_pos hsame, if_pos hsame', hprojected.loads]
  simp only [orRaise, bind, Except.bind, hdetail, pure, Except.pure]
  exact ⟨congrArg some (congrArg Reply.version hrevision), h⟩

theorem update_appended {row : TripRow Text Hash} {tripId : TripId} {request : TripSave} (hinv : StoreInv codec s)
    (h : Represents s logs) (hrow : s.trips.find tripId = some row) (hplan : row.planType = request.1.plan.planType)
    (htoken : request.1.expectedRevision = some row.revision)
    (hother : codec.snapshotHash (contentOf codec request) ≠ row.snapshotHash) (source : TripUpdateSource)
    (summary now : String) : Simulates codec s logs (.update tripId request source summary now) := by
  obtain ⟨display, hd, hbuild⟩ := buildSnapshot_total codec request.2
  obtain ⟨log, hlog, hcurrent⟩ := h.present hrow
  obtain ⟨-, -, hdigest⟩ := h.newest hinv hrow hlog hcurrent
  have hkind := mt (current_kind hinv h hrow hlog hcurrent request).mp (not_not.mpr hplan)
  have hother' : codec.snapshotHash (codec.canonicalJson (snapshotPayload request.1)) ≠ row.snapshotHash := hother
  simp only [Simulates, runCall, update, hbuild, load_canonical, command, stepLogs, VersionLogs.step]
  simp only [transaction, updateBlock, hrow, hlog, htoken]
  rw [if_neg (not_not.mpr hplan), if_neg hkind, hcurrent, if_neg (not_not.mpr rfl), if_neg (not_not.mpr rfl), hdigest,
    if_neg hother, if_neg hother', VersionLogs.extend, hcurrent]
  generalize hrev : (RevisionRow.mk tripId (row.revision + 1) source.toSource summary none _ _ _ _ now :
    RevisionRow Text Hash) = rev
  have hversion : version rev = ⟨contentOf codec request, .written⟩ := by
    subst hrev
    cases source <;> rfl
  obtain ⟨s₁, hset, hcases⟩ := advance_cases hinv hrow
    { name := (snapshotPayload request.1).name, planType := (snapshotPayload request.1).plan.planType
      schemaVersion := (snapshotPayload request.1).schemaVersion
      snapshot := codec.canonicalJson (snapshotPayload request.1)
      snapshotHash := codec.snapshotHash (codec.canonicalJson (snapshotPayload request.1))
      display := display, updatedAt := now } rev (by rw [← hrev]; rfl)
  rw [hset]
  rcases hcases with ⟨hbind, s', hinsert, hadvanced⟩ | ⟨hbind, hinsert⟩
  · obtain ⟨detail, hdetail, -, hrevision⟩ :=
      detail_agrees (save_plan_valid request.2) tripId (row.revision + 1) row.createdAt (some now) hd
    simp only [orRaise, bind, Except.bind, hinsert, hdetail, pure, Except.pure]
    rw [if_pos hbind]
    obtain rfl := Table.find_key hrow
    have happended := h.appended hadvanced (by rw [← hrev]; rfl) rfl hlog hcurrent
      (by rw [← hrev]; cases source <;> simp [TripUpdateSource.toSource])
    rw [hversion] at happended
    exact ⟨congrArg some (congrArg Reply.version hrevision), happended⟩
  · simp only [orRaise, bind, Except.bind, hinsert]
    rw [if_neg hbind]
    exact ⟨rfl, h⟩

theorem update_simulates (hinv : StoreInv codec s) (h : Represents s logs) (tripId : TripId) (request : TripSave)
    (source : TripUpdateSource) (summary now : String) :
    Simulates codec s logs (.update tripId request source summary now) := by
  cases hrow : s.trips.find tripId with
  | none =>
    obtain ⟨display, -, hbuild⟩ := buildSnapshot_total codec request.2
    simp only [Simulates, runCall, update, hbuild, load_canonical, command, stepLogs, VersionLogs.step]
    rw [transaction, updateBlock, hrow, h.missing hrow]
    exact ⟨rfl, h⟩
  | some row =>
    by_cases hplan : row.planType ≠ request.1.plan.planType
    · obtain ⟨display, -, hbuild⟩ := buildSnapshot_total codec request.2
      obtain ⟨log, hlog, hcurrent⟩ := h.present hrow
      simp only [Simulates, runCall, update, hbuild, load_canonical, command, stepLogs, VersionLogs.step]
      simp only [transaction, updateBlock, hrow, hlog]
      rw [if_pos hplan, if_pos ((current_kind hinv h hrow hlog hcurrent request).mpr hplan)]
      exact ⟨rfl, h⟩
    obtain hplan := not_not.mp hplan
    by_cases htoken : request.1.expectedRevision = some row.revision
    · by_cases hsame : codec.snapshotHash (contentOf codec request) = row.snapshotHash
      · exact update_unchanged hinv h hrow hplan htoken hsame source summary now
      · exact update_appended hinv h hrow hplan htoken hsame source summary now
    · obtain ⟨display, -, hbuild⟩ := buildSnapshot_total codec request.2
      obtain ⟨log, hlog, hcurrent⟩ := h.present hrow
      have hkind := mt (current_kind hinv h hrow hlog hcurrent request).mp (not_not.mpr hplan)
      simp only [Simulates, runCall, update, hbuild, load_canonical, command, stepLogs, VersionLogs.step]
      simp only [transaction, updateBlock, hrow, hlog]
      rw [if_neg (not_not.mpr hplan), if_neg hkind, hcurrent]
      cases hexpected : request.1.expectedRevision with
      | none => exact ⟨rfl, h⟩
      | some expected =>
        have hstale : expected ≠ row.revision := fun he ↦ htoken (by rw [hexpected, he])
        dsimp only
        rw [if_pos hstale, if_pos hstale]
        exact ⟨rfl, h⟩

theorem restore_simulates (hinv : StoreInv codec s) (h : Represents s logs) (tripId : TripId) (target expected : ℤ)
    (now : String) : Simulates codec s logs (.restoreRevision tripId target expected now) := by
  simp only [Simulates, runCall, restoreRevision, command, stepLogs, VersionLogs.step]
  cases hrow : s.trips.find tripId with
  | none =>
    simp only [restoreRead, hrow, orRaise, bind, Except.bind]
    rw [h.missing hrow]
    exact ⟨rfl, h⟩
  | some row =>
    obtain ⟨log, hlog, hcurrent⟩ := h.present hrow
    rw [hlog]
    simp only [restoreRead, hrow, orRaise, bind, Except.bind]
    rw [hcurrent]
    by_cases hstale : expected ≠ row.revision
    · rw [if_pos hstale, if_pos hstale]
      exact ⟨rfl, h⟩
    rw [if_neg hstale, if_neg hstale]
    obtain rfl := not_not.mp hstale
    by_cases hcurrent' : target = row.revision
    · rw [if_pos hcurrent', if_pos hcurrent']
      exact ⟨rfl, h⟩
    rw [if_neg hcurrent', if_neg hcurrent', h.lookup_eq hlog]
    dsimp only [pure, Except.pure]
    cases hrev : s.revisions.find (tripId, target) with
    | none =>
      simp only [restoreTarget, hrev, orRaise, bind, Except.bind]
      exact ⟨rfl, h⟩
    | some rev =>
      obtain ⟨row₀, payload, hrow₀, hrecorded, -⟩ := hinv.recorded _ _ hrev
      obtain ⟨display, hdisplay⟩ := displayFields_total hrecorded.accepted
      simp only [restoreTarget, hrev, hrecorded.loads, hdisplay, orRaise, bind, Except.bind, pure, Except.pure,
        restoreCommit, restoreBlock, transaction, Option.map_some, VersionLogs.extend, hcurrent]
      obtain ⟨s₁, hset, hcases⟩ := advance_cases hinv hrow
        { name := payload.name, planType := payload.plan.planType, schemaVersion := rev.schemaVersion
          snapshot := rev.snapshot, snapshotHash := rev.snapshotHash, display := display, updatedAt := now }
        { tripId := tripId, revision := row.revision + 1, source := .revert
          summary := s!"Restored revision {target}", restoredFromRevision := some target
          schemaVersion := rev.schemaVersion, snapshot := rev.snapshot
          snapshotHash := rev.snapshotHash, recordedAt := now } rfl
      rw [hset]
      rcases hcases with ⟨hbind, s', hinsert, hadvanced⟩ | ⟨hbind, hinsert⟩
      · obtain ⟨detail, hdetail, -, hrevision⟩ :=
          detail_agrees hrecorded.accepted tripId (row.revision + 1) row.createdAt (some now) hdisplay
        simp only [hinsert, hdetail]
        rw [if_pos hbind]
        obtain rfl := Table.find_key hrow
        exact ⟨congrArg some (congrArg Reply.version hrevision),
          h.appended hadvanced rfl rfl hlog hcurrent (by simp)⟩
      · simp only [hinsert]
        rw [if_neg hbind]
        exact ⟨rfl, h⟩

theorem import_simulates (hinv : StoreInv codec s) (h : Represents s logs) (tripId : TripId) (request : TripSave)
    (revision : ℤ) (createdAt now : String) :
    Simulates codec s logs (.importMigrationBaseline tripId request revision createdAt now) := by
  obtain ⟨display, hd, hbuild⟩ := buildSnapshot_total codec request.2
  simp only [Simulates, runCall, importMigrationBaseline, hbuild, load_canonical, command, stepLogs, VersionLogs.step]
  cases hrow : s.trips.find tripId with
  | none =>
    have hnone : migrationBaseline tripId revision s = none := by
      rw [migrationBaseline, hinv.no_history hrow]
      rfl
    rw [h.missing hrow, hnone]
    dsimp only [Option.bind_none]
    rw [if_neg (not_not.mpr rfl)]
    generalize hnew : newTripRow tripId (snapshotPayload request.1) _ _ display revision createdAt = row
    have hrow_id : row.id = tripId := by rw [← hnew]; rfl
    have hrow_revision : row.revision = revision := by rw [← hnew]; rfl
    by_cases hbind : Bindable revision
    · obtain ⟨s', hblock⟩ := createBlock_ok hinv
        { tripId := tripId, revision := revision, source := .migration
          summary := s!"Imported from previous store at revision {revision}"
          restoredFromRevision := none, schemaVersion := (snapshotPayload request.1).schemaVersion
          snapshot := codec.canonicalJson (snapshotPayload request.1)
          snapshotHash := codec.snapshotHash (codec.canonicalJson (snapshotPayload request.1)), recordedAt := now }
        (by rw [hrow_id, hrow_revision]; rfl) (hrow_id ▸ hrow) (hrow_revision ▸ hbind)
      rw [transaction, hblock, if_pos hbind]
      have hstarted := h.started (createBlock_spec hblock) (by rw [hrow_id, hrow_revision]; rfl)
        ⟨RevisionSource.noConfusion, rfl⟩
      rw [hrow_id, hrow_revision] at hstarted
      exact ⟨rfl, hstarted⟩
    · rw [transaction, createBlock_error (.inr (hrow_revision ▸ hbind)), if_neg hbind]
      exact ⟨rfl, h⟩
  | some row =>
    obtain ⟨log, hlog, -⟩ := h.present hrow
    rw [hlog]
    dsimp only [Option.bind_some]
    rw [h.baseline hlog]
    cases hbaseline : migrationBaseline tripId revision s with
    | none =>
      dsimp only [Option.map_none]
      rw [if_pos (Option.some_ne_none row)]
      exact ⟨rfl, h⟩
    | some existing =>
      have hfound := (Option.filter_eq_some_iff.mp hbaseline).1
      obtain ⟨_, _, _, hrecorded, -⟩ := hinv.recorded _ _ hfound
      have hdigest : codec.snapshotHash (version existing).content = existing.snapshotHash := hrecorded.hash.symm
      dsimp only [Option.map_some]
      rw [hdigest, contentOf]
      split_ifs
      · exact ⟨rfl, h⟩
      · exact ⟨rfl, h⟩

theorem runCall_simulates (hinv : StoreInv codec s) (h : Represents s logs) (call : TripCall) :
    Simulates codec s logs call := by
  cases call with
  | save tripId request now => exact save_simulates hinv h tripId request now
  | update tripId request source summary now => exact update_simulates hinv h tripId request source summary now
  | restoreRevision tripId target expected now => exact restore_simulates hinv h tripId target expected now
  | delete tripId =>
    refine ⟨?_, h.removed tripId⟩
    have hexists : (s.trips.find tripId).isSome = (logs tripId).isSome := by
      have htrips := congrArg Option.isSome (h.trips tripId)
      rwa [Option.isSome_map, Option.isSome_map] at htrips
    exact congrArg some (congrArg Reply.removed hexists)
  | importMigrationBaseline tripId request revision createdAt now =>
    exact import_simulates hinv h tripId request revision createdAt now

def logsAfter (codec : SnapshotCodec Text Hash) (calls : List TripCall) : Logs TripId Text :=
  VersionLogs.runCommands (kindOf codec) codec.snapshotHash Bindable (calls.map (command codec))

theorem runCalls_represents (codec : SnapshotCodec Text Hash) (calls : List TripCall) :
    Represents (runCalls codec calls Store.empty) (logsAfter codec calls) := by
  have hrun : ∀ (calls : List TripCall) (s : Store Text Hash) (logs : Logs TripId Text), StoreInv codec s →
      Represents s logs → Represents (runCalls codec calls s)
        (Runs.run (fun logs c ↦ (stepLogs codec logs c).2) logs (calls.map (command codec))) := by
    intro calls
    induction calls with
    | nil => exact fun _ _ _ h ↦ h
    | cons call calls ih =>
      intro s logs hinv h
      exact ih _ _ (runCall_inv hinv call) (runCall_simulates hinv h call).2
  exact hrun calls _ _ (StoreInv.empty codec) represents_empty

end Simulation

section Results

variable {Text Hash : Type} (codec : SnapshotCodec Text Hash)

/-- Reading a trip, a revision, a history or the list of trips is reading the logs. -/
structure Reads (s : Store Text Hash) (logs : Logs TripId Text) : Prop where
  noTrip : ∀ id, logs id = none → get codec s id = .ok none
  trip : ∀ id log, logs id = some log → ∃ detail, get codec s id = .ok (some detail) ∧
    detail.revision = log.current ∧ shows codec log.newest.content = some (content detail)
  noRevision : ∀ id n, (logs id).bind (·.lookup n) = none → getRevision codec s id n = .ok none
  revision : ∀ id n v, (logs id).bind (·.lookup n) = some v → ∃ shown, getRevision codec s id n = .ok (some shown) ∧
    shown.detail.revision = n ∧ shows codec v.content = some (content shown.detail) ∧
    originOf shown.source shown.restoredFromRevision = v.origin
  noHistory : ∀ id, logs id = none → listRevisions id s = none
  history : ∀ id log, logs id = some log → ∃ shown, listRevisions id s = some shown ∧ shown.tripId = id ∧
    shown.currentRevision = log.current ∧
    shown.revisions.map listedEntry = log.numbered.reverse.map (loggedEntry codec)
  listedOnce : ((listAll s).map TripSummary.id).Nodup
  listed : ∀ id, id ∈ (listAll s).map TripSummary.id ↔ logs id ≠ none
  outlined : ∀ summary ∈ listAll s, ∀ log, logs summary.id = some log →
    outlines codec log.newest.content = some (summary.name, summary.body)
  newestFirst : (listAll s).Pairwise fun a b ↦ b.createdAt ≤ a.createdAt

/-- A row that was restored from another says so, repeats an older one, and goes back to
a row that was not restored. -/
structure Traceable (s : Store Text Hash) : Prop where
  marked : ∀ key rev, s.revisions.find key = some rev →
    (rev.source = .revert ↔ rev.restoredFromRevision ≠ none)
  repeats : ∀ tripId n rev k, s.revisions.find (tripId, n) = some rev → rev.restoredFromRevision = some k →
    k < n ∧ ∃ target, s.revisions.find (tripId, k) = some target ∧ target.snapshot = rev.snapshot ∧
      target.snapshotHash = rev.snapshotHash
  original : ∀ tripId n rev, s.revisions.find (tripId, n) = some rev → ∃ m first,
    Relation.ReflTransGen (fun n k ↦ ∃ r, s.revisions.find (tripId, n) = some r ∧ r.restoredFromRevision = some k) n m ∧
      m ≤ n ∧ s.revisions.find (tripId, m) = some first ∧ first.source ≠ .revert ∧ first.snapshot = rev.snapshot

variable {codec} {s : Store Text Hash} {logs : Logs TripId Text}

section Lists

theorem Represents.history_eq (h : Represents s logs) (hinv : StoreInv codec s) {id : TripId} {log : Log Text}
    (hlog : logs id = some log) :
    (RevisionReads.history id s).map listedEntry = log.numbered.reverse.map (loggedEntry codec) := by
  have hanti : Std.Antisymm fun a b : ℤ × Origin × Hash ↦ b.1 < a.1 := ⟨fun _ _ hab hba ↦ absurd hab (lt_asymm hba)⟩
  have hirrefl : Std.Irrefl fun a b : ℤ × Origin × Hash ↦ b.1 < a.1 := ⟨fun a ↦ lt_irrefl a.1⟩
  apply List.Pairwise.eq_of_mem_iff (r := fun a b : ℤ × Origin × Hash ↦ b.1 < a.1)
  · exact List.pairwise_map.mpr (history_decreasing id s)
  · exact List.pairwise_map.mpr (List.pairwise_reverse.mpr log.numbered_increasing)
  · rintro ⟨n, origin, digest⟩
    simp only [List.mem_map, List.mem_reverse, Prod.exists]
    constructor
    · rintro ⟨r, hr, he⟩
      obtain ⟨m, rev, hrev, rfl⟩ := mem_history.mp hr
      obtain ⟨_, _, _, hrecorded, -⟩ := hinv.recorded _ _ hrev
      have hnumber : rev.revision = m := congrArg Prod.snd (Table.find_key hrev)
      refine ⟨m, version rev, Log.mem_numbered.mpr ?_, ?_⟩
      · rw [h.lookup_eq hlog, hrev, Option.map_some]
      · rw [← he, loggedEntry, ← hnumber]
        exact congrArg (fun d ↦ (rev.revision, (version rev).origin, d)) hrecorded.hash.symm
    · rintro ⟨m, v, hv, he⟩
      have hlookup := Log.mem_numbered.mp hv
      rw [h.lookup_eq hlog, Option.map_eq_some_iff] at hlookup
      obtain ⟨rev, hrev, rfl⟩ := hlookup
      obtain ⟨_, _, _, hrecorded, -⟩ := hinv.recorded _ _ hrev
      have hnumber : rev.revision = m := congrArg Prod.snd (Table.find_key hrev)
      refine ⟨RevisionRow.summarized rev, mem_history.mpr ⟨m, rev, hrev, rfl⟩, ?_⟩
      rw [← he, loggedEntry, ← hnumber]
      exact congrArg (fun d ↦ (rev.revision, (version rev).origin, d)) hrecorded.hash

theorem listAll_ids (s : Store Text Hash) : ((listAll s).map TripSummary.id).Perm (s.trips.rows.map TripRow.id) := by
  rw [listAll, List.map_map]
  exact (List.perm_insertionSort newestFirst s.trips.rows).map TripRow.id

theorem listAll_newestFirst (s : Store Text Hash) : (listAll s).Pairwise fun a b ↦ b.createdAt ≤ a.createdAt := by
  have htotal : Std.Total (@newestFirst Text Hash) := ⟨fun a b ↦ le_total b.createdAt a.createdAt⟩
  have htrans : IsTrans (TripRow Text Hash) newestFirst := ⟨fun _ _ _ hab hbc ↦ le_trans hbc hab⟩
  exact List.pairwise_map.mpr (List.pairwise_insertionSort newestFirst s.trips.rows)

theorem Projected.outlines {row : TripRow Text Hash} {p : Payload} (hp : Projected codec row p) :
    TripLogs.outlines codec row.snapshot = some (row.name, summaryBody row.planType row.display) := by
  have hload := hp.loads
  rw [compression_of_load hload] at hload
  have hparse : codec.parse row.snapshot = some p := hload
  simp only [TripLogs.outlines, hparse, hp.display, hp.name, hp.planType, Option.bind_eq_bind, Option.bind_some,
    Option.pure_def]

end Lists

theorem Represents.reads (h : Represents s logs) (hinv : StoreInv codec s) : Reads codec s logs where
  noTrip := by
    intro id hnone
    have htrips := h.trips id
    rw [hnone, Option.map_none, Option.map_eq_none_iff] at htrips
    simp only [TripStore.get, htrips]
  trip := by
    intro id log hlog
    have htrips := h.trips id
    rw [hlog, Option.map_some, Option.map_eq_some_iff] at htrips
    obtain ⟨row, hrow, hcurrent⟩ := htrips
    obtain ⟨rev, p, body, hrev, hrecorded, hbody, hget⟩ := get_current hinv hrow
    have hnewest := h.lookup_eq hlog log.current
    rw [Log.lookup_current, ← hcurrent, hrev, Option.map_some] at hnewest
    have hcontent : log.newest.content = rev.snapshot := congrArg Version.content (Option.some.inj hnewest)
    refine ⟨_, hget, hcurrent, ?_⟩
    rw [hcontent]
    exact shows_of_load hrecorded.loads hbody
  noRevision := by
    intro id n hnone
    rw [← h.revisions, Option.map_eq_none_iff] at hnone
    simp only [getRevision, hnone]
  revision := by
    intro id n v hv
    rw [← h.revisions, Option.map_eq_some_iff] at hv
    obtain ⟨rev, hrev, rfl⟩ := hv
    obtain ⟨p, body, hrecorded, hbody⟩ := recorded_at hinv hrev
    exact ⟨_, getRevision_found hrev hrecorded.loads hbody, rfl, shows_of_load hrecorded.loads hbody, rfl⟩
  noHistory := by
    intro id hnone
    have htrips := h.trips id
    rw [hnone, Option.map_none] at htrips
    rw [listRevisions, currentRevision, htrips]
    rfl
  history := by
    intro id log hlog
    have htrips := h.trips id
    rw [hlog, Option.map_some] at htrips
    refine ⟨⟨id, log.current, RevisionReads.history id s⟩, ?_, rfl, rfl, h.history_eq hinv hlog⟩
    rw [listRevisions, currentRevision, htrips]
    rfl
  listedOnce := (listAll_ids s).nodup_iff.mpr s.trips.nodup
  listed := by
    intro id
    have htrips := congrArg Option.isSome (h.trips id)
    rw [Option.isSome_map, Option.isSome_map] at htrips
    rw [(listAll_ids s).mem_iff, ← not_iff_not, ← Table.find_eq_none, not_not, ← Option.isNone_iff_eq_none,
      ← Option.isNone_iff_eq_none, ← Option.not_isSome, ← Option.not_isSome, htrips]
  outlined := by
    intro summary hsummary log hlog
    obtain ⟨row, hmem, rfl⟩ := mem_listAll.mp hsummary
    have hrow := Table.find_of_mem hmem
    obtain ⟨log', hlog', hcurrent⟩ := h.present hrow
    obtain rfl := Option.some.inj (hlog.symm.trans hlog')
    obtain ⟨hcontent, -, -⟩ := h.newest hinv hrow hlog hcurrent
    obtain ⟨p, hp⟩ := hinv.projected _ _ hrow
    rw [hcontent]
    exact Projected.outlines hp
  newestFirst := listAll_newestFirst s

theorem originOf_eq_copy {source : RevisionSource} {restoredFrom : Option ℤ} {k : ℤ} :
    originOf source restoredFrom = .copy k ↔ source = .revert ∧ restoredFrom = some k := by
  cases source <;> cases restoredFrom <;> simp [originOf]

theorem Represents.traceable (h : Represents s logs) (hinv : StoreInv codec s) (hsound : VersionLogs.AllSound logs) :
    Traceable s := by
  have hrow : ∀ {tripId : TripId} {n : ℤ} {rev : RevisionRow Text Hash}, s.revisions.find (tripId, n) = some rev →
      ∃ log, logs tripId = some log ∧ log.lookup n = some (version rev) := by
    intro tripId n rev hrev
    have hlookup := h.revisions tripId n
    rw [hrev, Option.map_some, eq_comm, Option.bind_eq_some_iff] at hlookup
    exact hlookup
  refine ⟨h.marked, ?_, ?_⟩
  · intro tripId n rev k hrev hk
    obtain ⟨log, hlog, hlookup⟩ := hrow hrev
    have hsource : rev.source = .revert := (h.marked _ _ hrev).mpr (by rw [hk]; exact Option.some_ne_none k)
    obtain ⟨hlt, w, hw, hcontent⟩ := hsound tripId log hlog n _ hlookup k (originOf_eq_copy.mpr ⟨hsource, hk⟩)
    rw [h.lookup_eq hlog, Option.map_eq_some_iff] at hw
    obtain ⟨target, htarget, rfl⟩ := hw
    have hsnapshot : target.snapshot = rev.snapshot := hcontent
    obtain ⟨_, _, _, hrecorded, -⟩ := hinv.recorded _ _ hrev
    obtain ⟨_, _, _, hrecorded', -⟩ := hinv.recorded _ _ htarget
    exact ⟨hlt, target, htarget, hsnapshot, by rw [hrecorded.hash, hrecorded'.hash, hsnapshot]⟩
  · intro tripId n rev hrev
    obtain ⟨log, hlog, hlookup⟩ := hrow hrev
    obtain ⟨m, w, hreach, hle, hw, hcontent, hnone⟩ := (hsound tripId log hlog).exists_original hlookup
    rw [h.lookup_eq hlog, Option.map_eq_some_iff] at hw
    obtain ⟨first, hfirst, rfl⟩ := hw
    refine ⟨m, first, ?_, hle, hfirst, ?_, hcontent⟩
    · refine Relation.ReflTransGen.mono ?_ n m hreach
      intro a b hcopy
      obtain ⟨v, hv, horigin⟩ := hcopy
      rw [h.lookup_eq hlog, Option.map_eq_some_iff] at hv
      obtain ⟨r, hr, rfl⟩ := hv
      exact ⟨r, hr, (originOf_eq_copy.mp horigin).2⟩
    · intro hsource
      have hmarked := (h.marked _ _ hfirst).mp hsource
      obtain ⟨k, hk⟩ := Option.ne_none_iff_exists'.mp hmarked
      exact hnone k (originOf_eq_copy.mpr ⟨hsource, hk⟩)

variable [DecidableEq Hash]

/-- The trips database behaves as version logs do: after any calls the next call is
answered as its command would be, what can be read is what the logs hold, and that
remains so. -/
theorem trips_refine_version_logs (codec : SnapshotCodec Text Hash) (calls : List TripCall) :
    Represents (runCalls codec calls Store.empty) (logsAfter codec calls) ∧
      Reads codec (runCalls codec calls Store.empty) (logsAfter codec calls) ∧
      ∀ call, Simulates codec (runCalls codec calls Store.empty) (logsAfter codec calls) call := by
  have hinv := runCalls_inv (StoreInv.empty codec) calls
  have h := runCalls_represents codec calls
  exact ⟨h, h.reads hinv, fun call ↦ runCall_simulates hinv h call⟩

/-- In every history that calls can produce each restored revision names an older one
with its snapshot, and following these names ends at a revision that was saved. -/
theorem reverts_traceable (codec : SnapshotCodec Text Hash) (calls : List TripCall) :
    Traceable (runCalls codec calls Store.empty) := by
  have hinv := runCalls_inv (StoreInv.empty codec) calls
  exact (runCalls_represents codec calls).traceable hinv (VersionLogs.runCommands_sound _)

end Results

end TravelPlanner.TripLogs
