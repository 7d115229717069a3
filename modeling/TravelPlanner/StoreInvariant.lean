import TravelPlanner.Fallible
import TravelPlanner.TripStore

namespace TravelPlanner.StoreInvariant

open Fallible Requests Snapshots Tables TripStore

variable {Text Hash : Type} {codec : SnapshotCodec Text Hash} {s s' : Store Text Hash}

structure Recorded (codec : SnapshotCodec Text Hash) (rev : RevisionRow Text Hash) (payload : Payload) : Prop where
  loads : loadSnapshot codec rev.snapshot rev.compression = some payload
  accepted : payload.plan.validate = .ok ()
  hash : rev.snapshotHash = codec.snapshotHash rev.snapshot
  version : rev.schemaVersion = payload.schemaVersion

/-- The columns of a trip are the projection of its snapshot. -/
structure Projected (codec : SnapshotCodec Text Hash) (row : TripRow Text Hash) (payload : Payload) : Prop where
  loads : loadSnapshot codec row.snapshot row.compression = some payload
  accepted : payload.plan.validate = .ok ()
  hash : row.snapshotHash = codec.snapshotHash row.snapshot
  version : row.schemaVersion = payload.schemaVersion
  name : row.name = payload.name
  planType : row.planType = payload.plan.planType
  display : displayFields payload = some row.display

/-- The history of a trip: one block of numbers up to the current revision, which
the current row repeats. -/
structure Backed (s : Store Text Hash) (row : TripRow Text Hash) (base : ℤ) : Prop where
  current : ∃ rev, s.revisions.find (row.id, row.revision) = some rev ∧ rev.snapshot = row.snapshot ∧
    rev.snapshotHash = row.snapshotHash ∧ rev.schemaVersion = row.schemaVersion
  range : ∀ n, s.revisions.find (row.id, n) ≠ none ↔ base ≤ n ∧ n ≤ row.revision
  origin : ∃ rev, s.revisions.find (row.id, base) = some rev ∧
    (rev.source = .created ∧ base = 0 ∨ rev.source = .migration)

structure StoreInv (codec : SnapshotCodec Text Hash) (s : Store Text Hash) : Prop where
  projected : ∀ id row, s.trips.find id = some row → ∃ payload, Projected codec row payload
  backed : ∀ id row, s.trips.find id = some row → ∃ base, Backed s row base
  recorded : ∀ key rev, s.revisions.find key = some rev → ∃ row payload, s.trips.find rev.tripId = some row ∧
    Recorded codec rev payload ∧ payload.plan.planType = row.planType

theorem StoreInv.empty (codec : SnapshotCodec Text Hash) : StoreInv codec (Store.empty : Store Text Hash) where
  projected := by simp [Store.empty]
  backed := by simp [Store.empty]
  recorded := by simp [Store.empty]

theorem StoreInv.no_history (h : StoreInv codec s) {tripId : TripId} (ht : s.trips.find tripId = none) (n : ℤ) :
    s.revisions.find (tripId, n) = none := by
  cases hr : s.revisions.find (tripId, n) with
  | none => rfl
  | some rev =>
    obtain ⟨row, _, hrow, _⟩ := h.recorded _ _ hr
    have hid : rev.tripId = tripId := congrArg Prod.fst (Table.find_key hr)
    rw [hid, ht] at hrow
    cases hrow

theorem orRaise_ok {A : Type} {e : TripError} {o : Option A} {a : A} (h : orRaise e o = .ok a) : o = some a := by
  cases o with
  | none => cases h
  | some b => exact congrArg some (Except.ok.inj h)

structure Created (s s' : Store Text Hash) (row : TripRow Text Hash) (rev : RevisionRow Text Hash) : Prop where
  fresh : s.trips.find row.id = none
  trips : ∀ id, s'.trips.find id = if row.id = id then some row else s.trips.find id
  revisions : ∀ key, s'.revisions.find key = if rev.key = key then some rev else s.revisions.find key

theorem insertTripRow_spec {row : TripRow Text Hash} (h : insertTripRow row s = .ok s') :
    s.trips.find row.id = none ∧ s'.revisions = s.revisions ∧
      ∀ id, s'.trips.find id = if row.id = id then some row else s.trips.find id := by
  unfold insertTripRow at h
  split_ifs at h
  obtain ⟨trips, ht, rfl⟩ := map_eq_ok.mp h
  refine ⟨?_, rfl, Table.find_insert (orRaise_ok ht)⟩
  by_contra hne
  rw [Table.insert_eq_none.mpr hne] at ht
  cases ht

theorem insertRevision_spec {rev : RevisionRow Text Hash} (h : insertRevision rev s = .ok s') :
    s.revisions.find rev.key = none ∧ s'.trips = s.trips ∧
      ∀ key, s'.revisions.find key = if rev.key = key then some rev else s.revisions.find key := by
  unfold insertRevision at h
  split_ifs at h
  obtain ⟨revisions, hr, rfl⟩ := map_eq_ok.mp h
  refine ⟨?_, rfl, Table.find_insert (orRaise_ok hr)⟩
  by_contra hne
  rw [Table.insert_eq_none.mpr hne] at hr
  cases hr

theorem createBlock_spec {row : TripRow Text Hash} {rev : RevisionRow Text Hash} {u : Unit}
    (h : createBlock row rev s = .ok (u, s')) : Created s s' row rev := by
  obtain ⟨s₁, h₁, h⟩ := bind_eq_ok.mp h
  obtain ⟨s₂, h₂, h⟩ := bind_eq_ok.mp h
  obtain rfl : s₂ = s' := congrArg Prod.snd (pure_eq_ok.mp h)
  obtain ⟨hfresh, hrev, htrips⟩ := insertTripRow_spec h₁
  obtain ⟨_, htrips₂, hrev₂⟩ := insertRevision_spec h₂
  exact ⟨hfresh, fun id ↦ by rw [htrips₂, htrips], fun key ↦ by rw [hrev₂, hrev]⟩

structure Advanced (s s' : Store Text Hash) (row row' : TripRow Text Hash) (rev : RevisionRow Text Hash) :
    Prop where
  found : s.trips.find row.id = some row
  same : row'.id = row.id
  trips : ∀ id, s'.trips.find id = if row.id = id then some row' else s.trips.find id
  revisions : ∀ key, s'.revisions.find key = if rev.key = key then some rev else s.revisions.find key

theorem compareAndSet_spec {tripId : TripId} {expected : ℤ} {u : TripUpdate Text Hash}
    (h : compareAndSet tripId expected u s = some s') :
    ∃ row, s.trips.find tripId = some row ∧ row.revision = expected ∧ s'.revisions = s.revisions ∧
      ∀ id, s'.trips.find id = if tripId = id then some (u.applyTo row) else s.trips.find id := by
  simp only [compareAndSet, Option.bind_eq_bind, Option.bind_eq_some_iff] at h
  obtain ⟨row, hrow, h⟩ := h
  split_ifs at h with he
  obtain rfl := Option.some.inj h
  obtain rfl := Table.find_key hrow
  have hkey : (u.applyTo row).id = row.id := rfl
  refine ⟨row, hrow, he, rfl, fun id ↦ ?_⟩
  split_ifs with hid
  · subst hid
    rw [← hkey]
    exact Table.find_replace_self (by rw [hkey, hrow]; exact Option.some_ne_none row)
  · exact Table.find_replace_ne hid

theorem advance_spec {tripId : TripId} {expected : ℤ} {u : TripUpdate Text Hash} {rev : RevisionRow Text Hash}
    {s₁ : Store Text Hash} (h₁ : compareAndSet tripId expected u s = some s₁)
    (h₂ : insertRevision rev s₁ = .ok s') :
    ∃ row, s.trips.find tripId = some row ∧ row.revision = expected ∧ Advanced s s' row (u.applyTo row) rev := by
  obtain ⟨row, hrow, hexp, hrevs, htrips⟩ := compareAndSet_spec h₁
  obtain ⟨_, htrips₂, hrevs₂⟩ := insertRevision_spec h₂
  obtain rfl := Table.find_key hrow
  refine ⟨row, hrow, hexp, hrow, rfl, fun id ↦ ?_, fun key ↦ ?_⟩
  · rw [htrips₂, htrips]
  · rw [hrevs₂, hrevs]

theorem delete_spec (tripId : TripId) (s : Store Text Hash) :
    (∀ id, (delete tripId s).2.trips.find id = if id = tripId then none else s.trips.find id) ∧
      ∀ key, (delete tripId s).2.revisions.find key = if key.1 = tripId then none else s.revisions.find key :=
  ⟨fun id ↦ Table.find_deleteWhere _ _ id, fun key ↦ Table.find_deleteWhere _ _ key⟩

theorem Backed.frame {row : TripRow Text Hash} {base : ℤ} (h : Backed s row base)
    (hold : ∀ n, s'.revisions.find (row.id, n) = s.revisions.find (row.id, n)) : Backed s' row base := by
  obtain ⟨hcurrent, hrange, horigin⟩ := h
  refine ⟨?_, ?_, ?_⟩
  · rwa [hold]
  · intro n
    rw [hold, hrange]
  · rwa [hold]

/-- One row of each table is written, with the same key. -/
structure Wrote (s s' : Store Text Hash) (row : TripRow Text Hash) (rev : RevisionRow Text Hash) : Prop where
  trips : ∀ id, s'.trips.find id = if row.id = id then some row else s.trips.find id
  revisions : ∀ key, s'.revisions.find key =
    if (row.id, row.revision) = key then some rev else s.revisions.find key

theorem Wrote.new {row : TripRow Text Hash} {rev : RevisionRow Text Hash} (h : Wrote s s' row rev) :
    s'.revisions.find (row.id, row.revision) = some rev := by
  rw [h.revisions, if_pos rfl]

theorem Wrote.old {row : TripRow Text Hash} {rev : RevisionRow Text Hash} (h : Wrote s s' row rev)
    {key : TripId × ℤ} (hne : (row.id, row.revision) ≠ key) : s'.revisions.find key = s.revisions.find key := by
  rw [h.revisions, if_neg hne]

/-- A written trip that is backed, and keeps its kind, keeps the invariant. -/
theorem Wrote.inv {row : TripRow Text Hash} {rev : RevisionRow Text Hash} {payload : Payload}
    (hw : Wrote s s' row rev) (h : StoreInv codec s) (hp : Projected codec row payload)
    (hr : Recorded codec rev payload) (hid : rev.tripId = row.id) (hbacked : ∃ base, Backed s' row base)
    (hplan : ∀ old, s.trips.find row.id = some old → old.planType = row.planType) : StoreInv codec s' where
  projected := by
    intro id r hf
    rw [hw.trips] at hf
    split_ifs at hf
    · exact ⟨payload, Option.some.inj hf ▸ hp⟩
    · exact h.projected id r hf
  backed := by
    intro id r hf
    rw [hw.trips] at hf
    split_ifs at hf with hrow
    · exact Option.some.inj hf ▸ hbacked
    · obtain ⟨base, hbase⟩ := h.backed id r hf
      refine ⟨base, hbase.frame fun n ↦ hw.old ?_⟩
      intro he
      have hsame : row.id = r.id := congrArg Prod.fst he
      exact hrow (hsame.trans (Table.find_key hf))
  recorded := by
    intro key r hf
    rw [hw.revisions] at hf
    split_ifs at hf with hk
    · obtain rfl := Option.some.inj hf
      exact ⟨row, payload, by rw [hw.trips, if_pos hid.symm], hr, hp.planType.symm⟩
    · obtain ⟨row₀, payload₀, hrow₀, hr₀, ht₀⟩ := h.recorded key r hf
      by_cases he : row.id = r.tripId
      · rw [← he] at hrow₀
        exact ⟨row, payload₀, by rw [hw.trips, if_pos he], hr₀, ht₀.trans (hplan row₀ hrow₀)⟩
      · exact ⟨row₀, payload₀, by rw [hw.trips, if_neg he, hrow₀], hr₀, ht₀⟩

theorem create_inv {row : TripRow Text Hash} {rev : RevisionRow Text Hash} {payload : Payload}
    (h : StoreInv codec s) (hc : Created s s' row rev) (hkey : rev.key = (row.id, row.revision))
    (hp : Projected codec row payload) (hr : Recorded codec rev payload) (hsnap : rev.snapshot = row.snapshot)
    (hsource : rev.source = .created ∧ row.revision = 0 ∨ rev.source = .migration) : StoreInv codec s' := by
  have hw : Wrote s s' row rev := ⟨hc.trips, hkey ▸ hc.revisions⟩
  have hhash : rev.snapshotHash = row.snapshotHash := by rw [hr.hash, hp.hash, hsnap]
  have hversion : rev.schemaVersion = row.schemaVersion := by rw [hr.version, hp.version]
  have hbacked : Backed s' row row.revision := by
    refine ⟨⟨rev, hw.new, hsnap, hhash, hversion⟩, ?_, rev, hw.new, hsource⟩
    intro n
    by_cases hn : row.revision = n
    · simp [← hn, hw.new]
    · rw [hw.old (by simp [hn]), h.no_history hc.fresh n]
      simp only [ne_eq, not_true, false_iff]
      omega
  refine hw.inv h hp hr (congrArg Prod.fst hkey) ⟨row.revision, hbacked⟩ ?_
  intro old hold
  rw [hc.fresh] at hold
  cases hold

theorem advance_inv {row row' : TripRow Text Hash} {rev : RevisionRow Text Hash} {payload : Payload}
    (h : StoreInv codec s) (ha : Advanced s s' row row' rev) (hkey : rev.key = (row.id, row.revision + 1))
    (hrevision : row'.revision = row.revision + 1) (hplan : row'.planType = row.planType)
    (hp : Projected codec row' payload) (hr : Recorded codec rev payload) (hsnap : rev.snapshot = row'.snapshot) :
    StoreInv codec s' := by
  have hkey' : rev.key = (row'.id, row'.revision) := by rw [hkey, ha.same, hrevision]
  have hw : Wrote s s' row' rev := ⟨ha.same ▸ ha.trips, hkey' ▸ ha.revisions⟩
  have hhash : rev.snapshotHash = row'.snapshotHash := by rw [hr.hash, hp.hash, hsnap]
  have hversion : rev.schemaVersion = row'.schemaVersion := by rw [hr.version, hp.version]
  obtain ⟨base, _, hrange, origin, horigin, hsource⟩ := h.backed _ _ ha.found
  have hbase := (hrange base).mp (by rw [horigin]; exact Option.some_ne_none origin)
  have hold : ∀ n, n ≠ row'.revision → s'.revisions.find (row'.id, n) = s.revisions.find (row.id, n) := by
    intro n hn
    rw [hw.old (by simp [hn.symm]), ha.same]
  have hbacked : Backed s' row' base := by
    refine ⟨⟨rev, hw.new, hsnap, hhash, hversion⟩, ?_, origin, ?_, hsource⟩
    · intro n
      by_cases hn : n = row'.revision
      · simp only [hn, hw.new, ne_eq, reduceCtorEq, not_false_eq_true, true_iff]
        omega
      · rw [hold n hn, hrange]
        omega
    · rw [hold base (by omega), horigin]
  refine hw.inv h hp hr (congrArg Prod.fst hkey') ⟨base, hbacked⟩ ?_
  intro old hfound
  rw [ha.same, ha.found] at hfound
  rw [← Option.some.inj hfound, hplan]

theorem delete_inv (h : StoreInv codec s) (tripId : TripId) : StoreInv codec (delete tripId s).2 := by
  obtain ⟨htrips, hrevisions⟩ := delete_spec tripId s
  refine ⟨fun id row hf ↦ ?_, fun id row hf ↦ ?_, fun key rev hf ↦ ?_⟩
  · rw [htrips] at hf
    split_ifs at hf
    exact h.projected id row hf
  · rw [htrips] at hf
    split_ifs at hf with hid
    obtain ⟨base, hbase⟩ := h.backed id row hf
    refine ⟨base, hbase.frame fun n ↦ ?_⟩
    rw [hrevisions, if_neg (by rw [Table.find_key hf]; exact hid)]
  · rw [hrevisions] at hf
    split_ifs at hf with hk
    obtain ⟨row, payload, hrow, hr, ht⟩ := h.recorded key rev hf
    have hne : rev.tripId ≠ tripId := by rwa [← Table.find_key hf] at hk
    exact ⟨row, payload, by rw [htrips, if_neg hne, hrow], hr, ht⟩

def NewTrip (codec : SnapshotCodec Text Hash) (s s' : Store Text Hash) : Prop :=
  ∃ row rev payload, Created s s' row rev ∧ rev.key = (row.id, row.revision) ∧ Projected codec row payload ∧
    Recorded codec rev payload ∧ rev.snapshot = row.snapshot ∧
    (rev.source = .created ∧ row.revision = 0 ∨ rev.source = .migration)

/-- One revision more of a trip that was at revision `token`. -/
def NewRevision (codec : SnapshotCodec Text Hash) (s s' : Store Text Hash) (tripId : TripId) (token : ℤ) : Prop :=
  ∃ row row' rev payload, row.id = tripId ∧ row.revision = token ∧ Advanced s s' row row' rev ∧
    rev.key = (row.id, row.revision + 1) ∧ row'.revision = row.revision + 1 ∧ row'.planType = row.planType ∧
    Projected codec row' payload ∧ Recorded codec rev payload ∧ rev.snapshot = row'.snapshot

inductive Effect (codec : SnapshotCodec Text Hash) (s : Store Text Hash) :
    TripCall → Except TripError Answer → Store Text Hash → Prop
  | idle {call : TripCall} {r : Except TripError Answer} : Effect codec s call r s
  | created {call : TripCall} {r : Except TripError Answer} {s' : Store Text Hash} (hr : ¬Failed r)
      (h : NewTrip codec s s') : Effect codec s call r s'
  | advanced {call : TripCall} {r : Except TripError Answer} {s' : Store Text Hash} {tripId : TripId} {token : ℤ}
      (hr : ¬Failed r) (h : NewRevision codec s s' tripId token) : Effect codec s call r s'
  | deleted (tripId : TripId) {r : Except TripError Answer} (hr : ¬Failed r) :
      Effect codec s (.delete tripId) r (delete tripId s).2

theorem transaction_cases {A : Type} (block : Store Text Hash → Except TripError (A × Store Text Hash))
    (s : Store Text Hash) : (∃ e, transaction block s = (.error e, s)) ∨
      ∃ a s', block s = .ok (a, s') ∧ transaction block s = (.ok a, s') := by
  unfold transaction
  cases h : block s with
  | error e => exact .inl ⟨e, rfl⟩
  | ok a => exact .inr ⟨a.1, a.2, rfl, rfl⟩

theorem newTripRow_projected {payload : Payload} {display : SnapshotDisplayFields} (tripId : TripId)
    (revision : ℤ) (createdAt : String) (hv : payload.plan.validate = .ok ())
    (hd : displayFields payload = some display) :
    Projected codec (newTripRow tripId payload (codec.canonicalJson payload)
      (codec.snapshotHash (codec.canonicalJson payload)) display revision createdAt) payload :=
  ⟨load_canonical payload, hv, rfl, rfl, rfl, rfl, hd⟩

theorem save_effect (codec : SnapshotCodec Text Hash) (tripId : TripId) (request : TripSave) (now : String)
    (s : Store Text Hash) :
    (∃ e, save codec tripId request now s = (.error e, s)) ∨
      ∃ detail s', save codec tripId request now s = (.ok detail, s') ∧ NewTrip codec s s' := by
  have hv := save_plan_valid request.2
  obtain ⟨display, hd, hbuild⟩ := buildSnapshot_total codec request.2
  simp only [save, hbuild, load_canonical]
  rcases transaction_cases (createBlock _ _) s with ⟨e, he⟩ | ⟨u, s', hblock, he⟩
  · exact .inl ⟨e, by rw [he]; rfl⟩
  · obtain ⟨detail, hdetail, _⟩ := detail_agrees hv tripId 0 now none hd
    refine .inr ⟨detail, s', by rw [he, hdetail]; rfl, _, _, _, createBlock_spec hblock, rfl,
      newTripRow_projected tripId 0 now hv hd, ⟨load_canonical _, hv, rfl, rfl⟩, rfl, .inl ⟨rfl, rfl⟩⟩

theorem restoreRead_spec {tripId : TripId} {target expected : ℤ} {row : TripRow Text Hash}
    (h : restoreRead tripId target expected s = .ok row) :
    s.trips.find tripId = some row ∧ expected = row.revision ∧ target ≠ row.revision := by
  obtain ⟨row', hrow, h⟩ := bind_eq_ok.mp h
  split_ifs at h with hexp htarget
  obtain rfl := pure_eq_ok.mp h
  exact ⟨orRaise_ok hrow, not_not.mp hexp, htarget⟩

theorem restoreTarget_spec {tripId : TripId} {target : ℤ} {row : TripRow Text Hash} {plan : RestorePlan Text Hash}
    (h : restoreTarget codec tripId target row s = .ok plan) :
    plan.row = row ∧ s.revisions.find (tripId, target) = some plan.target ∧
      loadSnapshot codec plan.target.snapshot plan.target.compression = some plan.payload ∧
      displayFields plan.payload = some plan.display := by
  obtain ⟨rev, hrev, h⟩ := bind_eq_ok.mp h
  obtain ⟨payload, hpayload, h⟩ := bind_eq_ok.mp h
  obtain ⟨display, hdisplay, h⟩ := bind_eq_ok.mp h
  obtain rfl := pure_eq_ok.mp h
  exact ⟨rfl, orRaise_ok hrev, orRaise_ok hpayload, orRaise_ok hdisplay⟩

theorem restoreBlock_spec {tripId : TripId} {target expected : ℤ} {now : String} {plan : RestorePlan Text Hash}
    {u : Unit} (h : restoreBlock tripId target expected now plan s = .ok (u, s')) :
    ∃ row, s.trips.find tripId = some row ∧ row.revision = expected ∧
      Advanced s s' row
        (TripUpdate.applyTo
          { name := plan.payload.name, planType := plan.payload.plan.planType
            schemaVersion := plan.target.schemaVersion, snapshot := plan.target.snapshot
            snapshotHash := plan.target.snapshotHash, display := plan.display, updatedAt := now } row)
        { tripId := tripId, revision := plan.row.revision + 1, source := .revert
          summary := s!"Restored revision {target}", restoredFromRevision := some target
          schemaVersion := plan.target.schemaVersion, snapshot := plan.target.snapshot
          snapshotHash := plan.target.snapshotHash, recordedAt := now } := by
  obtain ⟨s₁, h₁, h⟩ := bind_eq_ok.mp h
  obtain ⟨s₂, h₂, h⟩ := bind_eq_ok.mp h
  obtain rfl : s₂ = s' := congrArg Prod.snd (pure_eq_ok.mp h)
  exact advance_spec (orRaise_ok h₁) h₂

/-- What a restore needs of its reads when it comes to write. -/
structure Restorable (codec : SnapshotCodec Text Hash) (s : Store Text Hash) (tripId : TripId) (expected : ℤ)
    (plan : RestorePlan Text Hash) : Prop where
  revision : plan.row.revision = expected
  recorded : Recorded codec plan.target plan.payload
  display : displayFields plan.payload = some plan.display
  planType : ∀ row, s.trips.find tripId = some row → plan.payload.plan.planType = row.planType

theorem restoreTarget_restorable (h : StoreInv codec s) {tripId : TripId} {target : ℤ} {row : TripRow Text Hash}
    {plan : RestorePlan Text Hash} (hplan : restoreTarget codec tripId target row s = .ok plan) :
    Restorable codec s tripId row.revision plan := by
  obtain ⟨rfl, htarget, hload, hdisplay⟩ := restoreTarget_spec hplan
  obtain ⟨row₀, payload, hrow₀, hr, htype⟩ := h.recorded _ _ htarget
  obtain rfl : plan.payload = payload := Option.some.inj (hload.symm.trans hr.loads)
  refine ⟨rfl, hr, hdisplay, fun row hrow ↦ ?_⟩
  have hid : plan.target.tripId = tripId := congrArg Prod.fst (Table.find_key htarget)
  rw [hid, hrow] at hrow₀
  rw [Option.some.inj hrow₀, htype]

theorem restoreCommit_effect {tripId : TripId} {target expected : ℤ} {plan : RestorePlan Text Hash}
    (h : Restorable codec s tripId expected plan) (now : String) :
    (∃ e, restoreCommit tripId target expected now plan s = (.error e, s)) ∨
      ∃ detail s', restoreCommit tripId target expected now plan s = (.ok detail, s') ∧
        NewRevision codec s s' tripId expected := by
  unfold restoreCommit
  rcases transaction_cases (restoreBlock tripId target expected now plan) s with ⟨e, he⟩ | ⟨u, s', hblock, he⟩
  · exact .inl ⟨e, by rw [he]; rfl⟩
  · obtain ⟨row, hrow, hexp, ha⟩ := restoreBlock_spec hblock
    obtain ⟨detail, hdetail, _⟩ :=
      detail_agrees h.recorded.accepted tripId (plan.row.revision + 1) plan.row.createdAt (some now) h.display
    have hload := h.recorded.loads
    have hnone : plan.target.compression = .none := by
      by_contra hne
      simp [loadSnapshot, hne] at hload
    rw [hnone] at hload
    have hkey := Table.find_key hrow
    have hrevision : plan.row.revision = row.revision := by rw [h.revision, hexp]
    refine .inr ⟨detail, s', by rw [he, hdetail]; rfl, row, _, _, plan.payload, hkey, hexp, ha, ?_, rfl,
      h.planType row hrow, ⟨hload, h.recorded.accepted, h.recorded.hash, h.recorded.version, rfl, rfl, h.display⟩,
      ⟨hload, h.recorded.accepted, h.recorded.hash, h.recorded.version⟩, rfl⟩
    rw [RevisionRow.key, hkey, hrevision]

theorem restore_effect (h : StoreInv codec s) (tripId : TripId) (target expected : ℤ) (now : String) :
    (∃ e, restoreRevision codec tripId target expected now s = (.error e, s)) ∨
      ∃ detail s', restoreRevision codec tripId target expected now s = (.ok detail, s') ∧
        NewRevision codec s s' tripId expected := by
  unfold restoreRevision
  split
  · exact .inl ⟨_, rfl⟩
  · next row hread =>
    obtain ⟨_, rfl, _⟩ := restoreRead_spec hread
    split
    · exact .inl ⟨_, rfl⟩
    · next plan hplan => exact restoreCommit_effect (restoreTarget_restorable h hplan) now

theorem get_eq_some {tripId : TripId} {d : TripDetail} : get codec s tripId = .ok (some d) ↔
    ∃ row payload, s.trips.find tripId = some row ∧
      loadSnapshot codec row.snapshot row.compression = some payload ∧
      detailFromSnapshot tripId payload row.revision row.createdAt row.updatedAt = some d := by
  unfold TripStore.get
  constructor
  · intro h
    split at h
    · cases h
    · next row hrow =>
      obtain ⟨payload, hpayload, h⟩ := bind_eq_ok.mp h
      obtain ⟨detail, hdetail, h⟩ := bind_eq_ok.mp h
      obtain rfl := Option.some.inj (pure_eq_ok.mp h)
      exact ⟨row, payload, hrow, orRaise_ok hpayload, orRaise_ok hdetail⟩
  · rintro ⟨row, payload, hrow, hload, hdetail⟩
    simp only [hrow, hload, orRaise, bind, Except.bind, hdetail]
    rfl

theorem StoreInv.get_agrees (h : StoreInv codec s) {row : TripRow Text Hash}
    (hrow : s.trips.find row.id = some row) :
    ∃ detail, get codec s row.id = .ok (some detail) ∧ detail.summary = summaryOf row ∧
      detail.revision = row.revision := by
  obtain ⟨payload, hp⟩ := h.projected _ _ hrow
  obtain ⟨detail, hdetail, hsummary, hrevision⟩ :=
    detail_agrees hp.accepted row.id row.revision row.createdAt row.updatedAt hp.display
  refine ⟨detail, ?_, ?_, hrevision⟩
  · simp only [TripStore.get, hrow, hp.loads, orRaise, bind, Except.bind, hdetail, pure, Except.pure]
  · rw [hsummary, summaryOf, hp.name, hp.planType]

theorem mem_listAll {summary : TripSummary} :
    summary ∈ listAll s ↔ ∃ row ∈ s.trips.rows, summaryOf row = summary := by
  rw [listAll, List.mem_map]
  simp only [List.mem_insertionSort]

structure ListAgrees (codec : SnapshotCodec Text Hash) (s : Store Text Hash) : Prop where
  listed : ∀ summary ∈ listAll s, ∃ detail, get codec s summary.id = .ok (some detail) ∧ detail.summary = summary
  complete : ∀ id, (∃ detail, get codec s id = .ok (some detail) ∧ detail.summary ∈ listAll s) ∨
    get codec s id = .ok none ∧ s.trips.find id = none

theorem StoreInv.list_agrees (h : StoreInv codec s) : ListAgrees codec s where
  listed := by
    intro summary hs
    obtain ⟨row, hmem, rfl⟩ := mem_listAll.mp hs
    obtain ⟨detail, hget, hsummary, _⟩ := h.get_agrees (Table.find_of_mem hmem)
    exact ⟨detail, hget, hsummary⟩
  complete := by
    intro id
    cases hrow : s.trips.find id with
    | none => exact .inr ⟨by simp [TripStore.get, hrow], rfl⟩
    | some row =>
      obtain rfl := Table.find_key hrow
      obtain ⟨detail, hget, hsummary, _⟩ := h.get_agrees hrow
      exact .inl ⟨detail, hget, mem_listAll.mpr ⟨row, Table.find_mem hrow, hsummary.symm⟩⟩

/-- History is only appended to, until its trip goes, and a failed call writes nothing. -/
structure Appends (s : Store Text Hash) (call : TripCall) (r : Except TripError Answer) (s' : Store Text Hash) :
    Prop where
  kept : ∀ key rev, s.revisions.find key = some rev → s'.revisions.find key = some rev ∨
    call = .delete key.1 ∧ s'.trips.find key.1 = none ∧ ∀ n, s'.revisions.find (key.1, n) = none
  failed : Failed r → s' = s

theorem Effect.appends (h : StoreInv codec s) {call : TripCall} {r : Except TripError Answer}
    (he : Effect codec s call r s') : Appends s call r s' := by
  cases he with
  | idle => exact ⟨fun _ _ hf ↦ .inl hf, fun _ ↦ rfl⟩
  | created hr hnew =>
    obtain ⟨row, rev, payload, hc, hkey, _⟩ := hnew
    refine ⟨fun key r hf ↦ .inl ?_, fun hfail ↦ absurd hfail hr⟩
    have hne : rev.key ≠ key := by
      rintro rfl
      rw [hkey, h.no_history hc.fresh] at hf
      cases hf
    rw [hc.revisions, if_neg hne, hf]
  | advanced hr hnew =>
    obtain ⟨row, row', rev, payload, _, _, ha, hkey, _⟩ := hnew
    refine ⟨fun key r hf ↦ .inl ?_, fun hfail ↦ absurd hfail hr⟩
    obtain ⟨base, _, hrange, _⟩ := h.backed _ _ ha.found
    have hne : rev.key ≠ key := by
      rintro rfl
      have hle := ((hrange (row.revision + 1)).mp (by rw [← hkey, hf]; exact Option.some_ne_none r)).2
      omega
    rw [ha.revisions, if_neg hne, hf]
  | deleted tripId hr =>
    obtain ⟨htrips, hrevisions⟩ := delete_spec tripId s
    refine ⟨fun key rev hf ↦ ?_, fun hfail ↦ absurd hfail hr⟩
    by_cases hk : key.1 = tripId
    · exact .inr ⟨by rw [hk], by rw [htrips, if_pos hk], fun n ↦ by rw [hrevisions, if_pos hk]⟩
    · exact .inl (by rw [hrevisions, if_neg hk, hf])

/-- The trip is at the revision of a token and holds a payload. -/
def Current (codec : SnapshotCodec Text Hash) (s : Store Text Hash) (tripId : TripId) (token : ℤ)
    (payload : Payload) : Prop :=
  ∃ row, s.trips.find tripId = some row ∧ row.revision = token ∧
    loadSnapshot codec row.snapshot row.compression = some payload

theorem delete_missing (h : StoreInv codec s) {tripId : TripId} (hfound : (delete tripId s).1 = false) :
    (delete tripId s).2 = s := by
  have hnone : s.trips.find tripId = none := by simpa [delete] using hfound
  have htrips : s.trips.deleteWhere (· = tripId) = s.trips :=
    Table.deleteWhere_eq_self fun k hk ↦ by
      rintro rfl
      exact hk hnone
  have hrevisions : s.revisions.deleteWhere (·.1 = tripId) = s.revisions :=
    Table.deleteWhere_eq_self fun k hk ↦ by
      rintro rfl
      exact hk (h.no_history hnone k.2)
  rw [delete, htrips, hrevisions]

theorem StoreInv.current (hinj : Function.Injective codec.snapshotHash) (h : StoreInv codec s)
    {tripId : TripId} {row : TripRow Text Hash} {payload : Payload} (hrow : s.trips.find tripId = some row)
    (hhash : codec.snapshotHash (codec.canonicalJson payload) = row.snapshotHash) :
    Current codec s tripId row.revision payload := by
  obtain ⟨stored, hp⟩ := h.projected _ _ hrow
  have hsnap : codec.canonicalJson payload = row.snapshot := hinj (hhash.trans hp.hash)
  refine ⟨row, hrow, rfl, ?_⟩
  have hload := hp.loads
  rw [← hsnap] at hload ⊢
  unfold loadSnapshot at hload ⊢
  split_ifs at hload ⊢
  exact codec.parse_canonicalJson payload

variable [DecidableEq Hash]

theorem import_effect (codec : SnapshotCodec Text Hash) (tripId : TripId) (request : TripSave) (revision : ℤ)
    (createdAt now : String) (s : Store Text Hash) :
    (∃ e, importMigrationBaseline codec tripId request revision createdAt now s = (.error e, s)) ∨
    importMigrationBaseline codec tripId request revision createdAt now s = (.ok .skippedIdentical, s) ∨
      ∃ s', importMigrationBaseline codec tripId request revision createdAt now s = (.ok .created, s') ∧
        NewTrip codec s s' := by
  have hv := save_plan_valid request.2
  obtain ⟨display, hd, hbuild⟩ := buildSnapshot_total codec request.2
  simp only [importMigrationBaseline, hbuild, load_canonical]
  split
  · split_ifs
    · exact .inr (.inl rfl)
    · exact .inl ⟨_, rfl⟩
  · split_ifs
    · exact .inl ⟨_, rfl⟩
    · rcases transaction_cases (createBlock _ _) s with ⟨e, he⟩ | ⟨u, s', hblock, he⟩
      · exact .inl ⟨e, by rw [he]; rfl⟩
      · refine .inr (.inr ⟨s', by rw [he]; rfl, _, _, _, createBlock_spec hblock, rfl,
          newTripRow_projected tripId revision createdAt hv hd, ⟨load_canonical _, hv, rfl, rfl⟩, rfl, .inr rfl⟩)

theorem updateBlock_cases {tripId : TripId} {request : SaveTripRequest} {source : TripUpdateSource}
    {summary now : String} {canonical : Text} {digest : Hash} {display : SnapshotDisplayFields} {payload : Payload}
    {answer : Option TripDetail}
    (h : updateBlock codec tripId request source summary now canonical digest display payload s =
      .ok (answer, s')) :
    (s.trips.find tripId = none ∧ answer = none ∧ s' = s) ∨
    ∃ row, s.trips.find tripId = some row ∧ row.planType = request.plan.planType ∧
      request.expectedRevision = some row.revision ∧
      ((digest = row.snapshotHash ∧ s' = s ∧ ∃ detail, answer = some detail) ∨
        (digest ≠ row.snapshotHash ∧
          (∃ detail, answer = some detail ∧
            detailFromSnapshot tripId payload (row.revision + 1) row.createdAt (some now) = some detail) ∧
          Advanced s s' row
            (TripUpdate.applyTo
              { name := payload.name, planType := payload.plan.planType, schemaVersion := payload.schemaVersion
                snapshot := canonical, snapshotHash := digest, display := display, updatedAt := now } row)
            { tripId := tripId, revision := row.revision + 1, source := source.toSource, summary := summary
              restoredFromRevision := none, schemaVersion := payload.schemaVersion, snapshot := canonical
              snapshotHash := digest, recordedAt := now })) := by
  unfold updateBlock at h
  split at h
  · next hnone =>
    obtain ⟨rfl, rfl⟩ := Prod.mk.inj (Except.ok.inj h)
    exact .inl ⟨hnone, rfl, rfl⟩
  · next row hrow =>
    by_cases hplan : row.planType ≠ request.plan.planType
    · rw [if_pos hplan] at h
      cases h
    rw [if_neg hplan] at h
    split at h
    · cases h
    · next expected hexp =>
      split_ifs at h with hrev hdigest
      · obtain rfl := not_not.mp hrev
        obtain ⟨current, _, h⟩ := bind_eq_ok.mp h
        obtain ⟨detail, _, h⟩ := bind_eq_ok.mp h
        obtain ⟨rfl, rfl⟩ := Prod.mk.inj (pure_eq_ok.mp h)
        exact .inr ⟨row, hrow, not_not.mp hplan, hexp, .inl ⟨hdigest, rfl, detail, rfl⟩⟩
      · obtain rfl := not_not.mp hrev
        obtain ⟨s₁, h₁, h⟩ := bind_eq_ok.mp h
        obtain ⟨s₂, h₂, h⟩ := bind_eq_ok.mp h
        obtain ⟨detail, hdetail, h⟩ := bind_eq_ok.mp h
        obtain ⟨rfl, rfl⟩ := Prod.mk.inj (pure_eq_ok.mp h)
        obtain ⟨row', hrow', _, hadvanced⟩ := advance_spec (orRaise_ok h₁) h₂
        obtain rfl : row = row' := Option.some.inj (hrow.symm.trans hrow')
        exact .inr ⟨row, hrow, not_not.mp hplan, hexp,
          .inr ⟨hdigest, ⟨detail, rfl, orRaise_ok hdetail⟩, hadvanced⟩⟩

inductive Updated (codec : SnapshotCodec Text Hash) (s : Store Text Hash) (tripId : TripId)
    (request : SaveTripRequest) : Except TripError (Option TripDetail) × Store Text Hash → Prop
  | refused {r : Except TripError (Option TripDetail)} (hr : ∀ detail, r ≠ .ok (some detail)) :
      Updated codec s tripId request (r, s)
  | unchanged {row : TripRow Text Hash} {detail : TripDetail} (hrow : s.trips.find tripId = some row)
      (htoken : request.expectedRevision = some row.revision)
      (hhash : codec.snapshotHash (codec.canonicalJson (snapshotPayload request)) = row.snapshotHash) :
      Updated codec s tripId request (.ok (some detail), s)
  | advanced {token : ℤ} {detail : TripDetail} {s' : Store Text Hash}
      (htoken : request.expectedRevision = some token) (hbody : detail.body.planType = request.plan.planType)
      (h : NewRevision codec s s' tripId token) : Updated codec s tripId request (.ok (some detail), s')

theorem update_updated (codec : SnapshotCodec Text Hash) (tripId : TripId) (request : TripSave)
    (source : TripUpdateSource) (summary now : String) (s : Store Text Hash) :
    Updated codec s tripId request.1 (update codec tripId request source summary now s) := by
  have hv := save_plan_valid request.2
  obtain ⟨display, hd, hbuild⟩ := buildSnapshot_total codec request.2
  simp only [update, hbuild, load_canonical]
  rcases transaction_cases (updateBlock codec tripId request.1 source summary now _ _ display _) s with
    ⟨e, he⟩ | ⟨answer, s', hblock, he⟩
  · rw [he]
    exact .refused (by simp)
  · rw [he]
    rcases updateBlock_cases hblock with
      ⟨_, rfl, rfl⟩ | ⟨row, hrow, hplan, htoken, ⟨hhash, rfl, detail, rfl⟩ | ⟨_, ⟨detail, rfl, hdetail⟩, ha⟩⟩
    · exact .refused (by simp)
    · exact .unchanged hrow htoken hhash
    · have hid := Table.find_key hrow
      refine .advanced htoken (detail_planType hdetail) ⟨row, _, _, _, hid, rfl, ha, ?_, rfl, hplan.symm,
        ⟨load_canonical _, hv, rfl, rfl, rfl, rfl, hd⟩, ⟨load_canonical _, hv, rfl, rfl⟩, rfl⟩
      rw [hid]
      rfl

theorem runCall_effect (h : StoreInv codec s) (call : TripCall) :
    Effect codec s call (runCall codec s call).1 (runCall codec s call).2 := by
  cases call with
  | save tripId request now =>
    rcases save_effect codec tripId request now s with ⟨e, he⟩ | ⟨detail, s', he, hnew⟩
    · simp only [runCall, he]
      exact .idle
    · simp only [runCall, he]
      exact .created id hnew
  | update tripId request source summary now =>
    have hupdated := update_updated codec tripId request source summary now s
    simp only [runCall]
    generalize update codec tripId request source summary now s = r at hupdated
    cases hupdated with
    | refused => exact .idle
    | unchanged => exact .idle
    | advanced _ _ hnew => exact .advanced id hnew
  | restoreRevision tripId target expected now =>
    rcases restore_effect h tripId target expected now with ⟨e, he⟩ | ⟨detail, s', he, hnew⟩
    · simp only [runCall, he]
      exact .idle
    · simp only [runCall, he]
      exact .advanced id hnew
  | delete tripId => exact .deleted tripId id
  | importMigrationBaseline tripId request revision createdAt now =>
    rcases import_effect codec tripId request revision createdAt now s with ⟨e, he⟩ | he | ⟨s', he, hnew⟩
    · simp only [runCall, he]
      exact .idle
    · simp only [runCall, he]
      exact .idle
    · simp only [runCall, he]
      exact .created id hnew

theorem runCall_inv (h : StoreInv codec s) (call : TripCall) : StoreInv codec (runCall codec s call).2 := by
  have heffect := runCall_effect h call
  generalize (runCall codec s call).1 = r, (runCall codec s call).2 = s' at heffect ⊢
  cases heffect with
  | idle => exact h
  | created _ hnew =>
    obtain ⟨row, rev, payload, hc, hkey, hp, hr, hsnap, hsource⟩ := hnew
    exact create_inv h hc hkey hp hr hsnap hsource
  | advanced _ hnew =>
    obtain ⟨row, row', rev, payload, _, _, ha, hkey, hrevision, hplan, hp, hr, hsnap⟩ := hnew
    exact advance_inv h ha hkey hrevision hplan hp hr hsnap
  | deleted tripId => exact delete_inv h tripId

theorem runCalls_inv (h : StoreInv codec s) (calls : List TripCall) : StoreInv codec (runCalls codec calls s) := by
  induction calls generalizing s with
  | nil => exact h
  | cons call calls ih => exact ih (runCall_inv h call)

/-- After any calls from the empty tables the two tables describe each other, the
list agrees with the details, and every further call appends or changes nothing. -/
theorem trips_tables_invariant (codec : SnapshotCodec Text Hash) (calls : List TripCall) :
    StoreInv codec (runCalls codec calls Store.empty) ∧
      ListAgrees codec (runCalls codec calls Store.empty) ∧
      ∀ call, Appends (runCalls codec calls Store.empty) call
        (runCall codec (runCalls codec calls Store.empty) call).1
        (runCall codec (runCalls codec calls Store.empty) call).2 := by
  have h := runCalls_inv (StoreInv.empty codec) calls
  exact ⟨h, h.list_agrees, fun call ↦ (runCall_effect h call).appends h⟩

end TravelPlanner.StoreInvariant
