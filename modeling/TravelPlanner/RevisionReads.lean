import TravelPlanner.StoreInvariant

namespace TravelPlanner.RevisionReads

open Clock IsoDates Fallible Requests Snapshots Tables TripStore StoreInvariant

section Reads

variable {Text Hash : Type}

/-- A revision as it is answered: its snapshot as a detail, and how it came about. -/
structure TripRevisionDetail (Hash : Type) where
  detail : TripDetail
  source : RevisionSource
  restoredFromRevision : Option ℤ
  snapshotHash : Hash
  recordedAt : String
  deriving DecidableEq

def getRevision (codec : SnapshotCodec Text Hash) (s : Store Text Hash) (tripId : TripId) (revision : ℤ) :
    Except TripError (Option (TripRevisionDetail Hash)) :=
  match s.revisions.find (tripId, revision) with
  | none => .ok none
  | some row => do
    let createdAt := ((s.trips.find tripId).map TripRow.createdAt).getD row.recordedAt
    let payload ← orRaise .snapshot (loadSnapshot codec row.snapshot row.compression)
    let base ← orRaise .snapshot (detailFromSnapshot tripId payload row.revision createdAt none)
    return some
      { detail := base
        source := row.source
        restoredFromRevision := row.restoredFromRevision
        snapshotHash := row.snapshotHash
        recordedAt := row.recordedAt }

structure TripRevisionSummary (Hash : Type) where
  revision : ℤ
  source : RevisionSource
  summary : String
  restoredFromRevision : Option ℤ
  schemaVersion : ℤ
  snapshotHash : Hash
  recordedAt : String
  deriving DecidableEq

structure TripRevisionList (Hash : Type) where
  tripId : TripId
  currentRevision : ℤ
  revisions : List (TripRevisionSummary Hash)
  deriving DecidableEq

def RevisionRow.summarized (row : RevisionRow Text Hash) : TripRevisionSummary Hash where
  revision := row.revision
  source := row.source
  summary := row.summary
  restoredFromRevision := row.restoredFromRevision
  schemaVersion := row.schemaVersion
  snapshotHash := row.snapshotHash
  recordedAt := row.recordedAt

def currentRevision (tripId : TripId) (s : Store Text Hash) : Option ℤ := (s.trips.find tripId).map TripRow.revision

/-- The second statement of `list_revisions`: the rows of the trip, the highest revision first. -/
def history (tripId : TripId) (s : Store Text Hash) : List (TripRevisionSummary Hash) :=
  ((s.revisions.rows.filter fun row ↦ row.tripId = tripId).insertionSort fun a b ↦ b.revision ≤ a.revision).map
    RevisionRow.summarized

def listRevisions (tripId : TripId) (s : Store Text Hash) : Option (TripRevisionList Hash) :=
  (currentRevision tripId s).map fun current ↦ ⟨tripId, current, history tripId s⟩

end Reads

section Contents

variable {Text Hash : Type} {codec : SnapshotCodec Text Hash} {s s' : Store Text Hash} {p : Payload} {tripId : TripId}

def content (detail : TripDetail) : String × DetailBody := (detail.name, detail.body)

/-- What a detail shows of a payload does not depend on where the payload is stored. -/
theorem detail_of_valid (h : p.plan.validate = .ok ()) : ∃ body, ∀ tripId revision createdAt updatedAt,
    detailFromSnapshot tripId p revision createdAt updatedAt =
      some ⟨tripId, p.name, createdAt, updatedAt, revision, body⟩ := by
  obtain ⟨name, plan, version⟩ := p
  cases plan with
  | singleDay date request response => exact ⟨_, fun _ _ _ _ ↦ if_pos h⟩
  | multiDay request response =>
    have hne : request.days.map DayConfig.date ≠ [] := by simpa using days_ne_nil h
    obtain ⟨a, ha⟩ := Option.ne_none_iff_exists'.mp (mt List.min?_eq_none_iff.mp hne)
    obtain ⟨b, hb⟩ := Option.ne_none_iff_exists'.mp (mt List.max?_eq_none_iff.mp hne)
    refine ⟨.multiDay (isoformat a) (isoformat b) request.days.length request.transportMode request response, ?_⟩
    intro tripId revision createdAt updatedAt
    simp only [detailFromSnapshot, if_pos h, ha, hb]
    rfl

theorem getRevision_found {revision : ℤ} {rev : RevisionRow Text Hash} {body : DetailBody}
    (hfind : s.revisions.find (tripId, revision) = some rev)
    (hload : loadSnapshot codec rev.snapshot rev.compression = some p)
    (hbody : ∀ tripId revision createdAt updatedAt, detailFromSnapshot tripId p revision createdAt updatedAt =
      some ⟨tripId, p.name, createdAt, updatedAt, revision, body⟩) :
    getRevision codec s tripId revision = .ok (some
      { detail := ⟨tripId, p.name, ((s.trips.find tripId).map TripRow.createdAt).getD rev.recordedAt, none, revision, body⟩
        source := rev.source
        restoredFromRevision := rev.restoredFromRevision
        snapshotHash := rev.snapshotHash
        recordedAt := rev.recordedAt }) := by
  have hrevision : rev.revision = revision := congrArg Prod.snd (Table.find_key hfind)
  simp only [getRevision, hfind, hload, hbody, orRaise, bind, Except.bind, pure, Except.pure, hrevision]

theorem compression_of_load {snapshot : Text} {compression : Compression}
    (h : loadSnapshot codec snapshot compression = some p) : compression = .none := by
  by_contra hne
  rw [loadSnapshot, if_neg hne] at h
  cases h

theorem recorded_at (h : StoreInv codec s) {revision : ℤ} {rev : RevisionRow Text Hash}
    (hfind : s.revisions.find (tripId, revision) = some rev) :
    ∃ p body, Recorded codec rev p ∧ ∀ tripId revision createdAt updatedAt,
      detailFromSnapshot tripId p revision createdAt updatedAt =
        some ⟨tripId, p.name, createdAt, updatedAt, revision, body⟩ := by
  obtain ⟨_, p, _, hrecorded, _⟩ := h.recorded _ _ hfind
  obtain ⟨body, hbody⟩ := detail_of_valid hrecorded.accepted
  exact ⟨p, body, hrecorded, hbody⟩

theorem mem_history {r : TripRevisionSummary Hash} : r ∈ history tripId s ↔
    ∃ n rev, s.revisions.find (tripId, n) = some rev ∧ RevisionRow.summarized rev = r := by
  rw [history, List.mem_map]
  simp only [List.mem_insertionSort, List.mem_filter, decide_eq_true_eq]
  constructor
  · rintro ⟨rev, ⟨hmem, rfl⟩, hr⟩
    exact ⟨rev.revision, rev, Table.find_of_mem hmem, hr⟩
  · rintro ⟨n, rev, hfind, hr⟩
    exact ⟨rev, ⟨Table.find_mem hfind, congrArg Prod.fst (Table.find_key hfind)⟩, hr⟩

theorem history_decreasing (tripId : TripId) (s : Store Text Hash) :
    (history tripId s).Pairwise fun a b ↦ b.revision < a.revision := by
  have htotal : Std.Total fun a b : RevisionRow Text Hash ↦ b.revision ≤ a.revision := ⟨fun _ _ ↦ le_total _ _⟩
  have htrans : IsTrans (RevisionRow Text Hash) fun a b ↦ b.revision ≤ a.revision :=
    ⟨fun _ _ _ hab hbc ↦ le_trans hbc hab⟩
  have hsorted := List.pairwise_insertionSort (fun a b : RevisionRow Text Hash ↦ b.revision ≤ a.revision)
    (s.revisions.rows.filter fun row ↦ row.tripId = tripId)
  -- the rows of one trip differ in their numbers
  have hdistinct : (s.revisions.rows.filter fun row ↦ row.tripId = tripId).Pairwise fun a b ↦ a.revision ≠ b.revision := by
    have hrows := (List.pairwise_map.mp s.revisions.nodup).filter fun row ↦ row.tripId = tripId
    refine hrows.imp_of_mem fun {a b} ha hb hkey hnumber ↦ hkey ?_
    have ha' : a.tripId = tripId := by simpa using (List.mem_filter.mp ha).2
    have hb' : b.tripId = tripId := by simpa using (List.mem_filter.mp hb).2
    exact Prod.ext (ha'.trans hb'.symm) hnumber
  have hdistinct' := (List.perm_insertionSort (fun a b : RevisionRow Text Hash ↦ b.revision ≤ a.revision) _).symm.pairwise
    hdistinct fun hne ↦ hne.symm
  exact List.pairwise_map.mpr (hsorted.and hdistinct' |>.imp fun h ↦ lt_of_le_of_ne h.1 h.2.symm)

/-- A trip shows what its current revision shows. -/
theorem get_current (h : StoreInv codec s) {row : TripRow Text Hash} (hrow : s.trips.find tripId = some row) :
    ∃ rev p body, s.revisions.find (tripId, row.revision) = some rev ∧ Recorded codec rev p ∧
      (∀ tripId revision createdAt updatedAt, detailFromSnapshot tripId p revision createdAt updatedAt =
        some ⟨tripId, p.name, createdAt, updatedAt, revision, body⟩) ∧
      TripStore.get codec s tripId =
        .ok (some ⟨tripId, p.name, row.createdAt, row.updatedAt, row.revision, body⟩) := by
  obtain ⟨base, hbacked⟩ := h.backed _ _ hrow
  obtain ⟨rev, hfind, hsnapshot, -, -⟩ := hbacked.current
  rw [Table.find_key hrow] at hfind
  obtain ⟨p, body, hrecorded, hbody⟩ := recorded_at h hfind
  obtain ⟨p', hprojected⟩ := h.projected _ _ hrow
  have hload := hprojected.loads
  have hload' := hrecorded.loads
  rw [compression_of_load hload] at hload
  rw [compression_of_load hload', hsnapshot, hload] at hload'
  obtain rfl := Option.some.inj hload'
  refine ⟨rev, p', body, hfind, hrecorded, hbody, ?_⟩
  simp only [TripStore.get, hrow, hprojected.loads, hbody, orRaise, bind, Except.bind, pure, Except.pure]

end Contents

end TravelPlanner.RevisionReads
