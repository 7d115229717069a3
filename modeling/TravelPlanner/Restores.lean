import TravelPlanner.RevisionReads
import TravelPlanner.TripClients

namespace TravelPlanner.Restores

open Fallible Requests Snapshots Tables TripStore StoreInvariant RevisionReads TripClients

variable {Text Hash : Type} {codec : SnapshotCodec Text Hash} {s s' : Store Text Hash}
  {tripId : TripId} {target expected : ℤ} {now : String} {detail : TripDetail} {row : TripRow Text Hash}
  {call : TripCall} {more : List TripCall}

section Statements

structure Restored (codec : SnapshotCodec Text Hash) (s s' : Store Text Hash) (tripId : TripId)
    (target current : ℤ) : Prop where
  exact : ∃ detail shown, get codec s' tripId = .ok (some detail) ∧ detail.revision = current + 1 ∧
    getRevision codec s tripId target = .ok (some shown) ∧ content detail = content shown.detail
  reverted : ∃ shown, getRevision codec s' tripId (current + 1) = .ok (some shown) ∧ shown.source = .revert ∧
    shown.restoredFromRevision = some target
  readable : ∀ n ≤ current, s.revisions.find (tripId, n) ≠ none →
    ∃ shown, getRevision codec s tripId n = .ok (some shown) ∧ getRevision codec s' tripId n = .ok (some shown)
  absent : ∀ n ≤ current, getRevision codec s tripId n = .ok none → getRevision codec s' tripId n = .ok none

structure Reversible [DecidableEq Hash] (codec : SnapshotCodec Text Hash) (s s' : Store Text Hash) (tripId : TripId) (current : ℤ)
    (more : List TripCall) : Prop where
  possible : ∃ row, (runCalls codec more s').trips.find tripId = some row ∧ ∀ now, Bindable (row.revision + 1) →
    ∃ detail s'', restoreRevision codec tripId current row.revision now (runCalls codec more s') = (.ok detail, s'')
  exact : ∀ expected now detail s'',
    restoreRevision codec tripId current expected now (runCalls codec more s') = (.ok detail, s'') →
      ∃ before after, get codec s tripId = .ok (some before) ∧ get codec s'' tripId = .ok (some after) ∧
        content after = content before

end Statements

section Steps

structure Reverts (s s' : Store Text Hash) (tripId : TripId) (target : ℤ) (row row' : TripRow Text Hash)
    (rev rev' : RevisionRow Text Hash) : Prop where
  found : s.trips.find tripId = some row
  other : target ≠ row.revision
  read : s.revisions.find (tripId, target) = some rev
  source : rev'.source = .revert
  restoredFrom : rev'.restoredFromRevision = some target
  snapshot : rev'.snapshot = rev.snapshot
  trips : s'.trips.find tripId = some row'
  createdAt : row'.createdAt = row.createdAt
  revision : row'.revision = row.revision + 1
  revisions : ∀ key, s'.revisions.find key = if (tripId, row.revision + 1) = key then some rev' else s.revisions.find key

theorem restore_reverts (hrestore : restoreRevision codec tripId target expected now s = (.ok detail, s')) :
    ∃ row row' rev rev', Reverts s s' tripId target row row' rev rev' := by
  unfold restoreRevision at hrestore
  split at hrestore
  · cases hrestore
  next row hread =>
  obtain ⟨hrow, -, hne⟩ := restoreRead_spec hread
  split at hrestore
  · cases hrestore
  next plan hplan =>
  obtain ⟨rfl, htarget, -, -⟩ := restoreTarget_spec hplan
  unfold restoreCommit at hrestore
  rcases transaction_cases (restoreBlock tripId target expected now plan) s with ⟨e, he⟩ | ⟨u, s₁, hblock, he⟩
  · rw [he] at hrestore
    cases hrestore
  · rw [he] at hrestore
    obtain rfl : s₁ = s' := congrArg Prod.snd hrestore
    obtain ⟨row, hrow', -, ha⟩ := restoreBlock_spec hblock
    obtain rfl := Option.some.inj (hrow.symm.trans hrow')
    refine ⟨plan.row, _, plan.target, _, hrow, hne, htarget, ?_, ?_, ?_,
      (ha.trips tripId).trans (if_pos (Table.find_key hrow)), ?_, ?_, ha.revisions⟩ <;> rfl

theorem compareAndSet_found (hrow : s.trips.find tripId = some row) (u : TripUpdate Text Hash) :
    ∃ s₁, compareAndSet tripId row.revision u s = some s₁ ∧ s₁.trips.find tripId ≠ none ∧
      s₁.revisions = s.revisions := by
  have hset : compareAndSet tripId row.revision u s = some { s with trips := s.trips.replace (u.applyTo row) } := by
    simp [compareAndSet, hrow]
  obtain ⟨_, _, _, hrevisions, htrips⟩ := compareAndSet_spec hset
  refine ⟨_, hset, ?_, hrevisions⟩
  rw [htrips, if_pos rfl]
  exact Option.some_ne_none _

theorem insertRevision_fresh {rev : RevisionRow Text Hash} (hbind : Bindable rev.revision)
    (htrip : s.trips.find rev.tripId ≠ none) (hfresh : s.revisions.find rev.key = none) :
    ∃ s', insertRevision rev s = .ok s' := by
  cases hinsert : s.revisions.insert rev with
  | none => exact absurd hfresh (Table.insert_eq_none.mp hinsert)
  | some revisions =>
    refine ⟨{ s with revisions := revisions }, ?_⟩
    rw [insertRevision, if_pos ⟨hbind, htrip⟩, hinsert]
    rfl

theorem Reverts.kept {row' : TripRow Text Hash} {rev rev' : RevisionRow Text Hash}
    (h : Reverts s s' tripId target row row' rev rev') {n : ℤ} (hn : n ≤ row.revision) :
    s'.revisions.find (tripId, n) = s.revisions.find (tripId, n) := by
  rw [h.revisions, if_neg]
  intro he
  have := congrArg Prod.snd he
  dsimp only at this
  omega

/-- After a restore the trip has the content of its target. -/
theorem Reverts.content_eq {row' : TripRow Text Hash} {rev rev' : RevisionRow Text Hash} (hinv : StoreInv codec s)
    (hinv' : StoreInv codec s') (h : Reverts s s' tripId target row row' rev rev') :
    ∃ detail shown, get codec s' tripId = .ok (some detail) ∧ detail.revision = row.revision + 1 ∧
      getRevision codec s tripId target = .ok (some shown) ∧ content detail = content shown.detail := by
  obtain ⟨p, body, hrecorded, hbody⟩ := recorded_at hinv h.read
  obtain ⟨written, p', body', hwritten, hrecorded', hbody', hget⟩ := get_current hinv' h.trips
  rw [h.revision, h.revisions, if_pos rfl] at hwritten
  obtain rfl := Option.some.inj hwritten
  have hload := hrecorded.loads
  have hload' := hrecorded'.loads
  rw [compression_of_load hload] at hload
  rw [compression_of_load hload', h.snapshot, hload] at hload'
  obtain rfl := Option.some.inj hload'
  have hsame : body = body' := by
    have hdetail := (hbody tripId 0 row.createdAt none).symm.trans (hbody' tripId 0 row.createdAt none)
    exact congrArg TripDetail.body (Option.some.inj hdetail)
  refine ⟨_, _, hget, h.revision, getRevision_found h.read hrecorded.loads hbody, ?_⟩
  rw [content, content, hsame]

variable [DecidableEq Hash]

theorem restore_inv (h : StoreInv codec s)
    (hrestore : restoreRevision codec tripId target expected now s = (.ok detail, s')) : StoreInv codec s' := by
  have hinv := runCall_inv h (.restoreRevision tripId target expected now)
  rw [runCall, hrestore] at hinv
  exact hinv

theorem restored (h : StoreInv codec s) (hrow : s.trips.find tripId = some row)
    (hrestore : restoreRevision codec tripId target expected now s = (.ok detail, s')) :
    Restored codec s s' tripId target row.revision := by
  have h' := restore_inv h hrestore
  obtain ⟨row₀, row', rev, rev', hreverts⟩ := restore_reverts hrestore
  obtain rfl := Option.some.inj (hreverts.found.symm.trans hrow)
  have hsameDate : (s'.trips.find tripId).map TripRow.createdAt = (s.trips.find tripId).map TripRow.createdAt := by
    rw [hreverts.trips, hrow, Option.map_some, Option.map_some, hreverts.createdAt]
  refine ⟨hreverts.content_eq h h', ?_, ?_, ?_⟩
  · have hnew : s'.revisions.find (tripId, row₀.revision + 1) = some rev' := by rw [hreverts.revisions, if_pos rfl]
    obtain ⟨p, body, hrecorded, hbody⟩ := recorded_at h' hnew
    exact ⟨_, getRevision_found hnew hrecorded.loads hbody, hreverts.source, hreverts.restoredFrom⟩
  · intro n hn hfound
    obtain ⟨old, hold⟩ := Option.ne_none_iff_exists'.mp hfound
    obtain ⟨p, body, hrecorded, hbody⟩ := recorded_at h hold
    have hshown := getRevision_found hold hrecorded.loads hbody
    have hshown' := getRevision_found ((hreverts.kept hn).trans hold) hrecorded.loads hbody
    rw [hsameDate] at hshown'
    exact ⟨_, hshown, hshown'⟩
  · intro n hn habsent
    cases hfind : s.revisions.find (tripId, n) with
    | none => rw [getRevision, hreverts.kept hn, hfind]
    | some old =>
      obtain ⟨p, body, hrecorded, hbody⟩ := recorded_at h hfind
      rw [getRevision_found hfind hrecorded.loads hbody] at habsent
      cases habsent

end Steps

section Chains

/-- A restore of any other revision of a trip goes through while revisions can be numbered. -/
theorem restore_succeeds (h : StoreInv codec s) (hrow : s.trips.find tripId = some row) (hne : target ≠ row.revision)
    (hfound : s.revisions.find (tripId, target) ≠ none) (hbind : Bindable (row.revision + 1)) (now : String) :
    ∃ detail s', restoreRevision codec tripId target row.revision now s = (.ok detail, s') := by
  obtain ⟨rev, hrev⟩ := Option.ne_none_iff_exists'.mp hfound
  obtain ⟨p, body, hrecorded, hbody⟩ := recorded_at h hrev
  obtain ⟨display, hdisplay⟩ := displayFields_total hrecorded.accepted
  have hread : restoreRead tripId target row.revision s = .ok row := by
    simp [restoreRead, hrow, orRaise, hne, bind, Except.bind, pure, Except.pure]
  have hplan : restoreTarget codec tripId target row s = .ok ⟨row, rev, p, display⟩ := by
    simp [restoreTarget, hrev, hrecorded.loads, hdisplay, orRaise, bind, Except.bind, pure, Except.pure]
  obtain ⟨base, hbacked⟩ := h.backed _ _ hrow
  have hfresh : s.revisions.find (tripId, row.revision + 1) = none := by
    by_contra hexists
    rw [← Table.find_key hrow] at hexists
    have hrange := ((hbacked.range _).mp hexists).2
    omega
  obtain ⟨s₁, hset, htrip, hrevisions⟩ := compareAndSet_found hrow
    { name := p.name, planType := p.plan.planType, schemaVersion := rev.schemaVersion, snapshot := rev.snapshot
      snapshotHash := rev.snapshotHash, display := display, updatedAt := now }
  obtain ⟨s₂, hinsert⟩ : ∃ s₂, insertRevision
      { tripId := tripId, revision := row.revision + 1, source := .revert
        summary := s!"Restored revision {target}", restoredFromRevision := some target
        schemaVersion := rev.schemaVersion, snapshot := rev.snapshot
        snapshotHash := rev.snapshotHash, recordedAt := now } s₁ = .ok s₂ :=
    insertRevision_fresh hbind htrip (by rw [hrevisions]; exact hfresh)
  have hblock : restoreBlock tripId target row.revision now ⟨row, rev, p, display⟩ s = .ok ((), s₂) := by
    refine bind_eq_ok.mpr ⟨s₁, ?_, bind_eq_ok.mpr ⟨s₂, hinsert, rfl⟩⟩
    rw [hset]
    rfl
  refine ⟨⟨tripId, p.name, row.createdAt, some now, row.revision + 1, body⟩, s₂, ?_⟩
  simp only [restoreRevision, hread, hplan, restoreCommit, transaction, hblock, hbody, orRaise, bind, Except.bind]

variable [DecidableEq Hash]

/-- A call keeps a trip that it does not delete, and what the trip has recorded. -/
theorem call_keeps (h : StoreInv codec s) (hcall : call ≠ .delete tripId) (hrow : s.trips.find tripId = some row) :
    (∃ row', (runCall codec s call).2.trips.find tripId = some row' ∧ row.revision ≤ row'.revision) ∧
      ∀ n rev, s.revisions.find (tripId, n) = some rev →
        (runCall codec s call).2.revisions.find (tripId, n) = some rev := by
  have heffect := runCall_effect h call
  have happends := heffect.appends h
  refine ⟨?_, fun n rev hrev ↦ (happends.kept _ rev hrev).resolve_right fun hdeleted ↦ hcall hdeleted.1⟩
  generalize (runCall codec s call).1 = r, (runCall codec s call).2 = s' at heffect ⊢
  cases heffect with
  | idle => exact ⟨row, hrow, le_rfl⟩
  | created _ hnew =>
    obtain ⟨new, rev, payload, hc, -⟩ := hnew
    have hother : new.id ≠ tripId := by
      rintro rfl
      rw [hc.fresh] at hrow
      cases hrow
    exact ⟨row, by rw [hc.trips, if_neg hother, hrow], le_rfl⟩
  | advanced _ hnew =>
    obtain ⟨old, new, rev, payload, -, -, ha, -, hrevision, -⟩ := hnew
    by_cases hid : old.id = tripId
    · subst hid
      obtain rfl := Option.some.inj (ha.found.symm.trans hrow)
      exact ⟨new, by rw [ha.trips, if_pos rfl], by omega⟩
    · exact ⟨row, by rw [ha.trips, if_neg hid, hrow], le_rfl⟩
  | deleted other _ =>
    have hother : tripId ≠ other := fun he ↦ hcall (congrArg _ he.symm)
    exact ⟨row, by rw [(delete_spec other s).1, if_neg hother, hrow], le_rfl⟩

theorem calls_keep (h : StoreInv codec s) (hmore : TripCall.delete tripId ∉ more)
    (hrow : s.trips.find tripId = some row) :
    (∃ row', (runCalls codec more s).trips.find tripId = some row' ∧ row.revision ≤ row'.revision) ∧
      ∀ n rev, s.revisions.find (tripId, n) = some rev →
        (runCalls codec more s).revisions.find (tripId, n) = some rev := by
  induction more generalizing s row with
  | nil => exact ⟨⟨row, hrow, le_rfl⟩, fun _ _ hrev ↦ hrev⟩
  | cons call more ih =>
    rw [List.mem_cons, not_or] at hmore
    obtain ⟨⟨next, hnext, hle⟩, hkept⟩ := call_keeps h (Ne.symm hmore.1) hrow
    obtain ⟨⟨row', hrow', hle'⟩, hkept'⟩ := ih (runCall_inv h call) hmore.2 hnext
    exact ⟨⟨row', hrow', hle.trans hle'⟩, fun n rev hrev ↦ hkept' n rev (hkept n rev hrev)⟩

theorem reversible (h : StoreInv codec s) (hrow : s.trips.find tripId = some row)
    (hrestore : restoreRevision codec tripId target expected now s = (.ok detail, s'))
    (hmore : TripCall.delete tripId ∉ more) : Reversible codec s s' tripId row.revision more := by
  have h' := restore_inv h hrestore
  obtain ⟨row₀, row', rev, rev', hreverts⟩ := restore_reverts hrestore
  obtain rfl := Option.some.inj (hreverts.found.symm.trans hrow)
  obtain ⟨old, p, body, hold, hrecorded, hbody, hget⟩ := get_current h hrow
  obtain ⟨⟨row₂, hrow₂, hle⟩, hkept⟩ := calls_keep h' hmore hreverts.trips
  have h₂ := runCalls_inv h' more
  have hold₂ := hkept _ old ((hreverts.kept le_rfl).trans hold)
  refine ⟨⟨row₂, hrow₂, fun now hbind ↦ ?_⟩, fun expected now detail s'' hrestore₂ ↦ ?_⟩
  · have hrevision := hreverts.revision
    exact restore_succeeds h₂ hrow₂ (by omega) (by rw [hold₂]; exact Option.some_ne_none old) hbind now
  · have h₃ := restore_inv h₂ hrestore₂
    obtain ⟨_, _, _, _, hreverts₂⟩ := restore_reverts hrestore₂
    obtain ⟨after, shown, hafter, -, hshown, hsame⟩ := hreverts₂.content_eq h₂ h₃
    have hshown' := getRevision_found hold₂ hrecorded.loads hbody
    rw [hshown] at hshown'
    refine ⟨_, after, hget, hafter, ?_⟩
    rw [hsame, Option.some.inj (Except.ok.inj hshown')]
    rfl

end Chains

/-- A restore puts the trip where its target was, one revision on, and leaves every earlier
revision to be read, and to be restored in turn, as it was. -/
theorem restore_exact_and_reversible [DecidableEq Hash] (codec : SnapshotCodec Text Hash) (calls : List TripCall)
    (hrow : (runCalls codec calls Store.empty).trips.find tripId = some row)
    (hrestore : restoreRevision codec tripId target expected now (runCalls codec calls Store.empty) = (.ok detail, s')) :
    Restored codec (runCalls codec calls Store.empty) s' tripId target row.revision ∧
      ∀ more, TripCall.delete tripId ∉ more →
        Reversible codec (runCalls codec calls Store.empty) s' tripId row.revision more := by
  have h := runCalls_inv (StoreInv.empty codec) calls
  exact ⟨restored h hrow hrestore, fun more hmore ↦ reversible h hrow hrestore hmore⟩

def renamedCalls : List TripCall :=
  [.save "trip" (juneTrip "June" june_named) "2026-05-01T08:00:00",
   .update "trip" (withToken (juneTrip "Alps" alps_named) 0) .manual "" "2026-05-02T08:00:00"]

def renamed : Store Payload Payload := runCalls plainCodec renamedCalls Store.empty

def renamedBack : Except TripError TripDetail × Store Payload Payload :=
  restoreRevision plainCodec "trip" 0 1 "2026-05-03T08:00:00" renamed

theorem restore_exact_and_reversible_renamed :
    Restored plainCodec renamed renamedBack.2 "trip" 0 1 ∧
      ∀ more, TripCall.delete "trip" ∉ more → Reversible plainCodec renamed renamedBack.2 "trip" 1 more := by
  have hcurrent : (renamed.trips.find "trip").map TripRow.revision = some 1 := by decide +kernel
  have hanswer : renamedBack.1.toOption.isSome = true := by decide +kernel
  obtain ⟨row, hrow, hrevision⟩ := Option.map_eq_some_iff.mp hcurrent
  rw [← hrevision]
  cases hback : renamedBack.1 with
  | error e =>
    rw [hback] at hanswer
    cases hanswer
  | ok detail => exact restore_exact_and_reversible plainCodec renamedCalls hrow (Prod.ext hback rfl)

end TravelPlanner.Restores
