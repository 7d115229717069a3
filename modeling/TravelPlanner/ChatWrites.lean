import TravelPlanner.TripClients

namespace TravelPlanner.ChatWrites

open Requests DayPartition TripService Snapshots Tables TripStore StoreInvariant
open TripClients (Choice Client ClientInv Linearized Moved Operations clientStep editorPrepare)

section Tasks

inductive Task
  | edit (operations : Operations)
  | restore (target : ℤ)

variable {Text Hash : Type} (codec : SnapshotCodec Text Hash) (km : Haversine)

/-- The operations are applied to the request of the old payload, and the new plan is an
answer of the optimizer to what comes of it. -/
def EditOf (operations : Operations) (old new : Payload) : Prop :=
  ∃ request response edited world docs answer, old.plan = .multiDay request response ∧
    operations.apply request = .ok edited ∧ optimizeTrip km world edited docs = .ok answer ∧
      new = ⟨old.name, .multiDay edited (.ofSolver answer), schemaVersion⟩

def Asked (s : Store Text Hash) (tripId : TripId) (revision : ℤ) (payload : Payload) : Task → Prop
  | .edit operations => ∃ old, Current codec s tripId revision old ∧ EditOf km operations old payload
  | .restore target => ∃ rev, s.revisions.find (tripId, target) = some rev ∧
      loadSnapshot codec rev.snapshot rev.compression = some payload

/-- A client that is about a task for a revision of a trip. What it has prepared still is
what the task asks for, unless the trip has moved on or is gone. -/
def Serves (s : Store Text Hash) (tripId : TripId) (revision : ℤ) (task : Task) : Client Text Hash → Prop
  | .chatStart t operations expected => t = tripId ∧ expected = revision ∧ task = .edit operations
  | .chatReady t request _ => t = tripId ∧ request.1.expectedRevision = some revision ∧
      ∀ row, s.trips.find tripId = some row → revision ≤ row.revision ∧
        (row.revision = revision → Asked codec km s tripId revision (snapshotPayload request.1) task)
  | .restoreStart t target expected | .restoreHolding t target expected _ =>
    t = tripId ∧ expected = revision ∧ task = .restore target
  | .restoreReady t target expected plan => t = tripId ∧ expected = revision ∧ task = .restore target ∧
      ∀ row, s.trips.find tripId = some row → Asked codec km s tripId revision plan.payload task
  | .chatConflicted _ => True
  | _ => False

end Tasks

section Moves

variable {Text Hash : Type} {codec : SnapshotCodec Text Hash} {km : Haversine} {s s' : Store Text Hash}
  {tripId : TripId} {revision : ℤ} {task : Task} {payload : Payload} {c : Client Text Hash}

theorem moved_row (hm : Moved codec s s') {row' : TripRow Text Hash} (hrow' : s'.trips.find tripId = some row') :
    s.trips.find tripId = some row' ∨ ∃ row, s.trips.find tripId = some row ∧ row.revision < row'.revision := by
  cases hm with
  | same => exact .inl hrow'
  | revised hnew =>
    obtain ⟨row, new, _, _, _, _, ha, _, hrevision, _⟩ := hnew
    rw [ha.trips] at hrow'
    split_ifs at hrow' with hid
    · obtain rfl := Option.some.inj hrow'
      exact .inr ⟨row, hid ▸ ha.found, by omega⟩
    · exact .inl hrow'
  | deleted id =>
    rw [(delete_spec _ s).1] at hrow'
    split_ifs at hrow'
    exact .inl hrow'

/-- A revision stays for as long as its trip does. -/
theorem moved_revision (hm : Moved codec s s') (hs : StoreInv codec s) {n : ℤ} {rev : RevisionRow Text Hash}
    (hrev : s.revisions.find (tripId, n) = some rev) (hrow' : s'.trips.find tripId ≠ none) :
    s'.revisions.find (tripId, n) = some rev := by
  cases hm with
  | same => exact hrev
  | revised hnew =>
    obtain ⟨row, _, new, _, _, _, ha, hkey, _⟩ := hnew
    obtain ⟨base, _, hrange, _⟩ := hs.backed _ _ ha.found
    have hne : new.key ≠ (tripId, n) := by
      intro hsame
      rw [← hsame, hkey] at hrev
      have hle := ((hrange (row.revision + 1)).mp (by rw [hrev]; exact Option.some_ne_none rev)).2
      omega
    rw [ha.revisions, if_neg hne]
    exact hrev
  | deleted id =>
    obtain ⟨htrips, hrevisions⟩ := delete_spec id s
    rw [htrips] at hrow'
    have hother : tripId ≠ id := fun hsame ↦ hrow' (if_pos hsame)
    rw [hrevisions, if_neg hother]
    exact hrev

theorem Asked.moved (h : Asked codec km s tripId revision payload task) (hm : Moved codec s s') (hs : StoreInv codec s)
    {row' : TripRow Text Hash} (hrow' : s'.trips.find tripId = some row')
    (hstill : s.trips.find tripId = some row' ∨ ∃ target, task = .restore target) :
    Asked codec km s' tripId revision payload task := by
  cases task with
  | edit operations =>
    obtain ⟨old, ⟨row, hrow, hrevision, hload⟩, hedit⟩ := h
    rcases hstill with hsame | ⟨_, hother⟩
    · obtain rfl : row = row' := Option.some.inj (hrow.symm.trans hsame)
      exact ⟨old, ⟨row, hrow', hrevision, hload⟩, hedit⟩
    · cases hother
  | restore target =>
    obtain ⟨rev, hrev, hload⟩ := h
    exact ⟨rev, moved_revision hm hs hrev (by rw [hrow']; exact Option.some_ne_none row'), hload⟩

/-- Other clients do not spoil what a client has prepared. -/
theorem Serves.moved (h : Serves codec km s tripId revision task c) (hm : Moved codec s s') (hs : StoreInv codec s) :
    Serves codec km s' tripId revision task c := by
  cases c with
  | chatReady t request summary =>
    obtain ⟨ht, htoken, hasked⟩ := h
    refine ⟨ht, htoken, fun row' hrow' ↦ ?_⟩
    rcases moved_row hm hrow' with hsame | ⟨row, hrow, hlater⟩
    · obtain ⟨hle, hrevision⟩ := hasked row' hsame
      exact ⟨hle, fun he ↦ (hrevision he).moved hm hs hrow' (.inl hsame)⟩
    · have hle := (hasked row hrow).1
      exact ⟨by omega, fun he ↦ by omega⟩
  | restoreReady t target expected plan =>
    obtain ⟨ht, hexpected, rfl, hasked⟩ := h
    refine ⟨ht, hexpected, rfl, fun row' hrow' ↦ ?_⟩
    rcases moved_row hm hrow' with hsame | ⟨row, hrow, -⟩
    · exact (hasked row' hsame).moved hm hs hrow' (.inr ⟨target, rfl⟩)
    · exact (hasked row hrow).moved hm hs hrow' (.inr ⟨target, rfl⟩)
  | chatStart | restoreStart | restoreHolding | chatConflicted => exact h
  | uiStart | uiHolding | deleteStart | done => exact h.elim

theorem Serves.token (h : Serves codec km s tripId revision task c) {tripId' : TripId} {token : ℤ}
    (htoken : c.token = some (tripId', token)) : tripId' = tripId ∧ token = revision := by
  cases c with
  | chatReady t request summary =>
    obtain ⟨rfl, hrevision, -⟩ := h
    simp only [Client.token, hrevision, Option.map_some, Option.some.injEq, Prod.mk.injEq] at htoken
    exact ⟨htoken.1.symm, htoken.2.symm⟩
  | restoreReady t target expected plan =>
    obtain ⟨rfl, rfl, -⟩ := h
    simp only [Client.token, Option.some.injEq, Prod.mk.injEq] at htoken
    exact ⟨htoken.1.symm, htoken.2.symm⟩
  | uiHolding t token => exact h.elim
  | chatStart | chatConflicted | restoreStart | restoreHolding | uiStart | deleteStart | done => cases htoken

end Moves

section Writes

variable {Text Hash : Type} {codec : SnapshotCodec Text Hash} {km : Haversine} {s s' : Store Text Hash}
  {tripId : TripId} {revision : ℤ} {task : Task} {payload : Payload} {c : Client Text Hash}

theorem detail_multiDay {p : Payload} {createdAt startDate endDate : String} {updatedAt : Option String}
    {detail : TripDetail} {numDays : ℕ} {transportMode : TransportMode} {request : MultiDayRequest}
    {response : SavedPlans.MultiDayResponse}
    (h : detailFromSnapshot tripId p revision createdAt updatedAt = some detail)
    (hbody : detail.body = .multiDay startDate endDate numDays transportMode request response) :
    detail.name = p.name ∧ detail.revision = revision ∧ p.plan = .multiDay request response := by
  obtain ⟨name, plan, version⟩ := p
  simp only [detailFromSnapshot] at h
  split_ifs at h
  cases plan with
  | singleDay date request' response' =>
    obtain rfl := Option.some.inj h
    cases hbody
  | multiDay request' response' =>
    simp only [Option.bind_eq_bind, Option.bind_eq_some_iff] at h
    obtain ⟨_, _, _, _, h⟩ := h
    obtain rfl := Option.some.inj h
    obtain ⟨-, -, -, -, rfl, rfl⟩ := DetailBody.multiDay.inj hbody
    exact ⟨rfl, rfl, rfl⟩

/-- What the editor prepares is what its operations make of the revision it was to edit. -/
theorem editorPrepare_asked {choice : Choice} {operations : Operations} {request : TripSave}
    (h : editorPrepare codec km choice tripId operations revision s = .ok request) :
    request.1.expectedRevision = some revision ∧ (∃ row, s.trips.find tripId = some row ∧ row.revision = revision) ∧
      Asked codec km s tripId revision (snapshotPayload request.1) (.edit operations) := by
  unfold editorPrepare at h
  split at h
  · cases h
  · cases h
  · next trip htrip =>
    split at h
    · cases h
    · next startDate endDate numDays transportMode request' response hbody =>
      split_ifs at h with hrevision
      split at h
      · cases h
      · next edited hedited =>
        split at h
        · cases h
        · next answer hanswer =>
          dsimp only at h
          split_ifs at h
          obtain rfl := Except.ok.inj h
          obtain ⟨row, old, hrow, hload, hdetail⟩ := get_eq_some.mp htrip
          obtain ⟨hname, hcurrent, hplan⟩ := detail_multiDay hdetail hbody
          have hsame : row.revision = revision := hcurrent.symm.trans (not_not.mp hrevision)
          refine ⟨rfl, ⟨row, hrow, hsame⟩, old, ⟨row, hrow, hsame, hload⟩, request', response, edited, _, _, answer,
            hplan, hedited, hanswer, ?_⟩
          rw [← hname]
          rfl

theorem not_newRevision_self : ¬NewRevision codec s s tripId revision := by
  rintro ⟨row, row', _, _, _, _, ha, _, hrevision, _⟩
  have hsame := ha.trips row.id
  rw [ha.found, if_pos rfl] at hsame
  rw [← Option.some.inj hsame] at hrevision
  omega

theorem restore_written {target : ℤ} {now : String} {plan : RestorePlan Text Hash}
    (hload : loadSnapshot codec plan.target.snapshot plan.target.compression = some plan.payload)
    (hnew : NewRevision codec s (restoreCommit tripId target revision now plan s).2 tripId revision) :
    Current codec (restoreCommit tripId target revision now plan s).2 tripId (revision + 1) plan.payload := by
  unfold restoreCommit at hnew ⊢
  rcases transaction_cases (restoreBlock tripId target revision now plan) s with ⟨e, he⟩ | ⟨u, s', hblock, he⟩
  · rw [he] at hnew
    exact absurd hnew not_newRevision_self
  · rw [he]
    obtain ⟨row, hrow, rfl, ha⟩ := restoreBlock_spec hblock
    have hid := Table.find_key hrow
    have huncompressed : plan.target.compression = .none := by
      by_contra hne
      rw [loadSnapshot, if_neg hne] at hload
      cases hload
    rw [huncompressed] at hload
    exact ⟨_, (ha.trips tripId).trans (if_pos hid), rfl, hload⟩

variable [DecidableEq Hash]

theorem update_written {request : TripSave} {source : TripUpdateSource} {summary now : String}
    (htoken : request.1.expectedRevision = some revision)
    (hnew : NewRevision codec s (update codec tripId request source summary now s).2 tripId revision) :
    Current codec (update codec tripId request source summary now s).2 tripId (revision + 1)
      (snapshotPayload request.1) := by
  obtain ⟨display, hd, hbuild⟩ := buildSnapshot_total codec request.2
  simp only [update, hbuild, load_canonical] at hnew ⊢
  rcases transaction_cases (updateBlock codec tripId request.1 source summary now _ _ display _) s with
    ⟨e, he⟩ | ⟨answer, s', hblock, he⟩
  · rw [he] at hnew
    exact absurd hnew not_newRevision_self
  · rw [he] at hnew ⊢
    rcases updateBlock_cases hblock with
      ⟨_, _, rfl⟩ | ⟨row, hrow, _, hheld, ⟨_, rfl, _⟩ | ⟨_, _, ha⟩⟩
    · exact absurd hnew not_newRevision_self
    · exact absurd hnew not_newRevision_self
    · obtain rfl : row.revision = revision := Option.some.inj (hheld.symm.trans htoken)
      have hid := Table.find_key hrow
      refine ⟨_, (ha.trips tripId).trans (if_pos hid), rfl, load_canonical _⟩

/-- A client that is about a task goes on with it until it is done. -/
theorem Serves.next (h : Serves codec km s tripId revision task c) (choice : Choice) :
    (∃ outcome, (clientStep codec km choice s c).1 = .done outcome) ∨
      Serves codec km (clientStep codec km choice s c).2 tripId revision task (clientStep codec km choice s c).1 := by
  cases c with
  | chatStart t operations expected =>
    obtain ⟨rfl, rfl, rfl⟩ := h
    simp only [clientStep]
    cases hprepared : editorPrepare codec km choice t operations expected s with
    | error e => exact .inl ⟨_, rfl⟩
    | ok request =>
      obtain ⟨htoken, ⟨row, hrow, hrevision⟩, hasked⟩ := editorPrepare_asked hprepared
      refine .inr ⟨rfl, htoken, fun row' hrow' ↦ ⟨?_, fun _ ↦ hasked⟩⟩
      obtain rfl : row = row' := Option.some.inj (hrow.symm.trans hrow')
      exact hrevision.ge
  | chatReady t request summary =>
    simp only [clientStep, TripClients.editorAnswer]
    split
    · exact .inr trivial
    · exact .inl ⟨_, rfl⟩
    · exact .inl ⟨_, rfl⟩
    · exact .inl ⟨_, rfl⟩
    · split
      · exact .inl ⟨_, rfl⟩
      · exact .inl ⟨_, rfl⟩
  | chatConflicted t =>
    simp only [clientStep]
    split
    · exact .inl ⟨_, rfl⟩
    · exact .inl ⟨_, rfl⟩
    · exact .inl ⟨_, rfl⟩
  | restoreStart t target expected =>
    simp only [clientStep]
    split
    · exact .inl ⟨_, rfl⟩
    · exact .inr h
  | restoreHolding t target expected row =>
    obtain ⟨rfl, rfl, rfl⟩ := h
    simp only [clientStep]
    split
    · exact .inl ⟨_, rfl⟩
    · next plan hplan =>
      obtain ⟨-, htarget, hload, -⟩ := restoreTarget_spec hplan
      exact .inr ⟨rfl, rfl, rfl, fun _ _ ↦ ⟨plan.target, htarget, hload⟩⟩
  | restoreReady t target expected plan =>
    simp only [clientStep, TripClients.restoreAnswer]
    split
    · exact .inl ⟨_, rfl⟩
    · exact .inl ⟨_, rfl⟩
  | uiStart | uiHolding | deleteStart | done => exact h.elim

/-- What one access of a client comes to: it stores what its task asks for over the
revision that it is held to, it finds that to be stored there already, or it changes
nothing and reports no success. -/
inductive Outcome (codec : SnapshotCodec Text Hash) (km : Haversine) (s : Store Text Hash) (tripId : TripId)
    (revision : ℤ) (task : Task) (r : Client Text Hash × Store Text Hash) : Prop
  | idle (hstore : r.2 = s) (hanswer : ∀ outcome, r.1 = .done outcome → r.1.Refused)
  | stored {payload : Payload} (hasked : Asked codec km s tripId revision payload task)
      (hnew : NewRevision codec s r.2 tripId revision) (hcurrent : Current codec r.2 tripId (revision + 1) payload)
      (hanswer : r.1.Succeeded)
  | found {payload : Payload} (hasked : Asked codec km s tripId revision payload task) (hstore : r.2 = s)
      (hcurrent : Current codec s tripId revision payload) (hanswer : r.1.Succeeded)

theorem Serves.written (h : Serves codec km s tripId revision task c) (hc : ClientInv codec s c) (choice : Choice)
    (htoken : c.token ≠ none) (hnew : NewRevision codec s (clientStep codec km choice s c).2 tripId revision) :
    ∃ payload, Asked codec km s tripId revision payload task ∧
      Current codec (clientStep codec km choice s c).2 tripId (revision + 1) payload := by
  obtain ⟨row, hrow, hrevision⟩ : ∃ row, s.trips.find tripId = some row ∧ row.revision = revision := by
    obtain ⟨row, _, _, _, hid, hrevision, ha, _⟩ := hnew
    exact ⟨row, hid ▸ ha.found, hrevision⟩
  cases c with
  | chatReady t request summary =>
    obtain ⟨rfl, hexpected, hasked⟩ := h
    exact ⟨_, (hasked row hrow).2 hrevision, update_written hexpected hnew⟩
  | restoreReady t target expected plan =>
    obtain ⟨rfl, rfl, -, hasked⟩ := h
    exact ⟨_, hasked row hrow, restore_written hc.recorded.loads hnew⟩
  | uiHolding => exact h.elim
  | uiStart | chatStart | chatConflicted | restoreStart | restoreHolding | deleteStart | done => exact absurd rfl htoken

theorem Serves.outcome (h : Serves codec km s tripId revision task c) (hinj : Function.Injective codec.snapshotHash)
    (hs : StoreInv codec s) (hc : ClientInv codec s c) (choice : Choice) :
    Outcome codec km s tripId revision task (clientStep codec km choice s c) := by
  have hlin := TripClients.clientStep_linearized km choice hinj hs hc
  have hwritten := h.written hc choice
  generalize clientStep codec km choice s c = after at hlin hwritten ⊢
  cases hlin with
  | read _ hanswer =>
    refine .idle rfl fun outcome hdone ↦ ?_
    rcases hanswer outcome hdone with hsame | hrefused
    · rw [hsame.symm.trans hdone] at h
      exact h.elim
    · exact hrefused
  | wrote htoken hanswer hnew =>
    obtain ⟨rfl, rfl⟩ := h.token htoken
    obtain ⟨payload, hasked, hcurrent⟩ := hwritten (by rw [htoken]; exact Option.some_ne_none _) hnew
    exact .stored hasked hnew hcurrent hanswer
  | @unchanged tripId' request token c' hupdate htoken hanswer hcurrent =>
    cases c with
    | chatReady t request' summary =>
      obtain ⟨rfl, rfl⟩ := Prod.mk.inj (Option.some.inj hupdate)
      obtain ⟨rfl, hexpected, hasked⟩ := h
      obtain rfl : revision = token := Option.some.inj (hexpected.symm.trans htoken)
      obtain ⟨row, hrow, hrevision, _⟩ := id hcurrent
      exact .found ((hasked row hrow).2 hrevision) rfl hcurrent hanswer
    | uiHolding => exact h.elim
    | uiStart | chatStart | chatConflicted | restoreStart | restoreHolding | restoreReady | deleteStart | done =>
      exact absurd hupdate (by simp [Client.update?])
  | refused _ hanswer => exact .idle rfl fun _ _ ↦ hanswer
  | deleted hdelete _ =>
    rw [hdelete] at h
    exact h.elim

end Writes

end TravelPlanner.ChatWrites
