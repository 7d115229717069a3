import TravelPlanner.RevisionReads
import TravelPlanner.TripClients

namespace TravelPlanner.HistoryViews

open DayPartition Requests Snapshots Tables TripStore StoreInvariant RevisionReads TripClients Runs
open TripRequests (gridDistance)

section Reader

variable {Text Hash : Type}

inductive Lister (Hash : Type)
  | start (tripId : TripId)
  | holding (tripId : TripId) (current : ℤ)
  | done (answer : Option (TripRevisionList Hash))
  deriving DecidableEq

def listerStep (s : Store Text Hash) : Lister Hash → Lister Hash
  | .start tripId =>
    match currentRevision tripId s with
    | none => .done none
    | some current => .holding tripId current
  | .holding tripId current => .done (some ⟨tripId, current, history tripId s⟩)
  | .done answer => .done answer

structure View (Text Hash : Type) where
  system : System Text Hash
  lister : Lister Hash

inductive Turn
  | lister
  | client (e : Event)

variable [DecidableEq Hash] (codec : SnapshotCodec Text Hash) (km : Haversine)

def viewStep (v : View Text Hash) : Turn → View Text Hash
  | .lister => { v with lister := listerStep v.system.store v.lister }
  | .client e => { v with system := step codec km v.system e }

end Reader

variable {Text Hash : Type} {codec : SnapshotCodec Text Hash} {s s' : Store Text Hash} {tripId : TripId} {current : ℤ}

section Histories

def Highest (revisions : List (TripRevisionSummary Hash)) (current : ℤ) : Prop :=
  current ∈ revisions.map TripRevisionSummary.revision ∧ ∀ r ∈ revisions, r.revision ≤ current

theorem Highest.unique {revisions : List (TripRevisionSummary Hash)} {a b : ℤ} (ha : Highest revisions a)
    (hb : Highest revisions b) : a = b := by
  obtain ⟨r, hr, rfl⟩ := List.mem_map.mp ha.1
  obtain ⟨r', hr', rfl⟩ := List.mem_map.mp hb.1
  exact le_antisymm (hb.2 r hr) (ha.2 r' hr')

theorem highest_of_current (h : StoreInv codec s) (hcurrent : currentRevision tripId s = some current) :
    Highest (history tripId s) current := by
  obtain ⟨row, hrow, rfl⟩ := Option.map_eq_some_iff.mp hcurrent
  obtain ⟨base, hbacked⟩ := h.backed _ _ hrow
  obtain ⟨rev, hfind, -⟩ := hbacked.current
  rw [Table.find_key hrow] at hfind
  constructor
  · refine List.mem_map.mpr ⟨RevisionRow.summarized rev, mem_history.mpr ⟨_, rev, hfind, rfl⟩, ?_⟩
    exact congrArg Prod.snd (Table.find_key hfind)
  · intro r hr
    obtain ⟨n, old, hold, rfl⟩ := mem_history.mp hr
    have hn : old.revision = n := congrArg Prod.snd (Table.find_key hold)
    have hrange := (hbacked.range n).mp (by rw [Table.find_key hrow, hold]; exact Option.some_ne_none old)
    change old.revision ≤ row.revision
    omega

theorem history_of_missing (h : StoreInv codec s) (hcurrent : currentRevision tripId s = none) :
    history tripId s = [] := by
  refine List.eq_nil_iff_forall_not_mem.mpr fun r hr ↦ ?_
  obtain ⟨n, rev, hfind, -⟩ := mem_history.mp hr
  rw [h.no_history (Option.map_eq_none_iff.mp hcurrent)] at hfind
  cases hfind

/-- What was current at the first statement is the highest revision of the second one's list
exactly when it is current still. -/
theorem highest_iff (h : StoreInv codec s) :
    Highest (history tripId s) current ↔ currentRevision tripId s = some current := by
  refine ⟨fun hhighest ↦ ?_, highest_of_current h⟩
  cases hcurrent : currentRevision tripId s with
  | none =>
    have hmem := hhighest.1
    rw [history_of_missing h hcurrent] at hmem
    cases hmem
  | some now => rw [(highest_of_current h hcurrent).unique hhighest]

end Histories

section Writers

/-- A trip is where it was, or past it for good. -/
theorem current_of_moved (hm : Moved codec s s') (hcurrent : currentRevision tripId s = some current) :
    currentRevision tripId s' = some current ∨ ∀ row, s'.trips.find tripId = some row → current < row.revision := by
  obtain ⟨row, hrow, rfl⟩ := Option.map_eq_some_iff.mp hcurrent
  cases hm with
  | same => exact .inl hcurrent
  | revised hnew =>
    obtain ⟨old, new, _, _, _, _, ha, _, hrevision, _⟩ := hnew
    by_cases hid : old.id = tripId
    · subst hid
      obtain rfl := Option.some.inj (ha.found.symm.trans hrow)
      refine .inr fun found hfound ↦ ?_
      rw [ha.trips, if_pos rfl] at hfound
      rw [← Option.some.inj hfound, hrevision]
      omega
    · exact .inl (by rw [currentRevision, ha.trips, if_neg hid, hrow]; rfl)
  | deleted other =>
    rw [currentRevision, (delete_spec other s).1]
    split_ifs
    · refine .inr fun row hrow ↦ ?_
      cases hrow
    · exact .inl (by rw [hrow]; rfl)

variable [DecidableEq Hash]

theorem clientStep_moved (km : Haversine) (choice : Choice) {c : Client Text Hash} (hc : ClientInv codec s c) :
    Moved codec s (clientStep codec km choice s c).2 := by
  cases c with
  | uiStart tripId =>
    simp only [clientStep]
    split <;> exact .same
  | uiHolding tripId token =>
    have hupdated := update_updated codec tripId (withToken choice.request token) .manual
      (manualUpdateSummary (withToken choice.request token).1) choice.now s
    simp only [clientStep]
    generalize update codec tripId _ _ _ _ s = r at hupdated ⊢
    cases hupdated with
    | refused => exact .same
    | unchanged => exact .same
    | advanced _ _ hnew => exact .revised hnew
  | chatStart tripId operations expected =>
    simp only [clientStep]
    split <;> exact .same
  | chatReady tripId request summary =>
    have hupdated := update_updated codec tripId request .orchestrator summary choice.now s
    simp only [clientStep]
    generalize update codec tripId _ _ _ _ s = r at hupdated ⊢
    cases hupdated with
    | refused => exact .same
    | unchanged => exact .same
    | advanced _ _ hnew => exact .revised hnew
  | chatConflicted tripId =>
    simp only [clientStep]
    split <;> exact .same
  | restoreStart tripId target expected =>
    simp only [clientStep]
    split <;> exact .same
  | restoreHolding tripId target expected row =>
    simp only [clientStep]
    split <;> exact .same
  | restoreReady tripId target expected plan =>
    simp only [clientStep]
    rcases restoreCommit_effect hc choice.now with ⟨e, he⟩ | ⟨detail, s', he, hnew⟩
    · rw [he]
      exact .same
    · rw [he]
      exact .revised hnew
  | deleteStart tripId => exact .deleted tripId
  | done outcome => exact .same

theorem step_moved (km : Haversine) {sys : System Text Hash} (h : SystemInv codec sys) (e : Event) :
    Moved codec sys.store (step codec km sys e).store := clientStep_moved km e.2 (h.clients e.1)

theorem step_keeps (km : Haversine) {sys : System Text Hash} (h : SystemInv codec sys) (e : Event) :
    SystemInv codec (step codec km sys e) := by
  have hmoved := step_moved km h e
  refine ⟨hmoved.inv h.store, fun i ↦ ?_⟩
  by_cases hi : i = e.1
  · subst hi
    have hclient := clientStep_clientInv km e.2 h.store (h.clients e.1)
    simpa only [step, Function.update_self] using hclient
  · have hclient := (h.clients i).mono hmoved.grows
    simpa only [step, Function.update_of_ne hi] using hclient

end Writers

section Runs

variable [DecidableEq Hash] {km : Haversine} {v : View Text Hash} {answer : TripRevisionList Hash} {turns : List Turn}

abbrev Moment (Text Hash : Type) := Transition (View Text Hash) Turn

/-- The answer is the history of the trip at one moment, with its highest revision as the current one. -/
structure ConsistentView (tripId : TripId) (moments : List (Moment Text Hash)) (answer : TripRevisionList Hash) :
    Prop where
  moment : ∃ t ∈ moments, answer.revisions = history tripId t.before.system.store
  highest : Highest answer.revisions answer.currentRevision
  nonempty : answer.revisions ≠ []

def Quiet (tripId : TripId) (t : Moment Text Hash) : Prop :=
  (∃ current, t.before.lister = .holding tripId current) →
    currentRevision tripId t.after.system.store = currentRevision tripId t.before.system.store

omit [DecidableEq Hash] in
theorem quiet_of_not_holding {t : Moment Text Hash} (h : ∀ current, t.before.lister ≠ .holding tripId current) :
    Quiet tripId t := fun hholding ↦ absurd hholding.choose_spec (h hholding.choose)

theorem quiet_done (codec : SnapshotCodec Text Hash) (tripId : TripId) (km : Haversine) (sys : System Text Hash)
    (result : Option (TripRevisionList Hash)) (turn : Turn) :
    Quiet tripId ⟨⟨sys, .done result⟩, turn, viewStep codec km ⟨sys, .done result⟩ turn⟩ :=
  quiet_of_not_holding fun current he ↦ by cases he

theorem quiet_start (tripId : TripId) (km : Haversine) (sys : System Text Hash) (turn : Turn) :
    Quiet tripId ⟨⟨sys, .start tripId⟩, turn, viewStep codec km ⟨sys, .start tripId⟩ turn⟩ :=
  quiet_of_not_holding fun current he ↦ by cases he

theorem trace_done (tripId : TripId) (codec : SnapshotCodec Text Hash) (km : Haversine) (sys : System Text Hash)
    (result : Option (TripRevisionList Hash)) (turns : List Turn) :
    (run (viewStep codec km) ⟨sys, .done result⟩ turns).lister = .done result ∧
      ∀ t ∈ trace (viewStep codec km) ⟨sys, .done result⟩ turns, Quiet tripId t := by
  induction turns generalizing sys with
  | nil => exact ⟨rfl, by simp [trace]⟩
  | cons turn turns ih =>
    have hquiet := quiet_done codec tripId km sys result turn
    cases turn with
    | lister => exact ⟨(ih sys).1, List.forall_mem_cons.mpr ⟨hquiet, (ih sys).2⟩⟩
    | client e =>
      obtain ⟨hdone, htrace⟩ := ih (step codec km sys e)
      exact ⟨hdone, List.forall_mem_cons.mpr ⟨hquiet, htrace⟩⟩

/-- The trip is past the revision that the reader holds. -/
theorem trace_past {sys : System Text Hash} (h : SystemInv codec sys) (hpast : Passed tripId current sys)
    (hdone : (run (viewStep codec km) ⟨sys, .holding tripId current⟩ turns).lister = .done (some answer)) :
    (∃ t ∈ trace (viewStep codec km) ⟨sys, .holding tripId current⟩ turns,
      answer.revisions = history tripId t.before.system.store) ∧
        ¬Highest answer.revisions answer.currentRevision := by
  induction turns generalizing sys with
  | nil => cases hdone
  | cons turn turns ih =>
    cases turn with
    | lister =>
      have hanswer := (trace_done tripId codec km sys
        (some ⟨tripId, current, history tripId sys.store⟩) turns).1
      obtain rfl := Option.some.inj (Lister.done.inj (hanswer.symm.trans hdone))
      refine ⟨⟨_, List.mem_cons_self, rfl⟩, fun hhighest ↦ ?_⟩
      obtain ⟨row, hrow, hrevision⟩ := Option.map_eq_some_iff.mp ((highest_iff h.store).mp hhighest)
      exact absurd (hpast row hrow) (by rw [hrevision]; exact lt_irrefl _)
    | client e =>
      have hpast' : Passed tripId current (step codec km sys e) := by
        intro row' hrow'
        obtain ⟨row, hrow, _, hle⟩ := (step_moved km h e).grows tripId row' hrow'
        exact (hpast row hrow).trans_le hle
      obtain ⟨⟨t, ht, hmoment⟩, hnot⟩ := ih (step_keeps km h e) hpast' hdone
      exact ⟨⟨t, List.mem_cons_of_mem _ ht, hmoment⟩, hnot⟩

theorem trace_holding {sys : System Text Hash} (h : SystemInv codec sys)
    (hcurrent : currentRevision tripId sys.store = some current)
    (hdone : (run (viewStep codec km) ⟨sys, .holding tripId current⟩ turns).lister = .done (some answer)) :
    (∃ t ∈ trace (viewStep codec km) ⟨sys, .holding tripId current⟩ turns,
      answer.revisions = history tripId t.before.system.store) ∧
        (Highest answer.revisions answer.currentRevision ↔
          ∀ t ∈ trace (viewStep codec km) ⟨sys, .holding tripId current⟩ turns, Quiet tripId t) := by
  induction turns generalizing sys with
  | nil => cases hdone
  | cons turn turns ih =>
    cases turn with
    | lister =>
      obtain ⟨hanswer, htrace⟩ := trace_done tripId codec km sys
        (some ⟨tripId, current, history tripId sys.store⟩) turns
      obtain rfl := Option.some.inj (Lister.done.inj (hanswer.symm.trans hdone))
      refine ⟨⟨_, List.mem_cons_self, rfl⟩, ?_⟩
      exact iff_of_true ((highest_iff h.store).mpr hcurrent) (List.forall_mem_cons.mpr ⟨fun _ ↦ rfl, htrace⟩)
    | client e =>
      have hkept := step_keeps km h e
      rw [trace, List.forall_mem_cons]
      rcases current_of_moved (step_moved km h e) hcurrent with hsame | hpast
      · obtain ⟨⟨t, ht, hmoment⟩, hiff⟩ := ih hkept hsame hdone
        have hquiet : Quiet tripId ⟨⟨sys, .holding tripId current⟩, Turn.client e,
            viewStep codec km ⟨sys, .holding tripId current⟩ (.client e)⟩ := fun _ ↦ hsame.trans hcurrent.symm
        exact ⟨⟨t, List.mem_cons_of_mem _ ht, hmoment⟩, hiff.trans (and_iff_right hquiet).symm⟩
      · obtain ⟨⟨t, ht, hmoment⟩, hnot⟩ := trace_past hkept hpast hdone
        refine ⟨⟨t, List.mem_cons_of_mem _ ht, hmoment⟩, iff_of_false hnot fun hquiet ↦ ?_⟩
        have hsame := (hquiet.1 ⟨current, rfl⟩).trans hcurrent
        obtain ⟨row, hrow, hrevision⟩ := Option.map_eq_some_iff.mp hsame
        exact absurd (hpast row hrow) (by rw [hrevision]; exact lt_irrefl _)

theorem trace_start {sys : System Text Hash} (h : SystemInv codec sys)
    (hdone : (run (viewStep codec km) ⟨sys, .start tripId⟩ turns).lister = .done (some answer)) :
    (∃ t ∈ trace (viewStep codec km) ⟨sys, .start tripId⟩ turns,
      answer.revisions = history tripId t.before.system.store) ∧
        (Highest answer.revisions answer.currentRevision ↔
          ∀ t ∈ trace (viewStep codec km) ⟨sys, .start tripId⟩ turns, Quiet tripId t) := by
  induction turns generalizing sys with
  | nil => cases hdone
  | cons turn turns ih =>
    rw [trace, List.forall_mem_cons, and_iff_right (quiet_start tripId km sys turn)]
    cases turn with
    | lister =>
      cases hcurrent : currentRevision tripId sys.store with
      | none =>
        have hnone : viewStep codec km ⟨sys, .start tripId⟩ .lister = ⟨sys, .done none⟩ := by
          simp [viewStep, listerStep, hcurrent]
        rw [run, List.foldl_cons, hnone] at hdone
        have hanswer := (trace_done tripId codec km sys none turns).1
        cases Lister.done.inj (hanswer.symm.trans hdone)
      | some current =>
        have hholding : viewStep codec km ⟨sys, .start tripId⟩ .lister = ⟨sys, .holding tripId current⟩ := by
          simp [viewStep, listerStep, hcurrent]
        rw [run, List.foldl_cons, hholding] at hdone
        rw [hholding]
        obtain ⟨⟨t, ht, hmoment⟩, hiff⟩ := trace_holding h hcurrent hdone
        exact ⟨⟨t, List.mem_cons_of_mem _ ht, hmoment⟩, hiff⟩
    | client e =>
      obtain ⟨⟨t, ht, hmoment⟩, hiff⟩ := ih (step_keeps km h e) hdone
      exact ⟨⟨t, List.mem_cons_of_mem _ ht, hmoment⟩, hiff⟩

/-- Whatever the other clients do, a list of revisions is a consistent view exactly when
nobody writes to the trip between the two statements. -/
theorem list_revisions_consistent_iff (codec : SnapshotCodec Text Hash) (km : Haversine) (calls : List TripCall)
    (clients : ℕ → Client Text Hash) (hstart : ∀ i, (clients i).Start) (tripId : TripId) (turns : List Turn)
    (answer : TripRevisionList Hash)
    (hdone : (run (viewStep codec km) ⟨⟨runCalls codec calls Store.empty, clients⟩, .start tripId⟩ turns).lister =
      .done (some answer)) :
    ConsistentView tripId
        (trace (viewStep codec km) ⟨⟨runCalls codec calls Store.empty, clients⟩, .start tripId⟩ turns) answer ↔
      ∀ t ∈ trace (viewStep codec km) ⟨⟨runCalls codec calls Store.empty, clients⟩, .start tripId⟩ turns,
        Quiet tripId t := by
  have hinit : SystemInv codec ⟨runCalls codec calls Store.empty, clients⟩ :=
    ⟨runCalls_inv (StoreInv.empty codec) calls, fun i ↦ (hstart i).clientInv⟩
  obtain ⟨hmoment, hiff⟩ := trace_start hinit hdone
  refine ⟨fun h ↦ hiff.mp h.highest, fun h ↦ ⟨hmoment, hiff.mpr h, fun hnil ↦ ?_⟩⟩
  have hmem := (hiff.mpr h).1
  rw [hnil] at hmem
  cases hmem

end Runs

section Example

def Lister.shown? : Lister Hash → Option (ℤ × List ℤ)
  | .done (some answer) => some (answer.currentRevision, answer.revisions.map TripRevisionSummary.revision)
  | _ => none

theorem Lister.answer_of_shown {l : Lister Hash} {revisions : List ℤ} (h : l.shown? = some (current, revisions)) :
    ∃ answer, l = .done (some answer) ∧ answer.currentRevision = current ∧
      answer.revisions.map TripRevisionSummary.revision = revisions := by
  unfold Lister.shown? at h
  split at h
  · next answer =>
    obtain ⟨hcurrent, hrevisions⟩ := Prod.mk.inj (Option.some.inj h)
    exact ⟨answer, rfl, hcurrent, hrevisions⟩
  · cases h

def juneCalls : List TripCall := [.save "trip" (juneTrip "June" june_named) "2026-05-01T08:00:00"]

def besideReader (writer : Client Payload Payload) : View Payload Payload :=
  ⟨⟨runCalls plainCodec juneCalls Store.empty, fun _ ↦ writer⟩, .start "trip"⟩

def overtaken : List Turn := [.lister, .client (0, renameTo "Alps" alps_named), .lister]

theorem list_revisions_consistent_iff_overtaken : ∃ answer,
    (run (viewStep plainCodec gridDistance) (besideReader (.uiHolding "trip" 0)) overtaken).lister =
      .done (some answer) ∧
    (ConsistentView "trip" (trace (viewStep plainCodec gridDistance) (besideReader (.uiHolding "trip" 0)) overtaken)
        answer ↔
      ∀ t ∈ trace (viewStep plainCodec gridDistance) (besideReader (.uiHolding "trip" 0)) overtaken, Quiet "trip" t) := by
  obtain ⟨answer, hanswer, -⟩ := Lister.answer_of_shown (l := (run (viewStep plainCodec gridDistance)
    (besideReader (.uiHolding "trip" 0)) overtaken).lister) (show _ = some (0, [1, 0]) by decide +kernel)
  exact ⟨answer, hanswer, list_revisions_consistent_iff plainCodec gridDistance juneCalls
    (fun _ ↦ .uiHolding "trip" 0) (fun _ ↦ trivial) "trip" overtaken answer hanswer⟩

/-- An update in between leaves a current revision that is not the highest one of the list,
and a deletion leaves the list empty. -/
theorem list_revisions_torn :
    (∃ answer, (run (viewStep plainCodec gridDistance) (besideReader (.uiHolding "trip" 0)) overtaken).lister =
        .done (some answer) ∧ ¬ConsistentView "trip"
          (trace (viewStep plainCodec gridDistance) (besideReader (.uiHolding "trip" 0)) overtaken) answer) ∧
      ∃ answer, (run (viewStep plainCodec gridDistance) (besideReader (.deleteStart "trip")) overtaken).lister =
        .done (some answer) ∧ answer.revisions = [] ∧ ¬ConsistentView "trip"
          (trace (viewStep plainCodec gridDistance) (besideReader (.deleteStart "trip")) overtaken) answer := by
  constructor
  · obtain ⟨answer, hanswer, hcurrent, hrevisions⟩ := Lister.answer_of_shown (l := (run (viewStep plainCodec gridDistance)
      (besideReader (.uiHolding "trip" 0)) overtaken).lister) (show _ = some (0, [1, 0]) by decide +kernel)
    refine ⟨answer, hanswer, fun h ↦ ?_⟩
    obtain ⟨r, hr, hone⟩ := List.mem_map.mp (hrevisions ▸ List.mem_cons_self :
      1 ∈ answer.revisions.map TripRevisionSummary.revision)
    have hle := h.highest.2 r hr
    omega
  · obtain ⟨answer, hanswer, -, hrevisions⟩ := Lister.answer_of_shown (l := (run (viewStep plainCodec gridDistance)
      (besideReader (.deleteStart "trip")) overtaken).lister) (show _ = some (0, []) by decide +kernel)
    have hnil := List.map_eq_nil_iff.mp hrevisions
    exact ⟨answer, hanswer, hnil, fun h ↦ h.nonempty hnil⟩

end Example

end TravelPlanner.HistoryViews
