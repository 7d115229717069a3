import Mathlib.Data.List.GetD
import Mathlib.Data.List.Infix
import Mathlib.Data.List.Nodup
import TravelPlanner.Runs

namespace TravelPlanner.SchemaLadder

open Runs

/-- A `CREATE … IF NOT EXISTS` statement: the object's name and what it is made of. -/
structure Creation where
  name : String
  definition : String
  deriving DecidableEq

def schemaStep1 : List Creation :=
  [⟨"trips", "TABLE (id TEXT PRIMARY KEY, name TEXT NOT NULL, " ++
      "plan_type TEXT NOT NULL CHECK (plan_type IN ('SINGLE_DAY', 'MULTI_DAY')), " ++
      "schema_version INTEGER NOT NULL, revision INTEGER NOT NULL, snapshot TEXT NOT NULL, " ++
      "snapshot_hash TEXT NOT NULL, compression TEXT NOT NULL DEFAULT 'none', display_start_date TEXT NOT NULL, " ++
      "display_end_date TEXT NOT NULL, display_num_days INTEGER NOT NULL, created_at TEXT NOT NULL, updated_at TEXT)"⟩,
   ⟨"trip_revisions", "TABLE (trip_id TEXT NOT NULL REFERENCES trips(id) ON DELETE CASCADE, " ++
      "revision INTEGER NOT NULL, source TEXT NOT NULL CHECK " ++
      "(source IN ('CREATED', 'MANUAL', 'ORCHESTRATOR', 'REVERT', 'MIGRATION')), summary TEXT NOT NULL, " ++
      "restored_from_revision INTEGER, schema_version INTEGER NOT NULL, snapshot TEXT NOT NULL, " ++
      "snapshot_hash TEXT NOT NULL, compression TEXT NOT NULL DEFAULT 'none', recorded_at TEXT NOT NULL, " ++
      "PRIMARY KEY (trip_id, revision))"⟩,
   ⟨"ix_trip_revisions_trip_rev_desc", "INDEX ON trip_revisions (trip_id, revision DESC)"⟩,
   ⟨"app_migrations", "TABLE (key TEXT PRIMARY KEY, completed_at TEXT NOT NULL, " ++
      "metadata TEXT NOT NULL DEFAULT '\x7b\x7d')"⟩]

def schemaSteps : List (List Creation) := [schemaStep1]

section Creating

def create (schema : List Creation) (c : Creation) : List Creation :=
  if c.name ∈ schema.map Creation.name then schema else schema ++ [c]

def createAll (schema statements : List Creation) : List Creation := statements.foldl create schema

variable {schema statements : List Creation} {ladder : List (List Creation)} {m k : ℕ}

theorem createAll_of_exists (h : ∀ c ∈ statements, c.name ∈ schema.map Creation.name) :
    createAll schema statements = schema := by
  induction statements with
  | nil => rfl
  | cons c statements ih =>
    obtain ⟨hc, hrest⟩ := List.forall_mem_cons.mp h
    rw [createAll, List.foldl_cons, create, if_pos hc]
    exact ih hrest

theorem createAll_of_new (h : ((schema ++ statements).map Creation.name).Nodup) :
    createAll schema statements = schema ++ statements := by
  induction statements generalizing schema with
  | nil => exact (List.append_nil schema).symm
  | cons c statements ih =>
    have hsplit : schema ++ c :: statements = (schema ++ [c]) ++ statements := by simp
    have hnew : c.name ∉ schema.map Creation.name := by
      intro hmem
      rw [List.map_append, List.map_cons] at h
      exact (List.nodup_append.mp h).2.2 c.name hmem c.name List.mem_cons_self rfl
    rw [createAll, List.foldl_cons, create, if_neg hnew, hsplit]
    rw [hsplit] at h
    exact ih h

theorem take_flatten_succ (hk : k < ladder.length) :
    (ladder.take (k + 1)).flatten = (ladder.take k).flatten ++ ladder.getD k [] := by
  rw [List.take_succ_eq_append_getElem hk, List.flatten_append, List.flatten_singleton, List.getD_eq_getElem _ _ hk]

theorem take_flatten_beginning {n : ℕ} (h : m ≤ n) : (ladder.take m).flatten <+: (ladder.take n).flatten :=
  (List.take_prefix_take_left h).flatten

/-- A step of the ladder, on a schema that holds all steps below it. -/
theorem createAll_step (hnames : (ladder.flatten.map Creation.name).Nodup) (hk : k < ladder.length) (hkm : k ≤ m) :
    createAll (ladder.take m).flatten (ladder.getD k []) = (ladder.take (max m (k + 1))).flatten := by
  rcases Nat.lt_or_ge k m with hlt | hge
  · rw [Nat.max_eq_left hlt]
    refine createAll_of_exists fun c hc ↦ List.mem_map_of_mem ?_
    refine (take_flatten_beginning hlt).subset ?_
    rw [take_flatten_succ hk]
    exact List.mem_append_right _ hc
  · obtain rfl : k = m := Nat.le_antisymm hkm hge
    rw [Nat.max_eq_right (Nat.le_succ k), take_flatten_succ hk]
    refine createAll_of_new (hnames.sublist (List.Sublist.map _ ?_))
    rw [← take_flatten_succ hk]
    have hwhole := (List.take_prefix_take_left (l := ladder) (Nat.succ_le_of_lt hk)).flatten
    rw [List.take_length] at hwhole
    exact hwhole.sublist

end Creating

section Startup

inductive Role
  | app | migration
  deriving DecidableEq

/-- What a process is started with: its version of the ladder has so many steps. -/
structure Deployment where
  steps : ℕ
  role : Role
  requireMarker : Bool

/-- Where a process stands between two of its awaits; in `climbing k` the next
transaction is that of the step at index `k`. -/
inductive Phase
  | reading
  | climbing (k : ℕ)
  | checking
  | importing
  | serving
  | stopped
  deriving DecidableEq

structure Db where
  schema : List Creation := []
  userVersion : ℕ := 0
  /-- The row of `app_migrations` under the key of the import. -/
  marker : Bool := false

structure Cluster where
  db : Db := {}
  phases : ℕ → Phase := fun _ ↦ .stopped

/-- A process is started, its next await returns, or an exception leaves it. A step of the
ladder is one transaction, of which an exception leaves nothing; that of a lost answer comes
after the return. An import returns past its `mark_complete` if it has nothing to refuse. -/
inductive Event
  | start (i : ℕ)
  | proceed (i : ℕ)
  | fail (i : ℕ)
  deriving DecidableEq

def Cluster.goto (s : Cluster) (i : ℕ) (phase : Phase) : Cluster :=
  { s with phases := Function.update s.phases i phase }

/-- The loop of `apply_schema` passes over the steps below index `k`, and what follows it. -/
def afterStep (d : Deployment) (k : ℕ) : Phase :=
  if k < d.steps then .climbing k
  else
    match d.role with
    | .app => if d.requireMarker then .checking else .serving
    | .migration => .importing

def applyStep (ladder : List (List Creation)) (k : ℕ) (db : Db) : Db :=
  { db with schema := createAll db.schema (ladder.getD k []), userVersion := k + 1 }

def isComplete (db : Db) : Bool := "app_migrations" ∈ db.schema.map Creation.name && db.marker

def markComplete (db : Db) : Db :=
  if "app_migrations" ∈ db.schema.map Creation.name then { db with marker := true } else db

variable (ladder : List (List Creation)) (deployments : ℕ → Deployment)

def proceed (s : Cluster) (i : ℕ) : Cluster :=
  match s.phases i with
  | .reading => s.goto i (afterStep (deployments i) s.db.userVersion)
  | .climbing k => { s with db := applyStep ladder k s.db }.goto i (afterStep (deployments i) (k + 1))
  | .checking => s.goto i (if isComplete s.db then .serving else .stopped)
  | .importing => { s with db := markComplete s.db }.goto i .stopped
  | .serving | .stopped => s

def step (s : Cluster) : Event → Cluster
  | .start i => if s.phases i = .stopped then s.goto i .reading else s
  | .proceed i => proceed ladder deployments s i
  | .fail i => s.goto i .stopped

def Phase.past : Phase → Bool
  | .checking | .importing | .serving => true
  | _ => false

structure AtLevel (m : ℕ) (s : Cluster) : Prop where
  schema : s.db.schema = (ladder.take m).flatten
  version : s.db.userVersion ≤ m
  climbing : ∀ i k, s.phases i = .climbing k → k ≤ m ∧ k < (deployments i).steps
  past : ∀ i, (s.phases i).past = true → (deployments i).steps ≤ m
  brought : ∀ n, (∀ i, (deployments i).steps ≤ n) → m ≤ n
  marked : ∀ i, s.phases i = .serving → (deployments i).requireMarker = true → s.db.marker = true

variable {ladder} {deployments} {s : Cluster} {m : ℕ}

theorem goto_phases (s : Cluster) (i j : ℕ) (phase : Phase) :
    (s.goto i phase).phases j = if j = i then phase else s.phases j := by
  simp only [Cluster.goto, Function.update_apply]

theorem AtLevel.goto (h : AtLevel ladder deployments m s) {i : ℕ} {phase : Phase}
    (hclimbing : ∀ k, phase = .climbing k → k ≤ m ∧ k < (deployments i).steps)
    (hpast : phase.past = true → (deployments i).steps ≤ m)
    (hmarked : phase = .serving → (deployments i).requireMarker = true → s.db.marker = true) :
    AtLevel ladder deployments m (s.goto i phase) := by
  refine ⟨h.schema, h.version, fun j k hj ↦ ?_, fun j hj ↦ ?_, h.brought, fun j hj hrequired ↦ ?_⟩
  · rw [goto_phases] at hj
    split_ifs at hj with he
    · subst he
      exact hclimbing k hj
    · exact h.climbing j k hj
  · rw [goto_phases] at hj
    split_ifs at hj with he
    · subst he
      exact hpast hj
    · exact h.past j hj
  · rw [goto_phases] at hj
    split_ifs at hj with he
    · subst he
      exact hmarked hj hrequired
    · exact h.marked j hj hrequired

theorem AtLevel.goto_afterStep (h : AtLevel ladder deployments m s) (i : ℕ) {k : ℕ} (hk : k ≤ m) :
    AtLevel ladder deployments m (s.goto i (afterStep (deployments i) k)) := by
  unfold afterStep
  split_ifs with hlt hrequired
  · exact h.goto (fun k' he ↦ by cases he; exact ⟨hk, hlt⟩) nofun nofun
  · have hsteps : (deployments i).steps ≤ m := (not_lt.mp hlt).trans hk
    cases (deployments i).role with
    | app => exact h.goto nofun (fun _ ↦ hsteps) nofun
    | migration => exact h.goto nofun (fun _ ↦ hsteps) nofun
  · have hsteps : (deployments i).steps ≤ m := (not_lt.mp hlt).trans hk
    cases (deployments i).role with
    | app => exact h.goto nofun (fun _ ↦ hsteps) fun _ hreq ↦ absurd hreq hrequired
    | migration => exact h.goto nofun (fun _ ↦ hsteps) nofun

theorem AtLevel.applyStep (h : AtLevel ladder deployments m s) (hnames : (ladder.flatten.map Creation.name).Nodup)
    {i k : ℕ} (hk : k ≤ m) (hi : k < (deployments i).steps) (hladder : (deployments i).steps ≤ ladder.length) :
    AtLevel ladder deployments (max m (k + 1)) { s with db := applyStep ladder k s.db } where
  schema := by
    rw [SchemaLadder.applyStep, h.schema]
    exact createAll_step hnames (hi.trans_le hladder) hk
  version := Nat.le_max_right m (k + 1)
  climbing := fun j k' hj ↦ ⟨(h.climbing j k' hj).1.trans (Nat.le_max_left m (k + 1)), (h.climbing j k' hj).2⟩
  past := fun j hj ↦ (h.past j hj).trans (Nat.le_max_left m (k + 1))
  brought := fun n hn ↦ Nat.max_le.mpr ⟨h.brought n hn, Nat.succ_le_of_lt (hi.trans_le (hn i))⟩
  marked := h.marked

theorem AtLevel.markComplete (h : AtLevel ladder deployments m s) :
    AtLevel ladder deployments m { s with db := markComplete s.db } := by
  unfold SchemaLadder.markComplete
  split_ifs
  · exact ⟨h.schema, h.version, h.climbing, h.past, h.brought, fun _ _ _ ↦ rfl⟩
  · exact h

theorem step_level (hnames : (ladder.flatten.map Creation.name).Nodup)
    (hladder : ∀ i, (deployments i).steps ≤ ladder.length) (h : AtLevel ladder deployments m s) (e : Event) :
    ∃ m', m ≤ m' ∧ AtLevel ladder deployments m' (step ladder deployments s e) := by
  cases e with
  | start i =>
    rw [step]
    split_ifs
    · exact ⟨m, le_rfl, h.goto nofun nofun nofun⟩
    · exact ⟨m, le_rfl, h⟩
  | fail i => exact ⟨m, le_rfl, h.goto nofun nofun nofun⟩
  | proceed i =>
    rw [step, proceed]
    cases hphase : s.phases i with
    | reading => exact ⟨m, le_rfl, h.goto_afterStep i h.version⟩
    | climbing k =>
      obtain ⟨hk, hi⟩ := h.climbing i k hphase
      exact ⟨max m (k + 1), Nat.le_max_left m (k + 1),
        (h.applyStep hnames hk hi (hladder i)).goto_afterStep i (Nat.le_max_right m (k + 1))⟩
    | checking =>
      have hsteps : (deployments i).steps ≤ m := h.past i (by rw [hphase]; rfl)
      dsimp only
      split_ifs with hcomplete
      · exact ⟨m, le_rfl, h.goto nofun (fun _ ↦ hsteps) fun _ _ ↦ (Bool.and_eq_true_iff.mp hcomplete).2⟩
      · exact ⟨m, le_rfl, h.goto nofun nofun nofun⟩
    | importing => exact ⟨m, le_rfl, h.markComplete.goto nofun nofun nofun⟩
    | serving => exact ⟨m, le_rfl, h⟩
    | stopped => exact ⟨m, le_rfl, h⟩

theorem step_marker (hmarker : s.db.marker = true) (e : Event) : (step ladder deployments s e).db.marker = true := by
  cases e with
  | start i =>
    rw [step]
    split_ifs
    · exact hmarker
    · exact hmarker
  | fail i => exact hmarker
  | proceed i =>
    rw [step, proceed]
    cases s.phases i with
    | importing =>
      dsimp only [Cluster.goto]
      unfold SchemaLadder.markComplete
      split_ifs
      · rfl
      · exact hmarker
    | reading | climbing | checking | serving | stopped => exact hmarker

variable (ladder) (deployments) in
/-- What a step of the cluster keeps, and what holds after it. -/
structure Sound (t : Transition Cluster Event) : Prop where
  grows : t.before.db.schema <+: t.after.db.schema
  marked : t.before.db.marker = true → t.after.db.marker = true
  honest : (ladder.take t.after.db.userVersion).flatten <+: t.after.db.schema
  serving : ∀ i, t.after.phases i = .serving → (ladder.take (deployments i).steps).flatten <+: t.after.db.schema ∧
    ((deployments i).requireMarker = true → t.after.db.marker = true)
  settled : ∀ i, (t.after.phases i).past = true → (∀ j, (deployments j).steps ≤ (deployments i).steps) →
    t.after.db.schema = (ladder.take (deployments i).steps).flatten

theorem AtLevel.sound {m' : ℕ} {t : Transition Cluster Event} (hbefore : AtLevel ladder deployments m t.before)
    (hafter : AtLevel ladder deployments m' t.after) (hm : m ≤ m')
    (hmarked : t.before.db.marker = true → t.after.db.marker = true) : Sound ladder deployments t where
  grows := by
    rw [hbefore.schema, hafter.schema]
    exact take_flatten_beginning hm
  marked := hmarked
  honest := by
    rw [hafter.schema]
    exact take_flatten_beginning hafter.version
  serving := by
    intro i hi
    rw [hafter.schema]
    have hpast : (t.after.phases i).past = true := by rw [hi]; rfl
    exact ⟨take_flatten_beginning (hafter.past i hpast), hafter.marked i hi⟩
  settled := by
    intro i hi hmost
    rw [hafter.schema, Nat.le_antisymm (hafter.brought _ hmost) (hafter.past i hi)]

theorem start_level : AtLevel ladder deployments 0 {} :=
  ⟨by simp, le_rfl, nofun, nofun, fun n _ ↦ Nat.zero_le n, nofun⟩

/-- However the starts of old and new versions interleave and wherever they break off: what
is in the schema stays, the version it tells is a level it has, a process that serves has all
of its own ladder and the marker it asks for, and past the longest ladder the schema is that ladder. -/
theorem startup_sound (ladder : List (List Creation)) (deployments : ℕ → Deployment)
    (hnames : (ladder.flatten.map Creation.name).Nodup) (hladder : ∀ i, (deployments i).steps ≤ ladder.length)
    (events : List Event) : ∀ t ∈ trace (step ladder deployments) {} events, Sound ladder deployments t := by
  have hstep : ∀ s e, (∃ m, AtLevel ladder deployments m s) →
      ∃ m, AtLevel ladder deployments m (step ladder deployments s e) := by
    intro s e hs
    obtain ⟨m, hm⟩ := hs
    obtain ⟨m', -, hm'⟩ := step_level hnames hladder hm e
    exact ⟨m', hm'⟩
  intro t ht
  obtain ⟨⟨m, hm⟩, hafter⟩ := trace_invariant ⟨0, start_level⟩ hstep events t ht
  obtain ⟨m', hle, hm'⟩ := step_level hnames hladder hm t.event
  refine hm.sound (hafter ▸ hm') hle fun hmarker ↦ ?_
  rw [hafter]
  exact step_marker hmarker t.event

def laterSteps : List (List Creation) := schemaSteps ++ [[⟨"trip_tags", "TABLE (trip_id TEXT, tag TEXT)"⟩]]

def rollout (i : ℕ) : Deployment := ⟨if i = 0 then 1 else 2, .app, false⟩

/-- An application of the first version starts with one of a later version, and finishes after
it: it sets the version back, below what the schema holds. -/
def slowStart : List Event := [.start 0, .proceed 0, .start 1, .proceed 1, .proceed 1, .proceed 1, .proceed 0]

theorem rollout_steps (i : ℕ) : (rollout i).steps ≤ laterSteps.length := by
  unfold rollout
  split_ifs <;> decide

example : (run (step laterSteps rollout) {} slowStart).db.userVersion = 1 ∧
    (run (step laterSteps rollout) {} slowStart).phases 1 = .serving ∧
      (run (step laterSteps rollout) {} slowStart).db.schema = laterSteps.flatten := by decide +kernel

theorem startup_sound_rollout : (run (step laterSteps rollout) {} slowStart).phases 0 = .serving ∧
    ∀ t ∈ trace (step laterSteps rollout) {} slowStart, Sound laterSteps rollout t :=
  ⟨by decide +kernel, startup_sound laterSteps rollout (by decide +kernel) rollout_steps slowStart⟩

end Startup

end TravelPlanner.SchemaLadder
