import TravelPlanner.Runs

namespace TravelPlanner.DbAdapter

open Runs

structure Conn (V : Type) where
  durable : List (ℕ × V)
  opened : Option (List (ℕ × V))
  deriving DecidableEq

variable {V : Type}

namespace Conn

def begin (succeeds : Bool) (c : Conn V) : Conn V × Bool :=
  if succeeds ∧ c.opened = none then ({ c with opened := some [] }, true) else (c, false)

/-- A statement outside a transaction is committed by itself. -/
def execute (writes : List (ℕ × V)) (succeeds : Bool) (c : Conn V) : Conn V × Bool :=
  match succeeds, c.opened with
  | false, _ => (c, false)
  | true, none => ({ c with durable := c.durable ++ writes }, true)
  | true, some ws => ({ c with opened := some (ws ++ writes) }, true)

def commit (succeeds : Bool) (c : Conn V) : Conn V × Bool :=
  match c.opened with
  | none => (c, true)
  | some ws => if succeeds then (⟨c.durable ++ ws, none⟩, true) else (c, false)

def rollback (c : Conn V) : Conn V × Bool := ({ c with opened := none }, true)

end Conn

/-- What becomes of a task that waits for a job of the worker: it gets the result, it
is cancelled while the job runs on, or before the job starts. -/
inductive Await
  | finished | interrupted | dropped
  deriving DecidableEq, Repr

def awaitJob (a : Await) (job : Conn V → Conn V × Bool) (c : Conn V) : Conn V × Bool :=
  match a with
  | .finished => job c
  | .interrupted => ((job c).1, false)
  | .dropped => (c, false)

structure Statement (V : Type) where
  writes : List V
  succeeds : Bool := true
  wait : Await := .finished
  deriving DecidableEq

def tagged (k : ℕ) (writes : List V) : List (ℕ × V) := writes.map (k, ·)

/-- A failed statement of its own rolls back whatever is open. -/
def runStatement (writes : List (ℕ × V)) (succeeds commits commit : Bool) (c : Conn V) : Conn V × Bool :=
  match c.execute writes succeeds with
  | (c, false) => (if commit then c.rollback.1 else c, false)
  | (c, true) =>
    if commit then
      match c.commit commits with
      | (c, false) => (c.rollback.1, false)
      | (c, true) => (c, true)
    else (c, true)

/-- A transaction block with everything the driver and the scheduler do to it. Its body
runs some statements and ends, with or without an exception. -/
structure Block (V : Type) where
  locked : Bool := true
  begins : Bool := true
  beginWait : Await := .finished
  body : List (Statement V)
  raises : Bool := false
  commits : Bool := true
  commitWait : Await := .finished
  rollbackWait : Await := .finished
  deriving DecidableEq

def runBody (k : ℕ) (body : List (Statement V)) (c : Conn V) : Conn V :=
  body.foldl (fun c st ↦ (awaitJob st.wait (runStatement (tagged k st.writes) st.succeeds true false) c).1) c

def runBlock (k : ℕ) (b : Block V) (c : Conn V) : Conn V × Bool :=
  if b.locked then
    match awaitJob b.beginWait (Conn.begin b.begins) c with
    | (c, false) => (c, false)
    | (c, true) =>
      let c := runBody k b.body c
      if b.raises then ((awaitJob b.rollbackWait Conn.rollback c).1, false)
      else awaitJob b.commitWait (Conn.commit b.commits) c
  else (c, false)

inductive Call (V : Type)
  | execute (locked : Bool) (statement : Statement V) (commits : Bool)
  | transaction (b : Block V)
  deriving DecidableEq

structure Adapter (V : Type) where
  conn : Conn V
  next : ℕ
  failed : List ℕ
  deriving DecidableEq

def Adapter.start : Adapter V := ⟨⟨[], none⟩, 0, []⟩

def step (s : Adapter V) : Call V → Adapter V
  | .execute locked st commits =>
    let job := runStatement (tagged s.next st.writes) st.succeeds commits true
    ⟨if locked then (awaitJob st.wait job s.conn).1 else s.conn, s.next + 1, s.failed⟩
  | .transaction b =>
    let r := runBlock s.next b s.conn
    ⟨r.1, s.next + 1, if r.2 then s.failed else s.next :: s.failed⟩

structure Atomic (s : Adapter V) : Prop where
  closed : s.conn.opened = none
  hidden : ∀ w ∈ s.conn.durable, w.1 ∉ s.failed

def written (body : List (Statement V)) : List V :=
  body.flatMap fun st ↦ if st.succeeds ∧ st.wait ≠ .dropped then st.writes else []

/-- The block is not cancelled while a `BEGIN` succeeds, a due `ROLLBACK` gets to run, and
a due `COMMIT` succeeds, uncancelled unless there is nothing to commit. -/
def Block.Undisturbed (b : Block V) : Prop :=
  b.locked = true → b.begins = true →
    match b.beginWait with
    | .dropped => True
    | .interrupted => False
    | .finished =>
      if b.raises then b.rollbackWait ≠ .dropped
      else b.commits = true ∧ (b.commitWait = .finished ∨ b.commitWait = .interrupted ∧ written b.body = [])

def Call.Undisturbed : Call V → Prop
  | .execute .. => True
  | .transaction b => b.Undisturbed

structure Good (s : Adapter V) : Prop where
  atomic : Atomic s
  numbered : ∀ w ∈ s.conn.durable, w.1 < s.next
  past : ∀ k ∈ s.failed, k < s.next

theorem good_start : Good (Adapter.start : Adapter V) :=
  ⟨⟨rfl, by simp [Adapter.start]⟩, by simp [Adapter.start], by simp [Adapter.start]⟩

theorem runBody_eq (k : ℕ) (body : List (Statement V)) (durable ws : List (ℕ × V)) :
    runBody k body ⟨durable, some ws⟩ = ⟨durable, some (ws ++ tagged k (written body))⟩ := by
  induction body generalizing ws with
  | nil => simp [runBody, written, tagged]
  | cons st body ih =>
    obtain ⟨writes, succeeds, wait⟩ := st
    have hone : (awaitJob wait (runStatement (tagged k writes) succeeds true false) ⟨durable, some ws⟩).1 =
        ⟨durable, some (ws ++ tagged k (written [⟨writes, succeeds, wait⟩]))⟩ := by
      cases wait <;> cases succeeds <;> simp [awaitJob, runStatement, Conn.execute, written, tagged]
    have hsplit : written (⟨writes, succeeds, wait⟩ :: body) =
        written [⟨writes, succeeds, wait⟩] ++ written body := by
      simp [written]
    have htail := ih (ws ++ tagged k (written [⟨writes, succeeds, wait⟩]))
    simp only [runBody, List.foldl_cons] at htail ⊢
    rw [hone, htail, hsplit]
    simp [tagged]

variable {s : Adapter V}

theorem mem_tagged {k : ℕ} {vs : List V} {w : ℕ × V} (h : w ∈ tagged k vs) : w.1 = k := by
  obtain ⟨_, _, rfl⟩ := List.mem_map.mp h
  rfl

theorem good_failed (h : Good s) : Good ⟨s.conn, s.next + 1, s.next :: s.failed⟩ := by
  refine ⟨⟨h.atomic.closed, fun w hw hmem ↦ ?_⟩, fun w hw ↦ Nat.lt_succ_of_lt (h.numbered w hw), ?_⟩
  · rcases List.mem_cons.mp hmem with he | hold
    · exact absurd he (Nat.ne_of_lt (h.numbered w hw))
    · exact h.atomic.hidden w hw hold
  · intro k hk
    rcases List.mem_cons.mp hk with rfl | hold
    · exact Nat.lt_succ_self _
    · exact Nat.lt_succ_of_lt (h.past k hold)

theorem good_committed (h : Good s) (vs : List V) :
    Good ⟨⟨s.conn.durable ++ tagged s.next vs, none⟩, s.next + 1, s.failed⟩ := by
  refine ⟨⟨rfl, fun w hw hmem ↦ ?_⟩, fun w hw ↦ ?_, fun k hk ↦ Nat.lt_succ_of_lt (h.past k hk)⟩
  · rcases List.mem_append.mp hw with hw | hw
    · exact h.atomic.hidden w hw hmem
    · rw [mem_tagged hw] at hmem
      exact Nat.lt_irrefl _ (h.past _ hmem)
  · rcases List.mem_append.mp hw with hw | hw
    · exact Nat.lt_succ_of_lt (h.numbered w hw)
    · rw [mem_tagged hw]
      exact Nat.lt_succ_self _

theorem not_atomic_open {durable ws : List (ℕ × V)} {next : ℕ} {failed : List ℕ} :
    ¬Atomic (⟨⟨durable, some ws⟩, next, failed⟩ : Adapter V) := fun h ↦ Option.some_ne_none ws h.closed

theorem conn_eq (h : Good s) : s.conn = ⟨s.conn.durable, none⟩ := by
  rw [← h.atomic.closed]

theorem execute_good (h : Good s) (locked : Bool) (st : Statement V) (commits : Bool) :
    Good (step s (.execute locked st commits)) := by
  have hsame : Good ⟨s.conn, s.next + 1, s.failed⟩ :=
    ⟨⟨h.atomic.closed, h.atomic.hidden⟩, fun w hw ↦ Nat.lt_succ_of_lt (h.numbered w hw),
      fun k hk ↦ Nat.lt_succ_of_lt (h.past k hk)⟩
  have hconn := conn_eq h
  cases locked with
  | false => exact hsame
  | true =>
    obtain ⟨writes, succeeds, wait⟩ := st
    simp only [step]
    rw [hconn] at hsame ⊢
    cases wait with
    | dropped => exact hsame
    | finished =>
      cases succeeds with
      | false => exact hsame
      | true => exact good_committed h writes
    | interrupted =>
      cases succeeds with
      | false => exact hsame
      | true => exact good_committed h writes

theorem runBlock_begun (k : ℕ) (b : Block V) (durable : List (ℕ × V)) (hlocked : b.locked = true)
    (hbegins : b.begins = true) (hwait : b.beginWait = .finished) :
    runBlock k b ⟨durable, none⟩ =
      if b.raises then ((awaitJob b.rollbackWait Conn.rollback ⟨durable, some (tagged k (written b.body))⟩).1, false)
      else awaitJob b.commitWait (Conn.commit b.commits) ⟨durable, some (tagged k (written b.body))⟩ := by
  have hbody := runBody_eq k b.body durable []
  simp only [List.nil_append] at hbody
  simp only [runBlock, hlocked, hbegins, hwait, awaitJob, Conn.begin, if_true, and_self, hbody]

theorem block_skipped (h : Good s) {b : Block V} (hrun : runBlock s.next b s.conn = (s.conn, false)) :
    Good (step s (.transaction b)) := by
  simp only [step, hrun]
  exact good_failed h

/-- Past a `BEGIN` everything rests on the last job of the block. -/
theorem block_begun (h : Good s) {b : Block V} (hlocked : b.locked = true) (hbegins : b.begins = true)
    (hwait : b.beginWait = .finished) :
    b.Undisturbed ∧ Good (step s (.transaction b)) ∨ ¬b.Undisturbed ∧ ¬Atomic (step s (.transaction b)) := by
  have hrun := runBlock_begun s.next b s.conn.durable hlocked hbegins hwait
  rw [← conn_eq h] at hrun
  have hiff : b.Undisturbed ↔ if b.raises then b.rollbackWait ≠ .dropped
      else b.commits = true ∧ (b.commitWait = .finished ∨ b.commitWait = .interrupted ∧ written b.body = []) := by
    simp only [Block.Undisturbed, hlocked, hbegins, hwait, forall_const]
  rw [hiff]
  simp only [step, hrun]
  cases hraises : b.raises with
  | true =>
    have hrolled : Good (⟨⟨s.conn.durable, none⟩, s.next + 1, s.next :: s.failed⟩ : Adapter V) := by
      rw [← conn_eq h]
      exact good_failed h
    cases hw : b.rollbackWait with
    | finished => exact .inl ⟨by simp, hrolled⟩
    | interrupted => exact .inl ⟨by simp, hrolled⟩
    | dropped => exact .inr ⟨by simp, not_atomic_open⟩
  | false =>
    cases hcommits : b.commits with
    | false =>
      refine .inr ⟨by simp, ?_⟩
      cases hw : b.commitWait <;> exact not_atomic_open
    | true =>
      cases hw : b.commitWait with
      | finished => exact .inl ⟨by simp, good_committed h (written b.body)⟩
      | dropped => exact .inr ⟨by simp, not_atomic_open⟩
      | interrupted =>
        cases hwritten : written b.body with
        | nil =>
          refine .inl ⟨by simp, ?_⟩
          have hrolled := good_failed h
          rw [conn_eq h] at hrolled
          simpa [awaitJob, Conn.commit, tagged] using hrolled
        | cons v vs =>
          -- the commit went through while its caller was told that it had not
          refine .inr ⟨by simp, fun ha ↦ ha.hidden (s.next, v) ?_ List.mem_cons_self⟩
          simp [awaitJob, Conn.commit, tagged]

theorem block_cases (h : Good s) (b : Block V) :
    b.Undisturbed ∧ Good (step s (.transaction b)) ∨ ¬b.Undisturbed ∧ ¬Atomic (step s (.transaction b)) := by
  have hconn := conn_eq h
  cases hlocked : b.locked with
  | false => exact .inl ⟨fun hl ↦ by simp [hlocked] at hl, block_skipped h (by simp [runBlock, hlocked])⟩
  | true =>
    cases hbegins : b.begins with
    | false =>
      refine .inl ⟨fun _ hb ↦ by simp [hbegins] at hb, block_skipped h ?_⟩
      cases hwait : b.beginWait <;> simp [runBlock, hlocked, hbegins, hwait, awaitJob, Conn.begin]
    | true =>
      cases hwait : b.beginWait with
      | dropped =>
        refine .inl ⟨fun _ _ ↦ by rw [hwait]; trivial, block_skipped h ?_⟩
        simp [runBlock, hlocked, hwait, awaitJob]
      | interrupted =>
        refine .inr ⟨fun hu ↦ by simpa [hwait] using hu hlocked hbegins, fun ha ↦ ?_⟩
        have hopen := ha.closed
        rw [step, hconn] at hopen
        simp [runBlock, hlocked, hbegins, hwait, awaitJob, Conn.begin] at hopen
      | finished => exact block_begun h hlocked hbegins hwait

theorem step_cases (h : Good s) (call : Call V) :
    call.Undisturbed ∧ Good (step s call) ∨ ¬call.Undisturbed ∧ ¬Atomic (step s call) := by
  cases call with
  | execute locked st commits => exact .inl ⟨trivial, execute_good h locked st commits⟩
  | transaction b => exact block_cases h b

/-- Every state of a run is atomic exactly when none of its calls is disturbed. -/
theorem atomic_iff_undisturbed (calls : List (Call V)) :
    (∀ t ∈ trace step (Adapter.start : Adapter V) calls, Atomic t.after) ↔ ∀ call ∈ calls, call.Undisturbed := by
  have hiff := trace_iff good_start (fun _ h ↦ h.atomic) (fun _ call h ↦ step_cases h call) calls
  rw [hiff]
  have hcalls := trace_events step (Adapter.start : Adapter V) calls
  constructor
  · intro h call hcall
    rw [← hcalls] at hcall
    obtain ⟨t, ht, rfl⟩ := List.mem_map.mp hcall
    exact h t ht
  · intro h t ht
    exact h _ (hcalls ▸ List.mem_map_of_mem ht)

def failedCommit : List (Call String) :=
  [.transaction { body := [{ writes := ["trip"] }], commits := false }, .execute true { writes := ["state"] } true]

theorem failed_commit_visible : ¬∀ t ∈ trace step Adapter.start failedCommit, Atomic t.after := by
  intro h
  have hlast := h ⟨run step Adapter.start failedCommit.dropLast, _, run step Adapter.start failedCommit⟩
    (List.mem_cons_of_mem _ List.mem_cons_self)
  exact hlast.hidden (0, "trip") (by decide) (by decide)

end TravelPlanner.DbAdapter
