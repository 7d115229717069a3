import Mathlib.Algebra.Ring.Nat
import Mathlib.Data.List.Pairwise

namespace TravelPlanner.Runs

variable {S E : Type*} (step : S → E → S)

def run (s : S) (events : List E) : S := events.foldl step s

structure Transition (S E : Type*) where
  before : S
  event : E
  after : S

def trace (s : S) : List E → List (Transition S E)
  | [] => []
  | e :: events => ⟨s, e, step s e⟩ :: trace (step s e) events

variable {step} {s : S} {Inv : S → Prop}

/-- A run whose steps all meet a condition keeps an invariant that such steps keep. -/
theorem trace_invariant_of {Ok : S → E → Prop} (hs : Inv s) (hstep : ∀ s e, Inv s → Ok s e → Inv (step s e))
    (events : List E) (hok : ∀ t ∈ trace step s events, Ok t.before t.event) :
    Inv (run step s events) ∧ ∀ t ∈ trace step s events, Inv t.before ∧ t.after = step t.before t.event := by
  induction events generalizing s with
  | nil => exact ⟨hs, by simp [trace]⟩
  | cons e events ih =>
    have hfirst := hok ⟨s, e, step s e⟩ List.mem_cons_self
    obtain ⟨hrun, htrace⟩ := ih (hstep s e hs hfirst) fun t ht ↦ hok t (List.mem_cons_of_mem _ ht)
    refine ⟨hrun, ?_⟩
    intro t ht
    rcases List.mem_cons.mp ht with rfl | ht
    · exact ⟨hs, rfl⟩
    · exact htrace t ht

theorem trace_invariant (hs : Inv s) (hstep : ∀ s e, Inv s → Inv (step s e)) (events : List E) :
    ∀ t ∈ trace step s events, Inv t.before ∧ t.after = step t.before t.event := by
  have hany : ∀ s e, Inv s → True → Inv (step s e) := fun s e h _ ↦ hstep s e h
  exact (trace_invariant_of hs hany events fun _ _ ↦ trivial).2

theorem trace_after (step : S → E → S) (s : S) (events : List E) :
    ∀ t ∈ trace step s events, t.after = step t.before t.event := by
  induction events generalizing s with
  | nil => simp [trace]
  | cons e events ih => exact List.forall_mem_cons.mpr ⟨rfl, ih (step s e)⟩

theorem trace_append (step : S → E → S) (s : S) (events more : List E) :
    trace step s (events ++ more) = trace step s events ++ trace step (run step s events) more := by
  induction events generalizing s with
  | nil => rfl
  | cons e events ih => exact congrArg _ (ih (step s e))

theorem trace_events (step : S → E → S) (s : S) (events : List E) :
    (trace step s events).map Transition.event = events := by
  induction events generalizing s with
  | nil => rfl
  | cons e events ih => simp only [trace, List.map_cons, ih]

/-- What does not hold at first and holds in the end, some step has brought about. -/
theorem trace_brings {P : S → Prop} (h : ¬P s) {events : List E} (hend : P (run step s events)) :
    ∃ t ∈ trace step s events, ¬P t.before ∧ P t.after := by
  induction events generalizing s with
  | nil => exact absurd hend h
  | cons e events ih =>
    by_cases hnext : P (step s e)
    · exact ⟨_, List.mem_cons_self, h, hnext⟩
    · obtain ⟨t, ht, hbrought⟩ := ih hnext hend
      exact ⟨t, List.mem_cons_of_mem _ ht, hbrought⟩

/-- What a step has brought about holds in the end, where no step undoes it. -/
theorem trace_kept {P : S → Prop} (hs : Inv s) (hstep : ∀ s e, Inv s → Inv (step s e))
    (hkeep : ∀ s e, Inv s → P s → P (step s e)) (events : List E) :
    ∀ t ∈ trace step s events, P t.after → P (run step s events) := by
  have hlast : ∀ (events : List E) (s : S), Inv s → P s → P (run step s events) := by
    intro events
    induction events with
    | nil => exact fun s _ h ↦ h
    | cons e events ih => exact fun s hs h ↦ ih _ (hstep s e hs) (hkeep s e hs h)
  induction events generalizing s with
  | nil => simp [trace]
  | cons e events ih =>
    intro t ht hafter
    rcases List.mem_cons.mp ht with rfl | ht
    · exact hlast events _ (hstep s e hs) hafter
    · exact ih (hstep s e hs) t ht hafter

/-- When every step either meets a condition and keeps the invariant or breaks what
the invariant gives, what it gives holds throughout exactly if all steps meet it. -/
theorem trace_iff {Good : S → Prop} {Ok : S → E → Prop} (hs : Inv s) (hgood : ∀ s, Inv s → Good s)
    (hstep : ∀ s e, Inv s → Ok s e ∧ Inv (step s e) ∨ ¬Ok s e ∧ ¬Good (step s e)) (events : List E) :
    (∀ t ∈ trace step s events, Good t.after) ↔ ∀ t ∈ trace step s events, Ok t.before t.event := by
  induction events generalizing s with
  | nil => simp [trace]
  | cons e events ih =>
    simp only [trace, List.forall_mem_cons]
    rcases hstep s e hs with ⟨hok, hkept⟩ | ⟨hok, hbroken⟩
    · rw [ih hkept]
      exact and_congr_left fun _ ↦ ⟨fun _ ↦ hok, fun _ ↦ hgood _ hkept⟩
    · exact ⟨fun h ↦ absurd h.1 hbroken, fun h ↦ absurd h.1 hok⟩

/-- A measure that each step raises by at most what the step costs is raised by a run by
at most what its steps cost. -/
theorem run_measure_le {Ok : S → E → Prop} (hs : Inv s) (hstep : ∀ s e, Inv s → Ok s e → Inv (step s e))
    {μ : S → ℕ} {cost : E → ℕ} (hμ : ∀ s e, Inv s → Ok s e → μ (step s e) ≤ μ s + cost e) (events : List E)
    (hok : ∀ t ∈ trace step s events, Ok t.before t.event) :
    μ (run step s events) ≤ μ s + (events.map cost).sum := by
  induction events generalizing s with
  | nil => exact Nat.le_refl _
  | cons e events ih =>
    have hfirst := hok ⟨s, e, step s e⟩ List.mem_cons_self
    have hrest := ih (hstep s e hs hfirst) fun t ht ↦ hok t (List.mem_cons_of_mem _ ht)
    have hone := hμ s e hs hfirst
    have hrun : run step s (e :: events) = run step (step s e) events := rfl
    rw [hrun, List.map_cons, List.sum_cons]
    omega

/-- What happens leaves a mark that is never lost and under which it cannot
happen again, so it happens at most once. -/
theorem trace_once_of {Happens : Transition S E → Prop} (Mark : S → Prop) (hs : Inv s)
    (hstep : ∀ s e, Inv s → Inv (step s e)) (hmark : ∀ s e, Inv s → Happens ⟨s, e, step s e⟩ → Mark (step s e))
    (hkeep : ∀ s e, Inv s → Mark s → Mark (step s e)) (hstop : ∀ t, Mark t.before → ¬Happens t) (events : List E) :
    (trace step s events).Pairwise fun t t' ↦ ¬(Happens t ∧ Happens t') := by
  have hmarked : ∀ (events : List E) (s : S), Inv s → Mark s → ∀ t ∈ trace step s events, ¬Happens t := by
    intro events
    induction events with
    | nil => simp [trace]
    | cons e events ih =>
      intro s hs hm t ht
      rcases List.mem_cons.mp ht with rfl | ht
      · exact hstop _ hm
      · exact ih _ (hstep s e hs) (hkeep s e hs hm) t ht
  induction events generalizing s with
  | nil => exact .nil
  | cons e events ih =>
    refine List.pairwise_cons.mpr ⟨fun t ht hboth ↦ ?_, ih (hstep s e hs)⟩
    exact hmarked events _ (hstep s e hs) (hmark s e hs hboth.1) t ht hboth.2

theorem trace_once {Happens : Transition S E → Prop} (Mark : S → Prop) (hs : Inv s)
    (hstep : ∀ s e, Inv s → Inv (step s e)) (hmark : ∀ t, Inv t.before → Happens t → Mark t.after)
    (hkeep : ∀ s e, Inv s → Mark s → Mark (step s e)) (hstop : ∀ t, Mark t.before → ¬Happens t) (events : List E) :
    (trace step s events).Pairwise fun t t' ↦ ¬(Happens t ∧ Happens t') :=
  trace_once_of Mark hs hstep (fun s e h happens ↦ hmark ⟨s, e, step s e⟩ h happens) hkeep hstop events

/-- A fold that may fail keeps an invariant that its steps keep. -/
theorem foldlM_invariant {f : S → E → Option S} {l : List E} (hs : Inv s) {s' : S} (h : l.foldlM f s = some s')
    (hstep : ∀ a ∈ l, ∀ s s', Inv s → f s a = some s' → Inv s') : Inv s' := by
  induction l generalizing s with
  | nil =>
    obtain rfl := Option.some.inj h
    exact hs
  | cons a l ih =>
    rw [List.foldlM_cons, Option.bind_eq_bind, Option.bind_eq_some_iff] at h
    obtain ⟨s₁, h₁, h⟩ := h
    exact ih (hstep a List.mem_cons_self s s₁ hs h₁) h fun b hb ↦ hstep b (List.mem_cons_of_mem _ hb)

end TravelPlanner.Runs
