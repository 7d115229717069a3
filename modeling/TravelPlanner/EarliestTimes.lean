import Mathlib.Data.List.Forall2
import Mathlib.Order.Bounds.Basic

namespace TravelPlanner.EarliestTimes

structure Stage (τ : Type*) [Preorder τ] where
  leaves : τ → Set τ
  next : τ → Option τ
  first : ∀ {t u}, next t = some u → IsLeast (leaves t) u
  blocked : ∀ {t}, next t = none → leaves t = ∅
  waits : ∀ {t t'}, t ≤ t' → leaves t' ⊆ leaves t

variable {τ : Type*} [Preorder τ] {stages stages' : List (Stage τ)} {t t' : τ} {us us' : List τ}

def departures : List (Stage τ) → τ → Option (List τ)
  | [], _ => some []
  | s :: rest, t => do
    let u ← s.next t
    let us ← departures rest u
    return u :: us

/-- Any times at which the stages can be left one after another. -/
inductive Journey : List (Stage τ) → τ → List τ → Prop
  | nil (t : τ) : Journey [] t []
  | cons {s : Stage τ} {rest : List (Stage τ)} {t u : τ} {us : List τ} :
      u ∈ s.leaves t → Journey rest u us → Journey (s :: rest) t (u :: us)

theorem departures_cons_eq_some {s : Stage τ} {rest : List (Stage τ)} :
    departures (s :: rest) t = some us ↔
      ∃ u l, s.next t = some u ∧ departures rest u = some l ∧ us = u :: l := by
  simp only [departures, Option.bind_eq_bind, Option.bind_eq_some_iff, Option.pure_def, Option.some.injEq]
  constructor
  · intro ⟨u, hu, l, hl, he⟩
    exact ⟨u, l, hu, hl, he.symm⟩
  · intro ⟨u, l, hu, hl, he⟩
    exact ⟨u, hu, l, hl, he.symm⟩

theorem departures_journey (h : departures stages t = some us) : Journey stages t us := by
  induction stages generalizing t us with
  | nil =>
    cases h
    exact .nil t
  | cons s rest ih =>
    obtain ⟨u, l, hu, hl, rfl⟩ := departures_cons_eq_some.mp h
    exact .cons (s.first hu).1 (ih hl)

theorem Journey.widen (h : Journey stages' t' us)
    (hstages : List.Forall₂ (fun s s' ↦ ∀ t, s'.leaves t ⊆ s.leaves t) stages stages') (hle : t ≤ t') :
    Journey stages t us := by
  induction hstages generalizing t t' us with
  | nil =>
    cases h
    exact .nil t
  | cons hs _ ih =>
    cases h with
    | cons hu hrest => exact .cons (Stage.waits _ hle (hs t' hu)) (ih hrest le_rfl)

theorem forall₂_leaves_refl (stages : List (Stage τ)) :
    List.Forall₂ (fun s s' ↦ ∀ t, s'.leaves t ⊆ s.leaves t) stages stages :=
  List.forall₂_same.mpr fun _ _ _ _ ↦ id

theorem Journey.earlier (h : Journey stages t' us) (hle : t ≤ t') : Journey stages t us :=
  h.widen (forall₂_leaves_refl stages) hle

/-- Whoever leaves every stage at once is nowhere later than anybody else. -/
theorem departures_le (h : departures stages t = some us) (h' : Journey stages t us') :
    List.Forall₂ (· ≤ ·) us us' := by
  induction stages generalizing t us us' with
  | nil =>
    cases h
    cases h'
    exact .nil
  | cons s rest ih =>
    obtain ⟨u, l, hu, hl, rfl⟩ := departures_cons_eq_some.mp h
    cases h' with
    | cons hu' hrest =>
      have hle := (s.first hu).2 hu'
      exact .cons hle (ih hl (hrest.earlier hle))

theorem exists_departures (h : Journey stages t us') : ∃ us, departures stages t = some us := by
  induction stages generalizing t us' with
  | nil => exact ⟨[], rfl⟩
  | cons s rest ih =>
    cases h with
    | cons hu' hrest =>
      cases hu : s.next t with
      | none => exact absurd hu' (s.blocked hu ▸ Set.notMem_empty _)
      | some u =>
        obtain ⟨l, hl⟩ := ih (hrest.earlier ((s.first hu).2 hu'))
        exact ⟨u :: l, departures_cons_eq_some.mpr ⟨u, l, hu, hl, rfl⟩⟩

theorem departures_eq_none_iff : departures stages t = none ↔ ∀ us, ¬Journey stages t us := by
  constructor
  · intro hnone us h
    obtain ⟨l, hl⟩ := exists_departures h
    exact absurd (hnone.symm.trans hl) (by simp)
  · intro h
    cases hd : departures stages t with
    | none => rfl
    | some us => exact absurd (departures_journey hd) (h us)

/-- Wider stages and an earlier start: what was possible stays possible and ends no later. -/
theorem departures_widen (h : departures stages' t' = some us')
    (hstages : List.Forall₂ (fun s s' ↦ ∀ t, s'.leaves t ⊆ s.leaves t) stages stages') (hle : t ≤ t') :
    ∃ us, departures stages t = some us ∧ List.Forall₂ (· ≤ ·) us us' := by
  have hjourney := (departures_journey h).widen hstages hle
  obtain ⟨us, hus⟩ := exists_departures hjourney
  exact ⟨us, hus, departures_le hus hjourney⟩

end TravelPlanner.EarliestTimes
