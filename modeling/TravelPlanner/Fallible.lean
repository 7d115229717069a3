import Mathlib.Data.List.Forall2
import Mathlib.Order.Basic

namespace TravelPlanner.Fallible

universe u

section Results

variable {ε : Type*} {α β : Type u} {x : Except ε α} {e : ε} {b : β}

theorem bind_eq_ok {f : α → Except ε β} : (x >>= f) = .ok b ↔ ∃ a, x = .ok a ∧ f a = .ok b := by
  constructor
  · intro h
    cases x with
    | error e => cases h
    | ok a => exact ⟨a, rfl, h⟩
  · intro h
    obtain ⟨a, rfl, hb⟩ := h
    exact hb

theorem map_eq_ok {g : α → β} : x.map g = .ok b ↔ ∃ a, x = .ok a ∧ g a = b := by
  cases x with
  | error e => simp [Except.map]
  | ok a => simp [Except.map]

theorem pure_eq_ok {a b : α} : (pure a : Except ε α) = .ok b ↔ a = b := by
  simp [pure, Except.pure]

theorem pure_ne_error (a : α) (e : ε) : (pure a : Except ε α) ≠ .error e := by
  simp [pure, Except.pure]

theorem bind_ne_error {f : α → Except ε β} (hx : x ≠ .error e) (hf : ∀ a, f a ≠ .error e) :
    (x >>= f) ≠ .error e := by
  cases x with
  | error e' =>
    intro h
    exact hx (congrArg Except.error (Except.error.inj h))
  | ok a => exact hf a

theorem map_ne_error {g : α → β} (hx : x ≠ .error e) : x.map g ≠ .error e := by
  cases x with
  | error e' =>
    intro h
    exact hx (congrArg Except.error (Except.error.inj h))
  | ok a => simp [Except.map]

end Results

section Lists

variable {α β γ : Type} {l : List α} {r : List β}

theorem forall₂_of_mapM {f : α → Option β} (h : l.mapM f = some r) : List.Forall₂ (fun a b ↦ f a = some b) l r := by
  induction l generalizing r with
  | nil =>
    obtain rfl : [] = r := Option.some.inj h
    exact .nil
  | cons a l ih =>
    rw [List.mapM_cons, Option.bind_eq_bind, Option.bind_eq_some_iff] at h
    obtain ⟨b, hb, h⟩ := h
    obtain ⟨r', hr, h⟩ := Option.bind_eq_some_iff.mp h
    obtain rfl := Option.some.inj h
    exact .cons hb (ih hr)

theorem mapM_of_forall {f : α → Option β} (h : ∀ a ∈ l, ∃ b, f a = some b) : ∃ r, l.mapM f = some r := by
  induction l with
  | nil => exact ⟨[], rfl⟩
  | cons a l ih =>
    obtain ⟨⟨b, hb⟩, hl⟩ := List.forall_mem_cons.mp h
    obtain ⟨r, hr⟩ := ih hl
    exact ⟨b :: r, by simp [List.mapM_cons, hb, hr]⟩

theorem mapM_all_iff {f : α → Option β} {P : β → Prop} :
    (∃ r, l.mapM f = some r ∧ ∀ b ∈ r, P b) ↔ ∀ a ∈ l, ∃ b, f a = some b ∧ P b := by
  induction l with
  | nil => simp
  | cons a l ih =>
    rw [List.forall_mem_cons, ← ih]
    simp only [List.mapM_cons, Option.bind_eq_bind, Option.bind_eq_some_iff, Option.pure_def, Option.some.injEq]
    constructor
    · rintro ⟨_, ⟨b, hb, r, hr, rfl⟩, hall⟩
      obtain ⟨hfirst, hrest⟩ := List.forall_mem_cons.mp hall
      exact ⟨⟨b, hb, hfirst⟩, r, hr, hrest⟩
    · rintro ⟨⟨b, hb, hfirst⟩, r, hr, hrest⟩
      exact ⟨b :: r, ⟨b, hb, r, hr, rfl⟩, List.forall_mem_cons.mpr ⟨hfirst, hrest⟩⟩

theorem mapM_map {f : α → β} {g : β → Option α} (h : ∀ a, g (f a) = some a) (l : List α) :
    (l.map f).mapM g = some l := by
  induction l with
  | nil => rfl
  | cons a l ih => simp [h, ih]

theorem mem_of_forall₂ {R : α → β → Prop} (h : List.Forall₂ R l r) {b : β} (hb : b ∈ r) : ∃ a ∈ l, R a b := by
  induction h with
  | nil => cases hb
  | cons hab _ ih =>
    rcases List.mem_cons.mp hb with rfl | hb
    · exact ⟨_, List.mem_cons_self, hab⟩
    · obtain ⟨a, ha, hR⟩ := ih hb
      exact ⟨a, List.mem_cons_of_mem _ ha, hR⟩

theorem map_eq_of_forall₂ {R : α → β → Prop} {f : α → γ} {g : β → γ} (hR : ∀ a b, R a b → f a = g b)
    (h : List.Forall₂ R l r) : l.map f = r.map g := by
  induction h with
  | nil => rfl
  | cons hab _ ih => rw [List.map_cons, List.map_cons, hR _ _ hab, ih]

theorem forall₂_comp {R : α → β → Prop} {S : β → γ → Prop} {T : α → γ → Prop}
    (hT : ∀ a b c, R a b → S b c → T a c) {k : List γ} (h₁ : List.Forall₂ R l r) (h₂ : List.Forall₂ S r k) :
    List.Forall₂ T l k := by
  induction h₁ generalizing k with
  | nil =>
    cases h₂
    exact .nil
  | cons hab _ ih =>
    cases h₂ with
    | cons hbc hrest => exact .cons (hT _ _ _ hab hbc) (ih hrest)

theorem foldlM_congr {S : Type} {f g : S → α → Option S} (h : ∀ a ∈ l, ∀ s, f s a = g s a) (s : S) :
    l.foldlM f s = l.foldlM g s := by
  induction l generalizing s with
  | nil => rfl
  | cons a l ih =>
    rw [List.foldlM_cons, List.foldlM_cons, h a List.mem_cons_self]
    exact congrArg _ (funext fun s' ↦ ih (fun b hb ↦ h b (List.mem_cons_of_mem _ hb)) s')

/-- Elements that a run could do without: in a run that ends well, the step of one leaves a
view of the state as it was. The others then lead from view to view. -/
theorem foldlM_filter_view {S : Type} {step : S → α → Option S} {view : S → S} {Good : S → Prop} {p : α → Bool}
    {s s' : S} (hback : ∀ a ∈ l, ∀ s s', step s a = some s' → Good s' → Good s)
    (hkept : ∀ a ∈ l, p a = true → ∀ s s', step s a = some s' → step (view s) a = some (view s'))
    (hdropped : ∀ a ∈ l, p a = false → ∀ s s', step s a = some s' → Good s' → view s' = view s)
    (h : l.foldlM step s = some s') (hgood : Good s') :
    Good s ∧ (l.filter p).foldlM step (view s) = some (view s') := by
  induction l generalizing s with
  | nil =>
    obtain rfl : s = s' := Option.some.inj h
    exact ⟨hgood, rfl⟩
  | cons a l ih =>
    rw [List.foldlM_cons, Option.bind_eq_bind, Option.bind_eq_some_iff] at h
    obtain ⟨s₁, hfirst, hrest⟩ := h
    obtain ⟨hgood₁, hrun⟩ := ih (fun b hb ↦ hback b (List.mem_cons_of_mem _ hb))
      (fun b hb ↦ hkept b (List.mem_cons_of_mem _ hb)) (fun b hb ↦ hdropped b (List.mem_cons_of_mem _ hb)) hrest
    refine ⟨hback a List.mem_cons_self s s₁ hfirst hgood₁, ?_⟩
    cases hp : p a with
    | true =>
      rw [List.filter_cons_of_pos hp, List.foldlM_cons, hkept a List.mem_cons_self hp s s₁ hfirst]
      exact hrun
    | false =>
      rw [List.filter_cons_of_neg (by simp [hp]), ← hdropped a List.mem_cons_self hp s s₁ hfirst hgood₁]
      exact hrun

end Lists

end TravelPlanner.Fallible
