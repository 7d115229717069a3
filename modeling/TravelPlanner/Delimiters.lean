import Mathlib.Data.List.Infix

namespace TravelPlanner.Delimiters

variable {α : Type*} {a a' b b' : List α} {x y : α}

theorem first_inj (ha : x ∉ a) (ha' : x ∉ a') (h : a ++ x :: b = a' ++ x :: b') : a = a' ∧ b = b' := by
  induction a generalizing a' with
  | nil =>
    cases a' with
    | nil => exact ⟨rfl, (List.cons.inj h).2⟩
    | cons z a' => exact absurd ((List.cons.inj h).1 ▸ List.mem_cons_self) ha'
  | cons z a ih =>
    cases a' with
    | nil => exact absurd ((List.cons.inj h).1 ▸ List.mem_cons_self) ha
    | cons z' a' =>
      obtain ⟨hhead, htail⟩ := List.cons.inj h
      obtain ⟨hrest, hb⟩ := ih (List.not_mem_of_not_mem_cons ha) (List.not_mem_of_not_mem_cons ha') htail
      exact ⟨by rw [hhead, hrest], hb⟩

theorem last_inj (hb : x ∉ b) (hb' : x ∉ b') (h : a ++ x :: b = a' ++ x :: b') : a = a' ∧ b = b' := by
  have hreverse : b.reverse ++ x :: a.reverse = b'.reverse ++ x :: a'.reverse := by
    simpa using congrArg List.reverse h
  obtain ⟨hback, hfront⟩ := first_inj (List.mem_reverse.not.mpr hb) (List.mem_reverse.not.mpr hb') hreverse
  exact ⟨List.reverse_injective hfront, List.reverse_injective hback⟩

theorem firstPair_inj (hxy : x ≠ y) (ha : ¬[x, y] <:+: a) (ha' : ¬[x, y] <:+: a')
    (h : a ++ x :: y :: b = a' ++ x :: y :: b') : a = a' ∧ b = b' := by
  have hstop : ∀ {z : α} {c d d' : List α}, x :: y :: d = z :: c ++ x :: y :: d' → [x, y] <:+: z :: c := by
    intro z c d d' h
    cases c with
    | nil => exact absurd (List.cons.inj (List.cons.inj h).2).1.symm hxy
    | cons w c =>
      have hhead := (List.cons.inj h).1
      have hnext := (List.cons.inj (List.cons.inj h).2).1
      exact ⟨[], c, by rw [hhead, hnext]; rfl⟩
  induction a generalizing a' with
  | nil =>
    cases a' with
    | nil => exact ⟨rfl, (List.cons.inj (List.cons.inj h).2).2⟩
    | cons z a' => exact absurd (hstop h) ha'
  | cons z a ih =>
    cases a' with
    | nil => exact absurd (hstop h.symm) ha
    | cons z' a' =>
      obtain ⟨hhead, htail⟩ := List.cons.inj h
      obtain ⟨hrest, hb⟩ := ih (fun hin ↦ ha (hin.trans (List.suffix_cons z a).isInfix))
        (fun hin ↦ ha' (hin.trans (List.suffix_cons z' a').isInfix)) htail
      exact ⟨by rw [hhead, hrest], hb⟩

theorem pair_of_append (hy : y ∉ b) (h : [x, y] <:+: a ++ b) : [x, y] <:+: a := by
  obtain ⟨s, r, h⟩ := h
  rcases List.append_eq_append_iff.mp h with ⟨t, rfl, -⟩ | ⟨t, ht, hb⟩
  · exact ⟨s, t, rfl⟩
  · rcases List.eq_nil_or_concat t with rfl | ⟨t, z, rfl⟩
    · exact ⟨s, [], by rw [List.append_nil, ht, List.append_nil]⟩
    · have hlast : s ++ [x] ++ [y] = a ++ t ++ [z] := by simpa using ht
      obtain ⟨-, hz⟩ := List.append_inj' hlast rfl
      obtain rfl := (List.cons.inj hz).1
      exact absurd (by simp [hb]) hy

theorem joined_inj (hxy : x ≠ y) {l l' : List (List α)} (hl : ∀ p ∈ l, p ≠ [] ∧ ¬[x, y] <:+: p)
    (hl' : ∀ p ∈ l', p ≠ [] ∧ ¬[x, y] <:+: p) (h : [x, y].intercalate l = [x, y].intercalate l') : l = l' := by
  have hnonempty : ∀ {p : List α} {r : List (List α)}, p ≠ [] → [x, y].intercalate (p :: r) ≠ [] := by
    intro p r hp
    cases r with
    | nil => simpa using hp
    | cons q r => simp [List.intercalate_cons_cons, hp]
  have hlone : ∀ {p q q' : List α} {r : List (List α)}, ¬[x, y] <:+: p →
      [x, y].intercalate [p] ≠ [x, y].intercalate (q :: q' :: r) := by
    intro p q q' r hp heq
    rw [List.intercalate_singleton, List.intercalate_cons_cons] at heq
    exact hp ⟨q, [x, y].intercalate (q' :: r), heq.symm⟩
  induction l generalizing l' with
  | nil =>
    cases l' with
    | nil => rfl
    | cons p l' => exact absurd h.symm (hnonempty (hl' p List.mem_cons_self).1)
  | cons p l ih =>
    obtain ⟨⟨hp, hpfree⟩, hrest⟩ := List.forall_mem_cons.mp hl
    cases l' with
    | nil => exact absurd h (hnonempty hp)
    | cons p' l' =>
      obtain ⟨⟨hp', hpfree'⟩, hrest'⟩ := List.forall_mem_cons.mp hl'
      cases l with
      | nil =>
        cases l' with
        | nil => simpa using h
        | cons q' l' => exact absurd h (hlone hpfree)
      | cons q l =>
        cases l' with
        | nil => exact absurd h.symm (hlone hpfree')
        | cons q' l' =>
          rw [List.intercalate_cons_cons, List.intercalate_cons_cons] at h
          simp only [List.append_assoc, List.cons_append, List.nil_append] at h
          obtain ⟨rfl, htail⟩ := firstPair_inj hxy hpfree hpfree' h
          rw [ih hrest hrest' htail]

/-- A part that may be missing, told by what only it is. -/
theorem optional_inj {β : Type*} {p : β → Prop} {o o' : Option β} {r r' : List β} (ho : ∀ z ∈ o, p z)
    (ho' : ∀ z ∈ o', p z) (hr : ∀ z ∈ r, ¬p z) (hr' : ∀ z ∈ r', ¬p z) (h : o.toList ++ r = o'.toList ++ r') :
    o = o' ∧ r = r' := by
  cases o with
  | none =>
    cases o' with
    | none => exact ⟨rfl, h⟩
    | some z =>
      have hmem : z ∈ r := by
        rw [Option.toList_none, List.nil_append] at h
        exact h ▸ List.mem_cons_self
      exact absurd (ho' z rfl) (hr z hmem)
  | some z =>
    cases o' with
    | none =>
      have hmem : z ∈ r' := by
        rw [Option.toList_none, List.nil_append] at h
        exact h ▸ List.mem_cons_self
      exact absurd (ho z rfl) (hr' z hmem)
    | some z' =>
      obtain ⟨rfl, htail⟩ := List.cons.inj h
      exact ⟨rfl, htail⟩

/-- Texts that open alike have one opening, where no opening begins another. -/
theorem opening_inj {K : Type*} {opening : K → List α} (hfree : ∀ k k', opening k <+: opening k' → k = k') {k k' : K}
    (h : opening k ++ b = opening k' ++ b') : k = k' ∧ b = b' := by
  have hsame : k = k' := by
    rcases List.prefix_or_prefix_of_prefix (List.prefix_append (opening k) b)
        (h ▸ List.prefix_append (opening k') b') with hle | hge
    · exact hfree k k' hle
    · exact (hfree k' k hge).symm
  subst hsame
  exact ⟨rfl, List.append_cancel_left h⟩

end TravelPlanner.Delimiters
