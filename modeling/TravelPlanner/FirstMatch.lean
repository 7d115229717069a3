import Mathlib.Data.List.Nodup
import Mathlib.Data.List.Sort

namespace TravelPlanner.FirstMatch

variable {α β : Type} {p q : α → Bool} {f : α → α} {l : List α} {a : α}

def updateFirst (p : α → Bool) (f : α → α) : List α → List α
  | [] => []
  | a :: l => if p a then f a :: l else a :: updateFirst p f l

theorem filter_updateFirst (hq : ∀ a, p a = true → q a = false ∧ q (f a) = false) (l : List α) :
    (updateFirst p f l).filter q = l.filter q := by
  induction l with
  | nil => rfl
  | cons a l ih =>
    rw [updateFirst]
    split_ifs with ha
    · obtain ⟨hold, hnew⟩ := hq a ha
      rw [List.filter_cons_of_neg (by simp [hnew]), List.filter_cons_of_neg (by simp [hold])]
    · rw [List.filter_cons, List.filter_cons, ih]

theorem map_modify {g : α → β} (hf : ∀ a, g (f a) = g a) (l : List α) (i : ℕ) : (l.modify i f).map g = l.map g := by
  induction l generalizing i with
  | nil => rw [List.modify_nil]
  | cons a l ih =>
    cases i with
    | zero => rw [List.modify_zero_cons, List.map_cons, List.map_cons, hf]
    | succ i => rw [List.modify_succ_cons, List.map_cons, List.map_cons, ih]

/-- Whoever looks past a key does not miss the elements under it. -/
theorem filter_filter_ne [DecidableEq β] {g : α → β} {b : β} {q : β → Bool} (hq : q b = false) (l : List α) :
    ((l.filter fun a ↦ g a ≠ b).filter fun a ↦ q (g a)) = l.filter fun a ↦ q (g a) := by
  rw [List.filter_filter]
  refine List.filter_congr fun a _ ↦ ?_
  by_cases ha : g a = b
  · simp [ha, hq]
  · simp [ha]

theorem find?_filter_ne [DecidableEq β] {g : α → β} {b c : β} (h : b ≠ c) (l : List α) :
    (l.filter fun a ↦ g a ≠ b).find? (fun a ↦ g a = c) = l.find? fun a ↦ g a = c := by
  have hq : decide (b = c) = false := decide_eq_false h
  rw [← List.head?_filter, ← List.head?_filter, filter_filter_ne (q := fun x ↦ decide (x = c)) hq]

theorem updateFirst_eq_map (h : l.Pairwise fun a b ↦ p a = true → p b = false) :
    updateFirst p f l = l.map fun a ↦ if p a then f a else a := by
  induction l with
  | nil => rfl
  | cons a l ih =>
    obtain ⟨hfirst, hrest⟩ := List.pairwise_cons.mp h
    rw [updateFirst, List.map_cons]
    split_ifs with ha
    · have hsame : (l.map fun b ↦ if p b then f b else b) = l := by
        rw [List.map_congr_left fun b hb ↦ if_neg (by simp [hfirst b hb ha]), List.map_id']
      rw [hsame]
    · rw [ih hrest]

theorem find?_updateFirst (hp : ∀ a, p a = true → p (f a) = true) (l : List α) :
    (updateFirst p f l).find? p = (l.find? p).map f := by
  induction l with
  | nil => rfl
  | cons a l ih =>
    rw [updateFirst]
    split_ifs with ha
    · rw [List.find?_cons_of_pos (hp a ha), List.find?_cons_of_pos ha, Option.map_some]
    · rw [List.find?_cons_of_neg ha, List.find?_cons_of_neg ha, ih]

theorem find?_updateFirst_of_ne (hq : ∀ a, p a = true → q a = false ∧ q (f a) = false) (l : List α) :
    (updateFirst p f l).find? q = l.find? q := by
  rw [← List.head?_filter, ← List.head?_filter, filter_updateFirst hq]

theorem modify_findIdx? {i : ℕ} (h : l.findIdx? p = some i) : l.modify i f = updateFirst p f l := by
  induction l generalizing i with
  | nil => cases h
  | cons a l ih =>
    rw [List.findIdx?_cons] at h
    rw [updateFirst]
    split_ifs at h ⊢ with ha
    · obtain rfl := Option.some.inj h
      exact List.modify_zero_cons f a l
    · obtain ⟨j, hj, rfl⟩ := Option.map_eq_some_iff.mp h
      rw [List.modify_succ_cons, ih hj]

/-- An element that is filtered out leaves no trace, and another one keeps its place. -/
theorem filter_orderedInsert {r : α → α → Prop} [DecidableRel r] [IsTrans α r] (hl : l.Pairwise r) (a : α) :
    (l.orderedInsert r a).filter p = if p a then (l.filter p).orderedInsert r a else l.filter p := by
  induction l with
  | nil => cases hp : p a <;> simp [hp]
  | cons b l ih =>
    obtain ⟨hfirst, hrest⟩ := List.pairwise_cons.mp hl
    by_cases hab : r a b
    · rw [List.orderedInsert_cons_of_le r l hab, List.filter_cons]
      split_ifs with ha
      · -- what stands behind `b` stands behind the new element as well
        have hbehind : ∀ c ∈ (b :: l).filter p, r a c := by
          intro c hc
          rcases List.mem_cons.mp (List.mem_filter.mp hc).1 with rfl | hc
          · exact hab
          · exact IsTrans.trans a b c hab (hfirst c hc)
        cases hrest : (b :: l).filter p with
        | nil => rfl
        | cons c rest => rw [List.orderedInsert_cons_of_le r rest (hbehind c (hrest ▸ List.mem_cons_self))]
      · rfl
    · rw [List.orderedInsert_of_not_le r l hab, List.filter_cons, ih hrest, List.filter_cons]
      split_ifs with hb ha
      · rw [List.orderedInsert_of_not_le r _ hab]
      · rfl
      · rfl
      · rfl

/-- What a filter leaves of a stable sort is the stable sort of what it leaves. -/
theorem filter_insertionSort {r : α → α → Prop} [DecidableRel r] [Std.Total r] [IsTrans α r] (l : List α) :
    (l.insertionSort r).filter p = (l.filter p).insertionSort r := by
  induction l with
  | nil => rfl
  | cons a l ih =>
    rw [List.insertionSort_cons, filter_orderedInsert (List.pairwise_insertionSort r l), ih, List.filter_cons]
    split_ifs
    · rw [List.insertionSort_cons]
    · rfl

end TravelPlanner.FirstMatch
