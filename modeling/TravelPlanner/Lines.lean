import Mathlib.Data.List.Basic

namespace TravelPlanner.Lines

section Trimming

def trimmed (c : Char) : Bool :=
  (9 ≤ c.toNat && c.toNat ≤ 13) || c.toNat = 0x20 || c.toNat = 0xA0 || c.toNat = 0x1680 ||
    (0x2000 ≤ c.toNat && c.toNat ≤ 0x200A) || c.toNat = 0x2028 || c.toNat = 0x2029 || c.toNat = 0x202F ||
    c.toNat = 0x205F || c.toNat = 0x3000 || c.toNat = 0xFEFF

def trim (s : List Char) : List Char := ((s.dropWhile trimmed).reverse.dropWhile trimmed).reverse

theorem trim_braces (s : List Char) : trim ('{' :: (s ++ ['}'])) = '{' :: (s ++ ['}']) := by
  have hopen : trimmed '{' = false := by decide
  have hclose : trimmed '}' = false := by decide
  rw [trim, List.dropWhile_cons_of_neg (by simp [hopen]), List.reverse_cons, List.reverse_append,
    List.reverse_singleton, List.cons_append, List.cons_append, List.dropWhile_cons_of_neg (by simp [hclose])]
  simp

end Trimming

variable {α : Type*} [DecidableEq α]

theorem exists_lines (sep : α) (text : List α) : ∃ (lines : List (List α)) (rest : List α),
    (∀ l ∈ lines, sep ∉ l) ∧ sep ∉ rest ∧ text = lines.flatMap (· ++ [sep]) ++ rest := by
  induction text with
  | nil => exact ⟨[], [], by simp, by simp, rfl⟩
  | cons a text ih =>
    obtain ⟨lines, rest, hlines, hrest, rfl⟩ := ih
    by_cases ha : a = sep
    · exact ⟨[] :: lines, rest, List.forall_mem_cons.mpr ⟨by simp, hlines⟩, hrest, by simp [ha]⟩
    · cases lines with
      | nil => exact ⟨[], a :: rest, by simp, by simp [Ne.symm ha, hrest], rfl⟩
      | cons l lines =>
        obtain ⟨hl, hlines⟩ := List.forall_mem_cons.mp hlines
        exact ⟨(a :: l) :: lines, rest, List.forall_mem_cons.mpr ⟨by simp [Ne.symm ha, hl], hlines⟩, hrest, rfl⟩

theorem splitOn_lines {sep : α} {lines : List (List α)} (hlines : ∀ l ∈ lines, sep ∉ l) (rest : List α) :
    (lines.flatMap (· ++ [sep]) ++ rest).splitOn sep = lines ++ rest.splitOn sep := by
  induction lines with
  | nil => rfl
  | cons l lines ih =>
    obtain ⟨hl, hlines⟩ := List.forall_mem_cons.mp hlines
    rw [List.flatMap_cons, List.append_assoc, List.append_assoc, List.singleton_append,
      List.splitOn_append_cons_self_of_not_mem hl, ih hlines, List.cons_append]

/-- Splitting may stop after any part of a text, and go on later from the line that
part leaves open. -/
theorem splitOn_append (sep : α) (a b : List α) :
    ∃ lines rest, a.splitOn sep = lines ++ [rest] ∧ sep ∉ rest ∧
      (a ++ b).splitOn sep = lines ++ (rest ++ b).splitOn sep := by
  obtain ⟨lines, rest, hlines, hrest, rfl⟩ := exists_lines sep a
  refine ⟨lines, rest, ?_, hrest, ?_⟩
  · rw [splitOn_lines hlines, List.splitOn_eq_singleton hrest]
  · rw [List.append_assoc, splitOn_lines hlines]

/-- The ended lines of a part of a text are the first of the whole text. -/
theorem splitOn_beginning (sep : α) {a b : List α} (h : a <+: b) :
    (a.splitOn sep).dropLast <+: (b.splitOn sep).dropLast := by
  obtain ⟨c, rfl⟩ := h
  obtain ⟨lines, rest, hsplit, -, happend⟩ := splitOn_append sep a c
  rw [hsplit, happend, List.dropLast_concat, List.dropLast_append_of_ne_nil (List.splitOn_ne_nil _ _)]
  exact List.prefix_append _ _

end TravelPlanner.Lines
