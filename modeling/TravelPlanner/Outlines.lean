import Mathlib.Data.List.Forall2
import TravelPlanner.Lines

namespace TravelPlanner.Outlines

open Lines

variable {α β : Type*}

/-- A part of a text: a fixed one, or what was put into a field. -/
inductive Piece (α : Type*)
  | fixed (s : List α)
  | field (s : List α)

def Piece.text : Piece α → List α
  | .fixed s => s
  | .field s => s

def text (ps : List (Piece α)) : List α := ps.flatMap Piece.text

@[simp] theorem text_nil : text ([] : List (Piece α)) = [] := rfl

@[simp] theorem text_cons (p : Piece α) (ps : List (Piece α)) : text (p :: ps) = p.text ++ text ps := rfl

@[simp] theorem text_append (ps qs : List (Piece α)) : text (ps ++ qs) = text ps ++ text qs := List.flatMap_append

@[simp] theorem text_fixed (s : List α) : (Piece.fixed s).text = s := rfl

@[simp] theorem text_field (s : List α) : (Piece.field s).text = s := rfl

/-- Lines after lines: the last line of the first goes on with the first of the second. -/
def glue : List (List β) → List (List β) → List (List β)
  | [], r => r
  | [a], [] => [a]
  | [a], b :: r => (a ++ b) :: r
  | a :: a' :: l, r => a :: glue (a' :: l) r

section Gluing

variable {l l' r r' x : List (List β)} {a b : List β}

theorem glue_cons_cons (a a' : List β) (l r : List (List β)) : glue (a :: a' :: l) r = a :: glue (a' :: l) r := rfl

theorem glue_append (l : List (List β)) (a b : List β) (r : List (List β)) :
    glue (l ++ [a]) (b :: r) = l ++ (a ++ b) :: r := by
  induction l with
  | nil => rfl
  | cons a' l ih =>
    cases l with
    | nil => rfl
    | cons a'' l =>
      rw [List.cons_append, List.cons_append, glue_cons_cons, ← List.cons_append, ih]
      rfl

theorem glue_eq_nil : glue l r = [] ↔ l = [] ∧ r = [] := by
  match l, r with
  | [], r => simp [glue]
  | [a], [] => simp [glue]
  | [a], b :: r => simp [glue]
  | a :: a' :: l, r => simp [glue]

theorem glue_new (hl : l ≠ []) (r : List (List β)) : glue l ([] :: r) = l ++ r := by
  obtain ⟨l, a, rfl⟩ := (List.eq_nil_or_concat l).resolve_left hl
  rw [List.concat_eq_append, glue_append, List.append_nil, List.append_assoc, List.singleton_append]

theorem glue_assoc (hl' : l' ≠ []) (hr : r ≠ []) : glue (glue l l') r = glue l (glue l' r) := by
  obtain ⟨c, r, rfl⟩ := List.exists_cons_of_ne_nil hr
  rcases List.eq_nil_or_concat l with rfl | ⟨l, a, rfl⟩
  · rfl
  rcases List.eq_nil_or_concat l' with rfl | ⟨l', b, rfl⟩
  · exact absurd rfl hl'
  rw [List.concat_eq_append, List.concat_eq_append, glue_append]
  cases l' with
  | nil =>
    rw [List.nil_append, glue_append, glue_append, List.nil_append, List.append_assoc]
    exact (glue_append l a (b ++ c) r).symm
  | cons b' l' =>
    have hmiddle : l ++ (a ++ b') :: (l' ++ [b]) = (l ++ (a ++ b') :: l') ++ [b] := by simp
    rw [List.cons_append, List.cons_append, glue_append, glue_append, hmiddle, glue_append, List.append_assoc,
      List.cons_append]

theorem append_glue (hr : r ≠ []) (x : List (List β)) : glue l r ++ x = glue l (r ++ x) := by
  obtain ⟨b, r, rfl⟩ := List.exists_cons_of_ne_nil hr
  rcases List.eq_nil_or_concat l with rfl | ⟨l, a, rfl⟩
  · rfl
  · rw [List.concat_eq_append, List.cons_append, glue_append, glue_append, List.append_assoc, List.cons_append]

theorem glue_left_inj (hr : r ≠ []) (hr' : r' ≠ []) (h : glue l r = glue l r') : r = r' := by
  obtain ⟨b, r, rfl⟩ := List.exists_cons_of_ne_nil hr
  obtain ⟨b', r', rfl⟩ := List.exists_cons_of_ne_nil hr'
  rcases List.eq_nil_or_concat l with rfl | ⟨l, a, rfl⟩
  · exact h
  · rw [List.concat_eq_append, glue_append, glue_append] at h
    obtain ⟨hhead, htail⟩ := List.cons.inj (List.append_cancel_left h)
    rw [List.append_cancel_left hhead, htail]

end Gluing

section Filling

variable {o o' : List (Option α)} {s s' : List α} {l l' : List (List (Option α))} {m m' : List (List α)}

/-- A line that has the fixed text of an outline, with anything in its holes. -/
inductive Fills : List (Option α) → List α → Prop
  | nil : Fills [] []
  | fixed (a : α) {o : List (Option α)} {s : List α} : Fills o s → Fills (some a :: o) (a :: s)
  | hole (t : List α) {o : List (Option α)} {s : List α} : Fills o s → Fills (none :: o) (t ++ s)

theorem Fills.append (h : Fills o s) (h' : Fills o' s') : Fills (o ++ o') (s ++ s') := by
  induction h with
  | nil => exact h'
  | fixed a _ ih => exact .fixed a ih
  | hole t _ ih =>
    rw [List.append_assoc]
    exact .hole t ih

theorem fills_fixed (s : List α) : Fills (s.map some) s := by
  induction s with
  | nil => exact .nil
  | cons a s ih => exact .fixed a ih

theorem fills_hole (s : List α) : Fills [none] s := by
  have h := Fills.hole s .nil
  rwa [List.append_nil] at h

theorem fills_glue (h : List.Forall₂ Fills l m) (h' : List.Forall₂ Fills l' m') :
    List.Forall₂ Fills (glue l l') (glue m m') := by
  induction h with
  | nil => exact h'
  | cons hline hrest ih =>
    cases hrest with
    | nil =>
      cases h' with
      | nil => exact .cons hline .nil
      | cons hline' hrest' => exact .cons (hline.append hline') hrest'
    | cons hnext hrest => exact .cons hline ih

end Filling

section Joining

variable {sep : α} {c : List (Option α)} {r r' : List (List (Option α))}

def joined (sep : α) (ls : List (List (Piece α))) : List (Piece α) := [Piece.fixed [sep]].intercalate ls

theorem joined_cons_cons (l l' : List (Piece α)) (ls : List (List (Piece α))) :
    joined sep (l :: l' :: ls) = l ++ Piece.fixed [sep] :: joined sep (l' :: ls) := by
  rw [joined, List.intercalate_cons_cons, List.append_assoc, List.singleton_append, joined]

theorem text_joined (ls : List (List (Piece α))) : text (joined sep ls) = [sep].intercalate (ls.map text) := by
  induction ls with
  | nil => rfl
  | cons l ls ih =>
    cases ls with
    | nil => simp [joined]
    | cons l' ls =>
      rw [joined_cons_cons, List.map_cons, List.map_cons, List.intercalate_cons_cons, ← List.map_cons, ← ih]
      simp

theorem holes_inj (hc : c ≠ []) {n n' : ℕ}
    (h : List.replicate n [none] ++ (none :: c) :: r = List.replicate n' [none] ++ (none :: c) :: r') :
    n = n' ∧ r = r' := by
  induction n generalizing n' with
  | zero =>
    cases n' with
    | zero => exact ⟨rfl, (List.cons.inj h).2⟩
    | succ n' => exact absurd (List.cons.inj (List.cons.inj h).1).2 hc
  | succ n ih =>
    cases n' with
    | zero => exact absurd (List.cons.inj (List.cons.inj h).1).2.symm hc
    | succ n' =>
      obtain ⟨hn, hr⟩ := ih (List.cons.inj h).2
      exact ⟨by rw [hn], hr⟩

def Piece.mask : Piece α → List (Option α)
  | .fixed s => s.map some
  | .field _ => [none]

end Joining

variable [DecidableEq α] {sep : α}

section Outlining

/-- The lines of a piece, with every field's content left out. -/
def Piece.outline (sep : α) : Piece α → List (List (Option α))
  | .fixed s => (s.splitOn sep).map (List.map some)
  | .field s => (s.splitOn sep).map fun _ ↦ [none]

def outline (sep : α) (ps : List (Piece α)) : List (List (Option α)) :=
  ps.foldr (fun p r ↦ glue (p.outline sep) r) [[]]

variable {p p' : Piece α} {ps ps' qs : List (Piece α)}

theorem splitOn_glue (a b : List α) : (a ++ b).splitOn sep = glue (a.splitOn sep) (b.splitOn sep) := by
  obtain ⟨lines, rest, hsplit, hrest, happend⟩ := splitOn_append sep a b
  obtain ⟨c, r, hb⟩ := List.exists_cons_of_ne_nil (List.splitOn_ne_nil sep b)
  have hlast : (rest ++ b).splitOn sep = (rest ++ c) :: r := by
    clear hsplit happend
    induction rest with
    | nil => exact hb
    | cons x rest ih =>
      have hx : ¬(x == sep) = true := by
        rw [beq_iff_eq]
        rintro rfl
        exact hrest List.mem_cons_self
      rw [List.cons_append, List.splitOn_cons_eq_if_modifyHead, if_neg hx, ih (List.not_mem_of_not_mem_cons hrest)]
      rfl
  rw [happend, hsplit, hb, glue_append, hlast]

theorem piece_outline_ne_nil (p : Piece α) : p.outline sep ≠ [] := by
  cases p with
  | fixed s => simp [Piece.outline, List.splitOn_ne_nil]
  | field s => simp [Piece.outline, List.splitOn_ne_nil]

theorem outline_ne_nil (ps : List (Piece α)) : outline sep ps ≠ [] := by
  cases ps with
  | nil => exact List.cons_ne_nil _ _
  | cons p ps => exact fun h ↦ piece_outline_ne_nil p (glue_eq_nil.mp h).1

theorem outline_append (ps qs : List (Piece α)) :
    outline sep (ps ++ qs) = glue (outline sep ps) (outline sep qs) := by
  induction ps with
  | nil =>
    obtain ⟨b, r, hqs⟩ := List.exists_cons_of_ne_nil (outline_ne_nil qs)
    rw [List.nil_append, hqs]
    rfl
  | cons p ps ih =>
    have hcons : ∀ ps, outline sep (p :: ps) = glue (p.outline sep) (outline sep ps) := fun _ ↦ rfl
    rw [List.cons_append, hcons, hcons, ih, glue_assoc (outline_ne_nil _) (outline_ne_nil _)]

theorem length_splitOn (s : List α) : (s.splitOn sep).length = s.count sep + 1 := by
  induction s with
  | nil => rfl
  | cons x s ih =>
    rw [List.splitOn_cons_eq_if_modifyHead, List.count_cons]
    split_ifs
    · rw [List.length_cons, ih]
    · rw [List.length_modifyHead, ih, Nat.add_zero]

theorem field_outline (s : List α) : (Piece.field s).outline sep = List.replicate (s.count sep + 1) [none] := by
  rw [Piece.outline, List.map_const', length_splitOn]

def Piece.Alike (sep : α) : Piece α → Piece α → Prop
  | .fixed s, .fixed s' => s = s'
  | .field s, .field s' => s.count sep = s'.count sep
  | _, _ => False

theorem piece_outline_congr (h : p.Alike sep p') : p.outline sep = p'.outline sep := by
  cases p with
  | fixed s =>
    cases p' with
    | fixed s' => rw [show s = s' from h]
    | field s' => cases h
  | field s =>
    cases p' with
    | fixed s' => cases h
    | field s' => rw [field_outline, field_outline, show s.count sep = s'.count sep from h]

theorem outline_congr (h : List.Forall₂ (Piece.Alike sep) ps ps') : outline sep ps = outline sep ps' := by
  induction h with
  | nil => rfl
  | cons hp _ ih => exact congrArg₂ glue (piece_outline_congr hp) ih

/-- The lines of a text fill its outline, one by one. -/
theorem fills_outline (ps : List (Piece α)) : List.Forall₂ Fills (outline sep ps) ((text ps).splitOn sep) := by
  induction ps with
  | nil => exact .cons .nil .nil
  | cons p ps ih =>
    have hpiece : List.Forall₂ Fills (p.outline sep) (p.text.splitOn sep) := by
      cases p with
      | fixed s => exact List.forall₂_map_left_iff.mpr (List.forall₂_same.mpr fun line _ ↦ fills_fixed line)
      | field s => exact List.forall₂_map_left_iff.mpr (List.forall₂_same.mpr fun line _ ↦ fills_hole line)
    rw [text_cons, splitOn_glue]
    exact fills_glue hpiece ih

end Outlining

section Lines

variable {ls : List (List (Piece α))} {a b b' ps : List (Piece α)} {c : List (Option α)}
  {r r' x x' : List (List (Option α))}

theorem outline_joined (hls : ls ≠ []) : outline sep (joined sep ls) = ls.flatMap (outline sep) := by
  induction ls with
  | nil => exact absurd rfl hls
  | cons l ls ih =>
    cases ls with
    | nil => simp [joined]
    | cons l' ls =>
      have hbreak : (Piece.fixed [sep]).outline sep = [[], []] := by
        rw [Piece.outline, ← List.nil_append [sep], List.splitOn_append_cons_self]
        rfl
      have hopen : outline sep (Piece.fixed [sep] :: joined sep (l' :: ls)) =
          [] :: outline sep (joined sep (l' :: ls)) := by
        obtain ⟨c, r, hrest⟩ := List.exists_cons_of_ne_nil (outline_ne_nil (joined sep (l' :: ls)))
        rw [hrest, outline, List.foldr_cons, hbreak, ← outline, hrest]
        rfl
      rw [joined_cons_cons, outline_append, hopen, glue_new (outline_ne_nil l), ih (List.cons_ne_nil _ _)]
      rfl

theorem outline_clean (h : ∀ p ∈ ps, sep ∉ p.text) : outline sep ps = [ps.flatMap Piece.mask] := by
  induction ps with
  | nil => rfl
  | cons p ps ih =>
    obtain ⟨hp, hps⟩ := List.forall_mem_cons.mp h
    have hpiece : p.outline sep = [p.mask] := by
      cases p with
      | fixed s =>
        have hs : sep ∉ s := hp
        rw [Piece.outline, List.splitOn_eq_singleton hs, List.map_singleton, Piece.mask]
      | field s =>
        have hs : sep ∉ s := hp
        rw [Piece.outline, List.splitOn_eq_singleton hs, List.map_singleton, Piece.mask]
    rw [outline, List.foldr_cons, ← outline, ih hps, hpiece]
    rfl

/-- A field that text follows shows in the outline how many line breaks it has. -/
theorem outline_field_inj {s s' : List α} (hb : outline sep b = c :: r) (hb' : outline sep b' = c :: r) (hc : c ≠ [])
    (h : outline sep (a ++ Piece.field s :: b) ++ x = outline sep (a ++ Piece.field s' :: b') ++ x') :
    s.count sep = s'.count sep ∧ x = x' := by
  have hline : ∀ (s : List α) (b : List (Piece α)) (x : List (List (Option α))), outline sep b = c :: r →
      outline sep (a ++ Piece.field s :: b) ++ x =
        glue (outline sep a) (List.replicate (s.count sep) [none] ++ (none :: c) :: (r ++ x)) := by
    intro s b x hb
    have hholes : outline sep (Piece.field s :: b) = List.replicate (s.count sep) [none] ++ (none :: c) :: r := by
      rw [outline, List.foldr_cons, ← outline, hb, field_outline, List.replicate_succ', glue_append]
      rfl
    rw [outline_append, hholes, append_glue (by simp), List.append_assoc, List.cons_append]
  rw [hline s b x hb, hline s' b' x' hb'] at h
  obtain ⟨hcount, hrest⟩ := holes_inj hc (glue_left_inj (by simp) (by simp) h)
  exact ⟨hcount, List.append_cancel_left hrest⟩

end Lines

end TravelPlanner.Outlines
