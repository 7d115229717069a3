import Mathlib.Data.List.Nodup

namespace TravelPlanner.Tables

structure Table (R : Type) {K : Type} (key : R → K) where
  rows : List R
  nodup : (rows.map key).Nodup

variable {R K : Type} {key : R → K}

namespace Table

def empty : Table R key := ⟨[], List.nodup_nil⟩

variable [DecidableEq K]

def find (t : Table R key) (k : K) : Option R := t.rows.find? (key · = k)

def insert (t : Table R key) (r : R) : Option (Table R key) :=
  if h : key r ∈ t.rows.map key then none
  else some ⟨r :: t.rows, List.nodup_cons.mpr ⟨h, t.nodup⟩⟩

theorem keys_replaced (l : List R) (r : R) :
    (l.map fun x ↦ if key x = key r then r else x).map key = l.map key := by
  rw [List.map_map]
  refine List.map_congr_left fun x _ ↦ ?_
  simp only [Function.comp_apply]
  split_ifs with h
  · exact h.symm
  · rfl

def replace (t : Table R key) (r : R) : Table R key where
  rows := t.rows.map fun x ↦ if key x = key r then r else x
  nodup := by
    rw [keys_replaced]
    exact t.nodup

def deleteWhere (t : Table R key) (p : K → Prop) [DecidablePred p] : Table R key where
  rows := t.rows.filter fun x ↦ ¬p (key x)
  nodup := t.nodup.sublist (List.filter_sublist.map key)

variable {t t' : Table R key} {r : R} {k : K}

theorem find_key (h : t.find k = some r) : key r = k := by
  simpa using List.find?_some h

theorem find_mem (h : t.find k = some r) : r ∈ t.rows := List.mem_of_find?_eq_some h

theorem find_of_mem (h : r ∈ t.rows) : t.find (key r) = some r := by
  obtain ⟨x, hx⟩ : ∃ x, t.find (key r) = some x :=
    Option.isSome_iff_exists.mp (List.find?_isSome.mpr ⟨r, h, by simp⟩)
  rw [hx, List.inj_on_of_nodup_map t.nodup (find_mem hx) h (find_key hx)]

theorem find_eq_none : t.find k = none ↔ k ∉ t.rows.map key := by
  simp [find]

@[simp] theorem find_empty : (empty : Table R key).find k = none := rfl

theorem insert_eq_none : t.insert r = none ↔ t.find (key r) ≠ none := by
  rw [Ne, find_eq_none, not_not, insert]
  split_ifs with h <;> simp [h]

theorem insert_rows (h : t.insert r = some t') : t'.rows = r :: t.rows := by
  unfold insert at h
  split_ifs at h
  rw [← Option.some.inj h]

theorem find_cons (h : t'.rows = r :: t.rows) (k : K) : t'.find k = if key r = k then some r else t.find k := by
  by_cases hk : key r = k
  · simp [find, h, hk]
  · simp [find, h, hk]

theorem find_insert (h : t.insert r = some t') (k : K) :
    t'.find k = if key r = k then some r else t.find k :=
  find_cons (insert_rows h) k

theorem find_replace_self (h : t.find (key r) ≠ none) : (t.replace r).find (key r) = some r := by
  obtain ⟨x, hx⟩ := Option.ne_none_iff_exists'.mp h
  have hmem : r ∈ (t.replace r).rows :=
    List.mem_map.mpr ⟨x, find_mem hx, if_pos (find_key hx)⟩
  exact find_of_mem hmem

theorem find_replace_ne (h : key r ≠ k) : (t.replace r).find k = t.find k := by
  simp only [find, replace]
  generalize t.rows = l
  induction l with
  | nil => rfl
  | cons x l ih =>
    simp only [List.map_cons, List.find?_cons]
    by_cases hx : key x = key r
    · have hxk : key x ≠ k := hx ▸ h
      simpa [hx, h, hxk] using ih
    · rw [if_neg hx]
      by_cases hxk : key x = k
      · simp [hxk]
      · simpa [hxk] using ih

def upsert (t : Table R key) (r : R) : Table R key := (t.insert r).getD (t.replace r)

theorem find_upsert (t : Table R key) (r : R) (k : K) :
    (t.upsert r).find k = if key r = k then some r else t.find k := by
  rw [upsert]
  cases hinsert : t.insert r with
  | some t' => exact find_insert hinsert k
  | none =>
    rw [Option.getD_none]
    split_ifs with hk
    · rw [← hk]
      exact find_replace_self (insert_eq_none.mp hinsert)
    · exact find_replace_ne hk

/-- After a run of upserts a key holds the last row written under it. -/
theorem find_foldl_upsert (rows : List R) (t : Table R key) (k : K) :
    (rows.foldl upsert t).find k = (rows.reverse.find? (key · = k)).or (t.find k) := by
  induction rows generalizing t with
  | nil => rfl
  | cons r rows ih =>
    rw [List.foldl_cons, ih, find_upsert, List.reverse_cons, List.find?_append]
    by_cases hk : key r = k
    · simp [hk]
    · simp [hk]

/-- Replaces the row under a key where it stands, or puts a new row last. -/
def put (t : Table R key) (r : R) : Table R key :=
  if h : key r ∈ t.rows.map key then t.replace r
  else ⟨t.rows ++ [r], by
    rw [List.map_append, List.map_singleton]
    exact t.nodup.append (List.nodup_singleton _) (List.disjoint_singleton.mpr h)⟩

theorem put_of_mem (h : key r ∈ t.rows.map key) : t.put r = t.replace r := dif_pos h

theorem put_rows_of_not_mem (h : key r ∉ t.rows.map key) : (t.put r).rows = t.rows ++ [r] := by rw [put, dif_neg h]

/-- Rows under keys of their own that the table does not have yet go to its end. -/
theorem foldl_put_fresh (l : List R) (hl : (l.map key).Nodup) (t : Table R key)
    (hfresh : ∀ r ∈ l, key r ∉ t.rows.map key) : (l.foldl put t).rows = t.rows ++ l := by
  induction l generalizing t with
  | nil => simp
  | cons x l ih =>
    obtain ⟨hx, hnodup⟩ := List.nodup_cons.mp hl
    obtain ⟨hxfresh, hrest⟩ := List.forall_mem_cons.mp hfresh
    have hrows := put_rows_of_not_mem hxfresh
    have hlater : ∀ r ∈ l, key r ∉ (t.put x).rows.map key := by
      intro r hr hmem
      rw [hrows, List.map_append, List.mem_append, List.map_singleton, List.mem_singleton] at hmem
      rcases hmem with hmem | hsame
      · exact hrest r hr hmem
      · exact hx (hsame ▸ List.mem_map_of_mem hr)
    rw [List.foldl_cons, ih hnodup _ hlater, hrows, List.append_assoc, List.singleton_append]

/-- Rows written under the keys of other rows take their places. -/
theorem foldl_put_rows {f : R → R} (hf : ∀ r, key (f r) = key r) (l : List R) (hl : (l.map key).Nodup)
    (t : Table R key) (hmem : ∀ r ∈ l, key r ∈ t.rows.map key) :
    ((l.map f).foldl put t).rows = t.rows.map fun r ↦ (l.find? (key · = key r)).elim r f := by
  induction l generalizing t with
  | nil => simp
  | cons x l ih =>
    obtain ⟨hx, hnodup⟩ := List.nodup_cons.mp hl
    obtain ⟨hxmem, hrest⟩ := List.forall_mem_cons.mp hmem
    have hput : t.put (f x) = t.replace (f x) := put_of_mem (by rwa [hf])
    have hlater : ∀ r ∈ l, key r ∈ (t.replace (f x)).rows.map key := fun r hr ↦ by
      rw [replace, keys_replaced]
      exact hrest r hr
    rw [List.map_cons, List.foldl_cons, hput, ih hnodup _ hlater, replace, List.map_map]
    refine List.map_congr_left fun r _ ↦ ?_
    simp only [Function.comp_apply, hf, List.find?_cons]
    by_cases hr : key r = key x
    · have hnone : l.find? (key · = key x) = none := by
        rw [List.find?_eq_none]
        intro y hy hsame
        exact hx (List.mem_map.mpr ⟨y, hy, of_decide_eq_true hsame⟩)
      simp [hr, hf, hnone]
    · simp [hr, Ne.symm hr]

theorem foldl_put_filter {f : R → R} (hf : ∀ r, key (f r) = key r) (p : R → Bool) (t : Table R key) :
    (((t.rows.filter p).map f).foldl put t).rows = t.rows.map fun r ↦ if p r then f r else r := by
  have hmem : ∀ r ∈ t.rows.filter p, key r ∈ t.rows.map key :=
    fun r hr ↦ List.mem_map_of_mem (List.mem_filter.mp hr).1
  rw [foldl_put_rows hf _ (t.nodup.sublist (List.filter_sublist.map key)) t hmem]
  refine List.map_congr_left fun r hr ↦ ?_
  cases hfind : (t.rows.filter p).find? (key · = key r) with
  | some x =>
    have hx := List.mem_filter.mp (List.mem_of_find?_eq_some hfind)
    obtain rfl := List.inj_on_of_nodup_map t.nodup hx.1 hr (by simpa using List.find?_some hfind)
    rw [if_pos hx.2, Option.elim_some]
  | none =>
    have hp : p r ≠ true := by
      intro hp
      have hnot := List.find?_eq_none.mp hfind r (List.mem_filter.mpr ⟨hr, hp⟩)
      simp at hnot
    rw [if_neg hp, Option.elim_none]

theorem find_deleteWhere (t : Table R key) (p : K → Prop) [DecidablePred p] (k : K) :
    (t.deleteWhere p).find k = if p k then none else t.find k := by
  simp only [find, deleteWhere]
  generalize t.rows = l
  induction l with
  | nil => simp
  | cons x l ih =>
    by_cases hx : key x = k
    · subst hx
      by_cases hp : p (key x)
      · simpa [hp] using ih
      · simp [hp]
    · by_cases hp : p (key x)
      · simpa [hp, hx] using ih
      · simpa [hp, hx] using ih

theorem deleteWhere_eq_self {p : K → Prop} [DecidablePred p] (h : ∀ k, t.find k ≠ none → ¬p k) :
    t.deleteWhere p = t := by
  obtain ⟨rows, nodup⟩ := t
  simp only [deleteWhere, mk.injEq, List.filter_eq_self, decide_eq_true_eq]
  intro x hx
  exact h _ (by rw [find_of_mem (t := ⟨rows, nodup⟩) hx]; exact Option.some_ne_none x)

end Table

end TravelPlanner.Tables
