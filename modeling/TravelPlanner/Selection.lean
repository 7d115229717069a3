import Mathlib.Data.List.Perm.Basic
import Mathlib.Data.Prod.Lex

namespace TravelPlanner.Selection

variable {α κ : Type*} [LinearOrder κ]

structure Pick (α κ : Type*) where
  entry : Option α
  key : κ

/-- An entry without a key is passed over, one with a smaller key takes the lead. -/
def keep (key : α → Option κ) (best : Pick α κ) (a : α) : Pick α κ :=
  match key a with
  | none => best
  | some k => if k < best.key then ⟨some a, k⟩ else best

def scan (key : α → Option κ) (bound : κ) (l : List α) : Pick α κ := l.foldl (keep key) ⟨none, bound⟩

def Least (key : α → Option κ) (bound : κ) (l : List α) (a : α) : Prop :=
  a ∈ l ∧ ∃ k, key a = some k ∧ k < bound ∧ ∀ b ∈ l, ∀ k', key b = some k' → k ≤ k'

variable {key : α → Option κ} {bound : κ} {l l' : List α} {a b : α}

theorem foldl_keep_key (best : Pick α κ) (l : List α) :
    (l.foldl (keep key) best).key ≤ best.key ∧ ∀ b ∈ l, ∀ k, key b = some k → (l.foldl (keep key) best).key ≤ k := by
  induction l generalizing best with
  | nil => simp
  | cons c l ih =>
    obtain ⟨hle, hall⟩ := ih (keep key best c)
    have hkeep : (keep key best c).key ≤ best.key ∧ ∀ k, key c = some k → (keep key best c).key ≤ k := by
      unfold keep
      cases hc : key c with
      | none => simp
      | some k =>
        dsimp only
        split_ifs with hlt
        · exact ⟨hlt.le, fun k' hk' ↦ (Option.some.inj hk').le⟩
        · exact ⟨le_rfl, fun k' hk' ↦ Option.some.inj hk' ▸ not_lt.mp hlt⟩
    refine ⟨hle.trans hkeep.1, ?_⟩
    intro b hb k hk
    rcases List.mem_cons.mp hb with rfl | hb
    · exact hle.trans (hkeep.2 k hk)
    · exact hall b hb k hk

theorem foldl_keep_entry (best : Pick α κ) (l : List α) :
    l.foldl (keep key) best = best ∨ ∃ a ∈ l, ∃ k, key a = some k ∧ k < best.key ∧
      l.foldl (keep key) best = ⟨some a, k⟩ := by
  induction l generalizing best with
  | nil => exact .inl rfl
  | cons c l ih =>
    have hkeep : keep key best c = best ∨ ∃ k, key c = some k ∧ k < best.key ∧ keep key best c = ⟨some c, k⟩ := by
      unfold keep
      cases hc : key c with
      | none => exact .inl rfl
      | some k =>
        by_cases hlt : k < best.key
        · exact .inr ⟨k, rfl, hlt, by simp [hlt]⟩
        · exact .inl (by simp [hlt])
    rw [List.foldl_cons]
    rcases hkeep with he | ⟨k, hk, hlt, he⟩
    · rw [he]
      rcases ih best with hrest | ⟨a, ha, k, hk, hlt, hrest⟩
      · exact .inl hrest
      · exact .inr ⟨a, List.mem_cons_of_mem _ ha, k, hk, hlt, hrest⟩
    · rw [he]
      rcases ih ⟨some c, k⟩ with hrest | ⟨a, ha, k', hk', hlt', hrest⟩
      · exact .inr ⟨c, List.mem_cons_self, k, hk, hlt, hrest⟩
      · exact .inr ⟨a, List.mem_cons_of_mem _ ha, k', hk', hlt'.trans hlt, hrest⟩

theorem scan_key_le : ∀ b ∈ l, ∀ k, key b = some k → (scan key bound l).key ≤ k := by
  obtain ⟨_, hall⟩ := foldl_keep_key ⟨none, bound⟩ l
  exact hall

/-- What a scan picks is least, and its key is the one recorded. -/
theorem scan_least (h : (scan key bound l).entry = some a) :
    Least key bound l a ∧ key a = some (scan key bound l).key := by
  rcases foldl_keep_entry ⟨none, bound⟩ l with he | ⟨c, hc, k, hk, hlt, he⟩
  · rw [scan, he] at h
    simp at h
  · have hall : ∀ b ∈ l, ∀ k, key b = some k → (scan key bound l).key ≤ k := scan_key_le
    rw [scan, he] at h hall ⊢
    obtain rfl : c = a := Option.some.inj h
    exact ⟨⟨hc, k, hk, hlt, hall⟩, hk⟩

theorem scan_none (h : (scan key bound l).entry = none) : ∀ b ∈ l, ∀ k, key b = some k → bound ≤ k := by
  rcases foldl_keep_entry ⟨none, bound⟩ l with he | ⟨c, hc, k, hk, hlt, he⟩
  · have hall : ∀ b ∈ l, ∀ k, key b = some k → (scan key bound l).key ≤ k := scan_key_le
    rwa [scan, he] at hall
  · rw [scan, he] at h
    simp at h

theorem scan_isSome {k : κ} (ha : a ∈ l) (hk : key a = some k) (hlt : k < bound) :
    ∃ b, (scan key bound l).entry = some b := by
  refine Option.ne_none_iff_exists'.mp fun hn ↦ ?_
  exact absurd hlt (not_lt.mpr (scan_none hn a ha k hk))

theorem Least.perm (h : Least key bound l a) (hp : l.Perm l') : Least key bound l' a := by
  obtain ⟨ha, k, hk, hlt, hall⟩ := h
  exact ⟨hp.subset ha, k, hk, hlt, fun b hb ↦ hall b (hp.symm.subset hb)⟩

theorem Least.scan_isSome (h : Least key bound l a) : ∃ b, (scan key bound l).entry = some b := by
  obtain ⟨ha, k, hk, hlt, _⟩ := h
  exact Selection.scan_isSome ha hk hlt

theorem scan_cons_of_least (h : Least key bound (a :: l) a) : (scan key bound (a :: l)).entry = some a := by
  obtain ⟨_, k, hk, hlt, hall⟩ := h
  have hfirst : keep key ⟨none, bound⟩ a = ⟨some a, k⟩ := by simp [keep, hk, hlt]
  rw [scan, List.foldl_cons, hfirst]
  rcases foldl_keep_entry ⟨some a, k⟩ l with he | ⟨c, hc, k', hk', hlt', he⟩
  · rw [he]
  · exact absurd hlt' (not_lt.mpr (hall c (List.mem_cons_of_mem _ hc) k' hk'))

end TravelPlanner.Selection
