import Mathlib.Data.List.Chain
import Mathlib.Data.List.Perm.Basic
import Mathlib.Order.CompletePartialOrder
import Mathlib.Order.Interval.Set.Disjoint

namespace TravelPlanner.Intervals

variable {α T : Type*} [LinearOrder T] (lo hi : α → T)

/-- Two items whose half-open stretches share no point. -/
def Apart (a b : α) : Prop := Disjoint (Set.Ico (lo a) (hi a)) (Set.Ico (lo b) (hi b))

def Before (a b : α) : Prop := hi a ≤ lo b

variable {lo hi} {l l' : List α} {a b : α}

theorem Apart.symm (h : Apart lo hi a b) : Apart lo hi b a := Disjoint.symm h

instance : Std.Symm (Apart lo hi) := ⟨fun _ _ h ↦ h.symm⟩

/-- Which of the two ends is left out makes no difference. -/
theorem apart_iff_ioc : Apart lo hi a b ↔ Disjoint (Set.Ioc (lo a) (hi a)) (Set.Ioc (lo b) (hi b)) := by
  rw [Apart, Set.Ico_disjoint_Ico, Set.Ioc_disjoint_Ioc]

theorem apart_iff (ha : lo a < hi a) (hb : lo b < hi b) : Apart lo hi a b ↔ Before lo hi a b ∨ Before lo hi b a := by
  rw [Apart, Set.Ico_disjoint_Ico, min_le_iff, le_max_iff, le_max_iff]
  simp only [not_le.mpr ha, not_le.mpr hb, false_or, or_false, Before]

theorem pairwise_of_chain (hne : ∀ a ∈ l, lo a < hi a) (h : l.IsChain (Before lo hi)) : l.Pairwise (Before lo hi) := by
  induction l with
  | nil => exact .nil
  | cons a l ih =>
    have hrest := ih (fun b hb ↦ hne b (List.mem_cons_of_mem _ hb)) h.tail
    refine List.pairwise_cons.mpr ⟨?_, hrest⟩
    cases l with
    | nil => simp
    | cons b l =>
      have hab : hi a ≤ lo b := (List.isChain_cons_cons.mp h).1
      intro c hc
      rcases List.mem_cons.mp hc with rfl | hc
      · exact hab
      · have hb : lo b < hi b := hne b (by simp)
        have hbc : hi b ≤ lo c := (List.pairwise_cons.mp hrest).1 c hc
        exact hab.trans (hb.le.trans hbc)

/-- Whatever order a list was brought into, neighbours in order there mean that
no two of its items share a point. -/
theorem pairwise_apart_of_chain (hne : ∀ a ∈ l, lo a < hi a) (hperm : l'.Perm l) (h : l'.IsChain (Before lo hi)) :
    l.Pairwise (Apart lo hi) := by
  have hne' : ∀ a ∈ l', lo a < hi a := fun a ha ↦ hne a (hperm.subset ha)
  have hordered := pairwise_of_chain hne' h
  refine (hperm.pairwise_iff Apart.symm).mp (hordered.imp_of_mem fun {a b} ha hb hab ↦ ?_)
  exact (apart_iff (hne' a ha) (hne' b hb)).mpr (.inl hab)

/-- In order of their beginnings, items that share no point are neighbours in order. -/
theorem chain_of_pairwise_apart (hne : ∀ a ∈ l, lo a < hi a) (hperm : l'.Perm l)
    (hsorted : l'.Pairwise fun a b ↦ lo a ≤ lo b) (h : l.Pairwise (Apart lo hi)) : l'.IsChain (Before lo hi) := by
  have hapart := (hperm.pairwise_iff Apart.symm).mpr h
  refine (hsorted.and hapart |>.imp_of_mem fun {a b} ha hb hab ↦ ?_).isChain
  have ha' := hne a (hperm.subset ha)
  have hb' := hne b (hperm.subset hb)
  rcases (apart_iff ha' hb').mp hab.2 with hbefore | hafter
  · exact hbefore
  · exact absurd (hab.1.trans_lt hb') (not_lt.mpr hafter)

theorem chain_iff_pairwise_apart (hne : ∀ a ∈ l, lo a < hi a) (hperm : l'.Perm l)
    (hsorted : l'.Pairwise fun a b ↦ lo a ≤ lo b) : l'.IsChain (Before lo hi) ↔ l.Pairwise (Apart lo hi) :=
  ⟨pairwise_apart_of_chain hne hperm, chain_of_pairwise_apart hne hperm hsorted⟩

section Search

variable {p : α → Bool}

def Exclusive (p : α → Bool) (l : List α) : Prop := l.Pairwise fun a b ↦ ¬(p a = true ∧ p b = true)

theorem Exclusive.filter_length (h : Exclusive p l) : (l.filter p).length ≤ 1 := by
  induction l with
  | nil => simp
  | cons a l ih =>
    obtain ⟨hfirst, hrest⟩ := List.pairwise_cons.mp h
    by_cases ha : p a = true
    · have hnone : l.filter p = [] := List.filter_eq_nil_iff.mpr fun b hb hpb ↦ hfirst b hb ⟨ha, hpb⟩
      simp [ha, hnone]
    · rw [List.filter_cons_of_neg (by simpa using ha)]
      exact ih hrest

theorem Exclusive.find?_eq_some (h : Exclusive p l) : l.find? p = some a ↔ a ∈ l ∧ p a = true := by
  constructor
  · intro hfind
    exact ⟨List.mem_of_find?_eq_some hfind, List.find?_some hfind⟩
  · rintro ⟨ha, hpa⟩
    induction l with
    | nil => cases ha
    | cons b l ih =>
      obtain ⟨hfirst, hrest⟩ := List.pairwise_cons.mp h
      rcases List.mem_cons.mp ha with rfl | ha
      · exact List.find?_cons_of_pos hpa
      · rw [List.find?_cons_of_neg fun hpb ↦ hfirst a ha ⟨hpb, hpa⟩]
        exact ih hrest ha

/-- A search that can find one item only finds it in any order of the list. -/
theorem Exclusive.find?_perm (h : Exclusive p l) (hperm : l'.Perm l) : l'.find? p = l.find? p := by
  have h' : Exclusive p l' := (hperm.pairwise_iff fun hab hba ↦ hab hba.symm).mpr h
  refine Option.ext fun a ↦ ?_
  rw [h'.find?_eq_some, h.find?_eq_some, hperm.mem_iff]

end Search

end TravelPlanner.Intervals
