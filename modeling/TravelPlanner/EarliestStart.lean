import Mathlib.Data.Int.ConditionallyCompleteOrder
import TravelPlanner.OpeningHours
import TravelPlanner.RouteAccounting

namespace TravelPlanner.EarliestStart

open Requests Windows OpeningHours Engine TimedRoutes RouteService RouteAccounting

section Least

variable {α : Type*} [Preorder α] {S S' : Set α} {o o' : Option α} {a : α}

def LeastOf (S : Set α) : Option α → Prop
  | some a => IsLeast S a
  | none => S = ∅

theorem LeastOf.eq_none_iff (h : LeastOf S o) : o = none ↔ S = ∅ := by
  cases o with
  | none => exact iff_of_true rfl h
  | some a => exact iff_of_false (by simp) (Set.nonempty_iff_ne_empty.mp ⟨a, h.1⟩)

theorem LeastOf.eq_some_iff {α : Type*} [PartialOrder α] {S : Set α} {o : Option α} {a : α} (h : LeastOf S o) :
    o = some a ↔ IsLeast S a := by
  constructor
  · rintro rfl
    exact h
  · intro hleast
    cases o with
    | none => exact absurd h (Set.nonempty_iff_ne_empty.mp ⟨a, hleast.1⟩)
    | some b => rw [IsLeast.unique h hleast]

theorem LeastOf.mono (h : LeastOf S o) (h' : LeastOf S' o') (hsub : S' ⊆ S) : ∀ b ∈ o', ∃ a ∈ o, a ≤ b := by
  rintro b rfl
  have hb : b ∈ S := hsub h'.1
  cases o with
  | none => exact absurd h (Set.nonempty_iff_ne_empty.mp ⟨b, hb⟩)
  | some a => exact ⟨a, rfl, h.2 hb⟩

end Least

section Starts

variable {segments : List (ℤ × ℤ)} {arrivalS arrivalS' visitS visitS' t : ℤ}

/-- When a visit can begin: not before the arrival, and so that all of it lies inside
one segment. -/
def starts (segments : List (ℤ × ℤ)) (arrivalS visitS : ℤ) : Set ℤ :=
  {t | arrivalS ≤ t ∧ ∃ s ∈ segments, Set.Icc t (t + visitS) ⊆ Set.Icc s.1 s.2}

theorem mem_starts (hv : 0 ≤ visitS) :
    t ∈ starts segments arrivalS visitS ↔ arrivalS ≤ t ∧ ∃ s ∈ segments, s.1 ≤ t ∧ t + visitS ≤ s.2 := by
  have hne : t ≤ t + visitS := le_add_of_nonneg_right hv
  simp only [starts, Set.mem_ofPred_eq, Set.Icc_subset_Icc_iff hne]

theorem starts_later (h : arrivalS ≤ arrivalS') : starts segments arrivalS' visitS ⊆ starts segments arrivalS visitS :=
  fun _ ht ↦ ⟨h.trans ht.1, ht.2⟩

theorem starts_longer (h : visitS ≤ visitS') : starts segments arrivalS visitS' ⊆ starts segments arrivalS visitS := by
  rintro t ⟨harrival, s, hs, hin⟩
  have hshort : Set.Icc t (t + visitS) ⊆ Set.Icc t (t + visitS') := Set.Icc_subset_Icc_right (by omega)
  exact ⟨harrival, s, hs, hshort.trans hin⟩

/-- The scan takes the first segment that fits; in the order of their openings no later
one lets a visit begin sooner. -/
theorem earliestIn_least (hv : 0 ≤ visitS) (hsorted : segments.Pairwise fun a b ↦ a.1 ≤ b.1) :
    LeastOf (starts segments arrivalS visitS) (earliestIn arrivalS visitS segments) := by
  induction segments with
  | nil =>
    refine Set.eq_empty_of_forall_notMem fun t ht ↦ ?_
    obtain ⟨-, s, hs, -⟩ := ht
    cases hs
  | cons s rest ih =>
    obtain ⟨hfirst, hrest⟩ := List.pairwise_cons.mp hsorted
    rw [earliestIn]
    split_ifs with hfit
    · constructor
      · exact (mem_starts hv).mpr ⟨le_max_left _ _, s, List.mem_cons_self, le_max_right _ _, hfit⟩
      · intro t ht
        obtain ⟨harrival, s', hs', hopen, -⟩ := (mem_starts hv).mp ht
        have hopens : s.1 ≤ s'.1 := by
          rcases List.mem_cons.mp hs' with rfl | hs'
          · exact le_rfl
          · exact hfirst s' hs'
        exact max_le harrival (hopens.trans hopen)
    · have hsame : starts (s :: rest) arrivalS visitS = starts rest arrivalS visitS := by
        ext t
        rw [mem_starts hv, mem_starts hv, List.exists_mem_cons_iff]
        refine and_congr_right fun harrival ↦ or_iff_right ?_
        rintro ⟨hopen, hclose⟩
        have hmax : max arrivalS s.1 ≤ t := max_le harrival hopen
        omega
      rw [hsame]
      exact ih hrest

theorem fromSegments_sorted (segments : List (ℤ × ℤ)) :
    (TimeWindow.fromSegments segments).segments.Pairwise fun a b ↦ a.1 ≤ b.1 := by
  have : Std.Total segmentLe := ⟨fun a b ↦ by simp only [segmentLe]; omega⟩
  have : IsTrans (ℤ × ℤ) segmentLe := ⟨fun a b c ↦ by simp only [segmentLe]; omega⟩
  have hsorted := List.pairwise_insertionSort segmentLe segments
  exact hsorted.imp fun {a b} h ↦ h.elim le_of_lt fun h ↦ h.1.le

theorem starts_fromSegments (segments : List (ℤ × ℤ)) (arrivalS visitS : ℤ) :
    starts (TimeWindow.fromSegments segments).segments arrivalS visitS = starts segments arrivalS visitS := by
  simp only [starts, mem_fromSegments]

theorem earliestStart_leastOf (segments : List (ℤ × ℤ)) (arrivalS : ℤ) (hv : 0 ≤ visitS) :
    LeastOf (starts segments arrivalS visitS)
      ((TimeWindow.fromSegments segments).earliestStart arrivalS visitS) := by
  rw [← starts_fromSegments]
  exact earliestIn_least hv (fromSegments_sorted segments)

theorem earliestStart_mono (segments : List (ℤ × ℤ)) (hv : 0 ≤ visitS) (h : arrivalS ≤ arrivalS') :
    ∀ t' ∈ (TimeWindow.fromSegments segments).earliestStart arrivalS' visitS,
      ∃ t ∈ (TimeWindow.fromSegments segments).earliestStart arrivalS visitS, t ≤ t' :=
  (earliestStart_leastOf segments arrivalS hv).mono (earliestStart_leastOf segments arrivalS' hv) (starts_later h)

/-- `earliest_start` is the least time at which a visit can begin and missing where there
is none. A later arrival never begins sooner, and what has no room for a visit has none
for a later or a longer one. -/
theorem earliestStart_least (segments : List (ℤ × ℤ)) (arrivalS visitS : ℤ) (hv : 0 ≤ visitS) :
    (∀ t, (TimeWindow.fromSegments segments).earliestStart arrivalS visitS = some t ↔
      IsLeast (starts segments arrivalS visitS) t) ∧
    ((TimeWindow.fromSegments segments).earliestStart arrivalS visitS = none ↔
      ∀ t, t ∉ starts segments arrivalS visitS) ∧
    (∀ arrivalS', arrivalS ≤ arrivalS' →
      ∀ t' ∈ (TimeWindow.fromSegments segments).earliestStart arrivalS' visitS,
        ∃ t ∈ (TimeWindow.fromSegments segments).earliestStart arrivalS visitS, t ≤ t') ∧
    ∀ visitS', visitS ≤ visitS' → (TimeWindow.fromSegments segments).earliestStart arrivalS visitS = none →
      (TimeWindow.fromSegments segments).earliestStart arrivalS visitS' = none := by
  have hleast := earliestStart_leastOf segments arrivalS hv
  refine ⟨fun t ↦ hleast.eq_some_iff, ?_, fun arrivalS' ↦ earliestStart_mono segments hv, ?_⟩
  · rw [hleast.eq_none_iff, Set.eq_empty_iff_forall_notMem]
  · intro visitS' hlonger hnone
    have hlong := earliestStart_leastOf segments arrivalS (hv.trans hlonger)
    rw [hlong.eq_none_iff]
    exact Set.subset_eq_empty (starts_longer hlonger) (hleast.eq_none_iff.mp hnone)

def brokenDay : List (ℤ × ℤ) := [(50400, 64800), (43200, 43500), (32400, 43200), (54000, 61200)]

example : (TimeWindow.fromSegments brokenDay).earliestStart 42000 1800 = some 50400 := by decide

theorem earliestStart_least_brokenDay : IsLeast (starts brokenDay 42000 1800) 50400 :=
  ((earliestStart_least brokenDay 42000 1800 (by decide)).1 50400).mp (by decide)

end Starts

section Solver

theorem parseTimeWindow_fromSegments {doc : PlaceDoc} {dayStartS dayEndS : ℤ} {weekday : Option ℕ} {tw : TimeWindow}
    (h : parseTimeWindow doc dayStartS dayEndS weekday = some tw) : ∃ segments, tw = .fromSegments segments := by
  have hsingle : ∀ openS closeS, ∃ segments, TimeWindow.single openS closeS = .fromSegments segments :=
    fun openS closeS ↦ ⟨[(openS, closeS)], rfl⟩
  cases weekday with
  | none =>
    simp only [parseTimeWindow] at h
    split_ifs at h
    obtain rfl := Option.some.inj h
    exact hsingle _ _
  | some weekday =>
    rcases parseTimeWindow_eq_some.mp h with ⟨-, -, rfl⟩ | ⟨-, -, rfl⟩
    · exact hsingle _ _
    · exact ⟨_, rfl⟩

end Solver

end TravelPlanner.EarliestStart
