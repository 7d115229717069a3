import TravelPlanner.Construction

namespace TravelPlanner.LocalSearch

open Requests Windows Engine TimedRoutes Construction

variable {p : DayProblem} {order : SetOrder} {nodes : List PlaceId} {endAnchor : Option PlaceId}

theorem reverseSegment_perm (route : List PlaceId) {i j : ℕ} (hij : i ≤ j) :
    (reverseSegment route i j).Perm route := by
  have hsplit : route = route.take (i + 1) ++ ((route.drop (i + 1)).take (j - i) ++ route.drop (j + 1)) := by
    have hdrop : (route.drop (i + 1)).drop (j - i) = route.drop (j + 1) := by
      rw [List.drop_drop]; congr 1; omega
    rw [← hdrop, List.take_append_drop, List.take_append_drop]
  conv_rhs => rw [hsplit]
  rw [reverseSegment, List.append_assoc]
  exact ((List.reverse_perm _).append_right _).append_left _

theorem reverseSegment_head (route : List PlaceId) (i j : ℕ) :
    (reverseSegment route i j).head? = route.head? := by
  cases route with
  | nil => simp [reverseSegment]
  | cons a l => simp [reverseSegment]

theorem reverseSegment_last {route : List PlaceId} {i j : ℕ} (hj : j + 1 < route.length) :
    (reverseSegment route i j).getLast? = route.getLast? := by
  have hne : route.drop (j + 1) ≠ [] := by
    intro h; rw [List.drop_eq_nil_iff] at h; omega
  rw [reverseSegment, List.getLast?_append_of_ne_nil _ hne, List.getLast?_drop, if_neg (by omega)]

theorem findImprovement_spec {jUpper : ℕ} {route better : List PlaceId}
    (h : findImprovement p jUpper route = some better) :
    ∃ i j, i + 2 ≤ j ∧ j < jUpper ∧ better = reverseSegment route i j ∧
      routeTravelTime p better < routeTravelTime p route ∧ isFeasible p better = true := by
  obtain ⟨i, _, h⟩ := List.exists_of_findSome?_eq_some h
  obtain ⟨j, hj, h⟩ := List.exists_of_findSome?_eq_some h
  obtain ⟨k, hk, rfl⟩ := List.mem_range'.mp hj
  dsimp only at h
  split_ifs at h with hc
  obtain rfl := Option.some.inj h
  exact ⟨i, _, by omega, by omega, rfl, hc⟩

structure Improved (p : DayProblem) (pinEnd : Bool) (route result : List PlaceId) : Prop where
  perm : result.Perm route
  head : result.head? = route.head?
  last : pinEnd = true → result.getLast? = route.getLast?
  kept : result = route ∨ isFeasible p result = true

theorem Improved.refl (pinEnd : Bool) (route : List PlaceId) : Improved p pinEnd route route :=
  ⟨.rfl, rfl, fun _ ↦ rfl, .inl rfl⟩

theorem twoOptLoop_improved (pinEnd : Bool) (n : ℕ) (route : List PlaceId) (jUpper : ℕ)
    (hj : jUpper = if pinEnd then route.length - 1 else route.length) :
    Improved p pinEnd route (twoOptLoop p jUpper n route) := by
  induction n generalizing route with
  | zero => exact .refl pinEnd route
  | succ n ih =>
    unfold twoOptLoop
    cases h : findImprovement p jUpper route with
    | none => exact .refl pinEnd route
    | some better =>
      obtain ⟨i, j, hij, hju, rfl, _, hfeasible⟩ := findImprovement_spec h
      have hperm : (reverseSegment route i j).Perm route := reverseSegment_perm route (by omega)
      obtain ⟨hp, hh, hl, hk⟩ := ih (reverseSegment route i j) (by rw [hperm.length_eq]; exact hj)
      refine ⟨hp.trans hperm, hh.trans (reverseSegment_head route i j), fun hpin ↦ ?_, ?_⟩
      · refine (hl hpin).trans (reverseSegment_last ?_)
        simp only [hpin, if_true] at hj
        omega
      · exact .inr (hk.elim (fun he ↦ (congrArg (isFeasible p) he).trans hfeasible) id)

theorem twoOpt_improved (route : List PlaceId) (maxIterations : ℕ) (pinEnd : Bool) :
    Improved p pinEnd route (twoOpt p route maxIterations pinEnd) := by
  unfold twoOpt
  by_cases h : route.length < 4
  · rw [if_pos h]; exact .refl pinEnd route
  · rw [if_neg h]; exact twoOptLoop_improved pinEnd maxIterations route _ rfl

theorem foldl_considerStart (weights : Option (PlaceId → Option ℤ)) (l : List PlaceId) (best : BestRoute) :
    (l.foldl (considerStart p order nodes endAnchor weights) best).route = best.route ∨
      ∃ start ∈ l, (l.foldl (considerStart p order nodes endAnchor weights) best).route =
        (nnFromStart p order nodes endAnchor start).1 := by
  induction l generalizing best with
  | nil => exact .inl rfl
  | cons start l ih =>
    rw [List.foldl_cons]
    rcases ih (considerStart p order nodes endAnchor weights best start) with he | ⟨s, hs, he⟩
    · rw [he]
      unfold considerStart
      dsimp only
      split_ifs
      · exact .inr ⟨start, by simp, rfl⟩
      · exact .inl rfl
    · exact .inr ⟨s, List.mem_cons_of_mem _ hs, he⟩

theorem nearestNeighbor_route (p : DayProblem) (order : SetOrder) (nodes : List PlaceId)
    (endAnchor : Option PlaceId) (weights : Option (PlaceId → Option ℤ)) :
    (nearestNeighbor p order nodes endAnchor weights).1 = [] ∨
      ∃ start ∈ nodes, (nearestNeighbor p order nodes endAnchor weights).1 =
        (nnFromStart p order nodes endAnchor start).1 :=
  foldl_considerStart weights nodes ⟨[], 0, large⟩

structure Apart (startAnchor endAnchor : Option PlaceId) (nodes : List PlaceId) : Prop where
  start : ∀ a ∈ startAnchor, a ∉ nodes
  finish : ∀ a ∈ endAnchor, a ∉ nodes
  distinct : ∀ a ∈ startAnchor, a ∉ endAnchor

theorem Apart.mono {startAnchor : Option PlaceId} {nodes' : List PlaceId}
    (h : Apart startAnchor endAnchor nodes) (hs : nodes' ⊆ nodes) : Apart startAnchor endAnchor nodes' :=
  ⟨fun a ha hn ↦ h.start a ha (hs hn), fun a ha hn ↦ h.finish a ha (hs hn), h.distinct⟩

/-- A route with the nodes it leaves out: anchors in their places, every
candidate either routed or skipped, and a schedule that exists. -/
structure Attempted (p : DayProblem) (startAnchor endAnchor : Option PlaceId)
    (nodes route skipped : List PlaceId) : Prop where
  shape : route = [] ∨ ∃ mid, route = startAnchor.toList ++ mid ++ endAnchor.toList
  nodup : route.Nodup
  routed : ∀ n ∈ route, n ∈ nodes ∨ some n = startAnchor ∨ some n = endAnchor
  covers : ∀ n ∈ nodes, n ∈ route ∨ n ∈ skipped
  skipped_sub : skipped ⊆ nodes
  apart : ∀ n ∈ skipped, n ∉ route
  skipped_nodup : nodes.Nodup → skipped.Nodup
  timed : route ≠ [] → ∃ visits, Timed p none p.dayStartS route visits
  feasible : p.matrix.NonNeg → VisitsNonNeg p → route ≠ [] → isFeasible p route = true

theorem Attempted.empty {startAnchor : Option PlaceId} :
    Attempted p startAnchor endAnchor nodes [] nodes :=
  ⟨.inl rfl, .nil, by simp, fun _ h ↦ .inr h, fun _ h ↦ h, by simp, id, by simp, by simp⟩

theorem mem_setWithout {start n : PlaceId} : n ∈ setWithout nodes start ↔ n ∈ nodes ∧ n ≠ start := by
  simp [setWithout]

theorem setWithout_nodup (start : PlaceId) : (setWithout nodes start).Nodup :=
  (List.nodup_dedup nodes).filter _

theorem constructed_routed {start : PlaceId} {route skipped : List PlaceId}
    (h : Constructed p start nodes endAnchor route skipped) {n : PlaceId} (hn : n ∈ route) :
    n = start ∨ n ∈ nodes ∨ n ∈ endAnchor := by
  obtain ⟨mid, rfl, hperm⟩ := h.shape
  simp only [List.cons_append, List.mem_cons, List.mem_append, Option.mem_toList] at hn
  rcases hn with rfl | hn | hn
  · exact .inl rfl
  · exact .inr (.inl (mem_setWithout.mp (hperm.subset (List.mem_append_left _ hn))).1)
  · exact .inr (.inr hn)

theorem constructed_nodup {start : PlaceId} {route skipped : List PlaceId}
    (h : Constructed p start nodes endAnchor route skipped) (hend : ∀ a ∈ endAnchor, a ∉ nodes)
    (hne : start ∉ endAnchor) : route.Nodup := by
  obtain ⟨mid, rfl, hperm⟩ := h.shape
  have hn := hperm.symm.nodup (setWithout_nodup start)
  have hmid : ∀ n ∈ mid, n ∈ nodes ∧ n ≠ start := fun n hn ↦
    mem_setWithout.mp (hperm.subset (List.mem_append_left _ hn))
  have hstart : (start :: mid).Nodup :=
    List.nodup_cons.mpr ⟨fun h ↦ (hmid _ h).2 rfl, (List.nodup_append.mp hn).1⟩
  cases endAnchor with
  | none => simpa using hstart
  | some a =>
    refine List.nodup_append.mpr ⟨hstart, List.nodup_singleton a, ?_⟩
    rintro n hn b hb rfl
    obtain rfl := List.mem_singleton.mp hb
    rcases List.mem_cons.mp hn with rfl | hn
    · exact hne rfl
    · exact hend n rfl (hmid n hn).1

theorem nnFromStart_attempted {anchor : PlaceId} (ha : AnchorFree p endAnchor)
    (hapart : Apart (some anchor) endAnchor nodes) :
    Attempted p (some anchor) endAnchor nodes (nnFromStart p order nodes endAnchor anchor).1
      (nnFromStart p order nodes endAnchor anchor).2 := by
  rcases nnFromStart_spec order nodes anchor ha with he | hc
  · rw [he]; exact .empty
  · have hnodup := constructed_nodup hc hapart.finish (hapart.distinct anchor rfl)
    obtain ⟨mid, hroute, hperm⟩ := hc.shape
    have hset : ∀ n, n ∈ mid ++ (nnFromStart p order nodes endAnchor anchor).2 ↔ n ∈ nodes := fun n ↦ by
      rw [hperm.mem_iff, mem_setWithout, and_iff_left_of_imp]
      rintro hn rfl
      exact hapart.start n rfl hn
    have hall := hperm.symm.nodup (setWithout_nodup anchor)
    refine ⟨.inr ⟨mid, by simp [hroute]⟩, hnodup, ?_, ?_, ?_, ?_, fun _ ↦ (List.nodup_append.mp hall).2.1,
      fun _ ↦ hc.timed, fun hm hv _ ↦ hc.feasible hm hv⟩
    · intro n hn
      rcases constructed_routed hc hn with rfl | hn | hn
      · exact .inr (.inl rfl)
      · exact .inl hn
      · exact .inr (.inr hn.symm)
    · intro n hn
      rcases List.mem_append.mp ((hset n).mpr hn) with h | h
      · exact .inl (by rw [hroute]; simp [h])
      · exact .inr h
    · exact fun n hn ↦ (hset n).mp (List.mem_append_right _ hn)
    · intro n hn hr
      rw [hroute] at hr
      simp only [List.cons_append, List.mem_cons, List.mem_append, Option.mem_toList] at hr
      have hnode := (hset n).mp (List.mem_append_right _ hn)
      rcases hr with rfl | hr | hr
      · exact hapart.start n rfl hnode
      · exact (List.nodup_append.mp hall).2.2 n hr n hn rfl
      · exact hapart.finish n hr hnode

theorem nearestNeighbor_attempted (weights : Option (PlaceId → Option ℤ)) (ha : AnchorFree p endAnchor)
    (hapart : Apart none endAnchor nodes) :
    Attempted p none endAnchor nodes (nearestNeighbor p order nodes endAnchor weights).1
      (nearestNeighbor p order nodes endAnchor weights).2 := by
  have hskip : (nearestNeighbor p order nodes endAnchor weights).2 =
      nodes.filter (· ∉ (nearestNeighbor p order nodes endAnchor weights).1) := rfl
  generalize hr : (nearestNeighbor p order nodes endAnchor weights).1 = route at hskip
  rw [hskip]
  have hempty : route = [] → Attempted p none endAnchor nodes route (nodes.filter (· ∉ route)) := by
    rintro rfl
    simpa using Attempted.empty
  rcases nearestNeighbor_route p order nodes endAnchor weights with he | ⟨start, hstart, he⟩
  · exact hempty (hr.symm.trans he)
  · rcases nnFromStart_spec order nodes start ha with hnn | hc
    · exact hempty (by rw [← hr, he, hnn])
    · rw [← he, hr] at hc
      have hnodup := constructed_nodup hc hapart.finish (fun h ↦ hapart.finish start h hstart)
      obtain ⟨mid, hroute, hperm⟩ := hc.shape
      refine ⟨.inr ⟨start :: mid, by simpa using hroute⟩, hnodup, ?_, ?_, List.filter_subset_self _, ?_,
        fun h ↦ h.filter _, fun _ ↦ hc.timed, fun hm hv _ ↦ hc.feasible hm hv⟩
      · intro n hn
        rcases constructed_routed hc hn with rfl | hn | hn
        · exact .inl hstart
        · exact .inl hn
        · exact .inr (.inr hn.symm)
      · intro n hn
        by_cases h : n ∈ route
        · exact .inl h
        · exact .inr (List.mem_filter.mpr ⟨hn, by simpa using h⟩)
      · intro n hn
        simpa using (List.mem_filter.mp hn).2

/-- The local search changes neither what is routed nor where the anchors are. -/
theorem Attempted.improved {startAnchor : Option PlaceId} {route result skipped : List PlaceId}
    (h : Attempted p startAnchor endAnchor nodes route skipped)
    (hi : Improved p endAnchor.isSome route result) :
    result.Nodup ∧ (∀ n, n ∈ result ↔ n ∈ route) ∧ (result = [] ↔ route = []) ∧
      (result ≠ [] → (∀ a ∈ startAnchor, result.head? = some a) ∧ (∀ a ∈ endAnchor, result.getLast? = some a) ∧
        (∃ visits, Timed p none p.dayStartS result visits) ∧
        (p.matrix.NonNeg → VisitsNonNeg p → isFeasible p result = true)) := by
  have hnil : result = [] ↔ route = [] := ⟨fun he ↦ (he ▸ hi.perm).nil_eq.symm, fun he ↦ (he ▸ hi.perm).eq_nil⟩
  refine ⟨hi.perm.symm.nodup h.nodup, fun n ↦ hi.perm.mem_iff, hnil, fun hne ↦ ?_⟩
  have hroute : route ≠ [] := fun he ↦ hne (hnil.mpr he)
  obtain ⟨mid, hmid⟩ := h.shape.resolve_left hroute
  refine ⟨?_, ?_, ?_, fun hm hv ↦ ?_⟩
  · rintro a rfl
    rw [hi.head, hmid]; simp
  · rintro a rfl
    rw [hi.last rfl, hmid]; simp
  · rcases hi.kept with rfl | hf
    · exact h.timed hroute
    · obtain ⟨visits, _, ht, _⟩ := isFeasible_iff.mp hf
      exact ⟨visits, ht⟩
  · rcases hi.kept with rfl | hf
    · exact h.feasible hm hv hroute
    · exact hf

end TravelPlanner.LocalSearch
