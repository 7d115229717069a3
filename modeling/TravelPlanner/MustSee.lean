import TravelPlanner.Priorities

namespace TravelPlanner.MustSee

open Requests Windows Engine TimedRoutes Construction LocalSearch Priorities

variable {p : DayProblem} {order : SetOrder} {priorities : PlaceId → Option Priority}
  {startAnchor endAnchor : Option PlaceId} {nodeIds tier : List PlaceId}

def mustSees (priorities : PlaceId → Option Priority) (nodeIds route : List PlaceId) : List PlaceId :=
  nodeIds.filter fun n ↦ priorityOf priorities n = .mustSee ∧ n ∈ route

def withoutAnchors (startAnchor endAnchor : Option PlaceId) (route : List PlaceId) : List PlaceId :=
  route.filter fun n ↦ some n ≠ startAnchor ∧ some n ≠ endAnchor

structure Outside (startAnchor endAnchor : Option PlaceId) (nodes : List PlaceId) : Prop where
  start : ∀ a ∈ startAnchor, a ∉ nodes
  finish : ∀ a ∈ endAnchor, a ∉ nodes

theorem Outside.mono {nodes nodes' : List PlaceId} (h : Outside startAnchor endAnchor nodes) (hs : nodes' ⊆ nodes) :
    Outside startAnchor endAnchor nodes' :=
  ⟨fun a ha hn ↦ h.start a ha (hs hn), fun a ha hn ↦ h.finish a ha (hs hn)⟩

def Splits (startAnchor endAnchor : Option PlaceId) (tier route skipped : List PlaceId) : Prop :=
  ∃ places, (route = [] ∧ places = [] ∨ route = startAnchor.toList ++ places ++ endAnchor.toList) ∧
    (places ++ skipped).Perm tier

theorem perm_split {l t : List PlaceId} (hl : l.Nodup) (ht : t.Nodup) (hsub : l ⊆ t) :
    (l ++ t.filter (· ∉ l)).Perm t := by
  have hin : l.Perm (t.filter (· ∈ l)) := by
    refine (List.perm_ext_iff_of_nodup hl (ht.filter _)).mpr fun n ↦ ?_
    simp only [List.mem_filter, decide_eq_true_eq, iff_and_self]
    exact fun hmem ↦ hsub hmem
  have hsplit : (t.filter (· ∈ l) ++ t.filter (· ∉ l)).Perm t := by
    simpa using List.filter_append_perm (· ∈ l) t
  exact (hin.append_right _).trans hsplit

theorem nnFromStart_splits (p : DayProblem) (endAnchor : Option PlaceId) (order : SetOrder)
    (tier : List PlaceId) (start : PlaceId) :
    nnFromStart p order tier endAnchor start = ([], tier) ∨
      ∃ mid skipped, nnFromStart p order tier endAnchor start = (start :: mid ++ endAnchor.toList, skipped) ∧
        (mid ++ skipped).Perm (setWithout tier start) := by
  cases hstart : nnStart p start with
  | none => exact .inl (by simp [nnFromStart, hstart])
  | some startS =>
    by_cases hend : p.dayEndS < startS + p.visitS start
    · exact .inl (by simp [nnFromStart, hstart, hend])
    · have hloop : NNInv p start (setWithout tier start) (nnLoop p order tier endAnchor
          (setWithout tier start).length ⟨[start], startS + p.visitS start, setWithout tier start⟩) :=
        nnLoop_inv _ (nnInv_start hstart hend)
      generalize hs : nnLoop p order tier endAnchor (setWithout tier start).length
        ⟨[start], startS + p.visitS start, setWithout tier start⟩ = s at hloop
      obtain ⟨mid, hmid, hperm⟩ := hloop.nodes
      cases happ : appendEndAnchor p endAnchor s with
      | none => exact .inl (by simp [nnFromStart, hstart, hend, hs, happ])
      | some route =>
        refine .inr ⟨mid, order.enum tier s.route s.unvisited, ?_, ?_⟩
        · rw [← hmid, ← appendEndAnchor_route happ]
          simp [nnFromStart, hstart, hend, hs, happ]
        · exact ((order.perm tier s.route s.unvisited).append_left mid).trans hperm

theorem nearestNeighbor_splits (weights : Option (PlaceId → Option ℤ)) (hn : tier.Nodup)
    (hout : Outside none endAnchor tier) :
    Splits none endAnchor tier (nearestNeighbor p order tier endAnchor weights).1
      (nearestNeighbor p order tier endAnchor weights).2 := by
  have hskip : (nearestNeighbor p order tier endAnchor weights).2 =
      tier.filter (· ∉ (nearestNeighbor p order tier endAnchor weights).1) := rfl
  generalize hr : (nearestNeighbor p order tier endAnchor weights).1 = route at hskip
  rw [hskip]
  have hempty : route = [] → Splits none endAnchor tier route (tier.filter (· ∉ route)) := by
    intro he
    exact ⟨[], .inl ⟨he, rfl⟩, by simp [he]⟩
  rcases nearestNeighbor_route p order tier endAnchor weights with he | ⟨start, hstart, he⟩
  · exact hempty (hr.symm.trans he)
  · rcases nnFromStart_splits p endAnchor order tier start with hnn | ⟨mid, skipped, hnn, hperm⟩
    · exact hempty (by rw [← hr, he, hnn])
    · have hroute : route = start :: mid ++ endAnchor.toList := by rw [← hr, he, hnn]
      have hmid : (start :: (mid ++ skipped)).Perm tier := by
        have hset : (start :: setWithout tier start).Perm tier := by
          refine (List.perm_ext_iff_of_nodup ?_ hn).mpr ?_
          · exact List.nodup_cons.mpr ⟨by simp [mem_setWithout], setWithout_nodup start⟩
          · intro n
            by_cases hns : n = start <;> simp [mem_setWithout, hns, hstart]
        exact (hperm.cons start).trans hset
      refine ⟨start :: mid, .inr (by simpa using hroute), ?_⟩
      have hrest : tier.filter (· ∉ route) = tier.filter (· ∉ start :: mid) := by
        refine List.filter_congr fun n hmem ↦ ?_
        have hne : n ∉ endAnchor.toList := fun h ↦ hout.finish n (Option.mem_toList.mp h) hmem
        simp only [hroute, List.mem_append, hne, or_false]
      rw [hrest]
      have hnodup : (start :: mid).Nodup := (List.nodup_append.mp (hmid.symm.nodup hn)).1
      exact perm_split hnodup hn fun n hmem ↦ hmid.subset (List.mem_append_left skipped hmem)

theorem attempt_splits (hn : tier.Nodup) (hout : Outside startAnchor endAnchor tier) :
    Splits startAnchor endAnchor tier (attempt p order priorities startAnchor endAnchor nodeIds tier).route
      (attempt p order priorities startAnchor endAnchor nodeIds tier).solverSkipped := by
  cases startAnchor with
  | none => exact nearestNeighbor_splits _ hn hout
  | some anchor =>
    have hset : (setWithout tier anchor).Perm tier := by
      refine (List.perm_ext_iff_of_nodup (setWithout_nodup anchor) hn).mpr fun n ↦ ?_
      rw [mem_setWithout, and_iff_left_iff_imp]
      rintro hmem rfl
      exact hout.start n rfl hmem
    rcases nnFromStart_splits p endAnchor order tier anchor with hnn | ⟨mid, skipped, hnn, hperm⟩
    · exact ⟨[], .inl ⟨by simp only [attempt, hnn], rfl⟩, by simp [attempt, hnn]⟩
    · exact ⟨mid, .inr (by simp [attempt, hnn]), by simpa [attempt, hnn] using hperm.trans hset⟩

section Splits

variable {route skipped : List PlaceId}

theorem Splits.places (h : Splits startAnchor endAnchor tier route skipped)
    (hout : Outside startAnchor endAnchor tier) :
    (withoutAnchors startAnchor endAnchor route ++ skipped).Perm tier := by
  obtain ⟨places, hroute, hperm⟩ := h
  have hplaces : withoutAnchors startAnchor endAnchor route = places := by
    have hkeep : ∀ n ∈ places, some n ≠ startAnchor ∧ some n ≠ endAnchor := by
      intro n hmem
      have htier := hperm.subset (List.mem_append_left skipped hmem)
      exact ⟨fun h ↦ hout.start n h.symm htier, fun h ↦ hout.finish n h.symm htier⟩
    rcases hroute with ⟨rfl, rfl⟩ | rfl
    · rfl
    · have hmid : withoutAnchors startAnchor endAnchor places = places := by
        simpa [withoutAnchors] using hkeep
      have hstart : withoutAnchors startAnchor endAnchor startAnchor.toList = [] := by
        cases startAnchor <;> simp [withoutAnchors]
      have hend : withoutAnchors startAnchor endAnchor endAnchor.toList = [] := by
        cases endAnchor <;> simp [withoutAnchors]
      simp only [withoutAnchors, List.filter_append] at hmid hstart hend ⊢
      rw [hstart, hmid, hend, List.nil_append, List.append_nil]
  rwa [hplaces]

/-- A place left out of the route of a candidate set is reported as skipped. -/
theorem Splits.covers (h : Splits startAnchor endAnchor tier route skipped) {n : PlaceId} (hn : n ∈ tier)
    (hs : n ∉ skipped) : n ∈ route := by
  obtain ⟨places, hroute, hperm⟩ := h
  have hmem : n ∈ places := (List.mem_append.mp (hperm.symm.subset hn)).resolve_right hs
  rcases hroute with ⟨_, rfl⟩ | rfl
  · simp at hmem
  · simp [hmem]

end Splits

theorem lower_weight {k : Priority} (h : k ≠ .mustSee) : priorityWeight k ≤ 1000 := by
  cases k <;> simp [priorityWeight] at h ⊢

theorem weight_bounds (priorities : PlaceId → Option Priority) (l : List PlaceId) :
    1000000 * ((l.filter (priorityOf priorities · = .mustSee)).length : ℤ) ≤
        (l.map fun n ↦ priorityWeight (priorityOf priorities n)).sum ∧
      (l.map fun n ↦ priorityWeight (priorityOf priorities n)).sum ≤
        1000000 * ((l.filter (priorityOf priorities · = .mustSee)).length : ℤ) + 1000 * l.length := by
  induction l with
  | nil => simp
  | cons n l ih =>
    simp only [List.map_cons, List.sum_cons, List.length_cons, List.filter_cons]
    have hpos := priorityWeight_pos (priorityOf priorities n)
    by_cases hk : priorityOf priorities n = .mustSee
    · have hw : priorityWeight (priorityOf priorities n) = 1000000 := by rw [hk]; rfl
      simp only [hk, decide_true, if_true, List.length_cons]
      rw [hk] at hw
      omega
    · have hw : priorityWeight (priorityOf priorities n) ≤ 1000 := lower_weight hk
      simp only [hk, decide_false, Bool.false_eq_true, if_false]
      omega

/-- The score of an attempt counts the places it visits, each by its weight. -/
theorem score_eq {route : List PlaceId} (hn : nodeIds.Nodup) (hr : (withoutAnchors startAnchor endAnchor route).Nodup)
    (hout : Outside startAnchor endAnchor nodeIds) {a : Attempt} (ha : a.route = route) :
    attemptScore priorities nodeIds a =
      ((nodeIds.filter (· ∈ route)).map fun n ↦ priorityWeight (priorityOf priorities n)).sum := by
  have hvisited : ((withoutAnchors startAnchor endAnchor route).filter (· ∈ nodeIds)).Perm
      (nodeIds.filter (· ∈ route)) := by
    refine (List.perm_ext_iff_of_nodup (hr.filter _) (hn.filter _)).mpr fun n ↦ ?_
    simp only [withoutAnchors, List.mem_filter, decide_eq_true_eq]
    constructor
    · rintro ⟨⟨hroute, _⟩, hnode⟩
      exact ⟨hnode, hroute⟩
    · rintro ⟨hnode, hroute⟩
      exact ⟨⟨hroute, fun h ↦ hout.start n h.symm hnode, fun h ↦ hout.finish n h.symm hnode⟩, hnode⟩
  have hscore : ∀ l : List PlaceId, (l.map fun n ↦ (weights priorities nodeIds n).getD 0).sum =
      (((withoutAnchors startAnchor endAnchor l).filter (· ∈ nodeIds)).map fun n ↦
        priorityWeight (priorityOf priorities n)).sum := by
    intro l
    induction l with
    | nil => rfl
    | cons n l ih =>
      by_cases hnode : n ∈ nodeIds
      · have hs : some n ≠ startAnchor := fun h ↦ hout.start n h.symm hnode
        have he : some n ≠ endAnchor := fun h ↦ hout.finish n h.symm hnode
        have hkeep : withoutAnchors startAnchor endAnchor (n :: l) = n :: withoutAnchors startAnchor endAnchor l := by
          simp [withoutAnchors, hs, he]
        rw [hkeep, List.map_cons, List.sum_cons, ih]
        simp [weights, hnode]
      · have hskip : ((withoutAnchors startAnchor endAnchor (n :: l)).filter (· ∈ nodeIds)) =
            (withoutAnchors startAnchor endAnchor l).filter (· ∈ nodeIds) := by
          by_cases h : some n ≠ startAnchor ∧ some n ≠ endAnchor <;> simp [withoutAnchors, h, hnode]
        rw [hskip, ← ih]
        simp [weights, hnode]
  rw [attemptScore, ha, hscore]
  exact (hvisited.map _).sum_eq

theorem mustSees_eq (route : List PlaceId) : mustSees priorities nodeIds route =
    (nodeIds.filter (· ∈ route)).filter (priorityOf priorities · = .mustSee) := by
  rw [mustSees, List.filter_filter]
  exact List.filter_congr fun n _ ↦ by simp

section Attempts

variable (p order priorities startAnchor endAnchor nodeIds)

def OnSubset (a : Attempt) : Prop :=
  ∃ tier : List PlaceId, tier.Sublist nodeIds ∧ a = attempt p order priorities startAnchor endAnchor nodeIds tier

variable {p order priorities startAnchor endAnchor nodeIds}

theorem OnSubset.splits {a : Attempt} (h : OnSubset p order priorities startAnchor endAnchor nodeIds a)
    (hn : nodeIds.Nodup) (hout : Outside startAnchor endAnchor nodeIds) :
    a.tier.Sublist nodeIds ∧ Outside startAnchor endAnchor a.tier ∧
      Splits startAnchor endAnchor a.tier a.route a.solverSkipped := by
  obtain ⟨tier, hsub, rfl⟩ := h
  have htier := hout.mono hsub.subset
  exact ⟨hsub, htier, attempt_splits (hn.sublist hsub) htier⟩

theorem OnSubset.score {a : Attempt} (h : OnSubset p order priorities startAnchor endAnchor nodeIds a)
    (hn : nodeIds.Nodup) (hout : Outside startAnchor endAnchor nodeIds) :
    attemptScore priorities nodeIds a =
      ((nodeIds.filter (· ∈ a.route)).map fun n ↦ priorityWeight (priorityOf priorities n)).sum := by
  obtain ⟨hsub, htier, hsplit⟩ := h.splits hn hout
  have hplaces := (hsplit.places htier).symm.nodup (hn.sublist hsub)
  exact score_eq hn (List.nodup_append.mp hplaces).1 hout rfl

/-- A heavier attempt visits at least as many must-see places. -/
theorem mustSees_le_of_score {a b : Attempt} (hn : nodeIds.Nodup) (hlt : nodeIds.length < 1000)
    (hout : Outside startAnchor endAnchor nodeIds)
    (ha : OnSubset p order priorities startAnchor endAnchor nodeIds a)
    (hb : OnSubset p order priorities startAnchor endAnchor nodeIds b)
    (h : attemptScore priorities nodeIds a ≤ attemptScore priorities nodeIds b) :
    (mustSees priorities nodeIds a.route).length ≤ (mustSees priorities nodeIds b.route).length := by
  have hlow := (weight_bounds priorities (nodeIds.filter (· ∈ a.route))).1
  have hhigh := (weight_bounds priorities (nodeIds.filter (· ∈ b.route))).2
  have hlen : (nodeIds.filter (· ∈ b.route)).length ≤ nodeIds.length := List.length_filter_le _ _
  rw [← ha.score hn hout, ← mustSees_eq] at hlow
  rw [← hb.score hn hout, ← mustSees_eq] at hhigh
  omega

/-- The solver stops early only when every must-see place is on the route. -/
theorem mustSees_full {a : Attempt} (h : Splits startAnchor endAnchor a.tier a.route a.solverSkipped)
    (hfull : ∀ n ∈ nodeIds, priorityOf priorities n = .mustSee → n ∈ a.tier)
    (hskip : a.solverSkipped.any (priorityOf priorities · = .mustSee) = false) (route : List PlaceId) :
    (mustSees priorities nodeIds route).length ≤ (mustSees priorities nodeIds a.route).length := by
  have hall : mustSees priorities nodeIds a.route = nodeIds.filter (priorityOf priorities · = .mustSee) := by
    refine List.filter_congr fun n hnode ↦ decide_eq_decide.mpr (and_iff_left_of_imp fun hmust ↦ ?_)
    refine h.covers (hfull n hnode hmust) fun hmem ↦ ?_
    have hnone := List.any_eq_false.mp hskip n hmem
    exact hnone (decide_eq_true hmust)
  rw [hall, mustSees_eq]
  exact (List.filter_sublist.filter _).length_le

theorem better_kept {a best : Attempt} {score : ℤ} (hn : nodeIds.Nodup) (hlt : nodeIds.length < 1000)
    (hout : Outside startAnchor endAnchor nodeIds)
    (ha : OnSubset p order priorities startAnchor endAnchor nodeIds a)
    (hbest : OnSubset p order priorities startAnchor endAnchor nodeIds best)
    (hscore : score = attemptScore priorities nodeIds best) :
    ∃ next, (if score < attemptScore priorities nodeIds a then some a else some best) = some next ∧
      max score (attemptScore priorities nodeIds a) = attemptScore priorities nodeIds next ∧
      OnSubset p order priorities startAnchor endAnchor nodeIds next ∧
      (mustSees priorities nodeIds a.route).length ≤ (mustSees priorities nodeIds next.route).length ∧
      (mustSees priorities nodeIds best.route).length ≤ (mustSees priorities nodeIds next.route).length := by
  by_cases hbetter : score < attemptScore priorities nodeIds a
  · refine ⟨a, if_pos hbetter, max_eq_right hbetter.le, ha, le_rfl, ?_⟩
    exact mustSees_le_of_score hn hlt hout hbest ha (by rw [← hscore]; exact hbetter.le)
  · refine ⟨best, if_neg hbetter, ?_, hbest, ?_, le_rfl⟩
    · rw [max_eq_left (not_lt.mp hbetter), hscore]
    · exact mustSees_le_of_score hn hlt hout ha hbest (by rw [← hscore]; exact not_lt.mp hbetter)

theorem tierLoop_beats (hn : nodeIds.Nodup) (hlt : nodeIds.length < 1000)
    (hout : Outside startAnchor endAnchor nodeIds) (l : List (List PlaceId)) (prev : List PlaceId) (s : TierState)
    (best : Attempt) (hbest : s.best = some best) (hscore : s.bestScore = attemptScore priorities nodeIds best)
    (hon : OnSubset p order priorities startAnchor endAnchor nodeIds best) (hsize : s.prevSize = some prev.length)
    (hchain : List.Pairwise (fun t t' : List PlaceId ↦ t'.Sublist t) (nodeIds :: prev :: l))
    (hfull : ∀ tier ∈ l, ∀ n ∈ nodeIds, priorityOf priorities n = .mustSee → n ∈ tier)
    (hprev : (mustSees priorities nodeIds
        (attempt p order priorities startAnchor endAnchor nodeIds prev).route).length ≤
      (mustSees priorities nodeIds best.route).length) :
    ∃ kept, (tierLoop p order priorities startAnchor endAnchor nodeIds l s).best = some kept ∧
      OnSubset p order priorities startAnchor endAnchor nodeIds kept ∧
      (mustSees priorities nodeIds best.route).length ≤ (mustSees priorities nodeIds kept.route).length ∧
      ∀ tier ∈ l, (mustSees priorities nodeIds
        (attempt p order priorities startAnchor endAnchor nodeIds tier).route).length ≤
          (mustSees priorities nodeIds kept.route).length := by
  induction l generalizing prev s best with
  | nil => exact ⟨best, hbest, hon, le_rfl, by simp⟩
  | cons tier rest ih =>
    have hsub : tier.Sublist nodeIds := List.rel_of_pairwise_cons hchain (by simp)
    have hdown : tier.Sublist prev := List.rel_of_pairwise_cons (List.pairwise_cons.mp hchain).2 (by simp)
    have hrestfull : ∀ t ∈ rest, ∀ n ∈ nodeIds, priorityOf priorities n = .mustSee → n ∈ t :=
      fun t ht ↦ hfull t (List.mem_cons_of_mem _ ht)
    unfold tierLoop
    by_cases hrepeat : s.prevSize = some tier.length
    · -- a tier of the same size is the tier before, so its attempt is that attempt
      obtain rfl : tier = prev := hdown.eq_of_length (by simpa [hsize, eq_comm] using hrepeat)
      rw [if_pos hrepeat]
      obtain ⟨kept, hk, hko, hkb, hkr⟩ := ih tier s best hbest hscore hon hsize
        (hchain.sublist (by simp)) hrestfull hprev
      refine ⟨kept, hk, hko, hkb, ?_⟩
      rintro t ht
      rcases List.mem_cons.mp ht with rfl | ht
      · exact hprev.trans hkb
      · exact hkr t ht
    · rw [if_neg hrepeat]
      dsimp only
      generalize ha : attempt p order priorities startAnchor endAnchor nodeIds tier = a
      have haon : OnSubset p order priorities startAnchor endAnchor nodeIds a := ⟨tier, hsub, ha.symm⟩
      obtain ⟨next, hnext, hnscore, hnon, hna, hnb⟩ := better_kept hn hlt hout haon hon hscore
      rw [← hbest] at hnext
      cases hskip : a.solverSkipped.any (priorityOf priorities · = .mustSee) with
      | true =>
        simp only [if_true]
        obtain ⟨kept, hk, hko, hkb, hkr⟩ := ih tier ⟨_, _, some tier.length⟩ next hnext hnscore hnon rfl
          (hchain.sublist (by simp)) hrestfull (by rw [ha]; exact hna)
        refine ⟨kept, hk, hko, hnb.trans hkb, ?_⟩
        rintro t ht
        rcases List.mem_cons.mp ht with rfl | ht
        · rw [ha]; exact hna.trans hkb
        · exact hkr t ht
      | false =>
        refine ⟨next, by simpa using hnext, hnon, hnb, ?_⟩
        have hsplit := (haon.splits hn hout).2.2
        have htier : a.tier = tier := by rw [← ha]; rfl
        intro t _
        refine (mustSees_full hsplit ?_ hskip _).trans hna
        rw [htier]
        exact hfull tier List.mem_cons_self

theorem tiers_chain (priorities : PlaceId → Option Priority) (nodeIds : List PlaceId) :
    List.Pairwise (fun t t' : List PlaceId ↦ t'.Sublist t) (nodeIds :: tiers priorities nodeIds) := by
  have hmust : (nodeIds.filter (priorityOf priorities · = .mustSee)).Sublist
      (nodeIds.filter (priorityOf priorities · ≠ .optional)) := by
    refine List.monotone_filter_right nodeIds fun n h ↦ ?_
    have hk : priorityOf priorities n = .mustSee := by simpa using h
    simp [hk]
  refine List.pairwise_cons.mpr ⟨fun t ht ↦ tiers_sublist ht, List.pairwise_cons.mpr ⟨?_, ?_⟩⟩
  · intro t ht
    have hmem : t ∈ tiers priorities nodeIds := List.mem_cons_of_mem nodeIds ht
    exact tiers_sublist hmem
  · exact List.pairwise_cons.mpr ⟨by simpa only [List.mem_singleton, forall_eq] using hmust,
      List.pairwise_singleton _ _⟩

theorem tiers_full {tier : List PlaceId} (ht : tier ∈ tiers priorities nodeIds) {n : PlaceId} (hn : n ∈ nodeIds)
    (hmust : priorityOf priorities n = .mustSee) : n ∈ tier := by
  simp only [tiers, List.mem_cons, List.not_mem_nil, or_false] at ht
  rcases ht with rfl | rfl | rfl
  · exact hn
  · exact List.mem_filter.mpr ⟨hn, by simp [hmust]⟩
  · exact List.mem_filter.mpr ⟨hn, by simp [hmust]⟩

theorem tierLoop_kept (p : DayProblem) (order : SetOrder) (priorities : PlaceId → Option Priority)
    (hn : nodeIds.Nodup) (hlt : nodeIds.length < 1000) (hout : Outside startAnchor endAnchor nodeIds) :
    ∃ kept, (tierLoop p order priorities startAnchor endAnchor nodeIds (tiers priorities nodeIds)
        ⟨none, -1, none⟩).best = some kept ∧
      OnSubset p order priorities startAnchor endAnchor nodeIds kept ∧
      ∀ tier ∈ tiers priorities nodeIds, (mustSees priorities nodeIds
        (attempt p order priorities startAnchor endAnchor nodeIds tier).route).length ≤
          (mustSees priorities nodeIds kept.route).length := by
  have hchain := tiers_chain priorities nodeIds
  have hfull : ∀ tier ∈ tiers priorities nodeIds, ∀ n ∈ nodeIds, priorityOf priorities n = .mustSee → n ∈ tier :=
    fun _ ht _ ↦ tiers_full ht
  rw [tiers] at hchain hfull ⊢
  rw [tierLoop, if_neg (by simp)]
  dsimp only
  generalize ha : attempt p order priorities startAnchor endAnchor nodeIds nodeIds = a
  have haon : OnSubset p order priorities startAnchor endAnchor nodeIds a := ⟨nodeIds, .refl _, ha.symm⟩
  have hscore : -1 < attemptScore priorities nodeIds a := lt_of_lt_of_le (by decide) (attemptScore_nonneg a)
  rw [if_pos hscore, max_eq_right hscore.le]
  cases hskip : a.solverSkipped.any (priorityOf priorities · = .mustSee) with
  | true =>
    simp only [if_true]
    obtain ⟨kept, hk, hko, hkb, hkr⟩ := tierLoop_beats hn hlt hout _ nodeIds
      ⟨some a, attemptScore priorities nodeIds a, some nodeIds.length⟩ a rfl rfl haon rfl hchain
      (fun t ht ↦ hfull t (List.mem_cons_of_mem _ ht)) (by rw [ha])
    refine ⟨kept, hk, hko, fun t ht ↦ ?_⟩
    rcases List.mem_cons.mp ht with rfl | ht
    · rw [ha]; exact hkb
    · exact hkr t ht
  | false =>
    refine ⟨a, by simp, haon, fun t _ ↦ ?_⟩
    have htier : a.tier = nodeIds := by rw [← ha]; rfl
    refine mustSees_full (haon.splits hn hout).2.2 ?_ hskip _
    rw [htier]
    exact fun n hnode _ ↦ hnode

/-- Of the three candidate sets none has an attempt with more must-see places
than the route returned, and what is returned accounts for every node. -/
theorem solve_keeps_must_sees (p : DayProblem) (order : SetOrder) (priorities : PlaceId → Option Priority)
    (startAnchor endAnchor : Option PlaceId) (nodeIds : List PlaceId) (hn : nodeIds.Nodup)
    (hlt : nodeIds.length < 1000) (hout : Outside startAnchor endAnchor nodeIds) :
    ∃ s, solveWithPriorities p order priorities startAnchor endAnchor nodeIds = some s ∧
      (∀ tier ∈ tiers priorities nodeIds, (mustSees priorities nodeIds
        (attempt p order priorities startAnchor endAnchor nodeIds tier).route).length ≤
          (mustSees priorities nodeIds s.route).length) ∧
      (withoutAnchors startAnchor endAnchor s.route ++ s.solverSkipped ++ s.dropped).Perm nodeIds := by
  obtain ⟨kept, hkept, hon, hmost⟩ := tierLoop_kept p order priorities hn hlt hout
  obtain ⟨hsub, htier, hsplit⟩ := hon.splits hn hout
  refine ⟨⟨kept.route, kept.solverSkipped, nodeIds.filter (· ∉ kept.tier), kept.tier⟩, ?_, hmost, ?_⟩
  · simp [solveWithPriorities, hkept]
  · exact ((hsplit.places htier).append_right _).trans (perm_split (hn.sublist hsub) hn hsub.subset)

def shortDay : DayProblem where
  matrix := ⟨fun leg ↦ some ⟨leg.1, leg.2, 800, if leg = ("louvre", "orsay") then 600 else 60⟩⟩
  timeWindows := fun _ ↦ none
  visitDurationsS := fun _ ↦ some 1200
  dayStartS := 32400
  dayEndS := 36000

def shortDayPriorities (n : PlaceId) : Option Priority := if n = "kiosk" then some .optional else some .mustSee

def shortDayPlaces : List PlaceId := ["louvre", "orsay", "kiosk"]

theorem solve_keeps_must_sees_short :
    ∃ s, solveWithPriorities shortDay .insertion shortDayPriorities (some "__start__") none shortDayPlaces = some s ∧
      (∀ tier ∈ tiers shortDayPriorities shortDayPlaces, (mustSees shortDayPriorities shortDayPlaces
        (attempt shortDay .insertion shortDayPriorities (some "__start__") none shortDayPlaces tier).route).length ≤
          (mustSees shortDayPriorities shortDayPlaces s.route).length) ∧
      (withoutAnchors (some "__start__") none s.route ++ s.solverSkipped ++ s.dropped).Perm shortDayPlaces :=
  solve_keeps_must_sees shortDay .insertion shortDayPriorities (some "__start__") none shortDayPlaces (by decide)
    (by decide) ⟨by rintro _ ⟨⟩; decide, by rintro _ ⟨⟩⟩

end Attempts

end TravelPlanner.MustSee
