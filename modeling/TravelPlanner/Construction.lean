import TravelPlanner.TimedRoutes

namespace TravelPlanner.Construction

open Requests Windows Engine TimedRoutes

variable {p : DayProblem} {order : SetOrder} {nodes : List PlaceId} {endAnchor : Option PlaceId}

def Chosen (p : DayProblem) (endAnchor : Option PlaceId) (last : PlaceId) (currentS : ℤ)
    (candidates : List PlaceId) (best : Best) : Prop :=
  ∀ node ∈ best.node, node ∈ candidates ∧ ∃ leg startS closeS,
    p.matrix.get last node = some leg ∧ best.travelS = leg.durationS ∧
    candidateSlot p node (currentS + leg.durationS) = some (startS, closeS) ∧
    reachesEnd p endAnchor node (startS + p.visitS node) = true

theorem consider_cases (last : PlaceId) (currentS : ℤ) (best : Best) (candidate : PlaceId) :
    consider p endAnchor last currentS best candidate = best ∨
      ∃ leg startS closeS, p.matrix.get last candidate = some leg ∧
        candidateSlot p candidate (currentS + leg.durationS) = some (startS, closeS) ∧
        reachesEnd p endAnchor candidate (startS + p.visitS candidate) = true ∧
        consider p endAnchor last currentS best candidate = ⟨some candidate, closeS, leg.durationS⟩ := by
  cases hleg : p.matrix.get last candidate with
  | none => exact .inl (by simp [consider, hleg])
  | some leg =>
    cases hslot : candidateSlot p candidate (currentS + leg.durationS) with
    | none => exact .inl (by simp [consider, hleg, hslot])
    | some slot =>
      obtain ⟨startS, closeS⟩ := slot
      cases hend : reachesEnd p endAnchor candidate (startS + p.visitS candidate) with
      | false => exact .inl (by simp [consider, hleg, hslot, hend])
      | true =>
        by_cases hbetter : closeS < best.closeS ∨ closeS = best.closeS ∧ leg.durationS < best.travelS
        · exact .inr ⟨leg, startS, closeS, rfl, hslot, hend, by
            simp [consider, hleg, hslot, hend, hbetter]⟩
        · exact .inl (by simp [consider, hleg, hslot, hend, hbetter])

theorem consider_chosen {last : PlaceId} {currentS : ℤ} {candidates : List PlaceId} {best : Best}
    (h : Chosen p endAnchor last currentS candidates best) {candidate : PlaceId}
    (hc : candidate ∈ candidates) :
    Chosen p endAnchor last currentS candidates (consider p endAnchor last currentS best candidate) := by
  rcases consider_cases last currentS best candidate with he | he
  · rwa [he]
  · obtain ⟨leg, startS, closeS, hleg, hslot, hend, he⟩ := he
    rw [he]
    intro node hnode
    obtain rfl : candidate = node := by simpa using hnode
    exact ⟨hc, leg, startS, closeS, hleg, rfl, hslot, hend⟩

theorem foldl_chosen {last : PlaceId} {currentS : ℤ} {candidates : List PlaceId} (l : List PlaceId)
    (hl : l ⊆ candidates) {best : Best} (h : Chosen p endAnchor last currentS candidates best) :
    Chosen p endAnchor last currentS candidates (l.foldl (consider p endAnchor last currentS) best) := by
  induction l generalizing best with
  | nil => exact h
  | cons c l ih =>
    exact ih (List.subset_of_cons_subset hl) (consider_chosen h (hl List.mem_cons_self))

theorem nnStep_spec {s s' : NNState} (h : nnStep p order nodes endAnchor s = some s') :
    ∃ last node leg startS, s.route.getLast? = some last ∧ node ∈ s.unvisited ∧
      p.matrix.get last node = some leg ∧
      p.serviceStart node (s.currentS + leg.durationS) = some startS ∧
      startS + p.visitS node ≤ p.dayEndS ∧
      s' = ⟨s.route ++ [node], startS + p.visitS node, s.unvisited.erase node⟩ := by
  simp only [nnStep, Option.bind_eq_bind, Option.bind_eq_some_iff] at h
  obtain ⟨last, hlast, node, hnode, startS, hstart, h⟩ := h
  have hchosen : Chosen p endAnchor last s.currentS s.unvisited
      ((order.enum nodes s.route s.unvisited).foldl (consider p endAnchor last s.currentS) Best.start) :=
    foldl_chosen _ (order.perm nodes s.route s.unvisited).subset (by simp [Chosen, Best.start])
  obtain ⟨hmem, leg, _, _, hleg, htravel, _, _⟩ := hchosen node hnode
  rw [htravel] at hstart
  split_ifs at h with hend
  exact ⟨last, node, leg, startS, hlast, hmem, hleg, hstart, not_lt.mp hend, (Option.some.inj h).symm⟩

/-- The route built so far is timed and ends now, and with the unvisited nodes
it accounts for every candidate. -/
structure NNInv (p : DayProblem) (start : PlaceId) (candidates : List PlaceId) (s : NNState) : Prop where
  timed : ∃ visits last, Timed p none p.dayStartS s.route visits ∧
    visits.getLast? = some last ∧ last.departureS = s.currentS
  in_time : s.currentS ≤ p.dayEndS
  nodes : ∃ mid, s.route = start :: mid ∧ (mid ++ s.unvisited).Perm candidates

theorem nnStart_eq (start : PlaceId) : nnStart p start = p.serviceStart start p.dayStartS := by
  unfold nnStart DayProblem.serviceStart
  cases p.timeWindows start <;> simp

theorem nnInv_start {start : PlaceId} {startS : ℤ} (hstart : nnStart p start = some startS)
    (hend : ¬p.dayEndS < startS + p.visitS start) :
    NNInv p start (setWithout nodes start) ⟨[start], startS + p.visitS start, setWithout nodes start⟩ := by
  let v : Visit := ⟨start, p.dayStartS, startS + p.visitS start, 0⟩
  refine ⟨⟨[v], v, timed_cons.mpr ⟨rfl, rfl, by simp [v], ⟨startS, ?_, rfl⟩, .nil⟩, rfl, rfl⟩,
    not_lt.mp hend, [], rfl, .rfl⟩
  rw [← hstart, nnStart_eq]

theorem nnStep_inv {start : PlaceId} {candidates : List PlaceId} {s s' : NNState}
    (hs : NNInv p start candidates s) (h : nnStep p order nodes endAnchor s = some s') :
    NNInv p start candidates s' := by
  obtain ⟨last, node, leg, startS, hlast, hmem, hleg, hstart, hend, rfl⟩ := nnStep_spec h
  obtain ⟨visits, lastVisit, ht, hv, hcur⟩ := hs.timed
  obtain ⟨mid, hroute, hperm⟩ := hs.nodes
  have hplace : lastVisit.placeId = last := by
    simpa [hlast] using (ht.getLast_place hv).symm
  let w : Visit := ⟨node, s.currentS + leg.durationS, startS + p.visitS node, leg.durationS⟩
  have hfollows : Follows p lastVisit w := ⟨leg, by rw [hplace]; exact hleg, rfl, by simp [w, hcur]⟩
  refine ⟨⟨visits ++ [w], w, ht.snoc hv hfollows ⟨startS, hstart, rfl⟩, by simp, rfl⟩, hend,
    mid ++ [node], by simp [hroute], ?_⟩
  have herase : (node :: s.unvisited.erase node).Perm s.unvisited := (List.perm_cons_erase hmem).symm
  have := (herase.append_left mid).trans hperm
  simpa using this

theorem nnLoop_inv {start : PlaceId} {candidates : List PlaceId} (n : ℕ) {s : NNState}
    (hs : NNInv p start candidates s) : NNInv p start candidates (nnLoop p order nodes endAnchor n s) := by
  induction n generalizing s with
  | zero => exact hs
  | succ n ih =>
    unfold nnLoop
    cases h : nnStep p order nodes endAnchor s with
    | none => exact hs
    | some s' => exact ih (nnStep_inv hs h)

def AnchorFree (p : DayProblem) (anchor : Option PlaceId) : Prop :=
  ∀ a ∈ anchor, p.timeWindows a = none ∧ p.visitDurationsS a = none

structure Constructed (p : DayProblem) (start : PlaceId) (nodes : List PlaceId) (endAnchor : Option PlaceId)
    (route skipped : List PlaceId) : Prop where
  shape : ∃ mid, route = start :: mid ++ endAnchor.toList ∧
    (mid ++ skipped).Perm (setWithout nodes start)
  timed : ∃ visits, Timed p none p.dayStartS route visits
  feasible : p.matrix.NonNeg → VisitsNonNeg p → isFeasible p route = true

theorem appendEndAnchor_route {s : NNState} {route : List PlaceId} (h : appendEndAnchor p endAnchor s = some route) :
    route = s.route ++ endAnchor.toList := by
  cases endAnchor with
  | none => simpa [appendEndAnchor, eq_comm] using h
  | some anchor =>
    simp only [appendEndAnchor, Option.bind_eq_bind, Option.bind_eq_some_iff] at h
    obtain ⟨_, _, _, _, h⟩ := h
    split_ifs at h
    exact (Option.some.inj h).symm

theorem appendEndAnchor_spec {start : PlaceId} {candidates : List PlaceId} {s : NNState} {route : List PlaceId}
    (hs : NNInv p start candidates s) (ha : AnchorFree p endAnchor)
    (h : appendEndAnchor p endAnchor s = some route) :
    route = s.route ++ endAnchor.toList ∧ (∃ visits, Timed p none p.dayStartS route visits) ∧
      (p.matrix.NonNeg → VisitsNonNeg p → isFeasible p route = true) := by
  obtain ⟨visits, last, ht, hlast, hcur⟩ := hs.timed
  cases endAnchor with
  | none =>
    obtain rfl : s.route = route := by simpa [appendEndAnchor] using h
    refine ⟨by simp, ⟨visits, ht⟩, fun _ _ ↦ isFeasible_iff.mpr ⟨visits, last, ht, hlast, ?_⟩⟩
    rw [hcur]; exact hs.in_time
  | some anchor =>
    simp only [appendEndAnchor, Option.bind_eq_bind, Option.bind_eq_some_iff] at h
    obtain ⟨node, hnode, leg, hleg, h⟩ := h
    split_ifs at h with hend
    obtain rfl := Option.some.inj h
    obtain ⟨hw, hd⟩ := ha anchor rfl
    have hplace : last.placeId = node := by simpa [hnode] using (ht.getLast_place hlast).symm
    let w : Visit := ⟨anchor, s.currentS + leg.durationS, max (s.currentS + leg.durationS) p.dayStartS,
      leg.durationS⟩
    have hfollows : Follows p last w := ⟨leg, by rw [hplace]; exact hleg, rfl, by simp [w, hcur]⟩
    have hserved : Served p w :=
      ⟨_, by simp only [w, DayProblem.serviceStart, hw]; rfl, by simp [w, DayProblem.visitS, hd]⟩
    have htimed := ht.snoc hlast hfollows hserved
    refine ⟨rfl, ⟨_, htimed⟩, fun hm hv ↦ isFeasible_iff.mpr ⟨_, w, htimed, by simp, ?_⟩⟩
    have hstart := ht.after_start hm hv last (List.mem_of_getLast? hlast)
    have hserv := (ht.served last (List.mem_of_getLast? hlast)).arrival_le hv
    have hnonneg := hm _ _ _ hleg
    simp only [w]
    omega

theorem nnFromStart_spec (order : SetOrder) (nodes : List PlaceId) (start : PlaceId) (ha : AnchorFree p endAnchor) :
    nnFromStart p order nodes endAnchor start = ([], nodes) ∨
      Constructed p start nodes endAnchor (nnFromStart p order nodes endAnchor start).1
        (nnFromStart p order nodes endAnchor start).2 := by
  cases hstart : nnStart p start with
  | none => exact .inl (by simp [nnFromStart, hstart])
  | some startS =>
    by_cases hend : p.dayEndS < startS + p.visitS start
    · exact .inl (by simp [nnFromStart, hstart, hend])
    · have hloop : NNInv p start (setWithout nodes start) (nnLoop p order nodes endAnchor
          (setWithout nodes start).length ⟨[start], startS + p.visitS start, setWithout nodes start⟩) :=
        nnLoop_inv _ (nnInv_start hstart hend)
      generalize hs : nnLoop p order nodes endAnchor (setWithout nodes start).length
        ⟨[start], startS + p.visitS start, setWithout nodes start⟩ = s at hloop
      cases happ : appendEndAnchor p endAnchor s with
      | none => exact .inl (by simp [nnFromStart, hstart, hend, hs, happ])
      | some route =>
        have he : nnFromStart p order nodes endAnchor start =
            (route, order.enum nodes s.route s.unvisited) := by
          simp [nnFromStart, hstart, hend, hs, happ]
        obtain ⟨hroute, htimed, hfeasible⟩ := appendEndAnchor_spec hloop ha happ
        obtain ⟨mid, hmid, hperm⟩ := hloop.nodes
        rw [he]
        refine .inr ⟨⟨mid, by simp [hroute, hmid], ?_⟩, htimed, hfeasible⟩
        exact ((order.perm nodes s.route s.unvisited).append_left mid).trans hperm

end TravelPlanner.Construction
