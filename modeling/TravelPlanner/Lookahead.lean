import TravelPlanner.Maximality

namespace TravelPlanner.Lookahead

open Requests Engine Construction Selection ConstructionRuns Maximality Relation

section Turns

variable {p : DayProblem} {order : SetOrder} {nodes : List PlaceId} {endAnchor : Option PlaceId} {start : PlaceId}
  {s s' s₀ : NNState}

theorem step_reachesEnd (h : nnStep p order nodes endAnchor s = some s') :
    ∃ last, s'.route.getLast? = some last ∧ reachesEnd p endAnchor last s'.currentS = true := by
  obtain ⟨_, node, d, -, hnode, hd, -, rfl⟩ := nnStep_eq_some.mp h
  obtain ⟨d', hd', hend⟩ := candidateKey_departure (scan_least hnode).2
  obtain rfl : d = d' := Option.some.inj (hd.symm.trans hd')
  exact ⟨node, List.getLast?_concat, hend⟩

theorem appendEndAnchor_of_reaches {last : PlaceId} (hlast : s.route.getLast? = some last)
    (hend : reachesEnd p endAnchor last s.currentS = true) :
    appendEndAnchor p endAnchor s = some (s.route ++ endAnchor.toList) := by
  unfold appendEndAnchor
  cases endAnchor with
  | none => simp
  | some anchor =>
    obtain ⟨back, hback, hle⟩ := reachesEnd_iff.mp hend anchor rfl
    simp [hlast, hback, not_lt.mpr hle]

theorem Turn.first_or_step (hinit : nnInit p nodes start = some s₀) (h : Turn p order nodes endAnchor start s) :
    s = s₀ ∨ ∃ b, nnStep p order nodes endAnchor b = some s := by
  obtain ⟨s₁, hinit', hreach⟩ := h
  obtain rfl : s₀ = s₁ := Option.some.inj (hinit.symm.trans hinit')
  rcases ReflTransGen.cases_tail hreach with rfl | ⟨b, -, hb⟩
  · exact .inl rfl
  · exact .inr ⟨b, hb⟩

theorem nnInit_route (h : nnInit p nodes start = some s₀) : s₀.route = [start] := by
  simp only [nnInit, Option.bind_eq_bind, Option.bind_eq_some_iff] at h
  obtain ⟨startS, -, h⟩ := h
  split_ifs at h
  obtain rfl := Option.some.inj h
  rfl

end Turns

section Anchored

variable {p : DayProblem} {order : SetOrder} {nodes : List PlaceId} {anchor start : PlaceId} {s s₀ : NNState}

def StartFits (p : DayProblem) (start : PlaceId) : Prop :=
  ∃ startS, nnStart p start = some startS ∧ startS + p.visitS start ≤ p.dayEndS

/-- The leg from the last stop to the anchor exists and ends within the day. -/
def InReach (p : DayProblem) (anchor : PlaceId) (s : NNState) : Prop :=
  ∃ last leg, s.route.getLast? = some last ∧ p.matrix.get last anchor = some leg ∧
    s.currentS + leg.durationS ≤ p.dayEndS

theorem nnInit_eq_none : nnInit p nodes start = none ↔ ¬StartFits p start := by
  unfold nnInit StartFits
  cases nnStart p start with
  | none => simp
  | some startS => simp

theorem inReach_of_step {b : NNState} (h : nnStep p order nodes (some anchor) b = some s) : InReach p anchor s := by
  obtain ⟨last, hlast, hend⟩ := step_reachesEnd h
  obtain ⟨leg, hleg, hle⟩ := reachesEnd_iff.mp hend anchor rfl
  exact ⟨last, leg, hlast, hleg, hle⟩

theorem inReach_of_turn (h : Turn p order nodes (some anchor) start s) (hne : s.route ≠ [start]) :
    InReach p anchor s := by
  obtain ⟨s₀, hinit, -⟩ := id h
  rcases Turn.first_or_step hinit h with rfl | ⟨b, hb⟩
  · exact absurd (nnInit_route hinit) hne
  · exact inReach_of_step hb

theorem appendEndAnchor_inReach (h : InReach p anchor s) :
    appendEndAnchor p (some anchor) s = some (s.route ++ [anchor]) := by
  obtain ⟨last, leg, hlast, hleg, hle⟩ := h
  exact appendEndAnchor_of_reaches hlast (reachesEnd_iff.mpr fun a ha ↦ by cases ha; exact ⟨leg, hleg, hle⟩)

theorem appendEndAnchor_outOfReach (h : ¬InReach p anchor s) : appendEndAnchor p (some anchor) s = none := by
  by_contra hne
  obtain ⟨route, hroute⟩ := Option.ne_none_iff_exists'.mp hne
  simp only [appendEndAnchor, Option.bind_eq_bind, Option.bind_eq_some_iff] at hroute
  obtain ⟨last, hlast, leg, hleg, hroute⟩ := hroute
  split_ifs at hroute with hover
  exact h ⟨last, leg, hlast, hleg, not_lt.mp hover⟩

theorem nnFinal_of_stuck (h : nnStep p order nodes (some anchor) s₀ = none) :
    nnFinal p order nodes (some anchor) s₀ = s₀ := by
  unfold nnFinal
  cases s₀.unvisited.length with
  | zero => rfl
  | succ n => simp only [nnLoop, h]

/-- An attempt comes to nothing exactly if the start does not fit, or no node could be
added and the start itself is too far from the anchor. -/
theorem discarded_iff : (nnFromStart p order nodes (some anchor) start).1 = [] ↔
    ¬StartFits p start ∨ ∃ s₀, nnInit p nodes start = some s₀ ∧
      nnStep p order nodes (some anchor) s₀ = none ∧ ¬InReach p anchor s₀ := by
  rw [nnFromStart_eq]
  cases hinit : nnInit p nodes start with
  | none => simp [nnInit_eq_none.mp hinit]
  | some s₀ =>
    have hfits : StartFits p start := by
      by_contra hnot
      rw [nnInit_eq_none.mpr hnot] at hinit
      cases hinit
    simp only [Option.some.injEq, exists_eq_left', not_true_eq_false, hfits, false_or]
    by_cases hreach : InReach p anchor (nnFinal p order nodes (some anchor) s₀)
    · simp only [appendEndAnchor_inReach hreach, List.append_eq_nil_iff, List.cons_ne_nil, and_false, false_iff]
      rintro ⟨hstuck, hfar⟩
      rw [nnFinal_of_stuck hstuck] at hreach
      exact hfar hreach
    · simp only [appendEndAnchor_outOfReach hreach, true_iff]
      rcases Turn.first_or_step hinit (nnFinal_turn hinit) with hfirst | ⟨b, hb⟩
      · have hstuck : nnStep p order nodes (some anchor) (nnFinal p order nodes (some anchor) s₀) = none :=
          nnLoop_stuck _ s₀ le_rfl
        rw [hfirst] at hstuck hreach
        exact ⟨hstuck, hreach⟩
      · exact absurd (inReach_of_step hb) hreach

theorem anchor_not_visited (hstart : anchor ≠ start) (hnodes : anchor ∉ nodes)
    (h : Turn p order nodes (some anchor) start s) : anchor ∉ s.route := by
  obtain ⟨mid, hroute, hperm⟩ := h.inv.nodes
  rw [hroute, List.mem_cons, not_or]
  refine ⟨hstart, fun hmem ↦ hnodes ?_⟩
  have hcandidate := hperm.subset (List.mem_append_left _ hmem)
  exact List.mem_dedup.mp (List.mem_filter.mp hcandidate).1

/-- With an end anchor that is no node, whatever has been added since the start leaves
time for the leg to the anchor, so an attempt is only given up at its start; a route that
is kept ends at the anchor and visits it nowhere else. -/
theorem never_stranded (p : DayProblem) (order : SetOrder) (nodes : List PlaceId) (anchor start : PlaceId)
    (hstart : anchor ≠ start) (hnodes : anchor ∉ nodes) :
    (∀ s, Turn p order nodes (some anchor) start s → s.route ≠ [start] → InReach p anchor s) ∧
    ((nnFromStart p order nodes (some anchor) start).1 = [] ↔
      ¬StartFits p start ∨ ∃ s₀, nnInit p nodes start = some s₀ ∧
        nnStep p order nodes (some anchor) s₀ = none ∧ ¬InReach p anchor s₀) ∧
    ((nnFromStart p order nodes (some anchor) start).1 ≠ [] →
      ∃ stops, (nnFromStart p order nodes (some anchor) start).1 = stops ++ [anchor] ∧ anchor ∉ stops) := by
  refine ⟨fun s ↦ inReach_of_turn, discarded_iff, fun hne ↦ ?_⟩
  obtain ⟨s₀, hinit, hroute, -⟩ := nnFromStart_route hne
  exact ⟨_, hroute, anchor_not_visited hstart hnodes (nnFinal_turn hinit)⟩

theorem never_stranded_hotel : ∃ stops,
    (nnFromStart lateWishes .insertion ["louvre", "kiosk"] (some "hotel") "louvre").1 = stops ++ ["hotel"] ∧
      "hotel" ∉ stops :=
  (never_stranded lateWishes .insertion ["louvre", "kiosk"] "hotel" "louvre" (by decide) (by decide)).2.2
    (by decide +kernel)

end Anchored

end TravelPlanner.Lookahead
