import TravelPlanner.LocalSearch

namespace TravelPlanner.LocalOptimum

open Requests Windows Engine TimedRoutes LocalSearch

def jUpper (pinEnd : Bool) (route : List PlaceId) : ℕ := if pinEnd then route.length - 1 else route.length

def Improves (p : DayProblem) (pinEnd : Bool) (route better : List PlaceId) : Prop :=
  ∃ i j, i + 2 ≤ j ∧ j < jUpper pinEnd route ∧ better = reverseSegment route i j ∧
    isFeasible p better = true ∧ routeTravelTime p better < routeTravelTime p route

inductive Moves (p : DayProblem) (pinEnd : Bool) : ℕ → List PlaceId → List PlaceId → Prop
  | stay (route : List PlaceId) : Moves p pinEnd 0 route route
  | move {n : ℕ} {route better result : List PlaceId} (first : Improves p pinEnd route better)
      (rest : Moves p pinEnd n better result) : Moves p pinEnd (n + 1) route result

def LocallyOptimal (p : DayProblem) (pinEnd : Bool) (route : List PlaceId) : Prop :=
  ∀ better, ¬Improves p pinEnd route better

structure Searched (p : DayProblem) (pinEnd : Bool) (route result : List PlaceId) : Prop where
  perm : result.Perm route
  head : result.head? = route.head?
  last : pinEnd = true → result.getLast? = route.getLast?
  feasible : isFeasible p result = true
  shorter : ∃ before after, legSum p route = some before ∧ legSum p result = some after ∧ after ≤ before ∧
    (result ≠ route → after < before)

def Settled (p : DayProblem) (pinEnd : Bool) (maxIterations : ℕ) (route result : List PlaceId) : Prop :=
  ∃ n ≤ maxIterations, Moves p pinEnd n route result ∧ (n = maxIterations ∨ LocallyOptimal p pinEnd result)

variable {p : DayProblem} {pinEnd : Bool} {route result : List PlaceId}

theorem legSum_of_timed {prev : Option PlaceId} {t : ℤ} {visits : List Visit} (h : Timed p prev t route visits) :
    ∃ total, legSum p route = some total := by
  induction visits generalizing prev t route with
  | nil =>
    obtain rfl : route = [] := h.eq_nil.mp rfl
    exact ⟨0, rfl⟩
  | cons v visits ih =>
    obtain ⟨node, rest, rfl⟩ : ∃ node rest, route = node :: rest := ⟨_, _, h.places.symm⟩
    obtain ⟨rfl, _, _, _, hrest⟩ := timed_cons.mp h
    obtain ⟨total, htotal⟩ := ih hrest
    cases visits with
    | nil =>
      obtain rfl : rest = [] := hrest.eq_nil.mp rfl
      exact ⟨0, rfl⟩
    | cons w l =>
      obtain ⟨rest, rfl⟩ : ∃ rest', rest = w.placeId :: rest' := ⟨_, hrest.places.symm⟩
      obtain ⟨leg, hleg, _⟩ := travelTo_eq_some.mp (hrest.first w rfl).1
      exact ⟨leg.durationS + total, by simp [legSum, hleg, htotal]⟩

/-- On a feasible route every leg exists, so its cost is the sum of its legs and
never the stand-in for a missing leg. -/
theorem legSum_of_feasible (h : isFeasible p route = true) : legSum p route = some (routeTravelTime p route) := by
  obtain ⟨visits, _, htimed, _⟩ := isFeasible_iff.mp h
  obtain ⟨total, htotal⟩ := legSum_of_timed htimed
  simp [routeTravelTime, htotal]

theorem Improves.perm {better : List PlaceId} (h : Improves p pinEnd route better) : better.Perm route := by
  obtain ⟨i, j, hij, _, rfl, _⟩ := h
  exact reverseSegment_perm route (by omega)

theorem jUpper_eq {better : List PlaceId} (h : better.length = route.length) :
    jUpper pinEnd better = jUpper pinEnd route := by
  simp [jUpper, h]

/-- Every accepted move costs less than the one before, so a search that moved
at all ends with a strictly shorter route. -/
theorem Moves.shorter {n : ℕ} (h : Moves p pinEnd n route result) :
    n = 0 ∧ result = route ∨ routeTravelTime p result < routeTravelTime p route := by
  induction h with
  | stay route => exact .inl ⟨rfl, rfl⟩
  | move first _ ih =>
    obtain ⟨_, _, _, _, _, _, hfirst⟩ := first
    rcases ih with ⟨_, rfl⟩ | hlt
    · exact .inr hfirst
    · exact .inr (hlt.trans hfirst)

theorem findImprovement_none (h : findImprovement p (jUpper pinEnd route) route = none) :
    LocallyOptimal p pinEnd route := by
  rintro better ⟨i, j, hij, hj, rfl, hfeasible, hshorter⟩
  have hlen : jUpper pinEnd route ≤ route.length := by
    unfold jUpper
    split_ifs <;> omega
  have hi := List.findSome?_eq_none_iff.mp h i (List.mem_range.mpr (by omega))
  have hmem : j ∈ List.range' (i + 2) (jUpper pinEnd route - (i + 2)) :=
    List.mem_range'.mpr ⟨j - (i + 2), by omega, by omega⟩
  have hnone := List.findSome?_eq_none_iff.mp hi j hmem
  simp [hshorter, hfeasible] at hnone

theorem twoOptLoop_settled (n : ℕ) (route : List PlaceId) :
    Settled p pinEnd n route (twoOptLoop p (jUpper pinEnd route) n route) := by
  induction n generalizing route with
  | zero => exact ⟨0, le_rfl, .stay route, .inl rfl⟩
  | succ n ih =>
    unfold twoOptLoop
    cases h : findImprovement p (jUpper pinEnd route) route with
    | none => exact ⟨0, Nat.zero_le _, .stay route, .inr (findImprovement_none h)⟩
    | some better =>
      obtain ⟨i, j, hij, hj, hbetter, hshorter, hfeasible⟩ := findImprovement_spec h
      have hfirst : Improves p pinEnd route better := ⟨i, j, hij, hj, hbetter, hfeasible, hshorter⟩
      obtain ⟨m, hm, hmoves, hend⟩ := ih better
      rw [jUpper_eq hfirst.perm.length_eq] at hmoves hend
      exact ⟨m + 1, by omega, .move hfirst hmoves, hend.imp_left fun he ↦ by omega⟩

/-- A route of one or two stops, or of three with the last one pinned, leaves
nothing to reverse. -/
theorem locallyOptimal_short (h : jUpper pinEnd route ≤ 2) : LocallyOptimal p pinEnd route := by
  rintro better ⟨i, j, hij, hj, _⟩
  omega

theorem twoOpt_searched (maxIterations : ℕ) (h : isFeasible p route = true) {n : ℕ}
    (hmoves : Moves p pinEnd n route (twoOpt p route maxIterations pinEnd)) :
    Searched p pinEnd route (twoOpt p route maxIterations pinEnd) := by
  obtain ⟨hperm, hhead, hlast, hkept⟩ := twoOpt_improved (p := p) route maxIterations pinEnd
  have hfeasible : isFeasible p (twoOpt p route maxIterations pinEnd) = true := by
    rcases hkept with he | hf
    · rw [he]; exact h
    · exact hf
  refine ⟨hperm, hhead, hlast, hfeasible, _, _, legSum_of_feasible h, legSum_of_feasible hfeasible, ?_, ?_⟩
  · rcases hmoves.shorter with ⟨_, he⟩ | hlt
    · rw [he]
    · exact hlt.le
  · intro hne
    exact hmoves.shorter.resolve_left fun he ↦ hne he.2

/-- On every feasible route the search is sound, and it stops in a local optimum
or with its moves used up, except that three stops with a free end are not searched. -/
theorem twoOpt_local_search (p : DayProblem) (route : List PlaceId) (maxIterations : ℕ) (pinEnd : Bool)
    (h : isFeasible p route = true) :
    Searched p pinEnd route (twoOpt p route maxIterations pinEnd) ∧
      (Settled p pinEnd maxIterations route (twoOpt p route maxIterations pinEnd) ∨
        route.length = 3 ∧ pinEnd = false ∧ twoOpt p route maxIterations pinEnd = route) := by
  by_cases hshort : route.length < 4
  · have he : twoOpt p route maxIterations pinEnd = route := by simp [twoOpt, hshort]
    refine ⟨twoOpt_searched (n := 0) maxIterations h (by rw [he]; exact .stay route), ?_⟩
    rw [he]
    by_cases hfree : route.length = 3 ∧ pinEnd = false
    · exact .inr ⟨hfree.1, hfree.2, rfl⟩
    · have hupper : jUpper pinEnd route ≤ 2 := by
        unfold jUpper
        cases pinEnd with
        | true => simp only [if_true]; omega
        | false => simp only [Bool.false_eq_true, if_false]; simp at hfree; omega
      exact .inl ⟨0, Nat.zero_le _, .stay route, .inr (locallyOptimal_short hupper)⟩
  · have he : twoOpt p route maxIterations pinEnd = twoOptLoop p (jUpper pinEnd route) maxIterations route := by
      simp [twoOpt, hshort, jUpper]
    have hsettled : Settled p pinEnd maxIterations route (twoOptLoop p (jUpper pinEnd route) maxIterations route) :=
      twoOptLoop_settled maxIterations route
    rw [← he] at hsettled
    obtain ⟨n, hn, hmoves, hend⟩ := hsettled
    exact ⟨twoOpt_searched maxIterations h hmoves, .inl ⟨n, hn, hmoves, hend⟩⟩

def dearFirstLeg : DayProblem where
  matrix := ⟨fun leg ↦ some ⟨leg.1, leg.2, 900, if leg = ("louvre", "orsay") then 1000 else 100⟩⟩
  timeWindows := fun _ ↦ some (.single 32400 75600)
  visitDurationsS := fun _ ↦ some 1800
  dayStartS := 32400
  dayEndS := 75600

theorem twoOpt_local_search_dearFirstLeg :
    Searched dearFirstLeg false ["louvre", "orsay", "kiosk", "bridge"]
        (twoOpt dearFirstLeg ["louvre", "orsay", "kiosk", "bridge"] 100 false) ∧
      (Settled dearFirstLeg false 100 ["louvre", "orsay", "kiosk", "bridge"]
        (twoOpt dearFirstLeg ["louvre", "orsay", "kiosk", "bridge"] 100 false) ∨
      ["louvre", "orsay", "kiosk", "bridge"].length = 3 ∧ false = false ∧
        twoOpt dearFirstLeg ["louvre", "orsay", "kiosk", "bridge"] 100 false =
          ["louvre", "orsay", "kiosk", "bridge"]) :=
  twoOpt_local_search dearFirstLeg ["louvre", "orsay", "kiosk", "bridge"] 100 false (by decide +kernel)

/-- Three stops are handed back untouched although visiting the last two in the
other order is feasible and shorter. -/
theorem threeStops_not_settled :
    isFeasible dearFirstLeg ["louvre", "orsay", "kiosk"] = true ∧
      ¬Settled dearFirstLeg false 100 ["louvre", "orsay", "kiosk"]
        (twoOpt dearFirstLeg ["louvre", "orsay", "kiosk"] 100 false) := by
  have he : twoOpt dearFirstLeg ["louvre", "orsay", "kiosk"] 100 false = ["louvre", "orsay", "kiosk"] := by
    simp [twoOpt]
  refine ⟨by decide +kernel, ?_⟩
  rw [he]
  rintro ⟨n, _, hmoves, hend⟩
  rcases hmoves.shorter with ⟨rfl, _⟩ | hlt
  · refine hend.elim (by decide) fun hopt ↦ hopt ["louvre", "kiosk", "orsay"] ⟨0, 2, by decide, by decide, ?_⟩
    exact ⟨by decide, by decide +kernel, by decide +kernel⟩
  · exact absurd hlt (lt_irrefl _)

end TravelPlanner.LocalOptimum
