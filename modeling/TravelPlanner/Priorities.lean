import Mathlib.Algebra.Order.BigOperators.Group.List
import TravelPlanner.LocalSearch

namespace TravelPlanner.Priorities

open Requests Windows Engine TimedRoutes Construction LocalSearch

/-- Weights are spaced so that one must-see place outweighs any number of
lower ones on a route of fewer than a thousand places. -/
def priorityWeight : Priority → ℤ
  | .mustSee => 1000000
  | .normal => 1000
  | .optional => 1
  | .unknown _ => 1000

theorem priorityWeight_pos (k : Priority) : 0 < priorityWeight k := by
  cases k <;> simp [priorityWeight]

variable (p : DayProblem) (order : SetOrder) (priorities : PlaceId → Option Priority)
  (startAnchor endAnchor : Option PlaceId)

def priorityOf (n : PlaceId) : Priority := (priorities n).getD .normal

def weights (nodeIds : List PlaceId) (n : PlaceId) : Option ℤ :=
  if n ∈ nodeIds then some (priorityWeight (priorityOf priorities n)) else none

def tiers (nodeIds : List PlaceId) : List (List PlaceId) :=
  [nodeIds, nodeIds.filter (priorityOf priorities · ≠ .optional),
    nodeIds.filter (priorityOf priorities · = .mustSee)]

structure Attempt where
  route : List PlaceId
  solverSkipped : List PlaceId
  tier : List PlaceId

def attempt (nodeIds tier : List PlaceId) : Attempt :=
  let result := match startAnchor with
    | some anchor => nnFromStart p order tier endAnchor anchor
    | none => nearestNeighbor p order tier endAnchor (some (weights priorities nodeIds))
  ⟨result.1, result.2, tier⟩

def attemptScore (nodeIds : List PlaceId) (a : Attempt) : ℤ :=
  (a.route.map (fun n ↦ (weights priorities nodeIds n).getD 0)).sum

structure TierState where
  best : Option Attempt
  bestScore : ℤ
  prevSize : Option ℕ

def tierLoop (nodeIds : List PlaceId) : List (List PlaceId) → TierState → TierState
  | [], s => s
  | tier :: rest, s =>
    if s.prevSize = some tier.length then tierLoop nodeIds rest s
    else
      let a := attempt p order priorities startAnchor endAnchor nodeIds tier
      let score := attemptScore priorities nodeIds a
      let s' : TierState :=
        ⟨if s.bestScore < score then some a else s.best, max s.bestScore score, some tier.length⟩
      if a.solverSkipped.any (priorityOf priorities · = .mustSee) then tierLoop nodeIds rest s' else s'

structure Solved where
  route : List PlaceId
  solverSkipped : List PlaceId
  dropped : List PlaceId
  candidates : List PlaceId

/-- Smaller candidate sets are tried until no must-see place is left out; the
heaviest attempt is kept. `none` is the failed assertion that one attempt ran. -/
def solveWithPriorities (nodeIds : List PlaceId) : Option Solved := do
  let best ← (tierLoop p order priorities startAnchor endAnchor nodeIds (tiers priorities nodeIds)
    ⟨none, -1, none⟩).best
  return ⟨best.route, best.solverSkipped, nodeIds.filter (· ∉ best.tier), best.tier⟩

variable {p order priorities startAnchor endAnchor} {nodeIds : List PlaceId}

theorem weights_nonneg (n : PlaceId) : 0 ≤ (weights priorities nodeIds n).getD 0 := by
  unfold weights
  split_ifs
  · exact (priorityWeight_pos _).le
  · exact le_rfl

theorem attemptScore_nonneg (a : Attempt) : 0 ≤ attemptScore priorities nodeIds a :=
  List.sum_nonneg fun x hx ↦ by
    obtain ⟨n, _, rfl⟩ := List.mem_map.mp hx
    exact weights_nonneg n

theorem tierLoop_best (Q : Attempt → Prop) (l : List (List PlaceId))
    (hQ : ∀ tier ∈ l, Q (attempt p order priorities startAnchor endAnchor nodeIds tier)) (s : TierState)
    (hs : ∀ a ∈ s.best, Q a) :
    ∀ a ∈ (tierLoop p order priorities startAnchor endAnchor nodeIds l s).best, Q a := by
  induction l generalizing s with
  | nil => exact hs
  | cons tier rest ih =>
    have hrest : ∀ tier ∈ rest, Q (attempt p order priorities startAnchor endAnchor nodeIds tier) :=
      fun t ht ↦ hQ t (List.mem_cons_of_mem _ ht)
    have hnew := hQ tier List.mem_cons_self
    unfold tierLoop
    dsimp only
    split_ifs
    · exact ih hrest s hs
    · exact ih hrest _ (by simpa using hnew)
    · exact ih hrest _ hs
    · simpa using hnew
    · exact hs

theorem tierLoop_isSome (l : List (List PlaceId)) (s : TierState) (hs : s.best.isSome) :
    (tierLoop p order priorities startAnchor endAnchor nodeIds l s).best.isSome := by
  induction l generalizing s with
  | nil => exact hs
  | cons tier rest ih =>
    unfold tierLoop
    dsimp only
    split_ifs
    · exact ih s hs
    · exact ih _ rfl
    · exact ih _ hs
    · rfl
    · exact hs

theorem solveWithPriorities_total (p : DayProblem) (order : SetOrder) (priorities : PlaceId → Option Priority)
    (startAnchor endAnchor : Option PlaceId) (nodeIds : List PlaceId) :
    ∃ s, solveWithPriorities p order priorities startAnchor endAnchor nodeIds = some s := by
  have hfirst : (tierLoop p order priorities startAnchor endAnchor nodeIds (tiers priorities nodeIds)
      ⟨none, -1, none⟩).best.isSome := by
    have hscore : -1 < attemptScore priorities nodeIds
        (attempt p order priorities startAnchor endAnchor nodeIds nodeIds) :=
      lt_of_lt_of_le (by decide) (attemptScore_nonneg _)
    rw [tiers, tierLoop, if_neg (by simp)]
    simp only [hscore, if_true]
    split_ifs
    · exact tierLoop_isSome _ _ rfl
    · rfl
  obtain ⟨best, hbest⟩ := Option.isSome_iff_exists.mp hfirst
  simp [solveWithPriorities, hbest]

theorem attempt_attempted {tier : List PlaceId} (ha : AnchorFree p endAnchor)
    (hapart : Apart startAnchor endAnchor tier) :
    Attempted p startAnchor endAnchor tier
      (attempt p order priorities startAnchor endAnchor nodeIds tier).route
      (attempt p order priorities startAnchor endAnchor nodeIds tier).solverSkipped := by
  cases startAnchor with
  | none => exact nearestNeighbor_attempted _ ha hapart
  | some anchor => exact nnFromStart_attempted ha hapart

structure Solution (p : DayProblem) (startAnchor endAnchor : Option PlaceId) (nodeIds : List PlaceId)
    (s : Solved) : Prop where
  attempted : Attempted p startAnchor endAnchor s.candidates s.route s.solverSkipped
  candidates : s.candidates.Sublist nodeIds
  dropped : s.dropped = nodeIds.filter (· ∉ s.candidates)

theorem tiers_sublist {tier : List PlaceId} (h : tier ∈ tiers priorities nodeIds) : tier.Sublist nodeIds := by
  simp only [tiers, List.mem_cons, List.not_mem_nil, or_false] at h
  rcases h with rfl | rfl | rfl
  · exact List.Sublist.refl _
  · exact List.filter_sublist
  · exact List.filter_sublist

theorem solveWithPriorities_solution (ha : AnchorFree p endAnchor) (hapart : Apart startAnchor endAnchor nodeIds)
    {s : Solved} (h : solveWithPriorities p order priorities startAnchor endAnchor nodeIds = some s) :
    Solution p startAnchor endAnchor nodeIds s := by
  simp only [solveWithPriorities, Option.bind_eq_bind, Option.bind_eq_some_iff, Option.pure_def,
    Option.some.injEq] at h
  obtain ⟨best, hbest, rfl⟩ := h
  have hq := tierLoop_best
    (fun a ↦ Attempted p startAnchor endAnchor a.tier a.route a.solverSkipped ∧ a.tier.Sublist nodeIds)
    (tiers priorities nodeIds) (fun tier ht ↦
      ⟨attempt_attempted ha (hapart.mono (tiers_sublist ht).subset), tiers_sublist ht⟩)
    ⟨none, -1, none⟩ (by simp) best hbest
  exact ⟨hq.1, hq.2, rfl⟩

end TravelPlanner.Priorities
