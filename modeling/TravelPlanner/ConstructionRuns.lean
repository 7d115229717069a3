import Mathlib.Logic.Relation
import TravelPlanner.Construction
import TravelPlanner.Selection

namespace TravelPlanner.ConstructionRuns

open Requests Windows Engine TimedRoutes Construction Selection Relation

section Turns

variable (p : DayProblem) (order : SetOrder) (nodes : List PlaceId) (endAnchor : Option PlaceId)

/-- What a candidate is ranked by: its deadline, then the leg to it. A node the
loop passes over has no key. -/
def candidateKey (last : PlaceId) (currentS : ℤ) (candidate : PlaceId) : Option (ℤ ×ₗ ℤ) := do
  let leg ← p.matrix.get last candidate
  let slot ← candidateSlot p candidate (currentS + leg.durationS)
  if reachesEnd p endAnchor candidate (slot.1 + p.visitS candidate) then some (toLex (slot.2, leg.durationS))
  else none

def largest : ℤ ×ₗ ℤ := toLex (large, large)

def picked (last : PlaceId) (currentS : ℤ) (candidates : List PlaceId) : Pick PlaceId (ℤ ×ₗ ℤ) :=
  scan (candidateKey p endAnchor last currentS) largest candidates

def departureAfter (last : PlaceId) (currentS : ℤ) (node : PlaceId) : Option ℤ := do
  let leg ← p.matrix.get last node
  let startS ← p.serviceStart node (currentS + leg.durationS)
  return startS + p.visitS node

def nnInit (start : PlaceId) : Option NNState := do
  let startS ← nnStart p start
  if p.dayEndS < startS + p.visitS start then none
  else some ⟨[start], startS + p.visitS start, setWithout nodes start⟩

/-- The states the construction loop passes through, the last one included. -/
def Turn (start : PlaceId) (s : NNState) : Prop :=
  ∃ s₀, nnInit p nodes start = some s₀ ∧
    ReflTransGen (fun a b ↦ nnStep p order nodes endAnchor a = some b) s₀ s

end Turns

variable {p : DayProblem} {order : SetOrder} {nodes : List PlaceId} {endAnchor : Option PlaceId}

theorem candidateKey_eq_some {last candidate : PlaceId} {currentS : ℤ} {k : ℤ ×ₗ ℤ} :
    candidateKey p endAnchor last currentS candidate = some k ↔
      ∃ leg startS closeS, p.matrix.get last candidate = some leg ∧
        candidateSlot p candidate (currentS + leg.durationS) = some (startS, closeS) ∧
        reachesEnd p endAnchor candidate (startS + p.visitS candidate) = true ∧
        k = toLex (closeS, leg.durationS) := by
  simp only [candidateKey, Option.bind_eq_bind, Option.bind_eq_some_iff, Option.ite_none_right_eq_some,
    Option.some.injEq]
  constructor
  · rintro ⟨leg, hleg, slot, hslot, hend, rfl⟩
    exact ⟨leg, slot.1, slot.2, hleg, hslot, hend, rfl⟩
  · rintro ⟨leg, startS, closeS, hleg, hslot, hend, rfl⟩
    exact ⟨leg, hleg, (startS, closeS), hslot, hend, rfl⟩

theorem consider_keep (last : PlaceId) (currentS : ℤ) (best : Best) (candidate : PlaceId) :
    (⟨(consider p endAnchor last currentS best candidate).node,
      toLex ((consider p endAnchor last currentS best candidate).closeS,
        (consider p endAnchor last currentS best candidate).travelS)⟩ : Pick PlaceId (ℤ ×ₗ ℤ)) =
      keep (candidateKey p endAnchor last currentS) ⟨best.node, toLex (best.closeS, best.travelS)⟩ candidate := by
  unfold consider keep candidateKey
  cases hleg : p.matrix.get last candidate with
  | none => simp
  | some leg =>
    cases hslot : candidateSlot p candidate (currentS + leg.durationS) with
    | none => simp [hslot]
    | some slot =>
      obtain ⟨startS, closeS⟩ := slot
      cases hend : reachesEnd p endAnchor candidate (startS + p.visitS candidate) with
      | false => simp [hslot, hend]
      | true =>
        simp only [Option.bind_eq_bind, Option.bind_some, hslot, hend, Bool.not_true, Bool.false_eq_true, if_false,
          if_true, Prod.Lex.toLex_lt_toLex]
        split_ifs <;> rfl

/-- The candidate loop is a scan for the least key. -/
theorem foldl_consider (last : PlaceId) (currentS : ℤ) (l : List PlaceId) :
    (⟨(l.foldl (consider p endAnchor last currentS) Best.start).node,
      toLex ((l.foldl (consider p endAnchor last currentS) Best.start).closeS,
        (l.foldl (consider p endAnchor last currentS) Best.start).travelS)⟩ : Pick PlaceId (ℤ ×ₗ ℤ)) =
      picked p endAnchor last currentS l := by
  have hfold : ∀ best : Best,
      (⟨(l.foldl (consider p endAnchor last currentS) best).node,
        toLex ((l.foldl (consider p endAnchor last currentS) best).closeS,
          (l.foldl (consider p endAnchor last currentS) best).travelS)⟩ : Pick PlaceId (ℤ ×ₗ ℤ)) =
        l.foldl (keep (candidateKey p endAnchor last currentS)) ⟨best.node, toLex (best.closeS, best.travelS)⟩ := by
    induction l with
    | nil => exact fun _ ↦ rfl
    | cons c l ih =>
      intro best
      rw [List.foldl_cons, List.foldl_cons, ih, consider_keep]
  exact hfold Best.start

theorem candidateSlot_start {candidate : PlaceId} {arrivalS startS closeS : ℤ}
    (h : candidateSlot p candidate arrivalS = some (startS, closeS)) :
    p.serviceStart candidate arrivalS = some startS := by
  unfold candidateSlot at h
  unfold DayProblem.serviceStart
  cases hw : p.timeWindows candidate with
  | some tw =>
    rw [hw] at h
    obtain ⟨s, hs, he⟩ := Option.map_eq_some_iff.mp h
    obtain rfl : s = startS := congrArg Prod.fst he
    exact hs
  | none =>
    rw [hw] at h
    dsimp only at h ⊢
    split_ifs at h
    exact congrArg (Option.map Prod.fst) h

theorem departureAfter_eq_some {last node : PlaceId} {currentS d : ℤ} :
    departureAfter p last currentS node = some d ↔
      ∃ leg startS, p.matrix.get last node = some leg ∧
        p.serviceStart node (currentS + leg.durationS) = some startS ∧ d = startS + p.visitS node := by
  simp only [departureAfter, Option.bind_eq_bind, Option.bind_eq_some_iff, Option.pure_def, Option.some.injEq]
  constructor
  · rintro ⟨leg, hleg, startS, hs, rfl⟩
    exact ⟨leg, startS, hleg, hs, rfl⟩
  · rintro ⟨leg, startS, hleg, hs, rfl⟩
    exact ⟨leg, hleg, startS, hs, rfl⟩

theorem candidateKey_departure {last candidate : PlaceId} {currentS : ℤ} {k : ℤ ×ₗ ℤ}
    (h : candidateKey p endAnchor last currentS candidate = some k) :
    ∃ d, departureAfter p last currentS candidate = some d ∧ reachesEnd p endAnchor candidate d = true := by
  obtain ⟨leg, startS, closeS, hleg, hslot, hend, _⟩ := candidateKey_eq_some.mp h
  exact ⟨_, departureAfter_eq_some.mpr ⟨leg, startS, hleg, candidateSlot_start hslot, rfl⟩, hend⟩

theorem foldl_consider_node (last : PlaceId) (currentS : ℤ) (l : List PlaceId) :
    (l.foldl (consider p endAnchor last currentS) Best.start).node = (picked p endAnchor last currentS l).entry :=
  congrArg Pick.entry (foldl_consider last currentS l)

theorem foldl_consider_travel {last node : PlaceId} {currentS : ℤ} {l : List PlaceId}
    (h : (picked p endAnchor last currentS l).entry = some node) :
    ∃ leg, p.matrix.get last node = some leg ∧
      (l.foldl (consider p endAnchor last currentS) Best.start).travelS = leg.durationS := by
  obtain ⟨_, hkey⟩ := scan_least h
  obtain ⟨leg, _, _, hleg, _, _, hk⟩ := candidateKey_eq_some.mp hkey
  have htravel := congrArg (fun pick ↦ (ofLex pick.key).2) (@foldl_consider p endAnchor last currentS l)
  have hleg' : (ofLex (picked p endAnchor last currentS l).key).2 = leg.durationS :=
    congrArg (fun k ↦ (ofLex k).2) hk
  exact ⟨leg, hleg, htravel.trans hleg'⟩

/-- A turn visits the node picked, unless its visit would overrun the day. -/
theorem nnStep_eq_some {s s' : NNState} :
    nnStep p order nodes endAnchor s = some s' ↔
      ∃ last node d, s.route.getLast? = some last ∧
        (picked p endAnchor last s.currentS (order.enum nodes s.route s.unvisited)).entry = some node ∧
        departureAfter p last s.currentS node = some d ∧ d ≤ p.dayEndS ∧
        s' = ⟨s.route ++ [node], d, s.unvisited.erase node⟩ := by
  simp only [nnStep, Option.bind_eq_bind, Option.bind_eq_some_iff, departureAfter_eq_some, foldl_consider_node]
  constructor
  · rintro ⟨last, hlast, node, hnode, startS, hstart, hs⟩
    obtain ⟨leg, hleg, htravel⟩ := foldl_consider_travel hnode
    rw [htravel] at hstart
    split_ifs at hs with hover
    exact ⟨last, node, _, hlast, hnode, ⟨leg, startS, hleg, hstart, rfl⟩, not_lt.mp hover,
      (Option.some.inj hs).symm⟩
  · rintro ⟨last, node, d, hlast, hnode, ⟨leg, startS, hleg, hstart, rfl⟩, hle, rfl⟩
    obtain ⟨leg', hleg', htravel⟩ := foldl_consider_travel hnode
    obtain rfl : leg = leg' := Option.some.inj (hleg.symm.trans hleg')
    refine ⟨last, hlast, node, hnode, startS, ?_, if_neg (not_lt.mpr hle)⟩
    rw [htravel]
    exact hstart

theorem nnStep_unvisited {s s' : NNState} (h : nnStep p order nodes endAnchor s = some s') :
    s'.unvisited.length + 1 = s.unvisited.length ∧ s'.unvisited ⊆ s.unvisited ∧
      s'.route.length = s.route.length + 1 := by
  obtain ⟨last, node, d, _, hnode, _, _, rfl⟩ := nnStep_eq_some.mp h
  have hmem : node ∈ s.unvisited := (order.perm nodes s.route s.unvisited).subset (scan_least hnode).1.1
  refine ⟨?_, List.erase_subset, by simp⟩
  have hlen := List.length_erase_of_mem hmem
  have hpos := List.length_pos_of_mem hmem
  simp only
  omega

theorem nnLoop_reached (n : ℕ) (s : NNState) :
    ReflTransGen (fun a b ↦ nnStep p order nodes endAnchor a = some b) s (nnLoop p order nodes endAnchor n s) := by
  induction n generalizing s with
  | zero => exact .refl
  | succ n ih =>
    unfold nnLoop
    cases h : nnStep p order nodes endAnchor s with
    | none => exact .refl
    | some s' => exact .head h (ih s')

/-- With a turn for every unvisited node the loop runs until it breaks. -/
theorem nnLoop_stuck (n : ℕ) (s : NNState) (hn : s.unvisited.length ≤ n) :
    nnStep p order nodes endAnchor (nnLoop p order nodes endAnchor n s) = none := by
  induction n generalizing s with
  | zero =>
    cases h : nnStep p order nodes endAnchor s with
    | none => exact h
    | some s' =>
      have hlen := (nnStep_unvisited h).1
      omega
  | succ n ih =>
    unfold nnLoop
    cases h : nnStep p order nodes endAnchor s with
    | none => exact h
    | some s' =>
      have hlen := (nnStep_unvisited h).1
      exact ih s' (by omega)

theorem reached_cases (n : ℕ) {s t : NNState} (hn : s.unvisited.length ≤ n)
    (h : ReflTransGen (fun a b ↦ nnStep p order nodes endAnchor a = some b) s t) :
    (∃ t', nnStep p order nodes endAnchor t = some t') ∨ t = nnLoop p order nodes endAnchor n s := by
  induction h using ReflTransGen.head_induction_on generalizing n with
  | refl =>
    cases n with
    | zero => exact .inr rfl
    | succ n =>
      cases ht : nnStep p order nodes endAnchor t with
      | none => exact .inr (by simp [nnLoop, ht])
      | some t' => exact .inl ⟨t', rfl⟩
  | head hstep _ ih =>
    rename_i a c _
    have hlen := (nnStep_unvisited hstep).1
    cases n with
    | zero => omega
    | succ n =>
      have he : nnLoop p order nodes endAnchor (n + 1) a = nnLoop p order nodes endAnchor n c := by
        simp only [nnLoop, hstep]
      rw [he]
      exact ih n (by omega)

theorem nnInit_inv {start : PlaceId} {s : NNState} (h : nnInit p nodes start = some s) :
    NNInv p start (setWithout nodes start) s := by
  simp only [nnInit, Option.bind_eq_bind, Option.bind_eq_some_iff] at h
  obtain ⟨startS, hstart, h⟩ := h
  split_ifs at h with hend
  obtain rfl := Option.some.inj h
  exact nnInv_start hstart hend

theorem Turn.inv {start : PlaceId} {s : NNState} (h : Turn p order nodes endAnchor start s) :
    NNInv p start (setWithout nodes start) s := by
  obtain ⟨s₀, hinit, hreach⟩ := h
  induction hreach with
  | refl => exact nnInit_inv hinit
  | tail _ hstep ih => exact nnStep_inv ih hstep

def nnFinal (p : DayProblem) (order : SetOrder) (nodes : List PlaceId) (endAnchor : Option PlaceId) (s₀ : NNState) :
    NNState := nnLoop p order nodes endAnchor s₀.unvisited.length s₀

theorem nnFromStart_eq (p : DayProblem) (order : SetOrder) (nodes : List PlaceId) (endAnchor : Option PlaceId)
    (start : PlaceId) : nnFromStart p order nodes endAnchor start =
      match nnInit p nodes start with
      | none => ([], nodes)
      | some s₀ =>
        match appendEndAnchor p endAnchor (nnFinal p order nodes endAnchor s₀) with
        | none => ([], nodes)
        | some route => (route, order.enum nodes (nnFinal p order nodes endAnchor s₀).route
            (nnFinal p order nodes endAnchor s₀).unvisited) := by
  unfold nnFromStart nnInit
  cases hstart : nnStart p start with
  | none => rfl
  | some startS =>
    by_cases hend : p.dayEndS < startS + p.visitS start
    · simp [hend]
    · cases hroute : appendEndAnchor p endAnchor (nnLoop p order nodes endAnchor (setWithout nodes start).length
        ⟨[start], startS + p.visitS start, setWithout nodes start⟩) <;> simp [hend, nnFinal, hroute]

/-- A route is the stops of the loop's last state with the end anchor after them. -/
theorem nnFromStart_route {start : PlaceId} (h : (nnFromStart p order nodes endAnchor start).1 ≠ []) :
    ∃ s₀, nnInit p nodes start = some s₀ ∧
      (nnFromStart p order nodes endAnchor start).1 =
        (nnFinal p order nodes endAnchor s₀).route ++ endAnchor.toList ∧
      (nnFromStart p order nodes endAnchor start).2 =
        order.enum nodes (nnFinal p order nodes endAnchor s₀).route (nnFinal p order nodes endAnchor s₀).unvisited := by
  rw [nnFromStart_eq] at h ⊢
  cases hinit : nnInit p nodes start with
  | none => simp [hinit] at h
  | some s₀ =>
    cases happ : appendEndAnchor p endAnchor (nnFinal p order nodes endAnchor s₀) with
    | none => simp [hinit, happ] at h
    | some route => exact ⟨s₀, rfl, by simp only [happ, appendEndAnchor_route happ], by simp only [happ]⟩

theorem nnFinal_turn {start : PlaceId} {s₀ : NNState} (h : nnInit p nodes start = some s₀) :
    Turn p order nodes endAnchor start (nnFinal p order nodes endAnchor s₀) :=
  ⟨s₀, h, nnLoop_reached _ s₀⟩

end TravelPlanner.ConstructionRuns
