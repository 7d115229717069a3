import TravelPlanner.Lookahead

namespace TravelPlanner.EnumerationOrder

open Requests Windows Engine TimedRoutes Construction Selection ConstructionRuns Lookahead Relation

/-- Two different unvisited nodes share the least key of the turn, and one of
them can be visited within the day. -/
def Tied (p : DayProblem) (endAnchor : Option PlaceId) (s : NNState) (a b : PlaceId) : Prop :=
  a ≠ b ∧ ∃ last d, s.route.getLast? = some last ∧
    Least (candidateKey p endAnchor last s.currentS) largest s.unvisited a ∧
    Least (candidateKey p endAnchor last s.currentS) largest s.unvisited b ∧
    departureAfter p last s.currentS a = some d ∧ d ≤ p.dayEndS

variable {p : DayProblem} {order order' : SetOrder} {nodes : List PlaceId} {endAnchor : Option PlaceId}

theorem picked_least {s : NNState} {last node : PlaceId}
    (h : (picked p endAnchor last s.currentS (order.enum nodes s.route s.unvisited)).entry = some node) :
    Least (candidateKey p endAnchor last s.currentS) largest s.unvisited node :=
  (scan_least h).1.perm (order.perm nodes s.route s.unvisited)

theorem nnStep_congr {s s' : NNState} (htied : ∀ a b, ¬Tied p endAnchor s a b)
    (h : nnStep p order nodes endAnchor s = some s') : nnStep p order' nodes endAnchor s = some s' := by
  obtain ⟨last, a, d, hlast, ha, hd, hle, rfl⟩ := nnStep_eq_some.mp h
  have hleast := picked_least ha
  obtain ⟨b, hb⟩ := (hleast.perm (order'.perm nodes s.route s.unvisited).symm).scan_isSome
  have hab : a = b := by
    by_contra hne
    exact htied a b ⟨hne, last, d, hlast, hleast, picked_least hb, hd, hle⟩
  subst hab
  exact nnStep_eq_some.mpr ⟨last, a, d, hlast, hb, hd, hle, rfl⟩

theorem nnStep_agree {s : NNState} (htied : ∀ a b, ¬Tied p endAnchor s a b) :
    nnStep p order nodes endAnchor s = nnStep p order' nodes endAnchor s := by
  cases h : nnStep p order nodes endAnchor s with
  | some s' => exact (nnStep_congr htied h).symm
  | none =>
    cases h' : nnStep p order' nodes endAnchor s with
    | none => rfl
    | some s' =>
      have hstep : nnStep p order nodes endAnchor s = some s' := nnStep_congr htied h'
      rw [h] at hstep
      cases hstep

theorem nnLoop_agree {start : PlaceId}
    (htied : ∀ s, Turn p order nodes endAnchor start s → ∀ a b, ¬Tied p endAnchor s a b) (n : ℕ) {s : NNState}
    (hs : Turn p order nodes endAnchor start s) :
    nnLoop p order nodes endAnchor n s = nnLoop p order' nodes endAnchor n s := by
  induction n generalizing s with
  | zero => rfl
  | succ n ih =>
    have hstep : nnStep p order nodes endAnchor s = nnStep p order' nodes endAnchor s := nnStep_agree (htied s hs)
    unfold nnLoop
    rw [← hstep]
    cases h : nnStep p order nodes endAnchor s with
    | none => rfl
    | some s' =>
      obtain ⟨s₀, hinit, hreach⟩ := hs
      exact ih ⟨s₀, hinit, hreach.tail h⟩

def putFirst (order : SetOrder) (route : List PlaceId) (a : PlaceId) : SetOrder where
  enum ns r u := if r = route ∧ a ∈ u then a :: u.erase a else order.enum ns r u
  perm ns r u := by
    split_ifs with h
    · exact (List.perm_cons_erase h.2).symm
    · exact order.perm ns r u

theorem nnStep_putFirst {s : NNState} {route : List PlaceId} (a : PlaceId) (h : s.route ≠ route) :
    nnStep p (putFirst order route a) nodes endAnchor s = nnStep p order nodes endAnchor s := by
  simp only [nnStep, putFirst, h, false_and, if_false]

/-- Routes grow with every turn, so the change shows only once its route is there. -/
theorem turn_putFirst {start : PlaceId} {s : NNState} (a : PlaceId) (h : Turn p order nodes endAnchor start s) :
    Turn p (putFirst order s.route a) nodes endAnchor start s := by
  obtain ⟨s₀, hinit, hreach⟩ := h
  refine ⟨s₀, hinit, ?_⟩
  have hall : ∀ t, ReflTransGen (fun x y ↦ nnStep p order nodes endAnchor x = some y) s₀ t →
      t.route.length ≤ s.route.length →
      ReflTransGen (fun x y ↦ nnStep p (putFirst order s.route a) nodes endAnchor x = some y) s₀ t := by
    intro t ht
    induction ht with
    | refl => exact fun _ ↦ .refl
    | tail _ hstep ih =>
      rename_i b c _
      intro hlen
      have hgrow := (nnStep_unvisited hstep).2.2
      have hne : b.route ≠ s.route := by
        intro he
        rw [← he] at hlen
        omega
      refine (ih (by omega)).tail ?_
      rw [nnStep_putFirst a hne]
      exact hstep
  exact hall s hreach le_rfl

theorem picked_putFirst {s : NNState} {last a : PlaceId}
    (h : Least (candidateKey p endAnchor last s.currentS) largest s.unvisited a) :
    (picked p endAnchor last s.currentS ((putFirst order s.route a).enum nodes s.route s.unvisited)).entry =
      some a := by
  have henum : (putFirst order s.route a).enum nodes s.route s.unvisited = a :: s.unvisited.erase a := by
    simp [putFirst, h.1]
  rw [henum]
  exact scan_cons_of_least (h.perm (List.perm_cons_erase h.1))

theorem route_prefix {s t : NNState}
    (h : ReflTransGen (fun x y ↦ nnStep p order nodes endAnchor x = some y) s t) : s.route <+: t.route := by
  induction h with
  | refl => exact List.prefix_rfl
  | tail _ hstep ih =>
    obtain ⟨_, node, _, _, _, _, _, rfl⟩ := nnStep_eq_some.mp hstep
    exact ih.trans (List.prefix_append _ _)

theorem final_of_turn {start : PlaceId} {s s₀ : NNState} (hinit : nnInit p nodes start = some s₀)
    (h : Turn p order nodes endAnchor start s) :
    ReflTransGen (fun x y ↦ nnStep p order nodes endAnchor x = some y) s (nnFinal p order nodes endAnchor s₀) := by
  obtain ⟨s₁, hinit', hreach⟩ := h
  obtain rfl : s₀ = s₁ := Option.some.inj (hinit.symm.trans hinit')
  have hunique : Relator.RightUnique fun x y ↦ nnStep p order nodes endAnchor x = some y :=
    fun _ _ _ hx hy ↦ Option.some.inj (hx.symm.trans hy)
  rcases ReflTransGen.total_of_right_unique hunique hreach (nnLoop_reached s₀.unvisited.length s₀) with hs | hs
  · exact hs
  · rcases ReflTransGen.cases_head hs with rfl | ⟨t, hstep, _⟩
    · exact .refl
    · have hstuck : nnStep p order nodes endAnchor (nnFinal p order nodes endAnchor s₀) = none :=
        nnLoop_stuck _ s₀ le_rfl
      cases hstuck.symm.trans hstep

/-- Whoever was visited on a turn left time for the end anchor, so the route is kept. -/
theorem route_of_step {start : PlaceId} {s s' : NNState} (h : Turn p order nodes endAnchor start s)
    (hstep : nnStep p order nodes endAnchor s = some s') :
    ∃ t, ReflTransGen (fun x y ↦ nnStep p order nodes endAnchor x = some y) s' t ∧
      (nnFromStart p order nodes endAnchor start).1 = t.route ++ endAnchor.toList := by
  obtain ⟨s₀, hinit, hreach⟩ := h
  have hturn : Turn p order nodes endAnchor start s' := ⟨s₀, hinit, hreach.tail hstep⟩
  have hfinal := final_of_turn hinit hturn
  refine ⟨_, hfinal, ?_⟩
  obtain ⟨b, hb⟩ : ∃ b, nnStep p order nodes endAnchor b = some (nnFinal p order nodes endAnchor s₀) := by
    rcases ReflTransGen.cases_tail hfinal with he | ⟨b, -, hb⟩
    · exact ⟨s, he ▸ hstep⟩
    · exact ⟨b, hb⟩
  obtain ⟨last, hlast, hend⟩ := step_reachesEnd hb
  have happ := appendEndAnchor_of_reaches hlast hend
  rw [nnFromStart_eq, hinit]
  simp only [happ]

/-- The route and the set of nodes left out are the same in every order. -/
def OrderFree (p : DayProblem) (nodes : List PlaceId) (endAnchor : Option PlaceId) (start : PlaceId) : Prop :=
  ∀ order order' : SetOrder,
    (nnFromStart p order nodes endAnchor start).1 = (nnFromStart p order' nodes endAnchor start).1 ∧
    ∀ n, n ∈ (nnFromStart p order nodes endAnchor start).2 ↔ n ∈ (nnFromStart p order' nodes endAnchor start).2

theorem orderFree_of_untied {start : PlaceId}
    (htied : ∀ order s, Turn p order nodes endAnchor start s → ∀ a b, ¬Tied p endAnchor s a b) :
    OrderFree p nodes endAnchor start := by
  intro order order'
  rw [nnFromStart_eq, nnFromStart_eq]
  cases hinit : nnInit p nodes start with
  | none => exact ⟨rfl, fun _ ↦ .rfl⟩
  | some s₀ =>
    have hfinal : nnFinal p order nodes endAnchor s₀ = nnFinal p order' nodes endAnchor s₀ :=
      nnLoop_agree (htied order) _ ⟨s₀, hinit, .refl⟩
    dsimp only
    rw [← hfinal]
    cases appendEndAnchor p endAnchor (nnFinal p order nodes endAnchor s₀) with
    | none => exact ⟨rfl, fun _ ↦ .rfl⟩
    | some route =>
      refine ⟨rfl, fun n ↦ ?_⟩
      rw [(order.perm nodes _ _).mem_iff, (order'.perm nodes _ _).mem_iff]

/-- Two processes that enumerate the tied nodes in different orders part here. -/
theorem tied_parts {start : PlaceId} {s : NNState} {a b : PlaceId} (hs : Turn p order nodes endAnchor start s)
    (h : Tied p endAnchor s a b) :
    (nnFromStart p (putFirst order s.route a) nodes endAnchor start).1 ≠
      (nnFromStart p (putFirst order s.route b) nodes endAnchor start).1 := by
  obtain ⟨hne, last, d, hlast, ha, hb, hd, hle⟩ := h
  have hstep : nnStep p (putFirst order s.route a) nodes endAnchor s =
      some ⟨s.route ++ [a], d, s.unvisited.erase a⟩ :=
    nnStep_eq_some.mpr ⟨last, a, d, hlast, picked_putFirst ha, hd, hle, rfl⟩
  obtain ⟨t, hreach, hroute⟩ := route_of_step (turn_putFirst a hs) hstep
  have hpa : s.route ++ [a] <+: t.route := route_prefix hreach
  intro heq
  have hkept : (nnFromStart p (putFirst order s.route b) nodes endAnchor start).1 ≠ [] := by
    rw [← heq, hroute]
    obtain ⟨rest, hrest⟩ := hpa
    simp [← hrest]
  obtain ⟨s₀, hinit, hrouteb, _⟩ := nnFromStart_route hkept
  have hsame : t.route = (nnFinal p (putFirst order s.route b) nodes endAnchor s₀).route :=
    List.append_cancel_right (by rw [← hroute, ← hrouteb, heq])
  have hfinal := final_of_turn hinit (turn_putFirst b hs)
  have hlen := hpa.length_le
  rcases ReflTransGen.cases_head hfinal with he | ⟨s', hstepb, hrest⟩
  · rw [hsame, ← he] at hlen
    simp at hlen
  · obtain ⟨last', node, _, hlast', hnode, _, _, rfl⟩ := nnStep_eq_some.mp hstepb
    obtain rfl : last = last' := Option.some.inj (hlast.symm.trans hlast')
    obtain rfl : b = node := Option.some.inj ((picked_putFirst hb).symm.trans hnode)
    have hpb : s.route ++ [b] <+: t.route := hsame ▸ route_prefix hrest
    have hboth := List.prefix_of_prefix_length_le hpa hpb (by simp)
    have hend : [a] = [b] := List.append_cancel_left (hboth.eq_of_length (by simp))
    exact hne (List.cons.inj hend).1

/-- The outcome is free of the enumeration order exactly when no turn, in any
order, has a tie for its least key with a node that can be visited. -/
theorem nnFromStart_orderFree_iff (p : DayProblem) (nodes : List PlaceId) (endAnchor : Option PlaceId)
    (start : PlaceId) : OrderFree p nodes endAnchor start ↔
      ∀ order s, Turn p order nodes endAnchor start s → ∀ a b, ¬Tied p endAnchor s a b := by
  constructor
  · intro hfree order s hs a b htied
    exact tied_parts hs htied (hfree _ _).1
  · exact orderFree_of_untied

def twins : DayProblem where
  matrix := ⟨fun leg ↦ some ⟨leg.1, leg.2, 450, 540⟩⟩
  timeWindows := fun _ ↦ some (.single 32400 75600)
  visitDurationsS := fun _ ↦ some 3600
  dayStartS := 32400
  dayEndS := 75600

def backwards : SetOrder := ⟨fun _ _ unvisited ↦ unvisited.reverse, fun _ _ unvisited ↦ unvisited.reverse_perm⟩

theorem twins_order_matters :
    (nnFromStart twins .insertion ["louvre", "orsay", "kiosk"] none "louvre").1 = ["louvre", "orsay", "kiosk"] ∧
      (nnFromStart twins backwards ["louvre", "orsay", "kiosk"] none "louvre").1 = ["louvre", "kiosk", "orsay"] ∧
      ¬OrderFree twins ["louvre", "orsay", "kiosk"] none "louvre" := by
  have hforth : (nnFromStart twins .insertion ["louvre", "orsay", "kiosk"] none "louvre").1 =
      ["louvre", "orsay", "kiosk"] := by decide +kernel
  have hback : (nnFromStart twins backwards ["louvre", "orsay", "kiosk"] none "louvre").1 =
      ["louvre", "kiosk", "orsay"] := by decide +kernel
  refine ⟨hforth, hback, ?_⟩
  intro hfree
  have hsame := (hfree .insertion backwards).1
  rw [hforth, hback] at hsame
  exact absurd hsame (by decide)

end TravelPlanner.EnumerationOrder
