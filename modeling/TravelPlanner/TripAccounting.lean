import Mathlib.Algebra.BigOperators.Group.Multiset.Basic
import Mathlib.Data.List.Forall2
import Mathlib.Tactic.Abel
import TravelPlanner.RouteSafety
import TravelPlanner.TripRequests

namespace TravelPlanner.TripAccounting

open Clock Fallible Requests Windows Engine RouteService RouteAccounting RouteSafety DayPartition Conservation
open TripService TripRequests

def Answers (w : World) : Prop := ∀ day kind query, ∃ matrix, w.getMatrix day kind query = .ok matrix

def callMatrix (w : World) (day : ℕ) (kind : CallKind) (c : SolverCall) : DistanceMatrix :=
  match w.getMatrix day kind (matrixQuery c.request c.docs (w.now day kind)) with
  | .ok matrix => matrix
  | .error _ => ⟨fun _ ↦ none⟩

def callSchedule (w : World) (day : ℕ) (kind : CallKind) (c : SolverCall) : List Visit :=
  scheduleOf w.order c.request c.docs (callMatrix w day kind c)

variable {w : World} {day : ℕ} {kind : CallKind} {c : SolverCall} {request : MultiDayRequest}
  {docs : PlaceId → Option PlaceDoc} {packing : Packing} {cfg : DayConfig} {ctx : TransitionDayContext}

theorem callMatrix_eq {matrix : DistanceMatrix}
    (h : w.getMatrix day kind (matrixQuery c.request c.docs (w.now day kind)) = .ok matrix) :
    callMatrix w day kind c = matrix := by
  rw [callMatrix, h]

theorem runCall_total (day : ℕ) (kind : CallKind) (hw : Answers w) (hc : c.request.Valid) :
    ∃ resp, runCall w day kind c = .ok resp := by
  obtain ⟨matrix, hm⟩ := hw day kind (matrixQuery c.request c.docs (w.now day kind))
  obtain ⟨resp, hr, _⟩ := optimizeRoute_answer w.order (w.now day kind) c.request c.docs matrix
  exact ⟨resp, by rw [runCall_eq hc, optimizeRoute_query fun _ ↦ hm, hr]⟩

theorem runCall_answer {resp : OptimizeResponse} (h : runCall w day kind c = .ok resp) :
    Answer w.order c.request c.docs (callMatrix w day kind c) resp := by
  have hvalid : c.request.Valid := by
    unfold runCall at h
    split at h
    · cases h
    · next hv => exact hv
  rw [runCall_eq hvalid] at h
  have hquery : candidates c.request c.docs ≠ [] →
      w.getMatrix day kind (matrixQuery c.request c.docs (w.now day kind)) = .ok (callMatrix w day kind c) := by
    intro hne
    unfold optimizeRoute at h
    rw [if_neg hne] at h
    cases hm : w.getMatrix day kind (matrixQuery c.request c.docs (w.now day kind)) with
    | error e => simp [hm] at h
    | ok matrix => rw [callMatrix_eq hm]
  obtain ⟨resp', hr, ha⟩ := optimizeRoute_answer w.order (w.now day kind) c.request c.docs (callMatrix w day kind c)
  rw [optimizeRoute_query hquery, hr] at h
  exact Except.ok.inj h ▸ ha

structure Ran (w : World) (day : ℕ) (kind : CallKind) (call : Option SolverCall)
    (result : Option OptimizeResponse) : Prop where
  idle : call = none → result = none
  answer : ∀ c ∈ call, ∃ resp, result = some resp ∧
    Answer w.order c.request c.docs (callMatrix w day kind c) resp

theorem runOptional_ran {call : Option SolverCall} {result : Option OptimizeResponse}
    (h : runOptional w day kind call = .ok result) : Ran w day kind call result := by
  cases call with
  | none => exact ⟨fun _ ↦ (Except.ok.inj h).symm, by simp⟩
  | some c =>
    obtain ⟨resp, hr, hresult⟩ := map_eq_ok.mp h
    refine ⟨by simp, fun c' hc' ↦ ⟨resp, hresult.symm, ?_⟩⟩
    obtain rfl := Option.mem_some_iff.mp hc'
    exact runCall_answer hr

theorem runOptional_total (hw : Answers w) {call : Option SolverCall} (hc : ∀ c ∈ call, c.request.Valid) :
    ∃ result, runOptional w day kind call = .ok result := by
  cases call with
  | none => exact ⟨none, rfl⟩
  | some c =>
    obtain ⟨resp, hr⟩ := runCall_total day kind hw (hc c rfl)
    exact ⟨some resp, by simp [runOptional, Except.map, hr]⟩

theorem planDay_transition {plan : DayPlan} (hctx : transferContexts request day = some ctx)
    (h : planDay request docs packing w cfg day = .ok plan) :
    ∃ pre post, Ran w day .preTransfer (preCall request docs packing cfg day ctx) pre ∧
      Ran w day .postTransfer (postCall request docs packing cfg day ctx) post ∧
      plan = transitionPlan packing cfg day ctx (preSegment docs packing day ctx pre)
        (postSegment docs packing day ctx post) := by
  simp only [planDay, hctx, buildTransitionDayPlan] at h
  obtain ⟨pre, hpre, h⟩ := bind_eq_ok.mp h
  obtain ⟨post, hpost, h⟩ := bind_eq_ok.mp h
  exact ⟨pre, post, runOptional_ran hpre, runOptional_ran hpost, (pure_eq_ok.mp h).symm⟩

theorem planDay_ordinary {plan : DayPlan} (hctx : transferContexts request day = none)
    (h : planDay request docs packing w cfg day = .ok plan) :
    ∃ result, Ran w day .ordinary (ordinaryCall request docs packing cfg day) result ∧
      plan = ordinaryPlan cfg day result := by
  simp only [planDay, hctx] at h
  obtain ⟨result, hr, hplan⟩ := map_eq_ok.mp h
  exact ⟨result, runOptional_ran hr, hplan.symm⟩

theorem planDay_total {x : DayConfig × ℕ} (hw : Answers w)
    (h : ∀ call ∈ dayCalls request docs packing x.1 x.2, call.2.request.Valid) :
    ∃ plan, planDay request docs packing w x.1 x.2 = .ok plan := by
  unfold planDay
  cases hctx : transferContexts request x.2 with
  | none =>
    obtain ⟨result, hr⟩ := runOptional_total hw fun c hc ↦
      h (.ordinary, c) (mem_dayCalls.mpr (.inl ⟨hctx, rfl, hc⟩))
    exact ⟨_, map_eq_ok.mpr ⟨result, hr, rfl⟩⟩
  | some ctx =>
    obtain ⟨pre, hpre⟩ := runOptional_total hw fun c hc ↦
      h (.preTransfer, c) (mem_dayCalls.mpr (.inr ⟨ctx, hctx, .inl ⟨rfl, hc⟩⟩))
    obtain ⟨post, hpost⟩ := runOptional_total hw fun c hc ↦
      h (.postTransfer, c) (mem_dayCalls.mpr (.inr ⟨ctx, hctx, .inr ⟨rfl, hc⟩⟩))
    exact ⟨_, bind_eq_ok.mpr ⟨pre, hpre, bind_eq_ok.mpr ⟨post, hpost, rfl⟩⟩⟩

def planSteps (p : DayPlan) : List RouteStep :=
  if p.routeSegments = [] then p.steps else p.routeSegments.flatMap DayRouteSegment.steps

def planOutcomes (p : DayPlan) : List PlaceId := stepIds (planSteps p) ++ skippedIds p.skipped

/-- Every outcome a response reports: steps, skips and unassigned places. -/
def outcomes (resp : MultiDayResponse) : List PlaceId :=
  resp.days.flatMap planOutcomes ++ skippedIds resp.unassigned

theorem segment_perm {call : Option SolverCall} {result : Option OptimizeResponse} {ids : List PlaceId}
    {budgetMin : ℤ} (docs : PlaceId → Option PlaceDoc) (segment : SegmentKind) (reason : SkipReason)
    (hn : ids.Nodup) (hran : Ran w day kind call result) (hsome : ∀ c ∈ call, c.request.placeIds = ids)
    (hnone : call = none → ids = [] ∨ budgetMin = 0) :
    (stepIds (segmentFromResult segment result (windowSkipped docs ids budgetMin reason)).steps ++
      skippedIds (segmentFromResult segment result
        (windowSkipped docs ids budgetMin reason)).skipped).Perm ids := by
  cases call with
  | none =>
    rw [hran.idle rfl]
    rcases hnone rfl with rfl | rfl
    · simp [segmentFromResult, stepIds, skippedIds, windowSkipped]
    · simp [segmentFromResult, stepIds, skippedIds, windowSkipped, Function.comp_def]
  | some c =>
    obtain ⟨resp, rfl, ha⟩ := hran.answer c rfl
    have hids := hsome c rfl
    exact hids ▸ ha.outcomes (hids ▸ hn)

structure Carries (request : MultiDayRequest) (docs : PlaceId → Option PlaceDoc) (day : ℕ) (ids : List PlaceId)
    (c : SolverCall) : Prop where
  ids : c.request.placeIds = ids
  docs : c.docs = buildDayDocs request.places docs day c.request.placeIds

theorem preCall_carries (h : preCall request docs packing cfg day ctx = some c) :
    Carries request docs day (packing.preBuckets day) c := by
  simp only [preCall, Option.ite_none_right_eq_some] at h
  obtain rfl := Option.some.inj h.2
  exact ⟨rfl, rfl⟩

theorem postCall_carries (h : postCall request docs packing cfg day ctx = some c) :
    Carries request docs day (packing.postBuckets day) c := by
  simp only [postCall, Option.ite_none_right_eq_some] at h
  obtain rfl := Option.some.inj h.2
  exact ⟨rfl, rfl⟩

theorem ordinaryCall_carries (h : ordinaryCall request docs packing cfg day = some c) :
    Carries request docs day (packing.buckets day) c := by
  simp only [ordinaryCall, Option.ite_none_right_eq_some] at h
  obtain rfl := Option.some.inj h.2
  exact ⟨rfl, rfl⟩

theorem budgets_nonneg (h : transferContexts request day = some ctx) :
    0 ≤ ctx.preVisitBudgetMin ∧ 0 ≤ ctx.postVisitBudgetMin := by
  obtain ⟨_, _, _, _, _, _, _, _, rfl⟩ := transferContexts_spec h
  exact ⟨le_max_left _ _, le_max_left _ _⟩

theorem preCall_none (hb : 0 ≤ ctx.preVisitBudgetMin) (h : preCall request docs packing cfg day ctx = none) :
    packing.preBuckets day = [] ∨ ctx.preVisitBudgetMin = 0 := by
  simp only [preCall, ite_eq_right_iff, reduceCtorEq, imp_false, not_and_or, not_not] at h
  exact h.imp_right fun h ↦ by omega

theorem postCall_none (hb : 0 ≤ ctx.postVisitBudgetMin) (h : postCall request docs packing cfg day ctx = none) :
    packing.postBuckets day = [] ∨ ctx.postVisitBudgetMin = 0 := by
  simp only [postCall, ite_eq_right_iff, reduceCtorEq, imp_false, not_and_or, not_not] at h
  exact h.imp_right fun h ↦ by omega

theorem transition_outcomes (pre post : DayRouteSegment) :
    planOutcomes (transitionPlan packing cfg day ctx pre post) = stepIds pre.steps ++ stepIds post.steps ++
      (skippedIds (packing.preSolverSkipped day) ++ skippedIds pre.skipped ++ skippedIds post.skipped) := by
  simp [planOutcomes, planSteps, transitionPlan, stepIds, skippedIds]

theorem perm_regroup {α : Type} (a b s c d : List α) :
    (a ++ b ++ (s ++ c ++ d)).Perm (s ++ (a ++ c) ++ (b ++ d)) := by
  simp only [← Multiset.coe_eq_coe, ← Multiset.coe_add]
  abel

theorem planDays_forall₂ {l : List (DayConfig × ℕ)} {plans : List DayPlan}
    (h : planDays request docs packing w l = .ok plans) :
    List.Forall₂ (fun x plan ↦ planDay request docs packing w x.1 x.2 = .ok plan) l plans := by
  induction l generalizing plans with
  | nil =>
    obtain rfl : [] = plans := Except.ok.inj h
    exact .nil
  | cons x l ih =>
    simp only [planDays] at h
    obtain ⟨plan, hplan, h⟩ := bind_eq_ok.mp h
    obtain ⟨rest, hrest, h⟩ := bind_eq_ok.mp h
    obtain rfl := pure_eq_ok.mp h
    exact .cons hplan (ih hrest)

theorem planDay_perm {plan : DayPlan} (hsep : Separated (transferContexts request) packing)
    (hn : (dayPlaces packing day).Nodup) (h : planDay request docs packing w cfg day = .ok plan) :
    (planOutcomes plan).Perm (dayPlaces packing day) := by
  cases hctx : transferContexts request day with
  | none =>
    obtain ⟨hskip, hpre, hpost⟩ := hsep.transfer day hctx
    simp only [dayPlaces, hskip, hpre, hpost, skippedIds, List.map_nil, List.append_nil] at hn ⊢
    obtain ⟨result, hran, rfl⟩ := planDay_ordinary hctx h
    cases hcall : ordinaryCall request docs packing cfg day with
    | none =>
      have hnil : packing.buckets day = [] := by simpa [ordinaryCall] using hcall
      simp [hran.idle hcall, hnil, planOutcomes, planSteps, ordinaryPlan, stepIds, skippedIds]
    | some c =>
      obtain ⟨resp, rfl, ha⟩ := hran.answer c hcall
      have hids := (ordinaryCall_carries hcall).ids
      exact hids ▸ ha.outcomes (hids ▸ hn)
  | some ctx =>
    have hnil := hsep.ordinary day (by simp [hctx])
    obtain ⟨pre, post, hpre, hpost, rfl⟩ := planDay_transition hctx h
    obtain ⟨hb, hb'⟩ := budgets_nonneg hctx
    simp only [dayPlaces, hnil, List.nil_append] at hn ⊢
    have hnpost := hn.of_append_right
    have hnpre := hn.of_append_left.of_append_right
    have h₁ := segment_perm docs .preTransfer .preTransferWindowInfeasible hnpre hpre
      (fun c hc ↦ (preCall_carries hc).ids) (preCall_none hb)
    have h₂ := segment_perm docs .postTransfer .transferWindowInfeasible hnpost hpost
      (fun c hc ↦ (postCall_carries hc).ids) (postCall_none hb')
    refine .trans ?_ ((h₁.append_left _).append h₂)
    rw [transition_outcomes]
    exact perm_regroup _ _ _ _ _

theorem planDays_perm {l : List (DayConfig × ℕ)} {plans : List DayPlan}
    (hday : ∀ x ∈ l, ∀ plan, planDay request docs packing w x.1 x.2 = .ok plan →
      (planOutcomes plan).Perm (dayPlaces packing x.2)) (h : planDays request docs packing w l = .ok plans) :
    (plans.flatMap planOutcomes).Perm ((l.map Prod.snd).flatMap (dayPlaces packing)) := by
  have hplans := planDays_forall₂ h
  clear h
  induction hplans with
  | nil => exact .rfl
  | cons hplan _ ih =>
    exact (hday _ List.mem_cons_self _ hplan).append (ih fun y hy ↦ hday y (List.mem_cons_of_mem _ hy))

theorem planDays_total {l : List (DayConfig × ℕ)} (hw : Answers w)
    (h : ∀ x ∈ l, ∀ call ∈ dayCalls request docs packing x.1 x.2, call.2.request.Valid) :
    ∃ plans, planDays request docs packing w l = .ok plans := by
  induction l with
  | nil => exact ⟨[], rfl⟩
  | cons x l ih =>
    obtain ⟨plan, hplan⟩ := planDay_total hw (h x List.mem_cons_self)
    obtain ⟨plans, hplans⟩ := ih fun y hy ↦ h y (List.mem_cons_of_mem _ hy)
    exact ⟨plan :: plans, by rw [planDays, hplan, hplans]; rfl⟩

/-- With a working matrix service every valid trip gets a response. -/
theorem optimizeTrip_total (km : Haversine) (docs : List PlaceDoc) (h : request.Valid) (hw : Answers w) :
    ∃ resp packing, optimizeTrip km w request docs = .ok resp ∧ resp.unassigned = packing.unassigned ∧
      Separated (transferContexts request) packing ∧
      (placed request.days.length packing).Perm (request.places.map PlaceDayPreference.placeId) ∧
      planDays request (docMap docs) packing w request.days.zipIdx = .ok resp.days := by
  have hc := checked h
  obtain ⟨packing, hpart, hsep, hp⟩ := partition_conserves km docs hc
  have hvalid : ∀ x ∈ request.days.zipIdx, ∀ call ∈ dayCalls request (docMap docs) packing x.1 x.2,
      call.2.request.Valid := fun x hx call hcall ↦ dayCalls_valid hc hx hp hcall
  obtain ⟨plans, hplans⟩ := planDays_total hw hvalid
  refine ⟨⟨plans, request.transportMode, packing.unassigned⟩, packing, ?_, rfl, hsep, hp, hplans⟩
  simp only [optimizeTrip, hpart, hplans]
  rfl

/-- Every requested place has exactly one outcome in the response of a trip. -/
theorem optimizeTrip_conserves (km : Haversine) (w : World) (request : MultiDayRequest) (docs : List PlaceDoc)
    (h : request.Valid) (hw : Answers w)
    (hs : ∀ p ∈ request.places, p.placeId ≠ startAnchorId ∧ p.placeId ≠ endAnchorId) :
    ∃ resp, optimizeTrip km w request docs = .ok resp ∧
      (outcomes resp).Perm (request.places.map PlaceDayPreference.placeId) ∧
      (∀ id, (outcomes resp).count id = if id ∈ request.places.map PlaceDayPreference.placeId then 1 else 0) ∧
      startAnchorId ∉ outcomes resp ∧ endAnchorId ∉ outcomes resp := by
  have hc := checked h
  obtain ⟨resp, packing, hresp, hun, hsep, hp, hplans⟩ := optimizeTrip_total km docs h hw
  have hnodup : (placed request.days.length packing).Nodup := hp.nodup_iff.mpr hc.ids
  have hdays : ∀ x ∈ request.days.zipIdx, (dayPlaces packing x.2).Nodup := fun x hx ↦ by
    have hlt := (List.getElem?_eq_some_iff.mp (List.mem_zipIdx_iff_getElem?.mp hx)).1
    exact (List.nodup_flatMap.mp hnodup.of_append_left).1 x.2 (List.mem_range.mpr hlt)
  have hperm := planDays_perm (fun x hx plan hplan ↦ planDay_perm hsep (hdays x hx) hplan) hplans
  rw [List.zipIdx_map_snd, ← List.range_eq_range'] at hperm
  have hall : (outcomes resp).Perm (request.places.map PlaceDayPreference.placeId) := by
    rw [outcomes, hun]
    exact (hperm.append_right _).trans hp
  have hmem : ∀ id ∈ request.places.map PlaceDayPreference.placeId, id ≠ startAnchorId ∧ id ≠ endAnchorId := by
    simpa using hs
  refine ⟨resp, hresp, hall, fun id ↦ ?_, ?_, ?_⟩
  · rw [hall.count_eq, hc.ids.count]
  · exact fun he ↦ (hmem _ (hall.subset he)).1 rfl
  · exact fun he ↦ (hmem _ (hall.subset he)).2 rfl

theorem steadyWorld_answers : Answers steadyWorld := fun _ _ _ ↦ ⟨steadyMatrix, rfl⟩

theorem optimizeTrip_conserves_changeover :
    ∃ resp, optimizeTrip gridDistance steadyWorld changeover changeoverDocs = .ok resp ∧
      (outcomes resp).Perm (changeover.places.map PlaceDayPreference.placeId) ∧
      (∀ id, (outcomes resp).count id =
        if id ∈ changeover.places.map PlaceDayPreference.placeId then 1 else 0) ∧
      startAnchorId ∉ outcomes resp ∧ endAnchorId ∉ outcomes resp :=
  optimizeTrip_conserves gridDistance steadyWorld changeover changeoverDocs changeover_valid steadyWorld_answers
    (by decide +kernel)

end TravelPlanner.TripAccounting
