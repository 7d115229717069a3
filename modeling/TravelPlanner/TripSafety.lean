import TravelPlanner.TripAccounting

namespace TravelPlanner.TripSafety

open Clock Fallible Requests Windows Engine TimedRoutes Priorities RouteService RouteAccounting RouteSafety
open DayPartition Conservation TripService TripRequests TripAccounting

def NonNegMatrices (w : World) : Prop :=
  ∀ day kind query matrix, w.getMatrix day kind query = .ok matrix → matrix.NonNeg

variable {w : World} {day : ℕ} {kind : CallKind} {c : SolverCall} {request : MultiDayRequest}
  {packing : Packing} {cfg : DayConfig} {ctx : TransitionDayContext}

theorem callMatrix_nonneg (hw : NonNegMatrices w) : (callMatrix w day kind c).NonNeg := by
  unfold callMatrix
  split
  · next matrix hm => exact hw _ _ _ _ hm
  · intro o d e he
    simp [DistanceMatrix.get] at he

section Documents

variable {places : List PlaceDayPreference} {fetched : List PlaceDoc} {ids : List PlaceId}

theorem overrideHours_id (slot : Option DaySlot) (doc : PlaceDoc) : (overrideHours slot doc).id = doc.id := by
  cases slot <;> rfl

theorem dayDoc_id {id : PlaceId} {doc : PlaceDoc} (h : dayDoc places (docMap fetched) day id = some doc) :
    doc.id.hex = id := by
  obtain ⟨d, hd, rfl⟩ := Option.map_eq_some_iff.mp h
  rw [overrideHours_id, docMap_id hd]

theorem docMap_dayDocs {id : PlaceId} {doc : PlaceDoc}
    (h : docMap (buildDayDocs places (docMap fetched) day ids) id = some doc) :
    dayDoc places (docMap fetched) day id = some doc := by
  obtain ⟨id', _, hd⟩ := List.mem_filterMap.mp (docMap_mem h)
  rwa [← docMap_id h, dayDoc_id hd]

end Documents

theorem Executable.mono {r : OptimizeRequest} {docOf docOf' : PlaceId → Option PlaceDoc} {matrix : DistanceMatrix}
    {visits : List Visit} (h : Executable r docOf matrix visits)
    (hd : ∀ id doc, docOf id = some doc → docOf' id = some doc) : Executable r docOf' matrix visits where
  starts := h.starts
  ends := h.ends
  legs := h.legs
  windows v hv ha := by
    obtain ⟨doc, window, hdoc, rest⟩ := h.windows v hv ha
    exact ⟨doc, window, hd _ _ hdoc, rest⟩
  begins := h.begins
  finishes := h.finishes
  returns := h.returns

variable {docs : PlaceId → Option PlaceDoc}

theorem dayCalls_docs {call : CallKind × SolverCall} (h : call ∈ dayCalls request docs packing cfg day) :
    call.2.docs = buildDayDocs request.places docs day call.2.request.placeIds := by
  rcases mem_dayCalls.mp h with ⟨_, _, hc⟩ | ⟨ctx, _, ⟨_, hc⟩ | ⟨_, hc⟩⟩
  · exact (ordinaryCall_carries hc).docs
  · exact (preCall_carries hc).docs
  · exact (postCall_carries hc).docs

theorem callSchedule_executable {fetched : List PlaceDoc} (hw : NonNegMatrices w)
    (hdocs : c.docs = buildDayDocs request.places (docMap fetched) day c.request.placeIds)
    (hne : callSchedule w day kind c ≠ []) :
    Executable c.request (dayDoc request.places (docMap fetched) day) (callMatrix w day kind c)
      (callSchedule w day kind c) := by
  obtain ⟨resp, _, ha⟩ := optimizeRoute_answer w.order (w.now day kind) c.request c.docs (callMatrix w day kind c)
  refine Executable.mono (ha.executable (callMatrix_nonneg hw) hne) fun id doc h ↦ ?_
  rw [hdocs] at h
  exact docMap_dayDocs h

def shownSteps (p : DayPlan) : List (List RouteStep) := p.steps :: p.routeSegments.map DayRouteSegment.steps

theorem segment_shown {call : Option SolverCall} {result : Option OptimizeResponse}
    {calls : List (CallKind × SolverCall)} (segment : SegmentKind) (skips : List SkippedPlace)
    (hran : Ran w day kind call result)
    (hmem : ∀ c ∈ call, (kind, c) ∈ calls) : (segmentFromResult segment result skips).steps = [] ∨
      ∃ c ∈ calls, (segmentFromResult segment result skips).steps =
        stepsOf c.2.request c.2.docs (callMatrix w day c.1 c.2) (callSchedule w day c.1 c.2) := by
  cases call with
  | none =>
    left
    rw [hran.idle rfl]
    rfl
  | some c =>
    obtain ⟨resp, rfl, ha⟩ := hran.answer c rfl
    exact .inr ⟨(kind, c), hmem c rfl, ha.steps⟩

theorem planDay_shown {plan : DayPlan} (h : planDay request docs packing w cfg day = .ok plan) :
    plan.dayIndex = day ∧ ∀ steps ∈ shownSteps plan, steps = [] ∨
      ∃ call ∈ dayCalls request docs packing cfg day, steps = stepsOf call.2.request call.2.docs
        (callMatrix w day call.1 call.2) (callSchedule w day call.1 call.2) := by
  cases hctx : transferContexts request day with
  | none =>
    obtain ⟨result, hran, rfl⟩ := planDay_ordinary hctx h
    cases hcall : ordinaryCall request docs packing cfg day with
    | none => simp [hran.idle hcall, ordinaryPlan, shownSteps]
    | some c =>
      obtain ⟨resp, rfl, ha⟩ := hran.answer c hcall
      refine ⟨rfl, fun steps hsteps ↦ .inr ⟨(.ordinary, c), mem_dayCalls.mpr (.inl ⟨hctx, rfl, hcall⟩), ?_⟩⟩
      obtain rfl : steps = resp.steps := by simpa [shownSteps, ordinaryPlan] using hsteps
      exact ha.steps
  | some ctx =>
    obtain ⟨pre, post, hpre, hpost, rfl⟩ := planDay_transition hctx h
    have h₁ := segment_shown .preTransfer
      (windowSkipped docs (packing.preBuckets day) ctx.preVisitBudgetMin .preTransferWindowInfeasible) hpre
      fun c hc ↦ mem_dayCalls.mpr (.inr ⟨ctx, hctx, .inl ⟨rfl, hc⟩⟩)
    have h₂ := segment_shown .postTransfer
      (windowSkipped docs (packing.postBuckets day) ctx.postVisitBudgetMin .transferWindowInfeasible) hpost
      fun c hc ↦ mem_dayCalls.mpr (.inr ⟨ctx, hctx, .inr ⟨rfl, hc⟩⟩)
    refine ⟨rfl, fun steps hsteps ↦ ?_⟩
    simp only [shownSteps, transitionPlan, List.map_cons, List.map_nil, List.mem_cons, List.not_mem_nil,
      or_false] at hsteps
    rcases hsteps with rfl | rfl | rfl
    · exact h₂
    · exact h₁
    · exact h₂

theorem planDays_mem {l : List (DayConfig × ℕ)} {plans : List DayPlan}
    (h : planDays request docs packing w l = .ok plans) {plan : DayPlan} (hp : plan ∈ plans) :
    ∃ x ∈ l, planDay request docs packing w x.1 x.2 = .ok plan := by
  have hplans := planDays_forall₂ h
  obtain ⟨i, hi, rfl⟩ := List.getElem_of_mem hp
  have hl : i < l.length := by rwa [hplans.length_eq]
  exact ⟨l[i], List.getElem_mem hl, hplans.get hl hi⟩

theorem optimizeTrip_ok {km : Haversine} {fetched : List PlaceDoc} {resp : MultiDayResponse}
    (h : optimizeTrip km w request fetched = .ok resp) :
    ∃ packing, partition km request fetched = some packing ∧
      planDays request (docMap fetched) packing w request.days.zipIdx = .ok resp.days := by
  unfold optimizeTrip at h
  split at h
  · cases h
  · next packing hpart =>
    obtain ⟨plans, hplans, h⟩ := bind_eq_ok.mp h
    obtain rfl := pure_eq_ok.mp h
    exact ⟨packing, hpart, hplans⟩

/-- Every non-empty schedule, of a single day or of a call of a trip, can be
executed, and the steps shown to the traveller come from such schedules. -/
theorem schedules_executable (order : SetOrder) (now : DateTime) (single : OptimizeRequest) (docs : List PlaceDoc)
    (matrix : DistanceMatrix) (hm : matrix.NonNeg) (km : Haversine) (w : World) (request : MultiDayRequest)
    (fetched : List PlaceDoc) (hw : NonNegMatrices w) :
    (∃ resp, optimizeRoute order (fun _ ↦ .ok matrix) now single docs = .ok resp ∧
      resp.steps = stepsOf single docs matrix (scheduleOf order single docs matrix) ∧
      (∀ s, finalRoute order single docs matrix = some s → candidates single docs ≠ [] →
        (scheduleOf order single docs matrix).map Visit.placeId = s.route) ∧
      (scheduleOf order single docs matrix ≠ [] →
        Executable single (docMap docs) matrix (scheduleOf order single docs matrix))) ∧
    (∀ call ∈ tripCalls km request fetched, callSchedule w call.1 call.2.1 call.2.2 ≠ [] →
      Executable call.2.2.request (dayDoc request.places (docMap fetched) call.1)
        (callMatrix w call.1 call.2.1 call.2.2) (callSchedule w call.1 call.2.1 call.2.2)) ∧
    ∀ resp, optimizeTrip km w request fetched = .ok resp → ∀ plan ∈ resp.days, ∀ steps ∈ shownSteps plan,
      steps = [] ∨ ∃ call ∈ tripCalls km request fetched, call.1 = plan.dayIndex ∧
        steps = stepsOf call.2.2.request call.2.2.docs (callMatrix w call.1 call.2.1 call.2.2)
          (callSchedule w call.1 call.2.1 call.2.2) := by
  refine ⟨?_, fun call hcall ↦ ?_, fun resp hr plan hplan steps hsteps ↦ ?_⟩
  · obtain ⟨resp, hr, ha⟩ := optimizeRoute_answer order now single docs matrix
    refine ⟨resp, hr, ha.steps, fun s hs hc ↦ ?_, ha.executable hm⟩
    obtain ⟨visits, hv, ht⟩ := (finalRoute_final hs).schedule_eq
    rw [scheduleOf, if_neg hc, hs, ← ht.places]
    exact congrArg _ hv
  · unfold tripCalls at hcall
    split at hcall
    · simp at hcall
    · obtain ⟨x, _, hx⟩ := List.mem_flatMap.mp hcall
      obtain ⟨c, hc, rfl⟩ := List.mem_map.mp hx
      exact callSchedule_executable hw (dayCalls_docs hc)
  · obtain ⟨packing, hpart, hdays⟩ := optimizeTrip_ok hr
    obtain ⟨x, hx, hday⟩ := planDays_mem hdays hplan
    obtain ⟨hindex, hshown⟩ := planDay_shown hday
    refine (hshown steps hsteps).imp_right ?_
    rintro ⟨call, hcall, he⟩
    refine ⟨(x.2, call), ?_, hindex.symm, he⟩
    simp only [tripCalls, hpart, List.mem_flatMap, List.mem_map]
    exact ⟨x, hx, call, hcall, rfl⟩

theorem steadyMatrix_nonneg : steadyMatrix.NonNeg := fun o d e he ↦ by
  obtain rfl := Option.some.inj he
  exact Int.le_of_lt (by norm_num)

theorem steadyWorld_nonneg : NonNegMatrices steadyWorld := fun _ _ _ _ h ↦ Except.ok.inj h ▸ steadyMatrix_nonneg

def dayTrip : OptimizeRequest where
  placeIds := changeover.places.map PlaceDayPreference.placeId
  startLat := some 50
  startLng := some 10
  endLat := some 40
  endLng := some 10

theorem schedules_executable_changeover :
    (∃ resp, optimizeRoute .insertion (fun _ ↦ .ok steadyMatrix) ⟨dayOne, midnight⟩ dayTrip changeoverDocs =
        .ok resp ∧
      resp.steps = stepsOf dayTrip changeoverDocs steadyMatrix
        (scheduleOf .insertion dayTrip changeoverDocs steadyMatrix) ∧
      (∀ s, finalRoute .insertion dayTrip changeoverDocs steadyMatrix = some s →
        candidates dayTrip changeoverDocs ≠ [] →
        (scheduleOf .insertion dayTrip changeoverDocs steadyMatrix).map Visit.placeId = s.route) ∧
      (scheduleOf .insertion dayTrip changeoverDocs steadyMatrix ≠ [] →
        Executable dayTrip (docMap changeoverDocs) steadyMatrix
          (scheduleOf .insertion dayTrip changeoverDocs steadyMatrix))) ∧
    (∀ call ∈ tripCalls gridDistance changeover changeoverDocs,
      callSchedule steadyWorld call.1 call.2.1 call.2.2 ≠ [] →
      Executable call.2.2.request (dayDoc changeover.places (docMap changeoverDocs) call.1)
        (callMatrix steadyWorld call.1 call.2.1 call.2.2) (callSchedule steadyWorld call.1 call.2.1 call.2.2)) ∧
    ∀ resp, optimizeTrip gridDistance steadyWorld changeover changeoverDocs = .ok resp →
      ∀ plan ∈ resp.days, ∀ steps ∈ shownSteps plan, steps = [] ∨
        ∃ call ∈ tripCalls gridDistance changeover changeoverDocs, call.1 = plan.dayIndex ∧
          steps = stepsOf call.2.2.request call.2.2.docs (callMatrix steadyWorld call.1 call.2.1 call.2.2)
            (callSchedule steadyWorld call.1 call.2.1 call.2.2) :=
  schedules_executable .insertion ⟨dayOne, midnight⟩ dayTrip changeoverDocs steadyMatrix steadyMatrix_nonneg
    gridDistance steadyWorld changeover changeoverDocs steadyWorld_nonneg

end TravelPlanner.TripSafety
