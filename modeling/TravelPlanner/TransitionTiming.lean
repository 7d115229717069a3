import TravelPlanner.TripSafety

namespace TravelPlanner.TransitionTiming

open Clock Requests Windows Engine RouteService RouteSafety DayPartition TripService TripRequests TripAccounting
open TripSafety

variable {w : World} {day : ℕ} {c : SolverCall} {request : MultiDayRequest} {packing : Packing}
  {cfg : DayConfig} {ctx : TransitionDayContext} {fetched : List PlaceDoc}

/-- A segment keeps to its window: every visit begins at `lo` or later and leaves
in time to be back at the stay by `hi`. A window below a minute has no visits. -/
structure Timely (w : World) (request : MultiDayRequest) (fetched : List PlaceDoc)
    (calls : List (ℕ × CallKind × SolverCall)) (day : ℕ) (kind : CallKind) (seg : DayRouteSegment)
    (lo hi : ℤ) : Prop where
  short : hi - lo < 60 → seg.steps = []
  visits : seg.steps = [] ∨ ∃ c, (day, kind, c) ∈ calls ∧
    seg.steps = stepsOf c.request c.docs (callMatrix w day kind c) (callSchedule w day kind c) ∧
    ∀ v ∈ callSchedule w day kind c, ¬isAnchor c.request v.placeId →
      lo ≤ v.arrivalS ∧
      (∃ doc, dayDoc request.places (docMap fetched) day v.placeId = some doc ∧
        lo ≤ v.departureS - doc.visitMin * 60) ∧
      v.departureS + seg.travelToEndS ≤ hi

theorem segment_timely {kind : CallKind} {call : Option SolverCall} {result : Option OptimizeResponse}
    {calls : List (ℕ × CallKind × SolverCall)} {lo hi : ℤ} (segment : SegmentKind) (skips : List SkippedPlace)
    (hw : NonNegMatrices w) (hran : Ran w day kind call result)
    (hcall : ∀ c ∈ call, (day, kind, c) ∈ calls ∧ 60 ≤ hi - lo ∧ lo ≤ dayStartS c.request ∧
      dayEndS c.request ≤ hi ∧ c.docs = buildDayDocs request.places (docMap fetched) day c.request.placeIds) :
    Timely w request fetched calls day kind (segmentFromResult segment result skips) lo hi := by
  cases call with
  | none =>
    have hnil : (segmentFromResult segment result skips).steps = [] := by rw [hran.idle rfl]; rfl
    exact ⟨fun _ ↦ hnil, .inl hnil⟩
  | some c =>
    obtain ⟨resp, rfl, ha⟩ := hran.answer c rfl
    obtain ⟨hmem, hwide, hlo, hhi, hdocs⟩ := hcall c rfl
    refine ⟨fun hshort ↦ by omega, .inr ⟨c, hmem, ha.steps, fun v hv hanchor ↦ ?_⟩⟩
    have hex := callSchedule_executable hw hdocs (List.ne_nil_of_mem hv)
    have hbegin := hex.begins v hv
    have hreturn := hex.returns v hv hanchor
    obtain ⟨doc, window, hdoc, _, s, _, hstart, _⟩ := hex.windows v hv hanchor
    have hserve := (le_max_right s.1 v.arrivalS).trans hstart
    have htoEnd : resp.travelToEndS = travelToEnd c.request (callSchedule w day kind c) := ha.toEnd
    simp only [segmentFromResult, htoEnd]
    exact ⟨by omega, ⟨doc, hdoc, by omega⟩, by omega⟩

theorem preCall_window {transfer : TransferBlock} {origin destination : AccommodationStay}
    (hctx : ctx = buildTransitionDayContext transfer origin destination cfg) (hcfg : ConfigChecked cfg)
    {docs : PlaceId → Option PlaceDoc} (h : preCall request docs packing cfg day ctx = some c) :
    60 ≤ ctx.preEndS - ctx.preStartS ∧ ctx.preStartS ≤ dayStartS c.request ∧ dayEndS c.request ≤ ctx.preEndS := by
  simp only [preCall, Option.ite_none_right_eq_some] at h
  obtain ⟨⟨_, hb⟩, h⟩ := h
  obtain ⟨h₀, hwide, hmax⟩ := pre_bounds hctx hcfg hb
  obtain rfl := Option.some.inj h
  have hfields : resolveSegmentEndBoundFields ctx.preEndS = (23, some (secondsToTime ctx.preEndS)) :=
    if_neg (by omega)
  have hstart : ctx.preStartS = resolveDayBoundS cfg.dayStartHour cfg.dayStartTime := by rw [hctx]; rfl
  refine ⟨by omega, hstart.le, ?_⟩
  simp only [dayEndS, hfields, resolve_secondsToTime 23 ctx.preEndS (by omega) hmax]
  exact le_rfl

theorem postCall_window {transfer : TransferBlock} {origin destination : AccommodationStay}
    (hctx : ctx = buildTransitionDayContext transfer origin destination cfg) (hcfg : ConfigChecked cfg)
    {docs : PlaceId → Option PlaceDoc} (h : postCall request docs packing cfg day ctx = some c) :
    60 ≤ ctx.postEndS - ctx.postStartS ∧ ctx.postStartS ≤ dayStartS c.request ∧
      dayEndS c.request ≤ ctx.postEndS := by
  simp only [postCall, Option.ite_none_right_eq_some] at h
  obtain ⟨⟨_, hb⟩, h⟩ := h
  obtain ⟨h₀, hwide, hmax⟩ := post_bounds hctx hcfg hb
  obtain rfl := Option.some.inj h
  have hend : resolveDayBoundS cfg.dayEndHour cfg.dayEndTime = ctx.postEndS := by rw [hctx]; rfl
  refine ⟨by omega, ?_, hend.le⟩
  simp only [dayStartS, resolve_secondsToTime cfg.dayStartHour ctx.postStartS h₀ (by omega)]
  exact le_rfl

theorem context_of_transfer {transfer : TransferBlock} (hc : Checked request) (hcfg : request.days[day]? = some cfg)
    (ht : transfer ∈ request.transfers) (hd : transfer.date = cfg.date) :
    ∃ origin destination, (dayAnchors request.accommodations cfg.date).start = some origin ∧
      (dayAnchors request.accommodations cfg.date).finish = some destination ∧
      transferContexts request day = some (buildTransitionDayContext transfer origin.1 destination.1 cfg) := by
  have hfind : resolveDayTransfer request.transfers cfg.date = some transfer := by
    obtain ⟨t, hfound⟩ : ∃ t, resolveDayTransfer request.transfers cfg.date = some t :=
      Option.isSome_iff_exists.mp (List.find?_isSome.mpr ⟨transfer, List.mem_reverse.mpr ht, by simp [hd]⟩)
    have hmem := List.mem_reverse.mp (List.mem_of_find?_eq_some hfound)
    have hdate : t.date = cfg.date := by simpa using List.find?_some hfound
    rw [hfound, List.inj_on_of_nodup_map hc.transferDates hmem ht (hdate.trans hd.symm)]
  have htransition := hc.transition transfer ht
  rw [hd] at htransition
  cases ho : (dayAnchors request.accommodations cfg.date).start with
  | none => simp [isTransitionDay, ho] at htransition
  | some origin =>
    cases hdest : (dayAnchors request.accommodations cfg.date).finish with
    | none => simp [isTransitionDay, ho, hdest] at htransition
    | some destination =>
      refine ⟨origin, destination, rfl, rfl, ?_⟩
      simp [transferContexts, hcfg, dayContext, hfind, ho, hdest, htransition]

theorem planDays_get {docs : PlaceId → Option PlaceDoc} {l : List (DayConfig × ℕ)} {plans : List DayPlan}
    (h : planDays request docs packing w l = .ok plans) {i : ℕ} {x : DayConfig × ℕ} (hx : l[i]? = some x) :
    ∃ plan, plans[i]? = some plan ∧ planDay request docs packing w x.1 x.2 = .ok plan := by
  have hplans := planDays_forall₂ h
  obtain ⟨hi, rfl⟩ := List.getElem?_eq_some_iff.mp hx
  have hp : i < plans.length := by rwa [← hplans.length_eq]
  exact ⟨plans[i], List.getElem?_eq_getElem hp, hplans.get hi hp⟩

/-- On every day with a transfer both segments keep to their windows: up to the
departure, the end of the day and the check-out, and from the arrival, the
check-in and the start of the day. -/
theorem transition_day_timing (km : Haversine) (w : World) (request : MultiDayRequest) (fetched : List PlaceDoc)
    (h : request.Valid) (hw : NonNegMatrices w) (resp : MultiDayResponse)
    (hr : optimizeTrip km w request fetched = .ok resp) (day : ℕ) (cfg : DayConfig)
    (hcfg : request.days[day]? = some cfg) (transfer : TransferBlock) (ht : transfer ∈ request.transfers)
    (hd : transfer.date = cfg.date) :
    ∃ origin destination plan pre post,
      (dayAnchors request.accommodations cfg.date).start = some origin ∧
      (dayAnchors request.accommodations cfg.date).finish = some destination ∧
      resp.days[day]? = some plan ∧ plan.routeSegments = [pre, post] ∧
      pre.kind = .preTransfer ∧ post.kind = .postTransfer ∧
      Timely w request fetched (tripCalls km request fetched) day .preTransfer pre
        (resolveDayBoundS cfg.dayStartHour cfg.dayStartTime)
        (min (min (resolveDayBoundS 0 (some transfer.departureTime))
          (resolveDayBoundS cfg.dayEndHour cfg.dayEndTime))
          (optionalBound origin.1.checkOutBy (resolveDayBoundS 0 (some transfer.departureTime)))) ∧
      Timely w request fetched (tripCalls km request fetched) day .postTransfer post
        (max (max (resolveDayBoundS 0 (some transfer.arrivalTime))
          (optionalBound destination.1.checkInFrom (resolveDayBoundS cfg.dayStartHour cfg.dayStartTime)))
          (resolveDayBoundS cfg.dayStartHour cfg.dayStartTime))
        (resolveDayBoundS cfg.dayEndHour cfg.dayEndTime) := by
  have hc := checked h
  have hchecked := config_checked (hc.configs cfg (List.mem_of_getElem? hcfg))
  obtain ⟨origin, destination, ho, hdest, hctx⟩ := context_of_transfer hc hcfg ht hd
  obtain ⟨packing, hpart, hdays⟩ := optimizeTrip_ok hr
  have hzip : request.days.zipIdx[day]? = some (cfg, day) := by simp [hcfg]
  obtain ⟨plan, hplan, hday⟩ := planDays_get hdays hzip
  obtain ⟨pre, post, hpre, hpost, rfl⟩ := planDay_transition hctx hday
  have hmem : ∀ kind c, (kind, c) ∈ dayCalls request (docMap fetched) packing cfg day →
      (day, kind, c) ∈ tripCalls km request fetched := by
    intro kind c hcall
    simp only [tripCalls, hpart, List.mem_flatMap, List.mem_map]
    exact ⟨(cfg, day), List.mem_of_getElem? hzip, (kind, c), hcall, rfl⟩
  refine ⟨origin, destination, _, _, _, ho, hdest, hplan, rfl, ?_, ?_, ?_, ?_⟩
  · cases pre <;> rfl
  · cases post <;> rfl
  · refine segment_timely .preTransfer _ hw hpre fun c hcall ↦ ?_
    obtain ⟨hwide, hlo, hhi⟩ := preCall_window rfl hchecked hcall
    have hmine : (CallKind.preTransfer, c) ∈ dayCalls request (docMap fetched) packing cfg day :=
      mem_dayCalls.mpr (.inr ⟨_, hctx, .inl ⟨rfl, hcall⟩⟩)
    exact ⟨hmem _ _ hmine, hwide, hlo, hhi, (preCall_carries hcall).docs⟩
  · refine segment_timely .postTransfer _ hw hpost fun c hcall ↦ ?_
    obtain ⟨hwide, hlo, hhi⟩ := postCall_window rfl hchecked hcall
    have hmine : (CallKind.postTransfer, c) ∈ dayCalls request (docMap fetched) packing cfg day :=
      mem_dayCalls.mpr (.inr ⟨_, hctx, .inr ⟨rfl, hcall⟩⟩)
    exact ⟨hmem _ _ hmine, hwide, hlo, hhi, (postCall_carries hcall).docs⟩

theorem transition_day_timing_changeover :
    ∃ resp, optimizeTrip gridDistance steadyWorld changeover changeoverDocs = .ok resp ∧
      ∃ origin destination plan pre post,
        (dayAnchors changeover.accommodations dayTwo).start = some origin ∧
        (dayAnchors changeover.accommodations dayTwo).finish = some destination ∧
        resp.days[1]? = some plan ∧ plan.routeSegments = [pre, post] ∧
        pre.kind = .preTransfer ∧ post.kind = .postTransfer ∧
        Timely steadyWorld changeover changeoverDocs (tripCalls gridDistance changeover changeoverDocs) 1
          .preTransfer pre 32400 (min (min 41400 86400) (optionalBound origin.1.checkOutBy 41400)) ∧
        Timely steadyWorld changeover changeoverDocs (tripCalls gridDistance changeover changeoverDocs) 1
          .postTransfer post (max (max 54000 (optionalBound destination.1.checkInFrom 32400)) 32400) 86400 := by
  obtain ⟨resp, _, hr, _⟩ := optimizeTrip_total gridDistance changeoverDocs changeover_valid steadyWorld_answers
  exact ⟨resp, hr, transition_day_timing gridDistance steadyWorld changeover changeoverDocs changeover_valid
    steadyWorld_nonneg resp hr 1 { date := dayTwo, dayEndHour := 24 } rfl
    { date := dayTwo
      departureTime := secondsToTime (11 * 3600 + 30 * 60)
      arrivalTime := secondsToTime (15 * 3600) } (by simp [changeover]) rfl⟩

end TravelPlanner.TransitionTiming
