import TravelPlanner.Conservation
import TravelPlanner.Fallible
import TravelPlanner.TripService

namespace TravelPlanner.TripRequests

open Clock Fallible Requests Windows Engine RouteService DayPartition Conservation TripService

variable {request : MultiDayRequest} {docs : PlaceId → Option PlaceDoc} {packing : Packing}

structure Checked (r : MultiDayRequest) : Prop where
  days : r.days ≠ []
  configs : ∀ c ∈ r.days, c.validate = .ok ()
  few : r.places.length ≤ 50
  slots : SlotsInRange r.days.length r.places
  ids : (r.places.map PlaceDayPreference.placeId).Nodup
  start : r.startLat.isNone = r.startLng.isNone
  finish : r.endLat.isNone = r.endLng.isNone
  dates : (r.days.map DayConfig.date).Nodup
  transferDates : (r.transfers.map TransferBlock.date).Nodup
  transition : ∀ t ∈ r.transfers, isTransitionDay (dayAnchors r.accommodations t.date) = true

theorem checked (h : request.Valid) : Checked request := by
  simp only [MultiDayRequest.Valid, MultiDayRequest.validate, then_ok, check_ok, checkAll_ok,
    validateStartLocation, validateEndLocation, validateTransferDay] at h
  obtain ⟨hdays, hconfigs, hplaces, hnonneg, _, _, _, hrange, hids, hstart, hend, _, hdates, htransfers, _,
    htransition, _⟩ := h
  refine ⟨fun he ↦ ?_, hconfigs, hplaces.2, fun p hp s hs ↦ ?_, hids, hstart, hend, hdates, htransfers,
    htransition⟩
  · simp [he] at hdays
  · have hlow := hnonneg p hp s hs
    have hhigh := hrange p hp s hs
    simp only [DaySlot.day]
    omega

structure ConfigChecked (c : DayConfig) : Prop where
  startHour : 0 ≤ c.dayStartHour ∧ c.dayStartHour ≤ 23
  endHour : 1 ≤ c.dayEndHour ∧ c.dayEndHour ≤ 24
  endTime : c.dayEndTime ≠ some midnight
  hour24 : ¬(c.dayEndHour = 24 ∧ c.dayEndTime ≠ none)
  range : resolveDayBoundS c.dayStartHour c.dayStartTime < resolveDayBoundS c.dayEndHour c.dayEndTime
  start : c.startLat.isNone = c.startLng.isNone
  finish : c.endLat.isNone = c.endLng.isNone

theorem config_checked {c : DayConfig} (h : c.validate = .ok ()) : ConfigChecked c := by
  simp only [DayConfig.validate, then_ok, check_ok, validateDayHours, validateDayEndTimeSemantics,
    validateDayRange, validateStartLocation, validateEndLocation] at h
  obtain ⟨⟨hs, he⟩, ⟨ht, h24⟩, hr, hstart, hend⟩ := h
  exact ⟨hs, he, ht, h24, hr, hstart, hend⟩

theorem startBound_nonneg {hour : ℤ} (h : 0 ≤ hour) (t : Option Time) : 0 ≤ resolveDayBoundS hour t := by
  cases t with
  | none => simp only [resolveDayBoundS]; omega
  | some t => exact resolve_some_nonneg hour t

theorem endBound_le {hour : ℤ} (h : hour ≤ 24) (t : Option Time) : resolveDayBoundS hour t ≤ 86400 := by
  cases t with
  | none => simp only [resolveDayBoundS]; omega
  | some t => exact (resolve_some_lt hour t).le

theorem request_valid {r : OptimizeRequest} (hids : r.placeIds ≠ []) (hlen : r.placeIds.length ≤ 50)
    (hs : 0 ≤ r.dayStartHour ∧ r.dayStartHour ≤ 23) (he : 1 ≤ r.dayEndHour ∧ r.dayEndHour ≤ 24)
    (ht : r.dayEndTime ≠ some midnight) (h24 : ¬(r.dayEndHour = 24 ∧ r.dayEndTime ≠ none))
    (hr : resolveDayBoundS r.dayStartHour r.dayStartTime < resolveDayBoundS r.dayEndHour r.dayEndTime)
    (hstart : r.startLat.isNone = r.startLng.isNone) (hend : r.endLat.isNone = r.endLng.isNone) : r.Valid := by
  simp only [OptimizeRequest.Valid, OptimizeRequest.validate, then_ok, check_ok, validateDayHours,
    validateDayEndTimeSemantics, validateDayRange, validateStartLocation, validateEndLocation]
  exact ⟨⟨List.length_pos_iff.mpr hids, hlen⟩, ⟨hs, he⟩, ⟨ht, h24⟩, hr, hstart, hend⟩

theorem anchorCoord_pair {lat lng : Option Coord} {fallbackLat fallbackLng : Option Coord}
    (h : lat.isNone = lng.isNone) (hf : fallbackLat.isNone = fallbackLng.isNone) (stay : Option StayRef) :
    (anchorCoord lat stay AccommodationStay.lat fallbackLat).isNone =
      (anchorCoord lng stay AccommodationStay.lng fallbackLng).isNone := by
  cases lat <;> cases lng <;> cases stay <;> simp_all [anchorCoord]

theorem bucket_length {n day : ℕ} {ids : List PlaceId} (hp : (placed n packing).Perm ids) (hday : day < n) :
    (dayPlaces packing day).length ≤ ids.length := by
  have hmem : (dayPlaces packing day).length ∈ (List.range n).map fun d ↦ (dayPlaces packing d).length :=
    List.mem_map.mpr ⟨day, List.mem_range.mpr hday, rfl⟩
  rw [← hp.length_eq, placed, List.length_append, List.length_flatMap]
  exact (List.single_le_sum (by simp) _ hmem).trans (Nat.le_add_right _ _)

theorem buckets_few {day : ℕ} (hc : Checked request) (hday : day < request.days.length)
    (hp : (placed request.days.length packing).Perm (request.places.map PlaceDayPreference.placeId)) :
    (packing.buckets day).length ≤ 50 ∧ (packing.preBuckets day).length ≤ 50 ∧
      (packing.postBuckets day).length ≤ 50 := by
  have h := (bucket_length hp hday).trans (by simpa using hc.few)
  simp only [dayPlaces, List.length_append] at h
  omega

theorem ordinaryCall_valid {cfg : DayConfig} {day : ℕ} {c : SolverCall} (hc : Checked request)
    (hcfg : ConfigChecked cfg) (hlen : (packing.buckets day).length ≤ 50)
    (h : ordinaryCall request docs packing cfg day = some c) : c.request.Valid := by
  simp only [ordinaryCall, Option.ite_none_right_eq_some] at h
  obtain ⟨hne, h⟩ := h
  obtain rfl := Option.some.inj h
  exact request_valid hne hlen hcfg.startHour hcfg.endHour hcfg.endTime hcfg.hour24 hcfg.range
    (anchorCoord_pair hcfg.start hc.start _) (anchorCoord_pair hcfg.finish hc.finish _)

section Context

variable {transfer : TransferBlock} {origin destination : AccommodationStay} {cfg : DayConfig}
  {ctx : TransitionDayContext}

theorem pre_bounds (hctx : ctx = buildTransitionDayContext transfer origin destination cfg)
    (hcfg : ConfigChecked cfg) (hb : 0 < ctx.preVisitBudgetMin) :
    0 ≤ ctx.preStartS ∧ ctx.preStartS + 60 ≤ ctx.preEndS ∧ ctx.preEndS < 86400 := by
  have hstart := startBound_nonneg hcfg.startHour.1 cfg.dayStartTime
  have hdep := resolve_some_lt 0 transfer.departureTime
  subst hctx
  simp only [buildTransitionDayContext] at hb ⊢
  omega

theorem post_bounds (hctx : ctx = buildTransitionDayContext transfer origin destination cfg)
    (hcfg : ConfigChecked cfg) (hb : 0 < ctx.postVisitBudgetMin) :
    0 ≤ ctx.postStartS ∧ ctx.postStartS + 60 ≤ ctx.postEndS ∧ ctx.postEndS ≤ 86400 := by
  have hend := endBound_le hcfg.endHour.2 cfg.dayEndTime
  have hstart := startBound_nonneg hcfg.startHour.1 cfg.dayStartTime
  subst hctx
  simp only [buildTransitionDayContext] at hb ⊢
  omega

theorem preCall_valid {day : ℕ} {c : SolverCall}
    (hctx : ctx = buildTransitionDayContext transfer origin destination cfg) (hcfg : ConfigChecked cfg)
    (hlen : (packing.preBuckets day).length ≤ 50)
    (h : preCall request docs packing cfg day ctx = some c) : c.request.Valid := by
  unfold preCall at h
  split_ifs at h with hne
  obtain ⟨h₀, hwide, hmax⟩ := pre_bounds hctx hcfg hne.2
  obtain rfl := Option.some.inj h
  have hfields : resolveSegmentEndBoundFields ctx.preEndS = (23, some (secondsToTime ctx.preEndS)) :=
    if_neg (by omega)
  refine request_valid hne.1 hlen hcfg.startHour ?_ ?_ ?_ ?_ rfl rfl
  · simp [hfields]
  · simpa [hfields] using secondsToTime_ne_midnight ctx.preEndS (by omega) hmax
  · simp [hfields]
  · have hs : ctx.preStartS = resolveDayBoundS cfg.dayStartHour cfg.dayStartTime := by rw [hctx]; rfl
    simp only [hfields, resolve_secondsToTime 23 ctx.preEndS (by omega) hmax]
    omega

theorem postCall_valid {day : ℕ} {c : SolverCall}
    (hctx : ctx = buildTransitionDayContext transfer origin destination cfg) (hcfg : ConfigChecked cfg)
    (hlen : (packing.postBuckets day).length ≤ 50)
    (h : postCall request docs packing cfg day ctx = some c) : c.request.Valid := by
  unfold postCall at h
  split_ifs at h with hne
  obtain ⟨h₀, hwide, hmax⟩ := post_bounds hctx hcfg hne.2
  obtain rfl := Option.some.inj h
  refine request_valid hne.1 hlen hcfg.startHour hcfg.endHour hcfg.endTime hcfg.hour24 ?_ rfl rfl
  have he : ctx.postEndS = resolveDayBoundS cfg.dayEndHour cfg.dayEndTime := by rw [hctx]; rfl
  simp only [resolve_secondsToTime cfg.dayStartHour ctx.postStartS h₀ (by omega)]
  omega

end Context

theorem transferContexts_spec {day : ℕ} {ctx : TransitionDayContext} (h : transferContexts request day = some ctx) :
    ∃ cfg transfer origin destination, request.days[day]? = some cfg ∧
      resolveDayTransfer request.transfers cfg.date = some transfer ∧
      (dayAnchors request.accommodations cfg.date).start = some origin ∧
      (dayAnchors request.accommodations cfg.date).finish = some destination ∧
      ctx = buildTransitionDayContext transfer origin.1 destination.1 cfg := by
  obtain ⟨cfg, hcfg, h⟩ := Option.bind_eq_some_iff.mp h
  unfold dayContext at h
  dsimp only at h
  split at h
  · next transfer origin destination ht ho hd =>
    split_ifs at h
    exact ⟨cfg, transfer, origin, destination, hcfg, ht, ho, hd, (Option.some.inj h).symm⟩
  · cases h

theorem mem_dayCalls {cfg : DayConfig} {day : ℕ} {call : CallKind × SolverCall} :
    call ∈ dayCalls request docs packing cfg day ↔
      transferContexts request day = none ∧ call.1 = .ordinary ∧
        ordinaryCall request docs packing cfg day = some call.2 ∨
      ∃ ctx, transferContexts request day = some ctx ∧
        (call.1 = .preTransfer ∧ preCall request docs packing cfg day ctx = some call.2 ∨
          call.1 = .postTransfer ∧ postCall request docs packing cfg day ctx = some call.2) := by
  obtain ⟨kind, c⟩ := call
  unfold dayCalls
  cases transferContexts request day with
  | none => simp [eq_comm, and_comm]
  | some ctx => simp [eq_comm, and_comm]

theorem dayCalls_valid {x : DayConfig × ℕ} {call : CallKind × SolverCall} (hc : Checked request)
    (hx : x ∈ request.days.zipIdx)
    (hp : (placed request.days.length packing).Perm (request.places.map PlaceDayPreference.placeId))
    (h : call ∈ dayCalls request docs packing x.1 x.2) : call.2.request.Valid := by
  obtain ⟨cfg, day⟩ := x
  have hget := List.mem_zipIdx_iff_getElem?.mp hx
  have hday : day < request.days.length := (List.getElem?_eq_some_iff.mp hget).1
  have hcfg := config_checked (hc.configs cfg (List.mem_of_getElem? hget))
  obtain ⟨hlen, hpre, hpost⟩ := buckets_few hc hday hp
  rcases mem_dayCalls.mp h with ⟨_, _, hcall⟩ | ⟨ctx, hctx, hcalls⟩
  · exact ordinaryCall_valid hc hcfg hlen hcall
  · obtain ⟨cfg', transfer, origin, destination, hget', _, _, _, hbuild⟩ := transferContexts_spec hctx
    obtain rfl : cfg = cfg' := Option.some.inj (hget.symm.trans hget')
    rcases hcalls with ⟨_, hcall⟩ | ⟨_, hcall⟩
    · exact preCall_valid hbuild hcfg hpre hcall
    · exact postCall_valid hbuild hcfg hpost hcall

theorem partition_conserves (km : Haversine) (docs : List PlaceDoc) (hc : Checked request) :
    ∃ packing, partition km request docs = some packing ∧ Separated (transferContexts request) packing ∧
      (placed request.days.length packing).Perm (request.places.map PlaceDayPreference.placeId) :=
  partitionPlaces_conserves km (transferContexts request) (docMap docs) hc.days hc.slots

theorem optimizeRoute_ne_validation (order : SetOrder) (getMatrix : GetMatrix) (now : DateTime)
    (r : OptimizeRequest) (docs : List PlaceDoc) (e : ValidationError) :
    optimizeRoute order getMatrix now r docs ≠ .error (.validation e) := by
  unfold optimizeRoute
  split_ifs
  · simp
  · split
    · simp
    · split <;> simp

theorem runCall_eq {w : World} {day : ℕ} {kind : CallKind} {c : SolverCall} (h : c.request.Valid) :
    runCall w day kind c = optimizeRoute w.order (w.getMatrix day kind) (w.now day kind) c.request c.docs := by
  simp only [runCall, show c.request.validate = .ok () from h]

theorem runOptional_ne_validation (w : World) (day : ℕ) (kind : CallKind) {c : Option SolverCall}
    (h : ∀ call ∈ c, call.request.Valid) (e : ValidationError) :
    runOptional w day kind c ≠ .error (.validation e) := by
  cases c with
  | none => simp [runOptional]
  | some c =>
    have hne := optimizeRoute_ne_validation w.order (w.getMatrix day kind) (w.now day kind) c.request c.docs e
    rw [← runCall_eq (h c rfl) (w := w)] at hne
    exact map_ne_error hne

theorem planDay_ne_validation {w : World} {x : DayConfig × ℕ}
    (h : ∀ call ∈ dayCalls request docs packing x.1 x.2, call.2.request.Valid) (e : ValidationError) :
    planDay request docs packing w x.1 x.2 ≠ .error (.validation e) := by
  unfold planDay
  cases hctx : transferContexts request x.2 with
  | none =>
    have hrun := runOptional_ne_validation w x.2 .ordinary (c := ordinaryCall request docs packing x.1 x.2)
      (fun c hc ↦ h (.ordinary, c) (mem_dayCalls.mpr (.inl ⟨hctx, rfl, hc⟩))) e
    exact map_ne_error hrun
  | some ctx =>
    have hpre := runOptional_ne_validation w x.2 .preTransfer (c := preCall request docs packing x.1 x.2 ctx)
      (fun c hc ↦ h (.preTransfer, c) (mem_dayCalls.mpr (.inr ⟨ctx, hctx, .inl ⟨rfl, hc⟩⟩))) e
    have hpost := runOptional_ne_validation w x.2 .postTransfer (c := postCall request docs packing x.1 x.2 ctx)
      (fun c hc ↦ h (.postTransfer, c) (mem_dayCalls.mpr (.inr ⟨ctx, hctx, .inr ⟨rfl, hc⟩⟩))) e
    exact bind_ne_error hpre fun _ ↦ bind_ne_error hpost fun _ ↦ pure_ne_error _ _

theorem planDays_ne_validation {w : World} (l : List (DayConfig × ℕ))
    (h : ∀ x ∈ l, ∀ call ∈ dayCalls request docs packing x.1 x.2, call.2.request.Valid) (e : ValidationError) :
    planDays request docs packing w l ≠ .error (.validation e) := by
  induction l with
  | nil => simp [planDays]
  | cons x l ih =>
    have hx := planDay_ne_validation (w := w) (h x List.mem_cons_self) e
    have hl := ih (fun y hy ↦ h y (List.mem_cons_of_mem _ hy))
    exact bind_ne_error hx fun _ ↦ bind_ne_error hl fun _ ↦ pure_ne_error _ _

/-- Every request built for the solver is valid, and no trip fails for one that is not. -/
theorem internal_requests_valid (km : Haversine) (w : World) (request : MultiDayRequest) (docs : List PlaceDoc)
    (h : request.Valid) :
    (∀ call ∈ tripCalls km request docs, call.2.2.request.Valid) ∧
      ∀ e, optimizeTrip km w request docs ≠ .error (.validation e) := by
  have hc := checked h
  obtain ⟨packing, hpart, _, hp⟩ := partition_conserves km docs hc
  have hall : ∀ x ∈ request.days.zipIdx, ∀ call ∈ dayCalls request (docMap docs) packing x.1 x.2,
      call.2.request.Valid := fun x hx call hcall ↦ dayCalls_valid hc hx hp hcall
  constructor
  · intro call hcall
    simp only [tripCalls, hpart, List.mem_flatMap, List.mem_map] at hcall
    obtain ⟨x, hx, c, hcall, rfl⟩ := hcall
    exact hall x hx c hcall
  · intro e
    have hne := planDays_ne_validation (w := w) request.days.zipIdx hall e
    simp only [optimizeTrip, hpart]
    exact bind_ne_error hne fun _ ↦ pure_ne_error _ _

def dayOne : Date := ⟨2026, 6, 1, by decide, by decide, by decide⟩

def dayTwo : Date := ⟨2026, 6, 2, by decide, by decide, by decide⟩

def dayThree : Date := ⟨2026, 6, 3, by decide, by decide, by decide⟩

def changeover : MultiDayRequest where
  days := [{ date := dayOne }, { date := dayTwo, dayEndHour := 24 }]
  places := [⟨"65f0c0ffee0000000000000a", [⟨1, none, none⟩]⟩, ⟨"65f0c0ffee0000000000000b", []⟩]
  accommodations :=
    [{ name := "North", lat := 50, lng := 10, checkInDate := dayOne, checkOutDate := dayTwo
       checkOutBy := some (secondsToTime (10 * 3600)) },
     { name := "South", lat := 40, lng := 10, checkInDate := dayTwo, checkOutDate := dayThree }]
  transfers :=
    [{ date := dayTwo
       departureTime := secondsToTime (11 * 3600 + 30 * 60)
       arrivalTime := secondsToTime (15 * 3600) }]

theorem changeover_valid : changeover.Valid := by decide +kernel

def changeoverDocs : List PlaceDoc :=
  [{ id := ⟨"65f0c0ffee0000000000000a", by decide +kernel⟩, lat := some 50, lng := some 11 },
   { id := ⟨"65f0c0ffee0000000000000b", by decide +kernel⟩, lat := some 40, lng := some 11
     visitDurationMin := some 45 }]

def gridDistance : Haversine := fun lat lng lat' lng' ↦ |lat - lat'| + |lng - lng'|

def steadyMatrix : DistanceMatrix := ⟨fun leg ↦ some ⟨leg.1, leg.2, 5000, 600⟩⟩

def steadyWorld : World where
  order := .insertion
  getMatrix := fun _ _ _ ↦ .ok steadyMatrix
  now := fun _ _ ↦ ⟨dayOne, midnight⟩

theorem internal_requests_valid_changeover :
    (∀ call ∈ tripCalls gridDistance changeover changeoverDocs, call.2.2.request.Valid) ∧
      ∀ e, optimizeTrip gridDistance steadyWorld changeover changeoverDocs ≠ .error (.validation e) :=
  internal_requests_valid gridDistance steadyWorld changeover changeoverDocs changeover_valid

end TravelPlanner.TripRequests
