import TravelPlanner.RouteService

namespace TravelPlanner.RouteAccounting

open Clock Requests Windows Engine TimedRoutes Construction LocalSearch Priorities RouteService

variable {order : SetOrder} {request : OptimizeRequest} {docs : List PlaceDoc} {matrix : DistanceMatrix}

theorem examine_right {id : PlaceId} {c : Candidate} (h : (examine request docs id).getRight? = some c) :
    c.placeId = id ∧ ∃ doc, docMap docs id = some doc ∧ windowOf request doc = some c.window ∧
      c.visitS = doc.visitMin * 60 := by
  unfold examine at h
  split at h
  · simp at h
  · next doc hdoc =>
    split at h
    · split at h
      · simp at h
      · next window hw =>
        obtain rfl : _ = c := by simpa using h
        exact ⟨rfl, doc, hdoc, hw, rfl⟩
    · simp at h

theorem examine_left {id : PlaceId} {s : SkippedPlace} (h : (examine request docs id).getLeft? = some s) :
    s.placeId = id := by
  unfold examine at h
  split at h
  · obtain rfl : _ = s := by simpa using h
    rfl
  · split at h
    · split at h
      · obtain rfl : _ = s := by simpa using h
        rfl
      · simp at h
    · obtain rfl : _ = s := by simpa using h
      rfl

theorem candidateOf_spec {id : PlaceId} {c : Candidate} (h : candidateOf request docs id = some c) :
    c.placeId = id ∧ ∃ doc, docMap docs id = some doc ∧ windowOf request doc = some c.window ∧
      c.visitS = doc.visitMin * 60 := by
  have hid : c.placeId = id := by simpa using List.find?_some h
  obtain ⟨id', _, hc⟩ := List.mem_filterMap.mp (List.mem_of_find?_eq_some h)
  obtain ⟨rfl, hdoc⟩ := examine_right hc
  exact ⟨hid, hid ▸ hdoc⟩

theorem candidateOf_of_mem {id : PlaceId} (h : id ∈ nodeIds request docs) :
    ∃ c, candidateOf request docs id = some c := by
  obtain ⟨c, hc, rfl⟩ := List.mem_map.mp h
  exact Option.isSome_iff_exists.mp (List.find?_isSome.mpr ⟨c, hc, by simp⟩)

theorem mem_of_candidateOf {id : PlaceId} {c : Candidate} (h : candidateOf request docs id = some c) :
    id ∈ nodeIds request docs :=
  List.mem_map.mpr ⟨c, List.mem_of_find?_eq_some h, (candidateOf_spec h).1⟩

/-- Candidates have documents, and document ids are never sentinels. -/
theorem node_ne_sentinel {id : PlaceId} (h : id ∈ nodeIds request docs) :
    id ≠ startAnchorId ∧ id ≠ endAnchorId := by
  obtain ⟨c, hc⟩ := candidateOf_of_mem h
  obtain ⟨_, doc, hdoc, _⟩ := candidateOf_spec hc
  have hlen : id.length = 24 := docMap_id hdoc ▸ doc.id.digits.1
  constructor <;> rintro rfl <;> exact absurd hlen (by decide)

theorem startId_eq {a : PlaceId} (h : a ∈ startId request) : a = startAnchorId := by
  simp only [startId, startAnchor, anchorOf, Option.mem_def, Option.map_eq_some_iff, Option.bind_eq_bind,
    Option.bind_eq_some_iff, Option.pure_def, Option.some.injEq] at h
  obtain ⟨_, ⟨_, _, _, _, rfl⟩, rfl⟩ := h
  rfl

theorem endId_eq {a : PlaceId} (h : a ∈ endId request) : a = endAnchorId := by
  simp only [endId, endAnchor, anchorOf, Option.mem_def, Option.map_eq_some_iff, Option.bind_eq_bind,
    Option.bind_eq_some_iff, Option.pure_def, Option.some.injEq] at h
  obtain ⟨_, ⟨_, _, _, _, rfl⟩, rfl⟩ := h
  rfl

theorem apart : Apart (startId request) (endId request) (nodeIds request docs) where
  start a ha hn := (node_ne_sentinel hn).1 (startId_eq ha)
  finish a ha hn := (node_ne_sentinel hn).2 (endId_eq ha)
  distinct a ha he := absurd ((startId_eq ha).symm.trans (endId_eq he)) (by decide)

theorem node_not_anchor {id : PlaceId} (h : id ∈ nodeIds request docs) : ¬isAnchor request id := by
  rintro (ha | ha)
  · exact apart.finish id ha.symm h
  · exact apart.start id ha.symm h

theorem candidateOf_anchor {a : PlaceId} (h : isAnchor request a) : candidateOf request docs a = none := by
  cases hc : candidateOf request docs a with
  | none => rfl
  | some c => exact absurd h (node_not_anchor (mem_of_candidateOf hc))

theorem anchorFree : AnchorFree (dayProblem request docs matrix) (endId request) := fun a ha ↦ by
  simp [dayProblem, candidateOf_anchor (.inl ha.symm : isAnchor request a)]

theorem visitsNonNeg : VisitsNonNeg (dayProblem request docs matrix) := fun node ↦ by
  simp only [DayProblem.visitS, dayProblem]
  cases hc : candidateOf request docs node with
  | none => simp
  | some c =>
    obtain ⟨_, doc, _, _, hv⟩ := candidateOf_spec hc
    simp only [Option.map_some, Option.getD_some, hv]
    positivity

def stepIds (steps : List RouteStep) : List PlaceId := steps.map RouteStep.placeId

def skippedIds (skipped : List SkippedPlace) : List PlaceId := skipped.map SkippedPlace.placeId

theorem examined_perm (request : OptimizeRequest) (docs : List PlaceDoc) :
    (skippedIds (preSkipped request docs) ++ nodeIds request docs).Perm request.placeIds := by
  unfold skippedIds preSkipped nodeIds candidates
  induction request.placeIds with
  | nil => simp
  | cons id ids ih =>
    simp only [List.filterMap_cons]
    cases he : examine request docs id with
    | inl s =>
      have hs : s.placeId = id := examine_left (by rw [he]; rfl)
      simpa [hs] using ih
    | inr c =>
      have hc : c.placeId = id :=
        (examine_right (by rw [he]; rfl)).1
      simpa [hc] using List.perm_middle.trans (ih.cons id)

structure Final (request : OptimizeRequest) (docs : List PlaceDoc) (matrix : DistanceMatrix) (s : Solved) :
    Prop where
  nodup : s.route.Nodup
  routed : ∀ n ∈ s.route, n ∈ s.candidates ∨ isAnchor request n
  covers : ∀ n ∈ s.candidates, n ∈ s.route ∨ n ∈ s.solverSkipped
  skipped_sub : s.solverSkipped ⊆ s.candidates
  apart : ∀ n ∈ s.solverSkipped, n ∉ s.route
  skipped_nodup : s.candidates.Nodup → s.solverSkipped.Nodup
  candidates : s.candidates.Sublist (nodeIds request docs)
  dropped : s.dropped = (nodeIds request docs).filter (· ∉ s.candidates)
  timed : ∃ visits, Timed (dayProblem request docs matrix) none (dayStartS request) s.route visits
  starts : s.route ≠ [] → ∀ a ∈ startId request, s.route.head? = some a
  ends : s.route ≠ [] → ∀ a ∈ endId request, s.route.getLast? = some a
  feasible : matrix.NonNeg → s.route ≠ [] → isFeasible (dayProblem request docs matrix) s.route = true

theorem finalRoute_final {s : Solved} (h : finalRoute order request docs matrix = some s) :
    Final request docs matrix s := by
  simp only [finalRoute, Option.bind_eq_bind, Option.bind_eq_some_iff, Option.pure_def, Option.some.injEq] at h
  obtain ⟨s₀, hs₀, rfl⟩ := h
  obtain ⟨hat, hcand, hdrop⟩ := solveWithPriorities_solution (anchorFree) apart hs₀
  have hi : Improved (dayProblem request docs matrix) (endId request).isSome s₀.route _ :=
    twoOpt_improved s₀.route 100 (endId request).isSome
  obtain ⟨hnodup, hmem, hnil, hne⟩ := hat.improved hi
  exact {
    nodup := hnodup
    routed := fun n hn ↦ (hat.routed n ((hmem n).mp hn)).imp_right Or.symm
    covers := fun n hn ↦ (hat.covers n hn).imp_left (hmem n).mpr
    skipped_sub := hat.skipped_sub
    apart := fun n hn hr ↦ hat.apart n hn ((hmem n).mp hr)
    skipped_nodup := hat.skipped_nodup
    candidates := hcand
    dropped := hdrop
    timed := by
      by_cases he : twoOpt (dayProblem request docs matrix) s₀.route 100 (endId request).isSome = []
      · exact ⟨[], by rw [he]; exact .nil⟩
      · exact (hne he).2.2.1
    starts := fun he ↦ (hne he).1
    ends := fun he ↦ (hne he).2.1
    feasible := fun hm he ↦ (hne he).2.2.2 hm visitsNonNeg }

theorem finalRoute_total (order : SetOrder) (request : OptimizeRequest) (docs : List PlaceDoc)
    (matrix : DistanceMatrix) : ∃ s, finalRoute order request docs matrix = some s := by
  obtain ⟨s, hs⟩ := solveWithPriorities_total (dayProblem request docs matrix) order (priorities request docs)
    (startId request) (endId request) (nodeIds request docs)
  exact ⟨_, by simp [finalRoute, hs]; rfl⟩

variable {s : Solved} {visits : List Visit}

def routedPlaces (request : OptimizeRequest) (s : Solved) : List PlaceId :=
  s.route.filter (¬isAnchor request ·)

theorem steps_places (h : visits.map Visit.placeId = s.route) :
    stepIds (stepsOf request docs matrix visits) = routedPlaces request s := by
  rw [stepIds, stepsOf, routedPlaces, ← h, List.map_map, List.filter_map]
  rfl

theorem Final.schedule_eq (h : Final request docs matrix s) :
    ∃ visits, scheduleRoute (dayProblem request docs matrix) s.route = visits ∧
      Timed (dayProblem request docs matrix) none (dayStartS request) s.route visits := by
  obtain ⟨visits, ht⟩ := h.timed
  exact ⟨visits, Timed.scheduleRoute_eq ht, ht⟩

theorem solverSkips_places (docs : List PlaceDoc) (matrix : DistanceMatrix) (s : Solved) :
    skippedIds (solverSkips docs matrix s) = s.dropped ++ s.solverSkipped := by
  simp [skippedIds, solverSkips, Function.comp_def]

theorem Final.outcome_iff (h : Final request docs matrix s) (n : PlaceId) :
    n ∈ nodeIds request docs ↔ n ∈ routedPlaces request s ∨ n ∈ s.dropped ++ s.solverSkipped := by
  simp only [routedPlaces, List.mem_filter, h.dropped, List.mem_append, decide_eq_true_eq]
  constructor
  · intro hn
    by_cases hc : n ∈ s.candidates
    · exact (h.covers n hc).elim (fun hr ↦ .inl ⟨hr, node_not_anchor hn⟩) (fun hs ↦ .inr (.inr hs))
    · exact .inr (.inl ⟨hn, hc⟩)
  · rintro (⟨hr, ha⟩ | ⟨hn, _⟩ | hs)
    · exact h.candidates.subset ((h.routed n hr).resolve_right ha)
    · exact hn
    · exact h.candidates.subset (h.skipped_sub hs)

theorem Final.outcome_disjoint (h : Final request docs matrix s) {n : PlaceId}
    (hr : n ∈ routedPlaces request s) : n ∉ s.dropped ++ s.solverSkipped := by
  simp only [routedPlaces, List.mem_filter, decide_eq_true_eq] at hr
  simp only [h.dropped, List.mem_append, List.mem_filter, decide_eq_true_eq]
  rintro (⟨_, hc⟩ | hs)
  · exact hc ((h.routed n hr.1).resolve_right hr.2)
  · exact h.apart n hs hr.1

theorem sum_of_key {l : List Visit} (h : (l.map Visit.placeId).Nodup) (e : Option PlaceId) :
    (l.map fun v ↦ if some v.placeId = e then v.travelS else 0).sum =
      match l.find? (some ·.placeId = e) with
      | some v => v.travelS
      | none => 0 := by
  induction l with
  | nil => rfl
  | cons v l ih =>
    obtain ⟨hv, hl⟩ := List.nodup_cons.mp h
    by_cases he : some v.placeId = e
    · have hrest : ∀ x ∈ l.map (fun w ↦ if some w.placeId = e then w.travelS else 0), x = 0 := by
        intro x hx
        obtain ⟨w, hw, rfl⟩ := List.mem_map.mp hx
        refine if_neg fun hwe ↦ hv (List.mem_map.mpr ⟨w, hw, ?_⟩)
        exact Option.some.inj (hwe.trans he.symm)
      simp [he, List.sum_eq_zero hrest]
    · simpa [he] using ih hl

theorem Final.start_travel (h : Final request docs matrix s)
    (ht : Timed (dayProblem request docs matrix) none (dayStartS request) s.route visits)
    {v : Visit} (hv : v ∈ visits) (hs : some v.placeId = startId request) : v.travelS = 0 := by
  obtain ⟨w, rest, rfl⟩ := List.exists_cons_of_ne_nil (List.ne_nil_of_mem hv)
  have hne : s.route ≠ [] := by simp [← ht.places]
  have hhead : some w.placeId = some v.placeId := by
    simpa [← ht.places] using h.starts hne _ hs.symm
  have hnodup := h.nodup
  rw [← ht.places] at hnodup
  obtain rfl := List.inj_on_of_nodup_map hnodup hv List.mem_cons_self (Option.some.inj hhead).symm
  simpa [DayProblem.travelTo, eq_comm] using (ht.first v (by simp)).1

/-- The end anchor closes the schedule and everything before it is a step or
the start, which costs no travel. -/
theorem Final.travel_sum (h : Final request docs matrix s)
    (ht : Timed (dayProblem request docs matrix) none (dayStartS request) s.route visits) :
    (visits.map Visit.travelS).sum =
      ((stepsOf request docs matrix visits).map RouteStep.travelFromPreviousS).sum +
        travelToEnd request visits := by
  have hnodup : (visits.reverse.map Visit.placeId).Nodup := by
    rw [List.map_reverse, List.nodup_reverse, ht.places]
    exact h.nodup
  have hend : travelToEnd request visits =
      (visits.map fun v ↦ if some v.placeId = endId request then v.travelS else 0).sum := by
    have hsum := sum_of_key hnodup (endId request)
    rw [List.map_reverse, List.sum_reverse] at hsum
    exact hsum.symm
  have hsteps : ((stepsOf request docs matrix visits).map RouteStep.travelFromPreviousS).sum =
      (visits.map fun v ↦ if isAnchor request v.placeId then 0 else v.travelS).sum := by
    rw [stepsOf, List.map_map]
    generalize visits = l
    induction l with
    | nil => rfl
    | cons v l ih => by_cases hv : isAnchor request v.placeId <;> simp [hv, stepOf, ← ih, Function.comp_def]
  rw [hend, hsteps, ← List.sum_map_add]
  refine congrArg List.sum (List.map_congr_left fun v hv ↦ ?_)
  by_cases he : some v.placeId = endId request
  · simp [isAnchor, he]
  · by_cases hs : some v.placeId = startId request
    · simp [isAnchor, hs, h.start_travel ht hv hs]
    · simp [isAnchor, he, hs]

/-- What the answer to a single-day request owes the request. -/
structure Accounts (request : OptimizeRequest) (resp : OptimizeResponse) : Prop where
  covered : ∀ id, id ∈ request.placeIds ↔ id ∈ stepIds resp.steps ∨ id ∈ skippedIds resp.skipped
  exclusive : ∀ id ∈ stepIds resp.steps, id ∉ skippedIds resp.skipped
  once : (stepIds resp.steps).Nodup
  travel : resp.totalTravelTimeS = (resp.steps.map RouteStep.travelFromPreviousS).sum + resp.travelToEndS

theorem preSkipped_not_node {id : PlaceId} (h : id ∈ skippedIds (preSkipped request docs)) :
    id ∉ nodeIds request docs := by
  intro hn
  obtain ⟨s, hs, rfl⟩ := List.mem_map.mp h
  obtain ⟨id, _, hl⟩ := List.mem_filterMap.mp hs
  obtain ⟨c, hc, he⟩ := List.mem_map.mp hn
  obtain ⟨id', _, hr⟩ := List.mem_filterMap.mp hc
  obtain rfl : id' = id := by rw [← (examine_right hr).1, he, examine_left hl]
  cases hx : examine request docs id' <;> simp [hx] at hl hr

theorem response_steps (ht : Timed (dayProblem request docs matrix) none (dayStartS request) s.route visits) :
    stepIds (buildResponse request docs matrix s).steps = routedPlaces request s := by
  simpa only [stepIds, buildResponse, ht.scheduleRoute_eq] using steps_places ht.places

theorem response_skipped : skippedIds (buildResponse request docs matrix s).skipped =
    skippedIds (preSkipped request docs) ++ (s.dropped ++ s.solverSkipped) := by
  simp [buildResponse, skippedIds, ← solverSkips_places docs matrix s]

theorem Final.accounts (h : Final request docs matrix s) :
    Accounts request (buildResponse request docs matrix s) := by
  obtain ⟨visits, hs, ht⟩ := h.schedule_eq
  refine ⟨fun id ↦ ?_, fun id ↦ ?_, ?_, ?_⟩
  · rw [response_steps ht, response_skipped, ← (examined_perm request docs).mem_iff, List.mem_append,
      h.outcome_iff, List.mem_append (s := skippedIds (preSkipped request docs))]
    exact or_left_comm
  · rw [response_steps ht, response_skipped, List.mem_append]
    rintro hr (hp | hs)
    · exact preSkipped_not_node hp ((h.outcome_iff id).mpr (.inl hr))
    · exact h.outcome_disjoint hr hs
  · rw [response_steps ht]
    exact h.nodup.filter _
  · simpa only [buildResponse, hs] using h.travel_sum ht

theorem Final.nodes_perm (h : Final request docs matrix s) (hn : (nodeIds request docs).Nodup) :
    (routedPlaces request s ++ (s.dropped ++ s.solverSkipped)).Perm (nodeIds request docs) := by
  refine (List.perm_ext_iff_of_nodup ?_ hn).mpr fun n ↦ ?_
  · refine (h.nodup.filter _).append (.append ?_ ?_ ?_) fun n hr hs ↦ h.outcome_disjoint hr hs
    · exact h.dropped ▸ hn.filter _
    · exact h.skipped_nodup (h.candidates.nodup hn)
    · intro n hd hs
      rw [h.dropped] at hd
      simpa [h.skipped_sub hs] using (List.mem_filter.mp hd).2
  · rw [List.mem_append, h.outcome_iff]

theorem Final.response_perm (h : Final request docs matrix s) (hn : request.placeIds.Nodup) :
    (stepIds (buildResponse request docs matrix s).steps ++
      skippedIds (buildResponse request docs matrix s).skipped).Perm request.placeIds := by
  obtain ⟨visits, hs, ht⟩ := h.schedule_eq
  have hnodes : (nodeIds request docs).Nodup :=
    ((examined_perm request docs).nodup_iff.mpr hn).of_append_right
  rw [response_steps ht, response_skipped]
  refine .trans ?_ (examined_perm request docs)
  refine .trans ?_ (List.Perm.append_left _ (h.nodes_perm hnodes))
  simp only [← List.append_assoc]
  exact (List.perm_append_comm.append_right _).append_right _

theorem candidates_nil_iff : candidates request docs = [] ↔ nodeIds request docs = [] := by
  rw [nodeIds, List.map_eq_nil_iff]

theorem empty_perm (h : candidates request docs = []) :
    (skippedIds (emptyResponse request docs).skipped).Perm request.placeIds := by
  simpa [candidates_nil_iff.mp h, skippedIds, emptyResponse] using examined_perm request docs

theorem optimizeRoute_cases (order : SetOrder) (now : DateTime) (request : OptimizeRequest)
    (docs : List PlaceDoc) (matrix : DistanceMatrix) :
    (candidates request docs = [] ∧
      optimizeRoute order (fun _ ↦ .ok matrix) now request docs = .ok (emptyResponse request docs)) ∨
    (candidates request docs ≠ [] ∧ ∃ s, finalRoute order request docs matrix = some s ∧
      Final request docs matrix s ∧
      optimizeRoute order (fun _ ↦ .ok matrix) now request docs = .ok (buildResponse request docs matrix s)) := by
  by_cases hc : candidates request docs = []
  · exact .inl ⟨hc, by simp [optimizeRoute, hc]⟩
  · obtain ⟨s, hs⟩ := finalRoute_total order request docs matrix
    exact .inr ⟨hc, s, hs, finalRoute_final hs, by simp [optimizeRoute, hc, hs]⟩

/-- Every requested id has one outcome, the schedule never loses a routed place,
and the travel total adds up. -/
theorem optimizeRoute_accounts (order : SetOrder) (now : DateTime) (request : OptimizeRequest)
    (docs : List PlaceDoc) (matrix : DistanceMatrix) :
    ∃ resp, optimizeRoute order (fun _ ↦ .ok matrix) now request docs = .ok resp ∧ Accounts request resp ∧
      ∀ s, finalRoute order request docs matrix = some s →
        (s.route ≠ [] → scheduleRoute (dayProblem request docs matrix) s.route ≠ []) ∧
        (candidates request docs ≠ [] → stepIds resp.steps = s.route.filter (¬isAnchor request ·)) := by
  have hsched : ∀ s, finalRoute order request docs matrix = some s →
      (s.route ≠ [] → scheduleRoute (dayProblem request docs matrix) s.route ≠ []) := by
    intro s hs hne
    obtain ⟨visits, he, ht⟩ := (finalRoute_final hs).schedule_eq
    rwa [he, Ne, ht.eq_nil]
  rcases optimizeRoute_cases order now request docs matrix with ⟨hc, he⟩ | ⟨_, s, hs, hf, he⟩
  · refine ⟨_, he, ⟨fun id ↦ ?_, by simp [stepIds, emptyResponse], by simp [stepIds, emptyResponse],
      by simp [emptyResponse]⟩, fun s hs ↦ ⟨hsched s hs, absurd hc⟩⟩
    simp [← (empty_perm hc).mem_iff, stepIds, emptyResponse]
  · refine ⟨_, he, hf.accounts, fun s' hs' ↦ ⟨hsched s' hs', fun _ ↦ ?_⟩⟩
    obtain rfl : s = s' := Option.some.inj (hs.symm.trans hs')
    obtain ⟨visits, _, ht⟩ := hf.schedule_eq
    exact response_steps ht

end TravelPlanner.RouteAccounting
