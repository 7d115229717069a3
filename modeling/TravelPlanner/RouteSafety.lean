import TravelPlanner.RouteAccounting

namespace TravelPlanner.RouteSafety

open Clock Requests Windows Engine TimedRoutes Construction Priorities RouteService RouteAccounting

/-- A schedule the traveller can follow: the anchors frame it, every leg exists,
every visit fits one segment of its window, and all of it lies within the day. -/
structure Executable (request : OptimizeRequest) (docOf : PlaceId → Option PlaceDoc) (matrix : DistanceMatrix)
    (visits : List Visit) : Prop where
  starts : ∀ a ∈ startId request, (visits.map Visit.placeId).head? = some a
  ends : ∀ a ∈ endId request, (visits.map Visit.placeId).getLast? = some a
  legs : visits.IsChain fun v w ↦ ∃ leg, matrix.get v.placeId w.placeId = some leg ∧
    w.travelS = leg.durationS ∧ w.arrivalS = v.departureS + leg.durationS
  windows : ∀ v ∈ visits, ¬isAnchor request v.placeId → ∃ doc window, docOf v.placeId = some doc ∧
    windowOf request doc = some window ∧ ∃ s ∈ window.segments,
      max s.1 v.arrivalS ≤ v.departureS - doc.visitMin * 60 ∧ v.departureS ≤ s.2
  begins : ∀ v ∈ visits, dayStartS request ≤ v.arrivalS
  finishes : ∀ v ∈ visits, v.departureS ≤ dayEndS request
  returns : ∀ v ∈ visits, ¬isAnchor request v.placeId →
    v.departureS + travelToEnd request visits ≤ dayEndS request

variable {request : OptimizeRequest} {docs : List PlaceDoc} {matrix : DistanceMatrix}

theorem served_window {v : Visit} (h : Served (dayProblem request docs matrix) v)
    (hv : v.placeId ∈ nodeIds request docs) : ∃ doc window, docMap docs v.placeId = some doc ∧
      windowOf request doc = some window ∧ ∃ s ∈ window.segments,
        max s.1 v.arrivalS ≤ v.departureS - doc.visitMin * 60 ∧ v.departureS ≤ s.2 := by
  obtain ⟨c, hc⟩ := candidateOf_of_mem hv
  obtain ⟨_, doc, hdoc, hw, hvisit⟩ := candidateOf_spec hc
  obtain ⟨startS, hs, hd⟩ := h
  simp only [DayProblem.serviceStart, DayProblem.visitS, dayProblem, hc, Option.map_some, Option.getD_some] at hs hd
  obtain ⟨harr, s, hmem, hopen, hclose⟩ := earliestStart_spec hs
  refine ⟨doc, c.window, hdoc, hw, s, hmem, max_le ?_ ?_, ?_⟩ <;> omega

theorem mem_dropLast_or_last {α : Type} {l : List α} {a last : α} (ha : a ∈ l) (hlast : l.getLast? = some last) :
    a ∈ l.dropLast ∨ a = last := by
  obtain ⟨init, rfl⟩ := List.getLast?_eq_some_iff.mp hlast
  simpa using ha

theorem travelToEnd_of_last {visits : List Visit} {last : Visit} (hlast : visits.getLast? = some last)
    (he : some last.placeId = endId request) : travelToEnd request visits = last.travelS := by
  obtain ⟨init, rfl⟩ := List.getLast?_eq_some_iff.mp hlast
  simp [travelToEnd, he]

theorem travelToEnd_of_none {visits : List Visit} (he : endId request = none) : travelToEnd request visits = 0 := by
  have hnone : visits.reverse.find? (some ·.placeId = endId request) = none :=
    List.find?_eq_none.mpr fun v _ ↦ by simp [he]
  rw [travelToEnd, hnone]

theorem final_executable {s : Solved} (h : Final request docs matrix s) (hm : matrix.NonNeg) (hne : s.route ≠ []) :
    ∃ visits, scheduleRoute (dayProblem request docs matrix) s.route = visits ∧
      Timed (dayProblem request docs matrix) none (dayStartS request) s.route visits ∧
      Executable request (docMap docs) matrix visits := by
  obtain ⟨visits, last, ht, hlast, hend⟩ := isFeasible_iff.mp (h.feasible hm hne)
  refine ⟨visits, ht.scheduleRoute_eq, ht, fun a ha ↦ ?_, fun a ha ↦ ?_, ht.legs, fun v hv hanchor ↦ ?_,
    ht.after_start hm visitsNonNeg, fun v hv ↦ ?_, fun v hv hanchor ↦ ?_⟩
  · rw [ht.places]; exact h.starts hne a ha
  · rw [ht.places]; exact h.ends hne a ha
  · have hroute : v.placeId ∈ s.route := ht.places ▸ List.mem_map_of_mem hv
    exact served_window (ht.served v hv) (h.candidates.subset ((h.routed _ hroute).resolve_right hanchor))
  · exact (ht.departure_le_last hm visitsNonNeg hlast v hv).trans hend
  · have hall : v.departureS ≤ dayEndS request := (ht.departure_le_last hm visitsNonNeg hlast v hv).trans hend
    cases he : endId request with
    | none => rw [travelToEnd_of_none he]; omega
    | some a =>
      have hplace : some last.placeId = endId request := by
        rw [← ht.getLast_place hlast, h.ends hne a (by simp [he]), he]
      have hmem : v ∈ visits.dropLast := by
        refine (mem_dropLast_or_last hv hlast).resolve_right ?_
        rintro rfl
        exact hanchor (.inl hplace)
      have hleg := ht.departure_add_last hm visitsNonNeg hlast v hmem
      have hserved := (ht.served last (List.mem_of_getLast? hlast)).arrival_le visitsNonNeg
      have hend' : last.departureS ≤ dayEndS request := hend
      rw [travelToEnd_of_last hlast hplace]
      omega

def scheduleOf (order : SetOrder) (request : OptimizeRequest) (docs : List PlaceDoc) (matrix : DistanceMatrix) :
    List Visit :=
  if candidates request docs = [] then []
  else
    match finalRoute order request docs matrix with
    | none => []
    | some s => scheduleRoute (dayProblem request docs matrix) s.route

structure Answer (order : SetOrder) (request : OptimizeRequest) (docs : List PlaceDoc) (matrix : DistanceMatrix)
    (resp : OptimizeResponse) : Prop where
  steps : resp.steps = stepsOf request docs matrix (scheduleOf order request docs matrix)
  toEnd : resp.travelToEndS = travelToEnd request (scheduleOf order request docs matrix)
  outcomes : request.placeIds.Nodup → (stepIds resp.steps ++ skippedIds resp.skipped).Perm request.placeIds
  executable : matrix.NonNeg → scheduleOf order request docs matrix ≠ [] →
    Executable request (docMap docs) matrix (scheduleOf order request docs matrix)

theorem optimizeRoute_answer (order : SetOrder) (now : DateTime) (request : OptimizeRequest) (docs : List PlaceDoc)
    (matrix : DistanceMatrix) :
    ∃ resp, optimizeRoute order (fun _ ↦ .ok matrix) now request docs = .ok resp ∧
      Answer order request docs matrix resp := by
  rcases optimizeRoute_cases order now request docs matrix with ⟨hc, he⟩ | ⟨hc, s, hs, hf, he⟩
  · have hnil : scheduleOf order request docs matrix = [] := if_pos hc
    refine ⟨_, he, ?_, ?_, fun _ ↦ ?_, fun _ hne ↦ absurd hnil hne⟩
    · simp [hnil, emptyResponse, stepsOf]
    · simp [hnil, emptyResponse, travelToEnd]
    · simpa [stepIds, emptyResponse] using empty_perm hc
  · have hsched : scheduleOf order request docs matrix =
        scheduleRoute (dayProblem request docs matrix) s.route := by
      simp [scheduleOf, hc, hs]
    refine ⟨_, he, by rw [hsched]; rfl, by rw [hsched]; rfl, fun hn ↦ hf.response_perm hn, fun hm hne ↦ ?_⟩
    have hroute : s.route ≠ [] := fun h ↦ hne (by rw [hsched, h]; rfl)
    obtain ⟨visits, hv, _, hex⟩ := final_executable hf hm hroute
    rwa [hsched, hv]

theorem optimizeRoute_query {order : SetOrder} {getMatrix : GetMatrix} {now : DateTime} {matrix : DistanceMatrix}
    (h : candidates request docs ≠ [] → getMatrix (matrixQuery request docs now) = .ok matrix) :
    optimizeRoute order getMatrix now request docs =
      optimizeRoute order (fun _ ↦ .ok matrix) now request docs := by
  unfold optimizeRoute
  split_ifs with hc
  · rfl
  · rw [h hc]

end TravelPlanner.RouteSafety
