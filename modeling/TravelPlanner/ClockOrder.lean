import TravelPlanner.TripSafety

namespace TravelPlanner.ClockOrder

open Clock Requests Windows Engine TimedRoutes Construction Priorities RouteService RouteAccounting RouteSafety
  TripRequests TripSafety

section Frames

variable {α β : Type} [DecidableEq β] {f : α → β}

theorem filter_after_first {l : List α} (hnodup : (l.map f).Nodup) {x : Option β}
    (hx : l ≠ [] → ∀ a ∈ x, (l.map f).head? = some a) : l.filter (fun v ↦ some (f v) ≠ x) <:+ l := by
  cases x with
  | none => simp
  | some a =>
    cases l with
    | nil => simp
    | cons v l =>
      have hv : f v = a := by simpa using hx (by simp) a rfl
      have hrest : ∀ w ∈ l, some (f w) ≠ some a := by
        intro w hw he
        obtain ⟨hnew, _⟩ := List.nodup_cons.mp hnodup
        rw [hv, ← Option.some.inj he] at hnew
        exact hnew (List.mem_map_of_mem hw)
      have htail : (v :: l).filter (fun w ↦ some (f w) ≠ some a) = l := by
        rw [List.filter_cons_of_neg (by simp [hv])]
        exact List.filter_eq_self.mpr fun w hw ↦ by simpa using hrest w hw
      rw [htail]
      exact List.suffix_cons v l

theorem filter_before_last {l : List α} (hnodup : (l.map f).Nodup) {x : Option β}
    (hx : l ≠ [] → ∀ a ∈ x, (l.map f).getLast? = some a) : l.filter (fun v ↦ some (f v) ≠ x) <+: l := by
  rw [← List.reverse_suffix, ← List.filter_reverse]
  refine filter_after_first (by rwa [List.map_reverse, List.nodup_reverse]) fun hne a ha ↦ ?_
  rw [List.map_reverse, List.head?_reverse]
  exact hx (by simpa using hne) a ha

theorem getLast_of_suffix {l l' : List α} (h : l' <:+ l) (hne : l' ≠ []) : l'.getLast? = l.getLast? := by
  obtain ⟨init, rfl⟩ := h
  rw [List.getLast?_append, List.getLast?_eq_some_getLast hne]
  rfl

theorem filter_between {l : List α} (hnodup : (l.map f).Nodup) {first last : Option β}
    (hfirst : l ≠ [] → ∀ a ∈ first, (l.map f).head? = some a)
    (hlast : l ≠ [] → ∀ a ∈ last, (l.map f).getLast? = some a) :
    l.filter (fun v ↦ some (f v) ≠ last ∧ some (f v) ≠ first) <:+: l := by
  have hsuffix := filter_after_first hnodup hfirst
  have hpre : (l.filter fun v ↦ some (f v) ≠ first).filter (fun v ↦ some (f v) ≠ last) <+:
      l.filter fun v ↦ some (f v) ≠ first := by
    refine filter_before_last ((hsuffix.sublist.map f).nodup hnodup) fun hne a ha ↦ ?_
    have hl : l ≠ [] := fun he ↦ hne (by simp [he])
    rw [List.getLast?_map, getLast_of_suffix hsuffix hne, ← List.getLast?_map]
    exact hlast hl a ha
  rw [List.filter_filter] at hpre
  have hboth : (l.filter fun v ↦ some (f v) ≠ last ∧ some (f v) ≠ first) =
      l.filter fun v ↦ decide (some (f v) ≠ last) && decide (some (f v) ≠ first) :=
    List.filter_congr fun v _ ↦ Bool.decide_and _ _
  rw [hboth]
  exact hpre.isInfix.trans hsuffix.isInfix

end Frames

def clockS (t : Time) : ℤ := t.hour.val * 3600 + t.minute.val * 60 + t.second.val

/-- The clock times of a plan follow its day: a stop lasts its waiting, shown in
whole minutes, and its visit, and the next one is a leg away. -/
structure Ordered (steps : List RouteStep) : Prop where
  stays : ∀ step ∈ steps, clockS step.arrivalTime ≤ clockS step.departureTime ∧
    ∃ waitS, 0 ≤ waitS ∧ step.waitMin = waitS / 60 ∧
      clockS step.departureTime - clockS step.arrivalTime = waitS + step.visitDurationMin * 60
  legs : steps.IsChain fun a b ↦ clockS a.departureTime ≤ clockS b.arrivalTime ∧
    clockS b.arrivalTime - clockS a.departureTime = b.travelFromPreviousS

theorem clockS_secondsToTime {s : ℤ} (h₀ : 0 ≤ s) (h₁ : s < 86400) : clockS (secondsToTime s) = s :=
  resolve_secondsToTime 0 s h₀ h₁

variable {order : SetOrder} {request : OptimizeRequest} {docs : List PlaceDoc} {matrix : DistanceMatrix}

/-- A visit of a place within the day: it takes whole minutes, one at least. -/
structure Kept (request : OptimizeRequest) (docs : List PlaceDoc) (matrix : DistanceMatrix) (v : Visit) : Prop where
  begins : 0 ≤ v.arrivalS
  finishes : v.departureS ≤ 86400
  minutes : ∃ m : ℤ, 0 < m ∧ (dayProblem request docs matrix).visitS v.placeId = m * 60
  waits : v.arrivalS + (dayProblem request docs matrix).visitS v.placeId ≤ v.departureS

theorem Kept.arrival_lt {v : Visit} (h : Kept request docs matrix v) : v.arrivalS < v.departureS := by
  obtain ⟨m, hm, hvisit⟩ := h.minutes
  have hwaits := h.waits
  omega

/-- A stop is shown as it is kept unless it ends at midnight, which the clock
shows as the start of the day. -/
theorem Kept.stay_iff {v : Visit} (h : Kept request docs matrix v) :
    (clockS (stepOf request docs matrix v).arrivalTime ≤ clockS (stepOf request docs matrix v).departureTime ∧
      ∃ waitS, 0 ≤ waitS ∧ (stepOf request docs matrix v).waitMin = waitS / 60 ∧
        clockS (stepOf request docs matrix v).departureTime - clockS (stepOf request docs matrix v).arrivalTime =
          waitS + (stepOf request docs matrix v).visitDurationMin * 60) ↔ v.departureS ≠ 86400 := by
  obtain ⟨m, hm, hvisit⟩ := h.minutes
  have hbegins := h.begins
  have hfinishes := h.finishes
  have hwaits := h.waits
  have harrival : clockS (secondsToTime v.arrivalS) = v.arrivalS :=
    clockS_secondsToTime hbegins (h.arrival_lt.trans_le hfinishes)
  have hminutes : m * 60 / 60 = m := Int.mul_ediv_cancel m (by decide)
  simp only [stepOf, harrival, hvisit, hminutes] at hwaits ⊢
  constructor
  · rintro ⟨_, waitS, hwait, _, hstay⟩ hmidnight
    have hzero : clockS (secondsToTime v.departureS) = 0 := by
      rw [hmidnight]
      rfl
    omega
  · intro hday
    rw [clockS_secondsToTime (by omega) (by omega)]
    refine ⟨by omega, v.departureS - m * 60 - v.arrivalS, by omega, ?_, by omega⟩
    rw [max_eq_right (by omega)]

/-- Between two stops the clock never passes midnight. -/
theorem Kept.leg {v w : Visit} (hm : matrix.NonNeg) (hv : Kept request docs matrix v)
    (hw : Kept request docs matrix w) (h : Follows (dayProblem request docs matrix) v w) :
    clockS (stepOf request docs matrix v).departureTime ≤ clockS (stepOf request docs matrix w).arrivalTime ∧
      clockS (stepOf request docs matrix w).arrivalTime - clockS (stepOf request docs matrix v).departureTime =
        (stepOf request docs matrix w).travelFromPreviousS := by
  obtain ⟨leg, hleg, htravel, harrival⟩ := h
  have hnonneg := hm _ _ _ hleg
  have hbegins := hv.begins
  have hvisit := hv.arrival_lt
  have hlast := hw.arrival_lt.trans_le hw.finishes
  simp only [stepOf]
  rw [clockS_secondsToTime (by omega) (by omega), clockS_secondsToTime (by omega) (by omega)]
  omega

theorem visitMin_pos (doc : PlaceDoc) : 0 < doc.visitMin := by
  unfold PlaceDoc.visitMin
  split
  · decide
  · decide
  · next n hne _ => exact Nat.pos_of_ne_zero fun he ↦ hne (by rw [he])

theorem day_bounds (h : request.Valid) : 0 ≤ dayStartS request ∧ dayEndS request ≤ 86400 := by
  simp only [OptimizeRequest.Valid, OptimizeRequest.validate, then_ok, check_ok, validateDayHours] at h
  obtain ⟨_, ⟨hstart, hend⟩, _⟩ := h
  exact ⟨startBound_nonneg hstart.1 _, endBound_le hend.2 _⟩

theorem kept_of_place (hvalid : request.Valid) {s : Solved} (hfinal : Final request docs matrix s)
    {visits : List Visit} (ht : Timed (dayProblem request docs matrix) none (dayStartS request) s.route visits)
    (hexec : Executable request (docMap docs) matrix visits) {v : Visit} (hv : v ∈ visits)
    (hplace : ¬isAnchor request v.placeId) : Kept request docs matrix v := by
  obtain ⟨hstart, hend⟩ := day_bounds hvalid
  have hroute : v.placeId ∈ s.route := ht.places ▸ List.mem_map_of_mem hv
  have hnode := hfinal.candidates.subset ((hfinal.routed _ hroute).resolve_right hplace)
  obtain ⟨c, hc⟩ := candidateOf_of_mem hnode
  obtain ⟨_, doc, _, _, hvisit⟩ := candidateOf_spec hc
  have hminutes : (dayProblem request docs matrix).visitS v.placeId = doc.visitMin * 60 := by
    simp [DayProblem.visitS, dayProblem, hc, hvisit]
  obtain ⟨startS, hservice, hdeparture⟩ := ht.served v hv
  have hwait := serviceStart_ge hservice
  exact ⟨hstart.trans (hexec.begins v hv), (hexec.finishes v hv).trans hend,
    ⟨doc.visitMin, by exact_mod_cast visitMin_pos doc, hminutes⟩, by omega⟩

theorem places_consecutive {s : Solved} (hfinal : Final request docs matrix s) {visits : List Visit}
    (ht : Timed (dayProblem request docs matrix) none (dayStartS request) s.route visits) :
    visits.filter (¬isAnchor request ·.placeId) <:+: visits := by
  have hroute : visits ≠ [] → s.route ≠ [] := fun hne he ↦ hne (ht.eq_nil.mpr he)
  have hstretch : visits.filter (fun v ↦ some v.placeId ≠ endId request ∧ some v.placeId ≠ startId request) <:+:
      visits := by
    refine filter_between (by rw [ht.places]; exact hfinal.nodup) ?_ ?_
    · intro hne
      rw [ht.places]
      exact hfinal.starts (hroute hne)
    · intro hne
      rw [ht.places]
      exact hfinal.ends (hroute hne)
  have hfilter : visits.filter (¬isAnchor request ·.placeId) =
      visits.filter (fun v ↦ some v.placeId ≠ endId request ∧ some v.placeId ≠ startId request) :=
    List.filter_congr fun v _ ↦ by simp [isAnchor]
  rwa [hfilter]

theorem ordered_iff (hvalid : request.Valid) (hm : matrix.NonNeg) {s : Solved}
    (hfinal : Final request docs matrix s) {visits : List Visit}
    (ht : Timed (dayProblem request docs matrix) none (dayStartS request) s.route visits)
    (hexec : Executable request (docMap docs) matrix visits) :
    Ordered (stepsOf request docs matrix visits) ↔
      ∀ v ∈ visits, ¬isAnchor request v.placeId → v.departureS ≠ 86400 := by
  have hkept : ∀ v ∈ visits.filter (¬isAnchor request ·.placeId), Kept request docs matrix v := by
    intro v hv
    obtain ⟨hmem, hplace⟩ := List.mem_filter.mp hv
    exact kept_of_place hvalid hfinal ht hexec hmem (by simpa using hplace)
  constructor
  · intro hordered v hv hplace
    have hmem : v ∈ visits.filter (¬isAnchor request ·.placeId) := List.mem_filter.mpr ⟨hv, by simpa using hplace⟩
    exact (hkept v hmem).stay_iff.mp (hordered.stays _ (List.mem_map_of_mem hmem))
  · intro hday
    refine ⟨?_, ?_⟩
    · intro step hstep
      obtain ⟨v, hv, rfl⟩ := List.mem_map.mp hstep
      obtain ⟨hmem, hplace⟩ := List.mem_filter.mp hv
      exact (hkept v hv).stay_iff.mpr (hday v hmem (by simpa using hplace))
    · rw [stepsOf, List.isChain_map]
      have hlegs := List.IsChain.infix ht.legs (places_consecutive hfinal ht)
      refine hlegs.imp_of_mem_imp ?_
      intro v w hv hw hfollows
      exact Kept.leg hm (hkept v hv) (hkept w hw) hfollows

theorem scheduleOf_timed (hne : scheduleOf order request docs matrix ≠ []) : ∃ s, Final request docs matrix s ∧
    Timed (dayProblem request docs matrix) none (dayStartS request) s.route (scheduleOf order request docs matrix) := by
  obtain ⟨s, hs⟩ := finalRoute_total order request docs matrix
  have hfinal := finalRoute_final hs
  obtain ⟨visits, hschedule, ht⟩ := hfinal.schedule_eq
  have hcandidates : candidates request docs ≠ [] := fun he ↦ hne (by simp [scheduleOf, he])
  have hvisits : scheduleOf order request docs matrix = visits := by simp [scheduleOf, hcandidates, hs, hschedule]
  exact ⟨s, hfinal, by rwa [hvisits]⟩

/-- Read as clock times, the steps follow the day exactly when no place is left at
midnight, which cannot happen on a day that ends earlier. -/
theorem clock_order_iff (order : SetOrder) (now : DateTime) (docs : List PlaceDoc) (hvalid : request.Valid)
    (hm : matrix.NonNeg) :
    ∃ resp, optimizeRoute order (fun _ ↦ .ok matrix) now request docs = .ok resp ∧
      (Ordered resp.steps ↔
        ∀ v ∈ scheduleOf order request docs matrix, ¬isAnchor request v.placeId → v.departureS ≠ 86400) ∧
      (dayEndS request < 86400 → Ordered resp.steps) := by
  obtain ⟨resp, hresp, hanswer⟩ := optimizeRoute_answer order now request docs matrix
  have hiff : Ordered resp.steps ↔
      ∀ v ∈ scheduleOf order request docs matrix, ¬isAnchor request v.placeId → v.departureS ≠ 86400 := by
    rw [hanswer.steps]
    by_cases hne : scheduleOf order request docs matrix = []
    · rw [hne]
      exact iff_of_true ⟨by simp [stepsOf], .nil⟩ (by simp)
    · obtain ⟨s, hfinal, ht⟩ := scheduleOf_timed hne
      exact ordered_iff hvalid hm hfinal ht (hanswer.executable hm hne)
  refine ⟨resp, hresp, hiff, fun hend ↦ hiff.mpr ?_⟩
  intro v hv _
  have hfinishes := (hanswer.executable hm (List.ne_nil_of_mem hv)).finishes v hv
  omega

def nightOut : OptimizeRequest where
  placeIds := ["65f0c0ffee0000000000000a"]
  dayStartHour := 22
  dayEndHour := 24

def longEvening : List PlaceDoc := changeoverDocs.map fun doc ↦ { doc with visitDurationMin := some 120 }

/-- Whoever stays from ten until midnight is shown to leave before arriving. -/
theorem nightOut_disordered : nightOut.Valid ∧ ∃ resp,
    optimizeRoute .insertion (fun _ ↦ .ok steadyMatrix) ⟨dayOne, midnight⟩ nightOut longEvening = .ok resp ∧
      resp.steps.map (fun step ↦ (clockS step.arrivalTime, clockS step.departureTime)) = [(79200, 0)] ∧
      ¬Ordered resp.steps := by
  have hanswer : optimizeRoute .insertion (fun _ ↦ .ok steadyMatrix) ⟨dayOne, midnight⟩ nightOut longEvening =
      .ok (buildResponse nightOut longEvening steadyMatrix ⟨nightOut.placeIds, [], [], nightOut.placeIds⟩) := by
    rfl
  have hclock : (buildResponse nightOut longEvening steadyMatrix
      ⟨nightOut.placeIds, [], [], nightOut.placeIds⟩).steps.map
        (fun step ↦ (clockS step.arrivalTime, clockS step.departureTime)) = [(79200, 0)] := by
    decide +kernel
  refine ⟨by decide +kernel, _, hanswer, hclock, fun hordered ↦ ?_⟩
  have hmem : ((79200, 0) : ℤ × ℤ) ∈ [((79200, 0) : ℤ × ℤ)] := List.mem_singleton_self _
  rw [← hclock] at hmem
  obtain ⟨step, hstep, he⟩ := List.mem_map.mp hmem
  have hle := (hordered.stays step hstep).1
  obtain ⟨harrival, hdeparture⟩ := Prod.mk.inj he
  omega

theorem clock_order_nightOut :
    ∃ resp, optimizeRoute .insertion (fun _ ↦ .ok steadyMatrix) ⟨dayOne, midnight⟩ nightOut longEvening = .ok resp ∧
      (Ordered resp.steps ↔ ∀ v ∈ scheduleOf .insertion nightOut longEvening steadyMatrix,
        ¬isAnchor nightOut v.placeId → v.departureS ≠ 86400) ∧
      (dayEndS nightOut < 86400 → Ordered resp.steps) :=
  clock_order_iff .insertion ⟨dayOne, midnight⟩ longEvening (by decide +kernel) steadyMatrix_nonneg

end TravelPlanner.ClockOrder
