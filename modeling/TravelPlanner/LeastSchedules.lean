import TravelPlanner.EarliestStart
import TravelPlanner.EarliestTimes

namespace TravelPlanner.LeastSchedules

open Clock Requests Windows OpeningHours Engine TimedRoutes RouteService RouteAccounting EarliestStart EarliestTimes

section Plans

variable (p : DayProblem)

def admits (node : PlaceId) (arrivalS : ℤ) : Set ℤ :=
  match p.timeWindows node with
  | some tw => {t | arrivalS ≤ t ∧ ∃ s ∈ tw.segments, s.1 ≤ t ∧ t + p.visitS node ≤ s.2}
  | none => {t | arrivalS ≤ t ∧ p.dayStartS ≤ t}

/-- Any way to visit the nodes in this order, as the windows and the legs allow. Waiting
for the service and lingering after it is free. -/
inductive Plan : Option PlaceId → ℤ → List PlaceId → List Visit → Prop
  | nil (prev : Option PlaceId) (t : ℤ) : Plan prev t [] []
  | cons {prev : Option PlaceId} {t startS : ℤ} {v : Visit} {route : List PlaceId} {visits : List Visit} :
      p.travelTo v.placeId prev = some v.travelS → v.arrivalS = t + v.travelS →
      startS ∈ admits p v.placeId v.arrivalS → startS + p.visitS v.placeId ≤ v.departureS →
      Plan (some v.placeId) v.departureS route visits → Plan prev t (v.placeId :: route) (v :: visits)

def NoLater (v w : Visit) : Prop :=
  v.placeId = w.placeId ∧ v.arrivalS ≤ w.arrivalS ∧ v.departureS ≤ w.departureS

/-- The times at which a node can be left by who left the one before it at some time. -/
def leaving (prev : Option PlaceId) (node : PlaceId) (t : ℤ) : Set ℤ :=
  {u | ∃ travelS, p.travelTo node prev = some travelS ∧
    ∃ startS ∈ admits p node (t + travelS), startS + p.visitS node ≤ u}

def leaveAt (prev : Option PlaceId) (node : PlaceId) (t : ℤ) : Option ℤ := do
  let travelS ← p.travelTo node prev
  let startS ← p.serviceStart node (t + travelS)
  return startS + p.visitS node

/-- The scan of a window takes its first segment that fits, so the segments have to stand
in the order of their openings. -/
def Ordered : Prop :=
  ∀ node tw, p.timeWindows node = some tw → tw.segments.Pairwise fun a b ↦ a.1 ≤ b.1

variable {p} {prev : Option PlaceId} {node : PlaceId} {t t' arrivalS arrivalS' : ℤ} {route : List PlaceId}
  {visits visits' : List Visit}

theorem admits_later (h : arrivalS ≤ arrivalS') : admits p node arrivalS' ⊆ admits p node arrivalS := by
  intro t ht
  unfold admits at ht ⊢
  cases hw : p.timeWindows node with
  | none =>
    rw [hw] at ht
    exact ⟨h.trans ht.1, ht.2⟩
  | some tw =>
    rw [hw] at ht
    exact ⟨h.trans ht.1, ht.2⟩

theorem serviceStart_least (ho : Ordered p) (hv : VisitsNonNeg p) :
    LeastOf (admits p node arrivalS) (p.serviceStart node arrivalS) := by
  unfold admits DayProblem.serviceStart
  cases hw : p.timeWindows node with
  | none =>
    constructor
    · exact ⟨le_max_left _ _, le_max_right _ _⟩
    · intro t ht
      exact max_le ht.1 ht.2
  | some tw =>
    have hleast : LeastOf (starts tw.segments arrivalS (p.visitS node))
        (earliestIn arrivalS (p.visitS node) tw.segments) :=
      earliestIn_least (hv node) (ho node tw hw)
    have hsame : starts tw.segments arrivalS (p.visitS node) =
        {t | arrivalS ≤ t ∧ ∃ s ∈ tw.segments, s.1 ≤ t ∧ t + p.visitS node ≤ s.2} := by
      ext t
      exact mem_starts (hv node)
    rw [hsame] at hleast
    exact hleast

theorem leaveAt_eq_some {u : ℤ} : leaveAt p prev node t = some u ↔
    ∃ travelS startS, p.travelTo node prev = some travelS ∧
      p.serviceStart node (t + travelS) = some startS ∧ u = startS + p.visitS node := by
  simp only [leaveAt, Option.bind_eq_bind, Option.bind_eq_some_iff, Option.pure_def, Option.some.injEq]
  constructor
  · intro ⟨travelS, ht, startS, hs, he⟩
    exact ⟨travelS, startS, ht, hs, he.symm⟩
  · intro ⟨travelS, startS, ht, hs, he⟩
    exact ⟨travelS, ht, startS, hs, he.symm⟩

theorem leaveAt_least (ho : Ordered p) (hv : VisitsNonNeg p) {u : ℤ} (h : leaveAt p prev node t = some u) :
    IsLeast (leaving p prev node t) u := by
  obtain ⟨travelS, startS, ht, hs, rfl⟩ := leaveAt_eq_some.mp h
  have hleast := (serviceStart_least ho hv).eq_some_iff.mp hs
  constructor
  · exact ⟨travelS, ht, startS, hleast.1, le_rfl⟩
  · intro u ⟨travelS', ht', startS', hs', hu⟩
    obtain rfl : travelS = travelS' := Option.some.inj (ht.symm.trans ht')
    have hle := hleast.2 hs'
    omega

theorem leaving_empty (ho : Ordered p) (hv : VisitsNonNeg p) (h : leaveAt p prev node t = none) :
    leaving p prev node t = ∅ := by
  refine Set.eq_empty_of_forall_notMem fun u hu ↦ ?_
  obtain ⟨travelS, ht, startS, hs, -⟩ := hu
  cases hstart : p.serviceStart node (t + travelS) with
  | none =>
    have hnone := (serviceStart_least ho hv).eq_none_iff.mp hstart
    exact absurd hs (hnone ▸ Set.notMem_empty _)
  | some s =>
    have hsome := leaveAt_eq_some.mpr ⟨travelS, s, ht, hstart, rfl⟩
    exact absurd (h.symm.trans hsome) (by simp)

theorem leaving_later (h : t ≤ t') : leaving p prev node t' ⊆ leaving p prev node t := by
  intro u ⟨travelS, ht, startS, hs, hu⟩
  exact ⟨travelS, ht, startS, admits_later (by omega) hs, hu⟩

def stage (ho : Ordered p) (hv : VisitsNonNeg p) (prev : Option PlaceId) (node : PlaceId) : Stage ℤ where
  leaves := leaving p prev node
  next := leaveAt p prev node
  first := leaveAt_least ho hv
  blocked := leaving_empty ho hv
  waits := leaving_later

def stages (ho : Ordered p) (hv : VisitsNonNeg p) : Option PlaceId → List PlaceId → List (Stage ℤ)
  | _, [] => []
  | prev, node :: rest => stage ho hv prev node :: stages ho hv (some node) rest

theorem scheduleFrom_departures (prev : Option PlaceId) (t : ℤ) (route : List PlaceId) (ho : Ordered p)
    (hv : VisitsNonNeg p) :
    (scheduleFrom p prev t route).map (List.map Visit.departureS) = departures (stages ho hv prev route) t := by
  induction route generalizing prev t with
  | nil => rfl
  | cons node rest ih =>
    simp only [scheduleFrom, stages, departures, stage, leaveAt, Option.bind_eq_bind, Option.pure_def]
    cases p.travelTo node prev with
    | none => rfl
    | some travelS =>
      simp only [Option.bind_some]
      cases p.serviceStart node (t + travelS) with
      | none => rfl
      | some startS =>
        simp only [Option.bind_some, ← ih]
        cases scheduleFrom p (some node) (startS + p.visitS node) rest with
        | none => rfl
        | some tail => rfl

theorem Plan.journey (ho : Ordered p) (hv : VisitsNonNeg p) (h : Plan p prev t route visits) :
    Journey (stages ho hv prev route) t (visits.map Visit.departureS) := by
  induction h with
  | nil prev t => exact .nil t
  | @cons prev t startS v route visits htravel harrival hstart hdeparture _ ih =>
    refine .cons ⟨v.travelS, htravel, startS, ?_, hdeparture⟩ ih
    rw [← harrival]
    exact hstart

theorem exists_plan (ho : Ordered p) (hv : VisitsNonNeg p) {us : List ℤ}
    (h : Journey (stages ho hv prev route) t us) :
    ∃ visits, Plan p prev t route visits ∧ visits.map Visit.departureS = us := by
  induction route generalizing prev t us with
  | nil =>
    cases h
    exact ⟨[], .nil prev t, rfl⟩
  | cons node rest ih =>
    cases h with
    | @cons _ _ _ u us hu hrest =>
      obtain ⟨travelS, htravel, startS, hstart, hle⟩ := hu
      obtain ⟨visits, hplan, rfl⟩ := ih hrest
      have hcons : Plan p prev t (node :: rest) (⟨node, t + travelS, u, travelS⟩ :: visits) :=
        Plan.cons (v := ⟨node, t + travelS, u, travelS⟩) htravel rfl hstart hle hplan
      exact ⟨_, hcons, rfl⟩

theorem schedule_plan (h : scheduleFrom p prev t route = some visits) (ho : Ordered p) (hv : VisitsNonNeg p) :
    Plan p prev t route visits := by
  induction route generalizing prev t visits with
  | nil =>
    cases h
    exact .nil prev t
  | cons node rest ih =>
    have htimed := schedule_iff.mp h
    cases visits with
    | nil => exact absurd htimed.places (by simp)
    | cons v visits =>
      obtain ⟨rfl, htravel, harrival, ⟨startS, hstart, hdeparture⟩, hrest⟩ := timed_cons.mp htimed
      have hmem := ((serviceStart_least ho hv).eq_some_iff.mp hstart).1
      exact .cons htravel harrival hmem hdeparture.ge (ih (schedule_iff.mpr hrest))

def Shortens (matrix matrix' : DistanceMatrix) : Prop :=
  ∀ o d leg, matrix.get o d = some leg → ∃ leg', matrix'.get o d = some leg' ∧ leg'.durationS ≤ leg.durationS

theorem shortens_refl (matrix : DistanceMatrix) : Shortens matrix matrix :=
  fun _ _ leg h ↦ ⟨leg, h, le_rfl⟩

theorem travelTo_shorter {p' : DayProblem} (hm : Shortens p.matrix p'.matrix) {travelS : ℤ}
    (h : p.travelTo node prev = some travelS) :
    ∃ travelS', p'.travelTo node prev = some travelS' ∧ travelS' ≤ travelS := by
  cases prev with
  | none => exact ⟨0, rfl, (Option.some.inj h).le⟩
  | some last =>
    obtain ⟨leg, hleg, rfl⟩ := travelTo_eq_some.mp h
    obtain ⟨leg', hleg', hle⟩ := hm last node leg hleg
    exact ⟨leg'.durationS, travelTo_eq_some.mpr ⟨leg', hleg', rfl⟩, hle⟩

/-- Who leaves nowhere later arrives nowhere later, over legs that are no longer. -/
theorem Plan.noLater {p' : DayProblem} (h : Plan p prev t route visits) (hm : Shortens p.matrix p'.matrix)
    (h' : Plan p' prev t' route visits') (hle : t' ≤ t)
    (hdepartures : List.Forall₂ (· ≤ ·) (visits'.map Visit.departureS) (visits.map Visit.departureS)) :
    List.Forall₂ NoLater visits' visits := by
  induction h generalizing t' visits' with
  | nil =>
    cases h'
    exact .nil
  | @cons prev t startS v route visits htravel harrival _ _ _ ih =>
    generalize hnode : v.placeId = node at h'
    cases h' with
    | @cons _ _ _ w _ visits' htravel' harrival' _ _ hrest' =>
      obtain ⟨hdeparture, hdepartures⟩ := List.forall₂_cons.mp hdepartures
      obtain ⟨travelS', hshort, htravels⟩ := travelTo_shorter hm htravel
      rw [hnode, htravel'] at hshort
      obtain rfl := Option.some.inj hshort
      refine .cons ⟨hnode.symm, by omega, hdeparture⟩ (ih ?_ hdeparture hdepartures)
      rw [hnode]
      exact hrest'

/-- The loop finds the pointwise least of all plans, and a plan exists exactly where it
finds one. -/
theorem scheduleFrom_least (prev : Option PlaceId) (t : ℤ) (route : List PlaceId) (ho : Ordered p)
    (hv : VisitsNonNeg p) :
    (∀ visits, scheduleFrom p prev t route = some visits →
      Plan p prev t route visits ∧ ∀ visits', Plan p prev t route visits' → List.Forall₂ NoLater visits visits') ∧
    (scheduleFrom p prev t route = none ↔ ∀ visits', ¬Plan p prev t route visits') := by
  have hdepartures := scheduleFrom_departures prev t route ho hv
  constructor
  · intro visits h
    have hplan := schedule_plan h ho hv
    refine ⟨hplan, fun visits' hplan' ↦ ?_⟩
    rw [h] at hdepartures
    exact hplan'.noLater (shortens_refl _) hplan le_rfl (departures_le hdepartures.symm (hplan'.journey ho hv))
  · have hnone : departures (stages ho hv prev route) t = none ↔ ∀ us, ¬Journey (stages ho hv prev route) t us :=
      departures_eq_none_iff
    rw [← hdepartures, Option.map_eq_none_iff] at hnone
    rw [hnone]
    constructor
    · intro h visits' hplan'
      exact h _ (hplan'.journey ho hv)
    · intro h us hus
      obtain ⟨visits', hplan', -⟩ := exists_plan ho hv hus
      exact h visits' hplan'

end Plans

section Days

variable (request : OptimizeRequest) (docs : List PlaceDoc) (matrix : DistanceMatrix)

theorem ordered : Ordered (dayProblem request docs matrix) := by
  intro node tw hwindow
  obtain ⟨c, hc, rfl⟩ := Option.map_eq_some_iff.mp hwindow
  obtain ⟨-, doc, -, hparsed, -⟩ := candidateOf_spec hc
  obtain ⟨segments, hsegments⟩ := parseTimeWindow_fromSegments hparsed
  rw [hsegments]
  exact fromSegments_sorted segments

theorem getLast_noLater {visits visits' : List Visit} (h : List.Forall₂ NoLater visits visits') {last' : Visit}
    (hlast' : visits'.getLast? = some last') :
    ∃ last, visits.getLast? = some last ∧ last.departureS ≤ last'.departureS := by
  induction h with
  | nil => exact absurd hlast' (by simp)
  | @cons v w visits visits' hv hrest ih =>
    cases hrest with
    | nil =>
      obtain rfl : w = last' := by simpa using hlast'
      exact ⟨v, rfl, hv.2.2⟩
    | cons _ _ =>
      rw [List.getLast?_cons_cons] at hlast' ⊢
      exact ih hlast'

/-- `schedule_route` is the pointwise earliest way through a route of the solver, empty
only where there is no way at all, and `is_feasible` decides whether some way ends within
the day. -/
theorem scheduleRoute_earliest (route : List PlaceId) :
    (∀ visits, Plan (dayProblem request docs matrix) none (dayStartS request) route visits →
      Plan (dayProblem request docs matrix) none (dayStartS request) route
          (scheduleRoute (dayProblem request docs matrix) route) ∧
        List.Forall₂ NoLater (scheduleRoute (dayProblem request docs matrix) route) visits) ∧
    (scheduleRoute (dayProblem request docs matrix) route = [] ↔
      route = [] ∨ ∀ visits, ¬Plan (dayProblem request docs matrix) none (dayStartS request) route visits) ∧
    (isFeasible (dayProblem request docs matrix) route = true ↔
      ∃ visits last, Plan (dayProblem request docs matrix) none (dayStartS request) route visits ∧
        visits.getLast? = some last ∧ last.departureS ≤ dayEndS request) := by
  obtain ⟨hleast, hnone⟩ := scheduleFrom_least none (dayStartS request) route
    (ordered request docs matrix) visitsNonNeg
  have hfound : ∀ visits, Plan (dayProblem request docs matrix) none (dayStartS request) route visits →
      ∃ found, scheduleFrom (dayProblem request docs matrix) none (dayStartS request) route = some found := by
    intro visits hplan
    cases hs : scheduleFrom (dayProblem request docs matrix) none (dayStartS request) route with
    | none => exact absurd hplan (hnone.mp hs visits)
    | some found => exact ⟨found, rfl⟩
  refine ⟨?_, ?_, ?_⟩
  · intro visits hplan
    obtain ⟨found, hs⟩ := hfound visits hplan
    have heq := (schedule_iff.mp hs).scheduleRoute_eq
    rw [heq]
    exact ⟨(hleast found hs).1, (hleast found hs).2 visits hplan⟩
  · cases hs : scheduleFrom (dayProblem request docs matrix) none (dayStartS request) route with
    | none =>
      have hempty : scheduleRoute (dayProblem request docs matrix) route = [] := by
        rw [scheduleRoute]
        exact hs ▸ rfl
      exact iff_of_true hempty (.inr (hnone.mp hs))
    | some found =>
      have htimed := schedule_iff.mp hs
      rw [htimed.scheduleRoute_eq, htimed.eq_nil]
      exact (or_iff_left fun h ↦ h found (hleast found hs).1).symm
  · rw [isFeasible_iff]
    constructor
    · intro h
      obtain ⟨visits, last, htimed, hlast, hend⟩ := h
      exact ⟨visits, last, (hleast visits (schedule_iff.mpr htimed)).1, hlast, hend⟩
    · intro h
      obtain ⟨visits, last, hplan, hlast, hend⟩ := h
      obtain ⟨found, hs⟩ := hfound visits hplan
      obtain ⟨first, hfirst, hle⟩ := getLast_noLater ((hleast found hs).2 visits hplan) hlast
      exact ⟨found, first, schedule_iff.mp hs, hfirst, hle.trans hend⟩

end Days

section Comparison

variable {p p' : DayProblem} {prev : Option PlaceId} {t t' : ℤ} {route : List PlaceId} {visits : List Visit}

/-- Service that may begin in the one problem may begin in the other, and takes no longer. -/
def Eases (p p' : DayProblem) (node : PlaceId) : Prop :=
  (∀ arrivalS, admits p node arrivalS ⊆ admits p' node arrivalS) ∧ p'.visitS node ≤ p.visitS node

theorem leaving_eases (hm : Shortens p.matrix p'.matrix) {node : PlaceId} (hnode : Eases p p' node) (t : ℤ) :
    leaving p prev node t ⊆ leaving p' prev node t := by
  intro u ⟨travelS, htravel, startS, hstart, hu⟩
  obtain ⟨travelS', htravel', hle⟩ := travelTo_shorter hm htravel
  have hstart' := admits_later (by omega : t + travelS' ≤ t + travelS) (hnode.1 _ hstart)
  have hvisit := hnode.2
  exact ⟨travelS', htravel', startS, hstart', by omega⟩

theorem stages_eases (prev : Option PlaceId) (ho : Ordered p) (hv : VisitsNonNeg p) (ho' : Ordered p')
    (hv' : VisitsNonNeg p') (hm : Shortens p.matrix p'.matrix) (hroute : ∀ node ∈ route, Eases p p' node) :
    List.Forall₂ (fun s' s : Stage ℤ ↦ ∀ t, s.leaves t ⊆ s'.leaves t)
      (stages ho' hv' prev route) (stages ho hv prev route) := by
  induction route generalizing prev with
  | nil => exact .nil
  | cons node rest ih =>
    refine .cons ?_ (ih _ fun n hn ↦ hroute n (List.mem_cons_of_mem _ hn))
    exact leaving_eases hm (hroute node List.mem_cons_self)

theorem scheduleFrom_eases (ho : Ordered p) (hv : VisitsNonNeg p) (ho' : Ordered p') (hv' : VisitsNonNeg p')
    (hm : Shortens p.matrix p'.matrix) (hroute : ∀ node ∈ route, Eases p p' node) (hle : t' ≤ t)
    (h : scheduleFrom p prev t route = some visits) :
    ∃ visits', scheduleFrom p' prev t' route = some visits' ∧ List.Forall₂ NoLater visits' visits := by
  have hdepartures := scheduleFrom_departures prev t route ho hv
  rw [h] at hdepartures
  obtain ⟨us, hus, hall⟩ :=
    departures_widen hdepartures.symm (stages_eases prev ho hv ho' hv' hm hroute) hle
  rw [← scheduleFrom_departures] at hus
  obtain ⟨visits', hs', rfl⟩ := Option.map_eq_some_iff.mp hus
  exact ⟨visits', hs', (schedule_plan h ho hv).noLater hm (schedule_plan hs' ho' hv') hle hall⟩

end Comparison

section WiderDays

variable {request request' : OptimizeRequest} {docs docs' : List PlaceDoc} {matrix matrix' : DistanceMatrix}

/-- The same places on the same date, in a day that opens no later and closes no sooner. -/
structure Widens (request request' : OptimizeRequest) : Prop where
  places : request'.placeIds = request.placeIds
  date : request'.departureDate = request.departureDate
  opens : dayStartS request' ≤ dayStartS request
  closes : dayEndS request ≤ dayEndS request'

def Lightens (docs docs' : List PlaceDoc) : Prop :=
  ∀ id doc, docMap docs id = some doc → ∃ doc', docMap docs' id = some doc' ∧
    doc' = { doc with visitDurationMin := doc'.visitDurationMin } ∧ doc'.visitMin ≤ doc.visitMin

def Inside (segment segment' : ℤ × ℤ) : Prop := segment'.1 ≤ segment.1 ∧ segment.2 ≤ segment'.2

theorem periodSegment_inside {openS closeS openS' closeS' : ℤ} (hopen : openS' ≤ openS) (hclose : closeS ≤ closeS')
    (opening : OpeningPoint) (closing : Option OpeningPoint) :
    Inside (periodSegment openS closeS opening closing) (periodSegment openS' closeS' opening closing) := by
  cases closing with
  | none => exact ⟨max_le_max_right _ hopen, hclose⟩
  | some close => exact ⟨max_le_max_right _ hopen, min_le_min_right _ hclose⟩

theorem daySegments_inside {openS closeS openS' closeS' : ℤ} (hopen : openS' ≤ openS) (hclose : closeS ≤ closeS')
    (weekday : ℕ) (periods : List OpeningPeriod) :
    ∀ segment ∈ daySegments openS closeS weekday periods,
      ∃ segment' ∈ daySegments openS' closeS' weekday periods, Inside segment segment' := by
  intro segment hmem
  obtain ⟨period, hperiod, opening, hopening, hday, rfl, hlt⟩ := mem_daySegments.mp hmem
  have hinside := periodSegment_inside hopen hclose opening period.closing
  have hlt' := (hinside.1.trans_lt hlt).trans_le hinside.2
  exact ⟨_, mem_daySegments.mpr ⟨period, hperiod, opening, hopening, hday, rfl, hlt'⟩, hinside⟩

theorem parseTimeWindow_inside {doc : PlaceDoc} {startS endS startS' endS' : ℤ} {weekday : Option ℕ} {tw : TimeWindow}
    (h : parseTimeWindow doc startS endS weekday = some tw) (hstart : startS' ≤ startS) (hend : endS ≤ endS') :
    ∃ tw', parseTimeWindow doc startS' endS' weekday = some tw' ∧
      ∀ segment ∈ tw.segments, ∃ segment' ∈ tw'.segments, Inside segment segment' := by
  have hopen : lowerBound doc startS' ≤ lowerBound doc startS := by
    unfold lowerBound
    cases doc.preferredHourFrom with
    | none => exact hstart
    | some _ => exact le_rfl
  have hclose : upperBound doc endS ≤ upperBound doc endS' := by
    unfold upperBound
    cases doc.preferredHourTo with
    | none => exact hend
    | some _ => exact le_rfl
  cases weekday with
  | none =>
    change (if upperBound doc endS ≤ lowerBound doc startS then none else some _) = some tw at h
    split_ifs at h with hlt
    obtain rfl := Option.some.inj h
    have hlt' : ¬upperBound doc endS' ≤ lowerBound doc startS' := by omega
    refine ⟨TimeWindow.single (lowerBound doc startS') (upperBound doc endS'), if_neg hlt', ?_⟩
    intro segment hsegment
    obtain rfl := List.mem_singleton.mp hsegment
    exact ⟨_, List.mem_singleton_self _, hopen, hclose⟩
  | some weekday =>
    rcases parseTimeWindow_eq_some.mp h with ⟨hnil, hlt, rfl⟩ | ⟨hperiods, hne, rfl⟩
    · refine ⟨_, parseTimeWindow_eq_some.mpr (.inl ⟨hnil, by omega, rfl⟩), ?_⟩
      intro segment hsegment
      obtain rfl := List.mem_singleton.mp hsegment
      exact ⟨_, List.mem_singleton_self _, hopen, hclose⟩
    · have hinside := daySegments_inside hopen hclose weekday doc.openingPeriods
      obtain ⟨first, hfirst⟩ := List.exists_mem_of_ne_nil _ hne
      obtain ⟨first', hfirst', -⟩ := hinside first hfirst
      refine ⟨_, parseTimeWindow_eq_some.mpr (.inr ⟨hperiods, List.ne_nil_of_mem hfirst', rfl⟩), ?_⟩
      intro segment hsegment
      obtain ⟨segment', hsegment', hin⟩ := hinside segment (mem_fromSegments.mp hsegment)
      exact ⟨segment', mem_fromSegments.mpr hsegment', hin⟩

theorem examine_eq_inr {id : PlaceId} {c : Candidate} : examine request docs id = .inr c ↔
    ∃ doc lat lng window, docMap docs id = some doc ∧ doc.lat = some lat ∧ doc.lng = some lng ∧
      windowOf request doc = some window ∧ c = ⟨id, lat, lng, window, doc.visitMin * 60⟩ := by
  unfold examine
  constructor
  · intro h
    split at h
    · cases h
    · next doc hdoc =>
      split at h
      · next lat lng hlat hlng =>
        split at h
        · cases h
        · next window hwindow => exact ⟨doc, lat, lng, window, hdoc, hlat, hlng, hwindow, (Sum.inr.inj h).symm⟩
      · cases h
  · intro ⟨doc, lat, lng, window, hdoc, hlat, hlng, hwindow, hc⟩
    simp only [hdoc, hlat, hlng, hwindow, hc]

theorem candidateOf_examine {id : PlaceId} {c : Candidate} (h : candidateOf request docs id = some c) :
    examine request docs id = .inr c := by
  have hid := (candidateOf_spec h).1
  obtain ⟨id', -, hright⟩ := List.mem_filterMap.mp (List.mem_of_find?_eq_some h)
  have hid' := (examine_right hright).1
  obtain rfl : id' = id := hid'.symm.trans hid
  exact Sum.getRight?_eq_some_iff.mp hright

theorem mem_nodeIds {id : PlaceId} : id ∈ nodeIds request docs ↔
    id ∈ request.placeIds ∧ ∃ c, examine request docs id = .inr c := by
  constructor
  · intro h
    obtain ⟨c, hc⟩ := candidateOf_of_mem h
    have hmem := (examined_perm request docs).subset (List.mem_append_right _ h)
    exact ⟨hmem, c, candidateOf_examine hc⟩
  · intro ⟨hmem, c, hc⟩
    have hright : (examine request docs id).getRight? = some c := Sum.getRight?_eq_some_iff.mpr hc
    exact List.mem_map.mpr ⟨c, List.mem_filterMap.mpr ⟨id, hmem, hright⟩, (examine_right hright).1⟩

/-- A place that a day can serve stays one in a wider day, with at least its old room. -/
theorem examine_widens (hw : Widens request request') (hd : Lightens docs docs') {id : PlaceId} {c : Candidate}
    (h : examine request docs id = .inr c) :
    ∃ c', examine request' docs' id = .inr c' ∧ c'.visitS ≤ c.visitS ∧
      ∀ segment ∈ c.window.segments, ∃ segment' ∈ c'.window.segments, Inside segment segment' := by
  obtain ⟨doc, lat, lng, window, hdoc, hlat, hlng, hwindow, rfl⟩ := examine_eq_inr.mp h
  obtain ⟨doc', hdoc', hsame, hle⟩ := hd id doc hdoc
  obtain ⟨window', hwindow', hinside⟩ := parseTimeWindow_inside hwindow hw.opens hw.closes
  have hparsed : windowOf request' doc' = some window' := by
    rw [hsame, windowOf, hw.date]
    exact hwindow'
  have hlat' : doc'.lat = some lat := by rw [hsame, hlat]
  have hlng' : doc'.lng = some lng := by rw [hsame, hlng]
  refine ⟨_, examine_eq_inr.mpr ⟨doc', lat, lng, window', hdoc', hlat', hlng', hparsed, rfl⟩, ?_, hinside⟩
  change (doc'.visitMin : ℤ) * 60 ≤ doc.visitMin * 60
  omega

theorem candidateOf_outside {id : PlaceId} (h : id ∉ request.placeIds) : candidateOf request docs id = none := by
  cases hc : candidateOf request docs id with
  | none => rfl
  | some c => exact absurd (mem_nodeIds.mp (mem_of_candidateOf hc)).1 h

theorem eases_of_widens (hw : Widens request request') (hd : Lightens docs docs') {id : PlaceId}
    (hid : id ∈ nodeIds request docs ∨ id ∉ request.placeIds) :
    Eases (dayProblem request docs matrix) (dayProblem request' docs' matrix') id := by
  rcases hid with hid | hid
  · obtain ⟨c, hc⟩ := candidateOf_of_mem hid
    obtain ⟨c', hc', hvisit, hinside⟩ := examine_widens hw hd (candidateOf_examine hc)
    have hid' : id ∈ nodeIds request' docs' := by
      refine mem_nodeIds.mpr ⟨?_, c', hc'⟩
      rw [hw.places]
      exact (mem_nodeIds.mp hid).1
    obtain ⟨c'', hfound⟩ := candidateOf_of_mem hid'
    obtain rfl : c'' = c' := Sum.inr.inj ((candidateOf_examine hfound).symm.trans hc')
    constructor
    · intro arrivalS t ht
      simp only [admits, dayProblem, DayProblem.visitS, hc, hfound, Option.map_some, Option.getD_some] at ht ⊢
      obtain ⟨harrival, segment, hsegment, hopen, hclose⟩ := ht
      obtain ⟨segment', hsegment', hlow, hhigh⟩ := hinside segment hsegment
      exact ⟨harrival, segment', hsegment', by omega, by omega⟩
    · simpa only [dayProblem, DayProblem.visitS, hc, hfound, Option.map_some, Option.getD_some] using hvisit
  · have hid' : id ∉ request'.placeIds := hw.places ▸ hid
    have hopens := hw.opens
    constructor
    · intro arrivalS t ht
      simp only [admits, dayProblem, candidateOf_outside hid, candidateOf_outside hid', Option.map_none] at ht ⊢
      exact ⟨ht.1, hopens.trans ht.2⟩
    · simp only [dayProblem, DayProblem.visitS, candidateOf_outside hid, candidateOf_outside hid', le_refl]

/-- A day that opens earlier or closes later, shorter legs and shorter visits never make a
route of the solver infeasible and never delay an arrival on it. -/
theorem schedule_widened (hw : Widens request request') (hd : Lightens docs docs') (hm : Shortens matrix matrix')
    {route : List PlaceId} (hroute : ∀ id ∈ route, id ∈ nodeIds request docs ∨ id ∉ request.placeIds) :
    (isFeasible (dayProblem request docs matrix) route = true →
      isFeasible (dayProblem request' docs' matrix') route = true) ∧
    ∀ visits, scheduleFrom (dayProblem request docs matrix) none (dayStartS request) route = some visits →
      ∃ visits', scheduleFrom (dayProblem request' docs' matrix') none (dayStartS request') route = some visits' ∧
        List.Forall₂ NoLater visits' visits := by
  have hall : ∀ visits, scheduleFrom (dayProblem request docs matrix) none (dayStartS request) route = some visits →
      ∃ visits', scheduleFrom (dayProblem request' docs' matrix') none (dayStartS request') route = some visits' ∧
        List.Forall₂ NoLater visits' visits := by
    intro visits h
    apply scheduleFrom_eases (ordered request docs matrix) visitsNonNeg (ordered request' docs' matrix') visitsNonNeg
    · exact hm
    · intro id hid
      exact eases_of_widens hw hd (hroute id hid)
    · exact hw.opens
    · exact h
  refine ⟨?_, hall⟩
  intro hfeasible
  obtain ⟨visits, last, htimed, hlast, hend⟩ := isFeasible_iff.mp hfeasible
  obtain ⟨visits', hs', hle⟩ := hall visits (schedule_iff.mpr htimed)
  obtain ⟨last', hlast', hlast_le⟩ := getLast_noLater hle hlast
  have hcloses := hw.closes
  exact isFeasible_iff.mpr ⟨visits', last', schedule_iff.mp hs', hlast', (hlast_le.trans hend).trans hcloses⟩

theorem lightens_refl (docs : List PlaceDoc) : Lightens docs docs :=
  fun _ doc h ↦ ⟨doc, h, rfl, le_rfl⟩

def parkId : ObjectId := ⟨"65f0c0ffee00000000005c01", by decide⟩

def mallId : ObjectId := ⟨"65f0c0ffee00000000005c02", by decide⟩

def cityDocs : List PlaceDoc :=
  [{ id := parkId, lat := some 0, lng := some 0 },
    { id := mallId, lat := some 0, lng := some 0, preferredHourFrom := some 10 }]

def shortDay : OptimizeRequest where
  placeIds := [parkId.hex, mallId.hex]
  dayEndHour := 11

def longDay : OptimizeRequest := { shortDay with dayStartHour := 8, dayEndHour := 20 }

def evenLegs (durationS : ℤ) : DistanceMatrix := ⟨fun (o, d) ↦ some ⟨o, d, 0, durationS⟩⟩

example : (scheduleRoute (dayProblem shortDay cityDocs (evenLegs 900)) [parkId.hex, mallId.hex]).map Visit.departureS =
    [34200, 37800] := by decide +kernel

theorem schedule_widened_longDay :
    isFeasible (dayProblem longDay cityDocs (evenLegs 600)) [parkId.hex, mallId.hex] = true := by
  have hwider : Widens shortDay longDay := ⟨rfl, rfl, by decide, by decide⟩
  have hshorter : Shortens (evenLegs 900) (evenLegs 600) := by
    intro o d leg h
    obtain rfl := Option.some.inj h
    have hle : (600 : ℤ) ≤ 900 := by omega
    exact ⟨_, rfl, hle⟩
  have hroute : ∀ id ∈ [parkId.hex, mallId.hex], id ∈ nodeIds shortDay cityDocs ∨ id ∉ shortDay.placeIds := by
    decide +kernel
  exact (schedule_widened hwider (lightens_refl cityDocs) hshorter hroute).1 (by decide +kernel)

end WiderDays

end TravelPlanner.LeastSchedules
