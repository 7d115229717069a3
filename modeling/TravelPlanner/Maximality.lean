import TravelPlanner.ConstructionRuns

namespace TravelPlanner.Maximality

open Requests Windows Engine TimedRoutes Construction Selection ConstructionRuns

/-- A node can be visited directly after a stop left at `departureS`: the leg
exists, the visit fits its window and the day, and so does the leg to the end anchor. -/
def CanFollow (p : DayProblem) (endAnchor : Option PlaceId) (last : PlaceId) (departureS : ℤ) (node : PlaceId) :
    Prop :=
  ∃ leg startS, p.matrix.get last node = some leg ∧
    p.serviceStart node (departureS + leg.durationS) = some startS ∧ startS + p.visitS node ≤ p.dayEndS ∧
    ∀ anchor ∈ endAnchor, ∃ back, p.matrix.get node anchor = some back ∧
      startS + p.visitS node + back.durationS ≤ p.dayEndS

def realStops (endAnchor : Option PlaceId) (route : List PlaceId) : List PlaceId :=
  if endAnchor.isSome then route.dropLast else route

/-- No node left out could still be visited after the last real stop. -/
def Maximal (p : DayProblem) (endAnchor : Option PlaceId) (route skipped : List PlaceId) : Prop :=
  ∃ last, (scheduleRoute p (realStops endAnchor route)).getLast? = some last ∧
    ∀ node ∈ skipped, ¬CanFollow p endAnchor last.placeId last.departureS node

def leaves (p : DayProblem) (start : PlaceId) : Option ℤ := (nnStart p start).map fun startS ↦ startS + p.visitS start

def Preferred (p : DayProblem) (endAnchor : Option PlaceId) (others : List PlaceId) (last : PlaceId) (t : ℤ)
    (node : PlaceId) : Prop :=
  ∀ k, candidateKey p endAnchor last t node = some k → k < largest ∧
    ∀ other ∈ others, ∀ k' d, candidateKey p endAnchor last t other = some k' →
      departureAfter p last t other = some d → p.dayEndS < d → k < k'

/-- So it is for every stop the day may stand at, at any time since the start was left. -/
def Unshadowed (p : DayProblem) (nodes : List PlaceId) (endAnchor : Option PlaceId) (start : PlaceId) : Prop :=
  ∀ t₀, leaves p start = some t₀ → ∀ last ∈ start :: nodes, ∀ t, t₀ ≤ t →
    ∀ node ∈ setWithout nodes start, node ≠ last → CanFollow p endAnchor last t node →
      Preferred p endAnchor (setWithout (setWithout nodes start) last) last t node

variable {p : DayProblem} {order : SetOrder} {nodes : List PlaceId} {endAnchor : Option PlaceId} {start : PlaceId}

theorem realStops_append (endAnchor : Option PlaceId) (stops : List PlaceId) :
    realStops endAnchor (stops ++ endAnchor.toList) = stops := by
  cases endAnchor <;> simp [realStops]

section Candidates

theorem candidateSlot_of_start {candidate : PlaceId} {arrivalS startS : ℤ}
    (h : p.serviceStart candidate arrivalS = some startS) (hle : startS ≤ p.dayEndS) :
    ∃ closeS, candidateSlot p candidate arrivalS = some (startS, closeS) ∧
      closeS = ((p.timeWindows candidate).map TimeWindow.closeS).getD p.dayEndS := by
  unfold DayProblem.serviceStart at h
  unfold candidateSlot
  cases hw : p.timeWindows candidate with
  | some tw =>
    rw [hw] at h
    exact ⟨tw.closeS, by simp only [h, Option.map_some], rfl⟩
  | none =>
    rw [hw] at h
    obtain rfl := Option.some.inj h
    have harr : ¬p.dayEndS < arrivalS := not_lt.mpr ((le_max_left _ _).trans hle)
    exact ⟨p.dayEndS, by simp only [harr, if_false], rfl⟩

theorem reachesEnd_iff {node : PlaceId} {d : ℤ} : reachesEnd p endAnchor node d = true ↔
    ∀ anchor ∈ endAnchor, ∃ back, p.matrix.get node anchor = some back ∧ d + back.durationS ≤ p.dayEndS := by
  unfold reachesEnd
  cases endAnchor with
  | none => simp
  | some anchor => cases hback : p.matrix.get node anchor <;> simp [hback]

theorem candidateKey_of_canFollow (hv : VisitsNonNeg p) {last node : PlaceId} {t : ℤ}
    (h : CanFollow p endAnchor last t node) :
    ∃ leg : MatrixEntry, candidateKey p endAnchor last t node =
      some (toLex (((p.timeWindows node).map TimeWindow.closeS).getD p.dayEndS, leg.durationS)) := by
  obtain ⟨leg, startS, hleg, hstart, hle, hback⟩ := h
  have hstarts : startS ≤ p.dayEndS := by
    have := hv node
    omega
  obtain ⟨closeS, hslot, rfl⟩ := candidateSlot_of_start hstart hstarts
  exact ⟨leg, candidateKey_eq_some.mpr ⟨leg, startS, _, hleg, hslot, reachesEnd_iff.mpr hback, rfl⟩⟩

theorem CanFollow.in_day (hm : p.matrix.NonNeg) (hv : VisitsNonNeg p) {last node : PlaceId} {t : ℤ}
    (h : CanFollow p endAnchor last t node) : t ≤ p.dayEndS := by
  obtain ⟨leg, startS, hleg, hstart, hle, _⟩ := h
  have hlegs := hm _ _ _ hleg
  have hge := serviceStart_ge hstart
  have hvisit := hv node
  omega

end Candidates

section Runs

theorem nnInit_eq_some {s₀ : NNState} : nnInit p nodes start = some s₀ ↔
    ∃ t₀, leaves p start = some t₀ ∧ t₀ ≤ p.dayEndS ∧ s₀ = ⟨[start], t₀, setWithout nodes start⟩ := by
  simp only [nnInit, leaves, Option.bind_eq_bind, Option.bind_eq_some_iff, Option.map_eq_some_iff]
  constructor
  · rintro ⟨startS, hstart, h⟩
    split_ifs at h with hover
    exact ⟨_, ⟨startS, hstart, rfl⟩, not_lt.mp hover, (Option.some.inj h).symm⟩
  · rintro ⟨_, ⟨startS, hstart, rfl⟩, hle, rfl⟩
    exact ⟨startS, hstart, if_neg (not_lt.mpr hle)⟩

theorem nnStep_currentS_le (hm : p.matrix.NonNeg) (hv : VisitsNonNeg p) {s s' : NNState}
    (h : nnStep p order nodes endAnchor s = some s') : s.currentS ≤ s'.currentS := by
  obtain ⟨last, node, d, _, _, hd, _, rfl⟩ := nnStep_eq_some.mp h
  obtain ⟨leg, startS, hleg, hstart, rfl⟩ := departureAfter_eq_some.mp hd
  have hlegs := hm _ _ _ hleg
  have hge := serviceStart_ge hstart
  have hvisit := hv node
  dsimp only
  omega

theorem Turn.since_start (hm : p.matrix.NonNeg) (hv : VisitsNonNeg p) {s : NNState}
    (h : Turn p order nodes endAnchor start s) : ∃ t₀, leaves p start = some t₀ ∧ t₀ ≤ s.currentS := by
  obtain ⟨s₀, hinit, hreach⟩ := h
  induction hreach with
  | refl =>
    obtain ⟨t₀, ht₀, _, rfl⟩ := nnInit_eq_some.mp hinit
    exact ⟨t₀, ht₀, le_rfl⟩
  | tail _ hstep ih =>
    obtain ⟨t₀, ht₀, hle⟩ := ih
    exact ⟨t₀, ht₀, hle.trans (nnStep_currentS_le hm hv hstep)⟩

/-- The last stop is the start or one of the nodes, and none of those still unvisited. -/
theorem Turn.last_stop {s : NNState} (h : Turn p order nodes endAnchor start s) :
    ∃ last, s.route.getLast? = some last ∧ last ∈ start :: nodes ∧ last ∉ s.unvisited ∧
      ∀ node ∈ s.unvisited, node ∈ setWithout nodes start := by
  obtain ⟨mid, hroute, hperm⟩ := h.inv.nodes
  have hnodup : (mid ++ s.unvisited).Nodup := hperm.nodup_iff.mpr ((List.nodup_dedup nodes).filter _)
  have hsub : ∀ node ∈ mid ++ s.unvisited, node ∈ setWithout nodes start := fun node hnode ↦ hperm.subset hnode
  have hstart : ∀ node ∈ setWithout nodes start, node ∈ nodes ∧ node ≠ start := by
    intro node hnode
    obtain ⟨hmem, hne⟩ := List.mem_filter.mp hnode
    exact ⟨List.mem_dedup.mp hmem, by simpa using hne⟩
  have hrest : ∀ node ∈ s.unvisited, node ∈ setWithout nodes start :=
    fun node hnode ↦ hsub node (List.mem_append_right _ hnode)
  cases hlast : s.route.getLast? with
  | none => simp [List.getLast?_eq_none_iff.mp hlast] at hroute
  | some last =>
    refine ⟨last, rfl, ?_, ?_, hrest⟩
    · have hmem := List.mem_of_getLast? hlast
      rw [hroute] at hmem
      refine List.mem_cons.mpr ((List.mem_cons.mp hmem).imp_right fun hmid ↦ ?_)
      exact (hstart last (hsub last (List.mem_append_left _ hmid))).1
    · intro hun
      have hmem := List.mem_of_getLast? hlast
      rw [hroute] at hmem
      rcases List.mem_cons.mp hmem with rfl | hmid
      · exact (hstart last (hrest last hun)).2 rfl
      · exact (List.disjoint_of_nodup_append hnodup) hmid hun

theorem maximal_iff (h : (nnFromStart p order nodes endAnchor start).1 ≠ []) :
    ∃ s last, Turn p order nodes endAnchor start s ∧ nnStep p order nodes endAnchor s = none ∧
      s.route.getLast? = some last ∧
      (Maximal p endAnchor (nnFromStart p order nodes endAnchor start).1
        (nnFromStart p order nodes endAnchor start).2 ↔
          ∀ node ∈ s.unvisited, ¬CanFollow p endAnchor last s.currentS node) := by
  obtain ⟨s₀, hinit, hroute, hskip⟩ := nnFromStart_route h
  have hturn : Turn p order nodes endAnchor start (nnFinal p order nodes endAnchor s₀) := nnFinal_turn hinit
  obtain ⟨visits, last, htimed, hlast, hcur⟩ := hturn.inv.timed
  refine ⟨_, last.placeId, hturn, nnLoop_stuck _ s₀ le_rfl, htimed.getLast_place hlast, ?_⟩
  rw [Maximal, hroute, hskip, realStops_append, htimed.scheduleRoute_eq, hlast, ← hcur]
  simp only [Option.some.injEq, exists_eq_left', (order.perm _ _ _).mem_iff]

end Runs

section Sufficient

/-- A loop that is stuck in its last state has no node left that it could have visited. -/
theorem maximal_of_unshadowed (hm : p.matrix.NonNeg) (hv : VisitsNonNeg p)
    (h : (nnFromStart p order nodes endAnchor start).1 ≠ []) (hun : Unshadowed p nodes endAnchor start) :
    Maximal p endAnchor (nnFromStart p order nodes endAnchor start).1
      (nnFromStart p order nodes endAnchor start).2 := by
  obtain ⟨s, last, hturn, hstuck, hlast, hmax⟩ := maximal_iff h
  refine hmax.mpr fun node hnode hfollow ↦ ?_
  obtain ⟨last', hlast', hstop, hvisited, hrest⟩ := Turn.last_stop hturn
  obtain rfl : last = last' := Option.some.inj (hlast.symm.trans hlast')
  obtain ⟨t₀, ht₀, hsince⟩ := Turn.since_start hm hv hturn
  have hne : node ≠ last := fun he ↦ hvisited (he ▸ hnode)
  obtain ⟨leg, hkey⟩ := candidateKey_of_canFollow hv hfollow
  obtain ⟨hbound, hfirst⟩ := hun t₀ ht₀ last hstop s.currentS hsince node (hrest node hnode) hne hfollow _ hkey
  have hperm := order.perm nodes s.route s.unvisited
  obtain ⟨pick, hpick⟩ := scan_isSome (hperm.symm.subset hnode) hkey hbound
  obtain ⟨⟨hmem, _⟩, hpickKey⟩ := scan_least hpick
  obtain ⟨d, hd, _⟩ := candidateKey_departure hpickKey
  by_cases hover : p.dayEndS < d
  · -- the pick overruns the day, so it must come after the node in rank
    have hpickRest : pick ∈ setWithout (setWithout nodes start) last := by
      have hpickIn := hperm.subset hmem
      have hpickNe : pick ≠ last := fun he ↦ hvisited (he ▸ hpickIn)
      exact List.mem_filter.mpr ⟨List.mem_dedup.mpr (hrest pick hpickIn), by simpa using hpickNe⟩
    have hlt := hfirst pick hpickRest _ d hpickKey hd hover
    exact absurd hlt (not_lt.mpr (scan_key_le node (hperm.symm.subset hnode) _ hkey))
  · have hstep := nnStep_eq_some.mpr ⟨last, pick, d, hlast, hpick, hd, not_lt.mp hover, rfl⟩
    rw [hstuck] at hstep
    cases hstep

def DeadlinesBounded (p : DayProblem) (nodes : List PlaceId) : Prop :=
  ∀ node ∈ nodes, ((p.timeWindows node).map TimeWindow.closeS).getD p.dayEndS < large

theorem preferred_of_fits (hv : VisitsNonNeg p) (hb : DeadlinesBounded p nodes) {others : List PlaceId}
    {last node : PlaceId} {t : ℤ} (hnode : node ∈ nodes) (hfollow : CanFollow p endAnchor last t node)
    (hfits : ∀ other ∈ others, ∀ k d, candidateKey p endAnchor last t other = some k →
      departureAfter p last t other = some d → d ≤ p.dayEndS) : Preferred p endAnchor others last t node := by
  obtain ⟨leg, hkey⟩ := candidateKey_of_canFollow hv hfollow
  intro k hk
  obtain rfl := Option.some.inj (hkey.symm.trans hk)
  refine ⟨Prod.Lex.toLex_lt_toLex.mpr (.inl (hb node hnode)), ?_⟩
  intro other hother k' d hk' hd hover
  exact absurd (hfits other hother k' d hk' hd) (not_le.mpr hover)

theorem mem_setWithout {node other : PlaceId} : other ∈ setWithout nodes node ↔ other ∈ nodes ∧ other ≠ node := by
  simp [setWithout]

/-- With an end anchor every node considered leaves time for the leg to it. -/
theorem unshadowed_of_endAnchor {anchor : PlaceId} (hm : p.matrix.NonNeg) (hv : VisitsNonNeg p)
    (hb : DeadlinesBounded p nodes) : Unshadowed p nodes (some anchor) start := by
  intro t₀ _ last _ t _ node hnode _ hfollow
  refine preferred_of_fits hv hb (mem_setWithout.mp hnode).1 hfollow fun other _ k d hk hd ↦ ?_
  obtain ⟨d', hd', hend⟩ := candidateKey_departure hk
  obtain rfl := Option.some.inj (hd.symm.trans hd')
  obtain ⟨back, hback, hle⟩ := reachesEnd_iff.mp hend anchor rfl
  have hnonneg := hm _ _ _ hback
  omega

/-- Every node has a window, and none outlasts the day. -/
def WindowsInDay (p : DayProblem) (nodes : List PlaceId) : Prop :=
  ∀ node ∈ nodes, ∃ tw, p.timeWindows node = some tw ∧ ∀ seg ∈ tw.segments, seg.2 ≤ p.dayEndS

theorem unshadowed_of_windows (hv : VisitsNonNeg p) (hb : DeadlinesBounded p nodes) (hw : WindowsInDay p nodes) :
    Unshadowed p nodes endAnchor start := by
  intro t₀ _ last _ t _ node hnode _ hfollow
  refine preferred_of_fits hv hb (mem_setWithout.mp hnode).1 hfollow fun other hother k d _ hd ↦ ?_
  obtain ⟨leg, startS, _, hstart, rfl⟩ := departureAfter_eq_some.mp hd
  obtain ⟨tw, htw, hclose⟩ := hw other (mem_setWithout.mp (mem_setWithout.mp hother).1).1
  simp only [DayProblem.serviceStart, htw] at hstart
  obtain ⟨_, seg, hseg, _, hfit⟩ := earliestStart_spec hstart
  exact hfit.trans (hclose seg hseg)

end Sufficient

section Necessary

/-- A matrix with only the legs from the start to some nodes. They take as long as those
from another stop, and a delay. -/
def redirected (m : DistanceMatrix) (last start : PlaceId) (delayS : ℤ) (kept : List PlaceId) : DistanceMatrix where
  entries leg :=
    if leg.1 = start ∧ leg.2 ∈ kept then
      (m.get last leg.2).map fun entry ↦ { entry with originId := start, durationS := entry.durationS + delayS }
    else none

def leading (node : PlaceId) : SetOrder where
  enum _ _ unvisited := if node ∈ unvisited then node :: unvisited.erase node else unvisited
  perm _ _ unvisited := by
    split_ifs with hmem
    · exact (List.perm_cons_erase hmem).symm
    · exact .rfl

def delayed (k : ℤ ×ₗ ℤ) (delayS : ℤ) : ℤ ×ₗ ℤ := toLex ((ofLex k).1, (ofLex k).2 + delayS)

theorem delayed_le {k k' : ℤ ×ₗ ℤ} (h : k ≤ k') (delayS : ℤ) : delayed k delayS ≤ delayed k' delayS := by
  rcases Prod.Lex.le_iff.mp h with hclose | ⟨hclose, hleg⟩
  · exact Prod.Lex.toLex_le_toLex.mpr (.inl hclose)
  · exact Prod.Lex.toLex_le_toLex.mpr (.inr ⟨hclose, by omega⟩)

theorem le_delayed (k : ℤ ×ₗ ℤ) {delayS : ℤ} (h : 0 ≤ delayS) : k ≤ delayed k delayS := by
  refine Prod.Lex.le_iff.mpr (.inr ⟨rfl, ?_⟩)
  simp only [delayed, ofLex_toLex]
  omega

def onMatrix (p : DayProblem) (m : DistanceMatrix) : DayProblem := { p with matrix := m }

variable {m : DistanceMatrix} {last : PlaceId} {kept : List PlaceId} {t t₀ : ℤ}

theorem redirected_get {dest : PlaceId} {entry : MatrixEntry} :
    (redirected m last start (t - t₀) kept).get start dest = some entry ↔
      dest ∈ kept ∧ ∃ leg, m.get last dest = some leg ∧
        entry = { leg with originId := start, durationS := leg.durationS + (t - t₀) } := by
  simp only [redirected, DistanceMatrix.get, true_and, Option.ite_none_right_eq_some, Option.map_eq_some_iff,
    @eq_comm _ entry]

theorem redirected_nonNeg (hm : m.NonNeg) (hle : t₀ ≤ t) : (redirected m last start (t - t₀) kept).NonNeg := by
  intro o d e he
  simp only [redirected, DistanceMatrix.get, Option.ite_none_right_eq_some, Option.map_eq_some_iff] at he
  obtain ⟨_, leg, hleg, rfl⟩ := he
  have hlegs := hm last d leg hleg
  dsimp only
  omega

/-- From the start a node kept is reached when it would be from the other stop. -/
theorem redirected_departure (start : PlaceId) (t₀ : ℤ) {node : PlaceId} {d : ℤ}
    (h : departureAfter (onMatrix p m) last t node = some d) (hkept : node ∈ kept) :
    departureAfter (onMatrix p (redirected m last start (t - t₀) kept)) start t₀ node = some d := by
  obtain ⟨leg, startS, hleg, hstart, rfl⟩ := departureAfter_eq_some.mp h
  refine departureAfter_eq_some.mpr ⟨_, startS, redirected_get.mpr ⟨hkept, leg, hleg, rfl⟩, ?_, rfl⟩
  have harrival : t₀ + (leg.durationS + (t - t₀)) = t + leg.durationS := by omega
  rw [harrival]
  exact hstart

theorem redirected_key (start : PlaceId) (t₀ : ℤ) (kept : List PlaceId) {node : PlaceId} {k : ℤ ×ₗ ℤ} :
    candidateKey (onMatrix p (redirected m last start (t - t₀) kept)) none start t₀ node = some k ↔
      node ∈ kept ∧ ∃ k', candidateKey (onMatrix p m) none last t node = some k' ∧
        k = delayed k' (t - t₀) := by
  have harrival : ∀ leg : MatrixEntry, t₀ + (leg.durationS + (t - t₀)) = t + leg.durationS := fun leg ↦ by omega
  simp only [candidateKey_eq_some]
  constructor
  · rintro ⟨entry, startS, closeS, hentry, hslot, hend, rfl⟩
    obtain ⟨hkept, leg, hleg, rfl⟩ := redirected_get.mp hentry
    rw [harrival leg] at hslot
    exact ⟨hkept, _, ⟨leg, startS, closeS, hleg, hslot, rfl, rfl⟩, rfl⟩
  · rintro ⟨hkept, _, ⟨leg, startS, closeS, hleg, hslot, _, rfl⟩, rfl⟩
    refine ⟨_, startS, closeS, redirected_get.mpr ⟨hkept, leg, hleg, rfl⟩, ?_, rfl, rfl⟩
    rw [harrival leg]
    exact hslot

theorem redirected_canFollow {node : PlaceId} (h : CanFollow (onMatrix p m) none last t node) (hkept : node ∈ kept) :
    CanFollow (onMatrix p (redirected m last start (t - t₀) kept)) none start t₀ node := by
  obtain ⟨leg, startS, hleg, hstart, hle, _⟩ := h
  have harrival : t₀ + (leg.durationS + (t - t₀)) = t + leg.durationS := by omega
  refine ⟨_, startS, redirected_get.mpr ⟨hkept, leg, hleg, rfl⟩, ?_, hle, fun _ h ↦ absurd h (Option.not_mem_none _)⟩
  rw [harrival]
  exact hstart

theorem not_maximal_of_break {node : PlaceId} (ht₀ : leaves p start = some t₀) (hday : t₀ ≤ p.dayEndS)
    (hstuck : nnStep p order nodes none ⟨[start], t₀, setWithout nodes start⟩ = none)
    (hnode : node ∈ setWithout nodes start) (hfollow : CanFollow p none start t₀ node) :
    (nnFromStart p order nodes none start).1 ≠ [] ∧
      ¬Maximal p none (nnFromStart p order nodes none start).1 (nnFromStart p order nodes none start).2 := by
  have hinit : nnInit p nodes start = some ⟨[start], t₀, setWithout nodes start⟩ :=
    nnInit_eq_some.mpr ⟨t₀, ht₀, hday, rfl⟩
  have hfirst : ∀ s, Turn p order nodes none start s → s = ⟨[start], t₀, setWithout nodes start⟩ := by
    rintro s ⟨s₀, hs₀, hreach⟩
    obtain rfl := Option.some.inj (hinit.symm.trans hs₀)
    rcases Relation.ReflTransGen.cases_head hreach with he | ⟨s', hstep, _⟩
    · exact he.symm
    · rw [hstuck] at hstep
      cases hstep
  have hne : (nnFromStart p order nodes none start).1 ≠ [] := by
    rw [nnFromStart_eq, hinit]
    simp only [appendEndAnchor, hfirst _ (nnFinal_turn hinit)]
    exact List.cons_ne_nil _ _
  refine ⟨hne, fun hmaximal ↦ ?_⟩
  obtain ⟨s, last, hturn, _, hlast, hmax⟩ := maximal_iff hne
  obtain rfl := hfirst s hturn
  obtain rfl := Option.some.inj hlast
  exact hmax.mp hmaximal node hnode hfollow

def AlwaysMaximal (p : DayProblem) (nodes : List PlaceId) (start : PlaceId) : Prop :=
  ∀ (m : DistanceMatrix) (order : SetOrder), m.NonNeg → (nnFromStart (onMatrix p m) order nodes none start).1 ≠ [] →
    Maximal (onMatrix p m) none (nnFromStart (onMatrix p m) order nodes none start).1
      (nnFromStart (onMatrix p m) order nodes none start).2

theorem redirected_pick (hv : VisitsNonNeg p) (hall : AlwaysMaximal p nodes start) (hm : m.NonNeg)
    (ht₀ : leaves p start = some t₀) (hsince : t₀ ≤ t) {node : PlaceId} (hnode : node ∈ setWithout nodes start)
    (hfollow : CanFollow (onMatrix p m) none last t node) (order : SetOrder) (hkept : node ∈ kept) :
    ∃ pick d, (picked (onMatrix p (redirected m last start (t - t₀) kept)) none start t₀
        (order.enum nodes [start] (setWithout nodes start))).entry = some pick ∧
      departureAfter (onMatrix p (redirected m last start (t - t₀) kept)) start t₀ pick = some d ∧ d ≤ p.dayEndS := by
  by_contra hnone
  have hday : t₀ ≤ p.dayEndS := hsince.trans (CanFollow.in_day (p := onMatrix p m) hm hv hfollow)
  have hstuck : nnStep (onMatrix p (redirected m last start (t - t₀) kept)) order nodes none
      ⟨[start], t₀, setWithout nodes start⟩ = none := by
    by_contra hstep
    obtain ⟨s', hs'⟩ := Option.ne_none_iff_exists'.mp hstep
    obtain ⟨last', pick, d, hlast', hpick, hd, hle, _⟩ := nnStep_eq_some.mp hs'
    obtain rfl := Option.some.inj hlast'
    exact hnone ⟨pick, d, hpick, hd, hle⟩
  obtain ⟨hne, hleft⟩ := not_maximal_of_break (p := onMatrix p (redirected m last start (t - t₀) kept))
    ht₀ hday hstuck hnode (redirected_canFollow hfollow hkept)
  exact hleft (hall _ order (redirected_nonNeg hm hsince) hne)

/-- The legs that shadow a node could be those from the start, and be the only ones. -/
theorem unshadowed_of_maximal (hv : VisitsNonNeg p) (hall : AlwaysMaximal p nodes start) (hm : m.NonNeg) :
    Unshadowed (onMatrix p m) nodes none start := by
  intro t₀ ht₀ last _ t hsince node hnode _ hfollow k hkey
  have hbound : k < largest := by
    obtain ⟨pick, _, hpick, _⟩ :=
      redirected_pick hv hall hm ht₀ hsince hnode hfollow .insertion (List.mem_singleton.mpr rfl)
    obtain ⟨⟨_, kp, hkp, hlt, _⟩, _⟩ := scan_least hpick
    obtain ⟨hkept, k', hk', rfl⟩ := (redirected_key start t₀ _).mp hkp
    obtain rfl := List.mem_singleton.mp hkept
    obtain rfl := Option.some.inj (hkey.symm.trans hk')
    exact (le_delayed k (by omega)).trans_lt hlt
  refine ⟨hbound, ?_⟩
  intro other hother k' d hk' hd hover
  by_contra hlate
  have hle : delayed k' (t - t₀) ≤ delayed k (t - t₀) := delayed_le (not_lt.mp hlate) _
  have hkept : other ∈ [other, node] := List.mem_cons_self
  have hkeys : ∀ c kc, candidateKey (onMatrix p (redirected m last start (t - t₀) [other, node])) none start t₀ c =
      some kc → delayed k' (t - t₀) ≤ kc := by
    intro c kc hc
    obtain ⟨hmem, k'', hk'', rfl⟩ := (redirected_key start t₀ _).mp hc
    rcases List.mem_cons.mp hmem with rfl | hmem
    · obtain rfl := Option.some.inj (hk'.symm.trans hk'')
      exact le_rfl
    · obtain rfl := List.mem_singleton.mp hmem
      obtain rfl := Option.some.inj (hkey.symm.trans hk'')
      exact hle
  -- the other node comes first in the set, so that it wins a tie
  obtain ⟨pick, d', hpick, hd', hfits⟩ := redirected_pick hv hall hm ht₀ hsince hnode hfollow (leading other)
    (List.mem_cons_of_mem other (List.mem_singleton.mpr rfl))
  have henum : (leading other).enum nodes [start] (setWithout nodes start) =
      other :: (setWithout nodes start).erase other := if_pos (mem_setWithout.mp hother).1
  rw [henum] at hpick
  obtain ⟨⟨_, kp, hkp, hlt, _⟩, _⟩ := scan_least hpick
  have hotherKey := (redirected_key start t₀ [other, node]).mpr ⟨hkept, k', hk', rfl⟩
  have hleast : Least (candidateKey (onMatrix p (redirected m last start (t - t₀) [other, node])) none start t₀)
      largest (other :: (setWithout nodes start).erase other) other :=
    ⟨List.mem_cons_self, _, hotherKey, (hkeys pick kp hkp).trans_lt hlt, fun c _ kc hc ↦ hkeys c kc hc⟩
  obtain rfl : other = pick := Option.some.inj ((scan_cons_of_least hleast).symm.trans hpick)
  obtain rfl := Option.some.inj (hd'.symm.trans (redirected_departure start t₀ hd hkept))
  exact absurd hfits (not_le.mpr hover)

end Necessary

def wantedBy (hour : ℤ) : PlaceDoc where
  id := ⟨"65a0000000000000000000d1", by decide +kernel⟩
  preferredHourTo := some hour

def lateWishes : DayProblem where
  matrix := ⟨fun leg ↦ some ⟨leg.1, leg.2, 500, 600⟩⟩
  timeWindows := fun node ↦
    if node = "orsay" then parseTimeWindow (wantedBy 20) 32400 64800 none
    else if node = "kiosk" then parseTimeWindow (wantedBy 21) 32400 64800 none
    else parseTimeWindow (wantedBy 18) 32400 64800 none
  visitDurationsS := fun node ↦ some (if node = "louvre" then 28800 else if node = "orsay" then 7200 else 1200)
  dayStartS := 32400
  dayEndS := 64800

theorem lateWishes_visits : VisitsNonNeg lateWishes := by
  intro node
  simp only [DayProblem.visitS, lateWishes, Option.getD_some]
  split_ifs <;> omega

end TravelPlanner.Maximality
