import TravelPlanner.DayPartition

namespace TravelPlanner.Conservation

open Requests Windows RouteService RouteAccounting DayPartition

variable {km : Haversine} {days : List DayConfig} {contexts : ℕ → Option TransitionDayContext}
  {docs : PlaceId → Option PlaceDoc}

theorem perm_insert {α : Type} (a b : List α) (x : α) : (a ++ [x] ++ b).Perm (x :: (a ++ b)) := by
  rw [← List.append_cons]
  exact List.perm_middle

theorem flatMap_perm_cons {α : Type} {f g : ℕ → List α} {x : α} {day : ℕ} {l : List ℕ} (hl : l.Nodup)
    (hday : day ∈ l) (hx : (g day).Perm (x :: f day)) (hf : ∀ d, d ≠ day → g d = f d) :
    (l.flatMap g).Perm (x :: l.flatMap f) := by
  induction l with
  | nil => simp at hday
  | cons d l ih =>
    obtain ⟨hd, hl⟩ := List.nodup_cons.mp hl
    simp only [List.flatMap_cons]
    by_cases he : d = day
    · subst he
      have hrest : l.flatMap g = l.flatMap f := by
        refine List.flatMap_congr fun e hmem ↦ hf e ?_
        rintro rfl
        exact hd hmem
      rw [hrest]
      exact hx.append_right _
    · have hmem : day ∈ l := (List.mem_cons.mp hday).resolve_left (Ne.symm he)
      rw [hf d he]
      exact ((ih hl hmem).append_left _).trans List.perm_middle

def dayPlaces (s : Packing) (day : ℕ) : List PlaceId :=
  s.buckets day ++ skippedIds (s.preSolverSkipped day) ++ s.preBuckets day ++ s.postBuckets day

def placed (n : ℕ) (s : Packing) : List PlaceId :=
  (List.range n).flatMap (dayPlaces s) ++ skippedIds s.unassigned

/-- Ordinary buckets belong to ordinary days, the others to days with a transfer. -/
structure Separated (contexts : ℕ → Option TransitionDayContext) (s : Packing) : Prop where
  ordinary : ∀ d, contexts d ≠ none → s.buckets d = []
  transfer : ∀ d, contexts d = none → s.preSolverSkipped d = [] ∧ s.preBuckets d = [] ∧ s.postBuckets d = []

structure Placed (contexts : ℕ → Option TransitionDayContext) (n : ℕ) (id : PlaceId) (s s' : Packing) : Prop where
  separated : Separated contexts s → Separated contexts s'
  perm : (placed n s').Perm (id :: placed n s)

theorem Placed.of_day {n day : ℕ} {id : PlaceId} {s s' : Packing} (hday : day < n)
    (hsep : Separated contexts s → Separated contexts s') (hun : s'.unassigned = s.unassigned)
    (hx : (dayPlaces s' day).Perm (id :: dayPlaces s day)) (hf : ∀ d, d ≠ day → dayPlaces s' d = dayPlaces s d) :
    Placed contexts n id s s' where
  separated := hsep
  perm := by
    have h := flatMap_perm_cons List.nodup_range (List.mem_range.mpr hday) hx hf
    simpa only [placed, hun, List.cons_append] using h.append_right _

theorem placeIntoBucket_placed {n day : ℕ} (hday : day < n) (side : Option TransitionSide) (id : PlaceId)
    (visitMin : ℤ) (s : Packing) : Placed contexts n id s (placeIntoBucket contexts day side id visitMin s) := by
  unfold placeIntoBucket
  cases hctx : contexts day with
  | none =>
    refine .of_day hday (fun h ↦ ⟨fun d hd ↦ ?_, h.transfer⟩) rfl ?_ (fun d hd ↦ by simp [dayPlaces, hd])
    · have : d ≠ day := by rintro rfl; exact hd hctx
      simpa [this] using h.ordinary d hd
    · simp [dayPlaces, List.perm_middle]
  | some ctx =>
    have hne : ∀ d, contexts d = none → d ≠ day := by
      rintro d hd rfl
      simp [hctx] at hd
    dsimp only
    split_ifs
    · refine .of_day hday (fun h ↦ ⟨h.ordinary, fun d hd ↦ ?_⟩) rfl ?_ (fun d hd ↦ by simp [dayPlaces, hd])
      · simpa [hne d hd] using h.transfer d hd
      · simp only [dayPlaces, Function.update_self, ← List.append_assoc]
        exact perm_insert _ _ _
    · refine .of_day hday (fun h ↦ ⟨h.ordinary, fun d hd ↦ ?_⟩) rfl ?_ (fun d hd ↦ by simp [dayPlaces, hd])
      · simpa [hne d hd] using h.transfer d hd
      · simp only [dayPlaces, Function.update_self, ← List.append_assoc]
        exact List.perm_append_singleton _ _

theorem reject_placed {n : ℕ} (skip : SkippedPlace) (s : Packing) :
    Placed contexts n skip.placeId s { s with unassigned := s.unassigned ++ [skip] } where
  separated h := ⟨h.ordinary, h.transfer⟩
  perm := by
    simp only [placed, skippedIds, List.map_append, List.map_cons, List.map_nil, ← List.append_assoc]
    exact List.perm_append_singleton _ _

theorem packUnpinned_placed {n : ℕ} {pref : PlaceDayPreference} {candidateDays : List ℕ}
    (hne : candidateDays ≠ []) (hlt : ∀ d ∈ candidateDays, d < n) (s : Packing) :
    ∃ s', packUnpinned km days contexts docs pref candidateDays s = some s' ∧
      Placed contexts n pref.placeId s s' := by
  unfold packUnpinned
  dsimp only
  split
  · next best hbest =>
    refine ⟨_, rfl, placeIntoBucket_placed ?_ _ _ _ _⟩
    have hmem := (List.mem_filter.mp (List.argmax_mem hbest)).1
    obtain ⟨d, hd, rfl⟩ := List.mem_map.mp hmem
    exact hlt d hd
  · generalize hcl : candidateDays.map _ = classified
    have hcl : classified ≠ [] := by simpa [← hcl] using hne
    cases hbest : classified.argmax fun c ↦ remainingCapacity days contexts s c.1 c.2.2 with
    | none => exact absurd (List.argmax_eq_none.mp hbest) hcl
    | some best => exact ⟨_, rfl, reject_placed ⟨pref.placeId, _, rejectionReason best.2.2⟩ s⟩

theorem packPinned_placed {n : ℕ} {pref : PlaceDayPreference} {slot : DaySlot}
    (hslot : pref.dayPreferences = [slot]) (hlt : DaySlot.day slot < n) (s : Packing) :
    ∃ s', packPinned km contexts docs s pref = some s' ∧ Placed contexts n pref.placeId s s' := by
  simp only [packPinned, hslot, List.head?_cons, Option.bind_eq_bind, Option.bind_some, Option.pure_def]
  cases hctx : contexts (DaySlot.day slot) with
  | none => exact ⟨_, rfl, placeIntoBucket_placed hlt _ _ _ _⟩
  | some ctx =>
    dsimp only
    split_ifs
    · refine ⟨_, rfl, .of_day hlt (fun h ↦ ⟨h.ordinary, fun d hd ↦ ?_⟩) rfl ?_
        (fun d hd ↦ by simp [dayPlaces, hd])⟩
      · have : d ≠ DaySlot.day slot := by rintro rfl; simp [hctx] at hd
        simpa [this] using h.transfer d hd
      · simp only [dayPlaces, skippedIds, Function.update_self, List.map_append, List.map_cons, List.map_nil,
          ← List.append_assoc]
        simpa only [skippedIds, List.append_assoc] using
          perm_insert (s.buckets (DaySlot.day slot) ++ skippedIds (s.preSolverSkipped (DaySlot.day slot)))
            (s.preBuckets (DaySlot.day slot) ++ s.postBuckets (DaySlot.day slot)) pref.placeId
    · exact ⟨_, rfl, placeIntoBucket_placed hlt _ _ _ _⟩

theorem openDayIndices_lt (doc : Option PlaceDoc) (days : List DayConfig) :
    ∀ d ∈ openDayIndices doc days, d < days.length := by
  intro d hd
  unfold openDayIndices at hd
  dsimp only at hd
  split_ifs at hd
  · exact List.mem_range.mp hd
  · obtain ⟨c, hc, rfl⟩ := List.mem_map.mp hd
    obtain ⟨cfg, i⟩ := c
    obtain ⟨_, h, _⟩ := List.mem_zipIdx (List.mem_filter.mp hc).1
    omega

theorem openDayIndices_ne_nil (doc : Option PlaceDoc) (hd : days ≠ []) : openDayIndices doc days ≠ [] := by
  unfold openDayIndices
  dsimp only
  split_ifs with h
  · simpa using hd
  · exact fun hr ↦ h (.inr hr)

theorem flexibleDays_ne_nil {pref : PlaceDayPreference} (h : pref.dayPreferences ≠ []) :
    flexibleDays days docs pref ≠ [] := by
  unfold flexibleDays
  dsimp only
  split_ifs with ho
  · simpa using h
  · exact ho

theorem flexibleDays_lt {n : ℕ} {pref : PlaceDayPreference} (h : ∀ s ∈ pref.dayPreferences, DaySlot.day s < n) :
    ∀ d ∈ flexibleDays days docs pref, d < n := by
  have hslots : ∀ d ∈ pref.dayPreferences.map DaySlot.day, d < n := by simpa using h
  unfold flexibleDays
  dsimp only
  split_ifs
  · exact hslots
  · exact fun d hd ↦ hslots d (List.mem_filter.mp hd).1

theorem foldlM_placed (contexts : ℕ → Option TransitionDayContext) (n : ℕ)
    (step : Packing → PlaceDayPreference → Option Packing) (l : List PlaceDayPreference)
    (hstep : ∀ pref ∈ l, ∀ s, ∃ s', step s pref = some s' ∧ Placed contexts n pref.placeId s s') (s : Packing) :
    ∃ s', l.foldlM step s = some s' ∧ (Separated contexts s → Separated contexts s') ∧
      (placed n s').Perm (l.map PlaceDayPreference.placeId ++ placed n s) := by
  induction l generalizing s with
  | nil => exact ⟨s, rfl, id, .rfl⟩
  | cons pref l ih =>
    obtain ⟨s₁, h₁, hp₁⟩ := hstep pref List.mem_cons_self s
    obtain ⟨s₂, h₂, hsep, hp₂⟩ := ih (fun p hp ↦ hstep p (List.mem_cons_of_mem _ hp)) s₁
    refine ⟨s₂, by simp [List.foldlM_cons, h₁, h₂], fun h ↦ hsep (hp₁.separated h), hp₂.trans ?_⟩
    exact (hp₁.perm.append_left _).trans List.perm_middle

theorem tiers_perm (places : List PlaceDayPreference) :
    (auto places ++ (flexible places ++ pinned places)).Perm places := by
  induction places with
  | nil => exact .rfl
  | cons p l ih =>
    unfold auto flexible pinned at *
    rcases hp : p.dayPreferences with _ | ⟨a, _ | ⟨b, rest⟩⟩
    · simpa [List.filter_cons, hp] using ih
    · simp only [List.filter_cons, hp, List.length_cons, List.length_nil]
      simp only [← List.append_assoc] at ih ⊢
      simpa using List.perm_middle.trans (ih.cons p)
    · simpa [List.filter_cons, hp] using List.perm_middle.trans (ih.cons p)

def SlotsInRange (n : ℕ) (places : List PlaceDayPreference) : Prop :=
  ∀ p ∈ places, ∀ s ∈ p.dayPreferences, DaySlot.day s < n

theorem partitionPlaces_conserves (km : Haversine) (contexts : ℕ → Option TransitionDayContext)
    (docs : PlaceId → Option PlaceDoc) {places : List PlaceDayPreference} (hdays : days ≠ [])
    (hslots : SlotsInRange days.length places) :
    ∃ s, partitionPlaces km days contexts docs places = some s ∧ Separated contexts s ∧
      (placed days.length s).Perm (places.map PlaceDayPreference.placeId) := by
  have hempty : Separated contexts {} := ⟨fun _ _ ↦ rfl, fun _ _ ↦ ⟨rfl, rfl, rfl⟩⟩
  obtain ⟨s₁, h₁, hs₁, hp₁⟩ := foldlM_placed contexts days.length (packPinned km contexts docs)
    (pinned places) (fun pref hpref s ↦ by
      obtain ⟨hmem, hlen⟩ := List.mem_filter.mp hpref
      obtain ⟨slot, hslot⟩ := List.length_eq_one_iff.mp (by simpa using hlen)
      exact packPinned_placed hslot (hslots pref hmem slot (by simp [hslot])) s) {}
  obtain ⟨s₂, h₂, hs₂, hp₂⟩ := foldlM_placed contexts days.length (packFlexible km days contexts docs)
    (byRank docs (flexible places)) (fun pref hpref s ↦ by
      obtain ⟨hmem, hlen⟩ := List.mem_filter.mp ((List.mem_insertionSort _).mp hpref)
      have hne : pref.dayPreferences ≠ [] := by
        rintro he
        simp [he] at hlen
      exact packUnpinned_placed (flexibleDays_ne_nil hne) (flexibleDays_lt (hslots pref hmem)) s) s₁
  obtain ⟨s₃, h₃, hs₃, hp₃⟩ := foldlM_placed contexts days.length (packAuto km days contexts docs)
    (byRank docs (auto places)) (fun pref _ s ↦
      packUnpinned_placed (openDayIndices_ne_nil _ hdays) (openDayIndices_lt _ days) s) s₂
  refine ⟨s₃, by simp [partitionPlaces, h₁, h₂, h₃], hs₃ (hs₂ (hs₁ hempty)), ?_⟩
  have hnone : placed days.length {} = [] := by simp [placed, dayPlaces, skippedIds]
  have hf := (List.perm_insertionSort (fun a b ↦ priorityRank (docs a.placeId) ≤ priorityRank (docs b.placeId))
    (flexible places)).map PlaceDayPreference.placeId
  have ha := (List.perm_insertionSort (fun a b ↦ priorityRank (docs a.placeId) ≤ priorityRank (docs b.placeId))
    (auto places)).map PlaceDayPreference.placeId
  calc placed days.length s₃
      |>.Perm ((byRank docs (auto places)).map PlaceDayPreference.placeId ++
        ((byRank docs (flexible places)).map PlaceDayPreference.placeId ++
          ((pinned places).map PlaceDayPreference.placeId ++ placed days.length {}))) :=
        hp₃.trans ((hp₂.trans (hp₁.append_left _)).append_left _)
    _ |>.Perm ((auto places).map PlaceDayPreference.placeId ++
        ((flexible places).map PlaceDayPreference.placeId ++ (pinned places).map PlaceDayPreference.placeId)) := by
        rw [hnone, List.append_nil]
        exact ha.append (hf.append_right _)
    _ |>.Perm (places.map PlaceDayPreference.placeId) := by
        simpa using (tiers_perm places).map PlaceDayPreference.placeId

end TravelPlanner.Conservation
