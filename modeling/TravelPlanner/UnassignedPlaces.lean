import TravelPlanner.AddedTransfers
import TravelPlanner.PackingRuns
import TravelPlanner.TripAccounting

namespace TravelPlanner.UnassignedPlaces

open Clock Requests Windows RouteService RouteAccounting DayPartition Conservation PackingRuns TripService TripRequests
open TripAccounting EditOperations TripEditing EditRuns EditFrame AddedTransfers Fallible FirstMatch

section Packing

def noting (s : Packing) (skips : List SkippedPlace) : Packing := { s with unassigned := skips }

/-- What is left of the notes when some places have never been asked for. -/
def without (gone : PlaceId → Bool) (s : Packing) : Packing :=
  noting s (s.unassigned.filter fun e ↦ !gone e.placeId)

theorem without_noting (gone : PlaceId → Bool) (s : Packing) (skips : List SkippedPlace) :
    without gone (noting s skips) = noting s (skips.filter fun e ↦ !gone e.placeId) := rfl

/-- One place in its turn: it goes to a day, or it is noted, and the notes play no part. -/
inductive Turn (n : ℕ) (step : Packing → Option Packing) (id : PlaceId) (s s' : Packing) : Prop
  | placed {day : ℕ} (hday : day < n) (hin : id ∈ dayPlaces s' day) (hgrows : ∀ d, dayPlaces s d ⊆ dayPlaces s' d)
      (hnotes : s'.unassigned = s.unassigned) (hsame : ∀ skips, step (noting s skips) = some (noting s' skips))
  | noted {skip : SkippedPlace} (hid : skip.placeId = id) (hstate : s' = noting s (s.unassigned ++ [skip]))
      (hsame : ∀ skips, step (noting s skips) = some (noting s (skips ++ [skip])))

variable {km : Haversine} {days : List DayConfig} {contexts : ℕ → Option TransitionDayContext}
  {docs docs' : PlaceId → Option PlaceDoc} {places : List PlaceDayPreference} {pref : PlaceDayPreference}
  {candidateDays : List ℕ} {gone : PlaceId → Bool} {n : ℕ} {step : Packing → Option Packing} {id : PlaceId}
  {s s' : Packing}

theorem mem_dayPlaces {d : ℕ} : id ∈ dayPlaces s d ↔ ∃ side, id ∈ bucketOf s d side := by
  simp only [dayPlaces, List.mem_append]
  constructor
  · rintro (((h | h) | h) | h)
    · exact ⟨none, h⟩
    · exact ⟨some .noCoordinates, h⟩
    · exact ⟨some .origin, h⟩
    · exact ⟨some .destination, h⟩
  · rintro ⟨_ | _ | _ | _, h⟩
    · exact .inl (.inl (.inl h))
    · exact .inl (.inr h)
    · exact .inr h
    · exact .inl (.inl (.inr h))

theorem Added.mem {day : ℕ} {side : Option TransitionSide} (h : Added docs id day side s s') :
    id ∈ dayPlaces s' day := by
  refine mem_dayPlaces.mpr ⟨side, ?_⟩
  rw [h.bucket day side, if_pos ⟨rfl, rfl⟩]
  exact List.mem_append_right _ (List.mem_singleton.mpr rfl)

theorem Added.grows {day : ℕ} {side : Option TransitionSide} (h : Added docs id day side s s') (d : ℕ) :
    dayPlaces s d ⊆ dayPlaces s' d := by
  intro x hx
  obtain ⟨e, he⟩ := mem_dayPlaces.mp hx
  refine mem_dayPlaces.mpr ⟨e, ?_⟩
  rw [h.bucket d e]
  exact List.mem_append_left _ he

theorem placeIntoBucket_noting (day : ℕ) (side : Option TransitionSide) (id : PlaceId) (visitMin : ℤ) (s : Packing)
    (skips : List SkippedPlace) : placeIntoBucket contexts day side id visitMin (noting s skips) =
      noting (placeIntoBucket contexts day side id visitMin s) skips := by
  unfold placeIntoBucket
  cases contexts day with
  | none => rfl
  | some ctx =>
    dsimp only
    split_ifs
    · rfl
    · rfl

theorem packUnpinned_noting (pref : PlaceDayPreference) (candidateDays : List ℕ) (s : Packing)
    (skips : List SkippedPlace) : packUnpinned km days contexts docs pref candidateDays (noting s skips) =
      (packUnpinned km days contexts docs pref candidateDays s).map fun s' ↦
        noting s' (skips ++ s'.unassigned.drop s.unassigned.length) := by
  have hroom : ∀ d side, remainingCapacity days contexts (noting s skips) d side =
      remainingCapacity days contexts s d side := fun _ _ ↦ rfl
  have hadmissible : ∀ d doc visitMin, admissible km days contexts (noting s skips) d doc visitMin =
      admissible km days contexts s d doc visitMin := fun _ _ _ ↦ rfl
  have hkeeps : ∀ day side id visitMin, (placeIntoBucket contexts day side id visitMin s).unassigned =
      s.unassigned := by
    intro day side id visitMin
    unfold placeIntoBucket
    cases contexts day with
    | none => rfl
    | some ctx =>
      dsimp only
      split_ifs
      · rfl
      · rfl
  simp only [packUnpinned, hroom, hadmissible]
  split
  · next best hbest =>
    rw [Option.map_some, placeIntoBucket_noting, hkeeps, List.drop_length, List.append_nil]
  · next hnone =>
    cases (candidateDays.map fun d ↦ (d, admissible km days contexts s d (docs pref.placeId)
        (visitMinOf (docs pref.placeId)))).argmax fun c ↦ remainingCapacity days contexts s c.1 c.2.2 with
    | none => rfl
    | some best =>
      simp only [Option.bind_eq_bind, Option.bind_some, Option.pure_def, Option.map_some, List.drop_left']
      rfl

theorem packUnpinned_turn (hdays : ∀ d ∈ candidateDays, d < n)
    (h : packUnpinned km days contexts docs pref candidateDays s = some s') :
    Turn n (packUnpinned km days contexts docs pref candidateDays) pref.placeId s s' := by
  have hsame : ∀ skips, packUnpinned km days contexts docs pref candidateDays (noting s skips) =
      some (noting s' (skips ++ s'.unassigned.drop s.unassigned.length)) := by
    intro skips
    rw [packUnpinned_noting, h, Option.map_some]
  cases packUnpinned_packs h with
  | placed day hmem hfits hroomiest hadded =>
    refine .placed (hdays day hmem) (Added.mem hadded) (Added.grows hadded) hadded.unassigned fun skips ↦ ?_
    rw [hsame, hadded.unassigned, List.drop_length, List.append_nil]
  | rejected day hmem hfull hstate =>
    subst hstate
    let skip : SkippedPlace := ⟨pref.placeId, (docs pref.placeId).bind PlaceDoc.name,
      rejectionReason (sideOn km contexts docs pref.placeId day)⟩
    have hid : skip.placeId = pref.placeId := rfl
    refine .noted hid rfl fun skips ↦ ?_
    rw [hsame, List.drop_left']
    · rfl
    · rfl

theorem packPinned_turn {slot : DaySlot} (hslot : pref.dayPreferences = [slot]) (hday : DaySlot.day slot < n)
    (h : packPinned km contexts docs s pref = some s') :
    Turn n (fun s ↦ packPinned km contexts docs s pref) pref.placeId s s' := by
  have hadded := packPinned_added hslot h
  refine .placed hday (Added.mem hadded) (Added.grows hadded) hadded.unassigned fun skips ↦ ?_
  simp only [packPinned, hslot, List.head?_cons, Option.bind_eq_bind, Option.bind_some, Option.pure_def] at h ⊢
  cases hctx : contexts (DaySlot.day slot) with
  | none =>
    rw [hctx] at h
    obtain rfl := Option.some.inj h
    exact congrArg some (placeIntoBucket_noting ..)
  | some ctx =>
    rw [hctx] at h
    dsimp only at h ⊢
    split_ifs at h ⊢ with hside
    · obtain rfl := Option.some.inj h
      rfl
    · obtain rfl := Option.some.inj h
      exact congrArg some (placeIntoBucket_noting ..)

/-- No place that is gone has found a day. -/
def Clean (gone : PlaceId → Bool) (n : ℕ) (s : Packing) : Prop := ∀ d < n, ∀ id ∈ dayPlaces s d, gone id = false

theorem Turn.clean (h : Turn n step id s s') (hclean : Clean gone n s') : Clean gone n s := by
  cases h with
  | placed hday hin hgrows => exact fun d hd x hx ↦ hclean d hd x (hgrows d hx)
  | noted hid hstate =>
    subst hstate
    exact hclean

theorem Turn.kept (h : Turn n step id s s') (hid : gone id = false) :
    step (without gone s) = some (without gone s') := by
  cases h with
  | placed hday hin hgrows hnotes hsame =>
    rw [without, hsame, without, hnotes]
  | noted hskip hstate hsame =>
    subst hstate
    rw [without_noting, without, hsame, List.filter_append, List.filter_cons_of_pos (by rw [hskip, hid]; rfl)]
    rfl

/-- A place that is gone and has found no day might as well not have been asked for. -/
theorem Turn.dropped (h : Turn n step id s s') (hid : gone id = true) (hclean : Clean gone n s') :
    without gone s' = without gone s := by
  cases h with
  | placed hday hin =>
    have hstays := hclean _ hday id hin
    rw [hid] at hstays
    cases hstays
  | noted hskip hstate =>
    subst hstate
    rw [without_noting, List.filter_append, List.filter_cons_of_neg (by rw [hskip, hid]; decide), List.filter_nil,
      List.append_nil]
    rfl

theorem tier_without {step : Packing → PlaceDayPreference → Option Packing} {l : List PlaceDayPreference}
    (hturn : ∀ pref ∈ l, ∀ s s', step s pref = some s' → Turn n (fun s ↦ step s pref) pref.placeId s s')
    (h : l.foldlM step s = some s') (hclean : Clean gone n s') :
    Clean gone n s ∧
      (l.filter fun p ↦ !gone p.placeId).foldlM step (without gone s) = some (without gone s') := by
  refine foldlM_filter_view (fun pref hpref s s' hstep ↦ (hturn pref hpref s s' hstep).clean) ?_ ?_ h hclean
  · intro pref hpref hp s s' hstep
    exact (hturn pref hpref s s' hstep).kept (by simpa using hp)
  · intro pref hpref hp s s' hstep hgood
    exact (hturn pref hpref s s' hstep).dropped (by simpa using hp) hgood

theorem byRank_filter (p : PlaceDayPreference → Bool) (l : List PlaceDayPreference) :
    byRank docs (l.filter p) = (byRank docs l).filter p :=
  have : Std.Total fun a b : PlaceDayPreference ↦ priorityRank (docs a.placeId) ≤ priorityRank (docs b.placeId) :=
    ⟨fun _ _ ↦ Nat.le_total _ _⟩
  have : IsTrans PlaceDayPreference fun a b ↦ priorityRank (docs a.placeId) ≤ priorityRank (docs b.placeId) :=
    ⟨fun _ _ _ ↦ Nat.le_trans⟩
  (filter_insertionSort l).symm

theorem clean_of_noted (gone : PlaceId → Bool) (hdays : days ≠ []) (hslots : SlotsInRange days.length places)
    (hids : (places.map PlaceDayPreference.placeId).Nodup)
    (h : partitionPlaces km days contexts docs places = some s)
    (hgone : ∀ p ∈ places, gone p.placeId = true → p.placeId ∈ skippedIds s.unassigned) :
    Clean gone days.length s ∧ ∀ d < days.length, ∀ id ∈ dayPlaces s d, ∃ p ∈ places, p.placeId = id := by
  obtain ⟨t, ht, -, hperm⟩ := partitionPlaces_conserves km contexts docs hdays hslots
  obtain rfl : s = t := Option.some.inj (h.symm.trans ht)
  have hplaced : ∀ d < days.length, ∀ id ∈ dayPlaces s d, id ∈ (List.range days.length).flatMap (dayPlaces s) :=
    fun d hd id hid ↦ List.mem_flatMap.mpr ⟨d, List.mem_range.mpr hd, hid⟩
  have hasked : ∀ d < days.length, ∀ id ∈ dayPlaces s d, ∃ p ∈ places, p.placeId = id := fun d hd id hid ↦
    List.mem_map.mp (hperm.subset (List.mem_append_left _ (hplaced d hd id hid)))
  refine ⟨fun d hd id hid ↦ ?_, hasked⟩
  obtain ⟨p, hp, rfl⟩ := hasked d hd id hid
  by_contra hstays
  have hnoted := hgone p hp (by simpa using hstays)
  exact List.disjoint_of_nodup_append (hperm.nodup_iff.mpr hids) (hplaced d hd _ hid) hnoted

/-- The places that a packing notes are asked for in vain: without them it is the same. -/
theorem partitionPlaces_without (hslots : SlotsInRange days.length places)
    (h : partitionPlaces km days contexts docs places = some s) (hclean : Clean gone days.length s) :
    partitionPlaces km days contexts docs (places.filter fun p ↦ !gone p.placeId) = some (without gone s) := by
  simp only [partitionPlaces, Option.bind_eq_bind, Option.bind_eq_some_iff] at h
  obtain ⟨s₁, h₁, s₂, h₂, h₃⟩ := h
  have hauto : ∀ pref ∈ byRank docs (auto places), ∀ s s', packAuto km days contexts docs s pref = some s' →
      Turn days.length (fun s ↦ packAuto km days contexts docs s pref) pref.placeId s s' := by
    intro pref hpref s s' hstep
    exact packUnpinned_turn (fun d hd ↦ openDayIndices_lt _ days d hd) hstep
  have hflexible : ∀ pref ∈ byRank docs (flexible places), ∀ s s', packFlexible km days contexts docs s pref = some s' →
      Turn days.length (fun s ↦ packFlexible km days contexts docs s pref) pref.placeId s s' := by
    intro pref hpref s s' hstep
    have hin := List.mem_of_mem_filter ((List.mem_insertionSort _).mp hpref)
    exact packUnpinned_turn (flexibleDays_lt (hslots pref hin)) hstep
  have hpinned : ∀ pref ∈ pinned places, ∀ s s', packPinned km contexts docs s pref = some s' →
      Turn days.length (fun s ↦ packPinned km contexts docs s pref) pref.placeId s s' := by
    intro pref hpref s s' hstep
    obtain ⟨hin, slot, hslot⟩ := mem_pinned hpref
    exact packPinned_turn hslot (hslots pref hin slot (hslot ▸ List.mem_singleton.mpr rfl)) hstep
  obtain ⟨hclean₂, hrun₃⟩ := tier_without hauto h₃ hclean
  obtain ⟨hclean₁, hrun₂⟩ := tier_without hflexible h₂ hclean₂
  obtain ⟨-, hrun₁⟩ := tier_without hpinned h₁ hclean₁
  have hstart : without gone {} = {} := rfl
  rw [hstart, pinned, List.filter_comm] at hrun₁
  rw [← byRank_filter, flexible, List.filter_comm] at hrun₂
  rw [← byRank_filter, auto, List.filter_comm] at hrun₃
  simp only [partitionPlaces, Option.bind_eq_bind, Option.bind_eq_some_iff]
  exact ⟨_, hrun₁, _, hrun₂, hrun₃⟩

theorem partitionPlaces_congr (h : ∀ p ∈ places, docs' p.placeId = docs p.placeId) :
    partitionPlaces km days contexts docs' places = partitionPlaces km days contexts docs places := by
  have hrank : ∀ l ⊆ places, byRank docs' l = byRank docs l := by
    intro l hl
    have hsame := List.map_insertionSort (fun a b ↦ priorityRank (docs' a.placeId) ≤ priorityRank (docs' b.placeId))
      (fun a b ↦ priorityRank (docs a.placeId) ≤ priorityRank (docs b.placeId)) id l
      fun a ha b hb ↦ by rw [h a (hl ha), h b (hl hb)]; rfl
    rwa [List.map_id, List.map_id] at hsame
  have hpinned : ∀ pref ∈ pinned places, ∀ s,
      packPinned km contexts docs' s pref = packPinned km contexts docs s pref := by
    intro pref hpref s
    simp only [packPinned, h pref (List.mem_of_mem_filter hpref)]
  have hflexible : ∀ pref ∈ byRank docs (flexible places), ∀ s,
      packFlexible km days contexts docs' s pref = packFlexible km days contexts docs s pref := by
    intro pref hpref s
    have hin := List.mem_of_mem_filter ((List.mem_insertionSort _).mp hpref)
    simp only [packFlexible, flexibleDays, packUnpinned, h pref hin]
  have hauto : ∀ pref ∈ byRank docs (auto places), ∀ s,
      packAuto km days contexts docs' s pref = packAuto km days contexts docs s pref := by
    intro pref hpref s
    have hin := List.mem_of_mem_filter ((List.mem_insertionSort _).mp hpref)
    simp only [packAuto, packUnpinned, h pref hin]
  rw [partitionPlaces, partitionPlaces, hrank (flexible places) (List.filter_subset_self _),
    hrank (auto places) (List.filter_subset_self _)]
  simp only [foldlM_congr hpinned, foldlM_congr hflexible, foldlM_congr hauto]

end Packing

section Days

variable {request : MultiDayRequest} {docs docs' : PlaceId → Option PlaceDoc} {packing : Packing} {w : World}
  {places : List PlaceDayPreference} {skips : List SkippedPlace} {day : ℕ} {ids : List PlaceId}

theorem buildDayDocs_congr (h : ∀ id ∈ ids, dayDoc places docs' day id = dayDoc request.places docs day id) :
    buildDayDocs places docs' day ids = buildDayDocs request.places docs day ids :=
  List.filterMap_congr h

theorem windowSkipped_congr {budgetMin : ℤ} {reason : SkipReason} (h : ∀ id ∈ ids, docs' id = docs id) :
    windowSkipped docs' ids budgetMin reason = windowSkipped docs ids budgetMin reason := by
  rw [windowSkipped, windowSkipped, List.map_congr_left fun id hid ↦ by rw [h id hid]]

def SameFor (request : MultiDayRequest) (docs docs' : PlaceId → Option PlaceDoc) (places : List PlaceDayPreference)
    (day : ℕ) (id : PlaceId) : Prop :=
  docs' id = docs id ∧ dayDoc places docs' day id = dayDoc request.places docs day id

theorem planDay_congr {cfg : DayConfig} (h : ∀ id ∈ dayPlaces packing day, SameFor request docs docs' places day id) :
    planDay { request with places := places } docs' (noting packing skips) w cfg day =
      planDay request docs packing w cfg day := by
  have hmain : ∀ id ∈ packing.buckets day, SameFor request docs docs' places day id := fun id hid ↦
    h id (mem_dayPlaces.mpr ⟨none, hid⟩)
  have hpre : ∀ id ∈ packing.preBuckets day, SameFor request docs docs' places day id := fun id hid ↦
    h id (mem_dayPlaces.mpr ⟨some .origin, hid⟩)
  have hpost : ∀ id ∈ packing.postBuckets day, SameFor request docs docs' places day id := fun id hid ↦
    h id (mem_dayPlaces.mpr ⟨some .destination, hid⟩)
  have hcontext : transferContexts { request with places := places } day = transferContexts request day := rfl
  rw [planDay, planDay, hcontext]
  cases transferContexts request day with
  | none =>
    have hcall : ordinaryCall { request with places := places } docs' (noting packing skips) cfg day =
        ordinaryCall request docs packing cfg day := by
      simp only [ordinaryCall, noting, buildDayDocs_congr fun id hid ↦ (hmain id hid).2]
    rw [hcall]
  | some ctx =>
    have hcallPre : preCall { request with places := places } docs' (noting packing skips) cfg day ctx =
        preCall request docs packing cfg day ctx := by
      simp only [preCall, noting, buildDayDocs_congr fun id hid ↦ (hpre id hid).2]
    have hcallPost : postCall { request with places := places } docs' (noting packing skips) cfg day ctx =
        postCall request docs packing cfg day ctx := by
      simp only [postCall, noting, buildDayDocs_congr fun id hid ↦ (hpost id hid).2]
    have hsegmentPre : preSegment docs' (noting packing skips) day ctx = preSegment docs packing day ctx := by
      funext result
      simp only [preSegment, noting, windowSkipped_congr fun id hid ↦ (hpre id hid).1]
    have hsegmentPost : postSegment docs' (noting packing skips) day ctx = postSegment docs packing day ctx := by
      funext result
      simp only [postSegment, noting, windowSkipped_congr fun id hid ↦ (hpost id hid).1]
    dsimp only
    rw [buildTransitionDayPlan, buildTransitionDayPlan, hcallPre, hcallPost, hsegmentPre, hsegmentPost]
    rfl

theorem planDays_congr {l : List (DayConfig × ℕ)}
    (h : ∀ x ∈ l, ∀ id ∈ dayPlaces packing x.2, SameFor request docs docs' places x.2 id) :
    planDays { request with places := places } docs' (noting packing skips) w l =
      planDays request docs packing w l := by
  induction l with
  | nil => rfl
  | cons x l ih =>
    rw [planDays, planDays, planDay_congr (h x List.mem_cons_self), ih fun y hy ↦ h y (List.mem_cons_of_mem _ hy)]

theorem slotFor_filter (keep : PlaceId → Bool) {id : PlaceId} (hid : keep id = true) :
    slotFor (places.filter fun p ↦ keep p.placeId) id day = slotFor places id day := by
  have hslots : ((places.filter fun p ↦ keep p.placeId).flatMap fun p ↦ p.dayPreferences.map (p.placeId, ·)) =
      (places.flatMap fun p ↦ p.dayPreferences.map (p.placeId, ·)).filter fun s ↦ keep s.1 := by
    induction places with
    | nil => rfl
    | cons p places ih =>
      rw [List.flatMap_cons, List.filter_append, ← ih, List.filter_map]
      cases hp : keep p.placeId with
      | true => simp [hp, Function.comp_def]
      | false => simp [hp, Function.comp_def]
  rw [slotFor, slotFor, hslots, ← List.filter_reverse, List.find?_filter]
  congr 2
  funext s
  by_cases hs : s.1 = id
  · simp [hs, hid]
  · simp [hs]

end Days

section Removals

variable {request data data' : MultiDayRequest} {library : List PlaceDoc} {ids names : List PlaceId}

def fetchPlacesByIds (library : List PlaceDoc) (placeIds : List PlaceId) : List PlaceDoc :=
  placeIds.filterMap fun id ↦ library.find? (·.id.hex = id)

theorem docMap_fetchPlacesByIds (library : List PlaceDoc) {id : PlaceId} (hid : id ∈ ids) :
    docMap (fetchPlacesByIds library ids) id = library.find? (·.id.hex = id) := by
  have hkey : ∀ x doc, library.find? (·.id.hex = x) = some doc → doc.id.hex = x := fun x doc hfound ↦ by
    simpa using List.find?_some hfound
  cases hdoc : docMap (fetchPlacesByIds library ids) id with
  | some doc =>
    obtain ⟨x, -, hfound⟩ := List.mem_filterMap.mp (docMap_mem hdoc)
    rw [← docMap_id hdoc, hkey x doc hfound, hfound]
  | none =>
    cases hfound : library.find? (·.id.hex = id) with
    | none => rfl
    | some doc =>
      have hfetched : doc ∈ fetchPlacesByIds library ids := List.mem_filterMap.mpr ⟨id, hid, hfound⟩
      have hmissed := List.find?_eq_none.mp hdoc doc (List.mem_reverse.mpr hfetched)
      exact absurd (hkey id doc hfound) (by simpa using hmissed)

/-- A place has the same document in the fetch of a trip and in that of a part of it. -/
theorem docMap_fetch_filter (library : List PlaceDoc) {places : List PlaceDayPreference}
    (keep : PlaceDayPreference → Bool) {p : PlaceDayPreference} (hp : p ∈ places) (hkeep : keep p = true) :
    docMap (fetchPlacesByIds library ((places.filter keep).map PlaceDayPreference.placeId)) p.placeId =
      docMap (fetchPlacesByIds library (places.map PlaceDayPreference.placeId)) p.placeId := by
  have hrest : p ∈ places.filter keep := List.mem_filter.mpr ⟨hp, hkeep⟩
  rw [docMap_fetchPlacesByIds library (List.mem_map_of_mem hp),
    docMap_fetchPlacesByIds library (List.mem_map_of_mem hrest)]

theorem optimizeTrip_ok_iff {km : Haversine} {w : World} {docs : List PlaceDoc} {plan : MultiDayResponse} :
    optimizeTrip km w request docs = .ok plan ↔ ∃ packing, partition km request docs = some packing ∧
      planDays request (docMap docs) packing w request.days.zipIdx = .ok plan.days ∧
      plan = ⟨plan.days, request.transportMode, packing.unassigned⟩ := by
  unfold optimizeTrip
  cases partition km request docs with
  | none => simp
  | some packing =>
    simp only [bind_eq_ok, pure_eq_ok, Option.some.injEq, exists_eq_left']
    constructor
    · intro h
      obtain ⟨days, hdays, rfl⟩ := h
      exact ⟨hdays, rfl⟩
    · intro h
      exact ⟨plan.days, h.1, h.2.symm⟩

/-- A trip without some places that its plan had no room for. -/
theorem optimizeTrip_without (km : Haversine) (w : World) (library : List PlaceDoc) {plan : MultiDayResponse}
    (gone : PlaceId → Bool) (hvalid : request.Valid)
    (hplan : optimizeTrip km w request (fetchPlacesByIds library (request.places.map PlaceDayPreference.placeId)) =
      .ok plan) (hgone : ∀ id, gone id = true → id ∈ skippedIds plan.unassigned) :
    optimizeTrip km w { request with places := request.places.filter fun p ↦ !gone p.placeId }
        (fetchPlacesByIds library ((request.places.filter fun p ↦ !gone p.placeId).map PlaceDayPreference.placeId)) =
      .ok { plan with unassigned := plan.unassigned.filter fun e ↦ !gone e.placeId } := by
  have hc := checked hvalid
  obtain ⟨packing, hpart, hdays, hshape⟩ := optimizeTrip_ok_iff.mp hplan
  have hnoted : plan.unassigned = packing.unassigned := congrArg MultiDayResponse.unassigned hshape
  have hmode : plan.transportMode = request.transportMode := congrArg MultiDayResponse.transportMode hshape
  obtain ⟨hclean, hasked⟩ := clean_of_noted gone hc.days hc.slots hc.ids hpart
    fun p _ hp ↦ hnoted ▸ hgone _ hp
  refine optimizeTrip_ok_iff.mpr ⟨without gone packing, ?_, ?_, by rw [hnoted, hmode]; rfl⟩
  · rw [← partitionPlaces_without hc.slots hpart hclean]
    refine partitionPlaces_congr fun p hp ↦ ?_
    obtain ⟨hin, hstays⟩ := List.mem_filter.mp hp
    exact docMap_fetch_filter library _ hin hstays
  · refine Eq.trans (planDays_congr fun x hx id hid ↦ ?_) hdays
    have hday := (List.getElem?_eq_some_iff.mp (List.mem_zipIdx_iff_getElem?.mp hx)).1
    obtain ⟨p, hp, rfl⟩ := hasked x.2 hday id hid
    have hstays : (!gone p.placeId) = true := by rw [hclean x.2 hday _ hid, Bool.not_false]
    have hdoc := docMap_fetch_filter library (fun p ↦ !gone p.placeId) hp hstays
    refine ⟨hdoc, ?_⟩
    rw [dayDoc, dayDoc, hdoc, slotFor_filter (fun id ↦ !gone id) hstays]

def removals (names : List PlaceId) : List TripEditOperation := names.map fun id ↦ .direct (.removePlace ⟨id⟩)

theorem accommodationOps_removals (names : List PlaceId) : accommodationOps (removals names) = [] := by
  rw [accommodationOps, removals, List.filterMap_map]
  exact List.filterMap_eq_nil_iff.mpr fun _ _ ↦ rfl

theorem directOps_removals (names : List PlaceId) :
    directOps (removals names) = names.map fun id ↦ .removePlace ⟨id⟩ := by
  rw [directOps, removals, List.filterMap_map]
  exact congrFun List.filterMap_eq_map names

theorem handleAll_removals (h : handleAll (names.map fun id ↦ .removePlace ⟨id⟩) data = .ok data') :
    data' = { data with places := data.places.filter fun p ↦ p.placeId ∉ names } := by
  induction names generalizing data with
  | nil =>
    obtain rfl := Except.ok.inj h
    simp
  | cons id names ih =>
    obtain ⟨next, hnext, h⟩ := bind_eq_ok.mp h
    cases handled_of_ok hnext with
    | placeRemoved hfound hcount =>
      rw [ih h, List.filter_filter]
      simp only [List.mem_cons, not_or, Bool.decide_and, Bool.and_comm]

theorem removals_outcome {outcome : ApplyOutcome} {after : MultiDayRequest} (hvalid : request.Valid)
    (h : applyOperations request (removals names) = .ok (outcome, after)) :
    outcome.request = { request with places := request.places.filter fun p ↦ p.placeId ∉ names } := by
  obtain ⟨-, resolved, data, haccepted⟩ := accepted_of_ok h
  have hhandled := haccepted.handled
  rw [directOps_removals] at hhandled
  have hstays : withStays request (removals names) resolved = request := by
    have hresolved := haccepted.selectors
    rw [accommodationOps_removals] at hresolved
    obtain rfl := Except.ok.inj hresolved
    rw [withStays, accommodationOps_removals]
    simp [applyAccommodationOps]
  rw [hstays] at hhandled
  have hdata := handleAll_removals hhandled
  have hkept : (data.transfers.filter (keepsTransfer data (request.transfers.map TransferBlock.date))) =
      request.transfers := by
    rw [hdata]
    refine List.filter_eq_self.mpr fun t ht ↦ ?_
    rw [keepsTransfer_old ht]
    have hchangeover : isChangeover request.days request.accommodations t.date = true := changeover_of_valid hvalid ht
    exact hchangeover
  rw [haccepted.reconciled.request, hkept, hdata]

def ferryTrip : MultiDayRequest where
  days := [{ date := dayTwo }]
  places := [⟨"65f0c0ffee00000000006b01", []⟩, ⟨"65f0c0ffee00000000006b02", []⟩, ⟨"65f0c0ffee00000000006b03", []⟩]
  accommodations :=
    [{ name := "Mainland", lat := 50, lng := 10, checkInDate := dayOne, checkOutDate := dayTwo },
     { name := "Island", lat := 40, lng := 10, checkInDate := dayTwo, checkOutDate := dayThree }]
  transfers :=
    [{ date := dayTwo
       departureTime := secondsToTime (12 * 3600)
       arrivalTime := secondsToTime (14 * 3600) }]

def ferryLibrary : List PlaceDoc :=
  [{ id := ⟨"65f0c0ffee00000000006b01", by decide +kernel⟩, lat := some 50, lng := some 11 },
   { id := ⟨"65f0c0ffee00000000006b02", by decide +kernel⟩, name := some "Mill" },
   { id := ⟨"65f0c0ffee00000000006b03", by decide +kernel⟩, lat := some 40, lng := some 11 }]

theorem ferryTrip_valid : ferryTrip.Valid := by decide +kernel

def ferryDocs : List PlaceDoc :=
  fetchPlacesByIds ferryLibrary (ferryTrip.places.map PlaceDayPreference.placeId)

theorem ferryTrip_partition : (partition gridDistance ferryTrip ferryDocs).map Packing.unassigned =
    some [⟨"65f0c0ffee00000000006b02", some "Mill", .noCoordinates⟩] := by decide +kernel

def withoutMill : MultiDayRequest :=
  { ferryTrip with places := [⟨"65f0c0ffee00000000006b01", []⟩, ⟨"65f0c0ffee00000000006b03", []⟩] }

end Removals

end TravelPlanner.UnassignedPlaces
