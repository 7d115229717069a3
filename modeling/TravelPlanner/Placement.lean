import TravelPlanner.PackingRuns
import TravelPlanner.TripRequests

namespace TravelPlanner.Placement

open Clock Requests Windows RouteService RouteAccounting DayPartition Conservation TripRequests OpeningHours
  PackingRuns

def slotDays (p : PlaceDayPreference) : List ℕ := p.dayPreferences.map DaySlot.day

def OpenOn (days : List DayConfig) (docs : PlaceId → Option PlaceDoc) (id : PlaceId) (day : ℕ) : Prop :=
  ∃ cfg, days[day]? = some cfg ∧ OpensDay (periodsOf (docs id)) (googleWeekday cfg.date)

/-- The days a place that is not pinned may be put on: the open ones among its
slots, or among all days when it has none, and all of these when none is open. -/
def Candidate (days : List DayConfig) (docs : PlaceId → Option PlaceDoc) (p : PlaceDayPreference) (day : ℕ) : Prop :=
  if p.dayPreferences = [] then
    day < days.length ∧ (OpenOn days docs p.placeId day ∨ ∀ e, ¬OpenOn days docs p.placeId e)
  else
    day ∈ slotDays p ∧ (OpenOn days docs p.placeId day ∨ ∀ e ∈ slotDays p, ¬OpenOn days docs p.placeId e)

def budgetOf (ctx : TransitionDayContext) : TransitionSide → ℤ
  | .origin => ctx.preVisitBudgetMin
  | _ => ctx.postVisitBudgetMin

/-- Which of the two stays a place is near: the one that is left also when both are as
far, and neither of them without coordinates. -/
def Lies (km : Haversine) (doc : Option PlaceDoc) (origin destination : AccommodationStay) : TransitionSide → Prop
  | .noCoordinates => doc.bind PlaceDoc.lat = none ∨ doc.bind PlaceDoc.lng = none
  | .origin => ∃ lat lng, doc.bind PlaceDoc.lat = some lat ∧ doc.bind PlaceDoc.lng = some lng ∧
      km lat lng origin.lat origin.lng ≤ km lat lng destination.lat destination.lng
  | .destination => ∃ lat lng, doc.bind PlaceDoc.lat = some lat ∧ doc.bind PlaceDoc.lng = some lng ∧
      km lat lng destination.lat destination.lng < km lat lng origin.lat origin.lng

/-- An ordinary day has no sides; on a transfer day a place has the one it lies on. -/
def OnSide (km : Haversine) (contexts : ℕ → Option TransitionDayContext) (docs : PlaceId → Option PlaceDoc)
    (id : PlaceId) (day : ℕ) : Option TransitionSide → Prop
  | none => contexts day = none
  | some side => ∃ ctx, contexts day = some ctx ∧ Lies km (docs id) ctx.origin ctx.destination side

/-- Where a partition has put the places, and how full it has made the sides. -/
structure Partitioned (km : Haversine) (days : List DayConfig) (contexts : ℕ → Option TransitionDayContext)
    (docs : PlaceId → Option PlaceDoc) (places : List PlaceDayPreference) (s : Packing) : Prop where
  pinned : ∀ p ∈ places, ∀ slot, p.dayPreferences = [slot] →
    ∃ side, OnSide km contexts docs p.placeId (DaySlot.day slot) side ∧
      p.placeId ∈ bucketOf s (DaySlot.day slot) side ∧
      ∀ d e, p.placeId ∈ bucketOf s d e → d = DaySlot.day slot ∧ e = side
  unpinned : ∀ p ∈ places, p.dayPreferences.length ≠ 1 → ∀ d e, p.placeId ∈ bucketOf s d e →
    Candidate days docs p d ∧ OnSide km contexts docs p.placeId d e ∧ e ≠ some .noCoordinates
  budget : ∀ d ctx, contexts d = some ctx → ∀ side, side ≠ .noCoordinates →
    (∃ p ∈ places, p.dayPreferences.length ≠ 1 ∧ p.placeId ∈ bucketOf s d (some side)) →
    assignedMin docs (bucketOf s d (some side)) ≤ budgetOf ctx side

variable {km : Haversine} {days : List DayConfig} {contexts : ℕ → Option TransitionDayContext}
  {docs : PlaceId → Option PlaceDoc} {places : List PlaceDayPreference} {t : Tier} {s s' : Packing}

section Sides

theorem transitionSide_lies (km : Haversine) (doc : Option PlaceDoc) (origin destination : AccommodationStay) :
    Lies km doc origin destination (transitionSide km doc origin destination) := by
  unfold transitionSide
  cases hlat : doc.bind PlaceDoc.lat with
  | none => exact .inl hlat
  | some lat =>
    cases hlng : doc.bind PlaceDoc.lng with
    | none => exact .inr hlng
    | some lng =>
      dsimp only
      split_ifs with hnear
      · exact ⟨lat, lng, hlat, hlng, hnear⟩
      · exact ⟨lat, lng, hlat, hlng, not_lt.mp hnear⟩

theorem sideOn_onSide (km : Haversine) (contexts : ℕ → Option TransitionDayContext) (docs : PlaceId → Option PlaceDoc)
    (id : PlaceId) (day : ℕ) : OnSide km contexts docs id day (sideOn km contexts docs id day) := by
  unfold sideOn
  cases hctx : contexts day with
  | none => exact hctx
  | some ctx => exact ⟨ctx, hctx, transitionSide_lies km (docs id) ctx.origin ctx.destination⟩

end Sides

section Candidates

theorem mem_openDays {id : PlaceId} {d : ℕ} : d ∈ openDayIndices (docs id) days ↔
    d < days.length ∧ (OpenOn days docs id d ∨ ∀ e, ¬OpenOn days docs id e) := by
  have hnone : (∀ c ∈ days, ¬OpensDay (periodsOf (docs id)) (googleWeekday c.date)) ↔
      ∀ e, ¬OpenOn days docs id e := by
    constructor
    · rintro h e ⟨c, hc, hopen⟩
      exact h c (List.mem_of_getElem? hc) hopen
    · intro h c hc hopen
      obtain ⟨e, he⟩ := List.mem_iff_getElem?.mp hc
      exact h e ⟨c, he, hopen⟩
  rw [mem_openDayIndices, hnone]
  constructor
  · rintro ⟨cfg, hcfg, hopen⟩
    exact ⟨(List.getElem?_eq_some_iff.mp hcfg).1, hopen.imp_left fun h ↦ ⟨cfg, hcfg, h⟩⟩
  · rintro ⟨hlt, ⟨cfg, hcfg, hopen⟩ | hclosed⟩
    · exact ⟨cfg, hcfg, .inl hopen⟩
    · exact ⟨days[d], List.getElem?_eq_getElem hlt, .inr hclosed⟩

theorem mem_flexibleDays {p : PlaceDayPreference} {d : ℕ} : d ∈ flexibleDays days docs p ↔
    d ∈ slotDays p ∧ (d ∈ openDayIndices (docs p.placeId) days ∨
      ∀ e ∈ slotDays p, e ∉ openDayIndices (docs p.placeId) days) := by
  have hdef : flexibleDays days docs p =
      if (slotDays p).filter (· ∈ openDayIndices (docs p.placeId) days) = [] then slotDays p
      else (slotDays p).filter (· ∈ openDayIndices (docs p.placeId) days) := rfl
  rw [hdef]
  split_ifs with hnil
  · have hnone : ∀ e ∈ slotDays p, e ∉ openDayIndices (docs p.placeId) days := by
      simpa [List.filter_eq_nil_iff] using hnil
    exact ⟨fun h ↦ ⟨h, .inr hnone⟩, fun h ↦ h.1⟩
  · obtain ⟨e, he⟩ := List.exists_mem_of_ne_nil _ hnil
    have he : e ∈ slotDays p ∧ e ∈ openDayIndices (docs p.placeId) days := by simpa using he
    have hsome : ¬∀ e ∈ slotDays p, e ∉ openDayIndices (docs p.placeId) days := fun h ↦ h e he.1 he.2
    simp only [List.mem_filter, decide_eq_true_eq, or_iff_left hsome]

theorem candidateDays_iff {p : PlaceDayPreference} (hp : p ∈ t.members docs places)
    (hslots : SlotsInRange days.length places) {d : ℕ} :
    d ∈ t.candidateDays days docs p ↔ Candidate days docs p d := by
  obtain ⟨hmem, _, hauto⟩ := mem_tier hp
  unfold Candidate
  cases t with
  | auto => rw [if_pos (hauto.mp rfl), Tier.candidateDays, mem_openDays]
  | flexible =>
    have hne : p.dayPreferences ≠ [] := fun h ↦ absurd (hauto.mpr h) (by simp)
    rw [if_neg hne, Tier.candidateDays, mem_flexibleDays]
    have hrange : ∀ e ∈ slotDays p, e < days.length := by
      intro e he
      obtain ⟨slot, hslot, rfl⟩ := List.mem_map.mp he
      exact hslots p hmem slot hslot
    refine and_congr_right fun hd ↦ ?_
    by_cases hclosed : ∀ e, ¬OpenOn days docs p.placeId e
    · -- no trip day is open: every slot counts on both sides
      exact ⟨fun _ ↦ .inr fun e _ ↦ hclosed e, fun _ ↦ .inl (mem_openDays.mpr ⟨hrange d hd, .inr hclosed⟩)⟩
    · have hopen : ∀ e ∈ slotDays p, e ∈ openDayIndices (docs p.placeId) days ↔ OpenOn days docs p.placeId e := by
        intro e he
        rw [mem_openDays, or_iff_left hclosed, and_iff_right (hrange e he)]
      exact or_congr (hopen d hd) (forall₂_congr fun e he ↦ not_congr (hopen e he))

end Candidates

section Provenance

def Belongs (km : Haversine) (days : List DayConfig) (contexts : ℕ → Option TransitionDayContext)
    (docs : PlaceId → Option PlaceDoc) (p : PlaceDayPreference) (d : ℕ) (e : Option TransitionSide) : Prop :=
  e = sideOn km contexts docs p.placeId d ∧ (∀ slot, p.dayPreferences = [slot] → d = DaySlot.day slot) ∧
    (p.dayPreferences.length ≠ 1 → Candidate days docs p d ∧ e ≠ some .noCoordinates)

/-- Every place in a bucket belongs there, and only places that are not pinned
stay unassigned. -/
structure Traced (km : Haversine) (days : List DayConfig) (contexts : ℕ → Option TransitionDayContext)
    (docs : PlaceId → Option PlaceDoc) (places : List PlaceDayPreference) (s : Packing) : Prop where
  buckets : ∀ d e, ∀ id ∈ bucketOf s d e, ∃ p ∈ places, p.placeId = id ∧ Belongs km days contexts docs p d e
  unassigned : ∀ id ∈ skippedIds s.unassigned, ∃ p ∈ places, p.placeId = id ∧ p.dayPreferences.length ≠ 1

theorem Traced.added (h : Traced km days contexts docs places s) {p : PlaceDayPreference} (hp : p ∈ places) {d : ℕ}
    {e : Option TransitionSide} (hbelongs : Belongs km days contexts docs p d e)
    (hadded : Added docs p.placeId d e s s') : Traced km days contexts docs places s' where
  buckets d' e' id hid := by
    rw [hadded.bucket d' e'] at hid
    rcases List.mem_append.mp hid with hold | hnew
    · exact h.buckets d' e' id hold
    · split_ifs at hnew with hhere
      · obtain ⟨rfl, rfl⟩ := hhere
        obtain rfl := List.mem_singleton.mp hnew
        exact ⟨p, hp, rfl, hbelongs⟩
      · cases hnew
  unassigned id hid := h.unassigned id (by rwa [hadded.unassigned] at hid)

theorem reaches_traced (hslots : SlotsInRange days.length places) {first : List PlaceDayPreference}
    (hfirst : first ⊆ t.members docs places) (h : Reaches km days contexts docs places t first s) :
    Traced km days contexts docs places s := by
  refine reaches_invariant (J := Traced km days contexts docs places) ?_ ?_ (fun _ hs ↦ hs) ?_ hfirst h
  · refine ⟨?_, fun id hid ↦ by cases hid⟩
    rintro d (_ | _ | _ | _) id hid <;> cases hid
  · intro p hp slot hslot s s' hs hadded
    refine hs.added hp ⟨rfl, fun slot' hslot' ↦ ?_, fun hlen ↦ absurd (by simp [hslot]) hlen⟩ hadded
    rw [hslot] at hslot'
    rw [(List.cons.inj hslot').1]
  · intro t p hp s s' hs hpacks
    obtain ⟨hmem, hlen, _⟩ := mem_tier hp
    cases hpacks with
    | placed d hd hfits _ hadded =>
      have hcand := (candidateDays_iff hp hslots).mp hd
      refine hs.added hmem ⟨rfl, fun slot hslot ↦ absurd (by simp [hslot]) hlen, fun _ ↦ ⟨hcand, hfits.side⟩⟩ hadded
    | rejected _ _ _ hsame =>
      subst hsame
      refine ⟨hs.buckets, fun id hid ↦ ?_⟩
      simp only [skippedIds, List.map_append, List.map_cons, List.map_nil, List.mem_append, List.mem_singleton] at hid
      rcases hid with hid | rfl
      · exact hs.unassigned id hid
      · exact ⟨p, hmem, rfl, hlen⟩

theorem place_of_id (hids : (places.map PlaceDayPreference.placeId).Nodup) {p q : PlaceDayPreference} (hp : p ∈ places)
    (hq : q ∈ places) (h : p.placeId = q.placeId) : p = q := List.inj_on_of_nodup_map hids hp hq h

theorem Traced.belongs (h : Traced km days contexts docs places s)
    (hids : (places.map PlaceDayPreference.placeId).Nodup) {p : PlaceDayPreference} (hp : p ∈ places) {d : ℕ}
    {e : Option TransitionSide} (hid : p.placeId ∈ bucketOf s d e) : Belongs km days contexts docs p d e := by
  obtain ⟨q, hq, hqid, hbelongs⟩ := h.buckets d e _ hid
  obtain rfl := place_of_id hids hq hp hqid
  exact hbelongs

theorem Traced.not_pinned (h : Traced km days contexts docs places s)
    (hids : (places.map PlaceDayPreference.placeId).Nodup) {p : PlaceDayPreference} (hp : p ∈ places)
    (hid : p.placeId ∈ skippedIds s.unassigned) : p.dayPreferences.length ≠ 1 := by
  obtain ⟨q, hq, hqid, hlen⟩ := h.unassigned _ hid
  obtain rfl := place_of_id hids hq hp hqid
  exact hlen

end Provenance

section Budgets

def Unpinned (places : List PlaceDayPreference) (id : PlaceId) : Prop :=
  ∃ p ∈ places, p.dayPreferences.length ≠ 1 ∧ p.placeId = id

/-- A side of a transfer day that holds a place that is not pinned keeps to its budget. -/
def WithinBudgets (contexts : ℕ → Option TransitionDayContext) (places : List PlaceDayPreference) (s : Packing) :
    Prop :=
  ∀ d ctx, contexts d = some ctx → ∀ side, side ≠ .noCoordinates →
    (∃ id ∈ bucketOf s d (some side), Unpinned places id) → fillOf s d (some side) ≤ budgetOf ctx side

theorem remainingCapacity_side (s : Packing) {d : ℕ} {ctx : TransitionDayContext} (hctx : contexts d = some ctx)
    {side : TransitionSide} (hside : side ≠ .noCoordinates) :
    remainingCapacity days contexts s d (some side) = budgetOf ctx side - fillOf s d (some side) := by
  cases side with
  | noCoordinates => exact absurd rfl hside
  | origin => simp [remainingCapacity, hctx, budgetOf, fillOf]
  | destination => simp [remainingCapacity, hctx, budgetOf, fillOf]

theorem WithinBudgets.placed (h : WithinBudgets contexts places s) {id : PlaceId} {d : ℕ}
    (hfits : Fits km days contexts docs s id d) (hadded : Added docs id d (sideOn km contexts docs id d) s s') :
    WithinBudgets contexts places s' := by
  intro d' ctx hctx side hside hsome
  have hne : some side ≠ some TransitionSide.noCoordinates := fun he ↦ hside (Option.some.inj he)
  rw [hadded.fill d' _ hne]
  split_ifs with hhere
  · obtain ⟨rfl, he⟩ := hhere
    rw [Fits, ← he] at hfits
    have hroom : visitOf docs id ≤ remainingCapacity days contexts s d' (some side) := by
      cases side with
      | noCoordinates => exact absurd rfl hside
      | origin => exact hfits
      | destination => exact hfits
    rw [remainingCapacity_side s hctx hside] at hroom
    omega
  · rw [add_zero]
    refine h d' ctx hctx side hside ?_
    obtain ⟨id', hid', hun⟩ := hsome
    rw [hadded.bucket, if_neg hhere, List.append_nil] at hid'
    exact ⟨id', hid', hun⟩

theorem reaches_withinBudgets (hids : (places.map PlaceDayPreference.placeId).Nodup)
    {first : List PlaceDayPreference} (hfirst : first ⊆ t.members docs places)
    (h : Reaches km days contexts docs places t first s) : WithinBudgets contexts places s := by
  -- while the pinned places are packed no other place is anywhere
  refine reaches_invariant (J := fun s ↦ ∀ d e, ∀ id ∈ bucketOf s d e, ¬Unpinned places id) ?_ ?_ ?_ ?_ hfirst h
  · rintro d (_ | _ | _ | _) id hid <;> cases hid
  · intro p hp slot hslot s s' hs hadded d e id hid
    rw [hadded.bucket] at hid
    rcases List.mem_append.mp hid with hold | hnew
    · exact hs d e id hold
    · split_ifs at hnew
      · obtain rfl := List.mem_singleton.mp hnew
        rintro ⟨q, hq, hlen, hqid⟩
        obtain rfl := place_of_id hids hq hp hqid
        exact hlen (by simp [hslot])
      · cases hnew
  · rintro s hs d ctx _ side _ ⟨id, hid, hun⟩
    exact absurd hun (hs d _ id hid)
  · intro t p _ s s' hs hpacks
    cases hpacks with
    | placed d _ hfits _ hadded => exact hs.placed hfits hadded
    | rejected _ _ _ hsame =>
      subst hsame
      exact hs

end Budgets

theorem mem_dayPlaces {id : PlaceId} {d : ℕ} (h : id ∈ dayPlaces s d) : ∃ e, id ∈ bucketOf s d e := by
  simp only [dayPlaces, List.mem_append] at h
  rcases h with ((h | h) | h) | h
  · exact ⟨none, h⟩
  · exact ⟨some .noCoordinates, h⟩
  · exact ⟨some .origin, h⟩
  · exact ⟨some .destination, h⟩

/-- Every place sits where it belongs, and no side that holds a place that is not
pinned is filled past its budget. -/
theorem partition_placement (km : Haversine) (contexts : ℕ → Option TransitionDayContext)
    (docs : PlaceId → Option PlaceDoc) {days : List DayConfig} {places : List PlaceDayPreference} (hdays : days ≠ [])
    (hslots : SlotsInRange days.length places) (hids : (places.map PlaceDayPreference.placeId).Nodup) :
    ∃ s, partitionPlaces km days contexts docs places = some s ∧
      Partitioned km days contexts docs places s := by
  obtain ⟨s, hs, _, hperm⟩ := partitionPlaces_conserves km contexts docs hdays hslots
  have hreach := partition_reaches hs
  have htraced := reaches_traced hslots (List.Subset.refl _) hreach
  refine ⟨s, hs, ?_, ?_, ?_⟩
  · intro p hp slot hslot
    have hsits : ∀ d e, p.placeId ∈ bucketOf s d e →
        d = DaySlot.day slot ∧ e = sideOn km contexts docs p.placeId (DaySlot.day slot) := by
      intro d e hid
      obtain ⟨hside, hday, _⟩ := htraced.belongs hids hp hid
      obtain rfl := hday slot hslot
      exact ⟨rfl, hside⟩
    have hin : p.placeId ∈ bucketOf s (DaySlot.day slot) (sideOn km contexts docs p.placeId (DaySlot.day slot)) := by
      rcases List.mem_append.mp (hperm.symm.subset (List.mem_map_of_mem hp)) with hplaced | hun
      · obtain ⟨d, _, hd⟩ := List.mem_flatMap.mp hplaced
        obtain ⟨e, he⟩ := mem_dayPlaces hd
        obtain ⟨rfl, rfl⟩ := hsits d e he
        exact he
      · exact absurd (by simp [hslot]) (htraced.not_pinned hids hp hun)
    exact ⟨_, sideOn_onSide km contexts docs p.placeId (DaySlot.day slot), hin, hsits⟩
  · intro p hp hlen d e hid
    obtain ⟨hside, _, hfree⟩ := htraced.belongs hids hp hid
    obtain ⟨hcandidate, hcoordinates⟩ := hfree hlen
    refine ⟨hcandidate, ?_, hcoordinates⟩
    rw [hside]
    exact sideOn_onSide km contexts docs p.placeId d
  · rintro d ctx hctx side hside ⟨p, hp, hlen, hid⟩
    have hne : some side ≠ some TransitionSide.noCoordinates := fun he ↦ hside (Option.some.inj he)
    rw [← reaches_fillsMatch (List.Subset.refl _) hreach d _ hne]
    exact reaches_withinBudgets hids (List.Subset.refl _) hreach d ctx hctx side hside ⟨_, hid, p, hp, hlen, rfl⟩

theorem partition_placement_changeover :
    ∃ s, partitionPlaces gridDistance changeover.days (transferContexts changeover) (docMap changeoverDocs)
      changeover.places = some s ∧
        Partitioned gridDistance changeover.days (transferContexts changeover) (docMap changeoverDocs)
          changeover.places s :=
  have hchecked := checked changeover_valid
  partition_placement gridDistance _ _ hchecked.days hchecked.slots hchecked.ids

end TravelPlanner.Placement
