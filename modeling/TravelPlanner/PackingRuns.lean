import TravelPlanner.Conservation
import TravelPlanner.OpeningHours
import TravelPlanner.Runs

namespace TravelPlanner.PackingRuns

open Clock Requests Windows RouteService RouteAccounting DayPartition Runs

def bucketOf (s : Packing) (day : ℕ) : Option TransitionSide → List PlaceId
  | none => s.buckets day
  | some .origin => s.preBuckets day
  | some .destination => s.postBuckets day
  | some .noCoordinates => skippedIds (s.preSolverSkipped day)

def fillOf (s : Packing) (day : ℕ) : Option TransitionSide → ℤ
  | none => s.fill day
  | some .origin => s.preFill day
  | some .destination => s.postFill day
  | some .noCoordinates => 0

section Steps

variable (km : Haversine) (days : List DayConfig) (contexts : ℕ → Option TransitionDayContext)
  (docs : PlaceId → Option PlaceDoc)

/-- The side of a day a place belongs to; an ordinary day has none. -/
def sideOn (id : PlaceId) (day : ℕ) : Option TransitionSide :=
  (contexts day).map fun ctx ↦ transitionSide km (docs id) ctx.origin ctx.destination

def visitOf (id : PlaceId) : ℤ := visitMinOf (docs id)

/-- A day takes a place: always when it is ordinary, within the budget of the
place's side when it has a transfer. -/
def Fits (s : Packing) (id : PlaceId) (day : ℕ) : Prop :=
  match sideOn km contexts docs id day with
  | none => True
  | some .noCoordinates => False
  | some side => visitOf docs id ≤ remainingCapacity days contexts s day (some side)

structure Added (id : PlaceId) (day : ℕ) (side : Option TransitionSide) (s s' : Packing) : Prop where
  bucket : ∀ d e, bucketOf s' d e = bucketOf s d e ++ if d = day ∧ e = side then [id] else []
  fill : ∀ d e, e ≠ some .noCoordinates →
    fillOf s' d e = fillOf s d e + if d = day ∧ e = side then visitOf docs id else 0
  unassigned : s'.unassigned = s.unassigned

/-- What packing a place that is not pinned does. -/
inductive Packs (pref : PlaceDayPreference) (candidateDays : List ℕ) (s s' : Packing) : Prop
  | placed (day : ℕ) (mem : day ∈ candidateDays) (fits : Fits km days contexts docs s pref.placeId day)
      (roomiest : ∀ e ∈ candidateDays, Fits km days contexts docs s pref.placeId e →
        remainingCapacity days contexts s e (sideOn km contexts docs pref.placeId e) ≤
          remainingCapacity days contexts s day (sideOn km contexts docs pref.placeId day))
      (added : Added docs pref.placeId day (sideOn km contexts docs pref.placeId day) s s')
  | rejected (day : ℕ) (mem : day ∈ candidateDays)
      (full : ∀ e ∈ candidateDays, ¬Fits km days contexts docs s pref.placeId e)
      (same : s' = { s with unassigned := s.unassigned ++ [⟨pref.placeId, (docs pref.placeId).bind PlaceDoc.name,
        rejectionReason (sideOn km contexts docs pref.placeId day)⟩] })

end Steps

variable {km : Haversine} {days : List DayConfig} {contexts : ℕ → Option TransitionDayContext}
  {docs : PlaceId → Option PlaceDoc}

theorem admissible_side (s : Packing) (day : ℕ) (id : PlaceId) :
    (admissible km days contexts s day (docs id) (visitOf docs id)).2 = sideOn km contexts docs id day := by
  unfold admissible sideOn
  cases contexts day with
  | none => rfl
  | some ctx =>
    dsimp only [Option.map_some]
    split_ifs <;> rfl

theorem admissible_iff (s : Packing) (day : ℕ) (id : PlaceId) :
    (admissible km days contexts s day (docs id) (visitOf docs id)).1 = true ↔ Fits km days contexts docs s id day := by
  unfold admissible Fits sideOn
  cases contexts day with
  | none => simp
  | some ctx =>
    dsimp only [Option.map_some]
    cases transitionSide km (docs id) ctx.origin ctx.destination <;> simp

theorem placeIntoBucket_added (s : Packing) {id : PlaceId} {day : ℕ}
    (h : sideOn km contexts docs id day ≠ some .noCoordinates) :
    Added docs id day (sideOn km contexts docs id day) s
      (placeIntoBucket contexts day (sideOn km contexts docs id day) id (visitOf docs id) s) := by
  unfold placeIntoBucket
  cases hctx : contexts day with
  | none =>
    have hside : sideOn km contexts docs id day = none := by simp [sideOn, hctx]
    rw [hside]
    refine ⟨?_, ?_, rfl⟩
    · rintro d (_ | _ | _ | _) <;> by_cases hd : d = day <;> simp [bucketOf, hd]
    · rintro d (_ | _ | _ | _) _ <;> by_cases hd : d = day <;> simp [fillOf, hd]
  | some ctx =>
    have hsome : sideOn km contexts docs id day = some (transitionSide km (docs id) ctx.origin ctx.destination) := by
      simp [sideOn, hctx]
    rw [hsome] at h ⊢
    cases hside : transitionSide km (docs id) ctx.origin ctx.destination with
    | noCoordinates => exact absurd (congrArg some hside) h
    | origin =>
      refine ⟨?_, ?_, rfl⟩
      · rintro d (_ | _ | _ | _) <;> by_cases hd : d = day <;> simp [bucketOf, hd]
      · rintro d (_ | _ | _ | _) _ <;> by_cases hd : d = day <;> simp [fillOf, hd]
    | destination =>
      refine ⟨?_, ?_, rfl⟩
      · rintro d (_ | _ | _ | _) <;> by_cases hd : d = day <;> simp [bucketOf, hd]
      · rintro d (_ | _ | _ | _) _ <;> by_cases hd : d = day <;> simp [fillOf, hd]

theorem Fits.side {s : Packing} {id : PlaceId} {day : ℕ} (h : Fits km days contexts docs s id day) :
    sideOn km contexts docs id day ≠ some .noCoordinates := by
  intro he
  rw [Fits, he] at h
  exact h

theorem packUnpinned_packs {pref : PlaceDayPreference} {candidateDays : List ℕ} {s s' : Packing}
    (h : packUnpinned km days contexts docs pref candidateDays s = some s') :
    Packs km days contexts docs pref candidateDays s s' := by
  unfold packUnpinned at h
  dsimp only at h
  have hclass : ∀ c ∈ candidateDays.map
      (fun d ↦ (d, admissible km days contexts s d (docs pref.placeId) (visitMinOf (docs pref.placeId)))),
      c.1 ∈ candidateDays ∧ c.2.2 = sideOn km contexts docs pref.placeId c.1 ∧
        (c.2.1 = true ↔ Fits km days contexts docs s pref.placeId c.1) := by
    intro c hc
    obtain ⟨d, hd, rfl⟩ := List.mem_map.mp hc
    exact ⟨hd, admissible_side s d pref.placeId, admissible_iff s d pref.placeId⟩
  have hmem : ∀ e ∈ candidateDays, (e, admissible km days contexts s e (docs pref.placeId)
      (visitMinOf (docs pref.placeId))) ∈ candidateDays.map
      (fun d ↦ (d, admissible km days contexts s d (docs pref.placeId) (visitMinOf (docs pref.placeId)))) :=
    fun e he ↦ List.mem_map_of_mem he
  generalize candidateDays.map
    (fun d ↦ (d, admissible km days contexts s d (docs pref.placeId) (visitMinOf (docs pref.placeId)))) =
      classified at h hclass hmem
  split at h
  · next best hbest =>
    obtain ⟨hin, hok⟩ := List.mem_filter.mp (List.argmax_mem hbest)
    obtain ⟨hcand, hside, hfits⟩ := hclass best hin
    have hfit := hfits.mp hok
    obtain rfl := Option.some.inj h
    refine .placed best.1 hcand hfit (fun e he hefits ↦ ?_) ?_
    · have hclasse := hclass _ (hmem e he)
      have hnot := List.not_lt_of_mem_argmax (List.mem_filter.mpr ⟨hmem e he, hclasse.2.2.mpr hefits⟩) hbest
      rw [hclasse.2.1, hside] at hnot
      exact not_lt.mp hnot
    · rw [hside]
      exact placeIntoBucket_added s hfit.side
  · next hnone =>
    rw [Option.bind_eq_bind, Option.bind_eq_some_iff] at h
    obtain ⟨best, hbest, h⟩ := h
    obtain ⟨hcand, hside, _⟩ := hclass best (List.argmax_mem hbest)
    refine .rejected best.1 hcand (fun e he hfits ↦ ?_) ?_
    · have hempty := List.argmax_eq_none.mp hnone
      have hok := (hclass _ (hmem e he)).2.2.mpr hfits
      have hin := List.mem_filter (p := fun c ↦ c.2.1) |>.mpr ⟨hmem e he, hok⟩
      rw [hempty] at hin
      cases hin
    · rw [← hside]
      exact (Option.some.inj h).symm

/-- A pinned place goes to its slot's day, on the side it belongs to. -/
theorem packPinned_added {pref : PlaceDayPreference} {slot : DaySlot} (hslot : pref.dayPreferences = [slot])
    {s s' : Packing} (h : packPinned km contexts docs s pref = some s') :
    Added docs pref.placeId (DaySlot.day slot) (sideOn km contexts docs pref.placeId (DaySlot.day slot)) s s' := by
  simp only [packPinned, hslot, List.head?_cons, Option.bind_eq_bind, Option.bind_some, Option.pure_def] at h
  have hadded := fun s ↦ @placeIntoBucket_added km contexts docs s pref.placeId (DaySlot.day slot)
  cases hctx : contexts (DaySlot.day slot) with
  | none =>
    have hside : sideOn km contexts docs pref.placeId (DaySlot.day slot) = none := by simp [sideOn, hctx]
    rw [hside] at hadded ⊢
    rw [hctx] at h
    obtain rfl := Option.some.inj h
    exact hadded s (by simp)
  | some ctx =>
    have hside : sideOn km contexts docs pref.placeId (DaySlot.day slot) =
        some (transitionSide km (docs pref.placeId) ctx.origin ctx.destination) := by simp [sideOn, hctx]
    rw [hside] at hadded ⊢
    rw [hctx] at h
    dsimp only at h
    split_ifs at h with hcoords
    · obtain rfl := Option.some.inj h
      rw [hcoords]
      refine ⟨?_, ?_, rfl⟩
      · rintro d (_ | _ | _ | _) <;> by_cases hd : d = DaySlot.day slot <;> simp [bucketOf, skippedIds, hd]
      · rintro d (_ | _ | _ | _) hne <;> by_cases hd : d = DaySlot.day slot <;> simp [fillOf, hd] at hne ⊢
    · obtain rfl := Option.some.inj h
      exact hadded s (by simp [hcoords])

inductive Tier
  | flexible | auto
  deriving DecidableEq, Repr

section Tiers

variable (km : Haversine) (days : List DayConfig) (contexts : ℕ → Option TransitionDayContext)
  (docs : PlaceId → Option PlaceDoc) (places : List PlaceDayPreference)

def Tier.members : Tier → List PlaceDayPreference
  | .flexible => byRank docs (DayPartition.flexible places)
  | .auto => byRank docs (DayPartition.auto places)

def Tier.candidateDays (pref : PlaceDayPreference) : Tier → List ℕ
  | .flexible => flexibleDays days docs pref
  | .auto => openDayIndices (docs pref.placeId) days

def Tier.pack (t : Tier) (s : Packing) (pref : PlaceDayPreference) : Option Packing :=
  packUnpinned km days contexts docs pref (t.candidateDays days docs pref) s

def Tier.start : Tier → Option Packing
  | .flexible => (pinned places).foldlM (packPinned km contexts docs) {}
  | .auto => do
    let s ← (pinned places).foldlM (packPinned km contexts docs) {}
    (Tier.flexible.members docs places).foldlM (Tier.flexible.pack km days contexts docs) s

def Reaches (t : Tier) (first : List PlaceDayPreference) (s : Packing) : Prop :=
  ∃ s₀, t.start km days contexts docs places = some s₀ ∧ first.foldlM (t.pack km days contexts docs) s₀ = some s

end Tiers

variable {places : List PlaceDayPreference} {t : Tier} {s : Packing}

theorem partition_reaches (h : partitionPlaces km days contexts docs places = some s) :
    Reaches km days contexts docs places .auto (Tier.auto.members docs places) s := by
  simp only [partitionPlaces, Option.bind_eq_bind, Option.bind_eq_some_iff] at h
  obtain ⟨s₁, h₁, s₂, h₂, h₃⟩ := h
  refine ⟨s₂, ?_, h₃⟩
  simp only [Tier.start, Option.bind_eq_bind, Option.bind_eq_some_iff]
  exact ⟨s₁, h₁, h₂⟩

theorem mem_pinned {p : PlaceDayPreference} (h : p ∈ pinned places) :
    p ∈ places ∧ ∃ slot, p.dayPreferences = [slot] := by
  obtain ⟨hmem, hlen⟩ := List.mem_filter.mp h
  exact ⟨hmem, List.length_eq_one_iff.mp (by simpa using hlen)⟩

theorem mem_tier {p : PlaceDayPreference} (h : p ∈ t.members docs places) :
    p ∈ places ∧ p.dayPreferences.length ≠ 1 ∧ (t = .auto ↔ p.dayPreferences = []) := by
  cases t with
  | flexible =>
    obtain ⟨hmem, hlen⟩ := List.mem_filter.mp ((List.mem_insertionSort _).mp h)
    have hlen : 1 < p.dayPreferences.length := by simpa using hlen
    refine ⟨hmem, by omega, ?_⟩
    constructor
    · intro he
      cases he
    · intro he
      simp [he] at hlen
  | auto =>
    obtain ⟨hmem, hlen⟩ := List.mem_filter.mp ((List.mem_insertionSort _).mp h)
    have hnil : p.dayPreferences = [] := by simpa using hlen
    exact ⟨hmem, by simp [hnil], by simp [hnil]⟩

/-- What holds of the empty packing and is kept by every pinned place, then by
every other place, holds at every moment of the tiers. -/
theorem reaches_invariant {J I : Packing → Prop} (hempty : J {})
    (hpin : ∀ p ∈ places, ∀ slot, p.dayPreferences = [slot] → ∀ s s', J s →
      Added docs p.placeId (DaySlot.day slot) (sideOn km contexts docs p.placeId (DaySlot.day slot)) s s' → J s')
    (hmid : ∀ s, J s → I s)
    (hpack : ∀ t : Tier, ∀ p ∈ t.members docs places, ∀ s s', I s →
      Packs km days contexts docs p (t.candidateDays days docs p) s s' → I s')
    {first : List PlaceDayPreference} (hfirst : first ⊆ t.members docs places)
    (h : Reaches km days contexts docs places t first s) : I s := by
  have hpinned : ∀ s, (pinned places).foldlM (packPinned km contexts docs) {} = some s → I s := by
    intro s hs
    refine hmid s (foldlM_invariant hempty hs fun p hp s s' hJ hstep ↦ ?_)
    obtain ⟨hmem, slot, hslot⟩ := mem_pinned hp
    exact hpin p hmem slot hslot s s' hJ (packPinned_added hslot hstep)
  have htier : ∀ (t : Tier) (l : List PlaceDayPreference), l ⊆ t.members docs places → ∀ s s', I s →
      l.foldlM (t.pack km days contexts docs) s = some s' → I s' := by
    intro t l hl s s' hI hs
    exact foldlM_invariant hI hs fun p hp s s' hI hstep ↦ hpack t p (hl hp) s s' hI (packUnpinned_packs hstep)
  obtain ⟨s₀, hstart, hrun⟩ := h
  refine htier t first hfirst s₀ s ?_ hrun
  cases t with
  | flexible => exact hpinned s₀ hstart
  | auto =>
    simp only [Tier.start, Option.bind_eq_bind, Option.bind_eq_some_iff] at hstart
    obtain ⟨s₁, h₁, h₂⟩ := hstart
    exact htier .flexible _ (List.Subset.refl _) s₁ s₀ (hpinned s₁ h₁) h₂

def assignedMin (docs : PlaceId → Option PlaceDoc) (ids : List PlaceId) : ℤ := (ids.map (visitOf docs)).sum

def FillsMatch (docs : PlaceId → Option PlaceDoc) (s : Packing) : Prop :=
  ∀ d e, e ≠ some .noCoordinates → fillOf s d e = assignedMin docs (bucketOf s d e)

theorem Added.fillsMatch {id : PlaceId} {day : ℕ} {side : Option TransitionSide} {s s' : Packing}
    (h : Added docs id day side s s') (hs : FillsMatch docs s) : FillsMatch docs s' := by
  intro d e he
  rw [h.fill d e he, h.bucket d e, hs d e he]
  split_ifs <;> simp [assignedMin]

/-- The minutes kept for a side are those of the places on it, at every moment. -/
theorem reaches_fillsMatch {first : List PlaceDayPreference} (hfirst : first ⊆ t.members docs places)
    (h : Reaches km days contexts docs places t first s) : FillsMatch docs s := by
  refine reaches_invariant (J := FillsMatch docs) ?_ ?_ (fun _ hs ↦ hs) ?_ hfirst h
  · rintro d (_ | _ | _ | _) _ <;> rfl
  · intro p _ slot _ s s' hs hadded
    exact hadded.fillsMatch hs
  · intro t p _ s s' hs hpacks
    cases hpacks with
    | placed _ _ _ _ hadded => exact hadded.fillsMatch hs
    | rejected _ _ _ hsame =>
      subst hsame
      exact hs

end TravelPlanner.PackingRuns
