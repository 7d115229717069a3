import TravelPlanner.PackingRuns
import TravelPlanner.TripRequests

namespace TravelPlanner.PackingOrder

open Clock Requests Windows RouteService RouteAccounting DayPartition Conservation TripRequests PackingRuns

variable {km : Haversine} {days : List DayConfig} {contexts : ℕ → Option TransitionDayContext}
  {docs : PlaceId → Option PlaceDoc} {places : List PlaceDayPreference} {t : Tier} {s s' : Packing}

theorem Added.room_le {id : PlaceId} {day : ℕ} {side : Option TransitionSide} (h : Added docs id day side s s')
    (d : ℕ) (e : Option TransitionSide) :
    remainingCapacity days contexts s' d e ≤ remainingCapacity days contexts s d e := by
  have hgrows : ∀ e, e ≠ some .noCoordinates → fillOf s d e ≤ fillOf s' d e := by
    intro e he
    rw [h.fill d e he]
    have hvisit : 0 ≤ visitOf docs id := Int.natCast_nonneg _
    split_ifs <;> omega
  have hnone := hgrows none (by simp)
  have hpre := hgrows (some .origin) (by simp)
  have hpost := hgrows (some .destination) (by simp)
  simp only [fillOf] at hnone hpre hpost
  unfold remainingCapacity
  cases contexts d with
  | none =>
    dsimp only
    omega
  | some ctx =>
    dsimp only
    split_ifs <;> omega

/-- No side gains room while the tiers run. -/
theorem pack_room_le {p : PlaceDayPreference} (h : t.pack km days contexts docs s p = some s') (d : ℕ)
    (e : Option TransitionSide) :
    remainingCapacity days contexts s' d e ≤ remainingCapacity days contexts s d e := by
  cases packUnpinned_packs h with
  | placed _ _ _ _ hadded => exact Added.room_le hadded d e
  | rejected _ _ _ hsame =>
    subst hsame
    exact le_rfl

theorem packs_room_le {l : List PlaceDayPreference} (h : l.foldlM (t.pack km days contexts docs) s = some s') (d : ℕ)
    (e : Option TransitionSide) :
    remainingCapacity days contexts s' d e ≤ remainingCapacity days contexts s d e := by
  induction l generalizing s with
  | nil =>
    obtain rfl := Option.some.inj h
    exact le_rfl
  | cons p l ih =>
    rw [List.foldlM_cons, Option.bind_eq_bind, Option.bind_eq_some_iff] at h
    obtain ⟨s₁, hstep, hrest⟩ := h
    exact (ih hrest).trans (pack_room_le hstep d e)

/-- A day that had no room for a visit has none for a longer one on the same side. -/
theorem not_fits_longer {id longer : PlaceId} {d : ℕ} (h : ¬Fits km days contexts docs s id d)
    (hside : sideOn km contexts docs longer d = sideOn km contexts docs id d)
    (hroom : remainingCapacity days contexts s' d (sideOn km contexts docs id d) ≤
      remainingCapacity days contexts s d (sideOn km contexts docs id d))
    (hvisit : visitOf docs id ≤ visitOf docs longer) : ¬Fits km days contexts docs s' longer d := by
  unfold Fits at h ⊢
  rw [hside]
  cases he : sideOn km contexts docs id d with
  | none => simp [he] at h
  | some side =>
    rw [he] at h hroom
    cases side with
    | noCoordinates => exact not_false
    | origin => exact fun hfits ↦ h ((hvisit.trans hfits).trans hroom)
    | destination => exact fun hfits ↦ h ((hvisit.trans hfits).trans hroom)

theorem tier_completes (h : partitionPlaces km days contexts docs places = some s) (t : Tier) :
    ∃ s', Reaches km days contexts docs places t (t.members docs places) s' := by
  obtain ⟨s₀, hstart, hrun⟩ := partition_reaches h
  cases t with
  | auto => exact ⟨s, s₀, hstart, hrun⟩
  | flexible =>
    simp only [Tier.start, Option.bind_eq_bind, Option.bind_eq_some_iff] at hstart
    obtain ⟨s₁, hpinned, hflexible⟩ := hstart
    exact ⟨s₀, s₁, hpinned, hflexible⟩

/-- Must-sees come before all others, and optional places after all others. -/
def Outranks (doc other : Option PlaceDoc) : Prop :=
  (doc.bind PlaceDoc.priority = some .mustSee ∧ other.bind PlaceDoc.priority ≠ some .mustSee) ∨
    (other.bind PlaceDoc.priority = some .optional ∧ doc.bind PlaceDoc.priority ≠ some .optional)

def Tier.Holds (p : PlaceDayPreference) : Tier → Prop
  | .flexible => 1 < p.dayPreferences.length
  | .auto => p.dayPreferences = []

/-- When its turn comes after that of a place that was turned away, and it takes no less
time, a place is not put on any day and side that the other could have had. -/
def NotPreferred (km : Haversine) (days : List DayConfig) (contexts : ℕ → Option TransitionDayContext)
    (docs : PlaceId → Option PlaceDoc) (places : List PlaceDayPreference) (t : Tier) (pre : List PlaceDayPreference)
    (rejected : PlaceDayPreference) (mid : List PlaceDayPreference) (later : PlaceDayPreference) : Prop :=
  ∃ s₁ s₂ s₃ s₄, Reaches km days contexts docs places t pre s₁ ∧
    t.pack km days contexts docs s₁ rejected = some s₂ ∧
    mid.foldlM (t.pack km days contexts docs) s₂ = some s₃ ∧ t.pack km days contexts docs s₃ later = some s₄ ∧
    (s₂.unassigned ≠ s₁.unassigned → visitOf docs rejected.placeId ≤ visitOf docs later.placeId →
      ∀ d ∈ t.candidateDays days docs rejected,
        bucketOf s₄ d (sideOn km contexts docs rejected.placeId d) =
          bucketOf s₃ d (sideOn km contexts docs rejected.placeId d))

section Ranks

theorem outranks_iff (doc other : Option PlaceDoc) : Outranks doc other ↔ priorityRank doc < priorityRank other := by
  unfold Outranks priorityRank
  cases doc.bind PlaceDoc.priority with
  | none => cases other.bind PlaceDoc.priority with
    | none => simp
    | some q => cases q <;> simp
  | some p => cases p <;> cases other.bind PlaceDoc.priority with
    | none => simp
    | some q => cases q <;> simp

theorem members_sorted (t : Tier) (docs : PlaceId → Option PlaceDoc) (places : List PlaceDayPreference) :
    (t.members docs places).Pairwise fun p q ↦ ¬Outranks (docs q.placeId) (docs p.placeId) := by
  have hsorted : ∀ l : List PlaceDayPreference,
      (byRank docs l).Pairwise fun p q ↦ ¬Outranks (docs q.placeId) (docs p.placeId) := by
    intro l
    simp only [outranks_iff, not_lt]
    have htrans : IsTrans PlaceDayPreference fun p q ↦ priorityRank (docs p.placeId) ≤ priorityRank (docs q.placeId) :=
      ⟨fun _ _ _ ↦ le_trans⟩
    have htotal : Std.Total fun p q : PlaceDayPreference ↦
        priorityRank (docs p.placeId) ≤ priorityRank (docs q.placeId) := ⟨fun _ _ ↦ le_total _ _⟩
    exact List.pairwise_insertionSort _ l
  cases t with
  | flexible => exact hsorted _
  | auto => exact hsorted _

theorem mem_members {p : PlaceDayPreference} : p ∈ t.members docs places ↔ p ∈ places ∧ Tier.Holds p t := by
  cases t with
  | flexible =>
    rw [Tier.members, byRank, List.mem_insertionSort, flexible, List.mem_filter, decide_eq_true_eq]
    rfl
  | auto =>
    rw [Tier.members, byRank, List.mem_insertionSort, auto, List.mem_filter, decide_eq_true_eq, List.length_eq_zero_iff]
    rfl

theorem outranked_after {pre rest : List PlaceDayPreference} {p lower : PlaceDayPreference}
    (hmembers : t.members docs places = pre ++ p :: rest) (hlower : lower ∈ places) (htier : Tier.Holds lower t)
    (hrank : Outranks (docs p.placeId) (docs lower.placeId)) : lower ∈ rest := by
  have hsorted := members_sorted t docs places
  rw [hmembers] at hsorted
  have hmem : lower ∈ t.members docs places := mem_members.mpr ⟨hlower, htier⟩
  rw [hmembers, List.mem_append, List.mem_cons] at hmem
  rcases hmem with hpre | rfl | hrest
  · exact absurd hrank ((List.pairwise_append.mp hsorted).2.2 lower hpre p List.mem_cons_self)
  · exact absurd ((outranks_iff _ _).mp hrank) (lt_irrefl _)
  · exact hrest

end Ranks

theorem later_not_preferred (t : Tier) {pre mid post : List PlaceDayPreference}
    {rejected later : PlaceDayPreference} (h : partitionPlaces km days contexts docs places = some s)
    (hmembers : t.members docs places = pre ++ rejected :: (mid ++ later :: post)) :
    NotPreferred km days contexts docs places t pre rejected mid later := by
  obtain ⟨s', s₀, hstart, hrun⟩ := tier_completes h t
  simp only [hmembers, List.foldlM_append, List.foldlM_cons, Option.bind_eq_bind, Option.bind_eq_some_iff] at hrun
  obtain ⟨s₁, h₁, s₂, h₂, s₃, h₃, s₄, h₄, _⟩ := hrun
  refine ⟨s₁, s₂, s₃, s₄, ⟨s₀, hstart, h₁⟩, h₂, h₃, h₄, ?_⟩
  intro hrejected hvisit d hd
  have hfull : ¬Fits km days contexts docs s₁ rejected.placeId d := by
    cases packUnpinned_packs h₂ with
    | placed _ _ _ _ hadded => exact absurd hadded.unassigned hrejected
    | rejected _ _ hfull _ => exact hfull d hd
  have hroom := (packs_room_le h₃ d (sideOn km contexts docs rejected.placeId d)).trans
    (pack_room_le h₂ d (sideOn km contexts docs rejected.placeId d))
  cases packUnpinned_packs h₄ with
  | rejected _ _ _ hsame =>
    subst hsame
    rfl
  | placed day _ hfits _ hadded =>
    rw [hadded.bucket]
    split_ifs with hhere
    · obtain ⟨rfl, hside⟩ := hhere
      exact absurd hfits (not_fits_longer hfull hside.symm hroom hvisit)
    · exact List.append_nil _

/-- A place that was turned away is never overtaken: what comes after it in its tier and
takes no less time is not put on any day and side it could have had, and every place of
the tier that it outranks comes after it. -/
theorem no_priority_inversion (t : Tier) {pre rest : List PlaceDayPreference} {rejected : PlaceDayPreference}
    (h : partitionPlaces km days contexts docs places = some s)
    (hmembers : t.members docs places = pre ++ rejected :: rest) :
    (∀ mid later post, rest = mid ++ later :: post →
      NotPreferred km days contexts docs places t pre rejected mid later) ∧
    ∀ lower ∈ places, Tier.Holds lower t → Outranks (docs rejected.placeId) (docs lower.placeId) →
      ∃ mid post, rest = mid ++ lower :: post ∧
        NotPreferred km days contexts docs places t pre rejected mid lower := by
  have hlater : ∀ mid later post, rest = mid ++ later :: post →
      NotPreferred km days contexts docs places t pre rejected mid later := by
    rintro mid later post rfl
    exact later_not_preferred t h hmembers
  refine ⟨hlater, fun lower hmem htier hrank ↦ ?_⟩
  obtain ⟨mid, post, hsplit⟩ := List.append_of_mem (outranked_after hmembers hmem htier hrank)
  exact ⟨mid, post, hsplit, hlater mid lower post hsplit⟩

def castle : PlaceDayPreference := ⟨"castle", [⟨1, some 9, some 10⟩, ⟨1, some 9, some 11⟩]⟩

def palace : PlaceDayPreference := ⟨"palace", [⟨1, some 9, some 10⟩, ⟨1, some 9, some 11⟩]⟩

def longVisits (id : PlaceId) : Option PlaceDoc :=
  changeoverDocs.head?.map fun doc ↦
    { doc with
      visitDurationMin := some (if id = "castle" then 90 else 120)
      priority := some (if id = "castle" then .mustSee else .optional) }

theorem no_priority_inversion_castle :
    (∃ s, partitionPlaces gridDistance changeover.days (transferContexts changeover) longVisits [palace, castle] =
      some s) ∧
    ∃ mid post, [palace] = mid ++ palace :: post ∧
      NotPreferred gridDistance changeover.days (transferContexts changeover) longVisits [palace, castle] .flexible []
        castle mid palace := by
  have hslots : SlotsInRange changeover.days.length [palace, castle] := by
    unfold SlotsInRange
    decide +kernel
  obtain ⟨s, hs, _⟩ := partitionPlaces_conserves gridDistance (transferContexts changeover) longVisits
    (checked changeover_valid).days hslots
  have hmembers : Tier.flexible.members longVisits [palace, castle] = [] ++ castle :: [palace] := by decide +kernel
  have hrank : Outranks (longVisits castle.placeId) (longVisits palace.placeId) :=
    .inl ⟨by decide +kernel, by decide +kernel⟩
  have htier : Tier.Holds palace .flexible := by
    unfold Tier.Holds
    decide +kernel
  exact ⟨⟨s, hs⟩, (no_priority_inversion .flexible hs hmembers).2 palace List.mem_cons_self htier hrank⟩

end TravelPlanner.PackingOrder
