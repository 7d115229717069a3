import TravelPlanner.PackingRuns
import TravelPlanner.TripRequests

namespace TravelPlanner.PackingBalance

open Clock Requests Windows RouteService RouteAccounting DayPartition Conservation TripRequests PackingRuns

/-- The effective window of a day in seconds: an explicit time wins over the hour. -/
def effectiveS (days : List DayConfig) (day : ℕ) : ℤ :=
  match days[day]? with
  | some cfg =>
    resolveDayBoundS cfg.dayEndHour cfg.dayEndTime - resolveDayBoundS cfg.dayStartHour cfg.dayStartTime
  | none => 0

def effectiveRoom (days : List DayConfig) (docs : PlaceId → Option PlaceDoc) (s : Packing) (day : ℕ) : ℚ :=
  (effectiveS days day : ℚ) / 60 - assignedMin docs (bucketOf s day none)

/-- No place that is not pinned is put on an ordinary day while another ordinary
day it could have has more room left. -/
def Balanced (km : Haversine) (days : List DayConfig) (contexts : ℕ → Option TransitionDayContext)
    (docs : PlaceId → Option PlaceDoc) (places : List PlaceDayPreference) : Prop :=
  ∀ (t : Tier) pre p post s s', t.members docs places = pre ++ p :: post →
    Reaches km days contexts docs places t pre s → t.pack km days contexts docs s p = some s' →
    ∀ d, contexts d = none → bucketOf s' d none ≠ bucketOf s d none →
      ∀ e ∈ t.candidateDays days docs p, contexts e = none → effectiveRoom days docs s e ≤ effectiveRoom days docs s d

def surplusS (days : List DayConfig) (day : ℕ) : ℤ := 60 * capacity days day - effectiveS days day

def Ordinary (days : List DayConfig) (contexts : ℕ → Option TransitionDayContext) (day : ℕ) : Prop :=
  day < days.length ∧ contexts day = none

def EvenDays (days : List DayConfig) (contexts : ℕ → Option TransitionDayContext) : Prop :=
  ∀ d e, Ordinary days contexts d → Ordinary days contexts e → surplusS days d = surplusS days e

def EvenChoices (days : List DayConfig) (contexts : ℕ → Option TransitionDayContext)
    (docs : PlaceId → Option PlaceDoc) (places : List PlaceDayPreference) : Prop :=
  ∀ (t : Tier), ∀ p ∈ t.members docs places, ∀ d ∈ t.candidateDays days docs p, ∀ e ∈ t.candidateDays days docs p,
    contexts d = none → contexts e = none → surplusS days d = surplusS days e

variable {km : Haversine} {days : List DayConfig} {contexts : ℕ → Option TransitionDayContext}
  {docs : PlaceId → Option PlaceDoc} {places : List PlaceDayPreference} {s s' : Packing}

theorem sideOn_ordinary {d : ℕ} (h : contexts d = none) (id : PlaceId) : sideOn km contexts docs id d = none := by
  simp [sideOn, h]

theorem remainingCapacity_ordinary {d : ℕ} (h : contexts d = none) (e : Option TransitionSide) :
    remainingCapacity days contexts s d e = capacity days d - fillOf s d none := by
  simp [remainingCapacity, h, fillOf]

theorem effectiveRoom_le_iff (hs : FillsMatch docs s) (d e : ℕ) :
    effectiveRoom days docs s e ≤ effectiveRoom days docs s d ↔
      surplusS days d - surplusS days e ≤
        60 * ((capacity days d - fillOf s d none) - (capacity days e - fillOf s e none)) := by
  have hd := hs d none (by simp)
  have he := hs e none (by simp)
  rw [effectiveRoom, effectiveRoom, ← hd, ← he]
  have hminutes : ∀ d, (effectiveS days d : ℚ) / 60 - fillOf s d none =
      ((60 * (capacity days d - fillOf s d none) - surplusS days d : ℤ) : ℚ) / 60 := by
    intro d
    rw [surplusS]
    push_cast
    ring
  rw [hminutes d, hminutes e, div_le_div_iff_of_pos_right (by norm_num), Int.cast_le]
  omega

/-- The day that takes the place has most room by the hours, so most effective
room where the two agree up to a constant. -/
theorem balanced_of_evenChoices (h : EvenChoices days contexts docs places) :
    Balanced km days contexts docs places := by
  intro t pre p post s s' hmembers hreach hstep d hd hput e he hordinary
  have hp : p ∈ t.members docs places := by simp [hmembers]
  have hpre : pre ⊆ t.members docs places := by simp [hmembers]
  rw [effectiveRoom_le_iff (reaches_fillsMatch hpre hreach)]
  cases packUnpinned_packs hstep with
  | rejected _ _ _ hsame =>
    subst hsame
    exact absurd rfl hput
  | placed day hmem _ hroomiest hadded =>
    rw [hadded.bucket] at hput
    have hday : d = day := by
      by_contra hne
      simp [hne] at hput
    subst hday
    have hfits : Fits km days contexts docs s p.placeId e := by
      rw [Fits, sideOn_ordinary hordinary]
      trivial
    have hroom := hroomiest e he hfits
    rw [remainingCapacity_ordinary hordinary, remainingCapacity_ordinary hd] at hroom
    have heven := h t p hp d hmem e he hd hordinary
    omega

theorem evenChoices_of_evenDays (h : EvenDays days contexts) (hslots : SlotsInRange days.length places) :
    EvenChoices days contexts docs places := by
  have hrange : ∀ (t : Tier), ∀ p ∈ t.members docs places, ∀ d ∈ t.candidateDays days docs p, d < days.length := by
    intro t p hp d hd
    cases t with
    | flexible => exact flexibleDays_lt (hslots p (mem_tier hp).1) d hd
    | auto => exact openDayIndices_lt _ days d hd
  intro t p hp d hd e he hd' he'
  exact h d e ⟨hrange t p hp d hd, hd'⟩ ⟨hrange t p hp e he, he'⟩

section Ties

theorem packUnpinned_tie {p : PlaceDayPreference} {i j : ℕ} (hi : contexts i = none) (hj : contexts j = none)
    (hle : capacity days i - fillOf s i none ≤ capacity days j - fillOf s j none) :
    packUnpinned km days contexts docs p [j, i] s =
      some (placeIntoBucket contexts j none p.placeId (visitOf docs p.placeId) s) := by
  have hroom : ¬remainingCapacity days contexts s j none < remainingCapacity days contexts s i none := by
    rw [remainingCapacity_ordinary hi, remainingCapacity_ordinary hj]
    exact not_lt.mpr hle
  simp [packUnpinned, admissible, hi, hj, List.argmax, List.argAux, hroom, visitOf]

def filler (id : ObjectId) (minutes : ℕ) : PlaceDoc := { id := id, visitDurationMin := some minutes }

def castleId : ObjectId := ⟨"65a0000000000000000000d3", by decide +kernel⟩

def palaceId : ObjectId := ⟨"65a0000000000000000000d4", by decide +kernel⟩

def eitherDay (i j : ℕ) : PlaceDayPreference := ⟨"kiosk", [⟨j, none, none⟩, ⟨i, none, none⟩]⟩

def twoDayChoice (i j : ℕ) : List PlaceDayPreference :=
  [⟨castleId.hex, [⟨i, none, none⟩]⟩, ⟨palaceId.hex, [⟨j, none, none⟩]⟩, eitherDay i j]

def twoDayDocs (a b : ℕ) : List PlaceDoc := [filler castleId (a + 1), filler palaceId (b + 1)]

def fillersPacked (contexts : ℕ → Option TransitionDayContext) (i j a b : ℕ) : Packing :=
  placeIntoBucket contexts j none palaceId.hex (b + 1 : ℕ)
    (placeIntoBucket contexts i none castleId.hex (a + 1 : ℕ) {})

theorem twoDayChoice_start {i j a b : ℕ} (hi : contexts i = none) (hj : contexts j = none) :
    Tier.flexible.start km days contexts (docMap (twoDayDocs a b)) (twoDayChoice i j) =
      some (fillersPacked contexts i j a b) := by
  have hcastle : docMap (twoDayDocs a b) castleId.hex = some (filler castleId (a + 1)) := by
    simp [docMap, twoDayDocs, filler, castleId, palaceId]
  have hpalace : docMap (twoDayDocs a b) palaceId.hex = some (filler palaceId (b + 1)) := by
    simp [docMap, twoDayDocs, filler]
  have hpinned : pinned (twoDayChoice i j) =
      [⟨castleId.hex, [⟨i, none, none⟩]⟩, ⟨palaceId.hex, [⟨j, none, none⟩]⟩] := by
    simp [pinned, twoDayChoice, eitherDay]
  rw [Tier.start, hpinned]
  simp [packPinned, DaySlot.day, hi, hj, hcastle, hpalace, visitMinOf, filler, PlaceDoc.visitMin, fillersPacked]

theorem twoDayChoice_members {i j : ℕ} : Tier.flexible.members docs (twoDayChoice i j) = [eitherDay i j] := by
  simp [Tier.members, flexible, twoDayChoice, eitherDay, byRank]

theorem twoDayChoice_days {i j a b : ℕ} (hi : i < days.length) (hj : j < days.length) :
    Tier.flexible.candidateDays days (docMap (twoDayDocs a b)) (eitherDay i j) = [j, i] := by
  have hkiosk : docMap (twoDayDocs a b) "kiosk" = none := by
    simp [docMap, twoDayDocs, filler, castleId, palaceId]
  simp [Tier.candidateDays, flexibleDays, eitherDay, hkiosk, openDayIndices, DaySlot.day, hi, hj]

theorem twoDayChoice_slots {i j : ℕ} (hi : i < days.length) (hj : j < days.length) :
    SlotsInRange days.length (twoDayChoice i j) := by
  simp [SlotsInRange, twoDayChoice, eitherDay, DaySlot.day, hi, hj]

theorem twoDayChoice_ids {i j : ℕ} : ((twoDayChoice i j).map PlaceDayPreference.placeId).Nodup := by
  simp [twoDayChoice, eitherDay, castleId, palaceId]

theorem fillersPacked_fill {i j a b : ℕ} (hne : i ≠ j) (hi : contexts i = none) (hj : contexts j = none) :
    fillOf (fillersPacked contexts i j a b) i none = a + 1 ∧
      fillOf (fillersPacked contexts i j a b) j none = b + 1 := by
  simp [fillersPacked, placeIntoBucket, fillOf, hi, hj, hne, Function.update_of_ne hne.symm]

theorem placeIntoBucket_ordinary {id : PlaceId} {j : ℕ} {minutes : ℤ} (hj : contexts j = none) :
    bucketOf (placeIntoBucket contexts j none id minutes s) j none = bucketOf s j none ++ [id] := by
  simp [placeIntoBucket, bucketOf, hj]

/-- Filling two days until their hours leave the same room makes the choice
between them a tie, which goes to the day that is named first. -/
theorem surplus_le {i j : ℕ} (hne : i ≠ j) (hi : Ordinary days contexts i) (hj : Ordinary days contexts j)
    (h : ∀ (docs : List PlaceDoc) places, SlotsInRange days.length places →
      (places.map PlaceDayPreference.placeId).Nodup → Balanced km days contexts (docMap docs) places) :
    surplusS days j ≤ surplusS days i := by
  obtain ⟨hilt, hi⟩ := hi
  obtain ⟨hjlt, hj⟩ := hj
  let a := (capacity days i - capacity days j).toNat
  let b := (capacity days j - capacity days i).toNat
  let s := fillersPacked contexts i j a b
  have hreach : Reaches km days contexts (docMap (twoDayDocs a b)) (twoDayChoice i j) .flexible [] s :=
    ⟨s, twoDayChoice_start hi hj, rfl⟩
  have htie : capacity days i - fillOf s i none = capacity days j - fillOf s j none := by
    obtain ⟨hfilli, hfillj⟩ : fillOf s i none = a + 1 ∧ fillOf s j none = b + 1 := fillersPacked_fill hne hi hj
    rw [hfilli, hfillj]
    omega
  have hcandidates : Tier.flexible.candidateDays days (docMap (twoDayDocs a b)) (eitherDay i j) = [j, i] :=
    twoDayChoice_days hilt hjlt
  have hstep : Tier.flexible.pack km days contexts (docMap (twoDayDocs a b)) s (eitherDay i j) =
      some (placeIntoBucket contexts j none "kiosk" (visitOf (docMap (twoDayDocs a b)) "kiosk") s) := by
    rw [Tier.pack, hcandidates]
    exact packUnpinned_tie hi hj htie.le
  have hput : bucketOf (placeIntoBucket contexts j none "kiosk" (visitOf (docMap (twoDayDocs a b)) "kiosk") s) j
      none ≠ bucketOf s j none := by
    rw [placeIntoBucket_ordinary hj]
    simp
  have hbalanced := h (twoDayDocs a b) (twoDayChoice i j) (twoDayChoice_slots hilt hjlt) twoDayChoice_ids .flexible
    [] (eitherDay i j) [] s _ twoDayChoice_members hreach hstep j hj hput i (by simp [hcandidates]) hi
  rw [effectiveRoom_le_iff (reaches_fillsMatch (List.nil_subset _) hreach)] at hbalanced
  omega

end Ties

/-- The packing is balanced wherever the days a place may choose between have the
same surplus of hours, and days without that property unbalance some packing. -/
theorem packing_balanced (km : Haversine) (days : List DayConfig) (contexts : ℕ → Option TransitionDayContext) :
    (∀ docs places, EvenChoices days contexts docs places → Balanced km days contexts docs places) ∧
      ((∀ (docs : List PlaceDoc) places, SlotsInRange days.length places →
        (places.map PlaceDayPreference.placeId).Nodup → Balanced km days contexts (docMap docs) places) ↔
          EvenDays days contexts) := by
  refine ⟨fun docs places ↦ balanced_of_evenChoices, ?_, ?_⟩
  · intro h d e hd he
    by_cases hne : d = e
    · rw [hne]
    · exact le_antisymm (surplus_le (Ne.symm hne) he hd h) (surplus_le hne hd he h)
  · intro h docs places hslots _
    exact balanced_of_evenChoices (evenChoices_of_evenDays h hslots)

def shortMorning : MultiDayRequest where
  days := [{ date := dayOne, dayEndTime := some (secondsToTime (12 * 3600)) }, { date := dayTwo, dayEndHour := 20 }]
  places := [⟨"kiosk", []⟩, ⟨"louvre", []⟩]

/-- The place that may go to either day goes to the one with three hours left, not to the one with eleven. -/
theorem shortMorning_unbalanced : shortMorning.Valid ∧
    ¬Balanced gridDistance shortMorning.days (transferContexts shortMorning) (docMap []) shortMorning.places := by
  refine ⟨by decide +kernel, fun hbalanced ↦ ?_⟩
  have hmembers : Tier.auto.members (docMap []) shortMorning.places = [] ++ ⟨"kiosk", []⟩ :: [⟨"louvre", []⟩] := by
    decide +kernel
  have hreach : Reaches gridDistance shortMorning.days (transferContexts shortMorning) (docMap [])
      shortMorning.places .auto [] {} := ⟨{}, rfl, rfl⟩
  have hcandidates : Tier.auto.candidateDays shortMorning.days (docMap []) ⟨"kiosk", []⟩ = [0, 1] := by
    decide +kernel
  have hfree : ∀ d < 2, transferContexts shortMorning d = none
    | 0, _ => rfl
    | 1, _ => rfl
  have hstep : Tier.auto.pack gridDistance shortMorning.days (transferContexts shortMorning) (docMap []) {}
      ⟨"kiosk", []⟩ = some (placeIntoBucket (transferContexts shortMorning) 0 none "kiosk"
        (visitOf (docMap []) "kiosk") {}) := by
    rw [Tier.pack, hcandidates]
    exact packUnpinned_tie (hfree 1 (by decide)) (hfree 0 (by decide)) (by decide +kernel)
  have hput : bucketOf (placeIntoBucket (transferContexts shortMorning) 0 none "kiosk"
      (visitOf (docMap []) "kiosk") {}) 0 none ≠ bucketOf {} 0 none := by
    rw [placeIntoBucket_ordinary (hfree 0 (by decide))]
    simp
  have hroom := hbalanced .auto [] _ _ {} _ hmembers hreach hstep 0 (hfree 0 (by decide)) hput 1
    (by simp [hcandidates]) (hfree 1 (by decide))
  rw [effectiveRoom_le_iff (reaches_fillsMatch (List.nil_subset _) hreach)] at hroom
  exact absurd hroom (by decide +kernel)

end TravelPlanner.PackingBalance
