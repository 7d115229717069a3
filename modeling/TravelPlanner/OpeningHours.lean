import TravelPlanner.DayPartition

namespace TravelPlanner.OpeningHours

open Clock Requests Windows DayPartition

def weekSecond (weekday t : ℤ) : ℤ := weekday * 86400 + t

/-- A period in the week, which is a circle: a second is covered when it comes
before the closing on the way round from the opening. Without a closing the
place never closes. -/
def Covers (p : OpeningPeriod) (weekday : ℕ) (t : ℤ) : Prop :=
  match p.opening, p.closing with
  | none, _ => False
  | some _, none => True
  | some o, some c =>
    (weekSecond weekday t - weekSecond (o.day.getD 0) o.seconds) % 604800 <
      (weekSecond (c.day.getD 0) c.seconds - weekSecond (o.day.getD 0) o.seconds) % 604800

def InDay (t : ℤ) : Prop := 0 ≤ t ∧ t < 86400

/-- Open by the weekly calendar; a place without recorded hours counts as open. -/
def OpenAt (periods : List OpeningPeriod) (weekday : ℕ) (t : ℤ) : Prop :=
  periods = [] ∨ ∃ p ∈ periods, Covers p weekday t

def OpenSometime (periods : List OpeningPeriod) (weekday : ℕ) : Prop :=
  ∃ t, InDay t ∧ OpenAt periods weekday t

structure PointFormat (o : OpeningPoint) : Prop where
  day : ∃ d, o.day = some d ∧ 0 ≤ d ∧ d ≤ 6
  hour : 0 ≤ o.hour.getD 0 ∧ o.hour.getD 0 ≤ 23
  minute : 0 ≤ o.minute.getD 0 ∧ o.minute.getD 0 ≤ 59

structure PeriodFormat (p : OpeningPeriod) (o : OpeningPoint) : Prop where
  opening : p.opening = some o
  opens : PointFormat o
  closes : ∀ c ∈ p.closing, PointFormat c ∧ (c.day = o.day → o.seconds < c.seconds)

/-- The weekly format: every period opens and closes at points of the week, and
the only period that never closes is the single one of a place always open. -/
structure GoogleFormat (periods : List OpeningPeriod) : Prop where
  points : ∀ p ∈ periods, ∃ o, PeriodFormat p o
  always : ∀ p ∈ periods, p.closing = none →
    periods = [p] ∧ ∃ o, p.opening = some o ∧ o.day = some 0 ∧ o.seconds = 0

def lowerBound (doc : PlaceDoc) (dayStartS : ℤ) : ℤ :=
  match doc.preferredHourFrom with | some h => h * 3600 | none => dayStartS

def upperBound (doc : PlaceDoc) (dayEndS : ℤ) : ℤ :=
  match doc.preferredHourTo with | some h => h * 3600 | none => dayEndS

def Between (doc : PlaceDoc) (dayStartS dayEndS t : ℤ) : Prop :=
  lowerBound doc dayStartS ≤ t ∧ t < upperBound doc dayEndS

/-- If there is time between the bounds at all, some of it is on the planning day. -/
def BoundsMeetDay (doc : PlaceDoc) (dayStartS dayEndS : ℤ) : Prop :=
  lowerBound doc dayStartS < upperBound doc dayEndS → ∃ t, InDay t ∧ Between doc dayStartS dayEndS t

def InWindow (window : Option TimeWindow) (t : ℤ) : Prop :=
  ∃ tw, window = some tw ∧ ∃ s ∈ tw.segments, s.1 ≤ t ∧ t < s.2

def OpensOn (periods : List OpeningPeriod) (weekday : ℕ) (t : ℤ) : Prop :=
  periods = [] ∨ ∃ p ∈ periods, p.day = some (weekday : ℤ) ∧ Covers p weekday t

theorem seconds_range {o : OpeningPoint} (h : PointFormat o) : 0 ≤ o.seconds ∧ o.seconds < 86400 := by
  obtain ⟨_, ⟨hh₀, hh₁⟩, ⟨hm₀, hm₁⟩⟩ := h
  simp only [OpeningPoint.seconds]
  omega

/-- The segment cut for a period of the weekday holds the seconds of the day the
period covers. -/
theorem periodSegment_iff {p : OpeningPeriod} {o : OpeningPoint} {weekday : ℕ} {openS closeS t : ℤ}
    (hp : PeriodFormat p o) (hday : o.day = some (weekday : ℤ)) (halways : p.closing = none → o.seconds = 0)
    (ht : InDay t) :
    (periodSegment openS closeS o p.closing).1 ≤ t ∧ t < (periodSegment openS closeS o p.closing).2 ↔
      openS ≤ t ∧ t < closeS ∧ Covers p weekday t := by
  obtain ⟨ht₀, ht₁⟩ := ht
  obtain ⟨ho₀, ho₁⟩ := seconds_range hp.opens
  unfold periodSegment Covers
  rw [hp.opening]
  cases hc : p.closing with
  | none =>
    have hzero := halways hc
    simp only [and_true]
    omega
  | some c =>
    obtain ⟨hformat, hsame⟩ := hp.closes c hc
    obtain ⟨d, hd, hd₀, hd₁⟩ := hformat.day
    obtain ⟨hc₀, hc₁⟩ := seconds_range hformat
    obtain ⟨e, he, he₀, he₁⟩ := hp.opens.day
    obtain rfl : e = weekday := Option.some.inj (he.symm.trans hday)
    have hlate : (d : ℤ) = weekday → o.seconds < c.seconds := fun h ↦ hsame (by rw [hd, hday, h])
    simp only [hd, hday, weekSecond, Option.getD_some, ne_eq, reduceCtorEq, not_false_eq_true, true_and,
      Option.some.injEq]
    split_ifs with hother <;> omega

theorem GoogleFormat.opens_at_zero {periods : List OpeningPeriod} (h : GoogleFormat periods) {p : OpeningPeriod}
    {o : OpeningPoint} (hp : p ∈ periods) (ho : p.opening = some o) (hc : p.closing = none) : o.seconds = 0 := by
  obtain ⟨_, o', ho', _, hzero⟩ := h.always p hp hc
  obtain rfl : o = o' := Option.some.inj (ho.symm.trans ho')
  exact hzero

theorem mem_daySegments {openS closeS : ℤ} {weekday : ℕ} {periods : List OpeningPeriod} {s : ℤ × ℤ} :
    s ∈ daySegments openS closeS weekday periods ↔
      ∃ p ∈ periods, ∃ o, p.opening = some o ∧ o.day = some (weekday : ℤ) ∧
        s = periodSegment openS closeS o p.closing ∧ s.1 < s.2 := by
  simp only [daySegments, List.mem_filterMap, Option.bind_eq_bind, Option.bind_eq_some_iff,
    Option.ite_none_right_eq_some, Option.some.injEq]
  constructor
  · rintro ⟨p, hp, o, ho, hday, hlt, rfl⟩
    exact ⟨p, hp, o, ho, hday, rfl, hlt⟩
  · rintro ⟨p, hp, o, ho, hday, rfl, hlt⟩
    exact ⟨p, hp, o, ho, hday, hlt, rfl⟩

section Windows

variable {doc : PlaceDoc} {dayStartS dayEndS : ℤ} {weekday : ℕ}

theorem parseTimeWindow_eq_some {tw : TimeWindow} :
    parseTimeWindow doc dayStartS dayEndS (some weekday) = some tw ↔
      doc.openingPeriods = [] ∧ lowerBound doc dayStartS < upperBound doc dayEndS ∧
          tw = .single (lowerBound doc dayStartS) (upperBound doc dayEndS) ∨
        doc.openingPeriods ≠ [] ∧
          daySegments (lowerBound doc dayStartS) (upperBound doc dayEndS) weekday doc.openingPeriods ≠ [] ∧
          tw = .fromSegments
            (daySegments (lowerBound doc dayStartS) (upperBound doc dayEndS) weekday doc.openingPeriods) := by
  cases hperiods : doc.openingPeriods with
  | nil =>
    have hdef : parseTimeWindow doc dayStartS dayEndS (some weekday) =
        if upperBound doc dayEndS ≤ lowerBound doc dayStartS then none
        else some (.single (lowerBound doc dayStartS) (upperBound doc dayEndS)) := by
      unfold parseTimeWindow
      rw [hperiods]
      rfl
    rw [hdef]
    by_cases hle : upperBound doc dayEndS ≤ lowerBound doc dayStartS
    · simp [hle, not_lt.mpr hle]
    · simp [hle, not_le.mp hle, @eq_comm _ tw]
  | cons p rest =>
    have hdef : parseTimeWindow doc dayStartS dayEndS (some weekday) =
        if daySegments (lowerBound doc dayStartS) (upperBound doc dayEndS) weekday (p :: rest) = [] then none
        else some (.fromSegments
          (daySegments (lowerBound doc dayStartS) (upperBound doc dayEndS) weekday (p :: rest))) := by
      unfold parseTimeWindow
      rw [hperiods]
      dsimp only
      split
      · next hnil => exact (if_pos hnil).symm
      · next s segments hcons =>
        rw [← hcons]
        exact (if_neg fun hnil ↦ absurd (hcons.symm.trans hnil) (by simp)).symm
    rw [hdef]
    by_cases hnil : daySegments (lowerBound doc dayStartS) (upperBound doc dayEndS) weekday (p :: rest) = []
    · simp [hnil]
    · simp [hnil, @eq_comm _ tw]

theorem mem_fromSegments {segments : List (ℤ × ℤ)} {s : ℤ × ℤ} :
    s ∈ (TimeWindow.fromSegments segments).segments ↔ s ∈ segments := List.mem_insertionSort _

/-- The window of a weekday is the part within the bounds of the periods that
open on it. -/
theorem inWindow_iff (hformat : GoogleFormat doc.openingPeriods) {t : ℤ} (ht : InDay t) :
    InWindow (parseTimeWindow doc dayStartS dayEndS (some weekday)) t ↔
      Between doc dayStartS dayEndS t ∧ OpensOn doc.openingPeriods weekday t := by
  unfold InWindow
  simp only [parseTimeWindow_eq_some]
  constructor
  · rintro ⟨_, ⟨hnil, _, rfl⟩ | ⟨_, _, rfl⟩, s, hs, hlow, hup⟩
    · obtain rfl := List.mem_singleton.mp hs
      exact ⟨⟨hlow, hup⟩, .inl hnil⟩
    · obtain ⟨p, hp, o, ho, hday, rfl, _⟩ := mem_daySegments.mp (mem_fromSegments.mp hs)
      obtain ⟨o', hperiod⟩ := hformat.points p hp
      obtain rfl : o = o' := Option.some.inj (ho.symm.trans hperiod.opening)
      obtain ⟨hopen, hclose, hcovers⟩ :=
        (periodSegment_iff hperiod hday (hformat.opens_at_zero hp ho) ht).mp ⟨hlow, hup⟩
      exact ⟨⟨hopen, hclose⟩, .inr ⟨p, hp, by simp [OpeningPeriod.day, ho, hday], hcovers⟩⟩
  · rintro ⟨⟨hlow, hup⟩, hnil | ⟨p, hp, hpday, hcovers⟩⟩
    · exact ⟨_, .inl ⟨hnil, hlow.trans_lt hup, rfl⟩, _, List.mem_singleton.mpr rfl, hlow, hup⟩
    · obtain ⟨o, hperiod⟩ := hformat.points p hp
      have hday : o.day = some (weekday : ℤ) := by simpa [OpeningPeriod.day, hperiod.opening] using hpday
      obtain ⟨hs₀, hs₁⟩ :=
        (periodSegment_iff hperiod hday (hformat.opens_at_zero hp hperiod.opening) ht).mpr ⟨hlow, hup, hcovers⟩
      have hmem := mem_daySegments.mpr ⟨p, hp, o, hperiod.opening, hday, rfl, hs₀.trans_lt hs₁⟩
      refine ⟨_, .inr ⟨List.ne_nil_of_mem hp, List.ne_nil_of_mem hmem, rfl⟩, _, mem_fromSegments.mpr hmem, hs₀, hs₁⟩

theorem window_inhabited (hformat : GoogleFormat doc.openingPeriods) (hmeets : BoundsMeetDay doc dayStartS dayEndS)
    {tw : TimeWindow} (h : parseTimeWindow doc dayStartS dayEndS (some weekday) = some tw) :
    ∃ t, InDay t ∧ InWindow (some tw) t := by
  rcases parseTimeWindow_eq_some.mp h with ⟨_, hlt, rfl⟩ | ⟨_, hne, rfl⟩
  · obtain ⟨t, ht, hlow, hup⟩ := hmeets hlt
    exact ⟨t, ht, _, rfl, _, List.mem_singleton.mpr rfl, hlow, hup⟩
  · obtain ⟨s, hs⟩ := List.exists_mem_of_ne_nil _ hne
    obtain ⟨p, hp, o, ho, _, he, hlt⟩ := mem_daySegments.mp hs
    obtain ⟨o', hperiod⟩ := hformat.points p hp
    obtain rfl : o = o' := Option.some.inj (ho.symm.trans hperiod.opening)
    obtain ⟨ho₀, ho₁⟩ := seconds_range hperiod.opens
    have hfirst : s.1 = max (lowerBound doc dayStartS) o.seconds := by
      rw [he]
      unfold periodSegment
      cases p.closing <;> rfl
    have hlast : s.2 ≤ upperBound doc dayEndS := by
      rw [he]
      unfold periodSegment
      cases p.closing with
      | none => exact le_rfl
      | some c => exact min_le_left _ _
    -- the segment lies within the bounds, so these meet the day before it opens too late
    obtain ⟨t, ⟨_, ht₁⟩, hlow, _⟩ := hmeets (by omega)
    refine ⟨s.1, ⟨?_, ?_⟩, _, rfl, s, mem_fromSegments.mpr hs, le_rfl, hlt⟩
    · rw [hfirst]
      exact le_max_of_le_right ho₀
    · rw [hfirst]
      exact max_lt (hlow.trans_lt ht₁) ho₁

/-- Within the bounds of the day the place is open on the weekday only in
periods that open on it, or at times these cover as well. -/
def NoSpill (doc : PlaceDoc) (dayStartS dayEndS : ℤ) (weekday : ℕ) : Prop :=
  ∀ t, InDay t → Between doc dayStartS dayEndS t → OpenAt doc.openingPeriods weekday t →
    OpensOn doc.openingPeriods weekday t

def WindowExact (doc : PlaceDoc) (dayStartS dayEndS : ℤ) (weekday : ℕ) : Prop :=
  (∀ t, InDay t → (InWindow (parseTimeWindow doc dayStartS dayEndS (some weekday)) t ↔
    Between doc dayStartS dayEndS t ∧ OpenAt doc.openingPeriods weekday t)) ∧
  (parseTimeWindow doc dayStartS dayEndS (some weekday) = none ↔
    ∀ t, InDay t → ¬(Between doc dayStartS dayEndS t ∧ OpenAt doc.openingPeriods weekday t))

theorem OpensOn.openAt {periods : List OpeningPeriod} {t : ℤ} (h : OpensOn periods weekday t) :
    OpenAt periods weekday t :=
  h.imp_right fun ⟨p, hp, _, hcovers⟩ ↦ ⟨p, hp, hcovers⟩

theorem windowExact_iff (hformat : GoogleFormat doc.openingPeriods) (hmeets : BoundsMeetDay doc dayStartS dayEndS) :
    WindowExact doc dayStartS dayEndS weekday ↔ NoSpill doc dayStartS dayEndS weekday := by
  constructor
  · rintro ⟨hexact, _⟩ t ht hbetween hopen
    exact ((inWindow_iff hformat ht).mp ((hexact t ht).mpr ⟨hbetween, hopen⟩)).2
  · intro hspill
    have hexact : ∀ t, InDay t → (InWindow (parseTimeWindow doc dayStartS dayEndS (some weekday)) t ↔
        Between doc dayStartS dayEndS t ∧ OpenAt doc.openingPeriods weekday t) := by
      intro t ht
      rw [inWindow_iff hformat ht]
      exact ⟨fun h ↦ ⟨h.1, h.2.openAt⟩, fun h ↦ ⟨h.1, hspill t ht h.1 h.2⟩⟩
    refine ⟨hexact, ?_⟩
    constructor
    · rintro hnone t ht hopen
      obtain ⟨tw, htw, _⟩ := (hexact t ht).mpr hopen
      rw [hnone] at htw
      cases htw
    · intro hclosed
      cases h : parseTimeWindow doc dayStartS dayEndS (some weekday) with
      | none => rfl
      | some tw =>
        obtain ⟨t, ht, hin⟩ := window_inhabited hformat hmeets h
        rw [← h, hexact t ht] at hin
        exact absurd hin (hclosed t ht)

end Windows

section Days

variable {doc : PlaceDoc} {days : List DayConfig}

def OpensDay (periods : List OpeningPeriod) (weekday : ℕ) : Prop :=
  periods = [] ∨ ∃ p ∈ periods, p.day = some (weekday : ℤ)

def periodsOf (doc : Option PlaceDoc) : List OpeningPeriod := (doc.map PlaceDoc.openingPeriods).getD []

def openedDays (periods : List OpeningPeriod) (days : List DayConfig) : List ℕ :=
  (days.zipIdx.filter fun cfg ↦ periods.any (fun p ↦ p.day = some (googleWeekday cfg.1.date : ℤ))).map Prod.snd

theorem mem_openedDays {periods : List OpeningPeriod} {i : ℕ} : i ∈ openedDays periods days ↔
    ∃ cfg, days[i]? = some cfg ∧ ∃ p ∈ periods, p.day = some (googleWeekday cfg.date : ℤ) := by
  simp only [openedDays, List.mem_map, List.mem_filter, List.any_eq_true, decide_eq_true_eq, Prod.exists]
  constructor
  · rintro ⟨cfg, i, ⟨hmem, hopen⟩, rfl⟩
    exact ⟨cfg, List.mk_mem_zipIdx_iff_getElem?.mp hmem, hopen⟩
  · rintro ⟨cfg, hcfg, hopen⟩
    exact ⟨cfg, i, ⟨List.mk_mem_zipIdx_iff_getElem?.mpr hcfg, hopen⟩, rfl⟩

theorem openDayIndices_eq (doc : Option PlaceDoc) (days : List DayConfig) : openDayIndices doc days =
    if periodsOf doc = [] ∨ openedDays (periodsOf doc) days = [] then List.range days.length
    else openedDays (periodsOf doc) days := rfl

theorem mem_openDayIndices {doc : Option PlaceDoc} {i : ℕ} : i ∈ openDayIndices doc days ↔
    ∃ cfg, days[i]? = some cfg ∧ (OpensDay (periodsOf doc) (googleWeekday cfg.date) ∨
      ∀ c ∈ days, ¬OpensDay (periodsOf doc) (googleWeekday c.date)) := by
  have hrange : i ∈ List.range days.length ↔ ∃ cfg, days[i]? = some cfg := by
    simp [List.mem_range, List.getElem?_eq_some_iff]
  rw [openDayIndices_eq]
  split_ifs with h
  · rw [hrange]
    refine exists_congr fun cfg ↦ (and_iff_left ?_).symm
    rcases h with hnil | hnone
    · exact .inl (.inl hnil)
    · by_cases hnil : periodsOf doc = []
      · exact .inl (.inl hnil)
      · refine .inr fun c hc hopens ↦ ?_
        obtain ⟨j, hj⟩ := List.mem_iff_getElem?.mp hc
        exact absurd (mem_openedDays.mpr ⟨c, hj, hopens.resolve_left hnil⟩) (hnone ▸ List.not_mem_nil)
  · obtain ⟨hnil, hsome⟩ := not_or.mp h
    rw [mem_openedDays]
    refine exists_congr fun cfg ↦ and_congr_right fun hcfg ↦ ?_
    have hnever : ¬∀ c ∈ days, ¬OpensDay (periodsOf doc) (googleWeekday c.date) := by
      intro hall
      obtain ⟨j, hj⟩ := List.exists_mem_of_ne_nil _ hsome
      obtain ⟨c, hc, hopens⟩ := mem_openedDays.mp hj
      exact hall c (List.mem_of_getElem? hc) (.inr hopens)
    rw [or_iff_left hnever, OpensDay, or_iff_right hnil]

theorem openSometime_of_opensDay (hformat : GoogleFormat doc.openingPeriods) {weekday : ℕ}
    (h : OpensDay doc.openingPeriods weekday) : OpenSometime doc.openingPeriods weekday := by
  rcases h with hnil | ⟨p, hp, hday⟩
  · exact ⟨0, ⟨le_rfl, by decide⟩, .inl hnil⟩
  · obtain ⟨o, hperiod⟩ := hformat.points p hp
    have ho : o.day = some (weekday : ℤ) := by simpa [OpeningPeriod.day, hperiod.opening] using hday
    have hrange := seconds_range hperiod.opens
    refine ⟨o.seconds, hrange, .inr ⟨p, hp, ?_⟩⟩
    have hzero := hformat.opens_at_zero hp hperiod.opening
    have hseg := @periodSegment_iff p o weekday o.seconds 86400 o.seconds hperiod ho hzero hrange
    refine (hseg.mp ⟨?_, ?_⟩).2.2
    · unfold periodSegment
      cases p.closing <;> exact (max_self _).le
    · unfold periodSegment
      cases hc : p.closing with
      | none => exact hrange.2
      | some c =>
        obtain ⟨hclose, hsame⟩ := hperiod.closes c hc
        dsimp only
        split_ifs with hother
        · exact lt_min hrange.2 hrange.2
        · obtain ⟨d, hd, _⟩ := hclose.day
          exact lt_min hrange.2 (hsame (by simpa [hd, ho] using hother))

def NoSpillDays (doc : PlaceDoc) (days : List DayConfig) : Prop :=
  ∀ cfg ∈ days, OpenSometime doc.openingPeriods (googleWeekday cfg.date) →
    OpensDay doc.openingPeriods (googleWeekday cfg.date)

/-- Where no period spills over from another weekday and the bounds meet the day, windows
are exact, and the days counted as open are those with opening hours; all days count when there are none. -/
theorem opening_hours_exact (doc : PlaceDoc) (dayStartS dayEndS : ℤ) (days : List DayConfig)
    (hformat : GoogleFormat doc.openingPeriods) (hmeets : BoundsMeetDay doc dayStartS dayEndS) :
    (∀ weekday, NoSpill doc dayStartS dayEndS weekday → WindowExact doc dayStartS dayEndS weekday) ∧
      (NoSpillDays doc days → ∀ i, i ∈ openDayIndices (some doc) days ↔
        ∃ cfg, days[i]? = some cfg ∧ (OpenSometime doc.openingPeriods (googleWeekday cfg.date) ∨
          ∀ c ∈ days, ¬OpenSometime doc.openingPeriods (googleWeekday c.date))) := by
  constructor
  · intro weekday hspill
    exact (windowExact_iff hformat hmeets).mpr hspill
  · intro hspill i
    have hopen : ∀ cfg ∈ days, OpensDay doc.openingPeriods (googleWeekday cfg.date) ↔
        OpenSometime doc.openingPeriods (googleWeekday cfg.date) :=
      fun cfg hcfg ↦ ⟨openSometime_of_opensDay hformat, hspill cfg hcfg⟩
    refine mem_openDayIndices.trans (exists_congr fun cfg ↦ and_congr_right fun hcfg ↦ ?_)
    exact or_congr (hopen cfg (List.mem_of_getElem? hcfg)) (forall₂_congr fun c hc ↦ not_congr (hopen c hc))

end Days

def tuesdays : OpeningPeriod := ⟨some ⟨some 2, some 9, some 0⟩, some ⟨some 2, some 17, some 0⟩⟩

def tuesdayMuseum : PlaceDoc where
  id := ⟨"65a0000000000000000000d2", by decide +kernel⟩
  openingPeriods := [tuesdays]

def aMonday : Date := ⟨2029, 11, 26, by decide, by decide, by decide⟩

theorem tuesdays_format : GoogleFormat tuesdayMuseum.openingPeriods where
  points p hp := by
    obtain rfl := List.mem_singleton.mp hp
    refine ⟨⟨some 2, some 9, some 0⟩, rfl, ⟨⟨2, rfl, by decide, by decide⟩, by decide, by decide⟩, ?_⟩
    intro c hc
    obtain rfl := Option.some.inj hc
    exact ⟨⟨⟨2, rfl, by decide, by decide⟩, by decide, by decide⟩, fun _ ↦ by decide⟩
  always p hp hc := by
    obtain rfl := List.mem_singleton.mp hp
    cases hc

theorem tuesdayMuseum_monday (t : ℤ) (ht : InDay t) : ¬OpenAt tuesdayMuseum.openingPeriods 1 t := by
  rintro (hnil | ⟨p, hp, hcovers⟩)
  · cases hnil
  · obtain rfl := List.mem_singleton.mp hp
    simp only [Covers, tuesdays, weekSecond, OpeningPoint.seconds, Option.getD_some] at hcovers
    obtain ⟨ht₀, ht₁⟩ := ht
    omega

def nightlyWish : PlaceDoc where
  id := ⟨"65a0000000000000000000e4", by decide +kernel⟩
  preferredHourFrom := some 24
  preferredHourTo := some 25

/-- A museum closed on the only day of a trip has that day counted as open, and a place
wanted after midnight has a window that holds no second of the planning day. -/
theorem closedTrip_counted_open :
    (GoogleFormat tuesdayMuseum.openingPeriods ∧ googleWeekday aMonday = 1 ∧
      ¬(0 ∈ openDayIndices (some tuesdayMuseum) [{ date := aMonday }] ↔
        OpenSometime tuesdayMuseum.openingPeriods 1)) ∧
    GoogleFormat nightlyWish.openingPeriods ∧ ¬WindowExact nightlyWish 32400 75600 1 := by
  refine ⟨⟨tuesdays_format, by decide +kernel, ?_⟩, ⟨by simp [nightlyWish], by simp [nightlyWish]⟩, ?_⟩
  · intro h
    obtain ⟨t, ht, hat⟩ := h.mp (by decide +kernel)
    exact tuesdayMuseum_monday t ht hat
  · intro h
    have hnone : parseTimeWindow nightlyWish 32400 75600 (some 1) = none := by
      refine h.2.mpr fun t ht hopen ↦ ?_
      have hlow : 24 * 3600 ≤ t := hopen.1.1
      have hday : t < 86400 := ht.2
      omega
    exact absurd hnone (by decide +kernel)

theorem opening_hours_exact_tuesdays :
    (∀ weekday, NoSpill tuesdayMuseum 32400 75600 weekday → WindowExact tuesdayMuseum 32400 75600 weekday) ∧
      (NoSpillDays tuesdayMuseum [{ date := aMonday }] →
        ∀ i, i ∈ openDayIndices (some tuesdayMuseum) [{ date := aMonday }] ↔
          ∃ cfg, [({ date := aMonday } : DayConfig)][i]? = some cfg ∧
            (OpenSometime tuesdayMuseum.openingPeriods (googleWeekday cfg.date) ∨
              ∀ c ∈ [({ date := aMonday } : DayConfig)],
                ¬OpenSometime tuesdayMuseum.openingPeriods (googleWeekday c.date))) :=
  opening_hours_exact tuesdayMuseum 32400 75600 [{ date := aMonday }] tuesdays_format
    fun _ ↦ ⟨32400, ⟨by omega, by omega⟩, by decide +kernel, by decide +kernel⟩

end TravelPlanner.OpeningHours
