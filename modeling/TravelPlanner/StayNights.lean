import TravelPlanner.PlannerRequests
import TravelPlanner.TripRequests

namespace TravelPlanner.StayNights

open Clock IsoDates Fallible Planner PlannerRequests Intervals TripRequests
open Requests (validateNoStayOverlaps dayAnchors)

structure ArraySort {α : Type} (sort : (α → α → ℤ) → List α → List α) : Prop where
  perm : ∀ compare l, (sort compare l).Perm l
  sorted : ∀ compare l (key : α → String), (∀ a ∈ l, ∀ b ∈ l, a ≠ b →
    (compare a b < 0 ↔ key a < key b) ∧ (0 < compare a b ↔ key b < key a)) →
      (sort compare l).Pairwise fun a b ↦ key a ≤ key b

def compareCheckIn (a b : AccommodationDraft) : ℤ := if a.checkInDate < b.checkInDate then -1 else 1

def noAdjacentOverlaps : List AccommodationDraft → Bool
  | previous :: current :: rest =>
    if current.checkInDate < previous.checkOutDate then false else noAdjacentOverlaps (current :: rest)
  | _ => true

def hasNoStayOverlaps (sort : (AccommodationDraft → AccommodationDraft → ℤ) → List AccommodationDraft →
    List AccommodationDraft) (drafts : List AccommodationDraft) : Bool :=
  noAdjacentOverlaps (sort compareCheckIn (drafts.filter isCompleteAccommodationDraft))

def wakesIn (day : Date) (stay : Requests.AccommodationStay) : Bool :=
  stay.checkInDate < day ∧ day ≤ stay.checkOutDate

def sleepsIn (day : Date) (stay : Requests.AccommodationStay) : Bool :=
  stay.checkInDate ≤ day ∧ day < stay.checkOutDate

def anchoredStays (anchors : Requests.DayAccommodationAnchors) :
    Option Requests.AccommodationStay × Option Requests.AccommodationStay :=
  (anchors.start.map Prod.fst, anchors.finish.map Prod.fst)

abbrev StayApart := Apart Requests.AccommodationStay.checkInDate Requests.AccommodationStay.checkOutDate

abbrev DraftApart := Apart AccommodationDraft.checkInDate AccommodationDraft.checkOutDate

variable {stays : List Requests.AccommodationStay} {drafts : List AccommodationDraft}

section Validators

theorem adjacentDrafts_iff : noAdjacentOverlaps drafts = true ↔
    drafts.IsChain (Before AccommodationDraft.checkInDate AccommodationDraft.checkOutDate) := by
  induction drafts with
  | nil => exact iff_of_true rfl .nil
  | cons a drafts ih =>
    cases drafts with
    | nil => exact iff_of_true rfl (.singleton a)
    | cons b drafts =>
      rw [noAdjacentOverlaps, List.isChain_cons_cons, ← ih, Before]
      by_cases hover : b.checkInDate < a.checkOutDate
      · simp [hover, not_le.mpr hover]
      · simp [hover, not_lt.mp hover]

theorem noStayOverlaps_iff_apart (hnights : ∀ s ∈ stays, s.checkInDate < s.checkOutDate) :
    validateNoStayOverlaps stays = .ok () ↔ stays.Pairwise StayApart :=
  (noStayOverlaps_iff hnights).trans ⟨fun h ↦ h.imp staysApart_iff.mp, fun h ↦ h.imp staysApart_iff.mpr⟩

/-- The comparator is no order on drafts of one check-in date, but drafts that share
no night have different ones. -/
theorem hasNoStayOverlaps_iff {sort : (AccommodationDraft → AccommodationDraft → ℤ) → List AccommodationDraft →
    List AccommodationDraft} (hsort : ArraySort sort) :
    hasNoStayOverlaps sort drafts = true ↔
      (drafts.filter isCompleteAccommodationDraft).Pairwise DraftApart := by
  have hnights : ∀ a ∈ drafts.filter isCompleteAccommodationDraft, a.checkInDate < a.checkOutDate :=
    fun a ha ↦ complete_nights (List.mem_filter.mp ha).2
  have hperm := hsort.perm compareCheckIn (drafts.filter isCompleteAccommodationDraft)
  rw [hasNoStayOverlaps, adjacentDrafts_iff]
  constructor
  · exact pairwise_apart_of_chain hnights hperm
  · intro hapart
    refine chain_of_pairwise_apart hnights hperm (hsort.sorted _ _ _ fun a ha b hb hne ↦ ?_) hapart
    have hstart : a.checkInDate ≠ b.checkInDate := by
      intro he
      have hab := hapart.forall ha hb hne
      rcases (apart_iff (hnights a ha) (hnights b hb)).mp hab with hbefore | hbefore
      · exact absurd (hbefore.trans he.ge) (not_le.mpr (hnights a ha))
      · exact absurd (hbefore.trans he.le) (not_le.mpr (hnights b hb))
    unfold compareCheckIn
    by_cases hlt : a.checkInDate < b.checkInDate
    · rw [if_pos hlt]
      exact ⟨iff_of_true (by decide) hlt, iff_of_false (by decide) hlt.not_gt⟩
    · rw [if_neg hlt]
      exact ⟨iff_of_false (by decide) hlt, iff_of_true (by decide) (lt_of_le_of_ne (not_lt.mp hlt) hstart.symm)⟩

theorem apart_agrees {a b : AccommodationDraft} {s t : Requests.AccommodationStay} (ha : a.checkInDate < a.checkOutDate)
    (hb : b.checkInDate < b.checkOutDate) (has : SameDates a s) (hbt : SameDates b t) :
    DraftApart a b ↔ StayApart s t := by
  have hlt := @StrictMono.lt_iff_lt _ _ _ _ _ isoformat_strictMono
  have hle := @StrictMono.le_iff_le _ _ _ _ _ isoformat_strictMono
  have hs : s.checkInDate < s.checkOutDate := by rwa [has.1, has.2, hlt] at ha
  have ht : t.checkInDate < t.checkOutDate := by rwa [hbt.1, hbt.2, hlt] at hb
  rw [DraftApart, StayApart, apart_iff ha hb, apart_iff hs ht, Before, Before, Before, Before, has.1, has.2, hbt.1,
    hbt.2, hle, hle]

theorem pairwise_agrees (hnights : ∀ a ∈ drafts, a.checkInDate < a.checkOutDate)
    (hsame : List.Forall₂ SameDates drafts stays) : drafts.Pairwise DraftApart ↔ stays.Pairwise StayApart := by
  induction hsame with
  | nil => exact iff_of_true .nil .nil
  | @cons a s drafts stays has hrest ih =>
    obtain ⟨ha, hnights⟩ := List.forall_mem_cons.mp hnights
    rw [List.pairwise_cons, List.pairwise_cons, ih hnights]
    refine and_congr_left fun _ ↦ ?_
    constructor
    · intro hfirst t ht
      obtain ⟨b, hb, hbt⟩ := mem_of_forall₂ hrest ht
      exact (apart_agrees ha (hnights b hb) has hbt).mp (hfirst b hb)
    · intro hfirst b hb
      obtain ⟨t, ht, hbt⟩ := mem_of_forall₂ hrest.flip hb
      exact (apart_agrees ha (hnights b hb) has hbt).mpr (hfirst t ht)

end Validators

section Anchors

variable {day : Date}

theorem wakesIn_iff {s : Requests.AccommodationStay} :
    wakesIn day s = true ↔ day ∈ Set.Ioc s.checkInDate s.checkOutDate := by
  simp [wakesIn]

theorem sleepsIn_iff {s : Requests.AccommodationStay} :
    sleepsIn day s = true ↔ day ∈ Set.Ico s.checkInDate s.checkOutDate := by
  simp [sleepsIn]

theorem wakesIn_exclusive (h : stays.Pairwise StayApart) (day : Date) : Exclusive (wakesIn day) stays := by
  refine h.imp fun {a b} hab ↦ ?_
  rw [wakesIn_iff, wakesIn_iff, not_and]
  exact fun ha ↦ Set.disjoint_left.mp (apart_iff_ioc.mp hab) ha

theorem sleepsIn_exclusive (h : stays.Pairwise StayApart) (day : Date) : Exclusive (sleepsIn day) stays := by
  refine h.imp fun {a b} hab ↦ ?_
  rw [sleepsIn_iff, sleepsIn_iff, not_and]
  exact fun ha ↦ Set.disjoint_left.mp hab ha

theorem anchoredStays_eq (stays : List Requests.AccommodationStay) (day : Date) :
    anchoredStays (dayAnchors stays day) = (stays.find? (wakesIn day), stays.find? (sleepsIn day)) := by
  rw [find?_position (wakesIn day), find?_position (sleepsIn day)]
  rfl

theorem anchoredStays_perm {reordered : List Requests.AccommodationStay} (h : stays.Pairwise StayApart)
    (hperm : reordered.Perm stays) (day : Date) :
    anchoredStays (dayAnchors reordered day) = anchoredStays (dayAnchors stays day) := by
  rw [anchoredStays_eq, anchoredStays_eq, (wakesIn_exclusive h day).find?_perm hperm,
    (sleepsIn_exclusive h day).find?_perm hperm]

theorem apart_of_positions (h : stays.Pairwise StayApart) {x y : Requests.StayRef} (hx : stays[x.2]? = some x.1)
    (hy : stays[y.2]? = some y.1) (hne : x.2 ≠ y.2) : StayApart x.1 y.1 := by
  obtain ⟨hxlt, hx⟩ := List.getElem?_eq_some_iff.mp hx
  obtain ⟨hylt, hy⟩ := List.getElem?_eq_some_iff.mp hy
  rw [← hx, ← hy]
  rcases Nat.lt_or_gt_of_ne hne with hlt | hlt
  · exact List.pairwise_iff_getElem.mp h _ _ hxlt hylt hlt
  · exact Apart.symm (List.pairwise_iff_getElem.mp h _ _ hylt hxlt hlt)

theorem start_spec {x : Requests.StayRef} (h : (dayAnchors stays day).start = some x) :
    stays[x.2]? = some x.1 ∧ x.1.checkInDate < day ∧ day ≤ x.1.checkOutDate :=
  ⟨List.mem_zipIdx_iff_getElem?.mp (List.mem_of_find?_eq_some h), by simpa using List.find?_some h⟩

theorem finish_spec {x : Requests.StayRef} (h : (dayAnchors stays day).finish = some x) :
    stays[x.2]? = some x.1 ∧ x.1.checkInDate ≤ day ∧ day < x.1.checkOutDate :=
  ⟨List.mem_zipIdx_iff_getElem?.mp (List.mem_of_find?_eq_some h), by simpa using List.find?_some h⟩

theorem start_of_checkOut {a : Requests.AccommodationStay} (h : stays.Pairwise StayApart) (ha : a ∈ stays)
    (hnight : a.checkInDate < day) (hend : a.checkOutDate = day) :
    ∃ x, (dayAnchors stays day).start = some x ∧ x.1 = a := by
  have hwakes : wakesIn day a = true := wakesIn_iff.mpr ⟨hnight, hend.ge⟩
  have hfind := (wakesIn_exclusive h day).find?_eq_some.mpr ⟨ha, hwakes⟩
  exact Option.map_eq_some_iff.mp ((congrArg Prod.fst (anchoredStays_eq stays day)).trans hfind)

theorem finish_of_checkIn {b : Requests.AccommodationStay} (h : stays.Pairwise StayApart) (hb : b ∈ stays)
    (hnight : day < b.checkOutDate) (hbegin : b.checkInDate = day) :
    ∃ x, (dayAnchors stays day).finish = some x ∧ x.1 = b := by
  have hsleeps : sleepsIn day b = true := sleepsIn_iff.mpr ⟨hbegin.le, hnight⟩
  have hfind := (sleepsIn_exclusive h day).find?_eq_some.mpr ⟨hb, hsleeps⟩
  exact Option.map_eq_some_iff.mp ((congrArg Prod.snd (anchoredStays_eq stays day)).trans hfind)

/-- Waking up in one stay and going to sleep in another leaves no day between them. -/
theorem meet_of_apart {a b : Requests.AccommodationStay} (ha : a.checkInDate < day ∧ day ≤ a.checkOutDate)
    (hb : b.checkInDate ≤ day ∧ day < b.checkOutDate) (h : StayApart a b) :
    a.checkOutDate = day ∧ b.checkInDate = day := by
  have hnights := apart_iff (ha.1.trans_le ha.2) (hb.1.trans_lt hb.2)
  rcases hnights.mp h with hbefore | hbefore
  · exact ⟨le_antisymm (hbefore.trans hb.1) ha.2, le_antisymm hb.1 (ha.2.trans hbefore)⟩
  · exact absurd (hb.2.trans_le hbefore) (not_lt.mpr ha.1.le)

/-- A changeover is a day on which one stay ends and another begins. -/
theorem transition_iff (hnights : ∀ s ∈ stays, s.checkInDate < s.checkOutDate) (h : stays.Pairwise StayApart)
    (day : Date) : Requests.isTransitionDay (dayAnchors stays day) = true ↔
      ∃ a ∈ stays, ∃ b ∈ stays, a ≠ b ∧ a.checkOutDate = day ∧ b.checkInDate = day := by
  constructor
  · intro htransition
    unfold Requests.isTransitionDay at htransition
    split at htransition
    · next x y hx hy =>
      obtain ⟨hxget, hwakes⟩ := start_spec hx
      obtain ⟨hyget, hsleeps⟩ := finish_spec hy
      have hapart := apart_of_positions h hxget hyget (by simpa using htransition)
      obtain ⟨hend, hbegin⟩ := meet_of_apart hwakes hsleeps hapart
      refine ⟨x.1, List.mem_of_getElem? hxget, y.1, List.mem_of_getElem? hyget, ?_, hend, hbegin⟩
      intro he
      rw [he, hbegin] at hwakes
      exact lt_irrefl _ hwakes.1
    · cases htransition
  · rintro ⟨a, ha, b, hb, hne, hend, hbegin⟩
    obtain ⟨x, hx, rfl⟩ := start_of_checkOut h ha (hend ▸ hnights a ha) hend
    obtain ⟨y, hy, rfl⟩ := finish_of_checkIn h hb (hbegin ▸ hnights b hb) hbegin
    rw [Requests.isTransitionDay, hx, hy]
    refine bne_iff_ne.mpr fun he ↦ hne ?_
    have hxget := (start_spec hx).1
    rw [he, (finish_spec hy).1] at hxget
    exact (Option.some.inj hxget).symm

theorem isTransitionDay_perm {reordered : List Requests.AccommodationStay}
    (hnights : ∀ s ∈ stays, s.checkInDate < s.checkOutDate) (h : stays.Pairwise StayApart)
    (hperm : reordered.Perm stays) (day : Date) :
    Requests.isTransitionDay (dayAnchors reordered day) = Requests.isTransitionDay (dayAnchors stays day) := by
  have hnights' : ∀ s ∈ reordered, s.checkInDate < s.checkOutDate := fun s hs ↦ hnights s (hperm.subset hs)
  rw [Bool.eq_iff_iff, transition_iff hnights' ((hperm.pairwise_iff Apart.symm).mpr h), transition_iff hnights h]
  simp only [hperm.mem_iff]

end Anchors

/-- Stays are accepted exactly when they share no night, on the page as on the server;
then every day has its anchors whatever the order of the list, and changeovers are
the days on which one stay ends and another begins. -/
theorem stays_and_changeovers {sort : (AccommodationDraft → AccommodationDraft → ℤ) → List AccommodationDraft →
    List AccommodationDraft} (hsort : ArraySort sort) {stays : List Requests.AccommodationStay}
    (hnights : ∀ s ∈ stays, s.checkInDate < s.checkOutDate) :
    (validateNoStayOverlaps stays = .ok () ↔ stays.Pairwise StaysApart) ∧
      (∀ drafts, List.Forall₂ SameDates (drafts.filter isCompleteAccommodationDraft) stays →
        (hasNoStayOverlaps sort drafts = true ↔ validateNoStayOverlaps stays = .ok ())) ∧
      (validateNoStayOverlaps stays = .ok () →
        (∀ day, (stays.filter (wakesIn day)).length ≤ 1 ∧ (stays.filter (sleepsIn day)).length ≤ 1 ∧
          (Requests.isTransitionDay (dayAnchors stays day) = true ↔
            ∃ a ∈ stays, ∃ b ∈ stays, a ≠ b ∧ a.checkOutDate = day ∧ b.checkInDate = day)) ∧
        ∀ reordered, reordered.Perm stays → ∀ dates,
          (Requests.resolveDayAnchors dates reordered).map anchoredStays =
            (Requests.resolveDayAnchors dates stays).map anchoredStays) := by
  have hvalid := noStayOverlaps_iff_apart hnights
  refine ⟨noStayOverlaps_iff hnights, ?_, ?_⟩
  · intro drafts hsame
    have hcomplete : ∀ a ∈ drafts.filter isCompleteAccommodationDraft, a.checkInDate < a.checkOutDate :=
      fun a ha ↦ complete_nights (List.mem_filter.mp ha).2
    rw [hvalid, hasNoStayOverlaps_iff hsort, pairwise_agrees hcomplete hsame]
  · intro haccepted
    have hapart := hvalid.mp haccepted
    refine ⟨fun day ↦ ⟨?_, ?_, transition_iff hnights hapart day⟩, ?_⟩
    · exact (wakesIn_exclusive hapart day).filter_length
    · exact (sleepsIn_exclusive hapart day).filter_length
    · intro reordered hperm dates
      rw [Requests.resolveDayAnchors, Requests.resolveDayAnchors, List.map_map, List.map_map]
      exact List.map_congr_left fun day _ ↦ anchoredStays_perm hapart hperm day

section Insertion

variable {α : Type}

def sortByInsertion (compare : α → α → ℤ) (l : List α) : List α := l.insertionSort fun a b ↦ compare a b ≤ 0

theorem orderedInsert_keyed {compare : α → α → ℤ} {key : α → String} {a : α} {l : List α}
    (hkey : ∀ b ∈ l, a ≠ b → (0 < compare a b ↔ key b < key a)) (hl : l.Pairwise fun a b ↦ key a ≤ key b) :
    (l.orderedInsert (fun a b ↦ compare a b ≤ 0) a).Pairwise fun a b ↦ key a ≤ key b := by
  induction l with
  | nil => simp
  | cons b l ih =>
    obtain ⟨hfirst, hrest⟩ := List.pairwise_cons.mp hl
    have hab : a = b ∨ (0 < compare a b ↔ key b < key a) := or_iff_not_imp_left.mpr (hkey b (by simp))
    by_cases hle : compare a b ≤ 0
    · rw [List.orderedInsert, if_pos hle]
      have hkeys : key a ≤ key b := by
        rcases hab with rfl | hab
        · exact le_rfl
        · exact not_lt.mp fun hlt ↦ absurd (hab.mpr hlt) (not_lt.mpr hle)
      refine List.pairwise_cons.mpr ⟨?_, hl⟩
      intro c hc
      rcases List.mem_cons.mp hc with rfl | hc
      · exact hkeys
      · exact hkeys.trans (hfirst c hc)
    · rw [List.orderedInsert, if_neg hle]
      have hkeys : key b ≤ key a := by
        rcases hab with rfl | hab
        · exact le_rfl
        · exact (hab.mp (not_le.mp hle)).le
      refine List.pairwise_cons.mpr ⟨?_, ih (fun c hc ↦ hkey c (List.mem_cons_of_mem _ hc)) hrest⟩
      intro c hc
      rcases List.mem_cons.mp ((List.perm_orderedInsert _ _ _).mem_iff.mp hc) with rfl | hc
      · exact hkeys
      · exact hfirst c hc

theorem sortByInsertion_sorts : ArraySort (sortByInsertion (α := α)) where
  perm compare l := List.perm_insertionSort _ l
  sorted compare l key hkey := by
    induction l with
    | nil => exact .nil
    | cons a l ih =>
      have hrest := ih fun b hb c hc ↦ hkey b (List.mem_cons_of_mem _ hb) c (List.mem_cons_of_mem _ hc)
      refine orderedInsert_keyed (fun b hb hne ↦ ?_) hrest
      have hmem : b ∈ l := (List.perm_insertionSort _ l).mem_iff.mp hb
      exact (hkey a (by simp) b (List.mem_cons_of_mem _ hmem) hne).2

end Insertion

theorem stays_and_changeovers_changeover :
    (validateNoStayOverlaps changeover.accommodations = .ok () ↔ changeover.accommodations.Pairwise StaysApart) ∧
      (∀ drafts, List.Forall₂ SameDates (drafts.filter isCompleteAccommodationDraft) changeover.accommodations →
        (hasNoStayOverlaps sortByInsertion drafts = true ↔
          validateNoStayOverlaps changeover.accommodations = .ok ())) ∧
      (validateNoStayOverlaps changeover.accommodations = .ok () →
        (∀ day, (changeover.accommodations.filter (wakesIn day)).length ≤ 1 ∧
          (changeover.accommodations.filter (sleepsIn day)).length ≤ 1 ∧
          (Requests.isTransitionDay (dayAnchors changeover.accommodations day) = true ↔
            ∃ a ∈ changeover.accommodations, ∃ b ∈ changeover.accommodations,
              a ≠ b ∧ a.checkOutDate = day ∧ b.checkInDate = day)) ∧
        ∀ reordered, reordered.Perm changeover.accommodations → ∀ dates,
          (Requests.resolveDayAnchors dates reordered).map anchoredStays =
            (Requests.resolveDayAnchors dates changeover.accommodations).map anchoredStays) :=
  stays_and_changeovers sortByInsertion_sorts (by decide +kernel)

end TravelPlanner.StayNights
