import TravelPlanner.Fallible
import TravelPlanner.Intervals
import TravelPlanner.Planner

namespace TravelPlanner.PlannerRequests

open Clock IsoDates Fallible Intervals Planner
open Requests (Validated check checkAll validateNoStayOverlaps checkAdjacentStays validateTransferDay)

section Receiving

variable (readTime : String → Option Time)

def readOptional : Option String → Option (Option Time)
  | none => some none
  | some text => (readTime text).map some

def receiveDay (day : Planner.DayConfig) : Option Requests.DayConfig := do
  let date ← parseDate day.date
  let startTime ← readOptional readTime day.dayStartTime
  let endTime ← readOptional readTime day.dayEndTime
  some
    { date := date
      dayStartHour := day.dayStartHour.getD 9
      dayEndHour := day.dayEndHour.getD 21
      dayStartTime := startTime
      dayEndTime := endTime
      startLat := day.startLat
      startLng := day.startLng
      endLat := day.endLat
      endLng := day.endLng }

def receiveStay (stay : Planner.AccommodationStay) : Option Requests.AccommodationStay := do
  let checkInDate ← parseDate stay.checkInDate
  let checkOutDate ← parseDate stay.checkOutDate
  let checkInFrom ← readOptional readTime stay.checkInFrom
  let checkOutBy ← readOptional readTime stay.checkOutBy
  some
    { name := stay.name
      lat := stay.lat
      lng := stay.lng
      checkInDate := checkInDate
      checkOutDate := checkOutDate
      checkInFrom := checkInFrom
      checkOutBy := checkOutBy }

def receiveTransfer (transfer : Planner.TransferBlock) : Option Requests.TransferBlock := do
  let date ← parseDate transfer.date
  let departureTime ← readTime transfer.departureTime
  let arrivalTime ← readTime transfer.arrivalTime
  some ⟨date, departureTime, arrivalTime, transfer.label⟩

def receiveMode : TransportModeNoTransit → Requests.TransportMode
  | .walk => .walk
  | .drive => .drive
  | .bicycle => .bicycle

def receive (form : Planner.MultiDayRequest) : Option Requests.MultiDayRequest := do
  let days ← form.days.mapM (receiveDay readTime)
  let accommodations ← form.accommodations.mapM (receiveStay readTime)
  let transfers ← form.transfers.mapM (receiveTransfer readTime)
  some
    { days := days
      places := form.places
      transportMode := receiveMode form.transportMode
      startLat := form.startLat
      startLng := form.startLng
      endLat := form.endLat
      endLng := form.endLng
      accommodations := accommodations
      transfers := transfers }

end Receiving

section Validators

def validateDayIndices (r : Requests.MultiDayRequest) : Validated :=
  checkAll (fun p ↦ checkAll (fun s : Requests.DaySlot ↦
    check (s.dayIndex < r.days.length) (.dayIndexOutOfRange s.dayIndex r.days.length)) p.dayPreferences) r.places

def validateAccommodations (r : Requests.MultiDayRequest) : Validated := validateNoStayOverlaps r.accommodations

def validateUniqueTransferDates (r : Requests.MultiDayRequest) : Validated :=
  check (r.transfers.map Requests.TransferBlock.date).Nodup (.value "duplicate date found in transfers list")

def validateTransfersOnTransitionDays (r : Requests.MultiDayRequest) : Validated := do
  checkAll (fun t : Requests.TransferBlock ↦
    check (t.date ∈ r.days.map Requests.DayConfig.date) (.transferOffTrip t.date)) r.transfers
  checkAll (validateTransferDay r) r.transfers

theorem validate_eq (r : Requests.MultiDayRequest) : r.validate = (do
    check (1 ≤ r.days.length ∧ r.days.length ≤ 31) (.field "days")
    checkAll Requests.DayConfig.validate r.days
    check (2 ≤ r.places.length ∧ r.places.length ≤ 50) (.field "places")
    checkAll (fun p ↦ checkAll (fun s : Requests.DaySlot ↦
      check (0 ≤ s.dayIndex) (.field "day_index")) p.dayPreferences) r.places
    checkAll Requests.AccommodationStay.validate r.accommodations
    checkAll Requests.TransferBlock.validate r.transfers
    check (r.transportMode ≠ .transit) Requests.noTransitError
    validateDayIndices r
    check (r.places.map Requests.PlaceDayPreference.placeId).Nodup (.value "duplicate place_id found in places list")
    Requests.validateStartLocation r.startLat r.startLng
    Requests.validateEndLocation r.endLat r.endLng
    validateAccommodations r
    check (r.days.map Requests.DayConfig.date).Nodup (.value "duplicate date found in days list")
    validateUniqueTransferDates r
    validateTransfersOnTransitionDays r
    checkAll (Requests.validateConfigConflict r) r.days) := by
  rw [Requests.MultiDayRequest.validate]
  simp only [validateTransfersOnTransitionDays, bind_assoc]
  rfl

end Validators

section Transitions

/-- A draft and the stay the server reads for it lie on the same dates. -/
def SameDates (draft : AccommodationDraft) (stay : Requests.AccommodationStay) : Prop :=
  draft.checkInDate = isoformat stay.checkInDate ∧ draft.checkOutDate = isoformat stay.checkOutDate

theorem find?_zipIdx {α β : Type} {p : α → Bool} {q : β → Bool} {l : List α} {r : List β}
    (h : List.Forall₂ (fun a b ↦ p a = q b) l r) (n : ℕ) :
    ((l.zipIdx n).find? fun a ↦ p a.1).map Prod.snd = ((r.zipIdx n).find? fun b ↦ q b.1).map Prod.snd := by
  induction h generalizing n with
  | nil => rfl
  | @cons a b l r hab _ ih =>
    rw [List.zipIdx_cons, List.zipIdx_cons, List.find?_cons, List.find?_cons]
    simp only [hab]
    cases q b with
    | true => rfl
    | false => exact ih (n + 1)

theorem find?_position {α : Type} (p : α → Bool) (l : List α) :
    l.find? p = (l.zipIdx.find? fun a ↦ p a.1).map Prod.fst := by
  conv_lhs => rw [← List.zipIdx_map_fst 0 l]
  rw [List.find?_map]
  rfl

theorem key_eq_iff {drafts : List AccommodationDraft} (hkeys : (drafts.map AccommodationDraft.localKey).Nodup)
    {a b : AccommodationDraft × ℕ} (ha : a ∈ drafts.zipIdx) (hb : b ∈ drafts.zipIdx) :
    a.1.localKey = b.1.localKey ↔ a.2 = b.2 := by
  have hga := List.mem_zipIdx_iff_getElem?.mp ha
  have hgb := List.mem_zipIdx_iff_getElem?.mp hb
  constructor
  · intro h
    obtain ⟨hlt, -⟩ := List.getElem?_eq_some_iff.mp hga
    have hsame : (drafts.map AccommodationDraft.localKey)[a.2]? =
        (drafts.map AccommodationDraft.localKey)[b.2]? := by
      rw [List.getElem?_map, List.getElem?_map, hga, hgb, Option.map_some, Option.map_some, h]
    exact (List.getElem?_inj (by simpa using hlt) hkeys).mp hsame
  · intro h
    rw [h, hgb] at hga
    rw [Option.some.inj hga]

theorem changeover_agrees {drafts : List AccommodationDraft} {stays : List Requests.AccommodationStay}
    (hkeys : (drafts.map AccommodationDraft.localKey).Nodup) {p q : AccommodationDraft → Bool}
    {u v : Requests.AccommodationStay → Bool} (hp : List.Forall₂ (fun a b ↦ p a = u b) drafts stays)
    (hq : List.Forall₂ (fun a b ↦ q a = v b) drafts stays) :
    isTransitionDay ⟨drafts.find? p, drafts.find? q⟩ =
      Requests.isTransitionDay ⟨stays.zipIdx.find? fun b ↦ u b.1, stays.zipIdx.find? fun b ↦ v b.1⟩ := by
  have hstart := find?_zipIdx hp 0
  have hfinish := find?_zipIdx hq 0
  rw [find?_position p, find?_position q]
  cases hs : drafts.zipIdx.find? fun a ↦ p a.1 with
  | none =>
    rw [hs, Option.map_none, eq_comm, Option.map_eq_none_iff] at hstart
    simp only [isTransitionDay, Requests.isTransitionDay, hstart, Option.map_none]
  | some a =>
    cases hf : drafts.zipIdx.find? fun a ↦ q a.1 with
    | none =>
      rw [hf, Option.map_none, eq_comm, Option.map_eq_none_iff] at hfinish
      cases stays.zipIdx.find? fun b ↦ u b.1 <;>
        simp only [isTransitionDay, Requests.isTransitionDay, hfinish, Option.map_none, Option.map_some]
    | some b =>
      rw [hs] at hstart
      rw [hf] at hfinish
      obtain ⟨a', ha', hposA⟩ := Option.map_eq_some_iff.mp hstart.symm
      obtain ⟨b', hb', hposB⟩ := Option.map_eq_some_iff.mp hfinish.symm
      have hkey := key_eq_iff hkeys (List.mem_of_find?_eq_some hs) (List.mem_of_find?_eq_some hf)
      simp only [isTransitionDay, Requests.isTransitionDay, ha', hb', Option.map_some, hposA, hposB]
      rw [Bool.eq_iff_iff, bne_iff_ne, bne_iff_ne, not_iff_not]
      exact hkey

theorem transition_agrees {drafts : List AccommodationDraft} {stays : List Requests.AccommodationStay}
    (hkeys : (drafts.map AccommodationDraft.localKey).Nodup) (hsame : List.Forall₂ SameDates drafts stays)
    (day : Date) :
    isTransitionDay (anchorsOf drafts (isoformat day)) = Requests.isTransitionDay (Requests.dayAnchors stays day) := by
  have hlt := @StrictMono.lt_iff_lt _ _ _ _ _ isoformat_strictMono
  have hle := @StrictMono.le_iff_le _ _ _ _ _ isoformat_strictMono
  apply changeover_agrees hkeys (u := fun s ↦ s.checkInDate < day ∧ day ≤ s.checkOutDate)
    (v := fun s ↦ s.checkInDate ≤ day ∧ day < s.checkOutDate)
  · exact hsame.imp fun draft stay h ↦ by simp only [h.1, h.2, hlt, hle]
  · exact hsame.imp fun draft stay h ↦ by simp only [h.1, h.2, hlt, hle]

end Transitions

section Nights

def Covers (draft : AccommodationDraft) (night : Date) : Prop :=
  ∃ checkIn checkOut, parseDate draft.checkInDate = some checkIn ∧ parseDate draft.checkOutDate = some checkOut ∧
    checkIn ≤ night ∧ night < checkOut

def NightsApart (a b : AccommodationDraft) : Prop := ∀ night, ¬(Covers a night ∧ Covers b night)

def StaysApart (a b : Requests.AccommodationStay) : Prop :=
  ∀ night, ¬((a.checkInDate ≤ night ∧ night < a.checkOutDate) ∧ b.checkInDate ≤ night ∧ night < b.checkOutDate)

theorem covers_of_sameDates {draft : AccommodationDraft} {stay : Requests.AccommodationStay}
    (h : SameDates draft stay) {night : Date} (hnight : stay.checkInDate ≤ night ∧ night < stay.checkOutDate) :
    Covers draft night :=
  ⟨stay.checkInDate, stay.checkOutDate, parseDate_iff.mpr h.1, parseDate_iff.mpr h.2, hnight⟩

theorem staysApart_of_nightsApart {drafts : List AccommodationDraft} {stays : List Requests.AccommodationStay}
    (hsame : List.Forall₂ SameDates drafts stays) (h : drafts.Pairwise NightsApart) : stays.Pairwise StaysApart := by
  induction hsame with
  | nil => exact .nil
  | cons hab hrest ih =>
    obtain ⟨hfirst, htail⟩ := List.pairwise_cons.mp h
    refine List.pairwise_cons.mpr ⟨?_, ih htail⟩
    intro stay hstay night hnight
    obtain ⟨draft, hdraft, hsame⟩ := mem_of_forall₂ hrest hstay
    exact hfirst draft hdraft night ⟨covers_of_sameDates hab hnight.1, covers_of_sameDates hsame hnight.2⟩

theorem complete_nights {draft : AccommodationDraft} (h : isCompleteAccommodationDraft draft = true) :
    draft.checkInDate < draft.checkOutDate := by
  simp only [isCompleteAccommodationDraft, Bool.and_eq_true, decide_eq_true_eq] at h
  exact h.2

theorem staysApart_iff {a b : Requests.AccommodationStay} : StaysApart a b ↔
    Apart Requests.AccommodationStay.checkInDate Requests.AccommodationStay.checkOutDate a b := by
  rw [Apart, Set.disjoint_left]
  exact forall_congr' fun night ↦ not_and

theorem adjacentStays_iff {stays : List Requests.AccommodationStay} : checkAdjacentStays stays = .ok () ↔
    stays.IsChain (Before Requests.AccommodationStay.checkInDate Requests.AccommodationStay.checkOutDate) := by
  induction stays with
  | nil => exact iff_of_true rfl .nil
  | cons a stays ih =>
    cases stays with
    | nil => exact iff_of_true rfl (.singleton a)
    | cons b stays =>
      rw [checkAdjacentStays, Requests.then_ok, Requests.check_ok, ih, List.isChain_cons_cons, Before, not_lt]

/-- Looking at neighbours in order of check-in finds every shared night. -/
theorem noStayOverlaps_iff {stays : List Requests.AccommodationStay}
    (hnights : ∀ s ∈ stays, s.checkInDate < s.checkOutDate) :
    validateNoStayOverlaps stays = .ok () ↔ stays.Pairwise StaysApart := by
  have hchain := chain_iff_pairwise_apart hnights (List.perm_insertionSort _ stays)
    (List.pairwise_insertionSort (fun a b ↦ a.checkInDate ≤ b.checkInDate) stays)
  rw [validateNoStayOverlaps, adjacentStays_iff, hchain]
  exact ⟨fun h ↦ h.imp staysApart_iff.mpr, fun h ↦ h.imp staysApart_iff.mp⟩

end Nights

section Reconciliation

/-- What the page keeps true of the state it edits. -/
structure Editable (state : MultiDayEditableState) : Prop where
  dates_ascending : state.dayDates.Pairwise (· < ·)
  keys_unique : (state.accommodations.map AccommodationDraft.localKey).Nodup
  nights_apart : (state.accommodations.filter isCompleteAccommodationDraft).Pairwise NightsApart
  transfers_keyed : ∀ e ∈ state.transfers.entries, e.2.date = e.1

variable {readTime : String → Option Time} {state : MultiDayEditableState}

theorem editable_reconcile (h : Editable state) : Editable (reconcileEditableState state) where
  dates_ascending := h.dates_ascending
  keys_unique := h.keys_unique.sublist ((pruneToTrip_sublist _ _).map _)
  nights_apart := h.nights_apart.sublist ((pruneToTrip_sublist _ _).filter _)
  transfers_keyed := fun e he ↦ h.transfers_keyed e (transfers_kept he).1

/-- Only complete drafts are turned into stays, so the building never throws. -/
theorem build_succeeds (state : MultiDayEditableState) : ∃ form, buildMultiDayRequest state = some form := by
  obtain ⟨stays, hstays⟩ := mapM_of_forall (f := draftToStay)
    (l := state.accommodations.filter isCompleteAccommodationDraft)
    fun draft hdraft ↦ draftToStay_of_complete (List.mem_filter.mp hdraft).2
  exact ⟨_, by rw [buildMultiDayRequest, hstays]; rfl⟩

structure SentFrom (state : MultiDayEditableState) (request : Requests.MultiDayRequest) : Prop where
  days : state.dayDates = request.days.map fun day ↦ isoformat day.date
  places : request.places = state.placeSelections.entries.map fun e ↦ ⟨e.1, e.2⟩
  stays : List.Forall₂ SameDates (state.accommodations.filter isCompleteAccommodationDraft) request.accommodations
  transfers : (state.transfers.entries.map fun e ↦ e.2.date) = request.transfers.map fun t ↦ isoformat t.date

theorem receiveDay_date {day : Planner.DayConfig} {config : Requests.DayConfig}
    (h : receiveDay readTime day = some config) : day.date = isoformat config.date := by
  obtain ⟨date, hdate, h⟩ := Option.bind_eq_some_iff.mp h
  obtain ⟨startTime, -, h⟩ := Option.bind_eq_some_iff.mp h
  obtain ⟨endTime, -, h⟩ := Option.bind_eq_some_iff.mp h
  obtain rfl := Option.some.inj h
  exact parseDate_iff.mp hdate

theorem receiveStay_dates {form : Planner.AccommodationStay} {stay : Requests.AccommodationStay}
    (h : receiveStay readTime form = some stay) :
    form.checkInDate = isoformat stay.checkInDate ∧ form.checkOutDate = isoformat stay.checkOutDate := by
  obtain ⟨checkIn, hin, h⟩ := Option.bind_eq_some_iff.mp h
  obtain ⟨checkOut, hout, h⟩ := Option.bind_eq_some_iff.mp h
  obtain ⟨checkInFrom, -, h⟩ := Option.bind_eq_some_iff.mp h
  obtain ⟨checkOutBy, -, h⟩ := Option.bind_eq_some_iff.mp h
  obtain rfl := Option.some.inj h
  exact ⟨parseDate_iff.mp hin, parseDate_iff.mp hout⟩

theorem receiveTransfer_date {form : Planner.TransferBlock} {transfer : Requests.TransferBlock}
    (h : receiveTransfer readTime form = some transfer) : form.date = isoformat transfer.date := by
  obtain ⟨date, hdate, h⟩ := Option.bind_eq_some_iff.mp h
  obtain ⟨departure, -, h⟩ := Option.bind_eq_some_iff.mp h
  obtain ⟨arrival, -, h⟩ := Option.bind_eq_some_iff.mp h
  obtain rfl := Option.some.inj h
  exact parseDate_iff.mp hdate

theorem sentFrom_of_receive {form : Planner.MultiDayRequest} (hform : buildMultiDayRequest state = some form)
    {request : Requests.MultiDayRequest} (hrequest : receive readTime form = some request) :
    SentFrom state request := by
  obtain ⟨stays, hstays, hform⟩ := Option.bind_eq_some_iff.mp hform
  obtain rfl := Option.some.inj hform
  obtain ⟨days, hdays, hrequest⟩ := Option.bind_eq_some_iff.mp hrequest
  obtain ⟨accommodations, haccommodations, hrequest⟩ := Option.bind_eq_some_iff.mp hrequest
  obtain ⟨transfers, htransfers, hrequest⟩ := Option.bind_eq_some_iff.mp hrequest
  obtain rfl := Option.some.inj hrequest
  refine ⟨?_, rfl, ?_, ?_⟩
  · exact map_eq_of_forall₂ (fun _ _ h ↦ receiveDay_date h) (forall₂_of_mapM hdays)
  · refine forall₂_comp ?_ (forall₂_of_mapM hstays) (forall₂_of_mapM haccommodations)
    intro draft form stay hdraft hstay
    obtain ⟨hin, hout⟩ := draftToStay_dates hdraft
    obtain ⟨hin', hout'⟩ := receiveStay_dates hstay
    exact ⟨hin.symm.trans hin', hout.symm.trans hout'⟩
  · have h := map_eq_of_forall₂ (fun _ _ h ↦ receiveTransfer_date h) (forall₂_of_mapM htransfers)
    rw [List.map_map] at h
    exact h

variable {request : Requests.MultiDayRequest}

theorem dayIndices_ok (hsent : SentFrom (reconcileEditableState state) request) :
    validateDayIndices request = .ok () := by
  have hlength : request.days.length = state.days.length := by
    have h := congrArg List.length hsent.days
    simpa [MultiDayEditableState.dayDates, reconcileEditableState] using h.symm
  simp only [validateDayIndices, Requests.checkAll_ok, Requests.check_ok, hsent.places, List.forall_mem_map, hlength]
  exact fun e he slot hslot ↦ slots_in_range he hslot

theorem uniqueTransferDates_ok (h : Editable state) (hsent : SentFrom state request) :
    validateUniqueTransferDates request = .ok () := by
  have hkeys : (state.transfers.entries.map fun e ↦ e.2.date) = state.transfers.entries.map Prod.fst :=
    List.map_congr_left h.transfers_keyed
  have hnodup := state.transfers.keys_nodup
  rw [← hkeys, hsent.transfers] at hnodup
  rw [validateUniqueTransferDates, Requests.check_ok]
  refine List.Nodup.of_map isoformat ?_
  rw [List.map_map]
  exact hnodup

theorem accommodations_ok (h : Editable state) (hsent : SentFrom state request) :
    validateAccommodations request = .ok () := by
  refine (noStayOverlaps_iff ?_).mpr (staysApart_of_nightsApart hsent.stays h.nights_apart)
  intro stay hstay
  obtain ⟨draft, hdraft, hin, hout⟩ := mem_of_forall₂ hsent.stays hstay
  rw [← isoformat_strictMono.lt_iff_lt, ← hin, ← hout]
  exact complete_nights (List.mem_filter.mp hdraft).2

theorem transfersOnTransitionDays_ok (h : Editable (reconcileEditableState state))
    (hsent : SentFrom (reconcileEditableState state) request) : validateTransfersOnTransitionDays request = .ok () := by
  have hkeys := h.keys_unique.sublist (List.filter_sublist (p := isCompleteAccommodationDraft) |>.map _)
  have hmem : ∀ t ∈ request.transfers,
    ∃ e ∈ (reconcileEditableState state).transfers.entries, e.1 = isoformat t.date := by
    intro t ht
    have hdate : isoformat t.date ∈ request.transfers.map fun t ↦ isoformat t.date := List.mem_map_of_mem ht
    rw [← hsent.transfers] at hdate
    obtain ⟨e, he, hdate⟩ := List.mem_map.mp hdate
    exact ⟨e, he, (h.transfers_keyed e he).symm.trans hdate⟩
  rw [validateTransfersOnTransitionDays, Requests.then_ok, Requests.checkAll_ok, Requests.checkAll_ok]
  constructor
  · intro t ht
    obtain ⟨e, he, hdate⟩ := hmem t ht
    have hday : isoformat t.date ∈ (reconcileEditableState state).dayDates := hdate ▸ (transfers_kept he).2.1
    rw [hsent.days] at hday
    obtain ⟨day, hday, hsame⟩ := List.mem_map.mp hday
    rw [Requests.check_ok]
    exact List.mem_map.mpr ⟨day, hday, isoformat_strictMono.injective hsame⟩
  · intro t ht
    obtain ⟨e, he, hdate⟩ := hmem t ht
    have htransition := (transfers_kept he).2.2
    rw [hdate, transition_agrees hkeys hsent.stays] at htransition
    rw [validateTransferDay, Requests.check_ok]
    exact htransition

/-- Reconciling twice is reconciling once, it moves no anchor of a day, and what is sent
afterwards passes the validators that relate days, stays and transfers. -/
theorem reconciled_request_accepted (readTime : String → Option Time) (state : MultiDayEditableState)
    (h : Editable state) :
    reconcileEditableState (reconcileEditableState state) = reconcileEditableState state ∧
    resolveDayAnchors state.dayDates (reconcileEditableState state).accommodations =
      resolveDayAnchors state.dayDates state.accommodations ∧
    resolveDayAnchors state.dayDates
        ((reconcileEditableState state).accommodations.filter isCompleteAccommodationDraft) =
      resolveDayAnchors state.dayDates (state.accommodations.filter isCompleteAccommodationDraft) ∧
    ∃ form, buildMultiDayRequest (reconcileEditableState state) = some form ∧
      ∀ request, receive readTime form = some request →
        validateDayIndices request = .ok () ∧ validateUniqueTransferDates request = .ok () ∧
        validateAccommodations request = .ok () ∧ validateTransfersOnTransitionDays request = .ok () := by
  have hfiltered : (reconcileEditableState state).accommodations.filter isCompleteAccommodationDraft =
      pruneToTrip state.dayDates (state.accommodations.filter isCompleteAccommodationDraft) :=
    pruneToTrip_filter _ _ _
  obtain ⟨form, hform⟩ := build_succeeds (reconcileEditableState state)
  refine ⟨reconcile_idem state, resolve_prune h.dates_ascending _, ?_, form, hform, ?_⟩
  · rw [hfiltered]
    exact resolve_prune h.dates_ascending _
  · intro request hrequest
    have hsent := sentFrom_of_receive hform hrequest
    have hkept := editable_reconcile h
    exact ⟨dayIndices_ok hsent, uniqueTransferDates_ok hkept hsent, accommodations_ok hkept hsent,
      transfersOnTransitionDays_ok hkept hsent⟩

theorem nightsApart_of_le {a b : AccommodationDraft} (h : a.checkOutDate ≤ b.checkInDate) : NightsApart a b := by
  rintro night ⟨⟨_, out, -, hout, -, hlt⟩, inn, _, hin, -, hle, -⟩
  rw [parseDate_iff.mp hout, parseDate_iff.mp hin, isoformat_strictMono.le_iff_le] at h
  exact absurd (hlt.trans_le (h.trans hle)) (lt_irrefl night)

def draftOf (localKey name checkIn checkOut : String) : AccommodationDraft :=
  ⟨localKey, name, some 50, some 20, checkIn, checkOut, none, none⟩

def autumnTrip : MultiDayEditableState where
  days := [⟨"2026-09-01", none, none, none, none, none, none, none, none⟩,
    ⟨"2026-09-02", some 8, none, none, none, none, none, none, none⟩,
    ⟨"2026-09-03", none, none, none, none, none, none, none, none⟩]
  placeSelections := ⟨[("castle", [⟨0, none, none⟩, ⟨5, none, none⟩]), ("museum", [])], by decide⟩
  transportMode := .walk
  accommodations := [draftOf "k1" " Inn " "2026-09-01" "2026-09-02", draftOf "k2" "Hostel" "2026-09-02" "2026-09-04",
    draftOf "k3" "Villa" "2026-10-01" "2026-10-03", draftOf "k4" " " "2026-09-01" "2026-09-03"]
  transfers := ⟨[("2026-09-02", ⟨"2026-09-02", "08:00", "10:30", none⟩),
    ("2026-09-03", ⟨"2026-09-03", "08:00", "10:30", none⟩)], by decide⟩
  globalStart := none
  globalEnd := none

theorem autumnTrip_editable : Editable autumnTrip where
  dates_ascending := by decide
  keys_unique := by decide
  nights_apart := by
    have hin : (autumnTrip.accommodations.filter isCompleteAccommodationDraft).Pairwise
        fun a b ↦ a.checkOutDate ≤ b.checkInDate := by decide
    exact hin.imp nightsApart_of_le
  transfers_keyed := by decide

def readClock (text : String) : Option Time :=
  if text = "08:00" then some (secondsToTime 28800) else if text = "10:30" then some (secondsToTime 37800) else none

theorem autumnTrip_accepted : ∃ form request, buildMultiDayRequest (reconcileEditableState autumnTrip) = some form ∧
    receive readClock form = some request ∧ validateDayIndices request = .ok () ∧
    validateUniqueTransferDates request = .ok () ∧ validateAccommodations request = .ok () ∧
    validateTransfersOnTransitionDays request = .ok () := by
  obtain ⟨-, -, -, form, hform, hall⟩ := reconciled_request_accepted readClock autumnTrip autumnTrip_editable
  have hread : ((buildMultiDayRequest (reconcileEditableState autumnTrip)).bind (receive readClock)).isSome = true := by
    decide
  rw [hform, Option.bind_some] at hread
  obtain ⟨request, hrequest⟩ := Option.isSome_iff_exists.mp hread
  exact ⟨form, request, hform, hrequest, hall request hrequest⟩

end Reconciliation

end TravelPlanner.PlannerRequests
