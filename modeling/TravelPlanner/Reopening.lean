import Mathlib.Data.Finset.Basic
import TravelPlanner.IsoTimes
import TravelPlanner.PlannerRequests
import TravelPlanner.Tables

namespace TravelPlanner.Reopening

open Lines Fallible Planner PlannerRequests Tables IsoDates IsoTimes
open Requests (PlaceId PlaceDayPreference Coord)

section Hydrating

variable {V : Type}

def newMap (entries : List (String × V)) : EntryMap V :=
  let table := entries.foldl Table.put (Table.empty : Table (String × V) Prod.fst)
  ⟨table.rows, table.nodup⟩

def stayToDraft (localKey : String) (stay : AccommodationStay) : AccommodationDraft where
  localKey := localKey
  name := stay.name
  lat := some stay.lat
  lng := some stay.lng
  checkInDate := stay.checkInDate
  checkOutDate := stay.checkOutDate
  checkInFrom := stay.checkInFrom
  checkOutBy := stay.checkOutBy

def pointOf (lat lng : Option Coord) : Option Point :=
  match lat, lng with
  | some lat, some lng => some ⟨lat, lng⟩
  | _, _ => none

def availablePlaces (places : List PlaceDayPreference) (availablePlaceIds : Option (Finset PlaceId)) :
    List PlaceDayPreference :=
  match availablePlaceIds with
  | some ids => places.filter fun p ↦ p.placeId ∈ ids
  | none => places

def draftsOf (randomUUID : ℕ → String) (stays : List (AccommodationStay × ℕ)) : List AccommodationDraft :=
  stays.map fun s ↦ stayToDraft (randomUUID s.2) s.1

def hydrateEditableState (randomUUID : ℕ → String) (request : MultiDayRequest)
    (availablePlaceIds : Option (Finset PlaceId)) : MultiDayEditableState where
  days := request.days
  placeSelections :=
    newMap ((availablePlaces request.places availablePlaceIds).map fun p ↦ (p.placeId, p.dayPreferences))
  transportMode := request.transportMode
  accommodations := draftsOf randomUUID request.accommodations.zipIdx
  transfers := newMap (request.transfers.map fun t ↦ (t.date, t))
  globalStart := pointOf request.startLat request.startLng
  globalEnd := pointOf request.endLat request.endLng

def hasIncompleteAccommodation (state : MultiDayEditableState) : Bool :=
  state.accommodations.any fun draft ↦ !isCompleteAccommodationDraft draft

end Hydrating

section Rebuilding

variable {V : Type} {randomUUID : ℕ → String} {form : MultiDayRequest} {r : Requests.MultiDayRequest}
  {readTime : String → Option Clock.Time}

theorem newMap_entries {entries : List (String × V)} (h : (entries.map Prod.fst).Nodup) :
    (newMap entries).entries = entries := by
  simpa [newMap, Table.empty] using Table.foldl_put_fresh entries h Table.empty (by simp [Table.empty])

theorem pointOf_paired {lat lng : Option Coord} (h : lat.isNone = lng.isNone) :
    (pointOf lat lng).map Point.lat = lat ∧ (pointOf lat lng).map Point.lng = lng := by
  cases lat with
  | none =>
    cases lng with
    | none => exact ⟨rfl, rfl⟩
    | some _ => cases h
  | some _ =>
    cases lng with
    | none => cases h
    | some _ => exact ⟨rfl, rfl⟩

structure Accepted (form : MultiDayRequest) : Prop where
  places_distinct : (form.places.map PlaceDayPreference.placeId).Nodup
  transfers_distinct : (form.transfers.map TransferBlock.date).Nodup
  start_paired : form.startLat.isNone = form.startLng.isNone
  end_paired : form.endLat.isNone = form.endLng.isNone
  stays_named : ∀ stay ∈ form.accommodations, stay.name ≠ ""
  stays_last : ∀ stay ∈ form.accommodations, stay.checkInDate < stay.checkOutDate

theorem receiveStay_spec {stay : AccommodationStay} {s : Requests.AccommodationStay}
    (h : receiveStay readTime stay = some s) (hvalid : s.validate = .ok ()) :
    stay.name ≠ "" ∧ stay.checkInDate < stay.checkOutDate := by
  obtain ⟨hin, hout⟩ := receiveStay_dates h
  simp only [Requests.AccommodationStay.validate, Requests.then_ok, Requests.check_ok] at hvalid
  obtain ⟨⟨hname, -⟩, -, -, hdates⟩ := hvalid
  have hsame : s.name = stay.name := by
    simp only [receiveStay, Option.bind_eq_bind, Option.bind_eq_some_iff] at h
    obtain ⟨_, -, _, -, _, -, _, -, h⟩ := h
    rw [← Option.some.inj h]
  refine ⟨?_, ?_⟩
  · rintro hempty
    rw [hsame, hempty] at hname
    exact absurd hname (by decide)
  · rw [hin, hout]
    exact isoformat_strictMono hdates

theorem accepted_of_receive (hread : receive readTime form = some r) (hvalid : r.Valid) : Accepted form := by
  simp only [Requests.MultiDayRequest.Valid, Requests.MultiDayRequest.validate, Requests.then_ok, Requests.check_ok,
    Requests.checkAll_ok, Requests.validateStartLocation, Requests.validateEndLocation] at hvalid
  obtain ⟨-, -, -, -, hstays, -, -, -, hplaces, hstart, hend, -, -, htransfers, -⟩ := hvalid
  simp only [receive, Option.bind_eq_bind, Option.bind_eq_some_iff] at hread
  obtain ⟨days, -, stays, hreadStays, transfers, hreadTransfers, hread⟩ := hread
  obtain rfl := Option.some.inj hread
  have hstay : ∀ stay ∈ form.accommodations, stay.name ≠ "" ∧ stay.checkInDate < stay.checkOutDate := by
    intro stay hmem
    obtain ⟨s, hs, hreadStay⟩ := mem_of_forall₂ (forall₂_of_mapM hreadStays).flip hmem
    exact receiveStay_spec hreadStay (hstays s hs)
  have hdates : form.transfers.map TransferBlock.date = transfers.map fun t ↦ isoformat t.date :=
    map_eq_of_forall₂ (fun _ _ h ↦ receiveTransfer_date h) (forall₂_of_mapM hreadTransfers)
  refine ⟨hplaces, ?_, hstart, hend, fun stay hmem ↦ (hstay stay hmem).1, fun stay hmem ↦ (hstay stay hmem).2⟩
  rw [hdates, ← Function.comp_def isoformat, ← List.map_map]
  exact htransfers.map isoformat_strictMono.injective

def trimmedStay (stay : AccommodationStay) : AccommodationStay :=
  { stay with name := String.ofList (trim stay.name.toList) }

def named (stay : AccommodationStay) : Bool := 0 < (trim stay.name.toList).length

theorem complete_stayToDraft (localKey : String) {stay : AccommodationStay} (h : stay.checkInDate < stay.checkOutDate) :
    isCompleteAccommodationDraft (stayToDraft localKey stay) = named stay := by
  simp only [isCompleteAccommodationDraft, stayToDraft, named, h, ne_eq, reduceCtorEq, not_false_eq_true, decide_true,
    Bool.and_true]
  exact decide_eq_decide.mpr Iff.rfl

theorem draftToStay_stayToDraft (localKey : String) {stay : AccommodationStay}
    (h : isCompleteAccommodationDraft (stayToDraft localKey stay) = true) :
    draftToStay (stayToDraft localKey stay) = some (trimmedStay stay) := by
  rw [draftToStay]
  simp only [h, if_true]
  rfl

theorem drafts_rebuilt (stays : List (AccommodationStay × ℕ)) (h : ∀ s ∈ stays, s.1.checkInDate < s.1.checkOutDate) :
    ((draftsOf randomUUID stays).filter isCompleteAccommodationDraft).mapM draftToStay =
      some (((stays.map Prod.fst).filter named).map trimmedStay) := by
  induction stays with
  | nil => rfl
  | cons s stays ih =>
    obtain ⟨hs, hstays⟩ := List.forall_mem_cons.mp h
    have hcomplete := complete_stayToDraft (randomUUID s.2) hs
    rw [draftsOf, List.map_cons, List.map_cons, List.filter_cons, List.filter_cons, hcomplete]
    split_ifs with hnamed
    · rw [hnamed] at hcomplete
      rw [List.mapM_cons, draftToStay_stayToDraft _ hcomplete, ← draftsOf, ih hstays]
      rfl
    · exact ih hstays

/-- Reopening and rerunning keeps all of a request but the stays with a blank name and the
white space around the names. -/
theorem rebuilt (randomUUID : ℕ → String) (h : Accepted form) (availablePlaceIds : Option (Finset PlaceId)) :
    buildMultiDayRequest (hydrateEditableState randomUUID form availablePlaceIds) =
      some { form with
        places := availablePlaces form.places availablePlaceIds
        accommodations := (form.accommodations.filter named).map trimmedStay } := by
  have hsublist : (availablePlaces form.places availablePlaceIds).Sublist form.places := by
    cases availablePlaceIds with
    | none => exact List.Sublist.refl _
    | some _ => exact List.filter_sublist
  have hplaces : (((availablePlaces form.places availablePlaceIds).map fun p ↦ (p.placeId, p.dayPreferences)).map
      Prod.fst).Nodup := by
    rw [List.map_map]
    exact h.places_distinct.sublist (hsublist.map _)
  have htransfers : ((form.transfers.map fun t ↦ (t.date, t)).map Prod.fst).Nodup := by
    rw [List.map_map]
    exact h.transfers_distinct
  have hstays : ∀ s ∈ form.accommodations.zipIdx, s.1.checkInDate < s.1.checkOutDate :=
    fun s hs ↦ h.stays_last s.1 (List.fst_mem_of_mem_zipIdx hs)
  obtain ⟨hstartLat, hstartLng⟩ := pointOf_paired h.start_paired
  obtain ⟨hendLat, hendLng⟩ := pointOf_paired h.end_paired
  rw [buildMultiDayRequest]
  simp only [hydrateEditableState, drafts_rebuilt _ hstays, newMap_entries hplaces, newMap_entries htransfers,
    hstartLat, hstartLng, hendLat, hendLng, Option.bind_eq_bind, Option.bind_some, List.map_map, Function.comp_def,
    List.map_id', List.zipIdx_map_fst]

/-- A stay with a blank name keeps the reopened trip from being sent at all. -/
theorem reopened_incomplete_iff (randomUUID : ℕ → String) (h : Accepted form)
    (availablePlaceIds : Option (Finset PlaceId)) :
    hasIncompleteAccommodation (hydrateEditableState randomUUID form availablePlaceIds) = true ↔
      ∃ stay ∈ form.accommodations, named stay = false := by
  have hcomplete : ∀ s ∈ form.accommodations.zipIdx,
      isCompleteAccommodationDraft (stayToDraft (randomUUID s.2) s.1) = named s.1 :=
    fun s hs ↦ complete_stayToDraft _ (h.stays_last s.1 (List.fst_mem_of_mem_zipIdx hs))
  simp only [hasIncompleteAccommodation, hydrateEditableState, draftsOf, List.any_map, List.any_eq_true,
    Function.comp_apply, Bool.not_eq_true']
  constructor
  · rintro ⟨s, hs, hdraft⟩
    exact ⟨s.1, List.fst_mem_of_mem_zipIdx hs, (hcomplete s hs).symm.trans hdraft⟩
  · rintro ⟨stay, hstay, hblank⟩
    obtain ⟨n, hn⟩ := List.mem_iff_getElem?.mp hstay
    have hmem := List.mk_mem_zipIdx_iff_getElem?.mpr hn
    exact ⟨(stay, n), hmem, (hcomplete _ hmem).trans hblank⟩

theorem filter_map_eq_self {α : Type} {p : α → Bool} {f : α → α} {l : List α} :
    (l.filter p).map f = l ↔ ∀ a ∈ l, p a = true ∧ f a = a := by
  constructor
  · intro h a ha
    have hlength : (l.filter p).length = l.length := by simpa using congrArg List.length h
    have hall := List.length_filter_eq_length_iff.mp hlength
    rw [List.filter_eq_self.mpr hall, ← List.map_id l, List.map_map] at h
    exact ⟨hall a ha, List.map_inj_left.mp h a ha⟩
  · intro h
    rw [List.filter_eq_self.mpr fun a ha ↦ (h a ha).1]
    exact (List.map_congr_left fun a ha ↦ (h a ha).2).trans (List.map_id l)

theorem trimmedStay_eq_self {stay : AccommodationStay} :
    trimmedStay stay = stay ↔ trim stay.name.toList = stay.name.toList := by
  obtain ⟨name, lat, lng, checkIn, checkOut, checkInFrom, checkOutBy⟩ := stay
  simp [trimmedStay, String.ext_iff]

theorem named_of_trimmed {stay : AccommodationStay} (hname : stay.name ≠ "")
    (h : trim stay.name.toList = stay.name.toList) : named stay = true := by
  rw [named, h, decide_eq_true_eq, List.length_pos_iff]
  simpa using hname

/-- A reopened trip sends its own request again exactly when no name of a stay starts or
ends with white space. -/
theorem reopened_same_iff (randomUUID : ℕ → String) (readTime : String → Option Clock.Time)
    (hread : receive readTime form = some r) (hvalid : r.Valid) :
    buildMultiDayRequest (hydrateEditableState randomUUID form none) = some form ↔
      ∀ stay ∈ form.accommodations, trim stay.name.toList = stay.name.toList := by
  have haccepted := accepted_of_receive hread hvalid
  have hsame : some { form with
      places := availablePlaces form.places none
      accommodations := (form.accommodations.filter named).map trimmedStay } = some form ↔
      (form.accommodations.filter named).map trimmedStay = form.accommodations := by
    constructor
    · intro h
      exact congrArg MultiDayRequest.accommodations (Option.some.inj h)
    · intro h
      rw [h]
      rfl
  rw [rebuilt randomUUID haccepted, hsame, filter_map_eq_self]
  refine forall₂_congr fun stay hstay ↦ ?_
  rw [trimmedStay_eq_self]
  exact ⟨And.right, fun htrim ↦ ⟨named_of_trimmed (haccepted.stays_named stay hstay) htrim, htrim⟩⟩

end Rebuilding

section Saved

variable {r : Requests.MultiDayRequest}

def timeText (t : Clock.Time) : String := isoTime ⟨t, none⟩

def dumpDay (c : Requests.DayConfig) : DayConfig where
  date := isoformat c.date
  dayStartHour := some c.dayStartHour
  dayEndHour := some c.dayEndHour
  dayStartTime := c.dayStartTime.map timeText
  dayEndTime := c.dayEndTime.map timeText
  startLat := c.startLat
  startLng := c.startLng
  endLat := c.endLat
  endLng := c.endLng

def dumpTransfer (t : Requests.TransferBlock) : TransferBlock where
  date := isoformat t.date
  departureTime := timeText t.departureTime
  arrivalTime := timeText t.arrivalTime
  label := t.label

def dumpStay (s : Requests.AccommodationStay) : AccommodationStay where
  name := s.name
  lat := s.lat
  lng := s.lng
  checkInDate := isoformat s.checkInDate
  checkOutDate := isoformat s.checkOutDate
  checkInFrom := s.checkInFrom.map timeText
  checkOutBy := s.checkOutBy.map timeText

def dumpMode : Requests.TransportMode → Option TransportModeNoTransit
  | .walk => some .walk
  | .drive => some .drive
  | .bicycle => some .bicycle
  | .transit => none

def dumpRequest (r : Requests.MultiDayRequest) : Option MultiDayRequest := do
  let transportMode ← dumpMode r.transportMode
  some
    { days := r.days.map dumpDay
      places := r.places
      transportMode := transportMode
      startLat := r.startLat
      startLng := r.startLng
      endLat := r.endLat
      endLng := r.endLng
      accommodations := r.accommodations.map dumpStay
      transfers := r.transfers.map dumpTransfer }

def readNaive (text : String) : Option Clock.Time := do
  let t ← parseTime text
  if t.offset = none then some t.time else none

theorem readNaive_timeText (t : Clock.Time) : readNaive (timeText t) = some t := by
  rw [readNaive, timeText, parseTime_isoTime]
  rfl

theorem readOptional_timeText (t : Option Clock.Time) : readOptional readNaive (t.map timeText) = some t := by
  cases t with
  | none => rfl
  | some t => rw [Option.map_some, readOptional, readNaive_timeText, Option.map_some]

theorem parseDate_isoformat (d : Clock.Date) : parseDate (isoformat d) = some d := parseDate_iff.mpr rfl

theorem receiveDay_dump (c : Requests.DayConfig) : receiveDay readNaive (dumpDay c) = some c := by
  simp only [receiveDay, dumpDay, parseDate_isoformat, readOptional_timeText, Option.bind_eq_bind, Option.bind_some,
    Option.getD_some]

theorem receiveStay_dump (s : Requests.AccommodationStay) : receiveStay readNaive (dumpStay s) = some s := by
  simp only [receiveStay, dumpStay, parseDate_isoformat, readOptional_timeText, Option.bind_eq_bind, Option.bind_some]

theorem receiveTransfer_dump (t : Requests.TransferBlock) : receiveTransfer readNaive (dumpTransfer t) = some t := by
  simp only [receiveTransfer, dumpTransfer, parseDate_isoformat, readNaive_timeText, Option.bind_eq_bind,
    Option.bind_some]

/-- The server reads what it sends. -/
theorem receive_dump {form : MultiDayRequest} (h : dumpRequest r = some form) : receive readNaive form = some r := by
  obtain ⟨mode, hmode, h⟩ := Option.bind_eq_some_iff.mp h
  obtain rfl := Option.some.inj h
  have hback : receiveMode mode = r.transportMode := by
    cases htransport : r.transportMode with
    | transit =>
      rw [htransport] at hmode
      cases hmode
    | walk | drive | bicycle =>
      rw [htransport] at hmode
      obtain rfl := Option.some.inj hmode
      rfl
  simp only [receive, mapM_map receiveDay_dump, mapM_map receiveStay_dump, mapM_map receiveTransfer_dump,
    Option.bind_eq_bind, Option.bind_some, hback]

theorem dump_of_valid (hvalid : r.Valid) : ∃ form, dumpRequest r = some form := by
  simp only [Requests.MultiDayRequest.Valid, Requests.MultiDayRequest.validate, Requests.then_ok,
    Requests.check_ok] at hvalid
  obtain ⟨-, -, -, -, -, -, hmode, -⟩ := hvalid
  rw [dumpRequest]
  cases htransport : r.transportMode with
  | walk => exact ⟨_, rfl⟩
  | drive => exact ⟨_, rfl⟩
  | bicycle => exact ⟨_, rfl⟩
  | transit => exact absurd htransport hmode

/-- What the server reads when a saved trip is reopened and run again. -/
theorem reopened_read (randomUUID : ℕ → String) (hvalid : r.Valid) : ∃ form, dumpRequest r = some form ∧
    (buildMultiDayRequest (hydrateEditableState randomUUID form none)).bind (receive readNaive) = some
      { r with accommodations := (r.accommodations.filter fun s ↦ named (dumpStay s)).map fun s ↦
          { s with name := String.ofList (trim s.name.toList) } } := by
  obtain ⟨form, hform⟩ := dump_of_valid hvalid
  have haccepted := accepted_of_receive (receive_dump hform) hvalid
  refine ⟨form, hform, ?_⟩
  rw [rebuilt randomUUID haccepted, Option.bind_some]
  apply receive_dump
  obtain ⟨mode, hmode, hform⟩ := Option.bind_eq_some_iff.mp hform
  obtain rfl := Option.some.inj hform
  have hstays : ((r.accommodations.map dumpStay).filter named).map trimmedStay =
      ((r.accommodations.filter fun s ↦ named (dumpStay s)).map fun s ↦
        { s with name := String.ofList (trim s.name.toList) }).map dumpStay := by
    rw [List.filter_map, List.map_map, List.map_map]
    rfl
  rw [dumpRequest, hmode, hstays]
  rfl

def lisbonForm (hotel : String) : MultiDayRequest where
  days := [{ date := "2054-04-01" }, { date := "2054-04-02", dayStartTime := some "08:30:00" }]
  places := [⟨"cathedral", [⟨1, some 10, some 12⟩]⟩, ⟨"tower", []⟩]
  transportMode := .drive
  startLat := some 38
  startLng := some (-9)
  endLat := none
  endLng := none
  accommodations := [⟨hotel, 38, -9, "2054-03-31", "2054-04-02", none, some "09:15:00"⟩,
    ⟨"Alfama", 39, -9, "2054-04-02", "2054-04-04", none, none⟩]
  transfers := [⟨"2054-04-02", "10:00:00", "11:30:00", some "Tram"⟩]

theorem reopened_same_iff_lisbon : ∃ r, receive readNaive (lisbonForm "Baixa") = some r ∧ r.Valid ∧
    (buildMultiDayRequest (hydrateEditableState Nat.repr (lisbonForm "Baixa") none) = some (lisbonForm "Baixa") ↔
      ∀ stay ∈ (lisbonForm "Baixa").accommodations, trim stay.name.toList = stay.name.toList) := by
  have hany : (receive readNaive (lisbonForm "Baixa")).any (fun r ↦ r.Valid) = true := by decide +kernel
  obtain ⟨r, hread, hvalid⟩ := (Option.any_eq_true _ _).mp hany
  have hvalid := of_decide_eq_true hvalid
  exact ⟨r, hread, hvalid, reopened_same_iff Nat.repr readNaive hread hvalid⟩

theorem lisbon_renamed : ¬∀ (randomUUID : ℕ → String) (readTime : String → Option Clock.Time) (form : MultiDayRequest)
    (r : Requests.MultiDayRequest), receive readTime form = some r → r.Valid →
      buildMultiDayRequest (hydrateEditableState randomUUID form none) = some form := by
  intro hall
  have hany : (receive readNaive (lisbonForm " Baixa")).any (fun r ↦ r.Valid) = true := by decide +kernel
  obtain ⟨r, hread, hvalid⟩ := (Option.any_eq_true _ _).mp hany
  have hsame := hall Nat.repr readNaive _ r hread (of_decide_eq_true hvalid)
  have hnames : (buildMultiDayRequest (hydrateEditableState Nat.repr (lisbonForm " Baixa") none)).map
      (fun form ↦ form.accommodations.map AccommodationStay.name) = some ["Baixa", "Alfama"] := by decide +kernel
  rw [hsame] at hnames
  exact absurd hnames (by decide)

end Saved

end TravelPlanner.Reopening
