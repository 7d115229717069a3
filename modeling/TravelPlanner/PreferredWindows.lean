import TravelPlanner.EditRuns
import TravelPlanner.TripRequests

namespace TravelPlanner.PreferredWindows

open Clock Requests EditOperations FirstMatch Fallible TripEditing EditRuns TripRequests

variable {request data data' : MultiDayRequest} {op : DirectOp} {ops : List DirectOp} {slots : List DaySlot}
  {operations : List TripEditOperation} {outcome : ApplyOutcome} {after : MultiDayRequest} {id : PlaceId}

section Windows

/-- A window that is given on both sides opens before it closes. -/
def InOrder (hourFrom hourTo : Option ℤ) : Prop := ∀ opening ∈ hourFrom, ∀ closing ∈ hourTo, opening < closing

def SlotsInOrder (slots : List DaySlot) : Prop := ∀ slot ∈ slots, InOrder slot.preferredHourFrom slot.preferredHourTo

def WindowsInOrder (request : MultiDayRequest) : Prop := ∀ place ∈ request.places, SlotsInOrder place.dayPreferences

def OpInOrder : DirectOp → Prop
  | .setPlacePinned op => InOrder op.preferredHourFrom op.preferredHourTo
  | .setPlaceFlexible op => ∀ slot ∈ op.slots, InOrder slot.preferredHourFrom slot.preferredHourTo
  | _ => True

def slotStep (id : PlaceId) (slots : List DaySlot) : DirectOp → List DaySlot
  | .setPlaceAuto op => if op.placeId = id then [] else slots
  | .setPlacePinned op => if op.placeId = id then [pinnedSlot slots op] else slots
  | .setPlaceFlexible op => if op.placeId = id then op.slots.map (flexibleSlot slots) else slots
  | _ => slots

def slotsAfter (id : PlaceId) (ops : List DirectOp) (slots : List DaySlot) : List DaySlot := ops.foldl (slotStep id) slots

def removed? : DirectOp → Option PlaceId
  | .removePlace op => some op.placeId
  | _ => none

def removedPlaces (ops : List DirectOp) : List PlaceId := ops.filterMap removed?

end Windows

section Conditions

/-- The bound that an operation gives is on the right side of the one it leaves to the slot
it keeps; one that gives none keeps a window in order. -/
def Fits (hourFrom hourTo : Option ℤ) (kept : Option DaySlot) : Prop :=
  match hourFrom, hourTo with
  | some _, some _ => True
  | some opening, none => ∀ slot ∈ kept, ∀ closing ∈ slot.preferredHourTo, opening < closing
  | none, some closing => ∀ slot ∈ kept, ∀ opening ∈ slot.preferredHourFrom, opening < closing
  | none, none => ∀ slot ∈ kept, InOrder slot.preferredHourFrom slot.preferredHourTo

def slotOn (slots : List DaySlot) (dayIndex : ℕ) : Option DaySlot := slots.find? fun slot ↦ slot.dayIndex = (dayIndex : ℤ)

/-- A pin without hours also takes over the hours of an only slot, whatever its day. -/
def OpFits (slots : List DaySlot) : DirectOp → Prop
  | .setPlacePinned op => Fits op.preferredHourFrom op.preferredHourTo (slotOn slots op.dayIndex) ∧
      (op.preferredHourFrom = none → op.preferredHourTo = none → ∀ slot, slots = [slot] →
        InOrder slot.preferredHourFrom slot.preferredHourTo)
  | .setPlaceFlexible op => ∀ slot ∈ op.slots,
      Fits slot.preferredHourFrom slot.preferredHourTo (slotOn slots slot.dayIndex)
  | _ => True

/-- The last operation on a place fits the slots that the ones before it leave the place. -/
def LastFits (place : PlaceDayPreference) (ops : List DirectOp) : Prop :=
  ∀ before op later, ops = before ++ op :: later → op.placeId? = some place.placeId →
    (∀ o ∈ later, o.placeId? ≠ some place.placeId) → OpFits (slotsAfter place.placeId before place.dayPreferences) op

theorem merged_inOrder_iff (slots : List DaySlot) (dayIndex : ℕ) {hourFrom hourTo : Option ℤ} (h : InOrder hourFrom hourTo) :
    InOrder (mergePreservedHours slots dayIndex hourFrom hourTo).1 (mergePreservedHours slots dayIndex hourFrom hourTo).2 ↔
      Fits hourFrom hourTo (slotOn slots dayIndex) := by
  rw [mergePreservedHours, ← slotOn]
  cases slotOn slots dayIndex with
  | none => cases hourFrom <;> cases hourTo <;> simp_all [InOrder, Fits]
  | some slot => cases hourFrom <;> cases hourTo <;> simp_all [InOrder, Fits]

theorem pinned_inOrder_iff {op : SetPlacePinnedOp} (h : InOrder op.preferredHourFrom op.preferredHourTo) :
    SlotsInOrder [pinnedSlot slots op] ↔ OpFits slots (.setPlacePinned op) := by
  have hmerged := merged_inOrder_iff slots op.dayIndex h
  rw [SlotsInOrder, List.forall_mem_singleton, OpFits, ← hmerged]
  unfold pinnedSlot
  dsimp only
  split
  · next slot hhours =>
    have hgiven : op.preferredHourFrom = none ∧ op.preferredHourTo = none := by
      simp only [mergePreservedHours, Prod.mk.injEq, Option.or_eq_none_iff] at hhours
      exact ⟨hhours.1.1, hhours.2.1⟩
    rw [hhours]
    constructor
    · intro hslot
      exact ⟨nofun, fun _ _ slot' he ↦ List.singleton_inj.mp he ▸ hslot⟩
    · rintro ⟨-, hslot⟩
      exact hslot hgiven.1 hgiven.2 slot rfl
  · next hother =>
    refine (and_iff_left_of_imp fun hkept hfrom hto slot hslots ↦ ?_).symm
    subst hslots
    simp only [mergePreservedHours, hfrom, hto, Option.none_or] at hkept hother
    cases hfind : [slot].find? fun slot ↦ slot.dayIndex = (op.dayIndex : ℤ) with
    | none =>
      rw [hfind] at hother
      exact absurd rfl (hother slot rfl)
    | some found =>
      rw [hfind] at hkept
      obtain rfl := List.mem_singleton.mp (List.mem_of_find?_eq_some hfind)
      exact hkept

theorem flexible_inOrder_iff {op : SetPlaceFlexibleOp}
    (h : ∀ slot ∈ op.slots, InOrder slot.preferredHourFrom slot.preferredHourTo) :
    SlotsInOrder (op.slots.map (flexibleSlot slots)) ↔ OpFits slots (.setPlaceFlexible op) := by
  rw [SlotsInOrder, List.forall_mem_map, OpFits]
  exact forall₂_congr fun slot hslot ↦ merged_inOrder_iff slots slot.dayIndex (h slot hslot)

end Conditions

section Batches

theorem place_unique {placeId : PlaceId} {place p : PlaceDayPreference}
    (hids : (data.places.map PlaceDayPreference.placeId).Nodup)
    (hplace : (data.places.find? fun p ↦ p.placeId = placeId) = some place) (hp : p ∈ data.places)
    (hid : p.placeId = placeId) : p = place := by
  have hsame : place.placeId = placeId := by simpa using List.find?_some hplace
  exact List.inj_on_of_nodup_map hids hp (List.mem_of_find?_eq_some hplace) (hid.trans hsame.symm)

theorem places_written {placeId : PlaceId} (hids : (data.places.map PlaceDayPreference.placeId).Nodup)
    (hkeeps : removed? op = none)
    (hsame : ∀ p ∈ data.places, p.placeId = placeId → slotStep p.placeId p.dayPreferences op = slots)
    (hother : ∀ p ∈ data.places, p.placeId ≠ placeId → slotStep p.placeId p.dayPreferences op = p.dayPreferences) :
    (writePlace data placeId slots).places = (data.places.filter fun p ↦ removed? op ≠ some p.placeId).map fun p ↦
      { p with dayPreferences := slotStep p.placeId p.dayPreferences op } := by
  have hall : (data.places.filter fun p ↦ removed? op ≠ some p.placeId) = data.places :=
    List.filter_eq_self.mpr fun p _ ↦ by simp [hkeeps]
  have hexclusive : data.places.Pairwise fun a b ↦
      decide (a.placeId = placeId) = true → decide (b.placeId = placeId) = false := by
    refine (List.pairwise_map.mp hids).imp fun {a b} hne ha ↦ decide_eq_false fun hb ↦ hne ?_
    exact (of_decide_eq_true ha).trans hb.symm
  rw [hall, writePlace, updateFirst_eq_map hexclusive]
  refine List.map_congr_left fun p hp ↦ ?_
  by_cases hid : p.placeId = placeId
  · rw [if_pos (decide_eq_true hid), hsame p hp hid]
  · rw [if_neg (by simpa using hid), hother p hp hid]

/-- A handled operation changes the slots of a place or, at most, takes a place out. -/
theorem places_of_handled (h : Handled data op data') (hids : (data.places.map PlaceDayPreference.placeId).Nodup) :
    data'.places = (data.places.filter fun p ↦ removed? op ≠ some p.placeId).map fun p ↦
      { p with dayPreferences := slotStep p.placeId p.dayPreferences op } := by
  have hsame : ∀ {o : DirectOp}, removed? o = none → (∀ p ∈ data.places, slotStep p.placeId p.dayPreferences o =
      p.dayPreferences) → data.places = (data.places.filter fun p ↦ removed? o ≠ some p.placeId).map fun p ↦
        { p with dayPreferences := slotStep p.placeId p.dayPreferences o } := by
    intro o hkeeps hslots
    rw [List.map_congr_left (g := id) fun p hp ↦ by rw [hslots p (List.mem_filter.mp hp).1, id], List.map_id]
    exact (List.filter_eq_self.mpr fun p _ ↦ by simp [hkeeps]).symm
  cases h with
  | @placeAuto op place hplace =>
    refine places_written hids rfl (fun p _ hid ↦ ?_) fun p _ hid ↦ ?_
    · rw [slotStep, if_pos hid.symm]
    · rw [slotStep, if_neg (Ne.symm hid)]
  | @placePinned op place hplace _ =>
    refine places_written hids rfl (fun p hp hid ↦ ?_) fun p _ hid ↦ ?_
    · rw [slotStep, if_pos hid.symm, place_unique hids hplace hp hid]
    · rw [slotStep, if_neg (Ne.symm hid)]
  | @placeFlexible op place hplace _ _ =>
    refine places_written hids rfl (fun p hp hid ↦ ?_) fun p _ hid ↦ ?_
    · rw [slotStep, if_pos hid.symm, place_unique hids hplace hp hid]
    · rw [slotStep, if_neg (Ne.symm hid)]
  | @placeRemoved op _ _ _ =>
    simp only [removed?, slotStep, List.map_id', Option.some_inj, ne_eq, decide_not, eq_comm (a := op.placeId)]
  | dayWindow _ => exact hsame rfl fun _ _ ↦ rfl
  | transportMode => exact hsame rfl fun _ _ ↦ rfl
  | transferAdded _ _ => exact hsame rfl fun _ _ ↦ rfl
  | transferUpdated _ => exact hsame rfl fun _ _ ↦ rfl
  | transferRemoved _ => exact hsame rfl fun _ _ ↦ rfl

theorem mem_removedPlaces_cons : id ∈ removedPlaces (op :: ops) ↔ removed? op = some id ∨ id ∈ removedPlaces ops := by
  simp [removedPlaces, List.mem_filterMap]

theorem places_of_handleAll (h : handleAll ops data = .ok data')
    (hids : (data.places.map PlaceDayPreference.placeId).Nodup) :
    data'.places = (data.places.filter fun p ↦ p.placeId ∉ removedPlaces ops).map fun p ↦
      { p with dayPreferences := slotsAfter p.placeId ops p.dayPreferences } := by
  induction ops generalizing data with
  | nil =>
    obtain rfl := Except.ok.inj h
    simp [removedPlaces, slotsAfter]
  | cons op ops ih =>
    obtain ⟨next, hnext, h⟩ := bind_eq_ok.mp h
    have hplaces := places_of_handled (handled_of_ok hnext) hids
    have hnextIds : (next.places.map PlaceDayPreference.placeId).Nodup := by
      rw [hplaces, List.map_map]
      exact hids.sublist (List.filter_sublist.map _)
    rw [ih h hnextIds, hplaces, List.filter_map, List.map_map, List.filter_filter]
    refine congrArg _ (List.filter_congr fun p _ ↦ ?_)
    rw [Bool.eq_iff_iff]
    simp [mem_removedPlaces_cons, and_comm]

theorem slotStep_inOrder_iff (hop : OpInOrder op) (hid : op.placeId? = some id) (hkept : removed? op ≠ some id) :
    SlotsInOrder (slotStep id slots op) ↔ OpFits slots op := by
  cases op with
  | setPlaceAuto op =>
    rw [slotStep, if_pos (Option.some.inj hid)]
    exact iff_of_true nofun trivial
  | setPlacePinned op =>
    rw [slotStep, if_pos (Option.some.inj hid)]
    exact pinned_inOrder_iff hop
  | setPlaceFlexible op =>
    rw [slotStep, if_pos (Option.some.inj hid)]
    exact flexible_inOrder_iff hop
  | removePlace op => exact absurd hid hkept
  | updateDayWindow op => cases hid
  | setTransportMode op => cases hid
  | addTransfer op => cases hid
  | updateTransfer op => cases hid
  | removeTransfer op => cases hid

theorem slotStep_of_ne (hid : op.placeId? ≠ some id) : slotStep id slots op = slots := by
  cases op with
  | setPlaceAuto op => exact if_neg fun he ↦ hid (congrArg some he)
  | setPlacePinned op => exact if_neg fun he ↦ hid (congrArg some he)
  | setPlaceFlexible op => exact if_neg fun he ↦ hid (congrArg some he)
  | removePlace op => rfl
  | updateDayWindow op => rfl
  | setTransportMode op => rfl
  | addTransfer op => rfl
  | updateTransfer op => rfl
  | removeTransfer op => rfl

theorem lastFits_append {place : PlaceDayPreference} (hid : op.placeId? = some place.placeId) :
    LastFits place (ops ++ [op]) ↔ OpFits (slotsAfter place.placeId ops place.dayPreferences) op := by
  constructor
  · intro h
    exact h ops op [] rfl hid nofun
  · intro h before o later heq ho hlater
    rcases List.eq_nil_or_concat later with rfl | ⟨later, last, rfl⟩
    · obtain ⟨rfl, hlast⟩ := List.append_inj' heq rfl
      obtain rfl := List.singleton_inj.mp hlast
      exact h
    · rw [List.concat_eq_append, ← List.cons_append, ← List.append_assoc] at heq
      obtain ⟨-, hlast⟩ := List.append_inj' heq rfl
      obtain rfl := List.singleton_inj.mp hlast
      exact absurd hid (hlater op (by simp))

theorem lastFits_append_of_ne {place : PlaceDayPreference} (hid : op.placeId? ≠ some place.placeId) :
    LastFits place (ops ++ [op]) ↔ LastFits place ops := by
  constructor
  · rintro h before o later rfl ho hlater
    refine h before o (later ++ [op]) (by simp) ho fun x hx ↦ ?_
    rcases List.mem_append.mp hx with hx | hx
    · exact hlater x hx
    · exact List.mem_singleton.mp hx ▸ hid
  · intro h before o later heq ho hlater
    rcases List.eq_nil_or_concat later with rfl | ⟨later, last, rfl⟩
    · obtain ⟨-, hlast⟩ := List.append_inj' heq rfl
      obtain rfl := List.singleton_inj.mp hlast
      exact absurd ho hid
    · rw [List.concat_eq_append, ← List.cons_append, ← List.append_assoc] at heq
      obtain ⟨hops, -⟩ := List.append_inj' heq rfl
      exact h before o later hops ho fun x hx ↦ hlater x (by simp [hx])

/-- A place has its windows in order after a batch exactly when the last operation on it fits. -/
theorem slotsAfter_inOrder_iff (place : PlaceDayPreference) (hslots : SlotsInOrder place.dayPreferences)
    (hops : ∀ op ∈ ops, OpInOrder op) (hkept : place.placeId ∉ removedPlaces ops) :
    SlotsInOrder (slotsAfter place.placeId ops place.dayPreferences) ↔ LastFits place ops := by
  induction ops using List.reverseRecOn with
  | nil => exact iff_of_true hslots fun before op later heq ↦ by simp at heq
  | append_singleton ops op ih =>
    rw [removedPlaces, List.filterMap_append, List.mem_append, not_or] at hkept
    have hop : OpInOrder op := hops op (by simp)
    rw [slotsAfter, List.foldl_append, List.foldl_cons, List.foldl_nil, ← slotsAfter]
    by_cases hid : op.placeId? = some place.placeId
    · rw [lastFits_append hid]
      exact slotStep_inOrder_iff hop hid fun he ↦ hkept.2 (by simp [he])
    · rw [lastFits_append_of_ne hid, slotStep_of_ne hid]
      exact ih (fun o ho ↦ hops o (List.mem_append_left [op] ho)) hkept.1

theorem windows_in_order_iff (hvalid : request.Valid) (hwindows : WindowsInOrder request)
    (hops : ∀ op ∈ directOps operations, OpInOrder op)
    (h : applyOperations request operations = .ok (outcome, after)) :
    WindowsInOrder outcome.request ↔
      ∀ place ∈ request.places, place.placeId ∉ removedPlaces (directOps operations) →
        LastFits place (directOps operations) := by
  obtain ⟨-, resolved, data, -, hdata, hresult⟩ := applyOperations_ok_iff.mp h
  have hplaces := places_of_handleAll hdata (checked hvalid).ids
  rw [WindowsInOrder, (reconciled_of_ok hresult).request]
  dsimp only
  rw [hplaces, List.forall_mem_map]
  constructor
  · intro hall place hplace hkept
    have hslots := hall place (List.mem_filter.mpr ⟨hplace, decide_eq_true hkept⟩)
    exact (slotsAfter_inOrder_iff place (hwindows place hplace) hops hkept).mp hslots
  · intro hall place hplace
    obtain ⟨hplace, hkept⟩ := List.mem_filter.mp hplace
    have hkept := of_decide_eq_true hkept
    exact (slotsAfter_inOrder_iff place (hwindows place hplace) hops hkept).mpr (hall place hplace hkept)

def morningVisit : MultiDayRequest :=
  { changeover with
    places := [⟨"65f0c0ffee0000000000000a", [⟨0, some 10, some 12⟩]⟩, ⟨"65f0c0ffee0000000000000b", []⟩] }

theorem morningVisit_inOrder : WindowsInOrder morningVisit := by
  simp [WindowsInOrder, SlotsInOrder, InOrder, morningVisit]

def pinFrom (hour : ℤ) : List TripEditOperation :=
  [.direct (.setPlacePinned { placeId := "65f0c0ffee0000000000000a", dayIndex := 0, preferredHourFrom := some hour })]

def pinnedFrom (hour : ℤ) : MultiDayRequest :=
  { morningVisit with
    places := [⟨"65f0c0ffee0000000000000a", [⟨0, some hour, some 12⟩]⟩, ⟨"65f0c0ffee0000000000000b", []⟩] }

theorem pinFrom_inOrder (hour : ℤ) : ∀ op ∈ directOps (pinFrom hour), OpInOrder op := by
  simp [directOps, pinFrom, TripEditOperation.direct?, OpInOrder, InOrder]

theorem windows_in_order_iff_pinned : WindowsInOrder (pinnedFrom 11) ↔
    ∀ place ∈ morningVisit.places, place.placeId ∉ removedPlaces (directOps (pinFrom 11)) →
      LastFits place (directOps (pinFrom 11)) :=
  have hok : applyOperations morningVisit (pinFrom 11) = .ok (⟨pinnedFrom 11, []⟩, morningVisit) := by decide +kernel
  windows_in_order_iff (by decide +kernel) morningVisit_inOrder (pinFrom_inOrder 11) hok

/-- To start at eight in the evening is accepted, and the visit still has to end by noon. -/
theorem late_pin_accepted : morningVisit.Valid ∧ WindowsInOrder morningVisit ∧
    (∀ op ∈ directOps (pinFrom 20), OpInOrder op) ∧
    applyOperations morningVisit (pinFrom 20) = .ok (⟨pinnedFrom 20, []⟩, morningVisit) ∧
      ¬WindowsInOrder (pinnedFrom 20) := by
  refine ⟨by decide +kernel, morningVisit_inOrder, pinFrom_inOrder 20, by decide +kernel, fun h ↦ ?_⟩
  exact absurd (h _ List.mem_cons_self _ List.mem_cons_self 20 rfl 12 rfl) (by decide)

end Batches

end TravelPlanner.PreferredWindows
