import TravelPlanner.EditRuns
import TravelPlanner.StayNights
import TravelPlanner.StaySelectors
import TravelPlanner.TripContext

namespace TravelPlanner.EditOrder

open Clock Requests EditOperations Fallible Intervals TripEditing EditRuns StaySelectors TripContext
open TripRequests (changeover changeover_valid dayThree)
open StayNights (StayApart noStayOverlaps_iff_apart isTransitionDay_perm)

variable {request data data' : MultiDayRequest} {stays stays' : List AccommodationStay}
  {ops ops' : List TripEditOperation} {outcome : ApplyOutcome} {after : MultiDayRequest}

section Stays

def atStays (data : MultiDayRequest) (stays : List AccommodationStay) : MultiDayRequest :=
  { data with accommodations := stays }

theorem handle_atStays (data : MultiDayRequest) (stays : List AccommodationStay) (op : DirectOp) :
    handle (atStays data stays) op = (handle data op).map fun d ↦ atStays d stays := by
  cases op with
  | setPlaceAuto op =>
    simp only [handle, handleSetPlaceAuto, atStays]
    cases assertPlaceInTrip data.places op.placeId <;> rfl
  | setPlacePinned op =>
    simp only [handle, handleSetPlacePinned, atStays]
    cases assertPlaceInTrip data.places op.placeId with
    | error e => rfl
    | ok place => cases assertDayIndexInRange data.days.length op.dayIndex <;> rfl
  | setPlaceFlexible op =>
    simp only [handle, handleSetPlaceFlexible, atStays]
    cases assertPlaceInTrip data.places op.placeId with
    | error e => rfl
    | ok place =>
      cases dedupeFlexibleSlots op with
      | error e => rfl
      | ok u => cases assertSlotsInRange data.days.length op.slots <;> rfl
  | removePlace op =>
    simp only [handle, handleRemovePlace, atStays]
    cases assertPlaceInTrip data.places op.placeId with
    | error e => rfl
    | ok place => cases ensureMinPlaces (data.places.length - 1) <;> rfl
  | updateDayWindow op =>
    simp only [handle, handleUpdateDayWindow, atStays]
    cases assertDayIndexInRange data.days.length op.dayIndex <;> rfl
  | setTransportMode op => rfl
  | addTransfer op =>
    rw [handle, handle, handleAddTransfer, handleAddTransfer]
    by_cases hexists : (data.transfers.any fun entry ↦ entry.date = op.date) = true
    · rw [if_pos (show ((atStays data stays).transfers.any _) = true from hexists), if_pos hexists]
      rfl
    · rw [if_neg (show ¬((atStays data stays).transfers.any _) = true from hexists), if_neg hexists]
      by_cases hday : op.date ∉ data.days.map DayConfig.date
      · rw [if_pos (show op.date ∉ (atStays data stays).days.map DayConfig.date from hday), if_pos hday]
        rfl
      · rw [if_neg (show ¬op.date ∉ (atStays data stays).days.map DayConfig.date from hday), if_neg hday]
        rfl
  | updateTransfer op =>
    simp only [handle, handleUpdateTransfer, findTransfer, atStays]
    cases data.transfers.find? fun entry ↦ entry.date = op.date <;> rfl
  | removeTransfer op =>
    simp only [handle, handleRemoveTransfer, findTransfer, atStays]
    cases data.transfers.find? fun entry ↦ entry.date = op.date <;> rfl

theorem handleAll_atStays {ops : List DirectOp} (h : handleAll ops data = .ok data') (stays : List AccommodationStay) :
    handleAll ops (atStays data stays) = .ok (atStays data' stays) := by
  induction ops generalizing data with
  | nil =>
    obtain rfl := Except.ok.inj h
    rfl
  | cons op ops ih =>
    obtain ⟨next, hnext, h⟩ := bind_eq_ok.mp h
    refine bind_eq_ok.mpr ⟨atStays next stays, ?_, ih h⟩
    rw [handle_atStays, hnext]
    rfl

/-- What a valid request says of its stays. -/
theorem stays_of_valid (h : data.Valid) : (∀ s ∈ data.accommodations, s.validate = .ok ()) ∧
    (∀ s ∈ data.accommodations, s.checkInDate < s.checkOutDate) ∧ data.accommodations.Pairwise StayApart := by
  simp only [MultiDayRequest.Valid, MultiDayRequest.validate, then_ok, check_ok, checkAll_ok] at h
  obtain ⟨_, _, _, _, hstays, _, _, _, _, _, _, hoverlaps, _⟩ := h
  have hnights : ∀ s ∈ data.accommodations, s.checkInDate < s.checkOutDate := by
    intro s hs
    have hvalid := hstays s hs
    simp only [AccommodationStay.validate, then_ok, check_ok] at hvalid
    exact hvalid.2.2.2
  exact ⟨hstays, hnights, (noStayOverlaps_iff_apart hnights).mp hoverlaps⟩

theorem valid_perm (h : data.Valid) (hperm : stays.Perm data.accommodations) : (atStays data stays).Valid := by
  obtain ⟨hstays, hnights, hapart⟩ := stays_of_valid h
  have hnights' : ∀ s ∈ stays, s.checkInDate < s.checkOutDate := fun s hs ↦ hnights s (hperm.subset hs)
  simp only [MultiDayRequest.Valid, MultiDayRequest.validate, then_ok, check_ok, checkAll_ok, validateTransferDay,
    validateConfigConflict] at h ⊢
  obtain ⟨h₁, h₂, h₃, h₄, h₅, h₆, h₇, h₈, h₉, h₁₀, h₁₁, _, h₁₃, h₁₄, h₁₅, htransfers, h₁₇⟩ := h
  refine ⟨h₁, h₂, h₃, h₄, fun s hs ↦ h₅ s (hperm.subset hs), h₆, h₇, h₈, h₉, h₁₀, h₁₁, ?_, h₁₃, h₁₄, h₁₅, ?_, h₁₇⟩
  · exact (noStayOverlaps_iff_apart hnights').mpr ((hperm.pairwise_iff Apart.symm).mpr hapart)
  · intro t ht
    exact (isTransitionDay_perm hnights hapart hperm t.date).trans (htransfers t ht)

theorem reconcile_perm {days : List DayConfig} {transfers : List TransferBlock} {dates : List Date}
    (hvalid : ∀ s ∈ stays, s.validate = .ok ()) (hnights : ∀ s ∈ stays, s.checkInDate < s.checkOutDate)
    (hapart : stays.Pairwise StayApart) (hperm : stays'.Perm stays) :
    reconcileTransfersAfterTransitionChange days stays' transfers dates =
      reconcileTransfersAfterTransitionChange days stays transfers dates := by
  have hsame : isChangeover days stays' = isChangeover days stays := by
    funext date
    rw [isChangeover, isChangeover, isTransitionDay_perm hnights hapart hperm]
  have hchecked : checkAll AccommodationStay.validate stays = .ok () := checkAll_ok.mpr hvalid
  have hchecked' : checkAll AccommodationStay.validate stays' = .ok () :=
    checkAll_ok.mpr fun s hs ↦ hvalid s (hperm.subset hs)
  unfold reconcileTransfersAfterTransitionChange
  rw [hsame, hchecked, hchecked']

theorem reconcileAndValidate_perm {dates : List Date} (h : reconcileAndValidate dates data = .ok outcome)
    (hperm : stays.Perm data.accommodations) : reconcileAndValidate dates (atStays data stays) =
      .ok ⟨atStays outcome.request stays, outcome.removedTransferDates⟩ := by
  obtain ⟨⟨transfers, removed⟩, hreconcile, h⟩ := bind_eq_ok.mp h
  obtain ⟨_, hvalid, h⟩ := bind_eq_ok.mp h
  obtain rfl := pure_eq_ok.mp h
  have hvalid : MultiDayRequest.Valid { data with transfers := transfers } := asEditError_ok.mp hvalid
  obtain ⟨hstays, hnights, hapart⟩ := stays_of_valid hvalid
  refine bind_eq_ok.mpr ⟨(transfers, removed), ?_, ?_⟩
  · rw [asEditError_ok] at hreconcile ⊢
    exact (reconcile_perm hstays hnights hapart hperm).trans hreconcile
  · exact bind_eq_ok.mpr ⟨(), asEditError_ok.mpr (valid_perm hvalid hperm), rfl⟩

end Stays

section Order

def addedStays (ops : List TripEditOperation) : List AccommodationStay :=
  (accommodationOps ops).filterMap AccommodationOp.added?

/-- Two results that differ in the order of the added stays at most. -/
def SameUpToAdded (ops ops' : List TripEditOperation) (outcome outcome' : ApplyOutcome) : Prop :=
  (addedStays ops').Perm (addedStays ops) ∧ ∃ kept, outcome.request.accommodations = kept ++ addedStays ops ∧
    outcome' = ⟨atStays outcome.request (kept ++ addedStays ops'), outcome.removedTransferDates⟩

theorem applied_stays {resolved : List (AccommodationOp × ℕ)}
    (hresolved : resolveAccommodationSelectors request.accommodations (accommodationOps ops) = .ok resolved) :
    (withStays request ops resolved).accommodations =
      request.accommodations.zipIdx.filterMap (fate resolved) ++ addedStays ops := by
  obtain ⟨rfl, hselectable⟩ := resolveSelectors_ok_iff.mp hresolved
  exact applied_eq hselectable.distinct request.accommodations (accommodationOps ops)

theorem handled_stays {ops : List DirectOp} (h : handleAll ops data = .ok data') :
    data'.accommodations = data.accommodations := by
  have hsame : handleAll ops data = .ok (atStays data' data.accommodations) := handleAll_atStays h data.accommodations
  rw [h] at hsame
  exact (congrArg MultiDayRequest.accommodations (Except.ok.inj hsame)).trans rfl

/-- A batch that is accepted in one order of its accommodation operations is accepted in any. -/
theorem reordered (hperm : ops'.Perm ops) (hdirect : directOps ops' = directOps ops)
    (h : applyOperations request ops = .ok (outcome, after)) :
    ∃ outcome', applyOperations request ops' = .ok (outcome', after) ∧ SameUpToAdded ops ops' outcome outcome' := by
  have haccommodation : (accommodationOps ops').Perm (accommodationOps ops) := hperm.filterMap _
  have hadded : (addedStays ops').Perm (addedStays ops) := haccommodation.filterMap _
  obtain ⟨rfl, resolved, data, hresolved, hdata, hresult⟩ := applyOperations_ok_iff.mp h
  obtain ⟨hselections, hselectable⟩ := resolveSelectors_ok_iff.mp hresolved
  have hresolved' : resolveAccommodationSelectors after.accommodations (accommodationOps ops') =
      .ok (selections (sortedPositions after.accommodations) (accommodationOps ops')) :=
    resolveSelectors_ok_iff.mpr ⟨rfl, selectable_perm haccommodation hselectable⟩
  have hfate : fate (selections (sortedPositions after.accommodations) (accommodationOps ops')) = fate resolved := by
    rw [hselections]
    exact fate_perm hselectable.distinct (selections_perm haccommodation)
  have hstays := applied_stays hresolved
  have hstays' := applied_stays hresolved'
  rw [hfate] at hstays'
  have hkept := (handled_stays hdata).trans hstays
  have hdata' := handleAll_atStays hdata (after.accommodations.zipIdx.filterMap (fate resolved) ++ addedStays ops')
  have hstart : atStays (withStays after ops resolved)
      (after.accommodations.zipIdx.filterMap (fate resolved) ++ addedStays ops') =
        withStays after ops' (selections (sortedPositions after.accommodations) (accommodationOps ops')) := by
    rw [← hstays']
    rfl
  rw [hstart, ← hdirect] at hdata'
  have hsameStays : (after.accommodations.zipIdx.filterMap (fate resolved) ++ addedStays ops').Perm
      data.accommodations := by
    rw [hkept]
    exact hadded.append_left _
  have hresult' := reconcileAndValidate_perm hresult hsameStays
  refine ⟨_, applyOperations_ok_iff.mpr ⟨rfl, _, _, hresolved', hdata', hresult'⟩, hadded, _, ?_, rfl⟩
  rw [(reconciled_of_ok hresult).request]
  exact hkept

end Order

section Selectors

def treated : Option AccommodationOp → AccommodationStay → Option AccommodationStay
  | some (.update op), stay => some (applyAccommodationUpdate stay op)
  | some (.remove _), _ => none
  | _, stay => some stay

def operationOn (ops : List TripEditOperation) (stayIndex : ℕ) : Option AccommodationOp :=
  (accommodationOps ops).find? fun op ↦ op.stayIndex? = some stayIndex

/-- The operations of a batch are about the stays that the prompt shows under their numbers. -/
structure ActsOnShown (request : MultiDayRequest) (ops : List TripEditOperation) (outcome : ApplyOutcome) : Prop where
  shown : ∀ op ∈ accommodationOps ops, ∀ stayIndex ∈ op.stayIndex?, ∃ stay, (shownStays request)[stayIndex]? = some stay
  once : ((accommodationOps ops).filterMap AccommodationOp.stayIndex?).Nodup
  stays : outcome.request.accommodations = (request.accommodations.filterMap fun stay ↦
    treated (operationOn ops ((shownStays request).idxOf stay)) stay) ++ addedStays ops

def sortedStays (stays : List AccommodationStay) : List (AccommodationStay × ℕ) :=
  stays.zipIdx.insertionSort fun a b ↦ a.1.checkInDate ≤ b.1.checkInDate

theorem shownStays_eq (request : MultiDayRequest) :
    shownStays request = (sortedStays request.accommodations).map Prod.fst := by
  have hsort := List.map_insertionSort (fun a b : AccommodationStay × ℕ ↦ a.1.checkInDate ≤ b.1.checkInDate)
    (fun a b : AccommodationStay ↦ a.checkInDate ≤ b.checkInDate) Prod.fst request.accommodations.zipIdx
    fun _ _ _ _ ↦ Iff.rfl
  rw [shownStays, sortedStays, hsort, List.zipIdx_map_fst]

theorem mem_sortedStays {stays : List AccommodationStay} {s : AccommodationStay × ℕ} :
    s ∈ sortedStays stays ↔ stays[s.2]? = some s.1 := by
  rw [sortedStays, (List.perm_insertionSort _ _).mem_iff, List.mk_mem_zipIdx_iff_getElem?]

theorem sortedPositions_eq (stays : List AccommodationStay) : sortedPositions stays = (sortedStays stays).map Prod.snd := rfl

/-- A position stands at a number exactly when its stay is shown there. -/
theorem position_iff (hdistinct : request.accommodations.Nodup) {s : AccommodationStay × ℕ}
    (hs : s ∈ request.accommodations.zipIdx) {stayIndex : ℕ} :
    (sortedPositions request.accommodations)[stayIndex]? = some s.2 ↔ (shownStays request).idxOf s.1 = stayIndex := by
  have hget := List.mk_mem_zipIdx_iff_getElem?.mp hs
  have hshown : (shownStays request).Perm request.accommodations := List.perm_insertionSort _ _
  have hshownDistinct := hshown.nodup_iff.mpr hdistinct
  have hmem : s.1 ∈ shownStays request := hshown.mem_iff.mpr (List.mem_of_getElem? hget)
  constructor
  · intro hposition
    rw [sortedPositions_eq, List.getElem?_map, Option.map_eq_some_iff] at hposition
    obtain ⟨t, ht, hsame⟩ := hposition
    have hstay : t.1 = s.1 := by
      have hfirst := mem_sortedStays.mp (List.mem_of_getElem? ht)
      rw [hsame, hget] at hfirst
      exact (Option.some.inj hfirst).symm
    have hat : (shownStays request)[stayIndex]? = some s.1 := by
      rw [shownStays_eq, List.getElem?_map, ht, Option.map_some, hstay]
    obtain ⟨hlt, hat⟩ := List.getElem?_eq_some_iff.mp hat
    rw [← hat]
    exact hshownDistinct.idxOf_getElem stayIndex hlt
  · rintro rfl
    have hat := List.getElem?_idxOf hmem
    rw [shownStays_eq, List.getElem?_map, ← shownStays_eq, Option.map_eq_some_iff] at hat
    obtain ⟨t, ht, hsame⟩ := hat
    have hposition := mem_sortedStays.mp (List.mem_of_getElem? ht)
    rw [hsame] at hposition
    have hindex : t.2 = s.2 := by
      obtain ⟨hlt, ht⟩ := List.getElem?_eq_some_iff.mp hposition
      obtain ⟨hlt', hs⟩ := List.getElem?_eq_some_iff.mp hget
      exact (hdistinct.getElem_inj_iff).mp (ht.trans hs.symm)
    rw [sortedPositions_eq, List.getElem?_map, ht, Option.map_some, hindex]

theorem fate_eq_treated (hdistinct : request.accommodations.Nodup) {s : AccommodationStay × ℕ}
    (hs : s ∈ request.accommodations.zipIdx) :
    fate (selections (sortedPositions request.accommodations) (accommodationOps ops)) s =
      treated (operationOn ops ((shownStays request).idxOf s.1)) s.1 := by
  have hfind : ((selections (sortedPositions request.accommodations) (accommodationOps ops)).find?
      fun r ↦ r.2 = s.2).map Prod.fst = operationOn ops ((shownStays request).idxOf s.1) := by
    rw [selections, List.find?_filterMap, operationOn]
    have hsame : (fun op : AccommodationOp ↦ (op.stayIndex?.bind fun selector ↦
        (sortedPositions request.accommodations)[selector]?.map (op, ·)).any fun r ↦ r.2 = s.2) =
          fun op ↦ decide (op.stayIndex? = some ((shownStays request).idxOf s.1)) := by
      funext op
      rw [Bool.eq_iff_iff]
      cases op.stayIndex? with
      | none => simp
      | some selector =>
        rw [decide_eq_true_eq, Option.some_inj, eq_comm (a := selector), ← position_iff hdistinct hs, Option.bind_some,
          Option.any_map]
        simp [Option.any_eq_true]
    rw [hsame]
    cases hfind : (accommodationOps ops).find? fun op ↦ op.stayIndex? = some ((shownStays request).idxOf s.1) with
    | none => rfl
    | some op =>
      have hindex : op.stayIndex? = some ((shownStays request).idxOf s.1) := by simpa using List.find?_some hfind
      rw [Option.bind_some, hindex, Option.bind_some, (position_iff hdistinct hs).mpr rfl]
      rfl
  rw [fate, hfind]
  cases operationOn ops ((shownStays request).idxOf s.1) with
  | none => rfl
  | some op => cases op <;> rfl

theorem stays_nodup (h : request.Valid) : request.accommodations.Nodup := by
  obtain ⟨_, hnights, hapart⟩ := stays_of_valid h
  refine hapart.imp_of_mem fun {a b} ha _ hab he ↦ ?_
  subst he
  exact Set.disjoint_left.mp hab (Set.left_mem_Ico.mpr (hnights a ha)) (Set.left_mem_Ico.mpr (hnights a ha))

theorem acts_on_shown (hvalid : request.Valid) (h : applyOperations request ops = .ok (outcome, after)) :
    ActsOnShown request ops outcome := by
  have hdistinct := stays_nodup hvalid
  have hlength : (sortedPositions request.accommodations).length = (shownStays request).length := by
    rw [sortedPositions_eq, shownStays_eq, List.length_map, List.length_map]
  obtain ⟨-, resolved, data, hresolved, hdata, hresult⟩ := applyOperations_ok_iff.mp h
  obtain ⟨hselections, hselectable⟩ := resolveSelectors_ok_iff.mp hresolved
  refine ⟨fun op hop stayIndex hindex ↦ ?_, ?_, ?_⟩
  · have hlt := hselectable.inRange op hop stayIndex hindex
    exact ⟨_, List.getElem?_eq_getElem (hlength ▸ hlt)⟩
  · have hpositions := List.pairwise_filterMap.mp (List.pairwise_map.mp hselectable.distinct)
    refine List.pairwise_filterMap.mpr (hpositions.imp_of_mem fun {a b} ha hb hne i hi j hj he ↦ ?_)
    subst he
    have hlt := hselectable.inRange a ha i hi
    have hget := List.getElem?_eq_getElem hlt
    exact hne (a, _) (by rw [hi, Option.bind_some, hget]; rfl) (b, _) (by rw [hj, Option.bind_some, hget]; rfl) rfl
  · have hkept := (handled_stays hdata).trans (applied_stays hresolved)
    rw [(reconciled_of_ok hresult).request]
    refine hkept.trans (congrArg (· ++ addedStays ops) ?_)
    have hfate : ∀ s ∈ request.accommodations.zipIdx, fate resolved s =
        treated (operationOn ops ((shownStays request).idxOf s.1)) s.1 := by
      intro s hs
      rw [hselections]
      exact fate_eq_treated hdistinct hs
    rw [List.filterMap_congr hfate]
    have hmap := List.filterMap_map (f := Prod.fst) (g := fun stay ↦
      treated (operationOn ops ((shownStays request).idxOf stay)) stay) (l := request.accommodations.zipIdx)
    rw [List.zipIdx_map_fst] at hmap
    exact hmap.symm

/-- The stays of a request as its prompt shows them: `[stay N]` is the stay at `N`. -/
structure PromptShows (request : MultiDayRequest) (text : Text) : Prop where
  numbered : ∀ stayIndex : ℕ, (stayLines request)[stayIndex]? =
    (shownStays request)[stayIndex]?.map fun stay ↦ stayLine (stay, stayIndex)
  block : ∃ head tail, text = (joinLines (head ++ stayLines request ++ tail)).take maxPromptChars ∧
    ∀ line ∈ head ++ tail, ¬stayMark <+: line

theorem promptShows {trip : Snapshots.TripDetail} {ctx : TripPromptContext} {text : Text}
    (hctx : fromDetail trip = some ctx) (h : buildTripContextPrompt ctx = some text) : PromptShows ctx.request text where
  numbered := fun stayIndex ↦ by simp [stayLines, List.getElem?_map, List.getElem?_zipIdx, Function.comp_def]
  block := prompt_shows hctx h

end Selectors

/-- The order of the accommodation operations of a batch decides nothing but the order of
the stays it adds, and they are about the stays that the prompt numbers. -/
theorem accommodation_operations_commute (hvalid : request.Valid) (hperm : ops'.Perm ops)
    (hdirect : directOps ops' = directOps ops) :
    ((∃ result, applyOperations request ops = .ok result) ↔ ∃ result, applyOperations request ops' = .ok result) ∧
      (∀ outcome outcome' after after', applyOperations request ops = .ok (outcome, after) →
        applyOperations request ops' = .ok (outcome', after') → SameUpToAdded ops ops' outcome outcome') ∧
      (∀ outcome after, applyOperations request ops = .ok (outcome, after) → ActsOnShown request ops outcome) ∧
      ∀ trip ctx text, fromDetail trip = some ctx → ctx.request = request → buildTripContextPrompt ctx = some text →
        PromptShows request text := by
  refine ⟨⟨?_, ?_⟩, ?_, fun outcome after h ↦ acts_on_shown hvalid h, ?_⟩
  · rintro ⟨⟨outcome, after⟩, h⟩
    obtain ⟨outcome', h', -⟩ := reordered hperm hdirect h
    exact ⟨(outcome', after), h'⟩
  · rintro ⟨⟨outcome, after⟩, h⟩
    obtain ⟨outcome', h', -⟩ := reordered hperm.symm hdirect.symm h
    exact ⟨(outcome', after), h'⟩
  · intro outcome outcome' after after' h h'
    obtain ⟨result, hresult, hsame⟩ := reordered hperm hdirect h
    obtain ⟨rfl, -⟩ := Prod.mk.inj (Except.ok.inj (hresult.symm.trans h'))
    exact hsame
  · rintro trip ctx text hctx rfl htext
    exact promptShows hctx htext

def leaveAndExtend : List TripEditOperation :=
  [.accommodation (.remove ⟨1⟩), .accommodation (.update { stayIndex := 0, checkOutDate := some dayThree })]

theorem accommodation_operations_commute_changeover :
    ((∃ result, applyOperations changeover leaveAndExtend = .ok result) ↔
        ∃ result, applyOperations changeover leaveAndExtend.reverse = .ok result) ∧
      (∀ outcome outcome' after after', applyOperations changeover leaveAndExtend = .ok (outcome, after) →
        applyOperations changeover leaveAndExtend.reverse = .ok (outcome', after') →
          SameUpToAdded leaveAndExtend leaveAndExtend.reverse outcome outcome') ∧
      (∀ outcome after, applyOperations changeover leaveAndExtend = .ok (outcome, after) →
        ActsOnShown changeover leaveAndExtend outcome) ∧
      ∀ trip ctx text, fromDetail trip = some ctx → ctx.request = changeover →
        buildTripContextPrompt ctx = some text → PromptShows changeover text :=
  accommodation_operations_commute changeover_valid (List.reverse_perm _) rfl

end TravelPlanner.EditOrder
