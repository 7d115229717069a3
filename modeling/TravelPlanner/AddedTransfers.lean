import TravelPlanner.EditFrame

namespace TravelPlanner.AddedTransfers

open Clock Requests EditOperations FirstMatch Fallible TripEditing EditRuns EditFrame TripRequests

variable {request data data' : MultiDayRequest} {date : Date} {times : Option (Time × Time)} {op : DirectOp}
  {ops : List DirectOp} {operations : List TripEditOperation} {outcome : ApplyOutcome} {after : MultiDayRequest}

section Additions

def addedStep (date : Date) (times : Option (Time × Time)) : DirectOp → Option (Time × Time)
  | .addTransfer op => if op.date = date then some (op.departureTime, op.arrivalTime) else times
  | .updateTransfer op =>
    if op.date = date then times.map fun t ↦ (op.departureTime.getD t.1, op.arrivalTime.getD t.2) else times
  | .removeTransfer op => if op.date = date then none else times
  | _ => times

def addedTimes (date : Date) (ops : List DirectOp) : Option (Time × Time) := ops.foldl (addedStep date) none

theorem addedStep_some {t : Time × Time} (h : ∀ r : RemoveTransferOp, op = .removeTransfer r → r.date ≠ date) :
    ∃ t', addedStep date (some t) op = some t' := by
  cases op with
  | addTransfer op =>
    rw [addedStep]
    split_ifs
    · exact ⟨_, rfl⟩
    · exact ⟨_, rfl⟩
  | updateTransfer op =>
    rw [addedStep]
    split_ifs
    · exact ⟨_, rfl⟩
    · exact ⟨_, rfl⟩
  | removeTransfer op => exact ⟨t, if_neg (h op rfl)⟩
  | setPlaceAuto op => exact ⟨t, rfl⟩
  | setPlacePinned op => exact ⟨t, rfl⟩
  | setPlaceFlexible op => exact ⟨t, rfl⟩
  | removePlace op => exact ⟨t, rfl⟩
  | updateDayWindow op => exact ⟨t, rfl⟩
  | setTransportMode op => exact ⟨t, rfl⟩

theorem addedTimes_of_add {before later : List DirectOp} {add : AddTransferOp} (hadd : add.date = date)
    (hlater : ∀ r : RemoveTransferOp, .removeTransfer r ∈ later → r.date ≠ date) :
    ∃ t, addedTimes date (before ++ .addTransfer add :: later) = some t := by
  have hrun : ∀ (l : List DirectOp) (t : Time × Time),
      (∀ r : RemoveTransferOp, .removeTransfer r ∈ l → r.date ≠ date) → ∃ t', l.foldl (addedStep date) (some t) = some t' := by
    intro l
    induction l with
    | nil => exact fun t _ ↦ ⟨t, rfl⟩
    | cons op l ih =>
      intro t hl
      obtain ⟨t', ht'⟩ : ∃ t', addedStep date (some t) op = some t' :=
        addedStep_some fun r he ↦ hl r (he ▸ List.mem_cons_self)
      rw [List.foldl_cons, ht']
      exact ih t' fun r hr ↦ hl r (List.mem_cons_of_mem op hr)
  rw [addedTimes, List.foldl_append, List.foldl_cons, addedStep, if_pos hadd]
  exact hrun later _ hlater

/-- Times are left over exactly when the last addition on the date has no removal after it. -/
theorem addedTimes_isSome_iff : (addedTimes date ops).isSome = true ↔ ∃ before add later,
    ops = before ++ .addTransfer add :: later ∧ add.date = date ∧
      ∀ r : RemoveTransferOp, .removeTransfer r ∈ later → r.date ≠ date := by
  constructor
  · intro h
    induction ops using List.reverseRecOn with
    | nil => cases h
    | append_singleton ops op ih =>
      rw [addedTimes, List.foldl_append, List.foldl_cons, List.foldl_nil] at h
      have hkeep : (∀ r : RemoveTransferOp, op = .removeTransfer r → r.date ≠ date) → (addedTimes date ops).isSome →
          ∃ before add later, ops ++ [op] = before ++ .addTransfer add :: later ∧ add.date = date ∧
            ∀ r : RemoveTransferOp, .removeTransfer r ∈ later → r.date ≠ date := by
        intro hop hsome
        obtain ⟨before, add, later, rfl, hadd, hlater⟩ := ih hsome
        refine ⟨before, add, later ++ [op], by simp, hadd, fun r hr ↦ ?_⟩
        rcases List.mem_append.mp hr with hr | hr
        · exact hlater r hr
        · exact hop r (List.mem_singleton.mp hr).symm
      cases op with
      | addTransfer op =>
        by_cases hdate : op.date = date
        · exact ⟨ops, op, [], rfl, hdate, by simp⟩
        · rw [addedStep, if_neg hdate] at h
          exact hkeep nofun h
      | updateTransfer op =>
        rw [addedStep] at h
        split_ifs at h
        · exact hkeep nofun (by simpa [addedTimes] using h)
        · exact hkeep nofun h
      | removeTransfer op =>
        rw [addedStep] at h
        split_ifs at h with hdate
        · cases h
        · exact hkeep (fun r he ↦ by cases he; exact hdate) h
      | setPlaceAuto op => exact hkeep nofun h
      | setPlacePinned op => exact hkeep nofun h
      | setPlaceFlexible op => exact hkeep nofun h
      | removePlace op => exact hkeep nofun h
      | updateDayWindow op => exact hkeep nofun h
      | setTransportMode op => exact hkeep nofun h
  · rintro ⟨before, add, later, rfl, hadd, hlater⟩
    obtain ⟨t, ht⟩ := addedTimes_of_add hadd hlater
    rw [ht]
    rfl

/-- The transfer that the batch has added stands among the transfers, at its times. -/
def Tracks (date : Date) (times : Option (Time × Time)) (data : MultiDayRequest) : Prop :=
  ∀ t ∈ times, ∃ transfer, (data.transfers.find? fun x ↦ x.date = date) = some transfer ∧
    (transfer.departureTime, transfer.arrivalTime) = t

theorem tracks_of_handled (h : Handled data op data') (ht : Tracks date times data) :
    Tracks date (addedStep date times op) data' := by
  cases h with
  | placeAuto _ => exact ht
  | placePinned _ _ => exact ht
  | placeFlexible _ _ _ => exact ht
  | placeRemoved _ _ => exact ht
  | dayWindow _ => exact ht
  | transportMode => exact ht
  | @transferAdded op hnew hday =>
    intro t hmem
    rw [addedStep] at hmem
    split_ifs at hmem with hdate
    · obtain rfl := Option.some.inj hmem
      have hnone : (data.transfers.find? fun x ↦ x.date = date) = none :=
        List.find?_eq_none.mpr fun x hx ↦ by simpa [hdate] using hnew x hx
      refine ⟨⟨op.date, op.departureTime, op.arrivalTime, op.label⟩, ?_, rfl⟩
      rw [List.find?_append, hnone, Option.none_or, List.find?_cons_of_pos (by simpa using hdate)]
    · obtain ⟨transfer, hfind, htimes⟩ := ht t hmem
      exact ⟨transfer, by rw [List.find?_append, hfind, Option.some_or], htimes⟩
  | @transferUpdated op _ hfound =>
    intro t hmem
    rw [addedStep] at hmem
    split_ifs at hmem with hdate
    · obtain ⟨t', ht', rfl⟩ := Option.map_eq_some_iff.mp hmem
      obtain ⟨transfer, hfind, rfl⟩ := ht t' ht'
      refine ⟨updatedTransfer op transfer, ?_, rfl⟩
      subst hdate
      have hwritten := find?_updateFirst (p := fun x : TransferBlock ↦ x.date = op.date) (f := updatedTransfer op)
        (fun x hx ↦ hx) data.transfers
      rw [hwritten, hfind, Option.map_some]
    · obtain ⟨transfer, hfind, htimes⟩ := ht t hmem
      refine ⟨transfer, ?_, htimes⟩
      rw [find?_updateFirst_of_ne (fun x hx ↦ ?_), hfind]
      rw [decide_eq_true_eq] at hx
      simp [updatedTransfer, hx, hdate]
  | @transferRemoved op _ hfound =>
    intro t hmem
    rw [addedStep] at hmem
    split_ifs at hmem with hdate
    · cases hmem
    · obtain ⟨transfer, hfind, htimes⟩ := ht t hmem
      exact ⟨transfer, (find?_filter_ne hdate data.transfers).trans hfind, htimes⟩

theorem tracks_of_handleAll (h : handleAll ops data = .ok data') (ht : Tracks date times data) :
    Tracks date (ops.foldl (addedStep date) times) data' := by
  induction ops generalizing data times with
  | nil =>
    obtain rfl := Except.ok.inj h
    exact ht
  | cons op ops ih =>
    obtain ⟨next, hnext, h⟩ := bind_eq_ok.mp h
    exact ih h (tracks_of_handled (handled_of_ok hnext) ht)

end Additions

section Batches

def staysAfter (request : MultiDayRequest) (operations : List TripEditOperation) : List AccommodationStay :=
  match resolveAccommodationSelectors request.accommodations (accommodationOps operations) with
  | .ok resolved => applyAccommodationOps request.accommodations (accommodationOps operations) resolved
  | .error _ => request.accommodations

def HasTransfer (request : MultiDayRequest) (date : Date) (times : Time × Time) : Prop :=
  ∃ transfer ∈ request.transfers, transfer.date = date ∧ (transfer.departureTime, transfer.arrivalTime) = times

/-- What a batch owes a transfer that it adds: a place in the result or, on a day that is
no changeover, a rejection. -/
def NeverDropped (request : MultiDayRequest) (operations : List TripEditOperation) (date : Date) : Prop :=
  ∀ times, addedTimes date (directOps operations) = some times →
    (∀ outcome after, applyOperations request operations = .ok (outcome, after) →
      HasTransfer outcome.request date times) ∧
    (isChangeover request.days (staysAfter request operations) date = false →
      ∀ w, runHandlers operations ⟨request, request⟩ = .ok w →
        ∃ e, applyOperations request operations = .error (.tripEditValidation e))

/-- The date had no transfer before the batch, or it is a changeover after it. -/
def ToldApart (request : MultiDayRequest) (operations : List TripEditOperation) (date : Date) : Prop :=
  date ∉ request.transfers.map TransferBlock.date ∨
    isChangeover request.days (staysAfter request operations) date = true

structure Edited (request : MultiDayRequest) (operations : List TripEditOperation) (data : MultiDayRequest) : Prop where
  tracks : ∀ date, Tracks date (addedTimes date (directOps operations)) data
  changeover : isChangeover data.days data.accommodations = isChangeover request.days (staysAfter request operations)
  dates : data.days.map DayConfig.date = request.days.map DayConfig.date

theorem edited_of_handled {resolved : List (AccommodationOp × ℕ)}
    (hresolved : resolveAccommodationSelectors request.accommodations (accommodationOps operations) = .ok resolved)
    (h : handleAll (directOps operations) (withStays request operations resolved) = .ok data) :
    Edited request operations data := by
  have hframe := framed_of_handleAll h
  refine ⟨fun date ↦ tracks_of_handleAll h nofun, ?_, hframe.dates⟩
  funext date
  rw [isChangeover_congr hframe.dates, hframe.accommodations, staysAfter, hresolved]
  rfl

theorem hasTransfer_iff (hedited : Edited request operations data) {t : Time × Time}
    (hreconciled : Reconciled data (request.transfers.map TransferBlock.date) outcome)
    (ht : addedTimes date (directOps operations) = some t) :
    HasTransfer outcome.request date t ↔ ToldApart request operations date := by
  obtain ⟨transfer, hfind, htimes⟩ := hedited.tracks date t ht
  have hdate : transfer.date = date := by simpa using List.find?_some hfind
  have hkept : ∀ x : TransferBlock, x.date = date →
      (keepsTransfer data (request.transfers.map TransferBlock.date) x = true ↔ ToldApart request operations date) := by
    rintro x rfl
    rw [keepsTransfer, hedited.changeover, Bool.or_eq_true, decide_eq_true_eq, ToldApart, or_comm]
  rw [HasTransfer, hreconciled.request]
  constructor
  · rintro ⟨x, hx, hxdate, -⟩
    exact (hkept x hxdate).mp (List.mem_filter.mp hx).2
  · intro htold
    exact ⟨transfer, List.mem_filter.mpr ⟨List.mem_of_find?_eq_some hfind, (hkept transfer hdate).mpr htold⟩, hdate,
      htimes⟩

theorem changeover_of_valid {t : TransferBlock} (hvalid : request.Valid) (ht : t ∈ request.transfers) :
    isChangeover request.days request.accommodations t.date = true := by
  simp only [MultiDayRequest.Valid, MultiDayRequest.validate, then_ok, check_ok, checkAll_ok, validateTransferDay] at hvalid
  obtain ⟨_, _, _, _, _, _, _, _, _, _, _, _, _, _, hdays, htransition, _⟩ := hvalid
  rw [isChangeover, htransition t ht, decide_eq_true (hdays t ht)]
  rfl

theorem reconcileAndValidate_error {dates : List Date} (h : ∀ outcome, reconcileAndValidate dates data ≠ .ok outcome) :
    ∃ e, reconcileAndValidate dates data = .error (.tripEditValidation e) := by
  unfold reconcileAndValidate at h ⊢
  cases hreconcile : reconcileTransfersAfterTransitionChange data.days data.accommodations data.transfers dates with
  | error e => exact ⟨e, rfl⟩
  | ok result =>
    cases hvalid : MultiDayRequest.validate { data with transfers := result.1 } with
    | error e => exact ⟨e, by simp [asEditError, hvalid, bind, Except.bind]⟩
    | ok u =>
      refine absurd ?_ (h ⟨{ data with transfers := result.1 }, result.2⟩)
      rw [hreconcile]
      simp [asEditError, hvalid, bind, Except.bind, pure, Except.pure]

theorem neverDropped_of_toldApart (h : ToldApart request operations date) : NeverDropped request operations date := by
  intro t ht
  constructor
  · intro outcome after hok
    obtain ⟨-, resolved, data, hresolved, hdata, hresult⟩ := applyOperations_ok_iff.mp hok
    exact (hasTransfer_iff (edited_of_handled hresolved hdata) (reconciled_of_ok hresult) ht).mpr h
  · intro hchangeover w hw
    obtain ⟨resolved, hresolved, hdata, hrequest⟩ := runHandlers_ok_iff.mp hw
    have hedited := edited_of_handled hresolved hdata
    have hrejected : ∀ outcome, reconcileAndValidate (request.transfers.map TransferBlock.date) w.data ≠ .ok outcome := by
      intro outcome hresult
      have hreconciled := reconciled_of_ok hresult
      obtain ⟨transfer, hmem, rfl, -⟩ := (hasTransfer_iff hedited hreconciled ht).mpr h
      have htransition := changeover_of_valid hreconciled.valid hmem
      rw [hreconciled.request, hedited.changeover, hchangeover] at htransition
      cases htransition
    obtain ⟨e, he⟩ := reconcileAndValidate_error hrejected
    refine ⟨e, ?_⟩
    rw [applyOperations, hw]
    change (reconcileAndValidate (w.request.transfers.map TransferBlock.date) w.data >>= _) = _
    rw [hrequest, he]
    rfl

/-- An added transfer is never dropped where it can be told from one before the batch; where it
cannot, every accepted batch has dropped it. -/
theorem added_transfer_never_dropped_iff (request : MultiDayRequest) (operations : List TripEditOperation) (date : Date) :
    (ToldApart request operations date → NeverDropped request operations date) ∧
      ∀ outcome after, applyOperations request operations = .ok (outcome, after) →
        (addedTimes date (directOps operations)).isSome = true →
          (NeverDropped request operations date ↔ ToldApart request operations date) := by
  refine ⟨neverDropped_of_toldApart, fun outcome after hok hadded ↦ ⟨fun hnever ↦ ?_, neverDropped_of_toldApart⟩⟩
  obtain ⟨t, ht⟩ := Option.isSome_iff_exists.mp hadded
  obtain ⟨-, resolved, data, hresolved, hdata, hresult⟩ := applyOperations_ok_iff.mp hok
  exact (hasTransfer_iff (edited_of_handled hresolved hdata) (reconciled_of_ok hresult) ht).mp
    ((hnever t ht).1 outcome after hok)

/-- The transfer on the changeover is taken out and put in again at a later hour. -/
def replaceTransfer : List TripEditOperation :=
  [.direct (.removeTransfer ⟨dayTwo⟩),
   .direct (.addTransfer
    { date := dayTwo, departureTime := secondsToTime (14 * 3600), arrivalTime := secondsToTime (17 * 3600) })]

theorem added_transfer_never_dropped_iff_replaceTransfer :
    NeverDropped changeover replaceTransfer dayTwo ∧ ToldApart changeover replaceTransfer dayTwo :=
  have htold : ToldApart changeover replaceTransfer dayTwo := .inr (by decide +kernel)
  ⟨(added_transfer_never_dropped_iff changeover replaceTransfer dayTwo).1 htold, htold⟩

def replaceAndLeave : List TripEditOperation := replaceTransfer ++ [.accommodation (.remove ⟨1⟩)]

theorem replaceAndLeave_dropped : changeover.Valid ∧ (addedTimes dayTwo (directOps replaceAndLeave)).isSome = true ∧
    applyOperations changeover replaceAndLeave =
      .ok (⟨{ changeover with accommodations := changeover.accommodations.take 1, transfers := [] }, [dayTwo]⟩,
        changeover) ∧ ¬NeverDropped changeover replaceAndLeave dayTwo := by
  have hok : applyOperations changeover replaceAndLeave =
      .ok (⟨{ changeover with accommodations := changeover.accommodations.take 1, transfers := [] }, [dayTwo]⟩,
        changeover) := by decide +kernel
  refine ⟨changeover_valid, by decide +kernel, hok, fun hnever ↦ ?_⟩
  obtain ⟨transfer, hmem, -⟩ := (hnever _ rfl).1 _ _ hok
  exact List.not_mem_nil hmem

end Batches

end TravelPlanner.AddedTransfers
