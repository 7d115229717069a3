import TravelPlanner.FormChecks
import TravelPlanner.Reopening
import TravelPlanner.StayNights
import TravelPlanner.VersionLogs

namespace TravelPlanner.PlannerPage

open Runs Lines Planner Reopening FormChecks StayNights
open VersionLogs (Command Logs Refusal Reply)

section Model

abbrev TripId := String

inductive Failure
  | api (status : ℕ) (detail : String)
  | other

inductive PageError
  | timeout | apiKey | optimizeFailed | updateConflict | updateFailed
  | detail (text : String)
  deriving DecidableEq

def includesText (text part : String) : Bool := part.toList <:+: text.toList

def optimizeError : Failure → PageError
  | .api status detail =>
    let d := String.ofList (detail.toList.map Char.toLower)
    if status = 504 || includesText d "timed out" then .timeout
    else if includesText d "permission_denied" || includesText d "permission denied" then .apiKey
    else .detail detail
  | .other => .optimizeFailed

def Failure.conflicts : Failure → Bool
  | .api status _ => status = 409 || status = 428
  | .other => false

def updateError : Failure → PageError
  | .api status detail => if status = 409 || status = 428 then .updateConflict else .detail detail
  | .other => .updateFailed

structure Prefill (Response : Type) where
  tripId : TripId
  tripName : String
  revision : ℤ
  multiDayRequest : MultiDayRequest
  multiDayResponse : Response

structure SavePayload (Response : Type) where
  name : String
  multiDayRequest : MultiDayRequest
  multiDayResponse : Response
  expectedRevision : Option ℤ := none

structure Browser where
  sort : (AccommodationDraft → AccommodationDraft → ℤ) → List AccommodationDraft → List AccommodationDraft
  randomUUID : ℕ → String
  availablePlaceIds : Finset Requests.PlaceId

structure Backend (Response C K D : Type) where
  content : String → MultiDayRequest → Response → C
  kind : C → K
  digest : C → D
  fits : ℤ → Bool

structure Page (Response : Type) where
  editableState : MultiDayEditableState
  lastOptimizedRequest : Option MultiDayRequest
  result : Option Response
  isStale : Bool
  loading : Bool := false
  updating : Bool := false
  saving : Bool := false
  error : Option PageError := none
  showSaveForm : Bool := false
  currentRevision : ℤ
  conflicted : Bool := false

structure Put (Response : Type) where
  payload : SavePayload Response
  reply : Option (Except Failure ℤ) := none

/-- The page with its open calls and the version logs of the server. The revisions that
reached the page are recorded for the statements below, no step reads them. -/
structure World (Response C : Type) where
  page : Page Response
  optimizing : Option MultiDayRequest := none
  puts : List (Put Response) := []
  awaited : Option ℕ := none
  posts : List (SavePayload Response) := []
  logs : Logs TripId C
  received : List ℤ := []

/-- What happens: to the form, to the buttons, to the calls on their way, and by others
at the server. A call may be handled after the page has given up on it, and a save form
may be closed before its call is answered. -/
inductive Event (Response C : Type)
  | edit (next : MultiDayEditableState)
  | submit
  | optimized (answer : Except Failure Response)
  | openSaveForm
  | closeSaveForm
  | saveAsNew (name : String)
  | saved (formOpen : Bool) (answer : Except Failure Unit)
  | updateTrip
  | deliver (i : ℕ) (detail : String)
  | reject (i : ℕ) (failure : Failure)
  | answered
  | lost (failure : Failure)
  | others (c : Command TripId C)

variable {Response C K D : Type} [DecidableEq K] [DecidableEq D] (browser : Browser)
  (backend : Backend Response C K D) (prefill : Option (Prefill Response))

def maxMultidayPlaces : ℕ := 50

def canSubmit (loading : Bool) (state : MultiDayEditableState) : Bool :=
  !loading && state.days.all isDayConfigValid && 2 ≤ state.placeSelections.entries.length &&
    state.placeSelections.entries.length ≤ maxMultidayPlaces && !hasIncompleteAccommodation state &&
    hasNoStayOverlaps browser.sort state.accommodations &&
    state.transfers.entries.all fun e ↦ isTransferBlockValid e.2

def defaultDayConfig (date : String) : DayConfig where
  date := date
  dayStartHour := some defaultDayStartHour
  dayEndHour := some defaultDayEndHour

def defaultEditableState (today : String) : MultiDayEditableState where
  days := [defaultDayConfig today]
  placeSelections := ⟨[], by simp⟩
  transportMode := .walk
  accommodations := []
  transfers := ⟨[], by simp⟩
  globalStart := none
  globalEnd := none

def countMissingPrefillPlaces (request : MultiDayRequest) : ℕ :=
  (request.places.filter fun p ↦ p.placeId ∉ browser.availablePlaceIds).length

def openPage (today : String) : Page Response :=
  match prefill with
  | none =>
    { editableState := defaultEditableState today, lastOptimizedRequest := none, result := none
      isStale := false, currentRevision := 0 }
  | some p =>
    { editableState := hydrateEditableState browser.randomUUID p.multiDayRequest (some browser.availablePlaceIds)
      lastOptimizedRequest := some p.multiDayRequest
      result := some p.multiDayResponse
      isStale := 0 < countMissingPrefillPlaces browser p.multiDayRequest
      currentRevision := p.revision }

def openWorld (today : String) (logs : Logs TripId C) : World Response C where
  page := openPage browser prefill today
  logs := logs
  received := (prefill.map Prefill.revision).toList

/-- The form is disabled while a call is open, so nothing is edited then. -/
def handleConfigChange (page : Page Response) (next : MultiDayEditableState) : Page Response :=
  if page.loading || page.updating then page
  else { page with editableState := reconcileEditableState next, isStale := page.isStale || page.result.isSome }

def handleUpdateTrip (w : World Response C) : World Response C :=
  match prefill, w.page.result, w.page.lastOptimizedRequest with
  | some p, some result, some request =>
    if w.page.isStale || w.page.updating || w.page.conflicted then w
    else
      { w with
        page := { w.page with updating := true, error := none }
        puts := w.puts ++ [⟨⟨p.tripName, request, result, some w.page.currentRevision⟩, none⟩]
        awaited := some w.puts.length }
  | _, _, _ => w

def runOptimization (w : World Response C) (answer : Except Failure Response) : World Response C :=
  match w.optimizing with
  | none => w
  | some request =>
    match answer with
    | .ok response =>
      { w with
        page := { w.page with result := some response, lastOptimizedRequest := some request, isStale := false
                              loading := false }
        optimizing := none }
    | .error failure =>
      { w with page := { w.page with error := some (optimizeError failure), loading := false }, optimizing := none }

def receivePut (page : Page Response) : Except Failure ℤ → Page Response
  | .ok revision => { page with currentRevision := revision, updating := false }
  | .error failure =>
    { page with
      conflicted := page.conflicted || failure.conflicts
      error := some (updateError failure)
      updating := false }

def refusalStatus : Refusal → ℕ
  | .otherKind | .stale => 409
  | .noToken => 428
  | .absent | .unknown => 404
  | .already => 400
  | .differs | .taken | .storage => 500

def putReply (detail : String) : Reply → Except Failure ℤ
  | .version n => .ok n
  | .refused why => .error (.api (refusalStatus why) detail)
  | _ => .error (.api 404 detail)

def stepServer (logs : Logs TripId C) (c : Command TripId C) : Reply × Logs TripId C :=
  VersionLogs.step backend.kind backend.digest (fun n ↦ backend.fits n = true) logs c

def putCommand (tripId : TripId) (payload : SavePayload Response) : Command TripId C :=
  .write tripId (backend.content payload.name payload.multiDayRequest payload.multiDayResponse)
    payload.expectedRevision

def step (w : World Response C) : Event Response C → World Response C
  | .edit next => { w with page := handleConfigChange w.page next }
  | .submit =>
    if w.page.loading || !canSubmit browser (w.page.loading || w.page.updating) w.page.editableState then w
    else
      match buildMultiDayRequest w.page.editableState with
      | none => w
      | some request => { w with page := { w.page with loading := true, error := none }, optimizing := some request }
  | .optimized answer => runOptimization w answer
  | .openSaveForm =>
    if w.page.result.isSome && !w.page.isStale then { w with page := { w.page with showSaveForm := true } } else w
  | .closeSaveForm => { w with page := { w.page with showSaveForm := false, saving := false } }
  | .saveAsNew name =>
    match w.page.result, w.page.lastOptimizedRequest with
    | some result, some request =>
      if !w.page.showSaveForm || w.page.saving || (trim name.toList).isEmpty then w
      else
        { w with
          page := { w.page with saving := true }
          posts := w.posts ++ [⟨String.ofList (trim name.toList), request, result, none⟩] }
    | _, _ => w
  | .saved formOpen answer =>
    match answer with
    | .ok _ => { w with page := { w.page with saving := false, showSaveForm := false } }
    | .error _ => { w with page := { w.page with saving := w.page.saving && !formOpen } }
  | .updateTrip => handleUpdateTrip prefill w
  | .deliver i detail =>
    match prefill, w.puts[i]? with
    | some p, some ⟨payload, none⟩ =>
      let (reply, logs) := stepServer backend w.logs (putCommand backend p.tripId payload)
      { w with puts := w.puts.set i ⟨payload, some (putReply detail reply)⟩, logs := logs }
    | _, _ => w
  | .reject i failure =>
    match w.puts[i]? with
    | some ⟨payload, none⟩ => { w with puts := w.puts.set i ⟨payload, some (.error failure)⟩ }
    | _ => w
  | .answered =>
    match w.awaited.bind (w.puts[·]?) with
    | some ⟨_, some reply⟩ =>
      { w with
        page := receivePut w.page reply
        awaited := none
        received := w.received ++ reply.toOption.toList }
    | _ => w
  | .lost failure =>
    match w.awaited with
    | some _ => { w with page := receivePut w.page (.error failure), awaited := none }
    | none => w
  | .others c => { w with logs := (stepServer backend w.logs c).2 }

end Model

section Safety

variable {Response C K D : Type} [DecidableEq K] [DecidableEq D] (browser : Browser)
  (backend : Backend Response C K D) (prefill : Option (Prefill Response))
  (Answered : MultiDayRequest → Response → Prop)

/-- A response with the request that it answers, or the two that the trip came with. -/
def Paired (request : MultiDayRequest) (response : Response) : Prop :=
  Answered request response ∨
    ∃ p, prefill = some p ∧ request = p.multiDayRequest ∧ response = p.multiDayResponse

def Shows (page : Page Response) (request : MultiDayRequest) : Prop :=
  buildMultiDayRequest page.editableState = some request ∨
    ∃ p, prefill = some p ∧ request = p.multiDayRequest ∧
      page.editableState = hydrateEditableState browser.randomUUID request (some browser.availablePlaceIds)

structure Inv (w : World Response C) : Prop where
  shown : ∀ result, w.page.result = some result → ∃ request, w.page.lastOptimizedRequest = some request ∧
    Paired prefill Answered request result ∧ (w.page.isStale = false → Shows browser prefill w.page request)
  asked : ∀ request, w.optimizing = some request →
    w.page.loading = true ∧ buildMultiDayRequest w.page.editableState = some request
  waiting : w.awaited ≠ none → w.page.updating = true
  puts : ∀ put ∈ w.puts, Paired prefill Answered put.payload.multiDayRequest put.payload.multiDayResponse ∧
    ∃ n ∈ w.received, put.payload.expectedRevision = some n
  posts : ∀ payload ∈ w.posts, Paired prefill Answered payload.multiDayRequest payload.multiDayResponse
  revision : prefill ≠ none → w.received.getLast? = some w.page.currentRevision

def Genuine (w : World Response C) : Event Response C → Prop
  | .optimized (.ok response) => ∀ request, w.optimizing = some request → Answered request response
  | _ => True

/-- What a step may do to the calls and to the logs: an update is sent for what the form
shows, from the last revision received, one at a time and never after a conflict, and it
is stored only over the revision that it was sent from. -/
structure Safe (t : Transition (World Response C) (Event Response C)) : Prop where
  sent : ∀ (i : ℕ) (put : Put Response), t.after.puts[i]? = some put → t.before.puts.length ≤ i →
    t.before.page.conflicted = false ∧ t.before.awaited = none ∧
      Shows browser prefill t.before.page put.payload.multiDayRequest ∧
      put.payload.expectedRevision = some t.before.page.currentRevision ∧
      t.before.received.getLast? = some t.before.page.currentRevision
  latched : t.before.page.conflicted = true → t.after.page.conflicted = true
  stored : ∀ (i : ℕ) (detail : String), t.event = .deliver i detail → t.after.logs = t.before.logs ∨
    ∃ p payload log v, prefill = some p ∧ t.before.puts[i]? = some ⟨payload, none⟩ ∧
      t.before.logs p.tripId = some log ∧ payload.expectedRevision = some log.current ∧
      log.current ∈ t.before.received ∧ t.after.logs = Function.update t.before.logs p.tripId (some (log.append v))

variable {browser prefill Answered} {w w' : World Response C}

theorem open_inv (today : String) (logs : Logs TripId C) :
    Inv browser prefill Answered (openWorld browser prefill today logs) where
  shown := by
    intro result hresult
    cases prefill with
    | none => cases hresult
    | some p =>
      obtain rfl := Option.some.inj hresult
      exact ⟨p.multiDayRequest, rfl, .inr ⟨p, rfl, rfl, rfl⟩, fun _ ↦ .inr ⟨p, rfl, rfl, rfl⟩⟩
  asked := fun _ h ↦ by cases h
  waiting := fun h ↦ absurd rfl h
  puts := fun _ h ↦ by cases h
  posts := fun _ h ↦ by cases h
  revision := by
    intro hsome
    obtain ⟨p, rfl⟩ := Option.ne_none_iff_exists'.mp hsome
    rfl

theorem edit_inv (h : Inv browser prefill Answered w) (next : MultiDayEditableState) :
    Inv browser prefill Answered { w with page := handleConfigChange w.page next } := by
  unfold handleConfigChange
  split_ifs with hbusy
  · exact h
  · rw [Bool.or_eq_true, not_or, Bool.not_eq_true, Bool.not_eq_true] at hbusy
    refine ⟨?_, ?_, h.waiting, h.puts, h.posts, h.revision⟩
    · intro result hresult
      obtain ⟨request, hrequest, hpaired, -⟩ := h.shown result hresult
      refine ⟨request, hrequest, hpaired, fun hstale ↦ ?_⟩
      have hsome : w.page.result = some result := hresult
      simp [hsome] at hstale
    · intro request hrequest
      have hloading := (h.asked request hrequest).1
      rw [hbusy.1] at hloading
      cases hloading

theorem optimization_inv (h : Inv browser prefill Answered w) {answer : Except Failure Response}
    (hgenuine : Genuine Answered w (.optimized answer : Event Response C)) :
    Inv browser prefill Answered (runOptimization w answer) := by
  unfold runOptimization
  cases hopen : w.optimizing with
  | none => exact h
  | some request =>
    cases answer with
    | ok response =>
      refine ⟨?_, (fun _ hnone ↦ by cases hnone), h.waiting, h.puts, h.posts, h.revision⟩
      intro result hresult
      obtain rfl := Option.some.inj hresult
      exact ⟨request, rfl, .inl (hgenuine request hopen), fun _ ↦ .inl (h.asked request hopen).2⟩
    | error failure => exact ⟨h.shown, (fun _ hnone ↦ by cases hnone), h.waiting, h.puts, h.posts, h.revision⟩

theorem update_inv (h : Inv browser prefill Answered w) :
    Inv browser prefill Answered (handleUpdateTrip prefill w) := by
  unfold handleUpdateTrip
  split
  · next p result request hresult hrequest =>
    split_ifs
    · exact h
    · obtain ⟨request', hrequest', hpaired, -⟩ := h.shown result hresult
      obtain rfl : request = request' := Option.some.inj (hrequest.symm.trans hrequest')
      refine ⟨h.shown, h.asked, fun _ ↦ rfl, ?_, h.posts, h.revision⟩
      intro put hput
      rcases List.mem_append.mp hput with hput | hput
      · exact h.puts put hput
      · obtain rfl := List.mem_singleton.mp hput
        exact ⟨hpaired, _, List.mem_of_getLast? (h.revision (Option.some_ne_none p)), rfl⟩
  · exact h

theorem reply_inv (h : Inv browser prefill Answered w) {i : ℕ} {payload : SavePayload Response}
    (hopen : w.puts[i]? = some ⟨payload, none⟩) (reply : Except Failure ℤ) (logs : Logs TripId C) :
    Inv browser prefill Answered { w with puts := w.puts.set i ⟨payload, some reply⟩, logs := logs } := by
  refine ⟨h.shown, h.asked, h.waiting, ?_, h.posts, h.revision⟩
  intro put hput
  rcases List.mem_or_eq_of_mem_set hput with hput | rfl
  · exact h.puts put hput
  · have hsent := h.puts _ (List.mem_of_getElem? hopen)
    exact hsent

/-- The page shows the revision that it received last, whether or not the call it has
been waiting for succeeded. -/
theorem receive_inv (h : Inv browser prefill Answered w) (reply : Except Failure ℤ) :
    Inv browser prefill Answered
      { w with
        page := receivePut w.page reply
        awaited := none
        received := w.received ++ reply.toOption.toList } := by
  have hputs : ∀ (more : List ℤ), ∀ put ∈ w.puts,
      Paired prefill Answered put.payload.multiDayRequest put.payload.multiDayResponse ∧
        ∃ n ∈ w.received ++ more, put.payload.expectedRevision = some n := by
    intro more put hput
    obtain ⟨hpaired, n, hn, htoken⟩ := h.puts put hput
    exact ⟨hpaired, n, List.mem_append_left _ hn, htoken⟩
  cases reply with
  | ok n =>
    refine ⟨h.shown, h.asked, fun hne ↦ absurd rfl hne, hputs _, h.posts, fun _ ↦ ?_⟩
    exact List.getLast?_concat
  | error failure =>
    refine ⟨h.shown, h.asked, fun hne ↦ absurd rfl hne, hputs _, h.posts, fun hsome ↦ ?_⟩
    have hsame : w.received ++ (Except.error failure : Except Failure ℤ).toOption.toList = w.received :=
      List.append_nil _
    dsimp only
    rw [hsame]
    exact h.revision hsome

theorem lost_inv (h : Inv browser prefill Answered w) (failure : Failure) :
    Inv browser prefill Answered { w with page := receivePut w.page (.error failure), awaited := none } :=
  ⟨h.shown, h.asked, fun hne ↦ absurd rfl hne, h.puts, h.posts, h.revision⟩

theorem step_inv (h : Inv browser prefill Answered w) {e : Event Response C} (hgenuine : Genuine Answered w e) :
    Inv browser prefill Answered (step browser backend prefill w e) := by
  cases e with
  | edit next => exact edit_inv h next
  | submit =>
    simp only [step]
    split_ifs
    · exact h
    · split
      · exact h
      · next request hbuild =>
        refine ⟨h.shown, ?_, h.waiting, h.puts, h.posts, h.revision⟩
        intro request' hrequest'
        obtain rfl := Option.some.inj hrequest'
        exact ⟨rfl, hbuild⟩
  | optimized answer => exact optimization_inv h hgenuine
  | openSaveForm =>
    simp only [step]
    split_ifs
    · exact ⟨h.shown, h.asked, h.waiting, h.puts, h.posts, h.revision⟩
    · exact h
  | closeSaveForm => exact ⟨h.shown, h.asked, h.waiting, h.puts, h.posts, h.revision⟩
  | saveAsNew name =>
    simp only [step]
    split
    · next result request hresult hrequest =>
      split_ifs
      · exact h
      · refine ⟨h.shown, h.asked, h.waiting, h.puts, ?_, h.revision⟩
        intro payload hpayload
        rcases List.mem_append.mp hpayload with hpayload | hnew
        · exact h.posts payload hpayload
        · obtain rfl := List.mem_singleton.mp hnew
          obtain ⟨request', hrequest', hpaired, -⟩ := h.shown result hresult
          obtain rfl : request = request' := Option.some.inj (hrequest.symm.trans hrequest')
          exact hpaired
    · exact h
  | saved formOpen answer =>
    cases answer with
    | ok _ => exact ⟨h.shown, h.asked, h.waiting, h.puts, h.posts, h.revision⟩
    | error _ => exact ⟨h.shown, h.asked, h.waiting, h.puts, h.posts, h.revision⟩
  | updateTrip => exact update_inv h
  | deliver i detail =>
    simp only [step]
    split
    · next p payload _ hopen => exact reply_inv h hopen _ _
    · exact h
  | reject i failure =>
    simp only [step]
    split
    · next payload hopen => exact reply_inv h hopen _ _
    · exact h
  | answered =>
    simp only [step]
    split
    · next payload reply hawaited => exact receive_inv h reply
    · exact h
  | lost failure =>
    simp only [step]
    split
    · exact lost_inv h failure
    · exact h
  | others c => exact ⟨h.shown, h.asked, h.waiting, h.puts, h.posts, h.revision⟩

theorem receivePut_latched {page : Page Response} (reply : Except Failure ℤ) (h : page.conflicted = true) :
    (receivePut page reply).conflicted = true := by
  cases reply with
  | ok n => exact h
  | error failure => simp [receivePut, h]

variable (browser prefill) in
/-- Only the update button sends an update, and no step forgets a conflict. -/
theorem step_kept (w : World Response C) (e : Event Response C) :
    (step browser backend prefill w e).puts.length = w.puts.length ∧
        (w.page.conflicted = true → (step browser backend prefill w e).page.conflicted = true) ∨
      e = .updateTrip ∧ step browser backend prefill w e = handleUpdateTrip prefill w := by
  cases e with
  | updateTrip => exact .inr ⟨rfl, rfl⟩
  | edit next =>
    simp only [step, handleConfigChange]
    split_ifs
    · exact .inl ⟨trivial, id⟩
    · exact .inl ⟨trivial, id⟩
  | submit =>
    simp only [step]
    split_ifs
    · exact .inl ⟨rfl, id⟩
    · split
      · exact .inl ⟨rfl, id⟩
      · exact .inl ⟨rfl, id⟩
  | optimized answer =>
    simp only [step, runOptimization]
    split
    · exact .inl ⟨rfl, id⟩
    · split
      · exact .inl ⟨rfl, id⟩
      · exact .inl ⟨rfl, id⟩
  | openSaveForm =>
    simp only [step]
    split_ifs
    · exact .inl ⟨rfl, id⟩
    · exact .inl ⟨rfl, id⟩
  | closeSaveForm => exact .inl ⟨rfl, id⟩
  | saveAsNew name =>
    simp only [step]
    split
    · split_ifs
      · exact .inl ⟨rfl, id⟩
      · exact .inl ⟨rfl, id⟩
    · exact .inl ⟨rfl, id⟩
  | saved _ answer =>
    cases answer with
    | ok _ => exact .inl ⟨rfl, id⟩
    | error _ => exact .inl ⟨rfl, id⟩
  | deliver i detail =>
    simp only [step]
    split
    · exact .inl ⟨List.length_set, id⟩
    · exact .inl ⟨rfl, id⟩
  | reject i failure =>
    simp only [step]
    split
    · exact .inl ⟨List.length_set, id⟩
    · exact .inl ⟨rfl, id⟩
  | answered =>
    simp only [step]
    split
    · exact .inl ⟨rfl, receivePut_latched _⟩
    · exact .inl ⟨rfl, id⟩
  | lost _ =>
    simp only [step]
    split
    · exact .inl ⟨rfl, receivePut_latched _⟩
    · exact .inl ⟨rfl, id⟩
  | others _ => exact .inl ⟨rfl, id⟩

theorem update_latched (h : w.page.conflicted = true) : (handleUpdateTrip prefill w).page.conflicted = true := by
  unfold handleUpdateTrip
  split
  · split_ifs
    · exact h
    · exact h
  · exact h

/-- What the update button sends. -/
theorem update_sent (h : Inv browser prefill Answered w) {i : ℕ} {put : Put Response}
    (hput : (handleUpdateTrip prefill w).puts[i]? = some put) (hi : w.puts.length ≤ i) :
    w.page.conflicted = false ∧ w.awaited = none ∧
      Shows browser prefill w.page put.payload.multiDayRequest ∧
      put.payload.expectedRevision = some w.page.currentRevision ∧
      w.received.getLast? = some w.page.currentRevision := by
  have hnone : w.puts[i]? = none := List.getElem?_eq_none_iff.mpr hi
  unfold handleUpdateTrip at hput
  split at hput
  · next p result request hresult hrequest =>
    split_ifs at hput with hblocked
    · rw [hnone] at hput
      cases hput
    · simp only [Bool.or_eq_true, not_or, Bool.not_eq_true] at hblocked
      obtain ⟨⟨hstale, hupdating⟩, hconflicted⟩ := hblocked
      obtain ⟨request', hrequest', -, hshows⟩ := h.shown result hresult
      obtain rfl : request = request' := Option.some.inj (hrequest.symm.trans hrequest')
      rw [List.getElem?_append_right hi] at hput
      obtain rfl := List.mem_singleton.mp (List.mem_of_getElem? hput)
      refine ⟨hconflicted, ?_, hshows hstale, rfl, h.revision (Option.some_ne_none p)⟩
      by_contra hawaited
      rw [h.waiting hawaited] at hupdating
      cases hupdating
  · rw [hnone] at hput
    cases hput

theorem deliver_stored (h : Inv browser prefill Answered w) (i : ℕ) (detail : String) :
    (step browser backend prefill w (.deliver i detail)).logs = w.logs ∨
      ∃ p payload log v, prefill = some p ∧ w.puts[i]? = some ⟨payload, none⟩ ∧ w.logs p.tripId = some log ∧
        payload.expectedRevision = some log.current ∧ log.current ∈ w.received ∧
        (step browser backend prefill w (.deliver i detail)).logs =
          Function.update w.logs p.tripId (some (log.append v)) := by
  simp only [step]
  split
  · next p payload hopen =>
    rcases VersionLogs.step_write_cases backend.kind backend.digest (fun n ↦ backend.fits n = true) w.logs p.tripId
      (backend.content payload.name payload.multiDayRequest payload.multiDayResponse) payload.expectedRevision with
      hsame | ⟨log, hlog, htoken, hstep⟩
    · exact .inl hsame
    · obtain ⟨-, n, hn, hsent⟩ := h.puts _ (List.mem_of_getElem? hopen)
      obtain rfl : n = log.current := Option.some.inj (hsent.symm.trans htoken)
      exact .inr ⟨p, payload, log, _, rfl, hopen, hlog, htoken, hn, congrArg Prod.snd hstep⟩
  · exact .inl rfl

theorem step_safe (h : Inv browser prefill Answered w) (e : Event Response C) :
    Safe browser prefill ⟨w, e, step browser backend prefill w e⟩ where
  sent := by
    intro i put hput hi
    rcases step_kept browser backend prefill w e with ⟨hlength, -⟩ | ⟨-, hupdate⟩
    · have hlt := (List.getElem?_eq_some_iff.mp hput).1
      dsimp only at hlt hi
      omega
    · dsimp only at hput
      rw [hupdate] at hput
      exact update_sent h hput hi
  latched := by
    intro hconflicted
    rcases step_kept browser backend prefill w e with ⟨-, hlatched⟩ | ⟨-, hupdate⟩
    · exact hlatched hconflicted
    · dsimp only
      rw [hupdate]
      exact update_latched hconflicted
  stored := by
    intro i detail he
    subst he
    exact deliver_stored backend h i detail

end Safety

section Museums

def museumsForm : MultiDayRequest where
  days := [{ date := "2058-05-02" }]
  places := [⟨"louvre", []⟩, ⟨"orsay", []⟩]
  transportMode := .walk
  startLat := none
  startLng := none
  endLat := none
  endLng := none
  accommodations := []
  transfers := []

def museumsBrowser : Browser where
  sort := sortByInsertion
  randomUUID := Nat.repr
  availablePlaceIds := {"louvre", "orsay"}

def countingBackend : Backend ℕ ℕ Unit ℕ where
  content := fun _ request _ ↦ request.places.length
  kind := fun _ ↦ ()
  digest := id
  fits := fun _ ↦ true

def museumsTrip : Prefill ℕ where
  tripId := "65f0c0ffee00000000005d01"
  tripName := "Paris"
  revision := 1
  multiDayRequest := museumsForm
  multiDayResponse := 2

def museumsEvents : List (Event ℕ ℕ) := [.submit, .optimized (.ok 2), .updateTrip, .deliver 0 "", .answered]

def museumsOpened : World ℕ ℕ :=
  openWorld museumsBrowser (some museumsTrip) "2058-05-01" fun _ ↦ some (.start 1 ⟨1, .written⟩)

end Museums

end TravelPlanner.PlannerPage

