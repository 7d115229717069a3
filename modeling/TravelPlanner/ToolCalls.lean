import TravelPlanner.ChatThreads
import TravelPlanner.ChatWrites
import TravelPlanner.PlacePreferences

namespace TravelPlanner.ToolCalls

open Snapshots TripStore StoreInvariant Runs
open Requests (PlaceId Validated ValidationError)
open DayPartition (Haversine)
open Windows (ObjectId)
open PlaceStore (PlaceDocument PlacePatch PlaceCreate Change modifyById insertPlace)
open PlacePreferences (Patched Patching ValidCreate validatePatch validateCreate setFields fetchPlace findOneAndUpdate)
open TripClients (Client ClientInv EditError Moved Operations Outcome System SystemInv clientStep)
open ChatWrites (Asked Serves Task)
open ChatThreads (CallId TurnId PendingScope ThreadDoc Tool TurnContext armPending clearPending consumePending
  pendingScope pendingScope_clear resolvePlaceWriteScope tripScope writeTarget)

section Model

/-- A write call with its arguments. The operations of an edit have been checked to be a
batch. -/
inductive Call
  | updateVisitHours (placeId : PlaceId) (preferredHourFrom preferredHourTo visitDurationMin : Option ℤ)
  | skipPlace (placeId : PlaceId) (skipped : Bool)
  | addPlace (place : PlaceCreate)
  | editMultiDayTrip (batch : Except String Operations)
  | revertTripRevision (targetRevision : ℤ)

def Call.tool : Call → Tool
  | .updateVisitHours placeId .. => .updateVisitHours placeId
  | .skipPlace placeId skipped => .skipPlace placeId skipped
  | .addPlace place => .addPlace place.name
  | .editMultiDayTrip _ => .editMultiDayTrip
  | .revertTripRevision targetRevision => .revertTripRevision targetRevision

def Call.onTrip : Call → Bool
  | .editMultiDayTrip _ | .revertTripRevision _ => true
  | _ => false

inductive Answer
  | cannotVerify
  | expired
  | contextExpired
  | boundToTrip (name : Option String)
  | noSelection
  | notSelected (placeId : PlaceId)
  | noFields
  | invalid (message : String)
  | notFound (placeId : PlaceId)
  | updated (place : PlaceDocument)
  | added (name : String) (id : ObjectId)
  | failed
  | trip (outcome : Outcome)

def Answer.reports : Answer → Option Bool
  | .updated _ | .added .. | .trip (.success _) => some true
  | .failed => none
  | _ => some false

/-- A write call between its accesses to what is stored. -/
inductive Body (Text Hash : Type)
  | start (id : CallId) (call : Call)
  | patching (id : CallId) (call : Call) (scope : PendingScope) (placeId : PlaceId) (p : Patching)
  | inserting (id : CallId) (scope : PendingScope) (place : ValidCreate)
  | inserted (name : String) (id : ObjectId)
  | trip (id : CallId) (call : Call) (scope : PendingScope) (client : Client Text Hash)
  | answered (answer : Answer)

structure World (Text Hash : Type) where
  doc : Option ThreadDoc
  docs : List PlaceDocument
  trips : System Text Hash
  bodies : ℕ → Body Text Hash
  clock : ℕ

/-- What the stores do at an access: an error may come before or after a write. -/
structure Choice where
  trip : TripClients.Choice
  newId : ObjectId
  raised : Option Bool := none

def firstError : Validated → String
  | .error (.value message) => "Value error, " ++ message
  | _ => ""

def provided {α : Type} : Option α → Change α
  | none => .omitted
  | some a => .value a

variable {Text Hash : Type} (parseId : PlaceId → Option ObjectId)

def patchPlace (id : CallId) (call : Call) (scope : PendingScope) (placeId : PlaceId) (patch : PlacePatch)
    (problem : String) : Body Text Hash :=
  if h : validatePatch patch = .ok () then
    match parseId placeId with
    | none => .answered (.notFound placeId)
    | some oid => .patching id call scope placeId (.start oid ⟨patch, h⟩)
  else .answered (.invalid (problem ++ firstError (validatePatch patch)))

def resolve (id : CallId) (call : Call) (scope : PendingScope) : Body Text Hash :=
  match call with
  | .updateVisitHours placeId hourFrom hourTo duration =>
    match resolvePlaceWriteScope scope with
    | none => .answered (.boundToTrip scope.name)
    | some allowed =>
      if allowed = [] then .answered .noSelection
      else if placeId ∉ allowed then .answered (.notSelected placeId)
      else if hourFrom = none ∧ hourTo = none ∧ duration = none then .answered .noFields
      else
        patchPlace parseId id call scope placeId
          { preferredHourFrom := provided hourFrom
            preferredHourTo := provided hourTo
            visitDurationMin := provided duration }
          "Invalid visit hours: "
  | .skipPlace placeId skipped =>
    match resolvePlaceWriteScope scope with
    | none => .answered (.boundToTrip scope.name)
    | some allowed =>
      if allowed = [] then .answered .noSelection
      else if placeId ∉ allowed then .answered (.notSelected placeId)
      else patchPlace parseId id call scope placeId { skipped := .value skipped } "Invalid input: "
  | .addPlace place =>
    match resolvePlaceWriteScope scope with
    | none => .answered (.boundToTrip scope.name)
    | some _ =>
      if h : validateCreate place = .ok () then .inserting id scope ⟨place, h⟩
      else .answered (.invalid ("Invalid place data: " ++ firstError (validateCreate place)))
  | .editMultiDayTrip batch =>
    match tripScope id scope with
    | none => .answered .contextExpired
    | some (tripId, revision) =>
      match batch with
      | .error message => .answered (.invalid ("That change isn't valid: " ++ message))
      | .ok operations => .trip id call scope (.chatStart tripId operations revision)
  | .revertTripRevision targetRevision =>
    match tripScope id scope with
    | none => .answered .contextExpired
    | some (tripId, revision) => .trip id call scope (.restoreStart tripId targetRevision revision)

/-- Where a call that patches a place goes on from. Only hours are ever in conflict. -/
def patched (id : CallId) (call : Call) (scope : PendingScope) (placeId : PlaceId) : Patching → Body Text Hash
  | .finished .notFound => .answered (.notFound placeId)
  | .finished .invalidHours =>
    .answered (.invalid "Invalid visit hours: preferred_hour_from must be less than preferred_hour_to")
  | .finished (.updated d) => .answered (.updated d)
  | p => .patching id call scope placeId p

def traveled (id : CallId) (call : Call) (scope : PendingScope) : Client Text Hash → Body Text Hash
  | .done outcome => .answered (.trip outcome)
  | client => .trip id call scope client

variable (codec : SnapshotCodec Text Hash) (km : Haversine) [DecidableEq Hash]

def advance (choice : Choice) (w : World Text Hash) : Body Text Hash → Body Text Hash × World Text Hash
  | .start id call =>
    match choice.raised with
    | some applied =>
      (.answered (if call.onTrip then .failed else .cannotVerify),
        if applied then { w with doc := clearPending w.doc } else w)
    | none =>
      match consumePending w.doc with
      | (none, doc) => (.answered (if call.onTrip then .contextExpired else .expired), { w with doc := doc })
      | (some scope, doc) => (resolve parseId id call scope, { w with doc := doc })
  | .patching id call scope placeId p =>
    match choice.raised with
    | some applied => (.answered .failed, if applied then { w with docs := (p.next w.docs).2 } else w)
    | none => (patched id call scope placeId (p.next w.docs).1, { w with docs := (p.next w.docs).2 })
  | .inserting _ _ place =>
    match choice.raised with
    | some applied =>
      (.answered .failed, if applied then { w with docs := w.docs ++ [insertPlace choice.newId place.1] } else w)
    | none =>
      (.inserted place.1.name choice.newId, { w with docs := w.docs ++ [insertPlace choice.newId place.1] })
  | .inserted name id =>
    if choice.raised = none ∧ fetchPlace w.docs id ≠ none then (.answered (.added name id), w)
    else (.answered .failed, w)
  | .trip id call scope client =>
    let (client, store) := clientStep codec km choice.trip w.trips.store client
    (traveled id call scope client, { w with trips := { w.trips with store := store } })
  | .answered answer => (.answered answer, w)

def bound (turn : TurnId) : TurnContext → Option ThreadDoc
  | .trip tripId planType name revision allowed =>
    some (ChatThreads.bindTrip turn tripId planType name revision allowed)
  | .places allowed => some (ChatThreads.bindPlaceSelection turn allowed)
  | .missingTrip => none

inductive Event
  | body (i : ℕ) (choice : Choice)
  | bind (turn : TurnId) (context : TurnContext)
  | arm (id : CallId)
  | clear
  | places (docs : List PlaceDocument)
  | client (e : TripClients.Event)

def step (w : World Text Hash) : Event → World Text Hash
  | .body i choice =>
    let (body, w') := advance parseId codec km choice w (w.bodies i)
    { w' with bodies := Function.update w.bodies i body }
  | .bind turn context => { w with doc := bound turn context }
  | .arm id => { w with doc := armPending id w.clock w.doc, clock := w.clock + 1 }
  | .clear => { w with doc := clearPending w.doc }
  | .places docs => { w with docs := docs }
  | .client e => { w with trips := TripClients.step codec km w.trips e }

end Model

section Effects

variable {Text Hash : Type}

def Body.scope : Body Text Hash → Option PendingScope
  | .patching _ _ scope _ _ | .inserting _ scope _ | .trip _ _ scope _ => some scope
  | _ => none

def Body.changed : Body Text Hash → Option Bool
  | .inserted .. => some true
  | .answered answer => answer.reports
  | _ => some false

/-- A place with what a call gives, and otherwise as it was. -/
def Call.given : Call → PlaceDocument → PlaceDocument
  | .updateVisitHours _ hourFrom hourTo duration, d =>
    { d with
      preferredHourFrom := hourFrom.or d.preferredHourFrom
      preferredHourTo := hourTo.or d.preferredHourTo
      visitDurationMin := duration.or d.visitDurationMin }
  | .skipPlace _ skipped, d => { d with skipped := some skipped }
  | _, d => d

/-- A new place with what a call gives, and nothing else. -/
def created (newId : ObjectId) (place : PlaceCreate) : PlaceDocument :=
  { id := newId, name := some place.name, address := place.address, lat := place.lat, lng := place.lng,
    visitDurationMin := place.visitDurationMin, preferredHourFrom := place.preferredHourFrom
    preferredHourTo := place.preferredHourTo, priority := place.priority, skipped := some false }

def Call.task : Call → Option Task
  | .editMultiDayTrip (.ok operations) => some (.edit operations)
  | .revertTripRevision targetRevision => some (.restore targetRevision)
  | _ => none

variable (parseId : PlaceId → Option ObjectId) (codec : SnapshotCodec Text Hash) (km : Haversine)

/-- What a call asks for has been done to one target, and nothing else has been changed. -/
def Makes (w w' : World Text Hash) (call : Call) : ChatThreads.Target → Prop
  | .trip tripId revision => w'.docs = w.docs ∧ ∃ task payload, call.task = some task ∧
      Asked codec km w.trips.store tripId revision payload task ∧
      NewRevision codec w.trips.store w'.trips.store tripId revision ∧
      Current codec w'.trips.store tripId (revision + 1) payload
  | .place placeId => w'.trips.store = w.trips.store ∧ ∃ id, parseId placeId = some id ∧
      (∃ d ∈ w.docs, d.id = id) ∧ w'.docs = modifyById w.docs id call.given
  | .newPlace _ => w'.trips.store = w.trips.store ∧
      ∃ newId place, call = .addPlace place ∧ w'.docs = w.docs ++ [created newId place]

/-- What a call asks of a trip is what the trip is already. -/
def Finds (w : World Text Hash) (call : Call) : ChatThreads.Target → Prop
  | .trip tripId revision => ∃ task payload, call.task = some task ∧
      Asked codec km w.trips.store tripId revision payload task ∧ Current codec w.trips.store tripId revision payload
  | .place _ | .newPlace _ => False

def Stays (w w' : World Text Hash) : Prop := w'.docs = w.docs ∧ w'.trips.store = w.trips.store

def Changes (tool : CallId × Call) (w w' : World Text Hash) (b : Body Text Hash) : Prop :=
  ∃ scope target, b.scope = some scope ∧ writeTarget ⟨tool.1, tool.2.tool⟩ scope = some target ∧
    Makes parseId codec km w w' tool.2 target

def Already (tool : CallId × Call) (w w' : World Text Hash) (b : Body Text Hash) : Prop :=
  ∃ scope target, b.scope = some scope ∧ writeTarget ⟨tool.1, tool.2.tool⟩ scope = some target ∧
    Finds codec km w tool.2 target ∧ Stays w w'

/-- Everything one access of a write call can do to the places and the trips. -/
inductive Effect (tool : CallId × Call) (w w' : World Text Hash) (b b' : Body Text Hash) : Prop
  | idle (hstays : Stays w w') (hsame : b'.changed = b.changed ∨ b'.changed = none)
  | changed (hchanges : Changes parseId codec km tool w w' b) (hafter : b'.changed ≠ some false)
  | already (halready : Already codec km tool w w' b) (hafter : b'.changed = some true)

variable {parseId codec km} {tool : CallId × Call}

theorem Effect.congr {w w' w'' : World Text Hash} {b b' : Body Text Hash} (h : Effect parseId codec km tool w w' b b')
    (hdocs : w''.docs = w'.docs) (htrips : w''.trips = w'.trips) : Effect parseId codec km tool w w'' b b' := by
  cases h with
  | idle hstays hchanged => exact .idle ⟨hdocs.trans hstays.1, htrips ▸ hstays.2⟩ hchanged
  | changed hchanges hafter =>
    obtain ⟨scope, target, hscope, htarget, hmakes⟩ := hchanges
    refine .changed ⟨scope, target, hscope, htarget, ?_⟩ hafter
    cases target with
    | trip | place | newPlace =>
      simp only [Makes, hdocs, htrips]
      exact hmakes
  | already halready hafter =>
    obtain ⟨scope, target, hscope, htarget, hfinds, hstays⟩ := halready
    exact .already ⟨scope, target, hscope, htarget, hfinds, hdocs.trans hstays.1, htrips ▸ hstays.2⟩ hafter

def Patches (id : ObjectId) (call : Call) : Patching → Prop
  | .start id' p | .checked id' p _ => id' = id ∧ setFields p.1 = call.given
  | .finished _ => False

variable (parseId codec km) in
def BodyInv (store : Store Text Hash) (tool : CallId × Call) (b : Body Text Hash) : Prop :=
  match b with
  | .start id call => (id, call) = tool
  | .patching id call scope placeId p => (id, call) = tool ∧ writeTarget ⟨id, call.tool⟩ scope = some (.place placeId) ∧
      ∃ oid, parseId placeId = some oid ∧ Patches oid call p
  | .inserting id scope place => (id, .addPlace place.1) = tool ∧
      writeTarget ⟨id, .addPlace place.1.name⟩ scope = some (.newPlace place.1.name)
  | .trip id call scope client => (id, call) = tool ∧ ∃ tripId revision task, call.task = some task ∧
      writeTarget ⟨id, call.tool⟩ scope = some (.trip tripId revision) ∧
      Serves codec km store tripId revision task client ∧ ClientInv codec store client
  | .inserted .. | .answered _ => True

variable {store : Store Text Hash} {scope : PendingScope} {id : CallId} {call : Call}

theorem writeTarget_place {placeId : PlaceId} {allowed : List PlaceId} {tool : Tool}
    (htool : tool = .updateVisitHours placeId ∨ ∃ skipped, tool = .skipPlace placeId skipped)
    (hscope : resolvePlaceWriteScope scope = some allowed) (hin : placeId ∈ allowed) :
    writeTarget ⟨id, tool⟩ scope = some (.place placeId) := by
  rcases htool with rfl | ⟨skipped, rfl⟩
  · simp only [writeTarget, hscope, Option.bind_eq_bind, Option.bind_some, if_pos hin]
  · simp only [writeTarget, hscope, Option.bind_eq_bind, Option.bind_some, if_pos hin]

theorem provided_apply {α : Type} (a stored : Option α) : (provided a).apply stored = a.or stored := by
  cases a <;> rfl

theorem hours_given (placeId : PlaceId) (hourFrom hourTo duration : Option ℤ) :
    setFields
        { preferredHourFrom := provided hourFrom
          preferredHourTo := provided hourTo
          visitDurationMin := provided duration } =
      (Call.updateVisitHours placeId hourFrom hourTo duration).given := by
  funext d
  simp only [setFields, Call.given, provided_apply]
  rfl

theorem patchPlace_spec {placeId : PlaceId} {patch : PlacePatch} (problem : String)
    (htarget : writeTarget ⟨id, call.tool⟩ scope = some (.place placeId)) (hgiven : setFields patch = call.given) :
    BodyInv parseId codec km store (id, call) (patchPlace parseId id call scope placeId patch problem) ∧
      (patchPlace parseId id call scope placeId patch problem : Body Text Hash).changed = some false := by
  unfold patchPlace
  split_ifs with hvalid
  · cases hid : parseId placeId with
    | none => exact ⟨trivial, rfl⟩
    | some oid => exact ⟨⟨rfl, htarget, oid, hid, rfl, hgiven⟩, rfl⟩
  · exact ⟨trivial, rfl⟩

/-- A call that goes on has a target under its scope, and has changed nothing. -/
theorem resolve_spec (id : CallId) (call : Call) (scope : PendingScope) :
    BodyInv parseId codec km store (id, call) (resolve parseId id call scope) ∧
      (resolve parseId id call scope : Body Text Hash).changed = some false := by
  cases call with
  | updateVisitHours placeId hourFrom hourTo duration =>
    simp only [resolve]
    cases hscope : resolvePlaceWriteScope scope with
    | none => exact ⟨trivial, rfl⟩
    | some allowed =>
      dsimp only
      split_ifs with hempty hin hfields
      · exact ⟨trivial, rfl⟩
      · exact ⟨trivial, rfl⟩
      · exact patchPlace_spec _ (writeTarget_place (.inl rfl) hscope hin) (hours_given placeId hourFrom hourTo duration)
      · exact ⟨trivial, rfl⟩
  | skipPlace placeId skipped =>
    simp only [resolve]
    cases hscope : resolvePlaceWriteScope scope with
    | none => exact ⟨trivial, rfl⟩
    | some allowed =>
      dsimp only
      split_ifs with hempty hin
      · exact ⟨trivial, rfl⟩
      · exact patchPlace_spec _ (writeTarget_place (.inr ⟨skipped, rfl⟩) hscope hin) rfl
      · exact ⟨trivial, rfl⟩
  | addPlace place =>
    simp only [resolve]
    cases hscope : resolvePlaceWriteScope scope with
    | none => exact ⟨trivial, rfl⟩
    | some allowed =>
      dsimp only
      split_ifs with hvalid
      · refine ⟨⟨rfl, ?_⟩, rfl⟩
        simp only [writeTarget, hscope, Option.map_some]
      · exact ⟨trivial, rfl⟩
  | editMultiDayTrip batch =>
    simp only [resolve]
    cases hscope : tripScope id scope with
    | none => exact ⟨trivial, rfl⟩
    | some held =>
      cases batch with
      | error message => exact ⟨trivial, rfl⟩
      | ok operations =>
        refine ⟨⟨rfl, held.1, held.2, _, rfl, ?_, ⟨rfl, rfl, rfl⟩, trivial⟩, rfl⟩
        simp only [Call.tool, writeTarget, hscope, Option.map_some]
  | revertTripRevision targetRevision =>
    simp only [resolve]
    cases hscope : tripScope id scope with
    | none => exact ⟨trivial, rfl⟩
    | some held =>
      refine ⟨⟨rfl, held.1, held.2, _, rfl, ?_, ⟨rfl, rfl, rfl⟩, trivial⟩, rfl⟩
      simp only [Call.tool, writeTarget, hscope, Option.map_some]

theorem findOneAndUpdate_cases (docs : List PlaceDocument) (oid : ObjectId) (p : PlacePatch) :
    findOneAndUpdate docs oid p = (.notFound, docs) ∨ (∃ d ∈ docs, d.id = oid) ∧
      ∃ d, findOneAndUpdate docs oid p = (.updated d, modifyById docs oid (setFields p)) := by
  unfold findOneAndUpdate
  cases hfound : fetchPlace docs oid with
  | none => exact .inl rfl
  | some d => exact .inr ⟨⟨d, List.mem_of_find?_eq_some hfound, by simpa using List.find?_some hfound⟩, _, rfl⟩

theorem patching_next {oid : ObjectId} {p : Patching} (hp : Patches oid call p) (docs : List PlaceDocument)
    (id : CallId) (scope : PendingScope) (placeId : PlaceId) :
    (p.next docs).2 = docs ∧ (patched id call scope placeId (p.next docs).1 : Body Text Hash).changed = some false ∧
        ((∃ answer, (p.next docs).1 = .finished answer) ∨ Patches oid call (p.next docs).1) ∨
      (∃ d ∈ docs, d.id = oid) ∧ (p.next docs).2 = modifyById docs oid call.given ∧
        ∃ d, (p.next docs).1 = .finished (.updated d) := by
  cases p with
  | start oid' patch =>
    obtain ⟨rfl, hgiven⟩ : oid' = oid ∧ setFields patch.1 = call.given := hp
    simp only [Patching.next]
    split_ifs with hone
    · left
      cases fetchPlace docs oid' with
      | none => exact ⟨rfl, rfl, .inl ⟨_, rfl⟩⟩
      | some seen =>
        dsimp only
        split_ifs
        · exact ⟨rfl, rfl, .inl ⟨_, rfl⟩⟩
        · exact ⟨rfl, rfl, .inr ⟨rfl, hgiven⟩⟩
    · rcases findOneAndUpdate_cases docs oid' patch.1 with h | ⟨hthere, d, h⟩
      · rw [h]
        exact .inl ⟨rfl, rfl, .inl ⟨_, rfl⟩⟩
      · rw [h, ← hgiven]
        exact .inr ⟨hthere, rfl, d, rfl⟩
  | checked oid' patch seen =>
    obtain ⟨rfl, hgiven⟩ : oid' = oid ∧ setFields patch.1 = call.given := hp
    simp only [Patching.next]
    rcases findOneAndUpdate_cases docs oid' patch.1 with h | ⟨hthere, d, h⟩
    · rw [h]
      exact .inl ⟨rfl, rfl, .inl ⟨_, rfl⟩⟩
    · rw [h, ← hgiven]
      exact .inr ⟨hthere, rfl, d, rfl⟩
  | finished answer => exact hp.elim

theorem traveled_refused (id : CallId) (call : Call) (scope : PendingScope) {client : Client Text Hash}
    (h : ∀ outcome, client = .done outcome → client.Refused) :
    (traveled id call scope client).changed = some false := by
  cases client with
  | done outcome =>
    have hrefused := h outcome rfl
    cases outcome with
    | success detail => exact hrefused.elim
    | removed existed => rfl
    | notFound => rfl
    | failed e => rfl
    | editFailed e => rfl
  | _ => rfl

theorem traveled_succeeded (id : CallId) (call : Call) (scope : PendingScope) {client : Client Text Hash}
    (h : client.Succeeded) : (traveled id call scope client).changed = some true := by
  cases client with
  | done outcome =>
    cases outcome with
    | success detail => rfl
    | removed | notFound | failed | editFailed => exact h.elim
  | uiStart | uiHolding | chatStart | chatReady | chatConflicted | restoreStart | restoreHolding | restoreReady
  | deleteStart => exact h.elim

end Effects

section Scopes

variable {Text Hash : Type} {parseId : PlaceId → Option ObjectId} {b : Body Text Hash}

theorem patchPlace_scope (id : CallId) (call : Call) (scope : PendingScope) (placeId : PlaceId) (patch : PlacePatch)
    (problem : String) : (patchPlace parseId id call scope placeId patch problem : Body Text Hash).scope = none ∨
      (patchPlace parseId id call scope placeId patch problem : Body Text Hash).scope = some scope := by
  unfold patchPlace
  split_ifs
  · cases parseId placeId with
    | none => exact .inl rfl
    | some oid => exact .inr rfl
  · exact .inl rfl

theorem resolve_scope (id : CallId) (call : Call) (scope : PendingScope) :
    (resolve parseId id call scope : Body Text Hash).scope = none ∨
      (resolve parseId id call scope : Body Text Hash).scope = some scope := by
  cases call with
  | updateVisitHours placeId hourFrom hourTo duration =>
    simp only [resolve]
    cases resolvePlaceWriteScope scope with
    | none => exact .inl rfl
    | some allowed =>
      dsimp only
      split_ifs
      · exact .inl rfl
      · exact .inl rfl
      · exact patchPlace_scope ..
      · exact .inl rfl
  | skipPlace placeId skipped =>
    simp only [resolve]
    cases resolvePlaceWriteScope scope with
    | none => exact .inl rfl
    | some allowed =>
      dsimp only
      split_ifs
      · exact .inl rfl
      · exact patchPlace_scope ..
      · exact .inl rfl
  | addPlace place =>
    simp only [resolve]
    cases resolvePlaceWriteScope scope with
    | none => exact .inl rfl
    | some allowed =>
      dsimp only
      split_ifs
      · exact .inr rfl
      · exact .inl rfl
  | editMultiDayTrip batch =>
    simp only [resolve]
    cases tripScope id scope with
    | none => exact .inl rfl
    | some held =>
      cases batch with
      | error message => exact .inl rfl
      | ok operations => exact .inr rfl
  | revertTripRevision targetRevision =>
    simp only [resolve]
    cases tripScope id scope with
    | none => exact .inl rfl
    | some held => exact .inr rfl

theorem changed_of_scope {σ : PendingScope} (h : b.scope = some σ) : b.changed = some false := by
  cases b with
  | patching | inserting | trip => rfl
  | start | inserted | answered => cases h

theorem traveled_scope (id : CallId) (call : Call) (scope : PendingScope) (client : Client Text Hash) :
    (traveled id call scope client).scope = none ∨ (traveled id call scope client).scope = some scope := by
  cases client with
  | done outcome => exact .inl rfl
  | _ => exact .inr rfl

theorem patched_scope (id : CallId) (call : Call) (scope : PendingScope) (placeId : PlaceId) (p : Patching) :
    (patched id call scope placeId p : Body Text Hash).scope = none ∨
      (patched id call scope placeId p : Body Text Hash).scope = some scope := by
  cases p with
  | finished answer => cases answer <;> exact .inl rfl
  | start | checked => exact .inr rfl

end Scopes

section Steps

variable {Text Hash : Type} {parseId : PlaceId → Option ObjectId} {codec : SnapshotCodec Text Hash} {km : Haversine}
  [DecidableEq Hash] {w : World Text Hash} {b : Body Text Hash} {tool : CallId × Call}

theorem patching_effect (choice : Choice) (id : CallId) (call : Call) (scope : PendingScope) (placeId : PlaceId)
    {p : Patching} (h : BodyInv parseId codec km w.trips.store tool (.patching id call scope placeId p)) :
    Effect parseId codec km tool w (advance parseId codec km choice w (.patching id call scope placeId p)).2
        (.patching id call scope placeId p) (advance parseId codec km choice w (.patching id call scope placeId p)).1 ∧
      BodyInv parseId codec km (advance parseId codec km choice w (.patching id call scope placeId p)).2.trips.store
        tool (advance parseId codec km choice w (.patching id call scope placeId p)).1 := by
  obtain ⟨rfl, htarget, oid, hid, hpatches⟩ := h
  have hnext : (p.next w.docs).2 = w.docs ∧
        (patched id call scope placeId (p.next w.docs).1 : Body Text Hash).changed = some false ∧
          ((∃ answer, (p.next w.docs).1 = .finished answer) ∨ Patches oid call (p.next w.docs).1) ∨
      (∃ d ∈ w.docs, d.id = oid) ∧ (p.next w.docs).2 = modifyById w.docs oid call.given ∧
        ∃ d, (p.next w.docs).1 = .finished (.updated d) := patching_next hpatches w.docs id scope placeId
  have hchanges : ∀ w' : World Text Hash, w'.trips.store = w.trips.store → (∃ d ∈ w.docs, d.id = oid) →
      w'.docs = modifyById w.docs oid call.given →
      Changes parseId codec km (id, call) w w' (.patching id call scope placeId p) :=
    fun w' hstore hthere hdocs ↦ ⟨scope, .place placeId, rfl, htarget, hstore, oid, hid, hthere, hdocs⟩
  simp only [advance]
  cases choice.raised with
  | some applied =>
    refine ⟨?_, trivial⟩
    cases applied with
    | false => exact .idle ⟨rfl, rfl⟩ (.inr rfl)
    | true =>
      rcases hnext with ⟨hdocs, -, -⟩ | ⟨hthere, hdocs, -⟩
      · exact .idle ⟨hdocs, rfl⟩ (.inr rfl)
      · exact .changed (hchanges _ rfl hthere hdocs) (Option.some_ne_none false).symm
  | none =>
    rcases hnext with ⟨hdocs, hsame, hgoes⟩ | ⟨hthere, hdocs, d, hfinished⟩
    · refine ⟨.idle ⟨hdocs, rfl⟩ (.inl hsame), ?_⟩
      dsimp only
      rcases hgoes with ⟨answer, hanswer⟩ | hgoes
      · rw [hanswer]
        cases answer <;> trivial
      · cases hp : (p.next w.docs).1 with
        | finished answer =>
          rw [hp] at hgoes
          exact hgoes.elim
        | start oid' patch =>
          rw [hp] at hgoes
          exact ⟨rfl, htarget, oid, hid, hgoes⟩
        | checked oid' patch seen =>
          rw [hp] at hgoes
          exact ⟨rfl, htarget, oid, hid, hgoes⟩
    · dsimp only
      rw [hfinished]
      refine ⟨.changed (hchanges _ rfl hthere hdocs) ?_, trivial⟩
      exact fun h ↦ Bool.false_ne_true (Option.some.inj h).symm

theorem trip_effect (hinj : Function.Injective codec.snapshotHash) (htrips : SystemInv codec w.trips) (choice : Choice)
    (id : CallId) (call : Call) (scope : PendingScope) {client : Client Text Hash}
    (h : BodyInv parseId codec km w.trips.store tool (.trip id call scope client)) :
    Effect parseId codec km tool w (advance parseId codec km choice w (.trip id call scope client)).2
        (.trip id call scope client) (advance parseId codec km choice w (.trip id call scope client)).1 ∧
      BodyInv parseId codec km (advance parseId codec km choice w (.trip id call scope client)).2.trips.store tool
        (advance parseId codec km choice w (.trip id call scope client)).1 := by
  obtain ⟨rfl, tripId, revision, task, htask, htarget, hserves, hclient⟩ := h
  have houtcome := hserves.outcome hinj htrips.store hclient choice.trip
  have hkept := TripClients.clientStep_clientInv km choice.trip htrips.store hclient
  have hnext : (∃ outcome, (clientStep codec km choice.trip w.trips.store client).1 = .done outcome) ∨
      Serves codec km (clientStep codec km choice.trip w.trips.store client).2 tripId revision task
        (clientStep codec km choice.trip w.trips.store client).1 := hserves.next choice.trip
  simp only [advance]
  generalize clientStep codec km choice.trip w.trips.store client = after at houtcome hkept hnext ⊢
  constructor
  · cases houtcome with
    | idle hstore hanswer => exact .idle ⟨rfl, hstore⟩ (.inl (traveled_refused id call scope hanswer))
    | stored hasked hnew hcurrent hanswer =>
      refine .changed ⟨scope, _, rfl, htarget, rfl, task, _, htask, hasked, hnew, hcurrent⟩ ?_
      rw [traveled_succeeded id call scope hanswer]
      exact fun h ↦ Bool.false_ne_true (Option.some.inj h).symm
    | found hasked hstore hcurrent hanswer =>
      refine .already ⟨scope, _, rfl, htarget, ⟨task, _, htask, hasked, hcurrent⟩, rfl, hstore⟩ ?_
      exact traveled_succeeded id call scope hanswer
  · rcases hnext with ⟨outcome, hdone⟩ | hgoes
    · rw [hdone]
      trivial
    · cases hclient' : after.1 with
      | done outcome =>
        rw [hclient'] at hgoes
        exact hgoes.elim
      | uiStart | uiHolding | chatStart | chatReady | chatConflicted | restoreStart | restoreHolding | restoreReady
      | deleteStart =>
        rw [hclient'] at hgoes hkept
        exact ⟨rfl, tripId, revision, task, htask, htarget, hgoes, hkept⟩

variable (km) in
theorem advance_effect (hinj : Function.Injective codec.snapshotHash) (htrips : SystemInv codec w.trips)
    (choice : Choice) (h : BodyInv parseId codec km w.trips.store tool b) :
    Effect parseId codec km tool w (advance parseId codec km choice w b).2 b (advance parseId codec km choice w b).1 ∧
      BodyInv parseId codec km (advance parseId codec km choice w b).2.trips.store tool
        (advance parseId codec km choice w b).1 := by
  cases b with
  | start id call =>
    obtain rfl : (id, call) = tool := h
    simp only [advance]
    cases choice.raised with
    | some applied =>
      refine ⟨?_, trivial⟩
      cases applied with
      | false => exact .idle ⟨rfl, rfl⟩ (by cases call.onTrip <;> simp [Body.changed, Answer.reports])
      | true => exact .idle ⟨rfl, rfl⟩ (by cases call.onTrip <;> simp [Body.changed, Answer.reports])
    | none =>
      cases hpending : pendingScope w.doc with
      | none =>
        simp only [consumePending, hpending]
        exact ⟨.idle ⟨rfl, rfl⟩ (by cases call.onTrip <;> exact .inl rfl), trivial⟩
      | some scope =>
        simp only [consumePending, hpending]
        have hresolved : BodyInv parseId codec km w.trips.store (id, call) (resolve parseId id call scope) ∧
            (resolve parseId id call scope : Body Text Hash).changed = some false := resolve_spec id call scope
        exact ⟨.idle ⟨rfl, rfl⟩ (.inl hresolved.2), hresolved.1⟩
  | patching id call scope placeId p => exact patching_effect choice id call scope placeId h
  | inserting id scope place =>
    obtain ⟨rfl, htarget⟩ := h
    have hchanges : ∀ w' : World Text Hash, w'.trips.store = w.trips.store →
        w'.docs = w.docs ++ [insertPlace choice.newId place.1] →
        Changes parseId codec km (id, .addPlace place.1) w w' (.inserting id scope place) :=
      fun w' hstore hdocs ↦ ⟨scope, _, rfl, htarget, hstore, choice.newId, place.1, rfl, hdocs⟩
    simp only [advance]
    cases choice.raised with
    | some applied =>
      refine ⟨?_, trivial⟩
      cases applied with
      | false => exact .idle ⟨rfl, rfl⟩ (.inr rfl)
      | true => exact .changed (hchanges _ rfl rfl) (Option.some_ne_none false).symm
    | none =>
      refine ⟨.changed (hchanges _ rfl rfl) ?_, trivial⟩
      exact fun h ↦ Bool.false_ne_true (Option.some.inj h).symm
  | inserted name id =>
    simp only [advance]
    split_ifs
    · exact ⟨.idle ⟨rfl, rfl⟩ (.inl rfl), trivial⟩
    · exact ⟨.idle ⟨rfl, rfl⟩ (.inr rfl), trivial⟩
  | trip id call scope client => exact trip_effect hinj htrips choice id call scope h
  | answered answer => exact ⟨.idle ⟨rfl, rfl⟩ (.inl rfl), trivial⟩

variable (parseId codec km) in
theorem advance_scope (choice : Choice) (w : World Text Hash) (b : Body Text Hash) :
    ((advance parseId codec km choice w b).1.scope = none ∨
        (advance parseId codec km choice w b).1.scope = b.scope ∨
        (advance parseId codec km choice w b).1.scope = pendingScope w.doc ∧
          (advance parseId codec km choice w b).2.doc = clearPending w.doc) ∧
      ((advance parseId codec km choice w b).2.doc = w.doc ∨
        (advance parseId codec km choice w b).2.doc = clearPending w.doc) ∧
      (advance parseId codec km choice w b).2.clock = w.clock := by
  cases b with
  | start id call =>
    simp only [advance]
    cases choice.raised with
    | some applied =>
      cases applied with
      | false => exact ⟨.inl rfl, .inl rfl, rfl⟩
      | true => exact ⟨.inl rfl, .inr rfl, rfl⟩
    | none =>
      cases hpending : pendingScope w.doc with
      | none =>
        simp only [consumePending, hpending]
        exact ⟨.inl rfl, .inr trivial, trivial⟩
      | some scope =>
        simp only [consumePending, hpending]
        have hscope : (resolve parseId id call scope : Body Text Hash).scope = none ∨
            (resolve parseId id call scope : Body Text Hash).scope = some scope := resolve_scope id call scope
        refine ⟨?_, .inr trivial, trivial⟩
        rcases hscope with hnone | hsome
        · exact .inl hnone
        · exact .inr (.inr ⟨hsome, trivial⟩)
  | patching id call scope placeId p =>
    simp only [advance]
    cases choice.raised with
    | some applied => cases applied <;> exact ⟨.inl rfl, .inl rfl, rfl⟩
    | none =>
      refine ⟨?_, .inl rfl, rfl⟩
      have hscope : (patched id call scope placeId (p.next w.docs).1 : Body Text Hash).scope = none ∨
          (patched id call scope placeId (p.next w.docs).1 : Body Text Hash).scope = some scope :=
        patched_scope id call scope placeId _
      rcases hscope with hnone | hsome
      · exact .inl hnone
      · exact .inr (.inl hsome)
  | inserting id scope place =>
    simp only [advance]
    cases choice.raised with
    | some applied => cases applied <;> exact ⟨.inl rfl, .inl rfl, rfl⟩
    | none => exact ⟨.inl rfl, .inl rfl, rfl⟩
  | inserted name id =>
    simp only [advance]
    split_ifs
    · exact ⟨.inl rfl, .inl rfl, rfl⟩
    · exact ⟨.inl rfl, .inl rfl, rfl⟩
  | trip id call scope client =>
    refine ⟨?_, .inl rfl, rfl⟩
    simp only [advance]
    rcases traveled_scope id call scope (clientStep codec km choice.trip w.trips.store client).1 with hnone | hsome
    · exact .inl hnone
    · exact .inr (.inl hsome)
  | answered answer => exact ⟨.inl rfl, .inl rfl, rfl⟩

end Steps

section Runs

variable {Text Hash : Type} {parseId : PlaceId → Option ObjectId} {codec : SnapshotCodec Text Hash} {km : Haversine}
  [DecidableEq Hash] {w : World Text Hash}

/-- A scope was armed before, is not pending while a call goes by it, and is held by one
call. -/
structure ScopeInv (w : World Text Hash) : Prop where
  pending : ∀ σ, pendingScope w.doc = some σ → σ.armedAt < w.clock
  held : ∀ i σ, (w.bodies i).scope = some σ → σ.armedAt < w.clock ∧ pendingScope w.doc ≠ some σ
  single : ∀ i j σ, (w.bodies i).scope = some σ → (w.bodies j).scope = some σ → i = j

structure Inv (parseId : PlaceId → Option ObjectId) (codec : SnapshotCodec Text Hash) (km : Haversine)
    (tools : ℕ → CallId × Call) (w : World Text Hash) : Prop where
  trips : SystemInv codec w.trips
  bodies : ∀ i, BodyInv parseId codec km w.trips.store (tools i) (w.bodies i)
  scopes : ScopeInv w

omit [DecidableEq Hash] in
theorem BodyInv.moved {store store' : Store Text Hash} {tool : CallId × Call} {b : Body Text Hash}
    (h : BodyInv parseId codec km store tool b) (hm : Moved codec store store') (hs : StoreInv codec store) :
    BodyInv parseId codec km store' tool b := by
  cases b with
  | trip id call scope client =>
    obtain ⟨htool, tripId, revision, task, htask, htarget, hserves, hclient⟩ := h
    exact ⟨htool, tripId, revision, task, htask, htarget, hserves.moved hm hs, hclient.mono hm.grows⟩
  | start | patching | inserting | inserted | answered => exact h

omit [DecidableEq Hash] in
theorem ScopeInv.doc (h : ScopeInv w) {doc : Option ThreadDoc}
    (hdoc : ∀ σ, pendingScope doc = some σ → pendingScope w.doc = some σ) : ScopeInv { w with doc := doc } where
  pending := fun σ hσ ↦ h.pending σ (hdoc σ hσ)
  held := fun i σ hσ ↦ ⟨(h.held i σ hσ).1, fun hpending ↦ (h.held i σ hσ).2 (hdoc σ hpending)⟩
  single := h.single

omit [DecidableEq Hash] in
theorem ScopeInv.arm (h : ScopeInv w) (id : CallId) :
    ScopeInv { w with doc := armPending id w.clock w.doc, clock := w.clock + 1 } := by
  have hnew : ∀ σ, pendingScope (armPending id w.clock w.doc) = some σ → σ.armedAt = w.clock := by
    intro σ hσ
    cases hdoc : w.doc with
    | none =>
      rw [hdoc] at hσ
      cases hσ
    | some d =>
      rw [hdoc] at hσ
      obtain rfl := Option.some.inj hσ
      rfl
  refine ⟨fun σ hσ ↦ ?_, fun i σ hσ ↦ ⟨?_, fun hpending ↦ ?_⟩, h.single⟩
  · have hnow := hnew σ hσ
    dsimp only
    omega
  · have hearlier := (h.held i σ hσ).1
    dsimp only
    omega
  · have hearlier := (h.held i σ hσ).1
    have hnow := hnew σ hpending
    omega

theorem ScopeInv.body (h : ScopeInv w) (i : ℕ) (choice : Choice) :
    ScopeInv (step parseId codec km w (.body i choice)) := by
  obtain ⟨hscope, hdoc, hclock⟩ := advance_scope parseId codec km choice w (w.bodies i)
  have hpending : ∀ σ, pendingScope (advance parseId codec km choice w (w.bodies i)).2.doc = some σ →
      pendingScope w.doc = some σ := by
    intro σ hσ
    rcases hdoc with hdoc | hdoc
    · rwa [hdoc] at hσ
    · rw [hdoc, pendingScope_clear] at hσ
      cases hσ
  -- a scope that the call holds now it held before, or it was the pending one
  have hfrom : ∀ σ, (advance parseId codec km choice w (w.bodies i)).1.scope = some σ →
      (w.bodies i).scope = some σ ∨ pendingScope w.doc = some σ ∧
        pendingScope (advance parseId codec km choice w (w.bodies i)).2.doc = none := by
    intro σ hσ
    rcases hscope with hnone | hsame | ⟨hconsumed, hcleared⟩
    · rw [hnone] at hσ
      cases hσ
    · exact .inl (hsame ▸ hσ)
    · refine .inr ⟨hconsumed ▸ hσ, ?_⟩
      rw [hcleared, pendingScope_clear]
  have hbody : ∀ j σ, (Function.update w.bodies i (advance parseId codec km choice w (w.bodies i)).1 j).scope = some σ →
      (w.bodies j).scope = some σ ∨ j = i ∧ pendingScope w.doc = some σ ∧
        pendingScope (advance parseId codec km choice w (w.bodies i)).2.doc = none := by
    intro j σ hσ
    by_cases hj : j = i
    · subst hj
      rw [Function.update_self] at hσ
      rcases hfrom σ hσ with hheld | hpending
      · exact .inl hheld
      · exact .inr ⟨rfl, hpending⟩
    · rw [Function.update_of_ne hj] at hσ
      exact .inl hσ
  refine ⟨fun σ hσ ↦ ?_, fun j σ hσ ↦ ?_, fun j k σ hj hk ↦ ?_⟩
  · simp only [step, hclock]
    exact h.pending σ (hpending σ hσ)
  · simp only [step, hclock]
    rcases hbody j σ hσ with hheld | ⟨-, hwas, hgone⟩
    · exact ⟨(h.held j σ hheld).1, fun hstill ↦ (h.held j σ hheld).2 (hpending σ hstill)⟩
    · refine ⟨h.pending σ hwas, ?_⟩
      rw [hgone]
      exact (Option.some_ne_none σ).symm
  · rcases hbody j σ hj with hheld | ⟨rfl, hwas, -⟩
    · rcases hbody k σ hk with hheld' | ⟨rfl, hwas, -⟩
      · exact h.single j k σ hheld hheld'
      · exact absurd hwas (h.held j σ hheld).2
    · rcases hbody k σ hk with hheld' | ⟨rfl, -, -⟩
      · exact absurd hwas (h.held k σ hheld').2
      · rfl

theorem bound_pending (turn : TurnId) (context : TurnContext) : pendingScope (bound turn context) = none := by
  cases context <;> rfl

theorem body_clients (i : ℕ) (choice : Choice) :
    (step parseId codec km w (.body i choice)).trips.clients = w.trips.clients := by
  simp only [step]
  cases w.bodies i with
  | start id call =>
    simp only [advance]
    cases choice.raised with
    | some applied => cases applied <;> rfl
    | none =>
      cases hpending : pendingScope w.doc with
      | none => simp only [consumePending, hpending]
      | some scope => simp only [consumePending, hpending]
  | patching id call scope placeId p =>
    simp only [advance]
    cases choice.raised with
    | some applied => cases applied <;> rfl
    | none => rfl
  | inserting id scope place =>
    simp only [advance]
    cases choice.raised with
    | some applied => cases applied <;> rfl
    | none => rfl
  | inserted name id =>
    simp only [advance]
    split_ifs
    · rfl
    · rfl
  | trip | answered => rfl

omit [DecidableEq Hash] in
theorem Effect.store_moved {tool : CallId × Call} {w' : World Text Hash} {b b' : Body Text Hash}
    (h : Effect parseId codec km tool w w' b b') : Moved codec w.trips.store w'.trips.store := by
  cases h with
  | idle hstays => exact hstays.2 ▸ .same
  | already halready =>
    obtain ⟨scope, target, -, -, -, hstays⟩ := halready
    exact hstays.2 ▸ .same
  | changed hchanges =>
    obtain ⟨scope, target, -, -, hmakes⟩ := hchanges
    cases target with
    | trip tripId revision =>
      obtain ⟨-, task, payload, -, -, hnew, -⟩ := hmakes
      exact .revised hnew
    | place placeId => exact hmakes.1 ▸ .same
    | newPlace name => exact hmakes.1 ▸ .same

variable {tools : ℕ → CallId × Call}

theorem body_moved (h : Inv parseId codec km tools w) (hinj : Function.Injective codec.snapshotHash) (i : ℕ)
    (choice : Choice) : Moved codec w.trips.store (step parseId codec km w (.body i choice)).trips.store :=
  (advance_effect km hinj h.trips choice (h.bodies i)).1.store_moved

theorem step_inv (hinj : Function.Injective codec.snapshotHash) (w : World Text Hash) (e : Event)
    (h : Inv parseId codec km tools w) : Inv parseId codec km tools (step parseId codec km w e) := by
  cases e with
  | body i choice =>
    have hmoved := body_moved h hinj i choice
    refine ⟨⟨hmoved.inv h.trips.store, fun j ↦ ?_⟩, fun j ↦ ?_, h.scopes.body i choice⟩
    · rw [body_clients]
      exact (h.trips.clients j).mono hmoved.grows
    · by_cases hj : j = i
      · subst hj
        have hkept := (advance_effect km hinj h.trips choice (h.bodies j)).2
        simpa only [step, Function.update_self] using hkept
      · have hkept := (h.bodies j).moved hmoved h.trips.store
        simpa only [step, Function.update_of_ne hj] using hkept
  | bind turn context =>
    refine ⟨h.trips, h.bodies, h.scopes.doc fun σ hσ ↦ ?_⟩
    rw [bound_pending] at hσ
    cases hσ
  | arm id => exact ⟨h.trips, h.bodies, h.scopes.arm id⟩
  | clear =>
    refine ⟨h.trips, h.bodies, h.scopes.doc fun σ hσ ↦ ?_⟩
    rw [pendingScope_clear] at hσ
    cases hσ
  | places docs => exact ⟨h.trips, h.bodies, ⟨h.scopes.pending, h.scopes.held, h.scopes.single⟩⟩
  | client e =>
    have hlin := TripClients.step_linearized km hinj h.trips e
    exact ⟨TripClients.step_inv km hinj w.trips e h.trips,
      fun j ↦ (h.bodies j).moved hlin.store_moved h.trips.store,
      ⟨h.scopes.pending, h.scopes.held, h.scopes.single⟩⟩

/-- An access of a write call does nothing but what it may. -/
def Confined (parseId : PlaceId → Option ObjectId) (codec : SnapshotCodec Text Hash) (km : Haversine)
    (tools : ℕ → CallId × Call) (t : Transition (World Text Hash) Event) : Prop :=
  ∀ i choice, t.event = .body i choice →
    Effect parseId codec km (tools i) t.before t.after (t.before.bodies i) (t.after.bodies i)

/-- A call that reports a change in the end has made the one that it asks for, or has found
it made; one that reports none has made none. -/
structure Honest (parseId : PlaceId → Option ObjectId) (codec : SnapshotCodec Text Hash) (km : Haversine) (i : ℕ)
    (tool : CallId × Call) (accesses : List (Transition (World Text Hash) Event)) (last : World Text Hash) : Prop where
  made : (last.bodies i).changed = some true → ∃ t ∈ accesses, (∃ choice, t.event = .body i choice) ∧
    (Changes parseId codec km tool t.before t.after (t.before.bodies i) ∨
      Already codec km tool t.before t.after (t.before.bodies i))
  unchanged : (last.bodies i).changed = some false → ∀ t ∈ accesses, (∃ choice, t.event = .body i choice) →
    Stays t.before t.after

theorem step_confined (h : Inv parseId codec km tools w) (hinj : Function.Injective codec.snapshotHash) (e : Event) :
    Confined parseId codec km tools ⟨w, e, step parseId codec km w e⟩ := by
  intro i choice he
  obtain rfl : e = .body i choice := he
  simp only [step, Function.update_self]
  exact (advance_effect km hinj h.trips choice (h.bodies i)).1.congr rfl rfl

variable (parseId codec km) in
/-- A call goes on by its own accesses only. -/
theorem step_bodies (w : World Text Hash) (e : Event) (i : ℕ) :
    (∃ choice, e = .body i choice) ∨ (step parseId codec km w e).bodies i = w.bodies i := by
  cases e with
  | body j choice =>
    by_cases hi : i = j
    · exact .inl ⟨choice, by rw [hi]⟩
    · exact .inr (Function.update_of_ne hi _ _)
  | bind | arm | clear | places | client => exact .inr rfl

theorem step_changed (h : Inv parseId codec km tools w) (hinj : Function.Injective codec.snapshotHash) (e : Event)
    {i : ℕ} (hchanged : (w.bodies i).changed ≠ some false) :
    ((step parseId codec km w e).bodies i).changed ≠ some false := by
  rcases step_bodies parseId codec km w e i with ⟨choice, he⟩ | hsame
  · cases step_confined h hinj e i choice he with
    | idle _ hsame =>
      rcases hsame with hsame | hnone
      · exact hsame ▸ hchanged
      · exact hnone ▸ (Option.some_ne_none false).symm
    | changed _ hafter => exact hafter
    | already _ hafter =>
      intro hfalse
      exact Bool.false_ne_true (Option.some.inj (hfalse.symm.trans hafter))
  · rw [hsame]
    exact hchanged

theorem run_honest (h : Inv parseId codec km tools w) (hinj : Function.Injective codec.snapshotHash) (i : ℕ)
    (hfirst : (w.bodies i).changed = some false) (events : List Event) :
    Honest parseId codec km i (tools i) (trace (step parseId codec km) w events)
      (run (step parseId codec km) w events) := by
  have hstep : ∀ w e, Inv parseId codec km tools w → Inv parseId codec km tools (step parseId codec km w e) :=
    fun w e h ↦ step_inv hinj w e h
  constructor
  · intro hlast
    have hnot : (w.bodies i).changed ≠ some true := by
      rw [hfirst]
      exact fun h ↦ Bool.false_ne_true (Option.some.inj h)
    obtain ⟨t, ht, hbefore, hafter⟩ :=
      trace_brings (P := fun w : World Text Hash ↦ (w.bodies i).changed = some true) hnot hlast
    obtain ⟨hinv, hstepped⟩ := trace_invariant h hstep events t ht
    rcases step_bodies parseId codec km t.before t.event i with ⟨choice, he⟩ | hsame
    · refine ⟨t, ht, ⟨choice, he⟩, ?_⟩
      have heffect := step_confined hinv hinj t.event i choice he
      rw [← hstepped] at heffect
      cases heffect with
      | idle _ hsame =>
        rcases hsame with hsame | hnone
        · exact absurd (hsame.symm.trans hafter) hbefore
        · exact absurd (hnone.symm.trans hafter) (Option.some_ne_none true).symm
      | changed hchanges _ => exact .inl hchanges
      | already halready _ => exact .inr halready
    · rw [hstepped, hsame] at hafter
      exact absurd hafter hbefore
  · rintro hlast t ht ⟨choice, he⟩
    obtain ⟨hinv, hstepped⟩ := trace_invariant h hstep events t ht
    have hafter : (t.after.bodies i).changed = some false := by
      by_contra hchanged
      have hkeep : ∀ w e, Inv parseId codec km tools w → (w.bodies i).changed ≠ some false →
          ((step parseId codec km w e).bodies i).changed ≠ some false := fun w e h hc ↦ step_changed h hinj e hc
      exact trace_kept h hstep hkeep events t ht hchanged hlast
    have heffect := step_confined hinv hinj t.event i choice he
    rw [← hstepped] at heffect
    cases heffect with
    | idle hstays _ => exact hstays
    | changed _ hchanged => exact absurd hafter hchanged
    | already _ htrue => exact absurd (Option.some.inj (hafter.symm.trans htrue)) Bool.false_ne_true

/-- A call comes to its change under a scope, or to an error that may hide one. -/
def Spends (σ : PendingScope) (t : Transition (World Text Hash) Event) : Prop :=
  ∃ i choice, t.event = .body i choice ∧ (t.before.bodies i).scope = some σ ∧ (t.after.bodies i).changed ≠ some false

structure Spent (σ : PendingScope) (w : World Text Hash) : Prop where
  past : σ.armedAt < w.clock
  pending : pendingScope w.doc ≠ some σ
  held : ∀ i, (w.bodies i).scope ≠ some σ

theorem spent_of_spends {σ : PendingScope} (h : ScopeInv w) {i : ℕ} {choice : Choice}
    (hheld : (w.bodies i).scope = some σ)
    (hafter : ((step parseId codec km w (.body i choice)).bodies i).changed ≠ some false) :
    Spent σ (step parseId codec km w (.body i choice)) := by
  obtain ⟨-, hdoc, hclock⟩ := advance_scope parseId codec km choice w (w.bodies i)
  obtain ⟨hpast, hpending⟩ := h.held i σ hheld
  refine ⟨?_, ?_, fun j ↦ ?_⟩
  · simp only [step, hclock]
    exact hpast
  · simp only [step]
    rcases hdoc with hdoc | hdoc
    · rw [hdoc]
      exact hpending
    · rw [hdoc, pendingScope_clear]
      exact (Option.some_ne_none σ).symm
  · by_cases hj : j = i
    · subst hj
      exact fun hscope ↦ hafter (changed_of_scope hscope)
    · simp only [step, Function.update_of_ne hj]
      exact fun hscope ↦ hj (h.single j i σ hscope hheld)

theorem step_spent {σ : PendingScope} (h : Spent σ w) (e : Event) : Spent σ (step parseId codec km w e) := by
  cases e with
  | body i choice =>
    obtain ⟨hscope, hdoc, hclock⟩ := advance_scope parseId codec km choice w (w.bodies i)
    refine ⟨?_, ?_, fun j ↦ ?_⟩
    · simp only [step, hclock]
      exact h.past
    · simp only [step]
      rcases hdoc with hdoc | hdoc
      · rw [hdoc]
        exact h.pending
      · rw [hdoc, pendingScope_clear]
        exact (Option.some_ne_none σ).symm
    · by_cases hj : j = i
      · subst hj
        simp only [step, Function.update_self]
        rcases hscope with hnone | hsame | ⟨hconsumed, -⟩
        · rw [hnone]
          exact (Option.some_ne_none σ).symm
        · rw [hsame]
          exact h.held j
        · rw [hconsumed]
          exact h.pending
      · simp only [step, Function.update_of_ne hj]
        exact h.held j
  | bind turn context =>
    refine ⟨h.past, ?_, h.held⟩
    simp only [step, bound_pending]
    exact (Option.some_ne_none σ).symm
  | arm id =>
    refine ⟨Nat.lt_succ_of_lt h.past, fun hpending ↦ ?_, h.held⟩
    cases hdoc : w.doc with
    | none =>
      simp only [step, hdoc] at hpending
      cases hpending
    | some d =>
      simp only [step, hdoc] at hpending
      obtain rfl := Option.some.inj hpending
      exact absurd h.past (Nat.lt_irrefl _)
  | clear =>
    refine ⟨h.past, ?_, h.held⟩
    simp only [step, pendingScope_clear]
    exact (Option.some_ne_none σ).symm
  | places docs => exact ⟨h.past, h.pending, h.held⟩
  | client e => exact ⟨h.past, h.pending, h.held⟩

def opened (tools : ℕ → CallId × Call) (docs : List PlaceDocument) (trips : System Text Hash) : World Text Hash :=
  ⟨none, docs, trips, fun i ↦ .start (tools i).1 (tools i).2, 0⟩

def chapelId : ObjectId := ⟨"65f0c0ffee00000000006a01", by decide⟩

def chapel : PlaceDocument := { id := chapelId, name := some "Chapel" }

def skipTwice : List Event :=
  let choice : Choice := ⟨TripClients.renameTo "Alps" TripClients.alps_named, chapelId, none⟩
  [.bind 0 (.places ["chapel"]), .arm 0, .body 0 choice, .body 1 choice, .client (0, choice.trip), .body 0 choice]

def chapelTools (i : ℕ) : CallId × Call := (0, .skipPlace "chapel" (i = 0))

def chapelWorld : World Payload Payload :=
  opened chapelTools [chapel] ⟨runCalls TripClients.plainCodec
    [.save "trip" (TripClients.juneTrip "June" TripClients.june_named) "2026-05-01T08:00:00"] Store.empty,
      fun _ ↦ .uiHolding "trip" 0⟩

/-- The change is made, and the call that comes too late is told so. -/
example :
    let w := run (step (fun _ ↦ some chapelId) TripClients.plainCodec TripRequests.gridDistance)
      (opened chapelTools [chapel] ⟨Store.empty, fun _ ↦ .uiHolding "trip" 0⟩) skipTwice
    w.docs.map (·.skipped) = [some true] ∧ (w.bodies 0).changed = some true ∧ (w.bodies 1).changed = some false := by
  decide

end Runs

end TravelPlanner.ToolCalls
