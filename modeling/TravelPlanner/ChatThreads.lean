import TravelPlanner.Runs
import TravelPlanner.TripStore

namespace TravelPlanner.ChatThreads

open Requests Snapshots TripStore Runs

abbrev CallId := ℕ

abbrev TurnId := ℕ

inductive BindingKind
  | trip | placeSelection
  deriving DecidableEq, Repr

structure Binding where
  kind : BindingKind
  tripId : Option TripId
  planType : Option PlanType
  name : Option String
  revision : Option ℤ
  allowedPlaceIds : List PlaceId
  deriving DecidableEq

structure PendingScope extends Binding where
  toolCallId : CallId
  armedAt : ℕ
  deriving DecidableEq

structure ThreadDoc where
  binding : Binding
  pending : Option PendingScope
  boundBy : TurnId
  deriving DecidableEq

def bindTrip (turn : TurnId) (tripId : TripId) (planType : PlanType) (name : String) (revision : ℤ)
    (allowedPlaceIds : List PlaceId) : ThreadDoc :=
  ⟨⟨.trip, some tripId, some planType, some name, some revision, allowedPlaceIds⟩, none, turn⟩

def bindPlaceSelection (turn : TurnId) (allowedPlaceIds : List PlaceId) : ThreadDoc :=
  ⟨⟨.placeSelection, none, none, none, none, allowedPlaceIds⟩, none, turn⟩

def armPending (callId : CallId) (now : ℕ) (doc : Option ThreadDoc) : Option ThreadDoc :=
  doc.map fun d ↦ { d with pending := some ⟨d.binding, callId, now⟩ }

def clearPending (doc : Option ThreadDoc) : Option ThreadDoc := doc.map fun d ↦ { d with pending := none }

def pendingScope (doc : Option ThreadDoc) : Option PendingScope := doc.bind ThreadDoc.pending

theorem pendingScope_clear (doc : Option ThreadDoc) : pendingScope (clearPending doc) = none := by
  cases doc <;> rfl

def consumePending (doc : Option ThreadDoc) : Option PendingScope × Option ThreadDoc :=
  (pendingScope doc, clearPending doc)

inductive Tool
  | editMultiDayTrip
  | revertTripRevision (targetRevision : ℤ)
  | updateVisitHours (placeId : PlaceId)
  | skipPlace (placeId : PlaceId) (skipped : Bool)
  | addPlace (name : String)
  | read (name : String)
  deriving DecidableEq, Repr

def Tool.isWrite : Tool → Bool
  | .read _ => false
  | _ => true

def Tool.isPlaceWrite : Tool → Bool
  | .updateVisitHours _ | .skipPlace .. | .addPlace _ => true
  | _ => false

structure ToolCall where
  id : CallId
  tool : Tool
  deriving DecidableEq, Repr

inductive Target
  | trip (tripId : TripId) (revision : ℤ)
  | place (placeId : PlaceId)
  | newPlace (name : String)
  deriving DecidableEq, Repr

def tripScope (callId : CallId) (p : PendingScope) : Option (TripId × ℤ) :=
  match p.kind, p.tripId, p.revision with
  | .trip, some tripId, some revision => if p.toolCallId ≠ callId then none else some (tripId, revision)
  | _, _, _ => none

def resolvePlaceWriteScope (p : PendingScope) : Option (List PlaceId) :=
  if p.kind = .trip then none else some p.allowedPlaceIds

def writeTarget (call : ToolCall) (p : PendingScope) : Option Target :=
  match call.tool with
  | .editMultiDayTrip | .revertTripRevision _ => (tripScope call.id p).map fun t ↦ .trip t.1 t.2
  | .updateVisitHours placeId | .skipPlace placeId _ => do
    let allowed ← resolvePlaceWriteScope p
    if placeId ∈ allowed then some (.place placeId) else none
  | .addPlace name => (resolvePlaceWriteScope p).map fun _ ↦ .newPlace name
  | .read _ => none

/-- What happens to a call inside the tool node: its arguments may be rejected before
its body runs, and the write of a body may fail. -/
inductive ToolOutcome
  | invalidArgs
  | runs (persists : Bool)
  deriving DecidableEq, Repr

inductive Entry
  | proposed (callId : CallId) (armedAt : ℕ)
  | confirmed
  | consumed (callId : CallId) (turn : TurnId) (scope : Binding)
  | mutated (callId : CallId) (armedAt : ℕ) (target : Target)
  deriving DecidableEq

/-- The store of a thread and what has happened on it, newest first. -/
structure Shared where
  doc : Option ThreadDoc
  log : List Entry

def runTool (turn : TurnId) (s : Shared) (run : ToolCall × ToolOutcome) : Shared :=
  match run.2 with
  | .invalidArgs => s
  | .runs persists =>
    if run.1.tool.isWrite then
      match consumePending s.doc with
      | (none, doc) => ⟨doc, s.log⟩
      | (some p, doc) =>
        let log := .consumed run.1.id turn p.toBinding :: s.log
        match writeTarget run.1 p with
        | some target => ⟨doc, if persists then .mutated run.1.id p.armedAt target :: log else log⟩
        | none => ⟨doc, log⟩
    else s

def runTools (turn : TurnId) (s : Shared) (runs : List (ToolCall × ToolOutcome)) : Shared :=
  runs.foldl (runTool turn) s

/-- A message of the history; a reply of the model carries the turn it belongs to. -/
inductive Message
  | text
  | ai (turn : TurnId) (calls : List ToolCall)
  | toolResult (callId : CallId)
  deriving DecidableEq

def answeredIds (messages : List Message) : List CallId :=
  messages.filterMap fun | .toolResult id => some id | _ => none

/-- The node the graph waits to run; a stop before `toolsWrite` is the pause. -/
inductive Next
  | finished | chatbot | toolsWrite
  deriving DecidableEq, Repr

def afterChatbot (messages : List Message) : Next :=
  match messages.getLast? with
  | some (.ai _ calls) =>
    if calls = [] then .finished else if calls.any (·.tool.isWrite) then .toolsWrite else .chatbot
  | _ => .finished

def Message.dangling (answered : List CallId) : Message → Bool
  | .ai _ calls => calls.any (·.id ∉ answered)
  | _ => false

def Message.strip (answered : List CallId) : Message → Message
  | .ai turn calls => if calls.any (·.id ∉ answered) then .ai turn [] else .ai turn calls
  | m => m

inductive Role
  | user | assistant | system
  deriving DecidableEq, Repr

def Role.toLcMessage (turn : TurnId) : Role → Message
  | .assistant => .ai turn []
  | _ => .text

inductive TurnContext
  | trip (tripId : TripId) (planType : PlanType) (name : String) (revision : ℤ) (allowedPlaceIds : List PlaceId)
  | missingTrip
  | places (allowedPlaceIds : List PlaceId)
  deriving DecidableEq

structure TurnRequest where
  context : TurnContext
  messages : List Role
  deriving DecidableEq

inductive Request
  | turn (r : TurnRequest)
  | resume (confirmed : Bool)
  deriving DecidableEq

inductive Stage
  | cancelling (r : TurnRequest)
  | clearing (r : TurnRequest)
  | binding (r : TurnRequest)
  | entering (r : TurnRequest)
  | confirming
  | dropping
  | rejecting
  | streaming (turn : TurnId)
  | inspecting
  | arming (turn : TurnId) (callId : CallId)
  | failing
  | failingScope
  | closed
  deriving DecidableEq

def Request.stage : Request → Stage
  | .turn r => .cancelling r
  | .resume true => .confirming
  | .resume false => .dropping

structure Thread where
  shared : Shared
  messages : List Message
  next : Next
  turn : TurnId
  nextCall : CallId
  clock : ℕ
  bindings : TurnId → Option Binding
  stages : ℕ → Stage

def Thread.start (requests : ℕ → Request) : Thread where
  shared := ⟨none, []⟩
  messages := []
  next := .finished
  turn := 0
  nextCall := 0
  clock := 0
  bindings := fun _ ↦ none
  stages := fun i ↦ (requests i).stage

/-- What the model, the tools and the network do at a step. A lost stream ends its
request; tools may have run without the graph having saved it. -/
structure Choice where
  lost : Bool := false
  saved : Bool := true
  reply : List Tool := []
  runs : List (ToolCall × ToolOutcome) := []

abbrev Event := ℕ × Choice

namespace Thread

def goto (s : Thread) (i : ℕ) (stage : Stage) : Thread := { s with stages := Function.update s.stages i stage }

@[simp] theorem goto_nextCall (s : Thread) (i : ℕ) (stage : Stage) : (s.goto i stage).nextCall = s.nextCall := rfl

@[simp] theorem goto_stages (s : Thread) (i : ℕ) (stage : Stage) : (s.goto i stage).stages i = stage := by
  simp only [goto, Function.update_self]

theorem goto_stages_ne {i j : ℕ} (h : j ≠ i) (s : Thread) (stage : Stage) :
    (s.goto i stage).stages j = s.stages j := by
  simp only [goto, Function.update_of_ne h]

def acancelPendingTools (s : Thread) : Thread :=
  if s.messages.any (·.dangling (answeredIds s.messages)) then
    let messages := s.messages.map (·.strip (answeredIds s.messages))
    { s with messages := messages, next := afterChatbot messages }
  else s

def clearScope (s : Thread) : Thread := { s with shared := ⟨clearPending s.shared.doc, s.shared.log⟩ }

def bind (s : Thread) (i : TurnId) : TurnContext → Thread
  | .trip tripId planType name revision allowed =>
    let d := bindTrip i tripId planType name revision allowed
    { s with shared := ⟨some d, s.shared.log⟩, bindings := Function.update s.bindings i (some d.binding) }
  | .places allowed =>
    let d := bindPlaceSelection i allowed
    { s with shared := ⟨some d, s.shared.log⟩, bindings := Function.update s.bindings i (some d.binding) }
  | .missingTrip => { s with shared := ⟨none, s.shared.log⟩ }

/-- The new input, after which the graph runs the model unless an answer came with it. -/
def enter (s : Thread) (i : TurnId) (r : TurnRequest) : Thread :=
  let note := if r.context = .missingTrip then [.text] else []
  let messages := s.messages ++ note ++ r.messages.map (·.toLcMessage i)
  { s with
    messages := messages
    turn := i
    next := match messages.getLast? with
      | some (.ai _ []) => .finished
      | _ => .chatbot }

def numbered (s : Thread) (reply : List Tool) : List ToolCall :=
  reply.mapIdx fun k tool ↦ ⟨s.nextCall + k, tool⟩

def reply (s : Thread) (turn : TurnId) (tools : List Tool) : Thread :=
  let calls := s.numbered tools
  let messages := s.messages ++ [.ai turn calls]
  let next := afterChatbot messages
  { s with
    messages := if next = .chatbot then messages ++ calls.map (.toolResult ·.id) else messages
    next := next
    nextCall := s.nextCall + tools.length }

def runToolsWrite (s : Thread) (turn : TurnId) (calls : List ToolCall) (choice : Choice) : Thread :=
  let s' := { s with shared := runTools turn s.shared choice.runs }
  if choice.saved then { s' with messages := s.messages ++ calls.map (.toolResult ·.id), next := .chatbot } else s'

def resumeGraph (s : Thread) (i : ℕ) (choice : Choice) : Thread :=
  match s.next, s.messages.getLast? with
  | .finished, _ => s.goto i .inspecting
  | .chatbot, _ => s.goto i (.streaming s.turn)
  | .toolsWrite, some (.ai turn calls) =>
    if (choice.runs.map Prod.fst).Perm calls then
      (s.runToolsWrite turn calls choice).goto i (if choice.saved then .streaming turn else .closed)
    else s
  | .toolsWrite, _ => s.goto i .closed

def inspect (s : Thread) : Stage :=
  match s.next, s.messages.getLast? with
  | .finished, _ => .closed
  | _, some (.ai turn calls) =>
    match calls.filter (·.tool.isWrite) with
    | [] => .closed
    | [call] => .arming turn call.id
    | _ => .failing
  | _, _ => .closed

def arm (s : Thread) (i : ℕ) (callId : CallId) : Thread :=
  match armPending callId s.clock s.shared.doc with
  | none => s.goto i .failing
  | some d =>
    { s with shared := ⟨some d, .proposed callId s.clock :: s.shared.log⟩, clock := s.clock + 1 }.goto i .closed

def confirm (s : Thread) : Thread := { s with shared := ⟨s.shared.doc, .confirmed :: s.shared.log⟩ }

def advance (s : Thread) (i : ℕ) (choice : Choice) : Stage → Thread
  | .cancelling r => s.acancelPendingTools.goto i (.clearing r)
  | .clearing r => s.clearScope.goto i (.binding r)
  | .binding r => (s.bind i r.context).goto i (.entering r)
  | .entering r =>
    let s := s.enter i r
    s.goto i (if s.next = .finished then .inspecting else .streaming i)
  | .confirming => s.confirm.resumeGraph i choice
  | .dropping => s.clearScope.goto i .rejecting
  | .rejecting => s.acancelPendingTools.resumeGraph i choice
  | .streaming turn =>
    let s := s.reply turn choice.reply
    s.goto i (if s.next = .chatbot then .streaming turn else .inspecting)
  | .inspecting => s.goto i s.inspect
  | .arming _ callId => s.arm i callId
  | .failing => s.acancelPendingTools.goto i .failingScope
  | .failingScope => s.clearScope.goto i .closed
  | .closed => s

end Thread

def step (s : Thread) (e : Event) : Thread :=
  if e.2.lost then s.goto e.1 .closed else s.advance e.1 e.2 (s.stages e.1)

end TravelPlanner.ChatThreads
