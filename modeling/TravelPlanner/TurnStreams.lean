import TravelPlanner.ChatClient
import TravelPlanner.EventStream

namespace TravelPlanner.TurnStreams

open Snapshots TripStore JsonStrings JsonText JsonRoundTrip Lines EventStream Runs ChatClient

variable {F : Type}

section Server

structure LlmFailure where
  typeName : String
  module : String

def contains (text part : String) : Bool := text.toList.tails.any part.toList.isPrefixOf

def classifyLlmError (e : LlmFailure) : String :=
  if contains e.typeName "RateLimitError" then
    if contains e.module "openai" then "OpenAI quota exceeded — check your billing."
    else if contains e.module "anthropic" then "Anthropic rate limit exceeded — try again shortly."
    else "LLM rate limit exceeded — try again shortly."
  else if contains e.typeName "AuthenticationError" then
    "Invalid API key — check your LLM provider configuration."
  else "Stream interrupted"

def multiWriteError : String :=
  "I tried to make several separate changes at once. Ask me to combine them into a single edit."

def scopeUnavailableError : String :=
  "I couldn't set up a safe scope for that change, so I didn't make it. Please try again."

def writeToolNames : List String :=
  ["edit_multi_day_trip", "update_visit_hours", "skip_place", "add_place", "revert_trip_revision"]

structure ToolCall (F : Type) where
  id : String
  name : String
  args : List (String × Json F)

inductive Payload (F : Type)
  | sessionId (id : String)
  | content (text : String)
  | toolProposal (tool : String) (args : List (String × Json F))
  | tripUpdated (update : TripUpdatedEvent)
  | error (message : String)

/-- A run of the graph: the texts of its chat model chunks and, where it ends in one, the exception. -/
structure GraphRun where
  chunks : List String
  failure : Option LlmFailure := none

/-- A checkpoint: is the graph to go on, and what does its last message call if it is the assistant's. -/
structure GraphState (F : Type) where
  next : Bool
  toolCalls : List (ToolCall F)

inductive ServiceCall
  | cancelPendingTools
  | clearPending
  | armPending (toolCallId : String)
  | clearLastTripUpdate
  deriving DecidableEq

/-- What a turn is answered once its run is over, where an exception is no answer. -/
structure Services (F : Type) where
  hasCheckpointer : Bool
  lastTripUpdate : Option (Option TripUpdatedEvent)
  graphState : Option (GraphState F)
  armPending : String → Option Bool
  raises : ServiceCall → Bool

/-- What a generator has sent, called and logged, and whether an exception has left it. -/
structure Emission (F : Type) where
  payloads : List (Payload F) := []
  calls : List ServiceCall := []
  logged : List ServiceCall := []
  raised : Bool := false

def Emission.andThen (a b : Emission F) : Emission F :=
  if a.raised then a else ⟨a.payloads ++ b.payloads, a.calls ++ b.calls, a.logged ++ b.logged, b.raised⟩

def guarded (services : Services F) (call : ServiceCall) : Emission F where
  calls := [call]
  logged := if services.raises call then [call] else []

def failClosedWrite (services : Services F) (message : String) : Emission F :=
  ((guarded services .cancelPendingTools).andThen (guarded services .clearPending)).andThen
    { payloads := [.error message] }

def inspectPendingWriteInterrupt (services : Services F) : Emission F :=
  if services.hasCheckpointer then
    match services.graphState with
    | none => failClosedWrite services scopeUnavailableError
    | some state =>
      if state.next then
        match state.toolCalls.filter fun tc ↦ tc.name ∈ writeToolNames with
        | [] => {}
        | [tc] =>
          match services.armPending tc.id with
          | none => { calls := [.armPending tc.id], raised := true }
          | some false =>
            Emission.andThen { calls := [.armPending tc.id] } (failClosedWrite services scopeUnavailableError)
          | some true => { payloads := [.toolProposal tc.name tc.args], calls := [.armPending tc.id] }
        | _ => failClosedWrite services multiWriteError
      else {}
  else {}

def announceTripUpdate (services : Services F) : Emission F :=
  if services.hasCheckpointer then
    match services.lastTripUpdate with
    | some (some update) =>
      Emission.andThen { payloads := [.tripUpdated update] } (guarded services .clearLastTripUpdate)
    | _ => {}
  else {}

def emitPostTurn (services : Services F) : Emission F :=
  (announceTripUpdate services).andThen (inspectPendingWriteInterrupt services)

/-- A new turn and a resumed one are streamed alike. -/
def streamSse (threadId : String) (graph : GraphRun) (services : Services F) : Emission F :=
  let sent : List (Payload F) := .sessionId threadId :: (graph.chunks.filter (· ≠ "")).map .content
  match graph.failure with
  | some e => { payloads := sent ++ [.error (classifyLlmError e)] }
  | none => Emission.andThen { payloads := sent } (emitPostTurn services)

/-- The write calls that the thread waits for; a thread that cannot be read may wait for any. -/
def pendingWrites (services : Services F) : Option (List (ToolCall F)) :=
  services.graphState.map fun state ↦
    if state.next then state.toolCalls.filter fun tc ↦ tc.name ∈ writeToolNames else []

def tripUpdates (services : Services F) : List TripUpdatedEvent :=
  if services.hasCheckpointer then services.lastTripUpdate.join.toList else []

/-- Why a turn proposes no write. -/
inductive Refused (services : Services F) : String → Prop
  | unreadable (h : services.graphState = none) : Refused services scopeUnavailableError
  | several (writes : List (ToolCall F)) (h : pendingWrites services = some writes) (hmany : 2 ≤ writes.length) :
      Refused services multiWriteError
  | unarmed (tc : ToolCall F) (h : pendingWrites services = some [tc]) (harm : services.armPending tc.id = some false) :
      Refused services scopeUnavailableError

/-- The pending calls and their scope are given up, save where this raises, which is logged. -/
def GivenUp (services : Services F) (e : Emission F) : Prop :=
  ∀ call, call = .cancelPendingTools ∨ call = .clearPending →
    call ∈ e.calls ∧ (call ∈ e.logged ↔ services.raises call = true)

inductive Inspected (services : Services F) : Emission F → Prop
  | idle (h : services.hasCheckpointer = false ∨ pendingWrites services = some []) : Inspected services {}
  | failed (message : String) {e : Emission F} (hrefused : Refused services message)
      (hpayloads : e.payloads = [.error message]) (hgiven : GivenUp services e) : Inspected services e
  | unarmed (id : String) : Inspected services { calls := [.armPending id], raised := true }
  | proposed (tc : ToolCall F) (hwrites : pendingWrites services = some [tc])
      (harmed : services.armPending tc.id = some true) :
      Inspected services { payloads := [.toolProposal tc.name tc.args], calls := [.armPending tc.id] }

/-- The events of a turn: its thread, its tokens in order, then the failure of its run or
the change that it has made and the write that it proposes or refuses. -/
inductive Events (threadId : String) (graph : GraphRun) (services : Services F) : List (Payload F) → Prop
  | failed (x : LlmFailure) (h : graph.failure = some x) : Events threadId graph services
      (.sessionId threadId :: (graph.chunks.filter (· ≠ "")).map .content ++ [.error (classifyLlmError x)])
  | finished (last : List (Payload F)) (h : graph.failure = none) (hlast : last = [] ∨
      (∃ message, Refused services message ∧ last = [.error message]) ∨ ∃ tc, pendingWrites services = some [tc] ∧
        services.armPending tc.id = some true ∧ last = [.toolProposal tc.name tc.args]) :
      Events threadId graph services (.sessionId threadId :: (graph.chunks.filter (· ≠ "")).map .content ++
        (tripUpdates services).map .tripUpdated ++ last)

theorem givenUp_failClosed (services : Services F) (message : String) :
    (failClosedWrite services message).payloads = [.error message] ∧
      GivenUp services (failClosedWrite services message) := by
  refine ⟨rfl, ?_⟩
  intro call hcall
  obtain rfl | rfl := hcall
  all_goals
    cases hcancel : services.raises .cancelPendingTools <;> cases hclear : services.raises .clearPending <;>
      simp [failClosedWrite, Emission.andThen, guarded, hcancel, hclear]

theorem GivenUp.beside {services : Services F} {e : Emission F} (h : GivenUp services e)
    {calls logged : List ServiceCall} (hlogged : ∀ c ∈ logged, c = .clearLastTripUpdate) (payloads : List (Payload F)) (raised : Bool) :
    GivenUp services ⟨payloads, calls ++ e.calls, logged ++ e.logged, raised⟩ := by
  intro call hcall
  obtain ⟨hmade, hnoted⟩ := h call hcall
  refine ⟨List.mem_append_right _ hmade, ?_⟩
  rw [List.mem_append, ← hnoted]
  apply or_iff_right
  intro hmem
  obtain rfl := hlogged _ hmem
  obtain hcall | hcall := hcall
  all_goals cases hcall

theorem inspected (services : Services F) : Inspected services (inspectPendingWriteInterrupt services) := by
  unfold inspectPendingWriteInterrupt
  split_ifs with hcheckpointer
  · cases hstate : services.graphState with
    | none =>
      obtain ⟨hpayloads, hgiven⟩ := givenUp_failClosed services scopeUnavailableError
      exact .failed _ (.unreadable hstate) hpayloads hgiven
    | some state =>
      have hpending : pendingWrites services =
          some (if state.next then state.toolCalls.filter fun tc ↦ tc.name ∈ writeToolNames else []) := by
        rw [pendingWrites, hstate, Option.map_some]
      dsimp only
      split_ifs with hnext
      · rw [if_pos hnext] at hpending
        cases hcalls : state.toolCalls.filter fun tc ↦ tc.name ∈ writeToolNames with
        | nil => exact .idle (.inr (hpending.trans (congrArg some hcalls)))
        | cons tc rest =>
          rw [hcalls] at hpending
          cases rest with
          | nil =>
            dsimp only
            cases harm : services.armPending tc.id with
            | none => exact .unarmed tc.id
            | some armed =>
              cases armed with
              | false =>
                obtain ⟨hpayloads, hgiven⟩ := givenUp_failClosed services scopeUnavailableError
                refine .failed _ (.unarmed tc hpending harm) hpayloads ?_
                exact hgiven.beside (List.forall_mem_nil _) _ _
              | true => exact .proposed tc hpending harm
          | cons tc' rest =>
            obtain ⟨hpayloads, hgiven⟩ := givenUp_failClosed services multiWriteError
            refine .failed _ (.several _ hpending ?_) hpayloads hgiven
            simp
      · rw [if_neg hnext] at hpending
        exact .idle (.inr hpending)
  · exact .idle (.inl (Bool.eq_false_iff.mpr hcheckpointer))

variable {graph : GraphRun} {services : Services F} {threadId : String}

theorem announced_update (services : Services F) : ∃ calls logged, announceTripUpdate services =
    ⟨(tripUpdates services).map .tripUpdated, calls, logged, false⟩ ∧
      ∀ c ∈ calls ++ logged, c = .clearLastTripUpdate := by
  unfold announceTripUpdate tripUpdates
  split_ifs
  · rcases services.lastTripUpdate with - | - | update
    · exact ⟨[], [], rfl, by simp⟩
    · exact ⟨[], [], rfl, by simp⟩
    · refine ⟨[.clearLastTripUpdate], (guarded services .clearLastTripUpdate).logged, rfl, ?_⟩
      intro c hc
      cases hraises : services.raises .clearLastTripUpdate <;> simpa [guarded, hraises] using hc
  · exact ⟨[], [], rfl, by simp⟩

theorem streamSse_inspected (threadId : String) (services : Services F) (hrun : graph.failure = none) :
    ∃ calls logged inspected, Inspected services inspected ∧ (∀ c ∈ calls ++ logged, c = .clearLastTripUpdate) ∧
      streamSse threadId graph services =
        ⟨.sessionId threadId :: (graph.chunks.filter (· ≠ "")).map .content ++
            (tripUpdates services).map .tripUpdated ++ inspected.payloads,
          calls ++ inspected.calls, logged ++ inspected.logged, inspected.raised⟩ := by
  obtain ⟨calls, logged, hannounce, hcalls⟩ := announced_update services
  refine ⟨calls, logged, inspectPendingWriteInterrupt services, inspected services, hcalls, ?_⟩
  simp [streamSse, hrun, emitPostTurn, hannounce, Emission.andThen]

theorem streamSse_events (threadId : String) (graph : GraphRun) (services : Services F) :
    Events threadId graph services (streamSse threadId graph services).payloads := by
  cases hrun : graph.failure with
  | some x =>
    have hevents : Events threadId graph services
        (.sessionId threadId :: (graph.chunks.filter (· ≠ "")).map .content ++ [.error (classifyLlmError x)]) :=
      .failed x hrun
    simpa [streamSse, hrun] using hevents
  | none =>
    obtain ⟨calls, logged, emission, hinspected, -, hstream⟩ := streamSse_inspected threadId services hrun
    rw [hstream]
    apply Events.finished _ hrun
    cases hinspected with
    | idle h => exact .inl rfl
    | failed message hrefused hpayloads hgiven => exact .inr (.inl ⟨message, hrefused, hpayloads⟩)
    | unarmed id => exact .inl rfl
    | proposed tc hwrites harmed => exact .inr (.inr ⟨tc, hwrites, harmed, rfl⟩)

theorem before_inspection {p : Payload F}
    (hp : p ∈ .sessionId threadId :: (graph.chunks.filter (· ≠ "")).map .content ++
      (tripUpdates services).map .tripUpdated)
    (tool : String) (args : List (String × Json F)) (message : String) :
    p ≠ .toolProposal tool args ∧ p ≠ .error message := by
  obtain hp | hp := List.mem_append.mp hp
  · obtain rfl | hp := List.mem_cons.mp hp
    · exact ⟨nofun, nofun⟩
    · obtain ⟨text, -, rfl⟩ := List.mem_map.mp hp
      exact ⟨nofun, nofun⟩
  · obtain ⟨update, -, rfl⟩ := List.mem_map.mp hp
    exact ⟨nofun, nofun⟩

/-- A write is proposed only once it is the one pending write and its scope is armed. -/
theorem proposal_armed {tool : String} {args : List (String × Json F)}
    (h : .toolProposal tool args ∈ (streamSse threadId graph services).payloads) :
    ∃ tc, tc.name = tool ∧ tc.args = args ∧ pendingWrites services = some [tc] ∧
      services.armPending tc.id = some true ∧ .armPending tc.id ∈ (streamSse threadId graph services).calls ∧
        .clearPending ∉ (streamSse threadId graph services).calls := by
  cases hrun : graph.failure with
  | some e => simp [streamSse, hrun] at h
  | none =>
    obtain ⟨calls, logged, emission, hinspected, hcalls, hstream⟩ := streamSse_inspected threadId services hrun
    rw [hstream] at h ⊢
    obtain h | h := List.mem_append.mp h
    · exact absurd rfl (before_inspection h tool args "").1
    · cases hinspected with
      | idle _ => cases h
      | failed message hrefused hpayloads hgiven => simp [hpayloads] at h
      | unarmed id => cases h
      | proposed tc hwrites harmed =>
        obtain ⟨rfl, rfl⟩ : tool = tc.name ∧ args = tc.args := by simpa using h
        refine ⟨tc, rfl, rfl, hwrites, harmed, List.mem_append_right _ List.mem_cons_self, ?_⟩
        intro hclear
        obtain hclear | hclear := List.mem_append.mp hclear
        · cases hcalls _ (List.mem_append_left _ hclear)
        · simp at hclear

/-- An error is that of the run, or a write is refused and the pending calls and their scope are given up. -/
theorem error_closed {message : String} (h : .error message ∈ (streamSse threadId graph services).payloads) :
    (∃ e, graph.failure = some e ∧ message = classifyLlmError e) ∨
      Refused services message ∧ GivenUp services (streamSse threadId graph services) := by
  cases hrun : graph.failure with
  | some e =>
    refine .inl ⟨e, rfl, ?_⟩
    simpa [streamSse, hrun] using h
  | none =>
    obtain ⟨calls, logged, emission, hinspected, hcalls, hstream⟩ := streamSse_inspected threadId services hrun
    rw [hstream] at h ⊢
    obtain h | h := List.mem_append.mp h
    · exact absurd rfl (before_inspection h "" [] message).2
    · cases hinspected with
      | idle _ => cases h
      | failed text hrefused hpayloads hgiven =>
        rw [hpayloads, List.mem_singleton] at h
        obtain rfl := Payload.error.inj h
        exact .inr ⟨hrefused, hgiven.beside (fun c hc ↦ hcalls c (List.mem_append_right _ hc)) _ _⟩
      | unarmed id => cases h
      | proposed tc _ _ => simp at h

/-- A run that leaves writes pending is answered with a proposal or an error, or cut off. -/
theorem never_silent (threadId : String) (hrun : graph.failure = none) (hcheckpointer : services.hasCheckpointer = true)
    (hpending : pendingWrites services ≠ some []) : (streamSse threadId graph services).raised = true ∨
      (∃ tool args, .toolProposal tool args ∈ (streamSse threadId graph services).payloads) ∨
        ∃ message, .error message ∈ (streamSse threadId graph services).payloads := by
  obtain ⟨calls, logged, emission, hinspected, -, hstream⟩ := streamSse_inspected threadId services hrun
  rw [hstream]
  cases hinspected with
  | idle h =>
    obtain h | h := h
    · rw [hcheckpointer] at h
      cases h
    · exact absurd h hpending
  | failed message hrefused hpayloads hgiven =>
    have hsent : .error message ∈ emission.payloads := by rw [hpayloads]; exact List.mem_cons_self
    exact .inr (.inr ⟨message, List.mem_append_right _ hsent⟩)
  | unarmed id => exact .inl rfl
  | proposed tc _ _ => exact .inr (.inl ⟨tc.name, tc.args, List.mem_append_right _ List.mem_cons_self⟩)

end Server

section Wire

def planTypeText : PlanType → String
  | .singleDay => "SINGLE_DAY"
  | .multiDay => "MULTI_DAY"

def Payload.json : Payload F → Json F
  | .sessionId id => .obj [("session_id", .str id)]
  | .content text => .obj [("content", .str text)]
  | .toolProposal tool args => .obj [("tool_proposal", .obj [("tool", .str tool), ("args", .obj args)])]
  | .tripUpdated update => .obj [("trip_updated", .obj
      [("trip_id", .str update.tripId), ("revision", .int update.revision),
       ("plan_type", .str (planTypeText update.planType)), ("name", .str update.name)])]
  | .error message => .obj [("error", .str message)]

/-- The response: its events and, unless an exception has cut it off, the closing mark. -/
def responseBody (codec : PayloadCodec (Json F)) (e : Emission F) : Text :=
  e.payloads.flatMap (fun p ↦ sse codec p.json) ++ if e.raised then [] else dataPrefix ++ doneMark ++ ['\n', '\n']

def field (key : String) : Json F → Option (Json F)
  | .obj fields => (fields.find? fun f ↦ f.1 = key).map Prod.snd
  | _ => none

def textOf : Json F → Option String
  | .str s => some s
  | _ => none

def readPlanType (text : String) : Option PlanType :=
  if text = "SINGLE_DAY" then some .singleDay else if text = "MULTI_DAY" then some .multiDay else none

variable (ft : FloatText F)

/-- The chat keeps the arguments of a proposal as they are; here they are kept as their text. -/
def readProposal (j : Json F) : Option ToolProposal := do
  let tool ← (field "tool" j).bind textOf
  let args ← field "args" j
  return ⟨tool, String.ofList (write ft ⟨true, true⟩ args)⟩

def readTripUpdate (j : Json F) : Option TripUpdatedEvent := do
  let tripId ← (field "trip_id" j).bind textOf
  let revision ← (field "revision" j).bind fun | .int n => some n | _ => none
  let planType ← ((field "plan_type" j).bind textOf).bind readPlanType
  let name ← (field "name" j).bind textOf
  return ⟨tripId, revision, planType, name⟩

/-- The order in which the event loop asks for the members of an event. -/
def readEvent (j : Json F) : SSEEvent :=
  match field "session_id" j, field "content" j, field "tool_proposal" j, field "trip_updated" j, field "error" j with
  | some v, _, _, _, _ => ((textOf v).map .sessionId).getD .other
  | none, some v, _, _, _ => ((textOf v).map .content).getD .other
  | none, none, some v, _, _ => ((readProposal ft v).map .toolProposal).getD .other
  | none, none, none, some v, _ => ((readTripUpdate v).map .tripUpdated).getD .other
  | none, none, none, none, some v => ((textOf v).map .error).getD .other
  | none, none, none, none, none => .other

def Payload.event : Payload F → SSEEvent
  | .sessionId id => .sessionId id
  | .content text => .content text
  | .toolProposal tool args => .toolProposal ⟨tool, String.ofList (write ft ⟨true, true⟩ (.obj args))⟩
  | .tripUpdated update => .tripUpdated update
  | .error message => .error message

theorem readEvent_json (p : Payload F) : readEvent ft p.json = p.event ft := by
  cases p with
  | sessionId id => rfl
  | content text => rfl
  | toolProposal tool args => rfl
  | tripUpdated update =>
    obtain ⟨tripId, revision, planType, name⟩ := update
    cases planType with
    | singleDay => rfl
    | multiDay => rfl
  | error message => rfl

end Wire

section Reading

variable {V : Type} (codec : PayloadCodec V) {payloads : List V} {chunks lines : List Text}

theorem read_lines (hlines : ∀ l ∈ lines, '\n' ∉ l) (hcut : chunks.flatten = lines.flatMap (· ++ ['\n'])) :
    readSSEStream codec (some chunks) = lines.filterMap (parseSSELine codec) := by
  have hsplit := splitOn_lines hlines []
  rw [List.append_nil, ← hcut, List.splitOn_nil] at hsplit
  rw [readSSEStream, readLoop_lines codec [] chunks List.not_mem_nil, List.nil_append, hsplit, List.dropLast_concat]

/-- Of a response that breaks off somewhere, the first events are read. -/
theorem read_beginning (hobjects : ∀ p ∈ payloads, codec.IsObject p) (hcut : chunks.flatten <+: body codec payloads) :
    readSSEStream codec (some chunks) <+: payloads := by
  have hlines := splitOn_lines (bodyLines_line codec hobjects) []
  rw [List.append_nil, ← body_lines, List.splitOn_nil] at hlines
  have hended := splitOn_beginning '\n' hcut
  rw [hlines, List.dropLast_concat] at hended
  have hread := hended.filterMap (parseSSELine codec)
  rw [parse_bodyLines codec hobjects] at hread
  rwa [readSSEStream, readLoop_lines codec [] chunks List.not_mem_nil, List.nil_append]

theorem read_unclosed (hobjects : ∀ p ∈ payloads, codec.IsObject p)
    (hcut : chunks.flatten = payloads.flatMap (sse codec)) : readSSEStream codec (some chunks) = payloads := by
  have hall := parse_bodyLines codec hobjects
  have hline := bodyLines_line codec hobjects
  rw [bodyLines, List.filterMap_append] at hall
  rw [bodyLines] at hline
  have hmark : [dataPrefix ++ doneMark, []].filterMap (parseSSELine codec) = [] := rfl
  rw [hmark, List.append_nil] at hall
  rw [read_lines codec (fun l hl ↦ hline l (List.mem_append_left _ hl)) _, hall]
  rw [hcut, List.flatMap_assoc]
  refine List.flatMap_congr fun p _ ↦ ?_
  simp [sse]

variable (ft : FloatText F) {e : Emission F}

theorem json_isObject (p : Payload F) : (jsonPayloads ft).IsObject p.json := by
  cases p <;> exact ⟨_, rfl⟩

theorem responseBody_raised (h : e.raised = true) :
    responseBody (jsonPayloads ft) e = (e.payloads.map Payload.json).flatMap (sse (jsonPayloads ft)) := by
  rw [responseBody, if_pos h, List.append_nil, List.flatMap_map]

theorem responseBody_closed (h : e.raised = false) :
    responseBody (jsonPayloads ft) e = body (jsonPayloads ft) (e.payloads.map Payload.json) := by
  rw [responseBody, if_neg (by simp [h]), body, List.flatMap_map]

theorem responseBody_beginning :
    responseBody (jsonPayloads ft) e <+: body (jsonPayloads ft) (e.payloads.map Payload.json) := by
  cases h : e.raised with
  | false => exact ⟨[], (List.append_nil _).trans (responseBody_closed ft h)⟩
  | true =>
    rw [responseBody_raised ft h]
    exact List.prefix_append _ _

/-- What is read of a response is a beginning of what was sent, and all of it if the response is whole. -/
theorem read_response (hcut : chunks.flatten <+: responseBody (jsonPayloads ft) e) : ∃ sent, sent <+: e.payloads ∧
    readSSEStream (jsonPayloads ft) (some chunks) = sent.map Payload.json ∧
      (chunks.flatten = responseBody (jsonPayloads ft) e → sent = e.payloads) := by
  have hobjects : ∀ j ∈ e.payloads.map Payload.json, (jsonPayloads ft).IsObject j := by
    intro j hj
    obtain ⟨p, -, rfl⟩ := List.mem_map.mp hj
    exact json_isObject ft p
  by_cases hwhole : chunks.flatten = responseBody (jsonPayloads ft) e
  · refine ⟨e.payloads, List.prefix_refl _, ?_, fun _ ↦ rfl⟩
    cases hraised : e.raised with
    | true => exact read_unclosed _ hobjects (hwhole.trans (responseBody_raised ft hraised))
    | false => exact read_body _ _ _ hobjects (hwhole.trans (responseBody_closed ft hraised))
  · obtain ⟨sent, hsent, hread⟩ := List.prefix_map_iff.mp
      (read_beginning (jsonPayloads ft) hobjects (hcut.trans (responseBody_beginning ft)))
    exact ⟨sent, hsent, hread, fun h ↦ absurd h hwhole⟩

end Reading

section Chat

variable {α : Type} (ft : FloatText F)

def Payload.text? : Payload F → Option String
  | .content text => some text
  | _ => none

def Payload.threadId? : Payload F → Option String
  | .sessionId id => some id
  | _ => none

def Payload.proposal? : Payload F → Option ToolProposal
  | .toolProposal tool args => some ⟨tool, String.ofList (write ft ⟨true, true⟩ (.obj args))⟩
  | _ => none

def Payload.update? : Payload F → Option TripUpdatedEvent
  | .tripUpdated update => some update
  | _ => none

def Payload.error? : Payload F → Option String
  | .error message => some message
  | _ => none

/-- What the last event of a kind says, if there is one. -/
def latest (read : Payload F → Option α) (sent : List (Payload F)) (before : Option α) : Option α :=
  (sent.filterMap read).getLast?.or before

/-- The reply to a turn is one new message, from its first token on. -/
def told (messages : List ChatMessage) (texts : List String) : List ChatMessage :=
  messages ++ if texts = [] then [] else [⟨"assistant", String.join texts⟩]

/-- The page is told of the updates of the trip that it shows. -/
def announced (s : ChatState) (updates : List TripUpdatedEvent) : List (Callback × TripUpdatedEvent) :=
  updates.flatMap fun update ↦ if s.tripId = some update.tripId then s.onTripUpdated.toList.map (·, update) else []

variable {ft} {s s₁ : ChatState} {i : StreamId} {st : Stream} {sent : List (Payload F)} {p : Payload F}
  {read : Payload F → Option α} {before : Option α} {a : α}

theorem collected_none (h : read p = none) : (sent ++ [p]).filterMap read = sent.filterMap read := by
  rw [List.filterMap_append, List.filterMap_cons_none h, List.filterMap_nil, List.append_nil]

theorem collected_some (h : read p = some a) : (sent ++ [p]).filterMap read = sent.filterMap read ++ [a] := by
  rw [List.filterMap_append, List.filterMap_cons_some h, List.filterMap_nil]

theorem latest_none (h : read p = none) : latest read (sent ++ [p]) before = latest read sent before := by
  rw [latest, collected_none h, latest]

theorem latest_some (h : read p = some a) : latest read (sent ++ [p]) before = some a := by
  rw [latest, collected_some h, List.getLast?_concat, Option.some_or]

theorem appendToLast_concat (text : String) (messages : List ChatMessage) (m : ChatMessage) :
    ChatState.appendToLast text (messages ++ [m]) = messages ++ [{ m with content := m.content ++ text }] := by
  induction messages with
  | nil => rfl
  | cons first rest ih =>
    rw [List.cons_append, ChatState.appendToLast, ih]
    · rfl
    · simp

variable (ft) in
structure Showing (s₁ : ChatState) (i : StreamId) (sent : List (Payload F)) (s : ChatState) : Prop where
  stream : ∃ st, s.streams[i]? = some st ∧ st.phase = .running ∧ st.epoch = s.contextEpoch ∧ st.aborted = false ∧
    (st.assistantStarted = true ↔ sent.filterMap Payload.text? ≠ [])
  messages : s.messages = told s₁.messages (sent.filterMap Payload.text?)
  sessionId : s.sessionId = latest Payload.threadId? sent s₁.sessionId
  proposal : s.pendingProposal = latest (Payload.proposal? ft) sent s₁.pendingProposal
  error : s.error = latest Payload.error? sent s₁.error
  invoked : s.invoked = s₁.invoked ++ announced s₁ (sent.filterMap Payload.update?)
  trip : s.tripId = s₁.tripId ∧ s.onTripUpdated = s₁.onTripUpdated

theorem step_event (hst : s.streams[i]? = some st) (hphase : st.phase = .running) (hepoch : st.epoch = s.contextEpoch)
    (e : SSEEvent) : step s (.arrival i (.event e)) = s.handle i st e := by
  simp [step, hst, ChatState.arrive, hphase, hepoch]

theorem told_concat {messages : List ChatMessage} {texts : List String} {started : Bool} (text : String)
    (hstarted : started = true ↔ texts ≠ []) :
    ChatState.appendToLast text (if started then told messages texts else told messages texts ++ [⟨"assistant", ""⟩]) =
      told messages (texts ++ [text]) := by
  have hjoin : String.join (texts ++ [text]) = String.join texts ++ text := by simp
  rw [told, told, if_neg (List.append_ne_nil_of_right_ne_nil texts (List.cons_ne_nil text [])), hjoin]
  split_ifs with hbegun hnone hnone
  · exact absurd hnone (hstarted.mp hbegun)
  · exact appendToLast_concat ..
  · rw [List.append_nil, appendToLast_concat, hnone]
    rfl
  · exact absurd (hstarted.mpr hnone) hbegun

theorem showing_event (h : Showing ft s₁ i sent s) (p : Payload F) :
    Showing ft s₁ i (sent ++ [p]) (step s (.arrival i (.event (p.event ft)))) := by
  obtain ⟨⟨st, hst, hphase, hepoch, haborted, hstarted⟩, hmessages, hsession, hproposal, herror, hinvoked, htrip⟩ := h
  rw [step_event hst hphase hepoch]
  have hlive : p.text? = none → ∃ st, s.streams[i]? = some st ∧ st.phase = .running ∧ st.epoch = s.contextEpoch ∧
      st.aborted = false ∧ (st.assistantStarted = true ↔ (sent ++ [p]).filterMap Payload.text? ≠ []) := by
    intro htext
    rw [collected_none htext]
    exact ⟨st, hst, hphase, hepoch, haborted, hstarted⟩
  have hkept : p.text? = none → s.messages = told s₁.messages ((sent ++ [p]).filterMap Payload.text?) := by
    intro htext
    rwa [collected_none htext]
  have hsilent : p.update? = none →
      s.invoked = s₁.invoked ++ announced s₁ ((sent ++ [p]).filterMap Payload.update?) := by
    intro hupdate
    rwa [collected_none hupdate]
  cases p with
  | sessionId id =>
    have hread : latest Payload.threadId? (sent ++ [Payload.sessionId id]) s₁.sessionId = some id := latest_some rfl
    exact ⟨hlive rfl, hkept rfl, hread.symm, hproposal.trans (latest_none rfl).symm,
      herror.trans (latest_none rfl).symm, hsilent rfl, htrip⟩
  | content text =>
    have htexts : (sent ++ [Payload.content text]).filterMap Payload.text? = sent.filterMap Payload.text? ++ [text] :=
      collected_some rfl
    refine ⟨⟨{ st with assistantStarted := true }, ?_, hphase, hepoch, haborted, ?_⟩, ?_,
      hsession.trans (latest_none rfl).symm, hproposal.trans (latest_none rfl).symm,
      herror.trans (latest_none rfl).symm, hsilent rfl, htrip⟩
    · simp [Payload.event, ChatState.handle, ChatState.modifyStream, hst]
    · simp [htexts]
    · simp only [Payload.event, ChatState.handle]
      rw [hmessages, htexts, told_concat text hstarted]
  | toolProposal tool args =>
    have hread : latest (Payload.proposal? ft) (sent ++ [Payload.toolProposal tool args]) s₁.pendingProposal =
        some ⟨tool, String.ofList (write ft ⟨true, true⟩ (.obj args))⟩ := latest_some rfl
    exact ⟨hlive rfl, hkept rfl, hsession.trans (latest_none rfl).symm, hread.symm,
      herror.trans (latest_none rfl).symm, hsilent rfl, htrip⟩
  | tripUpdated update =>
    refine ⟨hlive rfl, hkept rfl, hsession.trans (latest_none rfl).symm, hproposal.trans (latest_none rfl).symm,
      herror.trans (latest_none rfl).symm, ?_, htrip⟩
    have hupdates : (sent ++ [Payload.tripUpdated update]).filterMap Payload.update? =
        sent.filterMap Payload.update? ++ [update] := collected_some rfl
    simp only [Payload.event, ChatState.handle]
    rw [hupdates, hinvoked, htrip.1, htrip.2, announced, announced, List.flatMap_append, List.flatMap_singleton,
      ← List.append_assoc]
    split_ifs
    · rfl
    · exact (List.append_nil _).symm
  | error message =>
    have hread : latest Payload.error? (sent ++ [Payload.error message]) s₁.error = some message := latest_some rfl
    exact ⟨hlive rfl, hkept rfl, hsession.trans (latest_none rfl).symm, hproposal.trans (latest_none rfl).symm,
      hread.symm, hsilent rfl, htrip⟩

def arrivals (i : StreamId) (events : List SSEEvent) : List Event := events.map fun e ↦ .arrival i (.event e)

theorem showing_run (h : Showing ft s₁ i [] s₁) (sent : List (Payload F)) :
    Showing ft s₁ i sent (run step s₁ (arrivals i (sent.map (Payload.event ft)))) := by
  induction sent using List.reverseRecOn with
  | nil => exact h
  | append_singleton sent p ih =>
    rw [arrivals, run, List.map_append, List.map_append, List.foldl_append]
    exact showing_event ih p

def closing : Option (Option String) → Arrival
  | none => .ended
  | some detail => .failed detail

variable (ft) in
/-- What a chat shows once its stream has ended. -/
structure Shown (s₁ : ChatState) (sent : List (Payload F)) (broken : Option (Option String)) (s' : ChatState) :
    Prop where
  messages : s'.messages = told s₁.messages (sent.filterMap Payload.text?)
  sessionId : s'.sessionId = latest Payload.threadId? sent s₁.sessionId
  proposal : s'.pendingProposal = latest (Payload.proposal? ft) sent s₁.pendingProposal
  error : s'.error = match broken with
    | some detail => some (detail.getD "Chat error.")
    | none => latest Payload.error? sent s₁.error
  invoked : s'.invoked = s₁.invoked ++ announced s₁ (sent.filterMap Payload.update?)
  streaming : s'.streaming = false

theorem shown_of_showing (h : Showing ft s₁ i sent s) (broken : Option (Option String)) :
    Shown ft s₁ sent broken (step s (.arrival i (closing broken))) := by
  obtain ⟨st, hst, hphase, hepoch, haborted, -⟩ := h.stream
  have hrunning : ¬st.phase = .finished := by simp [hphase]
  cases broken with
  | none =>
    have hend : step s (.arrival i (closing none)) = s.finish i st := by
      simp [step, hst, closing, ChatState.arrive, hrunning]
    rw [hend]
    exact ⟨h.messages, h.sessionId, h.proposal, h.error, h.invoked, if_pos hepoch⟩
  | some detail =>
    have hend : step s (.arrival i (closing (some detail))) = (s.caught st detail).finish i st := by
      simp [step, hst, closing, ChatState.arrive, hrunning]
    rw [hend]
    exact ⟨h.messages, h.sessionId, h.proposal, if_pos ⟨hepoch, haborted⟩, h.invoked, if_pos hepoch⟩

variable (ft) in
theorem showing_start (s₀ : ChatState) (resumeConfirmed : Option Bool) :
    Showing ft (s₀.stream resumeConfirmed) s₀.streams.length ([] : List (Payload F)) (s₀.stream resumeConfirmed) := by
  refine ⟨⟨⟨s₀.contextEpoch, ⟨s₀.messages, s₀.sessionId, s₀.tripId, s₀.selectedPlaceIds, resumeConfirmed⟩, false, false,
    .running⟩, ?_, rfl, rfl, rfl, by simp⟩, (List.append_nil _).symm, rfl, rfl, rfl, (List.append_nil _).symm, rfl, rfl⟩
  simp only [ChatState.stream]
  rw [List.getElem?_append_right (by rw [abort_length]), abort_length, Nat.sub_self, List.getElem?_cons_zero]
  unfold ChatState.abortStream
  rfl

variable (ft) in
/-- The chat after a stream: the events of its response, in any chunks, and then its end. -/
def received (s₁ : ChatState) (i : StreamId) (chunks : List Text) (broken : Option (Option String)) : ChatState :=
  step (run step s₁ (arrivals i ((readSSEStream (jsonPayloads ft) (some chunks)).map (readEvent ft))))
    (.arrival i (closing broken))

theorem latest_cases (read : Payload F → Option α) (sent : List (Payload F)) (before : Option α) :
    latest read sent before = before ∨ ∃ p ∈ sent, ∃ a, read p = some a ∧ latest read sent before = some a := by
  rw [latest]
  cases hlast : (sent.filterMap read).getLast? with
  | none => exact .inl rfl
  | some a =>
    obtain ⟨p, hp, hread⟩ := List.mem_filterMap.mp (List.mem_of_getLast? hlast)
    exact .inr ⟨p, hp, a, hread, rfl⟩

theorem latest_isSome (read : Payload F → Option α) (before : Option α) (hp : p ∈ sent) (hread : read p = some a) :
    (latest read sent before).isSome = true := by
  rw [latest]
  cases hlast : (sent.filterMap read).getLast? with
  | none =>
    have hmem : a ∈ sent.filterMap read := List.mem_filterMap.mpr ⟨p, hp, hread⟩
    rw [List.getLast?_eq_none_iff.mp hlast] at hmem
    cases hmem
  | some a' => rfl

theorem proposal?_eq_some {proposal : ToolProposal} (h : p.proposal? ft = some proposal) :
    ∃ tool args, p = .toolProposal tool args ∧
      proposal = ⟨tool, String.ofList (write ft ⟨true, true⟩ (.obj args))⟩ := by
  cases p with
  | toolProposal tool args => exact ⟨tool, args, rfl, (Option.some.inj h).symm⟩
  | sessionId | content | tripUpdated | error => cases h

theorem error?_eq_some {message : String} (h : p.error? = some message) : p = .error message := by
  cases p with
  | error text => rw [Option.some.inj h]
  | sessionId | content | tripUpdated | toolProposal => cases h

variable (ft) in
/-- What a turn owes the user, from the chat at its start to the chat at its end. -/
structure Delivered (e : Emission F) (threadId : String) (graph : GraphRun) (services : Services F) (whole : Prop)
    (broken : Option (Option String)) (s₁ s' : ChatState) : Prop where
  events : Events threadId graph services e.payloads
  shown : ∃ sent, sent <+: e.payloads ∧ (whole → sent = e.payloads) ∧ Shown ft s₁ sent broken s'
  armed : s'.pendingProposal = s₁.pendingProposal ∨ ∃ tc, pendingWrites services = some [tc] ∧
    services.armPending tc.id = some true ∧ .armPending tc.id ∈ e.calls ∧ .clearPending ∉ e.calls ∧
      s'.pendingProposal = some ⟨tc.name, String.ofList (write ft ⟨true, true⟩ (.obj tc.args))⟩
  explained : broken = none → s'.error = none ∨ (∃ x, graph.failure = some x ∧ s'.error = some (classifyLlmError x)) ∨
    ∃ message, Refused services message ∧ GivenUp services e ∧ s'.error = some message
  /-- An exception of the generator breaks the connection off. -/
  resolved : whole → graph.failure = none → services.hasCheckpointer = true → pendingWrites services ≠ some [] →
    (e.raised = true → broken ≠ none) → s'.pendingProposal ≠ none ∨ s'.error ≠ none

def skipMill : ToolCall Empty := ⟨"call-7", "skip_place", [("place_id", .str "65f0c0ffee00000000006b02")]⟩

def millServices : Services Empty where
  hasCheckpointer := true
  lastTripUpdate := some none
  graphState := some ⟨true, [⟨"call-6", "search_place", []⟩, skipMill]⟩
  armPending := fun id ↦ some (id = "call-7")
  raises := fun _ ↦ false

def millTurn : Emission Empty := streamSse "thread-3" ⟨["Shall I ", "", "skip it?"], none⟩ millServices

def millBody : Text := responseBody (jsonPayloads noFloats) millTurn

end Chat

end TravelPlanner.TurnStreams
