import TravelPlanner.Runs
import TravelPlanner.TripStore

namespace TravelPlanner.ChatClient

open Requests Snapshots TripStore Runs

abbrev StreamId := ℕ

abbrev Callback := ℕ

structure ChatMessage where
  role : String
  content : String
  deriving DecidableEq, Repr

structure ToolProposal where
  tool : String
  args : String
  deriving DecidableEq, Repr

structure TripUpdatedEvent where
  tripId : TripId
  revision : ℤ
  planType : PlanType
  name : String
  deriving DecidableEq, Repr

inductive SSEEvent
  | sessionId (id : String)
  | content (text : String)
  | toolProposal (proposal : ToolProposal)
  | tripUpdated (event : TripUpdatedEvent)
  | error (message : String)
  | other
  deriving DecidableEq, Repr

structure ChatRequest where
  messages : List ChatMessage
  sessionId : Option String
  tripId : Option TripId
  placeIds : List PlaceId
  resumeConfirmed : Option Bool
  deriving DecidableEq, Repr

inductive Phase
  | running | leaving | finished
  deriving DecidableEq, Repr

structure Stream where
  epoch : ℕ
  request : ChatRequest
  aborted : Bool := false
  assistantStarted : Bool := false
  phase : Phase := .running
  deriving DecidableEq, Repr

structure ChatState where
  messages : List ChatMessage := []
  sessionId : Option String := none
  streaming : Bool := false
  pendingProposal : Option ToolProposal := none
  error : Option String := none
  selectedPlaceIds : List PlaceId := []
  tripId : Option TripId := none
  tripPlanType : Option PlanType := none
  onTripUpdated : Option Callback := none
  contextEpoch : ℕ := 0
  streamAbort : Option StreamId := none
  streams : List Stream := []
  /-- Calls of `onTripUpdated`, oldest first. -/
  invoked : List (Callback × TripUpdatedEvent) := []
  /-- Calls of `cancelPendingChatTool`, oldest first. -/
  cancelled : List (String × Option TripId) := []
  deriving DecidableEq, Repr

inductive Call
  | send (content : String)
  | confirmProposal
  | cancelProposal
  | setTripContext (tripId : TripId) (planType : PlanType) (onUpdated : Callback)
  | clearTripContext
  | clear
  | selectPlaces (placeIds : List PlaceId)
  deriving DecidableEq, Repr

/-- What reaches the loop of a stream; a failure carries the detail of an `ApiError`. -/
inductive Arrival
  | event (e : SSEEvent)
  | failed (detail : Option String)
  | ended
  deriving DecidableEq, Repr

inductive Event
  | call (c : Call)
  | arrival (i : StreamId) (a : Arrival)
  deriving DecidableEq, Repr

namespace ChatState

def modifyStream (s : ChatState) (i : StreamId) (f : Stream → Stream) : ChatState :=
  { s with streams := s.streams.modify i f }

/-- `this.#streamAbort?.abort()` -/
def abortStream (s : ChatState) : ChatState :=
  { s with
    streams := match s.streamAbort with
      | none => s.streams
      | some i => s.streams.modify i fun st ↦ { st with aborted := true } }

/-- The part of `_stream` that runs before its first event. -/
def stream (s : ChatState) (resumeConfirmed : Option Bool) : ChatState :=
  let s := s.abortStream
  { s with
    streamAbort := some s.streams.length
    streaming := true
    error := none
    streams := s.streams ++
      [{ epoch := s.contextEpoch
         request := ⟨s.messages, s.sessionId, s.tripId, s.selectedPlaceIds, resumeConfirmed⟩ }] }

def send (s : ChatState) (content : String) : ChatState :=
  if s.streaming then s else stream { s with messages := s.messages ++ [⟨"user", content⟩] } none

def confirmProposal (s : ChatState) : ChatState := stream { s with pendingProposal := none } (some true)

def cancelProposal (s : ChatState) : ChatState := stream { s with pendingProposal := none } (some false)

def resetForContextSwitch (s : ChatState) : ChatState :=
  let cancelled := match s.sessionId with
    | some session =>
      if s.pendingProposal ≠ none ∧ session ≠ "" then s.cancelled ++ [(session, s.tripId)] else s.cancelled
    | none => s.cancelled
  { s.abortStream with
    contextEpoch := s.contextEpoch + 1
    streamAbort := none
    streaming := false
    pendingProposal := none
    messages := []
    error := none
    sessionId := none
    cancelled := cancelled }

def setTripContext (s : ChatState) (tripId : TripId) (planType : PlanType) (onUpdated : Callback) : ChatState :=
  if s.tripId = some tripId then { s with onTripUpdated := some onUpdated }
  else
    { s.resetForContextSwitch with
      tripId := some tripId
      tripPlanType := some planType
      onTripUpdated := some onUpdated }

def clearTripContext (s : ChatState) : ChatState :=
  if s.tripId = none then s
  else { s.resetForContextSwitch with tripId := none, tripPlanType := none, onTripUpdated := none }

def clear (s : ChatState) : ChatState :=
  { s.abortStream with
    contextEpoch := s.contextEpoch + 1
    streamAbort := none
    messages := []
    sessionId := none
    streaming := false
    pendingProposal := none
    error := none
    tripId := none
    tripPlanType := none
    onTripUpdated := none }

/-- `messages[messages.length - 1].content += text` -/
def appendToLast (text : String) : List ChatMessage → List ChatMessage
  | [] => []
  | [m] => [{ m with content := m.content ++ text }]
  | m :: rest => m :: appendToLast text rest

/-- The branches of the event loop, past the epoch check. -/
def handle (s : ChatState) (i : StreamId) (st : Stream) : SSEEvent → ChatState
  | .sessionId id => { s with sessionId := some id }
  | .content text =>
    let messages := if st.assistantStarted then s.messages else s.messages ++ [⟨"assistant", ""⟩]
    { s.modifyStream i (fun st ↦ { st with assistantStarted := true }) with messages := appendToLast text messages }
  | .toolProposal proposal => { s with pendingProposal := some proposal }
  | .tripUpdated event =>
    { s with
      invoked :=
        if s.tripId = some event.tripId then s.invoked ++ s.onTripUpdated.toList.map (·, event) else s.invoked }
  | .error message => { s with error := some message }
  | .other => s

def finish (s : ChatState) (i : StreamId) (st : Stream) : ChatState :=
  { s.modifyStream i (fun st ↦ { st with phase := .finished }) with
    streaming := if st.epoch = s.contextEpoch then false else s.streaming }

def caught (s : ChatState) (st : Stream) (detail : Option String) : ChatState :=
  { s with
    error := if st.epoch = s.contextEpoch ∧ st.aborted = false then some (detail.getD "Chat error.") else s.error }

def arrive (s : ChatState) (i : StreamId) (st : Stream) : Arrival → ChatState
  | .event e =>
    match st.phase with
    | .running =>
      if st.epoch ≠ s.contextEpoch then s.modifyStream i fun st ↦ { st with phase := .leaving }
      else s.handle i st e
    | _ => s
  | .failed detail => if st.phase = .finished then s else (s.caught st detail).finish i st
  | .ended => if st.phase = .finished then s else s.finish i st

def call (s : ChatState) : Call → ChatState
  | .send content => s.send content
  | .confirmProposal => s.confirmProposal
  | .cancelProposal => s.cancelProposal
  | .setTripContext tripId planType onUpdated => s.setTripContext tripId planType onUpdated
  | .clearTripContext => s.clearTripContext
  | .clear => s.clear
  | .selectPlaces placeIds => { s with selectedPlaceIds := placeIds }

end ChatState

def step (s : ChatState) : Event → ChatState
  | .call c => s.call c
  | .arrival i a =>
    match s.streams[i]? with
    | some st => s.arrive i st a
    | none => s

section Streams

variable {s : ChatState} {i j : ℕ} {st st' : Stream}

theorem modify_lookup {f : Stream → Stream} (h : (s.modifyStream i f).streams[j]? = some st') :
    ∃ st, s.streams[j]? = some st ∧ st' = if i = j then f st else st := by
  rw [ChatState.modifyStream, List.getElem?_modify] at h
  obtain ⟨st, hst, rfl⟩ := Option.map_eq_some_iff.mp h
  exact ⟨st, hst, by split_ifs <;> rfl⟩

theorem abort_length (s : ChatState) : s.abortStream.streams.length = s.streams.length := by
  unfold ChatState.abortStream
  cases s.streamAbort <;> simp

theorem abort_lookup (h : s.abortStream.streams[j]? = some st') :
    ∃ st, s.streams[j]? = some st ∧ st'.epoch = st.epoch ∧ st'.phase = st.phase := by
  cases hs : s.streamAbort with
  | none =>
    simp only [ChatState.abortStream, hs] at h
    exact ⟨st', h, rfl, rfl⟩
  | some i =>
    simp only [ChatState.abortStream, hs] at h
    obtain ⟨st, hst, rfl⟩ := modify_lookup h
    refine ⟨st, hst, ?_⟩
    split_ifs <;> exact ⟨rfl, rfl⟩

theorem stream_lookup {resumeConfirmed : Option Bool} (h : (s.stream resumeConfirmed).streams[j]? = some st') :
    (∃ st, s.streams[j]? = some st ∧ st'.epoch = st.epoch ∧ st'.phase = st.phase) ∨
      j = s.streams.length ∧ st'.epoch = s.contextEpoch ∧ st'.phase = .running := by
  simp only [ChatState.stream] at h
  rcases Nat.lt_or_ge j s.streams.length with hj | hj
  · rw [List.getElem?_append_left (by rwa [abort_length])] at h
    exact .inl (abort_lookup h)
  · rw [List.getElem?_append_right (by rwa [abort_length]), abort_length] at h
    obtain ⟨hlt, rfl⟩ := List.getElem?_eq_some_iff.mp h
    have hlast : j = s.streams.length := by
      simp only [List.length_singleton] at hlt
      omega
    refine .inr ⟨hlast, ?_⟩
    simp [ChatState.abortStream]

theorem stream_length (s : ChatState) (resumeConfirmed : Option Bool) :
    (s.stream resumeConfirmed).streams.length = s.streams.length + 1 := by
  simp [ChatState.stream, abort_length]

structure Arrived (s s' : ChatState) (i : ℕ) (st : Stream) (f : Stream → Stream) : Prop where
  epoch : s'.contextEpoch = s.contextEpoch
  streams : s'.streams = s.streams.modify i f
  keeps : ∀ st, (f st).epoch = st.epoch
  stays_or_ends :
    (s'.streaming = s.streaming ∧ (st.epoch = s.contextEpoch → ∀ st, (f st).phase = st.phase)) ∨
      (st.epoch = s.contextEpoch ∧ st.phase ≠ .finished ∧ s'.streaming = false ∧ ∀ st, (f st).phase = .finished)

theorem arrived_of_same {s' : ChatState} (hs : s'.streams = s.streams) (he : s'.contextEpoch = s.contextEpoch)
    (hb : s'.streaming = s.streaming) : Arrived s s' i st id :=
  ⟨he, hs.trans (List.modify_id i s.streams).symm, fun _ ↦ rfl, .inl ⟨hb, fun _ _ ↦ rfl⟩⟩

theorem finish_arrived {s' : ChatState} (hs : s'.streams = s.streams) (he : s'.contextEpoch = s.contextEpoch)
    (hb : s'.streaming = s.streaming) (hphase : st.phase ≠ .finished) :
    Arrived s (s'.finish i st) i st (fun st ↦ { st with phase := .finished }) := by
  refine ⟨he, by rw [← hs]; rfl, fun _ ↦ rfl, ?_⟩
  by_cases hepoch : st.epoch = s.contextEpoch
  · exact .inr ⟨hepoch, hphase, if_pos (hepoch.trans he.symm), fun _ ↦ rfl⟩
  · refine .inl ⟨?_, fun h ↦ absurd h hepoch⟩
    rw [ChatState.finish, he, if_neg hepoch]
    exact hb

theorem handle_arrived (s : ChatState) (i : ℕ) (st : Stream) (e : SSEEvent) :
    ∃ f, Arrived s (s.handle i st e) i st f := by
  cases e with
  | content text =>
    exact ⟨fun st ↦ { st with assistantStarted := true }, rfl, rfl, fun _ ↦ rfl, .inl ⟨rfl, fun _ _ ↦ rfl⟩⟩
  | sessionId session => exact ⟨id, arrived_of_same rfl rfl rfl⟩
  | toolProposal proposal => exact ⟨id, arrived_of_same rfl rfl rfl⟩
  | tripUpdated event => exact ⟨id, arrived_of_same rfl rfl rfl⟩
  | error message => exact ⟨id, arrived_of_same rfl rfl rfl⟩
  | other => exact ⟨id, arrived_of_same rfl rfl rfl⟩

theorem arrive_spec (s : ChatState) (i : ℕ) (st : Stream) (a : Arrival) : ∃ f, Arrived s (s.arrive i st a) i st f := by
  cases a with
  | event e =>
    simp only [ChatState.arrive]
    split
    · split_ifs with hepoch
      · exact ⟨fun st ↦ { st with phase := .leaving }, rfl, rfl, fun _ ↦ rfl, .inl ⟨rfl, fun h ↦ absurd h hepoch⟩⟩
      · exact handle_arrived s i st e
    · exact ⟨id, arrived_of_same rfl rfl rfl⟩
  | failed detail =>
    simp only [ChatState.arrive]
    split_ifs with hphase
    · exact ⟨id, arrived_of_same rfl rfl rfl⟩
    · exact ⟨_, finish_arrived rfl rfl rfl hphase⟩
  | ended =>
    simp only [ChatState.arrive]
    split_ifs with hphase
    · exact ⟨id, arrived_of_same rfl rfl rfl⟩
    · exact ⟨_, finish_arrived rfl rfl rfl hphase⟩

theorem arrive_lookup {a : Arrival} (h : (s.arrive i st a).streams[j]? = some st') :
    ∃ st₀, s.streams[j]? = some st₀ ∧ st'.epoch = st₀.epoch ∧ (j ≠ i → st' = st₀) := by
  obtain ⟨f, harrived⟩ := arrive_spec s i st a
  rw [harrived.streams] at h
  obtain ⟨st₀, hst₀, rfl⟩ := modify_lookup h
  refine ⟨st₀, hst₀, ?_, fun hne ↦ if_neg hne.symm⟩
  split_ifs
  · exact harrived.keeps st₀
  · rfl

end Streams

end TravelPlanner.ChatClient
