import TravelPlanner.ChatClient

namespace TravelPlanner.ContextIsolation

open Runs ChatClient

/-- What a user sees of the chat, and the callbacks made on its behalf. -/
structure View where
  messages : List ChatMessage
  sessionId : Option String
  pendingProposal : Option ToolProposal
  error : Option String
  streaming : Bool
  invoked : List (Callback × TripUpdatedEvent)

def view (s : ChatState) : View := ⟨s.messages, s.sessionId, s.pendingProposal, s.error, s.streaming, s.invoked⟩

def Switches (s : ChatState) : Call → Prop
  | .setTripContext tripId _ _ => s.tripId ≠ some tripId
  | .clearTripContext => s.tripId ≠ none
  | .clear => True
  | _ => False

def Dated (s : ChatState) : Prop := ∀ (i : ℕ) (st : Stream), s.streams[i]? = some st → st.epoch ≤ s.contextEpoch

/-- Contexts only advance, streams stay in the one they were started in, and new
streams start in the present one. -/
structure Later (s s' : ChatState) : Prop where
  epoch : s.contextEpoch ≤ s'.contextEpoch
  streams : ∀ (i : ℕ) (st' : Stream), s'.streams[i]? = some st' →
    (∃ st, s.streams[i]? = some st ∧ st'.epoch = st.epoch) ∨
      s.streams.length ≤ i ∧ st'.epoch ≤ s'.contextEpoch
  length : s.streams.length ≤ s'.streams.length

variable {s s' t : ChatState}

theorem Later.of_same (hs : s'.streams = s.streams) (he : s'.contextEpoch = s.contextEpoch) : Later s s' :=
  ⟨he.ge, fun _ st' h ↦ .inl ⟨st', hs ▸ h, rfl⟩, hs ▸ le_rfl⟩

theorem Later.trans (h : Later s s') (h' : Later s' t) : Later s t where
  epoch := h.epoch.trans h'.epoch
  streams := by
    intro i st' hst'
    rcases h'.streams i st' hst' with ⟨st, hst, he⟩ | ⟨hi, he⟩
    · rcases h.streams i st hst with ⟨st₀, hst₀, he₀⟩ | ⟨hi, he₀⟩
      · exact .inl ⟨st₀, hst₀, he.trans he₀⟩
      · exact .inr ⟨hi, he ▸ he₀.trans h'.epoch⟩
    · exact .inr ⟨h.length.trans hi, he⟩
  length := h.length.trans h'.length

/-- A state that differs from an aborted one in no stream, in a context no earlier. -/
theorem later_of_abort {k : ℕ} (hs : s'.streams = s.abortStream.streams) (he : s'.contextEpoch = s.contextEpoch + k) :
    Later s s' where
  epoch := by omega
  streams := by
    intro i st' hst'
    rw [hs] at hst'
    obtain ⟨st, hst, hepoch, _⟩ := abort_lookup hst'
    exact .inl ⟨st, hst, hepoch⟩
  length := by rw [hs, abort_length]

theorem stream_later (hs : s'.streams = s.streams) (he : s'.contextEpoch = s.contextEpoch)
    (resumeConfirmed : Option Bool) : Later s (s'.stream resumeConfirmed) := by
  refine (Later.of_same hs he).trans ⟨le_rfl, fun i st' hst' ↦ ?_, by rw [stream_length]; omega⟩
  rcases stream_lookup hst' with ⟨st, hst, hepoch, _⟩ | ⟨hi, hepoch, _⟩
  · exact .inl ⟨st, hst, hepoch⟩
  · exact .inr ⟨hi.ge, hepoch.le⟩

theorem call_later (s : ChatState) (c : Call) : Later s (s.call c) := by
  cases c with
  | send content =>
    simp only [ChatState.call, ChatState.send]
    split_ifs
    · exact .of_same rfl rfl
    · apply stream_later <;> rfl
  | confirmProposal => apply stream_later <;> rfl
  | cancelProposal => apply stream_later <;> rfl
  | setTripContext tripId planType onUpdated =>
    simp only [ChatState.call, ChatState.setTripContext]
    split_ifs
    · exact .of_same rfl rfl
    · exact later_of_abort rfl rfl
  | clearTripContext =>
    simp only [ChatState.call, ChatState.clearTripContext]
    split_ifs
    · exact .of_same rfl rfl
    · exact later_of_abort rfl rfl
  | clear => exact later_of_abort rfl rfl
  | selectPlaces placeIds => exact .of_same rfl rfl

theorem step_later (s : ChatState) (e : Event) : Later s (step s e) := by
  cases e with
  | call c => exact call_later s c
  | arrival i a =>
    simp only [step]
    cases hst : s.streams[i]? with
    | none => exact .of_same rfl rfl
    | some st =>
      obtain ⟨f, harrived⟩ := arrive_spec s i st a
      refine ⟨harrived.epoch.ge, fun j st' h ↦ ?_, by rw [harrived.streams, List.length_modify]⟩
      obtain ⟨st₀, hst₀, hkept, _⟩ := arrive_lookup h
      exact .inl ⟨st₀, hst₀, hkept⟩

theorem run_later (s : ChatState) (events : List Event) : Later s (run step s events) := by
  induction events generalizing s with
  | nil => exact .of_same rfl rfl
  | cons e events ih => exact (step_later s e).trans (ih _)

theorem Later.dated (h : Later s s') (hs : Dated s) : Dated s' := by
  intro i st' hst'
  rcases h.streams i st' hst' with ⟨st, hst, hepoch⟩ | ⟨_, hepoch⟩
  · rw [hepoch]
    exact (hs i st hst).trans h.epoch
  · exact hepoch

theorem run_dated (events : List Event) : Dated (run step {} events) :=
  (run_later {} events).dated fun i st h ↦ by simp at h

/-- A stream of an earlier context moves nothing a user can see. -/
theorem arrival_stale {i : ℕ} {st : Stream} (hst : s.streams[i]? = some st) (hepoch : st.epoch ≠ s.contextEpoch)
    (a : Arrival) : view (step s (.arrival i a)) = view s := by
  simp only [step, hst]
  cases a with
  | event e => cases hphase : st.phase <;> simp [ChatState.arrive, hphase, hepoch, view, ChatState.modifyStream]
  | failed detail =>
    simp only [ChatState.arrive]
    split_ifs <;> simp [ChatState.caught, ChatState.finish, ChatState.modifyStream, view, hepoch]
  | ended =>
    simp only [ChatState.arrive]
    split_ifs <;> simp [ChatState.finish, ChatState.modifyStream, view, hepoch]

theorem switch_epoch {c : Call} (h : Switches s c) : s.contextEpoch < (s.call c).contextEpoch := by
  cases c with
  | setTripContext tripId planType onUpdated =>
    have hne : s.tripId ≠ some tripId := h
    simp [ChatState.call, ChatState.setTripContext, hne, ChatState.resetForContextSwitch]
  | clearTripContext =>
    have hne : s.tripId ≠ none := h
    simp [ChatState.call, ChatState.clearTripContext, hne, ChatState.resetForContextSwitch]
  | clear => exact Nat.lt_succ_self s.contextEpoch
  | send content => exact h.elim
  | confirmProposal => exact h.elim
  | cancelProposal => exact h.elim
  | selectPlaces placeIds => exact h.elim

/-- Once the context has been switched, whatever follows, nothing that reaches a
stream started before the switch is seen. -/
theorem context_isolated (before after : List Event) (switch : Call) (i : ℕ) (a : Arrival)
    (hswitch : Switches (run step {} before) switch) (hi : i < (run step {} before).streams.length) :
    view (step (run step {} (before ++ .call switch :: after)) (.arrival i a)) =
      view (run step {} (before ++ .call switch :: after)) := by
  have hsplit : run step {} (before ++ .call switch :: after) =
      run step ((run step {} before).call switch) after := by
    simp only [run, List.foldl_append, List.foldl_cons, step]
  have hlater := (call_later (run step {} before) switch).trans (run_later _ after)
  rw [hsplit]
  cases hst : (run step ((run step {} before).call switch) after).streams[i]? with
  | none => simp only [step, hst]
  | some st =>
    refine arrival_stale hst ?_ a
    rcases hlater.streams i st hst with ⟨st₀, hst₀, hepoch⟩ | ⟨hge, _⟩
    · have hold := run_dated before i st₀ hst₀
      have hnew := (switch_epoch hswitch).trans_le (run_later _ after).epoch
      omega
    · omega

theorem context_isolated_clear :
    view (step (run step {} ([.call (.send "hello")] ++ .call .clear :: [])) (.arrival 0 (.event (.content "late")))) =
      view (run step {} ([.call (.send "hello")] ++ .call .clear :: [])) :=
  context_isolated [.call (.send "hello")] [] .clear 0 (.event (.content "late")) trivial (by decide)

end TravelPlanner.ContextIsolation
