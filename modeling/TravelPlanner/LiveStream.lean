import TravelPlanner.ContextIsolation

namespace TravelPlanner.LiveStream

open Runs ChatClient ContextIsolation

structure Shown where
  messages : List ChatMessage
  pendingProposal : Option ToolProposal
  error : Option String
  streaming : Bool

def shown (s : ChatState) : Shown := ⟨s.messages, s.pendingProposal, s.error, s.streaming⟩

/-- While the stream started last in this context runs, `streaming` says so and
nothing is sent, and no other stream changes what is shown. -/
structure OneLive (s : ChatState) : Prop where
  streaming : ∀ st : Stream, s.streams.getLast? = some st → st.epoch = s.contextEpoch → st.phase ≠ .finished →
    s.streaming = true ∧ ∀ content, step s (.call (.send content)) = s
  latest : ∀ (i : ℕ) (a : Arrival), i + 1 ≠ s.streams.length → shown (step s (.arrival i a)) = shown s

def answersIdle (s : ChatState) : Event → Bool
  | .call .confirmProposal | .call .cancelProposal => !s.streaming
  | _ => true

structure Inv (s : ChatState) : Prop where
  dated : Dated s
  live : ∀ (i : ℕ) (st : Stream), s.streams[i]? = some st → st.epoch = s.contextEpoch → st.phase ≠ .finished →
    s.streaming = true ∧ i + 1 = s.streams.length
  running : s.streaming = true →
    ∃ (i : ℕ) (st : Stream), s.streams[i]? = some st ∧ st.epoch = s.contextEpoch ∧ st.phase = .running

variable {s s' : ChatState}

theorem inv_start : Inv {} :=
  ⟨fun i st h ↦ by simp at h, fun i st h ↦ by simp at h, fun h ↦ by cases h⟩

theorem Inv.of_same (h : Inv s) (hs : s'.streams = s.streams) (he : s'.contextEpoch = s.contextEpoch)
    (hb : s'.streaming = s.streaming) : Inv s' := by
  refine ⟨fun i st hst ↦ ?_, fun i st hst hepoch hphase ↦ ?_, fun hlive ↦ ?_⟩
  · rw [he]; exact h.dated i st (hs ▸ hst)
  · rw [hb, hs]; exact h.live i st (hs ▸ hst) (hepoch.trans he) hphase
  · rw [hs, he]; exact h.running (hb ▸ hlive)

theorem stream_inv (h : Inv s) (hidle : s.streaming = false) (resumeConfirmed : Option Bool) :
    Inv (s.stream resumeConfirmed) where
  dated := (stream_later rfl rfl resumeConfirmed).dated h.dated
  live := by
    intro i st' hst' hepoch hphase
    rcases stream_lookup hst' with ⟨st, hst, he, hp⟩ | ⟨rfl, _, _⟩
    · have hbusy := (h.live i st hst (he ▸ hepoch) (hp ▸ hphase)).1
      rw [hidle] at hbusy
      cases hbusy
    · exact ⟨rfl, (stream_length s resumeConfirmed).symm⟩
  running := fun _ ↦ ⟨s.abortStream.streams.length, _, List.getElem?_concat_length, rfl, rfl⟩

theorem inv_switched (h : Dated s) (hepoch : s.contextEpoch < s'.contextEpoch)
    (hs : s'.streams = s.abortStream.streams) (hb : s'.streaming = false) : Inv s' := by
  have hold : ∀ (i : ℕ) (st : Stream), s'.streams[i]? = some st → st.epoch < s'.contextEpoch := by
    intro i st hst
    rw [hs] at hst
    obtain ⟨st₀, hst₀, he, _⟩ := abort_lookup hst
    rw [he]
    exact (h i st₀ hst₀).trans_lt hepoch
  refine ⟨fun i st hst ↦ (hold i st hst).le, fun i st hst he ↦ ?_, fun hlive ↦ ?_⟩
  · exact absurd he (hold i st hst).ne
  · rw [hb] at hlive
    cases hlive

theorem call_inv (h : Inv s) {c : Call} (hok : answersIdle s (.call c) = true) : Inv (s.call c) := by
  cases c with
  | send content =>
    simp only [ChatState.call, ChatState.send]
    cases hb : s.streaming with
    | true => exact h
    | false =>
      have hpushed : Inv { s with messages := s.messages ++ [⟨"user", content⟩] } := h.of_same rfl rfl rfl
      exact stream_inv hpushed hb none
  | confirmProposal =>
    have hcleared : Inv { s with pendingProposal := none } := h.of_same rfl rfl rfl
    exact stream_inv hcleared (by simpa [answersIdle] using hok) (some true)
  | cancelProposal =>
    have hcleared : Inv { s with pendingProposal := none } := h.of_same rfl rfl rfl
    exact stream_inv hcleared (by simpa [answersIdle] using hok) (some false)
  | setTripContext tripId planType onUpdated =>
    simp only [ChatState.call, ChatState.setTripContext]
    split_ifs
    · exact h.of_same rfl rfl rfl
    · exact inv_switched h.dated (Nat.lt_succ_self s.contextEpoch) rfl rfl
  | clearTripContext =>
    simp only [ChatState.call, ChatState.clearTripContext]
    split_ifs
    · exact h
    · exact inv_switched h.dated (Nat.lt_succ_self s.contextEpoch) rfl rfl
  | clear => exact inv_switched h.dated (Nat.lt_succ_self s.contextEpoch) rfl rfl
  | selectPlaces placeIds => exact h.of_same rfl rfl rfl

theorem arrival_inv (h : Inv s) (i : ℕ) (a : Arrival) : Inv (step s (.arrival i a)) := by
  have hdated : Dated (step s (.arrival i a)) := (step_later s (.arrival i a)).dated h.dated
  simp only [step] at hdated ⊢
  cases hst : s.streams[i]? with
  | none => exact h
  | some st =>
    simp only [hst] at hdated
    obtain ⟨f, hepoch, hstreams, hkeeps, hcase⟩ := arrive_spec s i st a
    have hlookup : ∀ (j : ℕ) (st' : Stream), (s.arrive i st a).streams[j]? = some st' →
        ∃ st₀, s.streams[j]? = some st₀ ∧ st' = if i = j then f st₀ else st₀ := by
      intro j st' hst'
      rw [hstreams] at hst'
      exact modify_lookup hst'
    refine ⟨hdated, fun j st' hst' he hphase ↦ ?_, fun hlive ↦ ?_⟩
    · rw [hepoch] at he
      rw [hstreams, List.length_modify]
      obtain ⟨st₀, hst₀, rfl⟩ := hlookup j st' hst'
      by_cases hij : i = j
      · -- the stream that moved has not ended, so it stays and so does `streaming`
        subst hij
        obtain rfl : st = st₀ := Option.some.inj (hst.symm.trans hst₀)
        rw [if_pos rfl] at he hphase
        rw [hkeeps] at he
        rcases hcase with ⟨hsame, hstays⟩ | ⟨_, _, _, hends⟩
        · rw [hstays he] at hphase
          rw [hsame]
          exact h.live i st hst he hphase
        · exact absurd (hends st) hphase
      · rw [if_neg hij] at he hphase
        have hlast := h.live j st₀ hst₀ he hphase
        rcases hcase with ⟨hsame, _⟩ | ⟨hcur, hgoing, _, _⟩
        · rw [hsame]
          exact hlast
        · have := (h.live i st hst hcur hgoing).2
          omega
    · rcases hcase with ⟨hsame, hstays⟩ | ⟨_, _, hstopped, _⟩
      · rw [hsame] at hlive
        obtain ⟨j, st₀, hst₀, he, hphase⟩ := h.running hlive
        refine ⟨j, if i = j then f st₀ else st₀, ?_, ?_⟩
        · rw [hstreams, List.getElem?_modify, hst₀]
          split_ifs <;> rfl
        · by_cases hij : i = j
          · subst hij
            obtain rfl : st = st₀ := Option.some.inj (hst.symm.trans hst₀)
            rw [if_pos rfl, hkeeps, hepoch, hstays he]
            exact ⟨he, hphase⟩
          · rw [if_neg hij, hepoch]
            exact ⟨he, hphase⟩
      · rw [hstopped] at hlive
        cases hlive

theorem step_inv (h : Inv s) {e : Event} (hok : answersIdle s e = true) : Inv (step s e) := by
  cases e with
  | call c => exact call_inv h hok
  | arrival i a => exact arrival_inv h i a

theorem arrive_finished {i : ℕ} {st : Stream} (hphase : st.phase = .finished) (a : Arrival) : s.arrive i st a = s := by
  cases a with
  | event e => simp only [ChatState.arrive, hphase]
  | failed detail => exact if_pos hphase
  | ended => exact if_pos hphase

theorem shown_of_view (h : view s' = view s) : shown s' = shown s := by
  simp only [view, View.mk.injEq] at h
  obtain ⟨hmessages, -, hproposal, herror, hstreaming, -⟩ := h
  rw [shown, shown, hmessages, hproposal, herror, hstreaming]

theorem Inv.oneLive (h : Inv s) : OneLive s where
  streaming := by
    intro st hst hepoch hphase
    rw [List.getLast?_eq_getElem?] at hst
    have hbusy := (h.live _ st hst hepoch hphase).1
    exact ⟨hbusy, fun content ↦ if_pos hbusy⟩
  latest := by
    intro i a hi
    cases hst : s.streams[i]? with
    | none => simp only [step, hst]
    | some st =>
      by_cases hepoch : st.epoch = s.contextEpoch
      · have hphase : st.phase = .finished := by
          by_contra hgoing
          exact hi (h.live i st hst hepoch hgoing).2
        simp only [step, hst, arrive_finished hphase]
      · exact shown_of_view (arrival_stale hst hepoch a)

/-- A second stream leaves the first one its epoch, so the end of the first is
taken for the end of both. -/
theorem stream_breaks {i : ℕ} {st : Stream} (hst : s.streams[i]? = some st) (hepoch : st.epoch = s.contextEpoch)
    (hphase : st.phase = .running) (resumeConfirmed : Option Bool) : ¬OneLive (s.stream resumeConfirmed) := by
  intro hlive
  have hi : i < s.streams.length := (List.getElem?_eq_some_iff.mp hst).1
  have hlen := stream_length s resumeConfirmed
  obtain ⟨st', hst'⟩ : ∃ st', (s.stream resumeConfirmed).streams[i]? = some st' :=
    ⟨_, List.getElem?_eq_getElem (by omega)⟩
  have hkept : st'.epoch = (s.stream resumeConfirmed).contextEpoch ∧ st'.phase ≠ .finished := by
    rcases stream_lookup hst' with ⟨st₀, hst₀, he, hp⟩ | ⟨hlast, _, _⟩
    · obtain rfl : st = st₀ := Option.some.inj (hst.symm.trans hst₀)
      refine ⟨he.trans hepoch, ?_⟩
      rw [hp, hphase]
      decide
    · omega
  have hsame := hlive.latest i .ended (by omega)
  have hstopped : (step (s.stream resumeConfirmed) (.arrival i .ended)).streaming = false := by
    simp only [step, hst', ChatState.arrive, if_neg hkept.2, ChatState.finish, if_pos hkept.1]
  have hon : (step (s.stream resumeConfirmed) (.arrival i .ended)).streaming = true :=
    congrArg Shown.streaming hsame
  rw [hstopped] at hon
  cases hon

theorem answer_breaks (h : Inv s) {e : Event} (hbusy : answersIdle s e = false) : ¬OneLive (step s e) := by
  have hrunning : s.streaming = true → ∀ resumeConfirmed,
      ¬OneLive ({ s with pendingProposal := none }.stream resumeConfirmed) := by
    intro hstreaming resumeConfirmed
    obtain ⟨i, st, hst, hepoch, hphase⟩ := h.running hstreaming
    exact stream_breaks (s := { s with pendingProposal := none }) hst hepoch hphase resumeConfirmed
  cases e with
  | arrival i a => cases hbusy
  | call c =>
    cases c with
    | confirmProposal => exact hrunning (by simpa [answersIdle] using hbusy) (some true)
    | cancelProposal => exact hrunning (by simpa [answersIdle] using hbusy) (some false)
    | send content => cases hbusy
    | setTripContext tripId planType onUpdated => cases hbusy
    | clearTripContext => cases hbusy
    | clear => cases hbusy
    | selectPlaces placeIds => cases hbusy

/-- There is one live stream in every context throughout a run exactly if every
proposal is answered while no stream is under way. -/
theorem one_live_iff_answersIdle (events : List Event) :
    (∀ t ∈ trace step {} events, OneLive t.after) ↔
      ∀ t ∈ trace step {} events, answersIdle t.before t.event = true := by
  have hstep : ∀ s e, Inv s →
      answersIdle s e = true ∧ Inv (step s e) ∨ ¬answersIdle s e = true ∧ ¬OneLive (step s e) := by
    intro s e h
    cases hok : answersIdle s e with
    | true => exact .inl ⟨rfl, step_inv h hok⟩
    | false => exact .inr ⟨by simp, answer_breaks h hok⟩
  exact trace_iff inv_start (fun s h ↦ h.oneLive) hstep events

def answeredEarly : List Event :=
  [.call (.send "add a museum"), .arrival 0 (.event (.toolProposal ⟨"add_place", "museum"⟩)), .call .confirmProposal]

theorem answeredEarly_two_live : ¬∀ t ∈ trace step {} answeredEarly, OneLive t.after := by
  intro h
  have hlast := h ⟨run step {} (answeredEarly.take 2), .call .confirmProposal, run step {} answeredEarly⟩ (by
    simp [answeredEarly, trace, run])
  have hsame := congrArg Shown.streaming (hlast.latest 0 (.failed none) (by decide))
  exact absurd hsame (by decide)

end TravelPlanner.LiveStream
