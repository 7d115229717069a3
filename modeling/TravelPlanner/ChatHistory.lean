import TravelPlanner.ChatThreads

namespace TravelPlanner.ChatHistory

open ChatThreads

def Owner (messages : List Message) (callId : CallId) (turn : TurnId) : Prop :=
  ∀ turn' calls, .ai turn' calls ∈ messages → callId ∈ calls.map ToolCall.id → turn' = turn

/-- Call numbers are fresh and have one owner, the last reply is unanswered, and the
pause stands before a reply with calls. -/
structure History (messages : List Message) (next : Next) (nextCall : CallId) : Prop where
  answered : ∀ id ∈ answeredIds messages, id < nextCall
  numbered : ∀ turn calls, .ai turn calls ∈ messages → ∀ id ∈ calls.map ToolCall.id, id < nextCall
  owned : ∀ turn calls, .ai turn calls ∈ messages → ∀ id ∈ calls.map ToolCall.id, Owner messages id turn
  lastOpen : ∀ turn calls, messages.getLast? = some (.ai turn calls) →
    ∀ id ∈ calls.map ToolCall.id, id ∉ answeredIds messages
  paused : next = .toolsWrite → ∃ turn calls, messages.getLast? = some (.ai turn calls) ∧ calls ≠ []

variable {messages : List Message} {next : Next} {nextCall : CallId} {s : Thread}

theorem History.empty : History [] .finished 0 := ⟨by simp [answeredIds], by simp, by simp, by simp, by simp⟩

@[simp] theorem answeredIds_append (messages messages' : List Message) :
    answeredIds (messages ++ messages') = answeredIds messages ++ answeredIds messages' :=
  List.filterMap_append

@[simp] theorem answeredIds_results (calls : List ToolCall) :
    answeredIds (calls.map (.toolResult ·.id)) = calls.map ToolCall.id := by
  induction calls with
  | nil => rfl
  | cons call calls ih => simp [answeredIds] at ih ⊢

@[simp] theorem answeredIds_strip (answered : List CallId) (messages : List Message) :
    answeredIds (messages.map (·.strip answered)) = answeredIds messages := by
  induction messages with
  | nil => rfl
  | cons m messages ih =>
    have hhead : (m.strip answered = m) ∨ ∃ turn calls, m = .ai turn calls ∧ m.strip answered = .ai turn [] := by
      cases m with
      | text => exact .inl rfl
      | toolResult => exact .inl rfl
      | ai turn calls =>
        simp only [Message.strip]
        split_ifs
        · exact .inr ⟨turn, calls, rfl, rfl⟩
        · exact .inl rfl
    rcases hhead with he | ⟨turn, calls, rfl, he⟩
    · simp only [List.map_cons, he, answeredIds, List.filterMap_cons] at ih ⊢
      rw [ih]
    · simpa only [List.map_cons, he, answeredIds, List.filterMap_cons] using ih

theorem strip_eq_ai {answered : List CallId} {m : Message} {turn : TurnId} {calls : List ToolCall}
    (h : m.strip answered = .ai turn calls) : calls = [] ∨ m = .ai turn calls ∧ m.dangling answered = false := by
  cases m with
  | text => cases h
  | toolResult => cases h
  | ai turn' calls' =>
    simp only [Message.strip] at h
    split_ifs at h with hany
    · exact .inl (Message.ai.inj h).2.symm
    · exact .inr ⟨h, by simpa [Message.dangling] using hany⟩

theorem afterChatbot_toolsWrite (h : afterChatbot messages = .toolsWrite) :
    ∃ turn calls, messages.getLast? = some (.ai turn calls) ∧ calls ≠ [] := by
  unfold afterChatbot at h
  split at h
  · next turn calls hlast =>
    refine ⟨turn, calls, hlast, ?_⟩
    rintro rfl
    simp at h
  · cases h

theorem cancel_next (h : History s.messages s.next s.nextCall) : s.acancelPendingTools.next ≠ .toolsWrite := by
  unfold Thread.acancelPendingTools
  split_ifs with hany
  · intro he
    obtain ⟨turn, calls, hlast, hne⟩ := afterChatbot_toolsWrite he
    rw [List.getLast?_map, Option.map_eq_some_iff] at hlast
    obtain ⟨m, hm, hstrip⟩ := hlast
    rcases strip_eq_ai hstrip with rfl | ⟨rfl, hquiet⟩
    · exact hne rfl
    · obtain ⟨call, hcall⟩ := List.exists_mem_of_ne_nil calls hne
      have hopen := h.lastOpen turn calls hm call.id (List.mem_map_of_mem hcall)
      simp only [Message.dangling, List.any_eq_false] at hquiet
      exact hquiet call hcall (decide_eq_true hopen)
  · intro he
    obtain ⟨turn, calls, hlast, hne⟩ := h.paused he
    obtain ⟨call, hcall⟩ := List.exists_mem_of_ne_nil calls hne
    have hopen := h.lastOpen turn calls hlast call.id (List.mem_map_of_mem hcall)
    refine hany (List.any_eq_true.mpr ⟨.ai turn calls, List.mem_of_getLast? hlast, ?_⟩)
    exact List.any_eq_true.mpr ⟨call, hcall, decide_eq_true hopen⟩

theorem mem_strip {answered : List CallId} {turn : TurnId} {calls : List ToolCall} {id : CallId}
    (h : .ai turn calls ∈ messages.map (·.strip answered)) (hid : id ∈ calls.map ToolCall.id) :
    .ai turn calls ∈ messages := by
  obtain ⟨m, hm, hstrip⟩ := List.mem_map.mp h
  rcases strip_eq_ai hstrip with rfl | ⟨rfl, _⟩
  · simp at hid
  · exact hm

theorem history_strip (h : History messages next nextCall) {next' : Next} (hnext : next' ≠ .toolsWrite) :
    History (messages.map (·.strip (answeredIds messages))) next' nextCall where
  answered := by rw [answeredIds_strip]; exact h.answered
  numbered := fun turn calls hm id hid ↦ h.numbered turn calls (mem_strip hm hid) id hid
  owned := fun turn calls hm id hid turn' calls' hm' hid' ↦
    h.owned turn calls (mem_strip hm hid) id hid turn' calls' (mem_strip hm' hid') hid'
  lastOpen := by
    intro turn calls hlast id hid
    rw [List.getLast?_map, Option.map_eq_some_iff] at hlast
    obtain ⟨m, hm, hstrip⟩ := hlast
    rw [answeredIds_strip]
    rcases strip_eq_ai hstrip with rfl | ⟨rfl, _⟩
    · simp at hid
    · exact h.lastOpen turn calls hm id hid
  paused := fun he ↦ absurd he hnext

theorem history_cancel (h : History s.messages s.next s.nextCall) :
    History s.acancelPendingTools.messages s.acancelPendingTools.next s.acancelPendingTools.nextCall := by
  have hnext := cancel_next h
  unfold Thread.acancelPendingTools at hnext ⊢
  split_ifs at hnext ⊢
  · exact history_strip h hnext
  · exact h

def Plain (m : Message) : Prop := m = .text ∨ ∃ turn, m = .ai turn []

theorem history_plain (h : History messages next nextCall) {extra : List Message} (hextra : ∀ m ∈ extra, Plain m)
    {next' : Next} (hnext : next' ≠ .toolsWrite) : History (messages ++ extra) next' nextCall := by
  have hresults : answeredIds extra = [] := by
    rw [answeredIds, List.filterMap_eq_nil_iff]
    intro m hm
    rcases hextra m hm with rfl | ⟨_, rfl⟩ <;> rfl
  have hold : ∀ turn calls id, .ai turn calls ∈ messages ++ extra → id ∈ calls.map ToolCall.id →
      .ai turn calls ∈ messages := by
    intro turn calls id hm hid
    rcases List.mem_append.mp hm with hm | hm
    · exact hm
    · rcases hextra _ hm with he | ⟨_, he⟩
      · cases he
      · obtain ⟨_, rfl⟩ := Message.ai.inj he
        simp at hid
  refine ⟨?_, fun turn calls hm id hid ↦ h.numbered turn calls (hold _ _ _ hm hid) id hid,
    fun turn calls hm id hid turn' calls' hm' hid' ↦
      h.owned turn calls (hold _ _ _ hm hid) id hid turn' calls' (hold _ _ _ hm' hid') hid', ?_,
    fun he ↦ absurd he hnext⟩
  · rw [answeredIds_append, hresults, List.append_nil]
    exact h.answered
  · intro turn calls hlast id hid
    have hm := hold _ _ _ (List.mem_of_getLast? hlast) hid
    rw [answeredIds_append, hresults, List.append_nil]
    rw [List.getLast?_append] at hlast
    cases he : extra.getLast? with
    | none => exact h.lastOpen turn calls (by simpa [he] using hlast) id hid
    | some m =>
      obtain rfl : m = .ai turn calls := by simpa [he] using hlast
      rcases hextra _ (List.mem_of_getLast? he) with he | ⟨_, he⟩
      · cases he
      · obtain ⟨_, rfl⟩ := Message.ai.inj he
        simp at hid

theorem history_results (h : History messages next nextCall) {turn : TurnId} {calls : List ToolCall}
    (hm : .ai turn calls ∈ messages) {next' : Next} (hnext : next' ≠ .toolsWrite) :
    History (messages ++ calls.map (.toolResult ·.id)) next' nextCall := by
  have hold : ∀ turn' calls', .ai turn' calls' ∈ messages ++ calls.map (.toolResult ·.id) →
      .ai turn' calls' ∈ messages := by
    intro turn' calls' hm'
    rcases List.mem_append.mp hm' with hm' | hm'
    · exact hm'
    · obtain ⟨_, _, he⟩ := List.mem_map.mp hm'
      cases he
  refine ⟨?_, fun turn' calls' hm' ↦ h.numbered turn' calls' (hold _ _ hm'),
    fun turn' calls' hm' id hid _ _ hm'' ↦ h.owned turn' calls' (hold _ _ hm') id hid _ _ (hold _ _ hm''), ?_,
    fun he ↦ absurd he hnext⟩
  · intro id hid
    rw [answeredIds_append, answeredIds_results, List.mem_append] at hid
    exact hid.elim (h.answered id) (h.numbered turn calls hm id)
  · intro turn' calls' hlast
    cases calls with
    | nil => simpa using h.lastOpen turn' calls' (by simpa using hlast)
    | cons call calls =>
      rw [List.getLast?_append, List.getLast?_map] at hlast
      cases he : (call :: calls).getLast? with
      | none => simp at he
      | some c =>
        rw [he] at hlast
        cases hlast

theorem numbered_ids (s : Thread) (tools : List Tool) :
    ∀ id ∈ (s.numbered tools).map ToolCall.id, s.nextCall ≤ id ∧ id < s.nextCall + tools.length := by
  intro id hid
  simp only [Thread.numbered, List.mem_map, List.mem_mapIdx] at hid
  obtain ⟨_, ⟨k, hk, rfl⟩, rfl⟩ := hid
  exact ⟨Nat.le_add_right _ _, Nat.add_lt_add_left hk _⟩

theorem history_ask (h : History s.messages s.next s.nextCall) (turn : TurnId) (tools : List Tool) :
    History (s.messages ++ [.ai turn (s.numbered tools)])
      (afterChatbot (s.messages ++ [.ai turn (s.numbered tools)])) (s.nextCall + tools.length) := by
  have hnew := numbered_ids s tools
  have hcases : ∀ turn' calls, .ai turn' calls ∈ s.messages ++ [.ai turn (s.numbered tools)] →
      .ai turn' calls ∈ s.messages ∨ turn' = turn ∧ calls = s.numbered tools := by
    intro turn' calls hm
    simpa using hm
  have hanswered : answeredIds (s.messages ++ [.ai turn (s.numbered tools)]) = answeredIds s.messages := by
    simp [answeredIds]
  refine ⟨?_, ?_, ?_, ?_, afterChatbot_toolsWrite⟩
  · intro id hid
    rw [hanswered] at hid
    exact (h.answered id hid).trans_le (Nat.le_add_right _ _)
  · intro turn' calls hm id hid
    rcases hcases _ _ hm with hm | ⟨_, rfl⟩
    · exact (h.numbered _ _ hm id hid).trans_le (Nat.le_add_right _ _)
    · exact (hnew id hid).2
  · intro turn₁ calls₁ hm₁ id hid₁ turn₂ calls₂ hm₂ hid₂
    rcases hcases _ _ hm₁ with hm₁ | ⟨rfl, rfl⟩
    · rcases hcases _ _ hm₂ with hm₂ | ⟨_, rfl⟩
      · exact h.owned _ _ hm₁ id hid₁ _ _ hm₂ hid₂
      · exact absurd (h.numbered _ _ hm₁ id hid₁) (hnew id hid₂).1.not_gt
    · rcases hcases _ _ hm₂ with hm₂ | ⟨he, _⟩
      · exact absurd (h.numbered _ _ hm₂ id hid₂) (hnew id hid₁).1.not_gt
      · exact he
  · intro turn' calls hlast id hid
    obtain ⟨_, rfl⟩ : turn = turn' ∧ s.numbered tools = calls := by simpa using hlast
    rw [hanswered]
    exact fun hold ↦ absurd (h.answered id hold) (hnew id hid).1.not_gt

theorem history_reply (h : History s.messages s.next s.nextCall) (turn : TurnId) (tools : List Tool) :
    History (s.reply turn tools).messages (s.reply turn tools).next (s.reply turn tools).nextCall := by
  have hask := history_ask h turn tools
  by_cases hnext : afterChatbot (s.messages ++ [.ai turn (s.numbered tools)]) = .chatbot
  · simp only [Thread.reply, hnext, if_pos] at hask ⊢
    have hm : Message.ai turn (s.numbered tools) ∈ s.messages ++ [.ai turn (s.numbered tools)] := by simp
    exact history_results hask hm (by simp)
  · simpa only [Thread.reply, if_neg hnext] using hask

theorem history_enter (h : History s.messages s.next s.nextCall) (i : TurnId) (r : TurnRequest) :
    History (s.enter i r).messages (s.enter i r).next (s.enter i r).nextCall := by
  simp only [Thread.enter, List.append_assoc]
  refine history_plain h ?_ (by split <;> simp)
  intro m hm
  rcases List.mem_append.mp hm with hm | hm
  · split_ifs at hm
    · exact .inl (by simpa using hm)
    · simp at hm
  · obtain ⟨role, _, rfl⟩ := List.mem_map.mp hm
    cases role with
    | user => exact .inl rfl
    | assistant => exact .inr ⟨i, rfl⟩
    | system => exact .inl rfl

theorem history_resume (h : History s.messages s.next s.nextCall) (i : ℕ) (choice : Choice) :
    History (s.resumeGraph i choice).messages (s.resumeGraph i choice).next (s.resumeGraph i choice).nextCall := by
  unfold Thread.resumeGraph
  split
  · exact h
  · exact h
  · next turn calls _ hlast =>
    split
    · unfold Thread.runToolsWrite
      split
      · exact history_results h (List.mem_of_getLast? hlast) Next.noConfusion
      · exact h
    · exact h
  · exact h

theorem step_history (e : Event) (h : History s.messages s.next s.nextCall) :
    History (step s e).messages (step s e).next (step s e).nextCall := by
  unfold step
  split_ifs
  · exact h
  · cases hstage : s.stages e.1 with
    | cancelling r => exact history_cancel h
    | clearing r => exact h
    | binding r =>
      obtain ⟨context, messages⟩ := r
      cases context <;> exact h
    | entering r => exact history_enter h e.1 r
    | confirming => exact history_resume (s := s.confirm) h e.1 e.2
    | dropping => exact h
    | rejecting => exact history_resume (history_cancel h) e.1 e.2
    | streaming turn => exact history_reply h turn e.2.reply
    | inspecting => exact h
    | arming turn callId =>
      simp only [Thread.advance, Thread.arm]
      split <;> exact h
    | failing => exact history_cancel h
    | failingScope => exact h
    | closed => exact h

theorem runTool_cases (turn : TurnId) (s : Shared) (run : ToolCall × ToolOutcome) :
    runTool turn s run = s ∨ ∃ log, runTool turn s run = ⟨clearPending s.doc, log⟩ ∧
      (pendingScope s.doc = none ∧ log = s.log ∨ ∃ p, pendingScope s.doc = some p ∧
        (log = .consumed run.1.id turn p.toBinding :: s.log ∨
          ∃ target, run.2 = .runs true ∧ writeTarget run.1 p = some target ∧
            log = .mutated run.1.id p.armedAt target :: .consumed run.1.id turn p.toBinding :: s.log)) := by
  obtain ⟨call, outcome⟩ := run
  cases outcome with
  | invalidArgs => exact .inl rfl
  | runs persists =>
    by_cases hwrite : call.tool.isWrite = true
    · right
      cases hp : pendingScope s.doc with
      | none => exact ⟨s.log, by simp [runTool, hwrite, consumePending, hp], .inl ⟨rfl, rfl⟩⟩
      | some p =>
        simp only [runTool, hwrite, consumePending, hp, if_true]
        cases htarget : writeTarget call p with
        | none => exact ⟨_, rfl, .inr ⟨p, rfl, .inl rfl⟩⟩
        | some target =>
          cases persists with
          | false => exact ⟨_, rfl, .inr ⟨p, rfl, .inl rfl⟩⟩
          | true => exact ⟨_, rfl, .inr ⟨p, rfl, .inr ⟨target, rfl, htarget, rfl⟩⟩⟩
    · exact .inl (by simp [runTool, hwrite])

/-- What every tool keeps, as long as it meets a condition on the pending scope, the
tool node keeps. -/
theorem runTools_keeps {turn : TurnId} (Inv : Shared → Prop) (Ok : PendingScope → ToolCall × ToolOutcome → Prop)
    (htool : ∀ s run, Inv s → (∀ p, pendingScope s.doc = some p → Ok p run) → Inv (runTool turn s run))
    {s : Shared} (h : Inv s) {runs : List (ToolCall × ToolOutcome)}
    (hok : ∀ p, pendingScope s.doc = some p → ∀ run ∈ runs, Ok p run) : Inv (runTools turn s runs) := by
  induction runs generalizing s with
  | nil => exact h
  | cons run runs ih =>
    refine ih (htool s run h fun p hp ↦ hok p hp run List.mem_cons_self) fun p hp run' hrun' ↦ ?_
    rcases runTool_cases turn s run with he | ⟨log, he, _⟩
    · exact hok p (he ▸ hp) run' (List.mem_cons_of_mem _ hrun')
    · rw [he, pendingScope_clear] at hp
      cases hp

theorem resume_idle (i : ℕ) (choice : Choice) (h : s.next ≠ .toolsWrite) :
    ∃ stage, s.resumeGraph i choice = s.goto i stage := by
  unfold Thread.resumeGraph
  split
  · exact ⟨_, rfl⟩
  · exact ⟨_, rfl⟩
  · next hnext _ => exact absurd hnext h
  · exact ⟨_, rfl⟩

theorem cancel_eq (s : Thread) :
    ∃ messages next, s.acancelPendingTools = { s with messages := messages, next := next } := by
  unfold Thread.acancelPendingTools
  split
  · exact ⟨_, _, rfl⟩
  · exact ⟨_, _, rfl⟩

theorem resume_frame (s : Thread) (i : ℕ) (choice : Choice) : (s.resumeGraph i choice).nextCall = s.nextCall := by
  unfold Thread.resumeGraph
  split
  · rfl
  · rfl
  · split
    · unfold Thread.runToolsWrite
      split <;> rfl
    · rfl
  · rfl

inductive Effect (s : Thread) (e : Event) (s' : Thread) : Prop
  | quiet (hshared : s'.shared = s.shared) (hbindings : s'.bindings = s.bindings) (hclock : s'.clock = s.clock)
  | unpended {doc : Option ThreadDoc} (hpending : pendingScope doc = none)
      (hdoc : ∀ d, doc = some d → ∃ d₀, s.shared.doc = some d₀ ∧ d.binding = d₀.binding ∧ d.boundBy = d₀.boundBy)
      (hshared : s'.shared = ⟨doc, s.shared.log⟩) (hbindings : s'.bindings = s.bindings)
      (hclock : s'.clock = s.clock)
  | bound {r : TurnRequest} {d : ThreadDoc} (hlost : e.2.lost = false) (hstage : s.stages e.1 = .binding r)
      (hpending : d.pending = none) (hby : d.boundBy = e.1) (hshared : s'.shared = ⟨some d, s.shared.log⟩)
      (hbindings : s'.bindings = Function.update s.bindings e.1 (some d.binding)) (hclock : s'.clock = s.clock)
  | armed {turn : TurnId} {callId : CallId} {d : ThreadDoc} (hlost : e.2.lost = false)
      (hstage : s.stages e.1 = .arming turn callId) (hdoc : s.shared.doc = some d)
      (hshared : s'.shared =
        ⟨some { d with pending := some ⟨d.binding, callId, s.clock⟩ }, .proposed callId s.clock :: s.shared.log⟩)
      (hbindings : s'.bindings = s.bindings) (hclock : s'.clock = s.clock + 1)
  | confirmed (hshared : s'.shared = ⟨s.shared.doc, .confirmed :: s.shared.log⟩)
      (hbindings : s'.bindings = s.bindings) (hclock : s'.clock = s.clock)
  | ran {turn : TurnId} {calls : List ToolCall} (hlost : e.2.lost = false) (hstage : s.stages e.1 = .confirming)
      (hnext : s.next = .toolsWrite) (hlast : s.messages.getLast? = some (.ai turn calls))
      (hshared : s'.shared = runTools turn ⟨s.shared.doc, .confirmed :: s.shared.log⟩ e.2.runs)
      (hbindings : s'.bindings = s.bindings) (hclock : s'.clock = s.clock)

theorem clear_effect (e : Event) (s' : Thread) (hshared : s'.shared = ⟨clearPending s.shared.doc, s.shared.log⟩)
    (hbindings : s'.bindings = s.bindings) (hclock : s'.clock = s.clock) : Effect s e s' := by
  refine .unpended (pendingScope_clear _) (fun d hd ↦ ?_) hshared hbindings hclock
  obtain ⟨d₀, hd₀, rfl⟩ := Option.map_eq_some_iff.mp hd
  exact ⟨d₀, hd₀, rfl, rfl⟩

theorem cancel_effect (e : Event) (stage : Stage) : Effect s e (s.acancelPendingTools.goto e.1 stage) := by
  obtain ⟨messages, next, he⟩ := cancel_eq s
  rw [he]
  exact .quiet rfl rfl rfl

theorem confirm_effect (e : Event) (hlost : e.2.lost = false) (hstage : s.stages e.1 = .confirming) :
    Effect s e (s.confirm.resumeGraph e.1 e.2) := by
  unfold Thread.resumeGraph
  split
  · exact .confirmed rfl rfl rfl
  · exact .confirmed rfl rfl rfl
  · next turn calls hnext hlast =>
    split
    · unfold Thread.runToolsWrite
      split <;> exact .ran hlost hstage hnext hlast rfl rfl rfl
    · exact .confirmed rfl rfl rfl
  · exact .confirmed rfl rfl rfl

theorem bind_effect (e : Event) (hlost : e.2.lost = false) {r : TurnRequest} (hstage : s.stages e.1 = .binding r) :
    Effect s e ((s.bind e.1 r.context).goto e.1 (.entering r)) := by
  obtain ⟨context, messages⟩ := r
  cases context with
  | trip => exact .bound hlost hstage rfl rfl rfl rfl rfl
  | places => exact .bound hlost hstage rfl rfl rfl rfl rfl
  | missingTrip => exact .unpended (rfl : pendingScope none = none) (by simp) rfl rfl rfl

theorem arm_effect (e : Event) (hlost : e.2.lost = false) {turn : TurnId} {callId : CallId}
    (hstage : s.stages e.1 = .arming turn callId) : Effect s e (s.arm e.1 callId) := by
  unfold Thread.arm
  split
  · exact .quiet rfl rfl rfl
  · next d hd =>
    obtain ⟨d₀, hd₀, rfl⟩ := Option.map_eq_some_iff.mp hd
    exact .armed hlost hstage hd₀ rfl rfl rfl

theorem step_effect (e : Event) (h : History s.messages s.next s.nextCall) : Effect s e (step s e) := by
  unfold step
  split
  · exact .quiet rfl rfl rfl
  · next hlost =>
    have hlost := Bool.eq_false_of_not_eq_true hlost
    cases hstage : s.stages e.1 with
    | cancelling r => exact cancel_effect e _
    | clearing r => exact clear_effect e _ rfl rfl rfl
    | binding r => exact bind_effect e hlost hstage
    | entering r => exact .quiet rfl rfl rfl
    | confirming => exact confirm_effect e hlost hstage
    | dropping => exact clear_effect e _ rfl rfl rfl
    | rejecting =>
      -- a cancellation takes the pause away
      obtain ⟨stage, hresume⟩ := resume_idle e.1 e.2 (cancel_next h)
      simp only [Thread.advance, hresume]
      exact cancel_effect e stage
    | streaming turn => exact .quiet rfl rfl rfl
    | inspecting => exact .quiet rfl rfl rfl
    | arming turn callId => exact arm_effect e hlost hstage
    | failing => exact cancel_effect e _
    | failingScope => exact clear_effect e _ rfl rfl rfl
    | closed => exact .quiet rfl rfl rfl

end TravelPlanner.ChatHistory
