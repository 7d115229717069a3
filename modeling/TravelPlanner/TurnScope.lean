import TravelPlanner.ChatHistory

namespace TravelPlanner.TurnScope

open ChatThreads ChatHistory Runs

/-- Every consumed scope is the binding made by the turn that asked for the call. -/
def ScopeKept (s : Thread) : Prop :=
  ∀ callId turn scope, .consumed callId turn scope ∈ s.shared.log → s.bindings turn = some scope

/-- A call is armed only under the binding of its own turn. -/
def armsOwn (s : Thread) (e : Event) : Bool :=
  match s.stages e.1, s.shared.doc with
  | .arming turn _, some d => e.2.lost || d.boundBy = turn
  | _, _ => true

/-- A confirmed resume runs the reply whose call the pending scope names. -/
def confirmsOwn (s : Thread) (e : Event) : Bool :=
  match s.stages e.1, s.next, s.messages.getLast?, pendingScope s.shared.doc with
  | .confirming, .toolsWrite, some (.ai _ calls), some p => e.2.lost || p.toolCallId ∈ calls.map ToolCall.id
  | _, _, _, _ => true

def BeforeBinding : Stage → Prop
  | .cancelling _ | .clearing _ | .binding _ => True
  | _ => False

variable {messages extra : List Message} {callId : CallId} {turn : TurnId} {s : Thread}

theorem owner_append (h : Owner messages callId turn)
    (hextra : ∀ turn' calls, .ai turn' calls ∈ extra → callId ∉ calls.map ToolCall.id) :
    Owner (messages ++ extra) callId turn := by
  intro turn' calls hm hid
  rcases List.mem_append.mp hm with hm | hm
  · exact h turn' calls hm hid
  · exact absurd hid (hextra turn' calls hm)

theorem results_no_calls {calls : List ToolCall} :
    ∀ turn' calls', .ai turn' calls' ∈ calls.map (fun c ↦ Message.toolResult c.id) →
      callId ∉ calls'.map ToolCall.id := by
  intro turn' calls' hm
  obtain ⟨_, _, he⟩ := List.mem_map.mp hm
  cases he

theorem owner_cancel (h : Owner s.messages callId turn) : Owner s.acancelPendingTools.messages callId turn := by
  unfold Thread.acancelPendingTools
  split
  · exact fun turn' calls hm hid ↦ h turn' calls (mem_strip hm hid) hid
  · exact h

theorem owner_enter (h : Owner s.messages callId turn) (i : TurnId) (r : TurnRequest) :
    Owner (s.enter i r).messages callId turn := by
  simp only [Thread.enter, List.append_assoc]
  refine owner_append h fun turn' calls hm ↦ ?_
  rcases List.mem_append.mp hm with hm | hm
  · split at hm
    · cases List.mem_singleton.mp hm
    · cases hm
  · obtain ⟨role, _, he⟩ := List.mem_map.mp hm
    cases role with
    | user | system => cases he
    | assistant =>
      obtain ⟨_, rfl⟩ := Message.ai.inj he
      simp

theorem owner_reply (h : Owner s.messages callId turn) (hid : callId < s.nextCall) (turn' : TurnId)
    (tools : List Tool) : Owner (s.reply turn' tools).messages callId turn := by
  have hask : Owner (s.messages ++ [.ai turn' (s.numbered tools)]) callId turn := by
    refine owner_append h fun t calls hm hmem ↦ ?_
    obtain ⟨_, rfl⟩ := Message.ai.inj (List.mem_singleton.mp hm)
    exact absurd hid (numbered_ids s tools callId hmem).1.not_gt
  simp only [Thread.reply]
  split
  · exact owner_append hask results_no_calls
  · exact hask

theorem owner_resume (h : Owner s.messages callId turn) (i : ℕ) (choice : Choice) :
    Owner (s.resumeGraph i choice).messages callId turn := by
  unfold Thread.resumeGraph
  split
  · exact h
  · exact h
  · split
    · unfold Thread.runToolsWrite
      split
      · exact owner_append h results_no_calls
      · exact h
    · exact h
  · exact h

theorem step_owner (e : Event) (h : Owner s.messages callId turn) (hid : callId < s.nextCall) :
    Owner (step s e).messages callId turn ∧ callId < (step s e).nextCall := by
  unfold step
  split
  · exact ⟨h, hid⟩
  · cases hstage : s.stages e.1 with
    | cancelling r | failing =>
      refine ⟨owner_cancel h, ?_⟩
      obtain ⟨_, _, he⟩ := cancel_eq s
      simp only [Thread.advance, Thread.goto_nextCall, he]
      exact hid
    | clearing r | dropping | inspecting | failingScope | closed => exact ⟨h, hid⟩
    | binding r =>
      obtain ⟨context, messages⟩ := r
      cases context <;> exact ⟨h, hid⟩
    | entering r => exact ⟨owner_enter h e.1 r, hid⟩
    | confirming =>
      refine ⟨owner_resume (s := s.confirm) h e.1 e.2, ?_⟩
      simp only [Thread.advance, resume_frame]
      exact hid
    | rejecting =>
      refine ⟨owner_resume (owner_cancel h) e.1 e.2, ?_⟩
      obtain ⟨_, _, he⟩ := cancel_eq s
      simpa only [Thread.advance, resume_frame, he] using hid
    | streaming t => exact ⟨owner_reply h hid t e.2.reply, hid.trans_le (Nat.le_add_right _ _)⟩
    | arming t c =>
      simp only [Thread.advance, Thread.arm]
      split <;> exact ⟨h, hid⟩

theorem step_stages_ne {e : Event} {i : ℕ} (h : i ≠ e.1) : (step s e).stages i = s.stages i := by
  have hgoto := Thread.goto_stages_ne h
  have hresume : ∀ t : Thread, (t.resumeGraph e.1 e.2).stages i = t.stages i := by
    intro t
    unfold Thread.resumeGraph
    split
    · exact hgoto _ _
    · exact hgoto _ _
    · split
      · rw [hgoto]
        unfold Thread.runToolsWrite
        split <;> rfl
      · rfl
    · exact hgoto _ _
  obtain ⟨_, _, hcancel⟩ := cancel_eq s
  unfold step
  split
  · exact hgoto _ _
  · cases hstage : s.stages e.1 with
    | cancelling r | failing => simp only [Thread.advance, hgoto, hcancel]
    | clearing r | dropping | inspecting | failingScope | entering | streaming => exact hgoto _ _
    | binding r =>
      obtain ⟨context, messages⟩ := r
      cases context <;> exact hgoto _ _
    | confirming => exact hresume _
    | rejecting => simp only [Thread.advance, hresume, hcancel]
    | arming t c =>
      simp only [Thread.advance, Thread.arm]
      split <;> exact hgoto _ _
    | closed => rfl

def Settled : Stage → Prop
  | .cancelling _ | .clearing _ | .binding _ | .arming .. => False
  | _ => True

theorem inspect_stage (s : Thread) : Settled s.inspect ∨ ∃ turn calls call, s.inspect = .arming turn call.id ∧
    s.messages.getLast? = some (.ai turn calls) ∧ call ∈ calls := by
  unfold Thread.inspect
  split
  · exact .inl trivial
  · next turn calls hlast _ =>
    split
    · exact .inl trivial
    · next call hcalls =>
      have hmem : call ∈ calls := List.mem_of_mem_filter (hcalls.symm ▸ List.mem_singleton_self call)
      exact .inr ⟨turn, calls, call, rfl, hlast, hmem⟩
    · exact .inl trivial
  · exact .inl trivial

theorem resume_stage (s : Thread) (i : ℕ) (choice : Choice) :
    Settled ((s.resumeGraph i choice).stages i) ∨ (s.resumeGraph i choice).stages i = s.stages i := by
  unfold Thread.resumeGraph
  split
  · exact .inl (by rw [Thread.goto_stages]; trivial)
  · exact .inl (by rw [Thread.goto_stages]; trivial)
  · split
    · rw [Thread.goto_stages]
      split <;> exact .inl trivial
    · exact .inr rfl
  · exact .inl (by rw [Thread.goto_stages]; trivial)

theorem step_stage (s : Thread) (e : Event) :
    Settled ((step s e).stages e.1) ∨
      (s.stages e.1 = .inspecting ∧ (step s e).stages e.1 = s.inspect) ∨
      (BeforeBinding (s.stages e.1) ∧ (∀ r, s.stages e.1 ≠ .binding r) ∧ ∀ turn callId,
        (step s e).stages e.1 ≠ .arming turn callId) := by
  unfold step
  split
  · exact .inl (by rw [Thread.goto_stages]; trivial)
  · cases hstage : s.stages e.1 with
    | cancelling r | clearing r => exact .inr (.inr ⟨trivial, by simp, by simp [Thread.advance]⟩)
    | binding r | dropping | failing | failingScope =>
      rw [Thread.advance, Thread.goto_stages]
      exact .inl trivial
    | entering r | streaming turn =>
      rw [Thread.advance, Thread.goto_stages]
      split <;> exact .inl trivial
    | confirming =>
      rcases resume_stage s.confirm e.1 e.2 with hsettled | hsame
      · exact .inl hsettled
      · exact .inl (by rw [Thread.advance, hsame, Thread.confirm, hstage]; trivial)
    | rejecting =>
      rcases resume_stage s.acancelPendingTools e.1 e.2 with hsettled | hsame
      · exact .inl hsettled
      · obtain ⟨_, _, hcancel⟩ := cancel_eq s
        exact .inl (by rw [Thread.advance, hsame, hcancel, hstage]; trivial)
    | inspecting => exact .inr (.inl ⟨rfl, by rw [Thread.advance, Thread.goto_stages]⟩)
    | arming turn callId =>
      simp only [Thread.advance, Thread.arm]
      split <;> exact .inl (by rw [Thread.goto_stages]; trivial)
    | closed => exact .inl (by rw [Thread.advance, hstage]; trivial)

structure Bound (s : Thread) (d : ThreadDoc) : Prop where
  made : s.bindings d.boundBy = some d.binding
  snapshot : ∀ p, d.pending = some p → p.toBinding = d.binding ∧ Owner s.messages p.toolCallId d.boundBy ∧
    p.toolCallId < s.nextCall

/-- The store describes a binding that its turn made, and pending calls belong to that turn. -/
structure TurnInv (s : Thread) : Prop where
  history : History s.messages s.next s.nextCall
  unbound : ∀ i, BeforeBinding (s.stages i) → s.bindings i = none
  arming : ∀ i turn callId, s.stages i = .arming turn callId → Owner s.messages callId turn ∧ callId < s.nextCall
  bound : ∀ d, s.shared.doc = some d → Bound s d
  kept : ScopeKept s

theorem unbound_step (h : TurnInv s) (e : Event) (i : ℕ) (hi : BeforeBinding ((step s e).stages i)) :
    (step s e).bindings i = none := by
  have hold : BeforeBinding (s.stages i) ∧ (i = e.1 → ∀ r, s.stages e.1 ≠ .binding r) := by
    by_cases he : i = e.1
    · subst he
      rcases step_stage s e with hsettled | ⟨_, hinspect⟩ | ⟨hbefore, hne, _⟩
      · cases hstage : (step s e).stages e.1 <;> simp_all [Settled, BeforeBinding]
      · rcases inspect_stage s with hsettled | ⟨_, _, _, harm, _⟩
        · rw [hinspect] at hi
          cases hstage : s.inspect <;> simp_all [Settled, BeforeBinding]
        · rw [hinspect, harm] at hi
          exact hi.elim
      · exact ⟨hbefore, fun _ ↦ hne⟩
    · rw [step_stages_ne he] at hi
      exact ⟨hi, fun hcontra ↦ absurd hcontra he⟩
  have hnone := h.unbound i hold.1
  cases step_effect e h.history with
  | quiet _ hbindings | unpended _ _ _ hbindings | armed _ _ _ _ hbindings | confirmed _ hbindings
  | ran _ _ _ _ _ hbindings => rw [hbindings, hnone]
  | bound _ hstage _ _ _ hbindings =>
    have hne : i ≠ e.1 := fun he ↦ hold.2 he _ hstage
    rw [hbindings, Function.update_of_ne hne, hnone]

theorem arming_step (h : TurnInv s) (e : Event) (i : ℕ) (hi : (step s e).stages i = .arming turn callId) :
    Owner (step s e).messages callId turn ∧ callId < (step s e).nextCall := by
  by_cases he : i = e.1
  · subst he
    rcases step_stage s e with hsettled | ⟨_, hinspect⟩ | ⟨_, _, hne⟩
    · rw [hi] at hsettled
      exact hsettled.elim
    · rcases inspect_stage s with hsettled | ⟨turn', calls, call, harm, hlast, hcall⟩
      · rw [← hinspect, hi] at hsettled
        exact hsettled.elim
      · rw [hinspect, harm] at hi
        obtain ⟨rfl, rfl⟩ := Stage.arming.inj hi
        have hm := List.mem_of_getLast? hlast
        have hid := List.mem_map_of_mem (f := ToolCall.id) hcall
        exact step_owner e (h.history.owned _ _ hm _ hid) (h.history.numbered _ _ hm _ hid)
    · exact absurd hi (hne turn callId)
  · rw [step_stages_ne he] at hi
    obtain ⟨howner, hlt⟩ := h.arming i turn callId hi
    exact step_owner e howner hlt

def Inherited (doc doc' : Option ThreadDoc) : Prop :=
  ∀ d', doc' = some d' → ∃ d, doc = some d ∧ d'.binding = d.binding ∧ d'.boundBy = d.boundBy ∧
    (d'.pending = none ∨ d'.pending = d.pending)

theorem Inherited.refl (doc : Option ThreadDoc) : Inherited doc doc := fun d hd ↦ ⟨d, hd, rfl, rfl, .inr rfl⟩

theorem Inherited.clear {doc doc' : Option ThreadDoc} (h : Inherited doc doc') :
    Inherited doc (clearPending doc') := by
  intro d' hd'
  obtain ⟨d₁, hd₁, rfl⟩ := Option.map_eq_some_iff.mp hd'
  obtain ⟨d, hd, hbinding, hby, _⟩ := h d₁ hd₁
  exact ⟨d, hd, hbinding, hby, .inl rfl⟩

theorem runTools_inherited (turn : TurnId) (t : Shared) (runs : List (ToolCall × ToolOutcome)) :
    Inherited t.doc (runTools turn t runs).doc := by
  refine runTools_keeps (fun t' ↦ Inherited t.doc t'.doc) (fun _ _ ↦ True) (fun t' run h _ ↦ ?_)
    (Inherited.refl t.doc) (fun _ _ _ _ ↦ trivial)
  rcases runTool_cases turn t' run with he | ⟨log, he, _⟩
  · rw [he]
    exact h
  · rw [he]
    exact h.clear

theorem Bound.inherited {d d' : ThreadDoc} (h : Bound s d) (e : Event)
    (hbindings : (step s e).bindings = s.bindings) (hbinding : d'.binding = d.binding) (hby : d'.boundBy = d.boundBy)
    (hpending : d'.pending = none ∨ d'.pending = d.pending) : Bound (step s e) d' := by
  refine ⟨by rw [hbindings, hby, hbinding, h.made], fun p hp ↦ ?_⟩
  rcases hpending with hnone | hsame
  · rw [hnone] at hp
    cases hp
  · obtain ⟨hscope, howner, hlt⟩ := h.snapshot p (hsame ▸ hp)
    rw [hbinding, hby]
    exact ⟨hscope, step_owner e howner hlt⟩

theorem kept_runTool {bindings : TurnId → Option Binding} {t : Shared} (run : ToolCall × ToolOutcome)
    (h : ∀ callId turn scope, .consumed callId turn scope ∈ t.log → bindings turn = some scope)
    (hown : ∀ p, pendingScope t.doc = some p → bindings turn = some p.toBinding) :
    ∀ callId turn' scope, .consumed callId turn' scope ∈ (runTool turn t run).log →
      bindings turn' = some scope := by
  rcases runTool_cases turn t run with he | ⟨log, he, hlog⟩
  · rw [he]
    exact h
  · rw [he]
    intro callId turn' scope hm
    rcases hlog with ⟨_, rfl⟩ | ⟨p, hp, rfl | ⟨target, _, _, rfl⟩⟩
    · exact h _ _ _ hm
    · rcases List.mem_cons.mp hm with hnew | hold
      · obtain ⟨_, rfl, rfl⟩ := Entry.consumed.inj hnew
        exact hown p hp
      · exact h _ _ _ hold
    · rcases List.mem_cons.mp (List.mem_of_ne_of_mem (by simp) hm) with hnew | hold
      · obtain ⟨_, rfl, rfl⟩ := Entry.consumed.inj hnew
        exact hown p hp
      · exact h _ _ _ hold

theorem bound_step (h : TurnInv s) (e : Event) (hown : armsOwn s e = true) {d' : ThreadDoc}
    (hd' : (step s e).shared.doc = some d') : Bound (step s e) d' := by
  have hinherited : Inherited s.shared.doc (step s e).shared.doc → (step s e).bindings = s.bindings →
      Bound (step s e) d' := by
    intro hold hbindings
    obtain ⟨d, hd, hbinding, hby, hpending⟩ := hold d' hd'
    exact (h.bound d hd).inherited e hbindings hbinding hby hpending
  cases step_effect e h.history with
  | quiet hshared hbindings => exact hinherited (hshared ▸ Inherited.refl _) hbindings
  | confirmed hshared hbindings => exact hinherited (hshared ▸ Inherited.refl _) hbindings
  | ran _ _ _ _ hshared hbindings =>
    refine hinherited ?_ hbindings
    rw [hshared]
    exact runTools_inherited _ ⟨s.shared.doc, _⟩ _
  | unpended hpending hdoc hshared hbindings =>
    rw [hshared] at hd'
    obtain rfl : _ = some d' := hd'
    obtain ⟨d, hd, hbinding, hby⟩ := hdoc d' rfl
    exact (h.bound d hd).inherited e hbindings hbinding hby (.inl hpending)
  | @bound _ d _ _ hpending hby hshared hbindings =>
    rw [hshared] at hd'
    obtain rfl := Option.some.inj hd'
    refine ⟨by rw [hbindings, hby, Function.update_self], fun p hp ↦ ?_⟩
    rw [hpending] at hp
    cases hp
  | @armed turn callId d hlost hstage hdoc hshared hbindings =>
    rw [hshared] at hd'
    obtain rfl := Option.some.inj hd'
    have hturn : d.boundBy = turn := by simpa [armsOwn, hstage, hdoc, hlost] using hown
    obtain ⟨howner, hlt⟩ := h.arming _ _ _ hstage
    refine ⟨by rw [hbindings]; exact (h.bound d hdoc).made, fun p hp ↦ ?_⟩
    obtain rfl := Option.some.inj hp
    exact ⟨rfl, step_owner e (hturn ▸ howner) hlt⟩

theorem kept_step (h : TurnInv s) (e : Event) (hown : confirmsOwn s e = true) : ScopeKept (step s e) := by
  have hold := h.kept
  unfold ScopeKept at hold ⊢
  cases step_effect e h.history with
  | quiet hshared hbindings =>
    rw [hshared, hbindings]
    exact hold
  | unpended _ _ hshared hbindings =>
    rw [hshared, hbindings]
    exact hold
  | bound _ hstage _ _ hshared hbindings =>
    rw [hshared, hbindings]
    intro callId turn scope hm
    have hmade := hold callId turn scope hm
    have hne : turn ≠ e.1 := by
      rintro rfl
      rw [h.unbound e.1 (by rw [hstage]; trivial)] at hmade
      cases hmade
    rw [Function.update_of_ne hne, hmade]
  | armed _ _ _ hshared hbindings =>
    rw [hshared, hbindings]
    intro callId turn scope hm
    exact hold callId turn scope (List.mem_of_ne_of_mem (by simp) hm)
  | confirmed hshared hbindings =>
    rw [hshared, hbindings]
    intro callId turn scope hm
    exact hold callId turn scope (List.mem_of_ne_of_mem (by simp) hm)
  | @ran turn calls hlost hstage hnext hlast hshared hbindings =>
    rw [hshared, hbindings]
    refine runTools_keeps _ (fun p _ ↦ s.bindings turn = some p.toBinding)
      (fun t run ht hok ↦ kept_runTool run ht hok) ?_ fun p hp _ _ ↦ ?_
    · intro callId turn' scope hm
      exact hold callId turn' scope (List.mem_of_ne_of_mem (by simp) hm)
    · obtain ⟨d, hd, hdp⟩ := Option.bind_eq_some_iff.mp hp
      have hpending : pendingScope s.shared.doc = some p := hp
      have hid : p.toolCallId ∈ calls.map ToolCall.id := by
        simpa [confirmsOwn, hstage, hnext, hlast, hpending, hlost] using hown
      obtain ⟨hscope, howner, _⟩ := (h.bound d hd).snapshot p hdp
      rw [howner turn calls (List.mem_of_getLast? hlast) hid, hscope]
      exact (h.bound d hd).made

theorem step_inv (s : Thread) (e : Event) (h : TurnInv s) (hok : armsOwn s e = true ∧ confirmsOwn s e = true) :
    TurnInv (step s e) where
  history := step_history e h.history
  unbound := unbound_step h e
  arming := fun i _ _ ↦ arming_step h e i
  bound := fun _ ↦ bound_step h e hok.1
  kept := kept_step h e hok.2

/-- In every interleaving in which a call is armed under the binding of its own turn
and a confirmation runs the reply it is for, consumed scopes are the scopes of the
turns that asked. -/
theorem scope_of_turn (requests : ℕ → Request) (events : List Event)
    (hok : ∀ t ∈ trace step (Thread.start requests) events,
      armsOwn t.before t.event = true ∧ confirmsOwn t.before t.event = true) :
    ScopeKept (run step (Thread.start requests) events) ∧
      ∀ t ∈ trace step (Thread.start requests) events, ScopeKept t.before := by
  have hinit : TurnInv (Thread.start requests) := by
    refine ⟨History.empty, fun _ _ ↦ rfl, fun i turn callId hi ↦ ?_, by simp [Thread.start],
      by simp [ScopeKept, Thread.start]⟩
    simp only [Thread.start, Request.stage] at hi
    split at hi <;> cases hi
  obtain ⟨hrun, htrace⟩ := trace_invariant_of hinit step_inv events hok
  exact ⟨hrun.kept, fun t ht ↦ (htrace t ht).1.kept⟩

def tripRequests : ℕ → Request
  | 0 => .turn ⟨.trip "alps" .multiDay "Alps" 3 [], [.user]⟩
  | 1 => .turn ⟨.trip "lakes" .multiDay "Lakes" 7 [], [.user]⟩
  | _ => .resume true

def inTurn : List Event :=
  [(0, {}), (0, {}), (0, {}), (0, {}), (0, { reply := [] }), (0, {}), (1, {}), (1, {}), (1, {}), (1, {}),
    (1, { reply := [.editMultiDayTrip] }), (1, {}), (1, {}),
    (2, { runs := [(⟨0, .editMultiDayTrip⟩, .runs true)] })]

theorem scope_of_turn_in_turn : ScopeKept (run step (Thread.start tripRequests) inTurn) ∧
    ∀ t ∈ trace step (Thread.start tripRequests) inTurn, ScopeKept t.before :=
  scope_of_turn tripRequests inTurn (by decide)

def overtaken : List Event :=
  [(0, {}), (0, {}), (0, {}), (0, {}), (1, {}), (1, {}), (0, { reply := [.editMultiDayTrip] }), (1, {}), (0, {}),
    (0, {}), (2, { runs := [(⟨0, .editMultiDayTrip⟩, .runs true)] })]

theorem scope_grafted : ¬ScopeKept (run step (Thread.start tripRequests) overtaken) := by
  intro h
  have hconsumed : Entry.consumed 0 0 ⟨.trip, some "lakes", some .multiDay, some "Lakes", some 7, []⟩ ∈
      (run step (Thread.start tripRequests) overtaken).shared.log := by decide
  have hbound : (run step (Thread.start tripRequests) overtaken).bindings 0 =
      some ⟨.trip, some "alps", some .multiDay, some "Alps", some 3, []⟩ := by decide
  have hscope := h 0 0 _ hconsumed
  rw [hbound] at hscope
  simp at hscope

end TravelPlanner.TurnScope
