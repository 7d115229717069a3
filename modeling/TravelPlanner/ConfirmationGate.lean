import TravelPlanner.ChatHistory

namespace TravelPlanner.ConfirmationGate

open ChatThreads ChatHistory Runs

def ConfirmedSince (callId : CallId) (armedAt : ℕ) : List Entry → Prop
  | [] => False
  | .confirmed :: earlier => .proposed callId armedAt ∈ earlier ∨ ConfirmedSince callId armedAt earlier
  | _ :: earlier => ConfirmedSince callId armedAt earlier

def Gated : List Entry → Prop
  | [] => True
  | .mutated callId armedAt _ :: earlier => ConfirmedSince callId armedAt earlier ∧ Gated earlier
  | _ :: earlier => Gated earlier

def mutations (log : List Entry) : List ℕ := log.filterMap fun | .mutated _ armedAt _ => some armedAt | _ => none

/-- Only confirmed proposals write, and each arming writes at most once. -/
structure Confirmed (log : List Entry) : Prop where
  gated : Gated log
  once : (mutations log).Nodup

theorem Gated.proposed {log : List Entry} (h : Gated log) {callId : CallId} {armedAt : ℕ} {target : Target}
    (hm : .mutated callId armedAt target ∈ log) : .proposed callId armedAt ∈ log := by
  have hsince : ∀ log, ConfirmedSince callId armedAt log → .proposed callId armedAt ∈ log := by
    intro log
    induction log with
    | nil => exact False.elim
    | cons entry log ih =>
      intro h
      cases entry with
      | confirmed => exact List.mem_cons_of_mem _ (h.elim id ih)
      | proposed | consumed | mutated => exact List.mem_cons_of_mem _ (ih h)
  induction log with
  | nil => simp at hm
  | cons entry log ih =>
    rcases List.mem_cons.mp hm with rfl | hold
    · exact List.mem_cons_of_mem _ (hsince _ h.1)
    · cases entry with
      | mutated => exact List.mem_cons_of_mem _ (ih h.2 hold)
      | proposed | consumed | confirmed => exact List.mem_cons_of_mem _ (ih h hold)

/-- A write of a place tool is by the call the scope was armed for; the trip tools check this themselves. -/
def placeWriteNamed (p : PendingScope) (run : ToolCall × ToolOutcome) : Bool :=
  run.2 ≠ .runs true || !run.1.tool.isPlaceWrite || writeTarget run.1 p = none || run.1.id = p.toolCallId

/-- A confirmed resume lets no place tool write while the pending scope names another call. -/
def confirmsNamed (s : Thread) (e : Event) : Bool :=
  match s.stages e.1, s.next, pendingScope s.shared.doc with
  | .confirming, .toolsWrite, some p => e.2.lost || e.2.runs.all (placeWriteNamed p)
  | _, _, _ => true

structure GateInv (s : Shared) (clock : ℕ) : Prop where
  armed : ∀ p, pendingScope s.doc = some p →
    .proposed p.toolCallId p.armedAt ∈ s.log ∧ p.armedAt < clock ∧ p.armedAt ∉ mutations s.log
  past : ∀ n ∈ mutations s.log, n < clock
  confirmed : Confirmed s.log

variable {s : Shared} {clock : ℕ}

theorem tripScope_named {callId : CallId} {p : PendingScope} {t : TripStore.TripId × ℤ}
    (h : tripScope callId p = some t) : callId = p.toolCallId := by
  unfold tripScope at h
  split at h
  · split_ifs at h with hid
    exact (not_not.mp hid).symm
  · cases h

theorem writeTarget_named {run : ToolCall × ToolOutcome} {p : PendingScope} {target : Target}
    (h : writeTarget run.1 p = some target) (hran : run.2 = .runs true) (hnamed : placeWriteNamed p run = true) :
    run.1.id = p.toolCallId := by
  have hplace : run.1.tool.isPlaceWrite = true → run.1.id = p.toolCallId := by
    intro hwrite
    simpa [placeWriteNamed, hran, hwrite, h] using hnamed
  cases htool : run.1.tool with
  | editMultiDayTrip | revertTripRevision =>
    simp only [writeTarget, htool] at h
    obtain ⟨t, ht, _⟩ := Option.map_eq_some_iff.mp h
    exact tripScope_named ht
  | updateVisitHours | skipPlace | addPlace => exact hplace (by rw [htool]; rfl)
  | read => simp [writeTarget, htool] at h

def Confirming (s : Shared) : Prop :=
  ∀ p, pendingScope s.doc = some p → ConfirmedSince p.toolCallId p.armedAt s.log

theorem GateInv.unpended (h : GateInv s clock) {doc : Option ThreadDoc} (hdoc : pendingScope doc = none) :
    GateInv ⟨doc, s.log⟩ clock :=
  ⟨by simp [hdoc], h.past, h.confirmed⟩

theorem GateInv.confirm (h : GateInv s clock) :
    GateInv ⟨s.doc, .confirmed :: s.log⟩ clock ∧ Confirming ⟨s.doc, .confirmed :: s.log⟩ := by
  refine ⟨⟨fun p hp ↦ ?_, h.past, h.confirmed.gated, h.confirmed.once⟩, fun p hp ↦ .inl (h.armed p hp).1⟩
  obtain ⟨hproposed, hlt, hnew⟩ := h.armed p hp
  exact ⟨List.mem_cons_of_mem _ hproposed, hlt, hnew⟩

theorem GateInv.arm (h : GateInv s clock) (d : ThreadDoc) (callId : CallId) :
    GateInv ⟨some { d with pending := some ⟨d.binding, callId, clock⟩ }, .proposed callId clock :: s.log⟩
      (clock + 1) := by
  refine ⟨fun p hp ↦ ?_, fun n hn ↦ (h.past n hn).trans (Nat.lt_succ_self _), h.confirmed.gated, h.confirmed.once⟩
  obtain rfl := Option.some.inj hp
  exact ⟨List.mem_cons_self, Nat.lt_succ_self _, fun hn ↦ lt_irrefl _ (h.past _ hn)⟩

theorem gate_runTool {turn : TurnId} (run : ToolCall × ToolOutcome) (h : GateInv s clock ∧ Confirming s)
    (hnamed : ∀ p, pendingScope s.doc = some p → placeWriteNamed p run = true) :
    GateInv (runTool turn s run) clock ∧ Confirming (runTool turn s run) := by
  obtain ⟨hgate, hconfirming⟩ := h
  rcases runTool_cases turn s run with he | ⟨log, he, hlog⟩
  · rw [he]
    exact ⟨hgate, hconfirming⟩
  · rw [he]
    refine ⟨⟨by simp [pendingScope_clear], ?_, ?_⟩, by simp [Confirming, pendingScope_clear]⟩
    all_goals rcases hlog with ⟨_, rfl⟩ | ⟨p, hp, rfl | ⟨target, hran, htarget, rfl⟩⟩
    · exact hgate.past
    · exact hgate.past
    · exact List.forall_mem_cons.mpr ⟨(hgate.armed p hp).2.1, hgate.past⟩
    · exact hgate.confirmed
    · exact ⟨hgate.confirmed.gated, hgate.confirmed.once⟩
    · have hid : run.1.id = p.toolCallId := writeTarget_named htarget hran (hnamed p hp)
      have hsince := hconfirming p hp
      rw [← hid] at hsince
      exact ⟨⟨hsince, hgate.confirmed.gated⟩, List.nodup_cons.mpr ⟨(hgate.armed p hp).2.2, hgate.confirmed.once⟩⟩

structure Inv (t : Thread) : Prop where
  history : History t.messages t.next t.nextCall
  gate : GateInv t.shared t.clock

theorem step_inv (t : Thread) (e : Event) (h : Inv t) (hok : confirmsNamed t e = true) : Inv (step t e) := by
  refine ⟨step_history e h.history, ?_⟩
  cases step_effect e h.history with
  | quiet hshared _ hclock =>
    rw [hshared, hclock]
    exact h.gate
  | unpended hpending _ hshared _ hclock =>
    rw [hshared, hclock]
    exact h.gate.unpended hpending
  | bound _ _ hpending _ hshared _ hclock =>
    rw [hshared, hclock]
    exact h.gate.unpended hpending
  | armed _ _ _ hshared _ hclock =>
    rw [hshared, hclock]
    exact h.gate.arm _ _
  | confirmed hshared _ hclock =>
    rw [hshared, hclock]
    exact h.gate.confirm.1
  | ran hlost hstage hnext _ hshared _ hclock =>
    rw [hshared, hclock]
    refine (runTools_keeps (fun s ↦ GateInv s t.clock ∧ Confirming s) (fun p run ↦ placeWriteNamed p run = true)
      (fun s run hs hnamed ↦ gate_runTool run hs hnamed) h.gate.confirm fun p hp ↦ ?_).1
    have hp' : pendingScope t.shared.doc = some p := hp
    simpa [confirmsNamed, hstage, hnext, hp', hlost] using hok

/-- In every interleaving of turns, resumes and lost streams in which no place tool
writes under the scope of another call, every state reached has a gated log. -/
theorem confirmation_gate (requests : ℕ → Request) (events : List Event)
    (hok : ∀ t ∈ trace step (Thread.start requests) events, confirmsNamed t.before t.event = true) :
    Confirmed (run step (Thread.start requests) events).shared.log ∧
      ∀ t ∈ trace step (Thread.start requests) events, Confirmed t.before.shared.log := by
  have hinit : Inv (Thread.start requests) :=
    ⟨History.empty, by simp [Thread.start, pendingScope], by simp [Thread.start, mutations], trivial,
      List.nodup_nil⟩
  obtain ⟨hrun, htrace⟩ := trace_invariant_of hinit step_inv events hok
  exact ⟨hrun.gate.confirmed, fun t ht ↦ (htrace t ht).1.gate.confirmed⟩

def placeRequests : ℕ → Request
  | 0 => .turn ⟨.places ["louvre"], [.user]⟩
  | _ => .resume true

def skipProposal : List Event :=
  [(0, {}), (0, {}), (0, {}), (0, {}), (0, { reply := [.skipPlace "louvre" true] }), (0, {}), (0, {})]

theorem confirmation_gate_skip :
    Confirmed (run step (Thread.start placeRequests)
        (skipProposal ++ [(1, { runs := [(⟨0, .skipPlace "louvre" true⟩, .runs true)] })])).shared.log ∧
      ∀ t ∈ trace step (Thread.start placeRequests)
        (skipProposal ++ [(1, { runs := [(⟨0, .skipPlace "louvre" true⟩, .runs true)] })]),
        Confirmed t.before.shared.log :=
  confirmation_gate _ _ (by decide)

/-- The confirmed call fails its argument check, the stream is lost after the next
proposal of the model, and a second confirmation runs the call nobody was shown. -/
def lostProposal : List Event :=
  skipProposal ++
    [(1, { runs := [(⟨0, .skipPlace "louvre" true⟩, .invalidArgs)] }), (1, { reply := [.addPlace "orsay"] }),
      (1, { lost := true }), (2, { runs := [(⟨1, .addPlace "orsay"⟩, .runs true)] })]

theorem gate_bypassed : ¬Confirmed (run step (Thread.start placeRequests) lostProposal).shared.log := by
  intro h
  have hwritten : Entry.mutated 1 0 (.newPlace "orsay") ∈
      (run step (Thread.start placeRequests) lostProposal).shared.log := by decide
  have hunseen : Entry.proposed 1 0 ∉ (run step (Thread.start placeRequests) lostProposal).shared.log := by decide
  exact hunseen (h.gated.proposed hwritten)

end TravelPlanner.ConfirmationGate
