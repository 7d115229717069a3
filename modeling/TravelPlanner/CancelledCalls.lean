import TravelPlanner.ChatThreads
import TravelPlanner.JsonText
import TravelPlanner.Tables

namespace TravelPlanner.CancelledCalls

open JsonText Tables

section Messages

variable {F : Type}

inductive Content (F : Type)
  | text (s : String)
  | blocks (items : List (Json F))

def Content.orEmpty : Content F → Content F
  | .blocks [] => .text ""
  | content => content

structure ToolCall (F : Type) where
  name : String
  args : List (String × Json F)
  id : Option String

inductive Body (F : Type)
  | human
  | system
  | ai (toolCalls : List (ToolCall F))
  | tool (toolCallId : String)

structure Message (F : Type) where
  id : String
  content : Content F
  body : Body F

def Message.toolCalls (m : Message F) : List (ToolCall F) :=
  match m.body with
  | .ai toolCalls => toolCalls
  | _ => []

def Message.toolCallId (m : Message F) : Option String :=
  match m.body with
  | .tool toolCallId => some toolCallId
  | _ => none

abbrev History (F : Type) := Table (Message F) Message.id

/-- A message with the id of another takes its place, any other one goes last. -/
def addMessages (history : History F) (messages : List (Message F)) : History F := messages.foldl Table.put history

def answeredIds (messages : List (Message F)) : List String := messages.filterMap Message.toolCallId

def dangling (answered : List String) (m : Message F) : Bool :=
  m.toolCalls.any fun call ↦ call.id.all (· ∉ answered)

def cancelled (m : Message F) : Message F := ⟨m.id, m.content.orEmpty, .ai []⟩

def cleaned (messages : List (Message F)) : List (Message F) :=
  (messages.filter (dangling (answeredIds messages))).map cancelled

/-- `acancel_pending_tools`; a message of the user gets a new id. -/
def acancelPendingTools (history : History F) (newId : String) (userMessage : Option String) : History F :=
  if (cleaned history.rows).isEmpty then history
  else
    let user := (userMessage.filter (· ≠ "")).toList.map fun text ↦ ⟨newId, .text text, .human⟩
    addMessages history (cleaned history.rows ++ user)

end Messages

section Results

variable {F : Type} {history : History F} {messages : List (Message F)} {answered : List String} {m t : Message F}
  {newId : String} {userMessage : Option String}

def strip (answered : List String) (m : Message F) : Message F := if dangling answered m then cancelled m else m

theorem strip_of_settled (h : dangling answered m = false) : strip answered m = m := if_neg (by simp [h])

theorem strip_calls (h : (strip answered m).toolCalls ≠ []) : dangling answered m = false ∧ strip answered m = m := by
  cases hm : dangling answered m with
  | false => exact ⟨rfl, strip_of_settled hm⟩
  | true =>
    rw [strip, if_pos hm] at h
    exact absurd rfl h

theorem dangling_of_answer (h : m.toolCallId ≠ none) : dangling answered m = false := by
  obtain ⟨id, content, body⟩ := m
  cases body with
  | tool => rfl
  | human | system | ai => exact absurd rfl h

theorem strip_answer (h : (strip answered m).toolCallId ≠ none) : strip answered m = m := by
  cases hm : dangling answered m with
  | false => exact strip_of_settled hm
  | true =>
    rw [strip, if_pos hm] at h
    exact absurd rfl h

theorem strip_toolCallId (answered : List String) (m : Message F) : (strip answered m).toolCallId = m.toolCallId := by
  cases hm : dangling answered m with
  | false => rw [strip_of_settled hm]
  | true =>
    have hnone : m.toolCallId = none := by
      by_contra hne
      rw [dangling_of_answer hne] at hm
      cases hm
    rw [strip, if_pos hm, hnone]
    rfl

theorem strip_strip (answered : List String) (m : Message F) : dangling answered (strip answered m) = false := by
  cases hm : dangling answered m with
  | false => rwa [strip_of_settled hm]
  | true =>
    rw [strip, if_pos hm]
    rfl

theorem cleaned_rows (history : History F) : (addMessages history (cleaned history.rows)).rows =
    history.rows.map (strip (answeredIds history.rows)) := by
  have hids : ∀ m : Message F, (cancelled m).id = m.id := fun _ ↦ rfl
  exact Table.foldl_put_filter hids (dangling (answeredIds history.rows)) history

theorem strip_id (answered : List String) (m : Message F) : (strip answered m).id = m.id := by
  rw [strip]
  split_ifs <;> rfl

/-- The history afterwards: every dangling message has lost its calls, and a message of
the user may stand at the end. -/
theorem acancelPendingTools_rows (hnew : newId ∉ history.rows.map Message.id) (userMessage : Option String) :
    ∃ user : List (Message F), (∀ m ∈ user, m.toolCalls = [] ∧ m.toolCallId = none) ∧
      (acancelPendingTools history newId userMessage).rows =
        history.rows.map (strip (answeredIds history.rows)) ++ user := by
  have hrows := cleaned_rows history
  rw [acancelPendingTools]
  split_ifs with hnone
  · refine ⟨[], by simp, ?_⟩
    rw [List.isEmpty_iff.mp hnone] at hrows
    rw [List.append_nil]
    exact hrows
  · cases hnote : userMessage.filter (· ≠ "") with
    | none =>
      refine ⟨[], by simp, ?_⟩
      simp only [Option.toList_none, List.map_nil, List.append_nil]
      exact hrows
    | some text =>
      refine ⟨[⟨newId, .text text, .human⟩], by simp [Message.toolCalls, Message.toolCallId], ?_⟩
      have hkeys : (addMessages history (cleaned history.rows)).rows.map Message.id = history.rows.map Message.id := by
        rw [hrows, List.map_map]
        exact List.map_congr_left fun m _ ↦ strip_id _ m
      have hput := Table.put_rows_of_not_mem (r := (⟨newId, .text text, .human⟩ : Message F)) (hkeys ▸ hnew)
      rw [← hrows, ← hput, addMessages, addMessages, List.foldl_append]
      rfl

end Results

section Validity

variable {F : Type} {history : History F} {messages user : List (Message F)} {answered : List String}
  {m t : Message F} {newId : String} {userMessage : Option String}

def Answers (t : Message F) (call : ToolCall F) : Prop := t.toolCallId ≠ none ∧ t.toolCallId = call.id

/-- Every answer has a message before it that makes the call. -/
def Asked (messages : List (Message F)) : Prop :=
  ∀ t ∈ messages, t.toolCallId ≠ none → ∃ m, [m, t].Sublist messages ∧ ∃ call ∈ m.toolCalls, Answers t call

/-- Besides, every call has an answer after it. -/
structure ValidHistory (messages : List (Message F)) : Prop where
  answered : ∀ m ∈ messages, ∀ call ∈ m.toolCalls, ∃ t, [m, t].Sublist messages ∧ Answers t call
  asked : Asked messages

/-- Every answer stands after a message that makes its call and has all its calls
answered, and such a message has the answers after it. -/
structure Settled (messages : List (Message F)) : Prop where
  asked : ∀ t ∈ messages, t.toolCallId ≠ none → ∃ m, [m, t].Sublist messages ∧
    dangling (answeredIds messages) m = false ∧ ∃ call ∈ m.toolCalls, Answers t call
  answered : ∀ m ∈ messages, dangling (answeredIds messages) m = false →
    ∀ call ∈ m.toolCalls, ∃ t, [m, t].Sublist messages ∧ Answers t call

/-- A call and its answer afterwards are those of a message that was left alone. -/
theorem pair_sublist_iff (huser : ∀ m ∈ user, m.toolCalls = [] ∧ m.toolCallId = none) (hm : m.toolCalls ≠ [])
    (ht : t.toolCallId ≠ none) : [m, t].Sublist (messages.map (strip answered) ++ user) ↔
      [m, t].Sublist messages ∧ dangling answered m = false := by
  constructor
  · intro h
    obtain ⟨first, last, hpair, hfirst, hlast⟩ := List.sublist_append_iff.mp h
    have hnil : last = [] := by
      rcases List.eq_nil_or_concat' last with hnil | ⟨init, x, rfl⟩
      · exact hnil
      · have hx : t = x := by
          have hends := congrArg List.getLast? hpair
          simpa [← List.append_assoc] using hends
        exact absurd (huser x (hlast.subset (by simp))).2 (hx ▸ ht)
    rw [hnil, List.append_nil] at hpair
    rw [← hpair, List.sublist_map_iff] at hfirst
    obtain ⟨pair, hsub, hmap⟩ := hfirst
    obtain ⟨a, rest, rfl, ha, hrest⟩ := List.map_eq_cons_iff.mp hmap.symm
    obtain ⟨b, tail, rfl, hb, htail⟩ := List.map_eq_cons_iff.mp hrest
    obtain rfl := List.map_eq_nil_iff.mp htail
    obtain ⟨hsettled, hsame⟩ := strip_calls (ha ▸ hm)
    have hb' := strip_answer (hb ▸ ht)
    rw [hsame] at ha
    rw [hb'] at hb
    subst ha hb
    exact ⟨hsub, hsettled⟩
  · rintro ⟨hsub, hsettled⟩
    have hmap := hsub.map (strip answered)
    rw [List.map_cons, List.map_singleton, strip_of_settled hsettled, strip_of_settled (dangling_of_answer ht)] at hmap
    exact hmap.trans (List.sublist_append_left _ _)

theorem mem_calls_iff (huser : ∀ m ∈ user, m.toolCalls = [] ∧ m.toolCallId = none) (hm : m.toolCalls ≠ []) :
    m ∈ messages.map (strip answered) ++ user ↔ m ∈ messages ∧ dangling answered m = false := by
  rw [List.mem_append, or_iff_left fun h ↦ hm (huser m h).1, List.mem_map]
  constructor
  · rintro ⟨a, ha, rfl⟩
    obtain ⟨hsettled, hsame⟩ := strip_calls hm
    rw [hsame]
    exact ⟨ha, hsettled⟩
  · rintro ⟨hmem, hsettled⟩
    exact ⟨m, hmem, strip_of_settled hsettled⟩

theorem mem_answer_iff (huser : ∀ m ∈ user, m.toolCalls = [] ∧ m.toolCallId = none) (ht : t.toolCallId ≠ none) :
    t ∈ messages.map (strip answered) ++ user ↔ t ∈ messages := by
  rw [List.mem_append, or_iff_left fun h ↦ ht (huser t h).2, List.mem_map]
  constructor
  · rintro ⟨a, ha, rfl⟩
    rwa [strip_answer ht]
  · intro hmem
    exact ⟨t, hmem, strip_of_settled (dangling_of_answer ht)⟩

theorem validHistory_iff (huser : ∀ m ∈ user, m.toolCalls = [] ∧ m.toolCallId = none) :
    ValidHistory (messages.map (strip (answeredIds messages)) ++ user) ↔ Settled messages := by
  constructor
  · intro h
    constructor
    · intro t hmem ht
      obtain ⟨m, hpair, call, hcall, hanswers⟩ := h.asked t ((mem_answer_iff huser ht).mpr hmem) ht
      obtain ⟨hsub, hsettled⟩ := (pair_sublist_iff huser (List.ne_nil_of_mem hcall) ht).mp hpair
      exact ⟨m, hsub, hsettled, call, hcall, hanswers⟩
    · intro m hmem hsettled call hcall
      have hcalls := List.ne_nil_of_mem hcall
      obtain ⟨t, hpair, hanswers⟩ := h.answered m ((mem_calls_iff huser hcalls).mpr ⟨hmem, hsettled⟩) call hcall
      exact ⟨t, ((pair_sublist_iff huser hcalls hanswers.1).mp hpair).1, hanswers⟩
  · intro h
    constructor
    · intro m hmem call hcall
      have hcalls := List.ne_nil_of_mem hcall
      obtain ⟨hmem, hsettled⟩ := (mem_calls_iff huser hcalls).mp hmem
      obtain ⟨t, hsub, hanswers⟩ := h.answered m hmem hsettled call hcall
      exact ⟨t, (pair_sublist_iff huser hcalls hanswers.1).mpr ⟨hsub, hsettled⟩, hanswers⟩
    · intro t hmem ht
      obtain ⟨m, hsub, hsettled, call, hcall, hanswers⟩ := h.asked t ((mem_answer_iff huser ht).mp hmem) ht
      exact ⟨m, (pair_sublist_iff huser (List.ne_nil_of_mem hcall) ht).mpr ⟨hsub, hsettled⟩, call, hcall, hanswers⟩

/-- What a clean-up is for: the history is valid afterwards, nothing but messages with
unanswered calls has changed, and there is nothing left to do. -/
structure CleansUp (history : History F) (newId : String) (userMessage : Option String) : Prop where
  valid : ValidHistory (acancelPendingTools history newId userMessage).rows
  unchanged : ∀ (i : ℕ) (m : Message F), history.rows[i]? = some m →
    dangling (answeredIds history.rows) m = false → (acancelPendingTools history newId userMessage).rows[i]? = some m
  again : ∀ newId' userMessage', acancelPendingTools (acancelPendingTools history newId userMessage) newId'
    userMessage' = acancelPendingTools history newId userMessage

theorem unchanged_of_settled (hnew : newId ∉ history.rows.map Message.id) {i : ℕ} (hi : history.rows[i]? = some m)
    (hm : dangling (answeredIds history.rows) m = false) :
    (acancelPendingTools history newId userMessage).rows[i]? = some m := by
  obtain ⟨user, -, hrows⟩ := acancelPendingTools_rows hnew userMessage
  have hlt := (List.getElem?_eq_some_iff.mp hi).1
  rw [hrows, List.getElem?_append_left (by simpa using hlt), List.getElem?_map, hi, Option.map_some,
    strip_of_settled hm]

theorem cancel_again (hnew : newId ∉ history.rows.map Message.id) (newId' : String) (userMessage' : Option String) :
    acancelPendingTools (acancelPendingTools history newId userMessage) newId' userMessage' =
      acancelPendingTools history newId userMessage := by
  obtain ⟨user, huser, hrows⟩ := acancelPendingTools_rows hnew userMessage
  have hids : answeredIds (history.rows.map (strip (answeredIds history.rows)) ++ user) =
      answeredIds history.rows := by
    have hnone : user.filterMap Message.toolCallId = [] := List.filterMap_eq_nil_iff.mpr fun m hm ↦ (huser m hm).2
    have hsame : Message.toolCallId ∘ strip (answeredIds history.rows) = Message.toolCallId (F := F) :=
      funext (strip_toolCallId _)
    rw [answeredIds, List.filterMap_append, hnone, List.append_nil, List.filterMap_map, hsame, answeredIds]
  have hnone : cleaned (acancelPendingTools history newId userMessage).rows = [] := by
    rw [cleaned, hrows, hids, List.map_eq_nil_iff, List.filter_eq_nil_iff]
    intro m hm
    rcases List.mem_append.mp hm with hm | hm
    · obtain ⟨a, -, rfl⟩ := List.mem_map.mp hm
      simp [strip_strip]
    · simp [dangling, (huser m hm).1]
  rw [acancelPendingTools, if_pos (by rw [hnone]; rfl)]

/-- A clean-up does what it is for exactly where no answer is left without its call: each
answers a message whose calls are all answered, and after it. -/
theorem cleansUp_iff (history : History F) (newId : String) (userMessage : Option String)
    (hnew : newId ∉ history.rows.map Message.id) : CleansUp history newId userMessage ↔ Settled history.rows := by
  obtain ⟨user, huser, hrows⟩ := acancelPendingTools_rows hnew userMessage
  constructor
  · intro h
    have hvalid := h.valid
    rw [hrows] at hvalid
    exact (validHistory_iff huser).mp hvalid
  · intro h
    have hvalid := (validHistory_iff huser).mpr h
    rw [← hrows] at hvalid
    exact ⟨hvalid, fun i m ↦ unchanged_of_settled hnew, cancel_again hnew⟩

def listing : Message Empty := ⟨"m1", .text "", .ai [⟨"list_saved_trips", [], some "call_1"⟩]⟩

def noTrips : Message Empty := ⟨"m2", .text "No saved trips.", .tool "call_1"⟩

def abandoned : History Empty :=
  ⟨[listing, noTrips, ⟨"m3", .text "", .ai [⟨"add_place", [], some "call_2"⟩]⟩], by simp [listing, noTrips]⟩

theorem cleansUp_abandoned : CleansUp abandoned "m4" (some "Never mind") := by
  have hpair : [listing, noTrips].Sublist abandoned.rows := (List.prefix_append [listing, noTrips] _).sublist
  refine (cleansUp_iff abandoned "m4" (some "Never mind") (by decide)).mpr ⟨?_, ?_⟩
  · intro t ht hanswer
    obtain rfl | rfl | rfl : t = listing ∨ t = noTrips ∨ t = _ := by simpa [abandoned] using ht
    · exact absurd rfl hanswer
    · exact ⟨listing, hpair, rfl, _, List.mem_cons_self, hanswer, rfl⟩
    · exact absurd rfl hanswer
  · intro m hm hsettled call hcall
    obtain rfl | rfl | rfl : m = listing ∨ m = noTrips ∨ m = _ := by simpa [abandoned] using hm
    · obtain rfl := List.mem_singleton.mp hcall
      exact ⟨noTrips, hpair, Option.some_ne_none _, rfl⟩
    · cases hcall
    · cases hsettled

def halfAnswered : History Empty :=
  ⟨[⟨"m1", .text "", .ai [⟨"list_saved_trips", [], some "call_1"⟩, ⟨"add_place", [], some "call_2"⟩]⟩,
    ⟨"m2", .text "No saved trips.", .tool "call_1"⟩], by simp⟩

theorem halfAnswered_orphaned : ¬∀ (history : History Empty) (newId : String) (userMessage : Option String),
    newId ∉ history.rows.map Message.id → Asked history.rows → CleansUp history newId userMessage := by
  intro h
  have hasked : Asked halfAnswered.rows := by
    intro t ht hanswer
    rcases List.mem_cons.mp ht with rfl | ht
    · exact absurd rfl hanswer
    · obtain rfl := List.mem_singleton.mp ht
      exact ⟨_, List.Sublist.refl _, _, List.mem_cons_self, hanswer, rfl⟩
  have hrows : (acancelPendingTools halfAnswered "m3" none).rows =
      [⟨"m1", .text "", .ai []⟩, ⟨"m2", .text "No saved trips.", .tool "call_1"⟩] := rfl
  have hvalid := (h halfAnswered "m3" none (by decide) hasked).valid
  rw [hrows] at hvalid
  obtain ⟨m, hsub, call, hcall, -⟩ := hvalid.asked ⟨"m2", .text "No saved trips.", .tool "call_1"⟩ (by simp)
    (by simp [Message.toolCallId])
  have hm := hsub.subset List.mem_cons_self
  rcases List.mem_cons.mp hm with rfl | hm
  · cases hcall
  · obtain rfl := List.mem_singleton.mp hm
    cases hcall

/-- Where no two messages make the same call, the histories that a clean-up spoils are
those with a message that is answered in part. -/
theorem settled_iff_whole (hasked : Asked messages) (hunique : ∀ m ∈ messages, ∀ m' ∈ messages,
      ∀ call ∈ m.toolCalls, ∀ call' ∈ m'.toolCalls, call.id ≠ none → call.id = call'.id → m = m') :
    Settled messages ↔ ∀ m ∈ messages, dangling (answeredIds messages) m = false ∨
      ∀ call ∈ m.toolCalls, ∀ id ∈ call.id, id ∉ answeredIds messages := by
  constructor
  · intro h m hm
    by_cases hwhole : ∀ call ∈ m.toolCalls, ∀ id ∈ call.id, id ∉ answeredIds messages
    · exact .inr hwhole
    · simp only [not_forall, not_not] at hwhole
      obtain ⟨call, hcall, id, hid, hanswered⟩ := hwhole
      obtain ⟨t, ht, htid⟩ := List.mem_filterMap.mp hanswered
      obtain ⟨m', hsub, hsettled, call', hcall', hanswers⟩ := h.asked t ht (by simp [htid])
      have hsame : call.id = call'.id := by rw [Option.mem_def.mp hid, ← hanswers.2, htid]
      have hnone : call.id ≠ none := by simp [Option.mem_def.mp hid]
      obtain rfl := hunique m hm m' (hsub.subset List.mem_cons_self) call hcall call' hcall' hnone hsame
      exact .inl hsettled
  · intro h
    constructor
    · intro t ht hanswer
      obtain ⟨m, hsub, call, hcall, hanswers⟩ := hasked t ht hanswer
      obtain ⟨id, hid⟩ := Option.ne_none_iff_exists'.mp hanswer
      refine ⟨m, hsub, (h m (hsub.subset List.mem_cons_self)).resolve_right fun hnone ↦ ?_, call, hcall, hanswers⟩
      exact hnone call hcall id (hanswers.2.symm.trans hid) (List.mem_filterMap.mpr ⟨t, ht, hid⟩)
    · intro m hm hsettled call hcall
      have hanswered : call.id.all (· ∉ answeredIds messages) = false := by
        by_contra hdangling
        have hany : dangling (answeredIds messages) m = true :=
          List.any_eq_true.mpr ⟨call, hcall, by simpa using hdangling⟩
        rw [hsettled] at hany
        cases hany
      cases hid : call.id with
      | none => simp [hid] at hanswered
      | some id =>
        simp only [hid, Option.all_some, decide_eq_false_iff_not, not_not] at hanswered
        obtain ⟨t, ht, htid⟩ := List.mem_filterMap.mp hanswered
        have hanswer : t.toolCallId ≠ none := by simp [htid]
        obtain ⟨m', hsub, call', hcall', hanswers⟩ := hasked t ht hanswer
        have hsame : call.id = call'.id := by rw [hid, ← hanswers.2, htid]
        obtain rfl := hunique m hm m' (hsub.subset List.mem_cons_self) call hcall call' hcall' (by simp [hid]) hsame
        exact ⟨t, hsub, hanswer, by rw [htid, hid]⟩

end Validity

section Threads

open ChatThreads (CallId TurnId Tool)

variable {F : Type} (number : String → CallId) (tool : ToolCall F → Tool) (turn : TurnId) {messages : List (Message F)}
  {answered : List String} {m : Message F}

def threadCall (call : ToolCall F) : ChatThreads.ToolCall := ⟨(call.id.map number).getD 0, tool call⟩

def threadMessage (m : Message F) : ChatThreads.Message :=
  match m.body with
  | .ai toolCalls => .ai turn (toolCalls.map (threadCall number tool))
  | .tool toolCallId => .toolResult (number toolCallId)
  | _ => .text

theorem answeredIds_thread (messages : List (Message F)) :
    ChatThreads.answeredIds (messages.map (threadMessage number tool turn)) = (answeredIds messages).map number := by
  rw [ChatThreads.answeredIds, answeredIds, List.filterMap_map, List.map_filterMap]
  refine List.filterMap_congr fun m _ ↦ ?_
  obtain ⟨id, content, body⟩ := m
  cases body <;> rfl

variable {number}

theorem threadMessage_strip (hnumber : Function.Injective number) (hids : ∀ call ∈ m.toolCalls, call.id ≠ none) :
    threadMessage number tool turn (strip answered m) =
      (threadMessage number tool turn m).strip (answered.map number) := by
  obtain ⟨id, content, body⟩ := m
  cases body with
  | human => rfl
  | system => rfl
  | tool => rfl
  | ai toolCalls =>
    have hcall : ∀ call ∈ toolCalls, decide ((threadCall number tool call).id ∉ answered.map number) =
        call.id.all (· ∉ answered) := by
      intro call hmem
      obtain ⟨callId, hcallId⟩ := Option.ne_none_iff_exists'.mp (hids call hmem)
      simp [threadCall, hcallId, hnumber.eq_iff]
    have hany : (toolCalls.map (threadCall number tool)).any (·.id ∉ answered.map number) =
        dangling answered ⟨id, content, .ai toolCalls⟩ := by
      rw [Bool.eq_iff_iff, List.any_map, dangling, Message.toolCalls, List.any_eq_true, List.any_eq_true]
      exact exists_congr fun call ↦ and_congr_right fun hmem ↦ by rw [← hcall call hmem, Function.comp_apply]
    have hstripped : (threadMessage number tool turn ⟨id, content, .ai toolCalls⟩).strip (answered.map number) =
        if dangling answered ⟨id, content, .ai toolCalls⟩ then .ai turn []
        else .ai turn (toolCalls.map (threadCall number tool)) := by
      rw [← hany]
      rfl
    rw [hstripped, strip]
    split_ifs <;> rfl

/-- The clean-up of a history is the one in the runs of its thread. -/
theorem cancel_thread (hnumber : Function.Injective number)
    (hids : ∀ m ∈ messages, ∀ call ∈ m.toolCalls, call.id ≠ none) :
    (messages.map (strip (answeredIds messages))).map (threadMessage number tool turn) =
      (messages.map (threadMessage number tool turn)).map
        (·.strip (ChatThreads.answeredIds (messages.map (threadMessage number tool turn)))) := by
  rw [answeredIds_thread, List.map_map, List.map_map]
  exact List.map_congr_left fun m hm ↦ threadMessage_strip tool turn hnumber (hids m hm)

end Threads

end TravelPlanner.CancelledCalls
