import TravelPlanner.JsonRoundTrip
import TravelPlanner.Lines

namespace TravelPlanner.EventStream

open JsonStrings JsonText JsonRoundTrip Lines

structure PayloadCodec (V : Type) where
  dumps : V → Text
  parse : Text → Option (Option V)
  IsObject : V → Prop
  parse_dumps : ∀ v, IsObject v → parse (dumps v) = some (some v)
  dumps_line : ∀ v, IsObject v → '\n' ∉ dumps v
  dumps_braces : ∀ v, IsObject v → ∃ body, dumps v = '{' :: (body ++ ['}'])

variable {V : Type} (codec : PayloadCodec V)

def dataPrefix : Text := ['d', 'a', 't', 'a', ':', ' ']

def doneMark : Text := ['[', 'D', 'O', 'N', 'E', ']']

def sse (payload : V) : Text := dataPrefix ++ codec.dumps payload ++ ['\n', '\n']

def body (payloads : List V) : Text := payloads.flatMap (sse codec) ++ (dataPrefix ++ doneMark ++ ['\n', '\n'])

def parseSSELine (line : Text) : Option V :=
  if dataPrefix.isPrefixOf line then
    let payload := trim (line.drop 6)
    if payload = doneMark then none else (codec.parse payload).join
  else none

/-- The loop over the chunks; what the last newline leaves over is carried to the
next chunk, and dropped at the end. -/
def readLoop (buffer : Text) : List Text → List V
  | [] => []
  | value :: chunks =>
    let lines := (buffer ++ value).splitOn '\n'
    lines.dropLast.filterMap (parseSSELine codec) ++ readLoop (lines.getLast?.getD []) chunks

def readSSEStream (responseBody : Option (List Text)) : List V :=
  match responseBody with
  | none => []
  | some chunks => readLoop codec [] chunks

/-- However a text is cut into chunks, the reader sees the lines of the whole text. -/
theorem readLoop_lines (buffer : Text) (chunks : List Text) (hbuffer : '\n' ∉ buffer) :
    readLoop codec buffer chunks =
      ((buffer ++ chunks.flatten).splitOn '\n').dropLast.filterMap (parseSSELine codec) := by
  induction chunks generalizing buffer with
  | nil => simp [readLoop, List.splitOn_eq_singleton hbuffer]
  | cons value chunks ih =>
    obtain ⟨lines, rest, hsplit, hrest, happend⟩ := splitOn_append '\n' (buffer ++ value) chunks.flatten
    have hlater := ih rest hrest
    simp only [readLoop, hsplit, List.dropLast_concat, List.getLast?_concat, Option.getD_some, hlater]
    rw [List.flatten_cons, ← List.append_assoc, happend, List.dropLast_append_of_ne_nil (List.splitOn_ne_nil _ _),
      List.filterMap_append]

theorem parse_event {p : V} (hp : codec.IsObject p) : parseSSELine codec (dataPrefix ++ codec.dumps p) = some p := by
  obtain ⟨inner, hshape⟩ := codec.dumps_braces p hp
  have hdone : codec.dumps p ≠ doneMark := by
    rw [hshape]
    simp [doneMark]
  have hprefix : dataPrefix.isPrefixOf (dataPrefix ++ codec.dumps p) = true :=
    List.isPrefixOf_iff_prefix.mpr (List.prefix_append _ _)
  have htrim : trim ((dataPrefix ++ codec.dumps p).drop 6) = codec.dumps p := by
    rw [show 6 = dataPrefix.length from rfl, List.drop_left, hshape, trim_braces]
  simp only [parseSSELine, hprefix, if_true, htrim, if_neg hdone, codec.parse_dumps p hp, Option.join_some]

def bodyLines (payloads : List V) : List Text :=
  payloads.flatMap (fun p ↦ [dataPrefix ++ codec.dumps p, []]) ++ [dataPrefix ++ doneMark, []]

theorem body_lines (payloads : List V) : body codec payloads = (bodyLines codec payloads).flatMap (· ++ ['\n']) := by
  induction payloads with
  | nil => rfl
  | cons p payloads ih =>
    simp only [body, bodyLines, List.flatMap_cons, List.flatMap_append, List.append_assoc] at ih ⊢
    rw [ih]
    simp [sse]

theorem bodyLines_line {payloads : List V} (h : ∀ p ∈ payloads, codec.IsObject p) :
    ∀ l ∈ bodyLines codec payloads, '\n' ∉ l := by
  have hmark : ∀ l ∈ [dataPrefix ++ doneMark, []], '\n' ∉ l := by decide
  have hevent : ∀ p ∈ payloads, '\n' ∉ dataPrefix ++ codec.dumps p := by
    intro p hp hmem
    rcases List.mem_append.mp hmem with hmem | hmem
    · exact absurd hmem (by decide)
    · exact codec.dumps_line p (h p hp) hmem
  intro l hl
  rcases List.mem_append.mp hl with hl | hl
  · obtain ⟨p, hp, hmem⟩ := List.mem_flatMap.mp hl
    rcases List.mem_pair.mp hmem with rfl | rfl
    · exact hevent p hp
    · simp
  · exact hmark l hl

theorem parse_bodyLines {payloads : List V} (h : ∀ p ∈ payloads, codec.IsObject p) :
    (bodyLines codec payloads).filterMap (parseSSELine codec) = payloads := by
  induction payloads with
  | nil => rfl
  | cons p payloads ih =>
    obtain ⟨hp, hrest⟩ := List.forall_mem_cons.mp h
    have hlater := ih hrest
    have hempty : parseSSELine codec [] = none := rfl
    simp only [bodyLines, List.flatMap_cons, List.cons_append, List.nil_append, List.filterMap_cons,
      parse_event codec hp, hempty] at hlater ⊢
    rw [hlater]

/-- The client reads exactly the events the server sent, whatever the chunks. -/
theorem read_body (payloads : List V) (chunks : List Text) (hobjects : ∀ p ∈ payloads, codec.IsObject p)
    (hcut : chunks.flatten = body codec payloads) : readSSEStream codec (some chunks) = payloads := by
  have hlines := splitOn_lines (bodyLines_line codec hobjects) []
  rw [List.append_nil, ← body_lines] at hlines
  rw [readSSEStream, readLoop_lines codec [] chunks (by simp), List.nil_append, hcut, hlines]
  rw [List.splitOn_nil, List.dropLast_concat, parse_bodyLines codec hobjects]

def jsonPayloads {F : Type} (ft : FloatText F) : PayloadCodec (Json F) where
  dumps := write ft ⟨true, true⟩
  parse := fun s ↦ (loads ft s).map fun j ↦
    match j with
    | .null => none
    | j => some j
  IsObject := fun j ↦ ∃ fields, j = .obj fields
  parse_dumps := by
    rintro _ ⟨fields, rfl⟩
    rw [loads_write]
    rfl
  dumps_line := fun j _ ↦ write_line ft ⟨true, true⟩ j
  dumps_braces := by
    rintro _ ⟨fields, rfl⟩
    obtain ⟨inner, hinner⟩ := series_close ⟨true, true⟩ '}' (writeFields ft ⟨true, true⟩ fields)
    exact ⟨inner, by rw [write, hinner]⟩

def noFloats : FloatText Empty := ⟨fun x ↦ x.elim, fun _ ↦ none, fun x ↦ x.elim, fun x ↦ x.elim⟩

def trickyEvent : Json Empty := .obj [("content", .str "data: [DONE]\n")]

def trickyBody : Text := body (jsonPayloads noFloats) [trickyEvent]

/-- Cut inside the prefix, inside the payload and between the two newlines. -/
def trickyChunks : List Text :=
  [trickyBody.take 3, (trickyBody.drop 3).take 30, [], (trickyBody.drop 33).take 3, trickyBody.drop 36]

theorem read_body_tricky : readSSEStream (jsonPayloads noFloats) (some trickyChunks) = [trickyEvent] :=
  read_body (jsonPayloads noFloats) [trickyEvent] trickyChunks (by simp [jsonPayloads, trickyEvent]) (by decide)

end TravelPlanner.EventStream
