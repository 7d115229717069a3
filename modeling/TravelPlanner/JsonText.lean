import TravelPlanner.JsonStrings

namespace TravelPlanner.JsonText

open JsonStrings

/-- A JSON value. An object is its list of members; what a duplicated key means is
left to whoever looks it up. -/
inductive Json (F : Type)
  | null
  | bool (b : Bool)
  | int (n : ℤ)
  | float (x : F)
  | str (s : String)
  | arr (items : List (Json F))
  | obj (fields : List (String × Json F))

variable {F α : Type}

theorem Json.ind {P : Json F → Prop} (null : P .null) (bool : ∀ b, P (.bool b)) (int : ∀ n, P (.int n))
    (float : ∀ x, P (.float x)) (str : ∀ s, P (.str s)) (arr : ∀ items, (∀ v ∈ items, P v) → P (.arr items))
    (obj : ∀ fields, (∀ f ∈ fields, P f.2) → P (.obj fields)) (j : Json F) : P j :=
  @Json.rec F P (fun items ↦ ∀ v ∈ items, P v) (fun fields ↦ ∀ f ∈ fields, P f.2) (fun f ↦ P f.2)
    null bool int float str arr obj (by simp) (fun _ _ hv hitems ↦ List.forall_mem_cons.mpr ⟨hv, hitems⟩)
    (by simp) (fun _ _ hf hfields ↦ List.forall_mem_cons.mpr ⟨hf, hfields⟩) (fun _ _ hv ↦ hv) j

def isSpace (c : Char) : Bool := c = ' ' || c = '\t' || c = '\n' || c = '\r'

def skipSpace (s : Text) : Text := s.dropWhile isSpace

section Numbers

def lexNat : Text → Option (Text × Text)
  | [] => none
  | c :: s =>
    if c = '0' then some (['0'], s)
    else if c.isDigit then some (c :: s.takeWhile Char.isDigit, s.dropWhile Char.isDigit)
    else none

def lexInt : Text → Option (Text × Text)
  | [] => none
  | c :: s => if c = '-' then (lexNat s).map fun r ↦ ('-' :: r.1, r.2) else lexNat (c :: s)

def lexFraction : Text → Text × Text
  | [] => ([], [])
  | c :: s =>
    if c = '.' ∧ s.takeWhile Char.isDigit ≠ [] then (c :: s.takeWhile Char.isDigit, s.dropWhile Char.isDigit)
    else ([], c :: s)

def lexSign : Text → Text × Text
  | [] => ([], [])
  | c :: s => if c = '+' ∨ c = '-' then ([c], s) else ([], c :: s)

def lexExponent : Text → Text × Text
  | [] => ([], [])
  | c :: s =>
    if (c = 'e' ∨ c = 'E') ∧ (lexSign s).2.takeWhile Char.isDigit ≠ [] then
      (c :: (lexSign s).1 ++ (lexSign s).2.takeWhile Char.isDigit, (lexSign s).2.dropWhile Char.isDigit)
    else ([], c :: s)

/-- The longest number at the head of a text: its integer part, the rest of its
digits, and what follows it. -/
def lexNumber (s : Text) : Option (Text × Text × Text) := do
  let (int, s) ← lexInt s
  let fraction := lexFraction s
  let exponent := lexExponent fraction.2
  return (int, fraction.1 ++ exponent.1, exponent.2)

def intText : ℤ → Text
  | .ofNat n => Nat.toDigits 10 n
  | .negSucc n => '-' :: Nat.toDigits 10 (n + 1)

def intValue : Text → ℤ
  | [] => 0
  | c :: s => if c = '-' then -(Nat.ofDigitChars 10 s 0 : ℤ) else (Nat.ofDigitChars 10 (c :: s) 0 : ℤ)

structure FloatText (F : Type) where
  write : F → Text
  read : Text → Option F
  read_write : ∀ x, read (write x) = some x
  lexed : ∀ x, ∃ int tail, tail ≠ [] ∧ write x = int ++ tail ∧ lexNumber (write x) = some (int, tail, [])

end Numbers

section Writer

variable (ft : FloatText F) (layout : Layout)

def blank : Text := if layout.spaced then [' '] else []

def seriesTail (close : Char) : List Text → Text
  | [] => [close]
  | t :: ts => ',' :: blank layout ++ t ++ seriesTail close ts

def series (close : Char) : List Text → Text
  | [] => [close]
  | t :: ts => t ++ seriesTail layout close ts

mutual

def write : Json F → Text
  | .null => ['n', 'u', 'l', 'l']
  | .bool true => ['t', 'r', 'u', 'e']
  | .bool false => ['f', 'a', 'l', 's', 'e']
  | .int n => intText n
  | .float x => ft.write x
  | .str s => quoted layout.ascii s
  | .arr items => '[' :: series layout ']' (writeItems items)
  | .obj fields => '{' :: series layout '}' (writeFields fields)

def writeItems : List (Json F) → List Text
  | [] => []
  | v :: items => write v :: writeItems items

def writeFields : List (String × Json F) → List Text
  | [] => []
  | (k, v) :: fields => (quoted layout.ascii k ++ ':' :: blank layout ++ write v) :: writeFields fields

end

def writeField (f : String × Json F) : Text :=
  quoted layout.ascii f.1 ++ ':' :: blank layout ++ write ft layout f.2

theorem writeItems_eq (items : List (Json F)) : writeItems ft layout items = items.map (write ft layout) := by
  induction items with
  | nil => rfl
  | cons v items ih => rw [writeItems, ih, List.map_cons]

theorem writeFields_eq (fields : List (String × Json F)) :
    writeFields ft layout fields = fields.map (writeField ft layout) := by
  induction fields with
  | nil => rfl
  | cons f fields ih => rw [writeFields, ih, List.map_cons, writeField]

end Writer

section Reader

variable (ft : FloatText F)

def readNumber (s : Text) : Option (Json F × Text) := do
  let (int, tail, rest) ← lexNumber s
  if tail = [] then some (.int (intValue int), rest) else (ft.read (int ++ tail)).map fun x ↦ (.float x, rest)

def readWord (word : Text) (v : Json F) (s : Text) : Option (Json F × Text) :=
  if word.isPrefixOf s then some (v, s.drop word.length) else none

def readString (s : Text) : Option (String × Text) :=
  (readChars s.length s).map fun r ↦ (String.ofList r.1, r.2)

/-- Elements up to the closing bracket. Each one takes a character, so the length
of the text is fuel enough. -/
def readSeries (close : Char) (item : Text → Option (α × Text)) : ℕ → Text → Option (List α × Text)
  | 0, _ => none
  | n + 1, s => do
    let (x, s) ← item s
    match skipSpace s with
    | [] => none
    | c :: s =>
      if c = ',' then do
        let (xs, s) ← readSeries close item n (skipSpace s)
        return (x :: xs, s)
      else if c = close then some ([x], s)
      else none

def readSequence (close : Char) (item : Text → Option (α × Text)) (s : Text) : Option (List α × Text) :=
  match skipSpace s with
  | [] => none
  | c :: rest => if c = close then some ([], rest) else readSeries close item (c :: rest).length (c :: rest)

def readField (value : Text → Option (Json F × Text)) : Text → Option ((String × Json F) × Text)
  | [] => none
  | c :: s =>
    if c = '"' then do
      let (k, s) ← readString s
      match skipSpace s with
      | [] => none
      | c :: s =>
        if c = ':' then do
          let (v, s) ← value (skipSpace s)
          return ((k, v), s)
        else none
    else none

/-- A value and what follows it, for values nested less deep than the fuel. -/
def readValue : ℕ → Text → Option (Json F × Text)
  | 0, _ => none
  | _ + 1, [] => none
  | n + 1, c :: s =>
    if c = '"' then (readString s).map fun r ↦ (.str r.1, r.2)
    else if c = '[' then (readSequence ']' (readValue n) s).map fun r ↦ (.arr r.1, r.2)
    else if c = '{' then (readSequence '}' (readField (readValue n)) s).map fun r ↦ (.obj r.1, r.2)
    else if c = 'n' then readWord ['n', 'u', 'l', 'l'] .null (c :: s)
    else if c = 't' then readWord ['t', 'r', 'u', 'e'] (.bool true) (c :: s)
    else if c = 'f' then readWord ['f', 'a', 'l', 's', 'e'] (.bool false) (c :: s)
    else readNumber ft (c :: s)

def loads (s : Text) : Option (Json F) := do
  let (v, rest) ← readValue ft (s.length + 1) (skipSpace s)
  if skipSpace rest = [] then some v else none

end Reader

end TravelPlanner.JsonText
