import Mathlib.Data.List.Basic
import Mathlib.Tactic.NormNum

namespace TravelPlanner.JsonStrings

abbrev Text := List Char

structure Layout where
  ascii : Bool
  spaced : Bool
  deriving DecidableEq, Repr

def hex4 (n : ℕ) : Text :=
  [Nat.digitChar (n / 4096 % 16), Nat.digitChar (n / 256 % 16), Nat.digitChar (n / 16 % 16), Nat.digitChar (n % 16)]

def hexValue (c : Char) : Option ℕ :=
  if '0' ≤ c ∧ c ≤ '9' then some (c.toNat - 48)
  else if 'a' ≤ c ∧ c ≤ 'f' then some (c.toNat - 87)
  else if 'A' ≤ c ∧ c ≤ 'F' then some (c.toNat - 55)
  else none

def readHex4 : Text → Option (ℕ × Text)
  | a :: b :: c :: d :: rest => do
    let a ← hexValue a
    let b ← hexValue b
    let c ← hexValue c
    let d ← hexValue d
    return (((a * 16 + b) * 16 + c) * 16 + d, rest)
  | _ => none

def shortEscapes : List (Char × Char) :=
  [('"', '"'), ('\\', '\\'), ('\n', 'n'), ('\r', 'r'), ('\t', 't'), ('\x0c', 'f'), ('\x08', 'b')]

/-- A character beyond the basic plane is written as a pair of surrogates. -/
def unicodeEscape (n : ℕ) : Text :=
  if n < 0x10000 then '\\' :: 'u' :: hex4 n
  else
    '\\' :: 'u' :: hex4 (0xD800 + (n - 0x10000) / 1024) ++ '\\' :: 'u' :: hex4 (0xDC00 + (n - 0x10000) % 1024)

def escapeChar (ascii : Bool) (c : Char) : Text :=
  match shortEscapes.lookup c with
  | some e => ['\\', e]
  | none => if c.toNat < 0x20 ∨ ascii = true ∧ 0x7F ≤ c.toNat then unicodeEscape c.toNat else [c]

def escape (ascii : Bool) (s : Text) : Text := s.flatMap (escapeChar ascii)

def quoted (ascii : Bool) (s : String) : Text := '"' :: escape ascii s.toList ++ ['"']

def unescape (e : Char) : Option Char :=
  if e = '/' then some '/' else (shortEscapes.find? fun p ↦ p.2 == e).map Prod.fst

/-- A lone surrogate is no character. -/
def readUnicode (s : Text) : Option (Char × Text) := do
  let (hi, rest) ← readHex4 s
  if 0xD800 ≤ hi ∧ hi < 0xDC00 then
    match rest with
    | '\\' :: 'u' :: rest =>
      let (lo, rest) ← readHex4 rest
      if 0xDC00 ≤ lo ∧ lo < 0xE000 then
        some (Char.ofNat (0x10000 + (hi - 0xD800) * 1024 + (lo - 0xDC00)), rest)
      else none
    | _ => none
  else if 0xDC00 ≤ hi ∧ hi < 0xE000 then none
  else some (Char.ofNat hi, rest)

def readChar : Text → Option (Char × Text)
  | [] => none
  | c :: rest =>
    if c = '\\' then
      match rest with
      | [] => none
      | e :: rest => if e = 'u' then readUnicode rest else (unescape e).map (·, rest)
    else if c.toNat < 0x20 then none
    else some (c, rest)

/-- The text of a string up to its closing quote; each step reads a character, so
the length of the text is fuel enough. -/
def readChars : ℕ → Text → Option (Text × Text)
  | 0, _ => none
  | _ + 1, [] => none
  | n + 1, c :: rest =>
    if c = '"' then some ([], rest)
    else do
      let (c, rest) ← readChar (c :: rest)
      let (cs, rest) ← readChars n rest
      return (c :: cs, rest)

section RoundTrip

variable {ascii : Bool}

theorem hexValue_digitChar {n : ℕ} (h : n < 16) : hexValue (Nat.digitChar n) = some n := by
  have hall : ∀ i < 16, hexValue (Nat.digitChar i) = some i := by decide
  exact hall n h

theorem readHex4_hex4 {n : ℕ} (h : n < 0x10000) (rest : Text) : readHex4 (hex4 n ++ rest) = some (n, rest) := by
  have hsixteen : ∀ k, k % 16 < 16 := fun k ↦ Nat.mod_lt k (by decide)
  simp only [hex4, List.cons_append, List.nil_append, readHex4, hexValue_digitChar (hsixteen _),
    Option.bind_eq_bind, Option.bind_some, Option.pure_def, Option.some.injEq, Prod.mk.injEq, and_true]
  omega

theorem char_scalar (c : Char) : c.toNat < 0xD800 ∨ 0xDFFF < c.toNat ∧ c.toNat < 0x110000 := by
  have hvalid := c.valid
  simp only [UInt32.isValidChar, Nat.isValidChar] at hvalid
  simp only [Char.toNat]
  omega

theorem readUnicode_hex4 {n : ℕ} (hplane : n < 0x10000) (hscalar : n < 0xD800 ∨ 0xDFFF < n) (rest : Text) :
    readUnicode (hex4 n ++ rest) = some (Char.ofNat n, rest) := by
  have hlow : ¬(0xD800 ≤ n ∧ n < 0xDC00) := by omega
  have hhigh : ¬(0xDC00 ≤ n ∧ n < 0xE000) := by omega
  simp only [readUnicode, readHex4_hex4 hplane, Option.bind_eq_bind, Option.bind_some, if_neg hlow, if_neg hhigh]

theorem readUnicode_pair {hi lo : ℕ} (hhi : hi < 1024) (hlo : lo < 1024) (rest : Text) :
    readUnicode (hex4 (0xD800 + hi) ++ '\\' :: 'u' :: (hex4 (0xDC00 + lo) ++ rest)) =
      some (Char.ofNat (0x10000 + hi * 1024 + lo), rest) := by
  have hfirst : 0xD800 ≤ 0xD800 + hi ∧ 0xD800 + hi < 0xDC00 := by omega
  have hsecond : 0xDC00 ≤ 0xDC00 + lo ∧ 0xDC00 + lo < 0xE000 := by omega
  rw [readUnicode, readHex4_hex4 (by omega)]
  simp only [Option.bind_eq_bind, Option.bind_some, if_pos hfirst]
  rw [readHex4_hex4 (by omega)]
  simp only [Option.bind_some, if_pos hsecond, Nat.add_sub_cancel_left]

theorem readUnicode_unicodeEscape (c : Char) (rest : Text) :
    readUnicode ((unicodeEscape c.toNat).tail.tail ++ rest) = some (c, rest) := by
  have hc := char_scalar c
  by_cases hplane : c.toNat < 0x10000
  · rw [unicodeEscape, if_pos hplane, List.tail_cons, List.tail_cons, readUnicode_hex4 hplane (by omega),
      Char.ofNat_toNat]
  · have hsum : 0x10000 + (c.toNat - 0x10000) / 1024 * 1024 + (c.toNat - 0x10000) % 1024 = c.toNat := by omega
    rw [unicodeEscape, if_neg hplane, List.cons_append, List.cons_append, List.tail_cons, List.tail_cons,
      List.append_assoc, List.cons_append, List.cons_append, readUnicode_pair (by omega) (by omega), hsum,
      Char.ofNat_toNat]

theorem unicodeEscape_shape (n : ℕ) : unicodeEscape n = '\\' :: 'u' :: (unicodeEscape n).tail.tail := by
  unfold unicodeEscape
  split_ifs <;> rfl

theorem unescape_short {c e : Char} (h : shortEscapes.lookup c = some e) : e ≠ 'u' ∧ unescape e = some c := by
  have hall : ∀ p ∈ shortEscapes, p.2 ≠ 'u' ∧ unescape p.2 = some p.1 := by decide
  obtain ⟨l₁, l₂, hsplit, _⟩ := List.lookup_eq_some_iff.mp h
  refine hall (c, e) ?_
  rw [hsplit]
  exact List.mem_append_right l₁ List.mem_cons_self

theorem readChar_escapeChar (ascii : Bool) (c : Char) (rest : Text) :
    readChar (escapeChar ascii c ++ rest) = some (c, rest) := by
  unfold escapeChar
  cases hshort : shortEscapes.lookup c with
  | some e =>
    obtain ⟨hu, hback⟩ := unescape_short hshort
    simp only [List.cons_append, List.nil_append, readChar, if_true, if_neg hu, hback, Option.map_some]
  | none =>
    split_ifs with hescaped
    · rw [unicodeEscape_shape]
      simp only [List.cons_append, readChar, if_true, readUnicode_unicodeEscape]
    · have hslash : c ≠ '\\' := by
        rintro rfl
        simp [shortEscapes] at hshort
      have hprint : ¬c.toNat < 0x20 := fun h ↦ hescaped (.inl h)
      simp only [List.cons_append, List.nil_append, readChar, if_neg hslash, if_neg hprint]

theorem escapeChar_head (ascii : Bool) (c : Char) : ∃ d rest, escapeChar ascii c = d :: rest ∧ d ≠ '"' := by
  unfold escapeChar
  cases hshort : shortEscapes.lookup c with
  | some e => exact ⟨'\\', [e], rfl, by decide⟩
  | none =>
    dsimp only
    split_ifs with hescaped
    · exact ⟨'\\', _, unicodeEscape_shape c.toNat, by decide⟩
    · refine ⟨c, [], rfl, ?_⟩
      rintro rfl
      simp [shortEscapes] at hshort

theorem readChars_escape (s : Text) (rest : Text) {n : ℕ} (h : s.length < n) :
    readChars n (escape ascii s ++ '"' :: rest) = some (s, rest) := by
  induction s generalizing n with
  | nil =>
    obtain ⟨n, rfl⟩ := Nat.exists_eq_add_of_lt h
    simp [escape, readChars]
  | cons c s ih =>
    obtain ⟨n, rfl⟩ : ∃ k, n = k + 1 := ⟨n - 1, by omega⟩
    have hrest : readChars n (escape ascii s ++ '"' :: rest) = some (s, rest) := ih (by simpa using h)
    obtain ⟨d, ds, hshape, hquote⟩ := escapeChar_head ascii c
    have hread := readChar_escapeChar ascii c (escape ascii s ++ '"' :: rest)
    rw [hshape, List.cons_append] at hread
    simp only [escape, List.flatMap_cons, hshape, List.cons_append, List.append_assoc, readChars, if_neg hquote]
    rw [← escape, hread]
    simp only [Option.bind_eq_bind, Option.bind_some, hrest, Option.pure_def]

theorem escape_length (ascii : Bool) (s : Text) : s.length ≤ (escape ascii s).length := by
  induction s with
  | nil => rfl
  | cons c s ih =>
    obtain ⟨d, ds, hshape, _⟩ := escapeChar_head ascii c
    simp only [escape, List.flatMap_cons, hshape, List.length_append, List.length_cons] at ih ⊢
    omega

end RoundTrip

end TravelPlanner.JsonStrings
