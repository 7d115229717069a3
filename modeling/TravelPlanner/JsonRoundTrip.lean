import Mathlib.Data.List.TakeWhile
import TravelPlanner.JsonText

namespace TravelPlanner.JsonRoundTrip

open JsonStrings JsonText

variable {F α : Type}

def numberChar (c : Char) : Bool :=
  c.isDigit || c = '.' || c = 'e' || c = 'E' || c = '+' || c = '-'

def Stops (rest : Text) : Prop := ∀ c ∈ rest.head?, numberChar c = false

/-- A text at whose head a value may begin. -/
def Opens (s : Text) : Prop := ∃ c cs, s = c :: cs ∧ isSpace c = false ∧ c ≠ ']' ∧ c ≠ '}'

section Numbers

variable {rest : Text}

theorem stops_nil : Stops [] := by simp [Stops]

theorem stops_cons {c : Char} (h : numberChar c = false) (s : Text) : Stops (c :: s) := by
  simpa [Stops] using h

theorem Stops.digit (h : Stops rest) : ∀ c ∈ rest.head?, c.isDigit = false := by
  intro c hc
  have hnot := h c hc
  simp only [numberChar, Bool.or_eq_false_iff] at hnot
  exact hnot.1.1.1.1.1

theorem takeWhile_stop (h : ∀ c ∈ rest.head?, c.isDigit = false) (s : Text) :
    (s ++ rest).takeWhile Char.isDigit = s.takeWhile Char.isDigit := by
  induction s with
  | nil =>
    cases rest with
    | nil => rfl
    | cons c rest => simp [List.takeWhile, h c rfl]
  | cons c s ih => by_cases hc : c.isDigit <;> simp [hc, ih]

theorem dropWhile_stop (h : ∀ c ∈ rest.head?, c.isDigit = false) (s : Text) :
    (s ++ rest).dropWhile Char.isDigit = s.dropWhile Char.isDigit ++ rest := by
  induction s with
  | nil =>
    cases rest with
    | nil => rfl
    | cons c rest => simp [List.dropWhile, h c rfl]
  | cons c s ih => by_cases hc : c.isDigit <;> simp [hc, ih]

theorem lexNat_append (h : ∀ c ∈ rest.head?, c.isDigit = false) {s t r : Text} (hs : lexNat s = some (t, r)) :
    lexNat (s ++ rest) = some (t, r ++ rest) := by
  cases s with
  | nil => simp [lexNat] at hs
  | cons c s =>
    simp only [List.cons_append, lexNat] at hs ⊢
    split_ifs at hs ⊢
    · obtain ⟨rfl, rfl⟩ := Prod.mk.inj (Option.some.inj hs)
      rfl
    · obtain ⟨rfl, rfl⟩ := Prod.mk.inj (Option.some.inj hs)
      rw [takeWhile_stop h, dropWhile_stop h]

theorem lexInt_append (h : ∀ c ∈ rest.head?, c.isDigit = false) {s t r : Text} (hs : lexInt s = some (t, r)) :
    lexInt (s ++ rest) = some (t, r ++ rest) := by
  cases s with
  | nil => simp [lexInt] at hs
  | cons c s =>
    simp only [List.cons_append, lexInt] at hs ⊢
    split_ifs at hs ⊢
    · obtain ⟨⟨t', r'⟩, hnat, heq⟩ := Option.map_eq_some_iff.mp hs
      obtain ⟨rfl, rfl⟩ := Prod.mk.inj heq
      rw [lexNat_append h hnat, Option.map_some]
    · exact lexNat_append h hs

theorem lexFraction_append (h : Stops rest) (s : Text) :
    lexFraction (s ++ rest) = ((lexFraction s).1, (lexFraction s).2 ++ rest) := by
  cases s with
  | nil =>
    cases rest with
    | nil => rfl
    | cons c rest =>
      have hdot : c ≠ '.' := by
        rintro rfl
        exact absurd (h '.' rfl) (by decide)
      simp [lexFraction, hdot]
  | cons c s =>
    simp only [List.cons_append, lexFraction, takeWhile_stop h.digit, dropWhile_stop h.digit]
    split_ifs <;> rfl

theorem lexSign_append (h : Stops rest) (s : Text) :
    lexSign (s ++ rest) = ((lexSign s).1, (lexSign s).2 ++ rest) := by
  cases s with
  | nil =>
    cases rest with
    | nil => rfl
    | cons c rest =>
      have hsign : ¬(c = '+' ∨ c = '-') := by
        rintro (rfl | rfl)
        · exact absurd (h '+' rfl) (by decide)
        · exact absurd (h '-' rfl) (by decide)
      simp only [List.nil_append, lexSign, if_neg hsign]
  | cons c s =>
    simp only [List.cons_append, lexSign]
    split_ifs <;> rfl

theorem lexExponent_append (h : Stops rest) (s : Text) :
    lexExponent (s ++ rest) = ((lexExponent s).1, (lexExponent s).2 ++ rest) := by
  cases s with
  | nil =>
    cases rest with
    | nil => rfl
    | cons c rest =>
      have he : ¬(c = 'e' ∨ c = 'E') := by
        rintro (rfl | rfl)
        · exact absurd (h 'e' rfl) (by decide)
        · exact absurd (h 'E' rfl) (by decide)
      simp only [List.nil_append, lexExponent, he, false_and, if_false]
  | cons c s =>
    simp only [List.cons_append, lexExponent, lexSign_append h, takeWhile_stop h.digit, dropWhile_stop h.digit]
    split_ifs <;> rfl

/-- What cannot prolong a number does not change how it is read. -/
theorem lexNumber_append (h : Stops rest) {s t u r : Text} (hs : lexNumber s = some (t, u, r)) :
    lexNumber (s ++ rest) = some (t, u, r ++ rest) := by
  simp only [lexNumber, Option.bind_eq_bind, Option.bind_eq_some_iff] at hs
  obtain ⟨⟨int, s'⟩, hint, heq⟩ := hs
  simp only [Option.pure_def, Option.some.injEq, Prod.mk.injEq] at heq
  obtain ⟨rfl, rfl, rfl⟩ := heq
  simp only [lexNumber, lexInt_append h.digit hint, Option.bind_eq_bind, Option.bind_some, lexFraction_append h,
    lexExponent_append h, Option.pure_def]

theorem toDigits_isDigit {n : ℕ} {c : Char} (hc : c ∈ Nat.toDigits 10 n) : c.isDigit = true :=
  Nat.isDigit_of_mem_toDigits (by decide) (by decide) hc

theorem toDigits_cons (n : ℕ) : ∃ c cs, Nat.toDigits 10 n = c :: cs ∧ (c = '0' → cs = []) := by
  induction n using Nat.strong_induction_on with
  | h n ih =>
    rcases Nat.lt_or_ge n 10 with hlt | hge
    · exact ⟨Nat.digitChar n, [], Nat.toDigits_of_lt_base hlt, fun _ ↦ rfl⟩
    · obtain ⟨c, cs, hshape, hzero⟩ := ih (n / 10) (by omega)
      refine ⟨c, cs ++ [Nat.digitChar (n % 10)], ?_, fun hc ↦ ?_⟩
      · rw [Nat.toDigits_of_base_le (by decide) hge, hshape, List.cons_append]
      · have hvalue := Nat.ofDigitChars_ten_toDigits (n := n / 10)
        rw [hshape, hc, hzero hc] at hvalue
        have hnone : n / 10 = 0 := hvalue.symm.trans rfl
        omega

theorem lexNat_toDigits (n : ℕ) : lexNat (Nat.toDigits 10 n) = some (Nat.toDigits 10 n, []) := by
  obtain ⟨c, cs, hshape, hzero⟩ := toDigits_cons n
  have hall : ∀ d ∈ c :: cs, d.isDigit = true := fun d hd ↦ toDigits_isDigit (hshape ▸ hd)
  rw [hshape, lexNat]
  split_ifs with hc hdigit
  · rw [hc, hzero hc]
  · have hrest : ∀ d ∈ cs, d.isDigit = true := fun d hd ↦ hall d (List.mem_cons_of_mem c hd)
    rw [List.takeWhile_eq_self_iff.mpr hrest, List.dropWhile_eq_nil_iff.mpr hrest]
  · exact absurd (hall c List.mem_cons_self) hdigit

theorem toDigits_ne_minus (n : ℕ) : ∃ c cs, Nat.toDigits 10 n = c :: cs ∧ c.isDigit = true ∧ c ≠ '-' := by
  obtain ⟨c, cs, hshape, _⟩ := toDigits_cons n
  have hdigit : c.isDigit = true := toDigits_isDigit (hshape ▸ List.mem_cons_self)
  refine ⟨c, cs, hshape, hdigit, ?_⟩
  rintro rfl
  exact absurd hdigit (by decide)

theorem lexInt_intText (n : ℤ) : lexInt (intText n) = some (intText n, []) := by
  cases n with
  | ofNat n =>
    obtain ⟨c, cs, hshape, _, hminus⟩ := toDigits_ne_minus n
    rw [intText, hshape, lexInt, if_neg hminus, ← hshape, lexNat_toDigits]
  | negSucc n => rw [intText, lexInt, if_pos rfl, lexNat_toDigits, Option.map_some]

theorem lexNumber_intText (n : ℤ) : lexNumber (intText n) = some (intText n, [], []) := by
  rw [lexNumber, lexInt_intText]
  rfl

theorem intValue_intText (n : ℤ) : intValue (intText n) = n := by
  cases n with
  | ofNat n =>
    obtain ⟨c, cs, hshape, _, hminus⟩ := toDigits_ne_minus n
    rw [intText, hshape, intValue, if_neg hminus, ← hshape, Nat.ofDigitChars_ten_toDigits]
    rfl
  | negSucc n =>
    rw [intText, intValue, if_pos rfl, Nat.ofDigitChars_ten_toDigits]
    rfl

end Numbers

section Series

variable (layout : Layout) {rest : Text}

theorem skipSpace_cons {c : Char} (h : isSpace c = false) (s : Text) : skipSpace (c :: s) = c :: s := by
  rw [skipSpace, List.dropWhile_cons_of_neg (by simp [h])]

theorem Opens.skipSpace {s : Text} (h : Opens s) (rest : Text) :
    JsonText.skipSpace (blank layout ++ (s ++ rest)) = s ++ rest := by
  obtain ⟨c, cs, rfl, hc, -⟩ := h
  unfold blank
  split_ifs
  · rw [List.singleton_append, JsonText.skipSpace, List.dropWhile_cons_of_pos (by decide)]
    exact skipSpace_cons hc _
  · exact skipSpace_cons hc _

structure Closes (close : Char) : Prop where
  stops : numberChar close = false
  solid : isSpace close = false
  comma : close ≠ ','
  opens : ∀ s, Opens s → s.head? ≠ some close

theorem closes_bracket : Closes ']' :=
  ⟨by decide, by decide, by decide, fun s ⟨c, cs, hs, _, hc, _⟩ ↦ by simpa [hs] using hc⟩

theorem closes_brace : Closes '}' :=
  ⟨by decide, by decide, by decide, fun s ⟨c, cs, hs, _, _, hc⟩ ↦ by simpa [hs] using hc⟩

variable {close : Char} {item : Text → Option (α × Text)} {text : α → Text}

theorem seriesTail_stops (hclose : Closes close) (ts : List Text) (rest : Text) :
    Stops (seriesTail layout close ts ++ rest) := by
  cases ts with
  | nil => exact stops_cons hclose.stops rest
  | cons t ts => exact stops_cons (by decide) _

theorem readSeries_series (rest : Text) (hclose : Closes close) (x : α) (l : List α) {n : ℕ} (hn : l.length < n)
    (hopens : ∀ y ∈ l, Opens (text y))
    (hitem : ∀ y ∈ x :: l, ∀ rest, Stops rest → item (text y ++ rest) = some (y, rest)) :
    readSeries close item n (text x ++ (seriesTail layout close (l.map text) ++ rest)) = some (x :: l, rest) := by
  induction l generalizing x n with
  | nil =>
    obtain ⟨n, rfl⟩ : ∃ k, n = k + 1 := ⟨n - 1, by omega⟩
    have hread := hitem x List.mem_cons_self (close :: rest) (stops_cons hclose.stops rest)
    rw [List.map_nil, seriesTail, List.singleton_append, readSeries, hread]
    simp only [Option.bind_eq_bind, Option.bind_some, skipSpace_cons hclose.solid, if_neg hclose.comma, if_true]
  | cons y l ih =>
    obtain ⟨n, rfl⟩ : ∃ k, n = k + 1 := ⟨n - 1, by omega⟩
    have hread := hitem x List.mem_cons_self _ (seriesTail_stops layout hclose ((y :: l).map text) rest)
    have hrest := ih y (by simpa using hn) (fun z hz ↦ hopens z (List.mem_cons_of_mem y hz))
      (fun z hz ↦ hitem z (List.mem_cons_of_mem x hz))
    have hskip := (hopens y List.mem_cons_self).skipSpace layout
      (seriesTail layout close (l.map text) ++ rest)
    rw [readSeries, hread]
    simp only [List.map_cons, seriesTail, List.cons_append, List.append_assoc, Option.bind_eq_bind, Option.bind_some,
      skipSpace_cons (show isSpace ',' = false by decide), if_true, hskip, hrest, Option.pure_def]

theorem seriesTail_length (close : Char) (ts : List Text) : ts.length < (seriesTail layout close ts).length := by
  induction ts with
  | nil => exact Nat.one_pos
  | cons t ts ih =>
    simp only [seriesTail, List.length_cons, List.length_append]
    omega

/-- What a writer puts between brackets is read back, element by element. -/
theorem readSequence_series (hclose : Closes close) (l : List α) (rest : Text) (hopens : ∀ y ∈ l, Opens (text y))
    (hitem : ∀ y ∈ l, ∀ rest, Stops rest → item (text y ++ rest) = some (y, rest)) :
    readSequence close item (series layout close (l.map text) ++ rest) = some (l, rest) := by
  cases l with
  | nil =>
    simp only [List.map_nil, series, List.singleton_append, readSequence, skipSpace_cons hclose.solid, if_true]
  | cons x l =>
    have hx := hopens x List.mem_cons_self
    have hhead := hclose.opens (text x) hx
    obtain ⟨c, cs, hshape, hsolid, _⟩ := hx
    have hc : c ≠ close := by
      rw [hshape] at hhead
      simpa using hhead
    have hfuel : l.length < (c :: (cs ++ (seriesTail layout close (l.map text) ++ rest))).length := by
      have hlength := seriesTail_length layout close (l.map text)
      simp only [List.length_map, List.length_cons, List.length_append] at hlength ⊢
      omega
    have hread := readSeries_series layout rest hclose x l hfuel
      (fun y hy ↦ hopens y (List.mem_cons_of_mem x hy)) hitem
    rw [hshape, List.cons_append] at hread
    simp only [List.map_cons, series, hshape, List.cons_append, List.append_assoc, readSequence,
      skipSpace_cons hsolid, if_neg hc]
    exact hread

theorem series_close (close : Char) (ts : List Text) : ∃ body, series layout close ts = body ++ [close] := by
  have htail : ∀ ts : List Text, ∃ body, seriesTail layout close ts = body ++ [close] := by
    intro ts
    induction ts with
    | nil => exact ⟨[], rfl⟩
    | cons t ts ih =>
      obtain ⟨body, hbody⟩ := ih
      exact ⟨',' :: blank layout ++ t ++ body, by rw [seriesTail, hbody]; simp⟩
  cases ts with
  | nil => exact ⟨[], rfl⟩
  | cons t ts =>
    obtain ⟨body, hbody⟩ := htail ts
    exact ⟨t ++ body, by rw [series, hbody, List.append_assoc]⟩

end Series

section Values

variable (ft : FloatText F) (layout : Layout)

theorem readString_escape (s : String) (rest : Text) :
    readString (escape layout.ascii s.toList ++ '"' :: rest) = some (s, rest) := by
  have hfuel : s.toList.length < (escape layout.ascii s.toList ++ '"' :: rest).length := by
    have hlength := escape_length layout.ascii s.toList
    simp only [List.length_append, List.length_cons]
    omega
  rw [readString, readChars_escape s.toList rest hfuel, Option.map_some, String.ofList_toList]

theorem opens_of_digit {c : Char} (h : c = '-' ∨ c.isDigit = true) (s : Text) : Opens (c :: s) := by
  refine ⟨c, s, rfl, ?_⟩
  rcases h with rfl | h
  · decide
  · refine ⟨?_, ?_, ?_⟩
    · by_contra hspace
      simp only [isSpace, Bool.or_eq_true, decide_eq_true_eq, Bool.not_eq_false] at hspace
      rcases hspace with ((rfl | rfl) | rfl) | rfl <;> exact absurd h (by decide)
    · rintro rfl
      exact absurd h (by decide)
    · rintro rfl
      exact absurd h (by decide)

theorem lexNumber_head {s t u r : Text} (h : lexNumber s = some (t, u, r)) :
    ∃ c cs, s = c :: cs ∧ (c = '-' ∨ c.isDigit = true) := by
  cases s with
  | nil => simp [lexNumber, lexInt] at h
  | cons c cs =>
    refine ⟨c, cs, rfl, ?_⟩
    by_contra hnot
    rw [not_or] at hnot
    have hzero : c ≠ '0' := by
      rintro rfl
      exact hnot.2 (by decide)
    simp [lexNumber, lexInt, lexNat, if_neg hnot.1, hzero, hnot.2] at h

theorem write_opens (j : Json F) : Opens (write ft layout j) := by
  cases j with
  | null => exact ⟨'n', _, rfl, by decide⟩
  | bool b => cases b <;> exact ⟨_, _, rfl, by decide⟩
  | int n =>
    obtain ⟨c, cs, hshape, hc⟩ := lexNumber_head (lexNumber_intText n)
    rw [write, hshape]
    exact opens_of_digit hc cs
  | float x =>
    obtain ⟨int, tail, _, _, hlexed⟩ := ft.lexed x
    obtain ⟨c, cs, hshape, hc⟩ := lexNumber_head hlexed
    rw [write, hshape]
    exact opens_of_digit hc cs
  | str s => exact ⟨'"', _, rfl, by decide⟩
  | arr items => exact ⟨'[', _, rfl, by decide⟩
  | obj fields => exact ⟨'{', _, rfl, by decide⟩

/-- A text that begins like a number is read as one. -/
theorem readValue_number {s t u r : Text} (n : ℕ) (h : lexNumber s = some (t, u, r)) :
    readValue ft (n + 1) s = readNumber ft s := by
  obtain ⟨c, cs, rfl, hc⟩ := lexNumber_head h
  have hne : ∀ d : Char, d ≠ '-' → d.isDigit = false → c ≠ d := by
    rintro d hminus hdigit rfl
    rcases hc with hc | hc
    · exact hminus hc
    · rw [hdigit] at hc
      cases hc
  rw [readValue, if_neg (hne '"' (by decide) (by decide)), if_neg (hne '[' (by decide) (by decide)),
    if_neg (hne '{' (by decide) (by decide)), if_neg (hne 'n' (by decide) (by decide)),
    if_neg (hne 't' (by decide) (by decide)), if_neg (hne 'f' (by decide) (by decide))]

theorem readField_write {value : Text → Option (Json F × Text)} (f : String × Json F) (rest : Text)
    (hvalue : value (write ft layout f.2 ++ rest) = some (f.2, rest)) :
    readField value (writeField ft layout f ++ rest) = some (f, rest) := by
  have hcolon : isSpace ':' = false := by decide
  simp only [writeField, quoted, List.cons_append, List.append_assoc, List.nil_append, readField, if_true,
    readString_escape, Option.bind_eq_bind, Option.bind_some, skipSpace_cons hcolon,
    (write_opens ft layout f.2).skipSpace layout,
    hvalue, Option.pure_def]

theorem writeField_opens (f : String × Json F) : Opens (writeField ft layout f) :=
  ⟨'"', _, rfl, by decide⟩

theorem readWord_append (word : Text) (v : Json F) (rest : Text) : readWord word v (word ++ rest) = some (v, rest) := by
  rw [readWord, if_pos (List.isPrefixOf_iff_prefix.mpr (List.prefix_append word rest)), List.drop_left]

theorem seriesTail_mem_length {t : Text} {ts : List Text} (close : Char) (h : t ∈ ts) :
    t.length ≤ (seriesTail layout close ts).length := by
  induction ts with
  | nil => simp at h
  | cons u ts ih =>
    simp only [seriesTail, List.length_cons, List.length_append]
    rcases List.mem_cons.mp h with rfl | h
    · omega
    · have := ih h
      omega

theorem series_mem_length {t : Text} {ts : List Text} (close : Char) (h : t ∈ ts) :
    t.length ≤ (series layout close ts).length := by
  cases ts with
  | nil => simp at h
  | cons u ts =>
    rw [series, List.length_append]
    rcases List.mem_cons.mp h with rfl | h
    · omega
    · have := seriesTail_mem_length layout close h
      omega

theorem readValue_write (j : Json F) : ∀ (n : ℕ) (rest : Text), (write ft layout j).length ≤ n → Stops rest →
    readValue ft n (write ft layout j ++ rest) = some (j, rest) := by
  have hpos : ∀ (j : Json F) (n : ℕ), (write ft layout j).length ≤ n → ∃ m, n = m + 1 := by
    intro j n hn
    obtain ⟨c, cs, hshape, _⟩ := write_opens ft layout j
    rw [hshape, List.length_cons] at hn
    exact ⟨n - 1, by omega⟩
  induction j using Json.ind with
  | null =>
    intro n rest hn _
    obtain ⟨n, rfl⟩ := hpos _ n hn
    exact readWord_append ['n', 'u', 'l', 'l'] .null rest
  | bool b =>
    intro n rest hn _
    obtain ⟨n, rfl⟩ := hpos _ n hn
    cases b with
    | true => exact readWord_append ['t', 'r', 'u', 'e'] (.bool true) rest
    | false => exact readWord_append ['f', 'a', 'l', 's', 'e'] (.bool false) rest
  | int i =>
    intro n rest hn hrest
    obtain ⟨n, rfl⟩ := hpos _ n hn
    have hlexed := lexNumber_append hrest (lexNumber_intText i)
    rw [write, readValue_number ft n hlexed, readNumber, hlexed]
    simp only [Option.bind_eq_bind, Option.bind_some, if_true, intValue_intText, List.nil_append]
  | float x =>
    intro n rest hn hrest
    obtain ⟨n, rfl⟩ := hpos _ n hn
    obtain ⟨int, tail, htail, hshape, hlexed⟩ := ft.lexed x
    have happend := lexNumber_append hrest hlexed
    rw [write, readValue_number ft n happend, readNumber, happend]
    simp only [Option.bind_eq_bind, Option.bind_some, if_neg htail, ← hshape, ft.read_write, Option.map_some,
      List.nil_append]
  | str s =>
    intro n rest hn _
    obtain ⟨n, rfl⟩ := hpos _ n hn
    simp only [write, quoted, List.cons_append, List.append_assoc, List.nil_append, readValue, if_true,
      readString_escape, Option.map_some]
  | arr items ih =>
    intro n rest hn _
    obtain ⟨n, rfl⟩ := hpos _ n hn
    have hread : readSequence ']' (readValue ft n)
        (series layout ']' (items.map (write ft layout)) ++ rest) = some (items, rest) := by
      refine readSequence_series layout closes_bracket items rest (fun v _ ↦ write_opens ft layout v) ?_
      intro v hv rest hrest
      refine ih v hv n rest ?_ hrest
      have hlength := series_mem_length layout ']' (List.mem_map_of_mem (f := write ft layout) hv)
      rw [write, writeItems_eq, List.length_cons] at hn
      omega
    simp only [write, writeItems_eq, List.cons_append, readValue, show ('[' : Char) ≠ '"' by decide, if_false, if_true,
      hread, Option.map_some]
  | obj fields ih =>
    intro n rest hn _
    obtain ⟨n, rfl⟩ := hpos _ n hn
    have hread : readSequence '}' (readField (readValue ft n))
        (series layout '}' (fields.map (writeField ft layout)) ++ rest) = some (fields, rest) := by
      refine readSequence_series layout closes_brace fields rest (fun f _ ↦ writeField_opens ft layout f) ?_
      intro f hf rest hrest
      refine readField_write ft layout f rest (ih f hf n rest ?_ hrest)
      have hlength := series_mem_length layout '}' (List.mem_map_of_mem (f := writeField ft layout) hf)
      have hmember : (write ft layout f.2).length ≤ (writeField ft layout f).length := by
        rw [writeField, List.length_append]
        omega
      rw [write, writeFields_eq, List.length_cons] at hn
      omega
    simp only [write, writeFields_eq, List.cons_append, readValue, show ('{' : Char) ≠ '"' by decide,
      show ('{' : Char) ≠ '[' by decide, if_false, if_true, hread, Option.map_some]

/-- Whatever its layout, a written value is read back. -/
theorem loads_write (j : Json F) : loads ft (write ft layout j) = some j := by
  have hskip : skipSpace (write ft layout j) = write ft layout j := by
    obtain ⟨c, cs, hshape, hc, _⟩ := write_opens ft layout j
    rw [hshape, skipSpace_cons hc]
  have hread := readValue_write ft layout j ((write ft layout j).length + 1) []
    (Nat.le_succ _) stops_nil
  rw [List.append_nil] at hread
  rw [loads, hskip, hread]
  rfl

end Values

section OneLine

variable (ft : FloatText F) (layout : Layout)

theorem takeWhile_digits (s : Text) : '\n' ∉ s.takeWhile Char.isDigit := fun h ↦
  absurd (List.mem_takeWhile_imp h) (by decide)

theorem lexNat_line {s t r : Text} (h : lexNat s = some (t, r)) : '\n' ∉ t := by
  cases s with
  | nil => simp [lexNat] at h
  | cons c s =>
    simp only [lexNat] at h
    split_ifs at h with hzero hdigit
    · obtain ⟨rfl, -⟩ := Prod.mk.inj (Option.some.inj h)
      decide
    · obtain ⟨rfl, -⟩ := Prod.mk.inj (Option.some.inj h)
      rw [List.mem_cons, not_or]
      refine ⟨?_, takeWhile_digits s⟩
      rintro rfl
      exact absurd hdigit (by decide)

theorem lexInt_line {s t r : Text} (h : lexInt s = some (t, r)) : '\n' ∉ t := by
  cases s with
  | nil => simp [lexInt] at h
  | cons c s =>
    simp only [lexInt] at h
    split_ifs at h
    · obtain ⟨⟨t', r'⟩, hnat, heq⟩ := Option.map_eq_some_iff.mp h
      obtain ⟨rfl, -⟩ := Prod.mk.inj heq
      simpa using lexNat_line hnat
    · exact lexNat_line h

theorem lexFraction_line (s : Text) : '\n' ∉ (lexFraction s).1 := by
  cases s with
  | nil => simp [lexFraction]
  | cons c s =>
    simp only [lexFraction]
    split_ifs with hdot
    · simpa [hdot.1] using takeWhile_digits s
    · simp

theorem lexSign_line (s : Text) : '\n' ∉ (lexSign s).1 := by
  cases s with
  | nil => simp [lexSign]
  | cons c s =>
    simp only [lexSign]
    split_ifs with hsign
    · rcases hsign with rfl | rfl <;> simp
    · simp

theorem lexExponent_line (s : Text) : '\n' ∉ (lexExponent s).1 := by
  cases s with
  | nil => simp [lexExponent]
  | cons c s =>
    simp only [lexExponent]
    split_ifs with he
    · simp only [List.cons_append, List.mem_cons, List.mem_append, not_or]
      refine ⟨?_, lexSign_line s, takeWhile_digits _⟩
      rcases he.1 with rfl | rfl <;> decide
    · simp

theorem lexNumber_line {s t u r : Text} (h : lexNumber s = some (t, u, r)) : '\n' ∉ t ++ u := by
  simp only [lexNumber, Option.bind_eq_bind, Option.bind_eq_some_iff] at h
  obtain ⟨⟨int, s'⟩, hint, heq⟩ := h
  simp only [Option.pure_def, Option.some.injEq, Prod.mk.injEq] at heq
  obtain ⟨rfl, rfl, -⟩ := heq
  simp only [List.mem_append, not_or]
  exact ⟨lexInt_line hint, lexFraction_line s', lexExponent_line _⟩

theorem digitChar_line (n : ℕ) : '\n' ≠ Nat.digitChar (n % 16) := by
  have hall : ∀ i < 16, '\n' ≠ Nat.digitChar i := by decide
  exact hall _ (Nat.mod_lt n (by decide))

theorem hex4_line (n : ℕ) : '\n' ∉ hex4 n := by
  simp only [hex4, List.mem_cons, List.not_mem_nil, or_false, not_or]
  exact ⟨digitChar_line _, digitChar_line _, digitChar_line _, digitChar_line n⟩

theorem escapeChar_line (ascii : Bool) (c : Char) : '\n' ∉ escapeChar ascii c := by
  unfold escapeChar
  cases hshort : shortEscapes.lookup c with
  | some e =>
    obtain ⟨-, hback⟩ := unescape_short hshort
    simp only [List.mem_cons, List.not_mem_nil, or_false, not_or]
    refine ⟨by decide, ?_⟩
    rintro rfl
    exact absurd hback (by simp [unescape, shortEscapes])
  | none =>
    dsimp only
    split_ifs with hescaped
    · unfold unicodeEscape
      split_ifs
      · simpa using hex4_line c.toNat
      · simp [hex4_line]
    · rw [List.mem_singleton]
      rintro rfl
      exact hescaped (.inl (by decide))

theorem quoted_line (ascii : Bool) (s : String) : '\n' ∉ quoted ascii s := by
  simp only [quoted, escape, List.mem_cons, List.cons_append, List.mem_append, List.mem_flatMap, List.not_mem_nil,
    or_false, not_or, not_exists, not_and]
  exact ⟨by decide, fun c _ ↦ escapeChar_line ascii c, by decide⟩

theorem series_line {close : Char} (hclose : '\n' ≠ close) {ts : List Text} (h : ∀ t ∈ ts, '\n' ∉ t) :
    '\n' ∉ series layout close ts := by
  have hblank : '\n' ∉ blank layout := by
    unfold blank
    split_ifs <;> decide
  have htail : ∀ ts : List Text, (∀ t ∈ ts, '\n' ∉ t) → '\n' ∉ seriesTail layout close ts := by
    intro ts
    induction ts with
    | nil => simpa [seriesTail] using hclose
    | cons t ts ih =>
      intro h
      obtain ⟨ht, hts⟩ := List.forall_mem_cons.mp h
      simp [seriesTail, hblank, ht, ih hts]
  cases ts with
  | nil => simpa [series] using hclose
  | cons t ts =>
    obtain ⟨ht, hts⟩ := List.forall_mem_cons.mp h
    simp [series, ht, htail ts hts]

/-- A written value is one line. -/
theorem write_line (j : Json F) : '\n' ∉ write ft layout j := by
  induction j using Json.ind with
  | null => simp [write]
  | bool b => cases b <;> simp [write]
  | int n =>
    have hline := lexNumber_line (lexNumber_intText n)
    rwa [List.append_nil] at hline
  | float x =>
    obtain ⟨int, tail, _, hshape, hlexed⟩ := ft.lexed x
    rw [write, hshape]
    exact lexNumber_line hlexed
  | str s => exact quoted_line layout.ascii s
  | arr items ih =>
    rw [write, writeItems_eq, List.mem_cons, not_or]
    refine ⟨by decide, series_line layout (by decide) ?_⟩
    simpa using ih
  | obj fields ih =>
    rw [write, writeFields_eq, List.mem_cons, not_or]
    refine ⟨by decide, series_line layout (by decide) (List.forall_mem_map.mpr fun f hf ↦ ?_)⟩
    have hblank : '\n' ∉ blank layout := by
      unfold blank
      split_ifs <;> decide
    simp [writeField, quoted_line, hblank, ih f hf]

end OneLine

end TravelPlanner.JsonRoundTrip
