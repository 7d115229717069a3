import Mathlib.Data.String.Basic
import TravelPlanner.Clock

namespace TravelPlanner.IsoDates

open Clock

def digit (n : ℕ) : Char := Char.ofNat (48 + n % 10)

def digits : ℕ → ℕ → List Char
  | 0, _ => []
  | w + 1, n => digits w (n / 10) ++ [digit n]

/-- `date.isoformat()`, the text of a date in payloads and in the database. -/
def isoformat (d : Date) : String :=
  String.ofList (digits 4 d.year ++ '-' :: digits 2 d.month ++ '-' :: digits 2 d.day)

theorem digit_lt {a b : ℕ} (h : a % 10 < b % 10) : digit a < digit b := by
  have hall : ∀ i < 10, ∀ j < 10, i < j → Char.ofNat (48 + i) < Char.ofNat (48 + j) := by decide
  exact hall _ (Nat.mod_lt a (by decide)) _ (Nat.mod_lt b (by decide)) h

theorem digits_length (w n : ℕ) : (digits w n).length = w := by
  induction w generalizing n with
  | zero => rfl
  | succ w ih => simp [digits, ih]

theorem lex_append {l₁ l₂ : List Char} (r₁ r₂ : List Char) (hl : l₁.length = l₂.length) (h : l₁ < l₂) :
    l₁ ++ r₁ < l₂ ++ r₂ := by
  induction l₁ generalizing l₂ with
  | nil =>
    obtain rfl : l₂ = [] := List.eq_nil_of_length_eq_zero hl.symm
    exact absurd h (lt_irrefl _)
  | cons a l₁ ih =>
    cases l₂ with
    | nil => simp at hl
    | cons b l₂ =>
      simp only [List.cons_append]
      refine List.cons_lt_cons_iff.mpr ((List.cons_lt_cons_iff.mp h).imp_right fun hab ↦ ?_)
      exact ⟨hab.1, ih (by simpa using hl) hab.2⟩

theorem digits_lt {w m n : ℕ} (h : m < n) (hn : n < 10 ^ w) : digits w m < digits w n := by
  induction w generalizing m n with
  | zero => omega
  | succ w ih =>
    simp only [digits]
    have hdiv : n / 10 < 10 ^ w := by
      rw [Nat.div_lt_iff_lt_mul (by decide), ← pow_succ]
      exact hn
    rcases Nat.lt_or_ge (m / 10) (n / 10) with hlt | hge
    · exact lex_append _ _ (by rw [digits_length, digits_length]) (ih hlt hdiv)
    · have heq : m / 10 = n / 10 := le_antisymm (Nat.div_le_div_right h.le) hge
      rw [heq]
      refine List.append_left_lt (List.cons_lt_cons_iff.mpr (.inl (digit_lt ?_)))
      omega

theorem date_order {a b : Date} (h : a < b) : a.year < b.year ∨
    a.year = b.year ∧ (a.month < b.month ∨ a.month = b.month ∧ a.day < b.day) := by
  have ha := (a.day_range.2).trans (daysInMonth_le a.year a.month)
  have hb := (b.day_range.2).trans (daysInMonth_le b.year b.month)
  have ham := a.month_range
  have hbm := b.month_range
  rw [date_lt_iff] at h
  simp only [Date.key] at h
  omega

/-- The text order of ISO dates is the order of the dates. -/
theorem isoformat_strictMono : StrictMono isoformat := fun a b h ↦ by
  have hb := (b.day_range.2).trans (daysInMonth_le b.year b.month)
  have hbm := b.month_range
  have hby := b.year_range
  rw [String.lt_iff_toList_lt]
  simp only [isoformat, String.toList_ofList]
  rcases date_order h with hy | ⟨hy, hm | ⟨hm, hd⟩⟩
  · have hlt := digits_lt (w := 4) hy (by omega)
    simp only [List.append_assoc]
    exact lex_append _ _ (by rw [digits_length, digits_length]) hlt
  · have hlt := digits_lt (w := 2) hm (by omega)
    rw [hy]
    simp only [List.append_assoc, List.cons_append]
    refine List.append_left_lt (List.cons_lt_cons_iff.mpr (.inr ⟨rfl, ?_⟩))
    exact lex_append _ _ (by rw [digits_length, digits_length]) hlt
  · have hlt := digits_lt (w := 2) hd (by omega)
    rw [hy, hm]
    exact List.append_left_lt (List.cons_lt_cons_iff.mpr (.inr ⟨rfl, hlt⟩))

section Reading

def readDigits : ℕ → ℕ → List Char → Option (ℕ × List Char)
  | 0, acc, s => some (acc, s)
  | _ + 1, _, [] => none
  | w + 1, acc, c :: s => if c.isDigit then readDigits w (acc * 10 + (c.toNat - 48)) s else none

def readChar (c : Char) : List Char → Option (List Char)
  | [] => none
  | d :: s => if d = c then some s else none

def ofYearMonthDay (y m d : ℕ) : Option Date :=
  if h : (1 ≤ y ∧ y ≤ 9999) ∧ (1 ≤ m ∧ m ≤ 12) ∧ 1 ≤ d ∧ d ≤ daysInMonth y m then
    some ⟨y, m, d, h.1, h.2.1, h.2.2⟩
  else none

def readDate (s : List Char) : Option Date := do
  let (y, s) ← readDigits 4 0 s
  let s ← readChar '-' s
  let (m, s) ← readDigits 2 0 s
  let s ← readChar '-' s
  let (d, s) ← readDigits 2 0 s
  if s = [] then ofYearMonthDay y m d else none

/-- The date a text names; dates are only ever written as `YYYY-MM-DD`. -/
def parseDate (s : String) : Option Date := readDate s.toList

theorem digit_isDigit (n : ℕ) : (digit n).isDigit = true ∧ (digit n).toNat - 48 = n % 10 := by
  have hall : ∀ i < 10, (Char.ofNat (48 + i)).isDigit = true ∧ (Char.ofNat (48 + i)).toNat - 48 = i := by decide
  exact hall _ (Nat.mod_lt n (by decide))

theorem digit_of_isDigit {c : Char} (h : c.isDigit = true) : c.toNat - 48 < 10 ∧ digit (c.toNat - 48) = c := by
  have hrange : 48 ≤ c.toNat ∧ c.toNat ≤ 57 := by
    simp only [Char.isDigit, Bool.and_eq_true, decide_eq_true_eq, ge_iff_le, UInt32.le_iff_toNat_le] at h
    exact h
  have hsmall : c.toNat - 48 < 10 := by omega
  refine ⟨hsmall, ?_⟩
  rw [digit, Nat.mod_eq_of_lt hsmall, Nat.add_sub_cancel' hrange.1, Char.ofNat_toNat]

theorem readDigits_succ (w acc : ℕ) (s : List Char) :
    readDigits (w + 1) acc s = (readDigits w acc s).bind fun r ↦ readDigits 1 r.1 r.2 := by
  induction w generalizing acc s with
  | zero => rfl
  | succ w ih =>
    cases s with
    | nil => rfl
    | cons c s =>
      rw [readDigits, readDigits]
      split_ifs
      · exact ih _ s
      · rfl

theorem readDigits_digits (w acc n : ℕ) (rest : List Char) :
    readDigits w acc (digits w n ++ rest) = some (acc * 10 ^ w + n % 10 ^ w, rest) := by
  induction w generalizing n rest with
  | zero => simp [readDigits, digits, Nat.mod_one]
  | succ w ih =>
    obtain ⟨hdigit, hvalue⟩ := digit_isDigit n
    rw [readDigits_succ, digits, List.append_assoc, ih, List.singleton_append, Option.bind_some]
    simp only [readDigits, hdigit, if_true, hvalue, Option.some.injEq, Prod.mk.injEq, and_true]
    have hsplit : n % 10 ^ (w + 1) = n / 10 % 10 ^ w * 10 + n % 10 := by
      rw [pow_succ', Nat.mod_mul, Nat.add_comm, Nat.mul_comm]
    rw [hsplit, pow_succ]
    ring

theorem readDigits_spec {w acc n : ℕ} {s rest : List Char} (h : readDigits w acc s = some (n, rest)) :
    ∃ k < 10 ^ w, n = acc * 10 ^ w + k ∧ s = digits w k ++ rest := by
  induction w generalizing n rest with
  | zero =>
    obtain ⟨rfl, rfl⟩ := Prod.mk.inj (Option.some.inj h)
    exact ⟨0, by simp, by simp, rfl⟩
  | succ w ih =>
    rw [readDigits_succ] at h
    obtain ⟨⟨n', s'⟩, hfirst, hlast⟩ := Option.bind_eq_some_iff.mp h
    obtain ⟨k, hk, rfl, rfl⟩ := ih hfirst
    cases s' with
    | nil => cases hlast
    | cons c s' =>
      simp only [readDigits] at hlast
      split_ifs at hlast with hc
      obtain ⟨rfl, rfl⟩ := Prod.mk.inj (Option.some.inj hlast)
      obtain ⟨hsmall, hdigit⟩ := digit_of_isDigit hc
      refine ⟨k * 10 + (c.toNat - 48), ?_, ?_, ?_⟩
      · rw [pow_succ]
        omega
      · rw [pow_succ]
        ring
      · have hdiv : (k * 10 + (c.toNat - 48)) / 10 = k := by omega
        have hlow : digit (k * 10 + (c.toNat - 48)) = c := by
          have hmod : (k * 10 + (c.toNat - 48)) % 10 = (c.toNat - 48) % 10 := by omega
          rw [digit, hmod]
          exact hdigit
        simp [digits, hdiv, hlow]

theorem digits_small {w n : ℕ} (h : n < 10 ^ w) (rest : List Char) :
    readDigits w 0 (digits w n ++ rest) = some (n, rest) := by
  rw [readDigits_digits, zero_mul, zero_add, Nat.mod_eq_of_lt h]

theorem date_digits (d : Date) : d.year < 10 ^ 4 ∧ d.month < 10 ^ 2 ∧ d.day < 10 ^ 2 := by
  have hd := (d.day_range.2).trans (daysInMonth_le d.year d.month)
  have hm := d.month_range
  have hy := d.year_range
  omega

theorem readDate_isoformat (d : Date) : readDate (isoformat d).toList = some d := by
  obtain ⟨hy, hm, hd⟩ := date_digits d
  have hday := digits_small hd []
  rw [List.append_nil] at hday
  have hvalid : ofYearMonthDay d.year d.month d.day = some d :=
    dif_pos ⟨d.year_range, d.month_range, d.day_range⟩
  simp only [readDate, isoformat, String.toList_ofList, List.append_assoc, List.cons_append, digits_small hy,
    digits_small hm, hday, readChar, if_true, Option.bind_eq_bind, Option.bind_some, hvalid]

theorem readChar_spec {c : Char} {s rest : List Char} (h : readChar c s = some rest) : s = c :: rest := by
  cases s with
  | nil => cases h
  | cons d s =>
    simp only [readChar] at h
    split_ifs at h with hd
    rw [hd, Option.some.inj h]

theorem readNumber_spec {w n : ℕ} {s rest : List Char} (h : readDigits w 0 s = some (n, rest)) :
    s = digits w n ++ rest := by
  obtain ⟨k, -, hn, hs⟩ := readDigits_spec h
  rw [hn, zero_mul, zero_add]
  exact hs

theorem readDate_spec {s : List Char} {d : Date} (h : readDate s = some d) : s = (isoformat d).toList := by
  simp only [readDate, Option.bind_eq_bind, Option.bind_eq_some_iff, Prod.exists] at h
  obtain ⟨y, s₁, hy, s₂, hdash, m, s₃, hm, s₄, hdash', k, s₅, hk, hend⟩ := h
  split_ifs at hend with hempty
  rw [ofYearMonthDay] at hend
  split_ifs at hend with hrange
  obtain rfl := Option.some.inj hend
  rw [readNumber_spec hy, readChar_spec hdash, readNumber_spec hm, readChar_spec hdash', readNumber_spec hk, hempty]
  simp [isoformat]

theorem parseDate_iff {s : String} {d : Date} : parseDate s = some d ↔ s = isoformat d := by
  constructor
  · intro h
    rw [← String.toList_inj]
    exact readDate_spec h
  · intro h
    rw [parseDate, h]
    exact readDate_isoformat d

end Reading

theorem min?_map {α β : Type} [LinearOrder α] [LinearOrder β] {f : α → β} (hf : StrictMono f) (l : List α) :
    (l.map f).min? = l.min?.map f := by
  induction l with
  | nil => rfl
  | cons a l ih =>
    rw [List.map_cons, List.min?_cons, List.min?_cons, ih]
    cases l.min? with
    | none => rfl
    | some b => simp [hf.monotone.map_min]

theorem max?_map {α β : Type} [LinearOrder α] [LinearOrder β] {f : α → β} (hf : StrictMono f) (l : List α) :
    (l.map f).max? = l.max?.map f := by
  induction l with
  | nil => rfl
  | cons a l ih =>
    rw [List.map_cons, List.max?_cons, List.max?_cons, ih]
    cases l.max? with
    | none => rfl
    | some b => simp [hf.monotone.map_max]

end TravelPlanner.IsoDates
