import TravelPlanner.IsoDates
import TravelPlanner.SavedPlans

namespace TravelPlanner.IsoTimes

open Clock IsoDates SavedPlans

def fractionText (microsecond : ℕ) : List Char := if microsecond = 0 then [] else '.' :: digits 6 microsecond

def offsetText : Option UtcOffset → List Char
  | none => []
  | some m =>
    if m.1 = 0 then ['Z']
    else (if m.1 < 0 then '-' else '+') :: digits 2 (m.1.natAbs / 60) ++ ':' :: digits 2 (m.1.natAbs % 60)

/-- The text of a time in a dumped model: `HH:MM:SS`, microseconds when there are
any, and the offset when there is one. -/
def isoTime (t : OffsetTime) : String :=
  String.ofList (digits 2 t.time.hour ++ ':' :: digits 2 t.time.minute ++ ':' :: digits 2 t.time.second ++
    fractionText t.time.microsecond ++ offsetText t.offset)

def readFraction : List Char → Option (ℕ × List Char)
  | [] => some (0, [])
  | c :: s => if c = '.' then readDigits 6 0 s else some (0, c :: s)

def ofMinutes (m : ℤ) : Option UtcOffset :=
  if h : -1440 < m ∧ m < 1440 then some ⟨m, h⟩ else none

def readMinutes (sign : ℤ) (s : List Char) : Option UtcOffset := do
  let (h, s) ← readDigits 2 0 s
  let s ← readChar ':' s
  let (m, s) ← readDigits 2 0 s
  if m < 60 ∧ s = [] then ofMinutes (sign * (h * 60 + m : ℕ)) else none

def readOffset : List Char → Option (Option UtcOffset)
  | [] => some none
  | c :: s =>
    if c = 'Z' then (if s = [] then (ofMinutes 0).map some else none)
    else if c = '+' then (readMinutes 1 s).map some
    else if c = '-' then (readMinutes (-1) s).map some
    else none

def ofClock (h m s u : ℕ) : Option Time :=
  if hr : (h < 24 ∧ m < 60) ∧ s < 60 ∧ u < 1000000 then
    some ⟨⟨h, hr.1.1⟩, ⟨m, hr.1.2⟩, ⟨s, hr.2.1⟩, ⟨u, hr.2.2⟩⟩
  else none

def readTime (s : List Char) : Option OffsetTime := do
  let (h, s) ← readDigits 2 0 s
  let s ← readChar ':' s
  let (m, s) ← readDigits 2 0 s
  let s ← readChar ':' s
  let (sec, s) ← readDigits 2 0 s
  let (u, s) ← readFraction s
  let time ← ofClock h m sec u
  let offset ← readOffset s
  return ⟨time, offset⟩

/-- The time a text stands for, in the form in which times are dumped. -/
def parseTime (s : String) : Option OffsetTime := readTime s.toList

theorem ofMinutes_val (m : UtcOffset) : ofMinutes m.1 = some m := dif_pos m.2

theorem readMinutes_digits (m : UtcOffset) (sign : ℤ) (h : sign * m.1.natAbs = m.1) :
    readMinutes sign (digits 2 (m.1.natAbs / 60) ++ ':' :: digits 2 (m.1.natAbs % 60)) = some m := by
  have hrange := m.2
  have hhours : m.1.natAbs / 60 < 10 ^ 2 := by omega
  have hminutes : m.1.natAbs % 60 < 60 := Nat.mod_lt _ (by decide)
  have hlast := digits_small (w := 2) (n := m.1.natAbs % 60) (by omega) []
  have hback : m.1.natAbs / 60 * 60 + m.1.natAbs % 60 = m.1.natAbs := Nat.div_add_mod' _ _
  rw [List.append_nil] at hlast
  simp only [readMinutes, digits_small hhours, readChar, if_true, hlast, Option.bind_eq_bind, Option.bind_some, hback,
    h, ofMinutes_val, hminutes, and_self]

theorem readOffset_offsetText (offset : Option UtcOffset) : readOffset (offsetText offset) = some offset := by
  cases offset with
  | none => rfl
  | some m =>
    rw [offsetText]
    split_ifs with hzero hneg
    · have hm := ofMinutes_val m
      rw [hzero] at hm
      simp [readOffset, hm]
    · have hm := readMinutes_digits m (-1) (by omega)
      simp [readOffset, hm]
    · have hm := readMinutes_digits m 1 (by omega)
      simp [readOffset, hm]

theorem offsetText_head (offset : Option UtcOffset) :
    readFraction (offsetText offset) = some (0, offsetText offset) := by
  cases offset with
  | none => rfl
  | some m =>
    rw [offsetText]
    split_ifs <;> rfl

theorem readFraction_fractionText (microsecond : Fin 1000000) (offset : Option UtcOffset) :
    readFraction (fractionText microsecond ++ offsetText offset) = some (microsecond.val, offsetText offset) := by
  unfold fractionText
  split_ifs with hzero
  · rw [List.nil_append, hzero]
    exact offsetText_head offset
  · have hsmall : microsecond.val < 10 ^ 6 := microsecond.isLt
    rw [List.cons_append, readFraction, if_pos rfl]
    exact digits_small hsmall _

theorem ofClock_time (t : Time) : ofClock t.hour t.minute t.second t.microsecond = some t :=
  dif_pos ⟨⟨t.hour.isLt, t.minute.isLt⟩, t.second.isLt, t.microsecond.isLt⟩

theorem parseTime_isoTime (t : OffsetTime) : parseTime (isoTime t) = some t := by
  have hhour : t.time.hour.val < 10 ^ 2 := t.time.hour.isLt.trans (by decide)
  have hminute : t.time.minute.val < 10 ^ 2 := t.time.minute.isLt.trans (by decide)
  have hsecond : t.time.second.val < 10 ^ 2 := t.time.second.isLt.trans (by decide)
  simp only [parseTime, readTime, isoTime, String.toList_ofList, List.append_assoc, List.cons_append,
    digits_small hhour, digits_small hminute, digits_small hsecond, readChar, if_true, Option.bind_eq_bind,
    Option.bind_some, readFraction_fractionText, ofClock_time, readOffset_offsetText]
  rfl

example : isoTime ⟨secondsToTime 34200, some ⟨-150, by decide⟩⟩ = "09:30:00-02:30" := by decide

end TravelPlanner.IsoTimes
