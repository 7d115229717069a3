import Mathlib.Order.Lattice
import Mathlib.Order.Basic
import Mathlib.Tactic.Ring
import Mathlib.Tactic.Linarith

namespace TravelPlanner.Clock

/-- A naive wall-clock time. Offset-aware values are rejected at the boundary,
so no request of the planner ever holds one. -/
structure Time where
  hour : Fin 24
  minute : Fin 60
  second : Fin 60
  microsecond : Fin 1000000
  deriving DecidableEq, Repr

def Time.micros (t : Time) : ℕ :=
  ((t.hour.val * 60 + t.minute.val) * 60 + t.second.val) * 1000000 + t.microsecond.val

theorem micros_injective : Function.Injective Time.micros := by
  rintro ⟨h, m, s, u⟩ ⟨h', m', s', u'⟩ he
  simp only [Time.micros] at he
  simp only [Time.mk.injEq, Fin.ext_iff]
  omega

instance : LinearOrder Time := LinearOrder.lift' Time.micros micros_injective

def midnight : Time := ⟨0, 0, 0, 0⟩

/-- Effective seconds from midnight of a day bound: the explicit time wins when
it is set. Microseconds are dropped. -/
def resolveDayBoundS (hour : ℤ) : Option Time → ℤ
  | some t => t.hour.val * 3600 + t.minute.val * 60 + t.second.val
  | none => hour * 3600

theorem resolve_some_nonneg (hour : ℤ) (t : Time) : 0 ≤ resolveDayBoundS hour (some t) := by
  simp only [resolveDayBoundS]; omega

theorem resolve_some_lt (hour : ℤ) (t : Time) : resolveDayBoundS hour (some t) < 86400 := by
  have := t.hour.isLt
  have := t.minute.isLt
  have := t.second.isLt
  simp only [resolveDayBoundS]
  omega

def secondsToTime (s : ℤ) : Time where
  hour := Fin.ofNat 24 (s / 3600 % 24).toNat
  minute := Fin.ofNat 60 (s % 3600 / 60).toNat
  second := Fin.ofNat 60 (s % 3600 % 60).toNat
  microsecond := 0

theorem resolve_secondsToTime (hour s : ℤ) (h₀ : 0 ≤ s) (h₁ : s < 86400) :
    resolveDayBoundS hour (some (secondsToTime s)) = s := by
  simp only [resolveDayBoundS, secondsToTime, Fin.ofNat]
  omega

theorem secondsToTime_ne_midnight (s : ℤ) (h₀ : 0 < s) (h₁ : s < 86400) :
    secondsToTime s ≠ midnight := by
  intro he
  have h := resolve_secondsToTime 0 s h₀.le h₁
  rw [he] at h
  simp [resolveDayBoundS, midnight] at h
  omega

def isLeap (y : ℕ) : Bool := y % 4 == 0 && (y % 100 != 0 || y % 400 == 0)

def daysInMonth (y m : ℕ) : ℕ :=
  if m = 2 then (if isLeap y then 29 else 28)
  else if m = 4 ∨ m = 6 ∨ m = 9 ∨ m = 11 then 30 else 31

structure Date where
  year : ℕ
  month : ℕ
  day : ℕ
  year_range : 1 ≤ year ∧ year ≤ 9999
  month_range : 1 ≤ month ∧ month ≤ 12
  day_range : 1 ≤ day ∧ day ≤ daysInMonth year month
  deriving DecidableEq, Repr

theorem daysInMonth_le (y m : ℕ) : daysInMonth y m ≤ 31 := by
  unfold daysInMonth; split_ifs <;> omega

def Date.key (d : Date) : ℕ := (d.year * 100 + d.month) * 100 + d.day

theorem key_injective : Function.Injective Date.key := by
  rintro ⟨y, m, d, hy, hm, hd⟩ ⟨y', m', d', hy', hm', hd'⟩ he
  have := daysInMonth_le y m
  have := daysInMonth_le y' m'
  simp only [Date.key] at he
  simp only [Date.mk.injEq]
  omega

instance : LinearOrder Date := LinearOrder.lift' Date.key key_injective

theorem date_lt_iff (a b : Date) : a < b ↔ a.key < b.key := Iff.rfl

def daysBeforeMonth (y : ℕ) : ℕ → ℕ
  | 0 | 1 => 0
  | m + 2 => daysBeforeMonth y (m + 1) + daysInMonth y (m + 1)

def Date.toOrdinal (d : Date) : ℕ :=
  let y := d.year - 1
  y * 365 + y / 4 - y / 100 + y / 400 + daysBeforeMonth d.year d.month + d.day

def Date.weekday (d : Date) : ℕ := (d.toOrdinal + 6) % 7

/-- Sunday is day `0` in the numbering of opening-hours periods. -/
def googleWeekday (d : Date) : ℕ := (d.weekday + 1) % 7

structure DateTime where
  date : Date
  time : Time
  deriving DecidableEq, Repr

def DateTime.before (a b : DateTime) : Prop := a.date < b.date ∨ a.date = b.date ∧ a.time < b.time

instance (a b : DateTime) : Decidable (a.before b) := by unfold DateTime.before; infer_instance

end TravelPlanner.Clock
