import TravelPlanner.IsoTimes
import TravelPlanner.PlannerRequests
import TravelPlanner.TripContext

namespace TravelPlanner.FormChecks

open Clock Requests IsoDates IsoTimes PlannerRequests
open TripContext (hourMinute)

section Checks

inductive DayTimeMode
  | hour | exact
  deriving DecidableEq, Repr

structure DayBoundaryState where
  mode : DayTimeMode
  hour : ℤ
  time : Option String

def defaultDayStartHour : ℤ := 9

def defaultDayEndHour : ℤ := 21

def hydrateBoundary (hour : ℤ) (time : Option String) : DayBoundaryState :=
  if time ≠ none then ⟨.exact, hour, time⟩ else ⟨.hour, hour, none⟩

def natural (s : List Char) : Option ℤ :=
  if s = [] ∨ s.all Char.isDigit = false then none else some (Nat.ofDigitChars 10 s 0)

def number (s : List Char) : Option ℤ :=
  if s = [] then some 0
  else if s.head? = some '-' then (natural s.tail).map fun n ↦ -n
  else natural s

/-- The hour and the minute of a text, without what follows. No number is `NaN`. -/
def resolveBoundarySeconds (boundary : DayBoundaryState) : Option ℤ :=
  match boundary.mode, boundary.time.filter (· ≠ "") with
  | .exact, some time =>
    match time.toList.splitOn ':' with
    | h :: min :: _ => do
      let h ← number h
      let min ← number min
      return h * 3600 + min * 60
    | _ => none
  | _, _ => some (boundary.hour * 3600)

inductive ErrorKey
  | dayEndTimeMidnightInvalid | dayRangeInvalid
  deriving DecidableEq, Repr

/-- `a >= b`, which `NaN` is for nothing. -/
def atLeast (a b : Option ℤ) : Bool :=
  match a, b with
  | some a, some b => b ≤ a
  | _, _ => false

def isValidBoundaryPair (start finish : DayBoundaryState) : Option ErrorKey :=
  if finish.mode = .exact ∧ finish.time = some "00:00" then some .dayEndTimeMidnightInvalid
  else if atLeast (resolveBoundarySeconds start) (resolveBoundarySeconds finish) then some .dayRangeInvalid
  else none

def isDayConfigValid (day : Planner.DayConfig) : Bool :=
  let start := hydrateBoundary (day.dayStartHour.getD defaultDayStartHour) day.dayStartTime
  let finish := hydrateBoundary (day.dayEndHour.getD defaultDayEndHour) day.dayEndTime
  (isValidBoundaryPair start finish).isNone

def isTransferBlockValid (transfer : Planner.TransferBlock) : Bool :=
  0 < transfer.departureTime.length && 0 < transfer.arrivalTime.length &&
    transfer.departureTime < transfer.arrivalTime

end Checks

section Reading

def readClock (s : List Char) : Option Time := do
  let (h, s) ← readDigits 2 0 s
  let s ← readChar ':' s
  let (m, s) ← readDigits 2 0 s
  if s = [] then ofClock h m 0 0
  else
    let s ← readChar ':' s
    let (sec, s) ← readDigits 2 0 s
    if s = [] then ofClock h m sec 0 else none

def parseClock (s : String) : Option Time := readClock s.toList

def Seconds (t : Time) (tail : List Char) : Prop :=
  tail = [] ∧ t.second.val = 0 ∨ tail = ':' :: digits 2 t.second

theorem ofClock_spec {h m s u : ℕ} {t : Time} (ht : ofClock h m s u = some t) :
    t.hour.val = h ∧ t.minute.val = m ∧ t.second.val = s ∧ t.microsecond.val = u := by
  unfold ofClock at ht
  split_ifs at ht
  obtain rfl := Option.some.inj ht
  exact ⟨rfl, rfl, rfl, rfl⟩

theorem parseClock_spec {s : String} {t : Time} (h : parseClock s = some t) :
    ∃ tail, s.toList = hourMinute t ++ tail ∧ Seconds t tail ∧ t.microsecond.val = 0 := by
  simp only [parseClock, readClock, Option.bind_eq_bind, Option.bind_eq_some_iff, Prod.exists] at h
  obtain ⟨hour, s₁, hhour, s₂, hcolon, minute, s₃, hminute, h⟩ := h
  have htext : s.toList = digits 2 hour ++ ':' :: (digits 2 minute ++ s₃) := by
    rw [readNumber_spec hhour, readChar_spec hcolon, readNumber_spec hminute]
  split_ifs at h with hnil
  · obtain ⟨rfl, rfl, hsecond, hmicro⟩ := ofClock_spec h
    exact ⟨[], by rw [htext, hnil, hourMinute]; simp, .inl ⟨rfl, hsecond⟩, hmicro⟩
  · simp only [Option.bind_eq_some_iff, Prod.exists] at h
    obtain ⟨s₄, hcolon', second, s₅, hsecond, h⟩ := h
    split_ifs at h with hend
    obtain ⟨rfl, rfl, rfl, hmicro⟩ := ofClock_spec h
    refine ⟨':' :: digits 2 t.second, ?_, .inr rfl, hmicro⟩
    rw [htext, readChar_spec hcolon', readNumber_spec hsecond, hend, hourMinute]
    simp

end Reading

section Comparing

variable {t t' : Time} {tail tail' : List Char}

def minuteOf (t : Time) : ℕ := t.hour * 60 + t.minute

theorem append_lt_append_iff {l l' : List Char} (r r' : List Char) (hlength : l.length = l'.length) :
    l ++ r < l' ++ r' ↔ l < l' ∨ l = l' ∧ r < r' := by
  rcases lt_trichotomy l l' with hlt | rfl | hgt
  · exact iff_of_true (lex_append r r' hlength hlt) (.inl hlt)
  · rcases lt_trichotomy r r' with hlt | rfl | hgt
    · exact iff_of_true (List.append_left_lt hlt) (.inr ⟨rfl, hlt⟩)
    · simp
    · have hnot : ¬l ++ r < l ++ r' := lt_asymm (List.append_left_lt hgt)
      simp [hnot, lt_asymm hgt]
  · have hnot : ¬l ++ r < l' ++ r' := lt_asymm (lex_append r' r hlength.symm hgt)
    simp [hnot, lt_asymm hgt, hgt.ne']

theorem digits_lt_iff {w m n : ℕ} (hm : m < 10 ^ w) (hn : n < 10 ^ w) : digits w m < digits w n ↔ m < n := by
  rcases lt_trichotomy m n with hlt | rfl | hgt
  · exact iff_of_true (digits_lt hlt hn) hlt
  · simp
  · exact iff_of_false (lt_asymm (digits_lt hgt hm)) (lt_asymm hgt)

theorem eq_iff_of_lt_iff {α β : Type} [LinearOrder α] [LinearOrder β] {a a' : α} {b b' : β} (h : a < a' ↔ b < b')
    (h' : a' < a ↔ b' < b) : a = a' ↔ b = b' := by
  rw [le_antisymm_iff, le_antisymm_iff, ← not_lt, ← not_lt, ← not_lt, ← not_lt, h, h']

theorem digits_eq_iff {w m n : ℕ} (hm : m < 10 ^ w) (hn : n < 10 ^ w) : digits w m = digits w n ↔ m = n :=
  eq_iff_of_lt_iff (digits_lt_iff hm hn) (digits_lt_iff hn hm)

theorem hourMinute_length (t : Time) : (hourMinute t).length = 5 := by simp [hourMinute, digits_length]

theorem hourMinute_lt_iff (t t' : Time) : hourMinute t < hourMinute t' ↔ minuteOf t < minuteOf t' := by
  have hhour := t.hour.isLt
  have hhour' := t'.hour.isLt
  have hminute := t.minute.isLt
  have hminute' := t'.minute.isLt
  have hlength : (digits 2 t.hour.val).length = (digits 2 t'.hour.val).length := by rw [digits_length, digits_length]
  rw [hourMinute, hourMinute, append_lt_append_iff _ _ hlength, digits_lt_iff (by omega) (by omega),
    digits_eq_iff (by omega) (by omega), List.cons_lt_cons_iff, digits_lt_iff (by omega) (by omega), minuteOf, minuteOf]
  simp only [lt_irrefl, true_and, false_or]
  omega

theorem hourMinute_eq_iff (t t' : Time) : hourMinute t = hourMinute t' ↔ minuteOf t = minuteOf t' :=
  eq_iff_of_lt_iff (hourMinute_lt_iff t t') (hourMinute_lt_iff t' t)

theorem time_lt_iff (ht : t.microsecond.val = 0) (ht' : t'.microsecond.val = 0) :
    t < t' ↔ minuteOf t < minuteOf t' ∨ minuteOf t = minuteOf t' ∧ t.second.val < t'.second.val := by
  have hlt : t < t' ↔ t.micros < t'.micros := Iff.rfl
  have hsecond := t.second.isLt
  have hsecond' := t'.second.isLt
  rw [hlt, Time.micros, Time.micros, ht, ht', minuteOf, minuteOf]
  omega

theorem seconds_added_iff {s s' : String} (hs : s.toList = hourMinute t ++ tail)
    (hs' : s'.toList = hourMinute t' ++ tail') :
    s' = s ++ ":00" ↔ minuteOf t = minuteOf t' ∧ tail' = tail ++ ':' :: digits 2 0 := by
  have hzero : ":00".toList = ':' :: digits 2 0 := by decide
  have hlength : (hourMinute t').length = (hourMinute t).length := by rw [hourMinute_length, hourMinute_length]
  rw [← String.toList_inj, String.toList_append, hs, hs', hzero, List.append_assoc, ← hourMinute_eq_iff]
  constructor
  · intro h
    obtain ⟨hminute, htail⟩ := List.append_inj h hlength
    exact ⟨hminute.symm, htail⟩
  · rintro ⟨hminute, htail⟩
    rw [hminute, htail]

theorem no_seconds_added (htail : Seconds t tail) (htail' : Seconds t' tail') (h : tail' = tail ++ ':' :: digits 2 0) :
    t'.second.val = 0 := by
  have hsecond' := t'.second.isLt
  rcases htail' with ⟨-, hnone'⟩ | rfl
  · exact hnone'
  · rcases htail with ⟨rfl, -⟩ | rfl
    · rw [List.nil_append, List.cons_inj_right, digits_eq_iff (by omega) (by decide)] at h
      exact h
    · have hlength := congrArg List.length h
      simp [digits_length] at hlength

/-- The client compares clock texts letter by letter: seconds only count where both texts
have them, and a text without seconds comes before the same minute with any. -/
theorem text_lt_iff {s s' : String} (hs : s.toList = hourMinute t ++ tail) (hs' : s'.toList = hourMinute t' ++ tail')
    (htail : Seconds t tail) (htail' : Seconds t' tail') :
    s < s' ↔ minuteOf t < minuteOf t' ∨
      minuteOf t = minuteOf t' ∧ (t.second.val < t'.second.val ∨ s' = s ++ ":00") := by
  have hlength : (hourMinute t).length = (hourMinute t').length := by rw [hourMinute_length, hourMinute_length]
  have hsecond := t.second.isLt
  have hsecond' := t'.second.isLt
  rw [String.lt_iff_toList_lt, hs, hs', append_lt_append_iff _ _ hlength, hourMinute_lt_iff, hourMinute_eq_iff]
  refine or_congr_right (and_congr_right fun hminute ↦ ?_)
  rw [seconds_added_iff hs hs', and_iff_right hminute]
  rcases htail with ⟨rfl, hnone⟩ | rfl
  · rcases htail' with ⟨rfl, hnone'⟩ | rfl
    · simp [hnone, hnone']
    · simp only [List.nil_lt_cons, List.nil_append, List.cons.injEq, true_and, true_iff]
      rw [digits_eq_iff (by omega) (by decide)]
      omega
  · rcases htail' with ⟨rfl, hnone'⟩ | rfl
    · simp [hnone']
    · rw [List.cons_lt_cons_iff, digits_lt_iff (by omega) (by omega)]
      simp [digits]

end Comparing

section Boundaries

variable {t : Time} {time : Option String} {day : Planner.DayConfig} {cfg : DayConfig}

theorem number_digits {n : ℕ} (h : n < 10 ^ 2) : number (digits 2 n) = some (n : ℤ) := by
  have hall : (digits 2 n).all Char.isDigit = true := by simp [digits, (digit_isDigit _).1]
  have hne : digits 2 n ≠ [] := by simp [digits]
  have hunsigned : (digits 2 n).head? ≠ some '-' := by
    intro hsign
    have hminus : Char.isDigit '-' = true := List.all_eq_true.mp hall _ (List.mem_of_mem_head? hsign)
    exact absurd hminus (by decide)
  have hvalue : Nat.ofDigitChars 10 (digits 2 n) 0 = n := by
    have htens := (digit_isDigit (n / 10)).2
    have hones := (digit_isDigit n).2
    simp only [digits, List.nil_append, List.singleton_append, Nat.ofDigitChars_cons, Nat.ofDigitChars_nil,
      Char.reduceToNat, htens, hones]
    omega
  rw [number, if_neg hne, if_neg hunsigned, natural, if_neg (by simp [hne, hall]), hvalue]

theorem digits_colon (w n : ℕ) : ':' ∉ digits w n := by
  induction w generalizing n with
  | zero => exact List.not_mem_nil
  | succ w ih =>
    rw [digits, List.mem_append, List.mem_singleton]
    rintro (h | h)
    · exact ih _ h
    · exact absurd (h ▸ (digit_isDigit n).1) (by decide)

theorem splitOn_clock {s : String} (h : parseClock s = some t) :
    ∃ rest, s.toList.splitOn ':' = digits 2 t.hour :: digits 2 t.minute :: rest := by
  obtain ⟨tail, htext, htail, -⟩ := parseClock_spec h
  rw [htext, hourMinute, List.append_assoc, List.cons_append,
    List.splitOn_append_cons_self_of_not_mem (digits_colon _ _)]
  rcases htail with ⟨rfl, -⟩ | rfl
  · rw [List.append_nil, List.splitOn_eq_singleton (digits_colon _ _)]
    exact ⟨[], rfl⟩
  · rw [List.splitOn_append_cons_self_of_not_mem (digits_colon _ _)]
    exact ⟨_, rfl⟩

theorem clock_ne_empty {s : String} (h : parseClock s = some t) : s ≠ "" := by
  rintro rfl
  cases h

/-- The client reads a bound as its minute. -/
theorem resolveBoundarySeconds_eq (hour : ℤ) {explicit : Option Time}
    (h : readOptional parseClock time = some explicit) :
    resolveBoundarySeconds (hydrateBoundary hour time) = some (60 * (resolveDayBoundS hour explicit / 60)) := by
  cases time with
  | none =>
    obtain rfl := Option.some.inj h
    simp only [hydrateBoundary, resolveBoundarySeconds, resolveDayBoundS, ne_eq, not_true_eq_false, if_false,
      Option.some.injEq]
    omega
  | some s =>
    obtain ⟨t, ht, rfl⟩ := Option.map_eq_some_iff.mp h
    obtain ⟨rest, hsplit⟩ := splitOn_clock ht
    have hnonempty : (some s).filter (· ≠ "") = some s := by simp [clock_ne_empty ht]
    have hhour := t.hour.isLt
    have hminute := t.minute.isLt
    have hsecond := t.second.isLt
    have hmode : hydrateBoundary hour (some s) = ⟨.exact, hour, some s⟩ := by simp [hydrateBoundary]
    rw [hmode, resolveBoundarySeconds]
    simp only [hnonempty, hsplit, number_digits (n := t.hour) (by omega), number_digits (n := t.minute) (by omega),
      Option.bind_eq_bind, Option.bind_some, Option.pure_def, Option.some.injEq, resolveDayBoundS]
    omega

def startS (cfg : DayConfig) : ℤ := resolveDayBoundS cfg.dayStartHour cfg.dayStartTime

def endS (cfg : DayConfig) : ℤ := resolveDayBoundS cfg.dayEndHour cfg.dayEndTime

def HoursInRange (cfg : DayConfig) : Prop :=
  (0 ≤ cfg.dayStartHour ∧ cfg.dayStartHour ≤ 23) ∧ 1 ≤ cfg.dayEndHour ∧ cfg.dayEndHour ≤ 24

theorem startS_nonneg (h : HoursInRange cfg) : 0 ≤ startS cfg := by
  have hhour := h.1.1
  unfold startS
  cases cfg.dayStartTime with
  | none =>
    simp only [resolveDayBoundS]
    omega
  | some t => exact resolve_some_nonneg _ t

theorem receiveDay_spec (h : receiveDay parseClock day = some cfg) :
    cfg.dayStartHour = day.dayStartHour.getD 9 ∧ cfg.dayEndHour = day.dayEndHour.getD 21 ∧
      readOptional parseClock day.dayStartTime = some cfg.dayStartTime ∧
      readOptional parseClock day.dayEndTime = some cfg.dayEndTime := by
  simp only [receiveDay, Option.bind_eq_bind, Option.bind_eq_some_iff] at h
  obtain ⟨date, -, start, hstart, finish, hfinish, h⟩ := h
  obtain rfl := Option.some.inj h
  exact ⟨rfl, rfl, hstart, hfinish⟩

/-- The client wants the day to start in an earlier minute than it ends, and nothing else:
an end at midnight is in no later minute than any start. -/
theorem isDayConfigValid_iff (hday : receiveDay parseClock day = some cfg) (hhours : HoursInRange cfg) :
    isDayConfigValid day = true ↔ startS cfg / 60 < endS cfg / 60 := by
  obtain ⟨hstartHour, hendHour, hstart, hfinish⟩ := receiveDay_spec hday
  have hresolve := resolveBoundarySeconds_eq (day.dayStartHour.getD defaultDayStartHour) hstart
  have hresolve' := resolveBoundarySeconds_eq (day.dayEndHour.getD defaultDayEndHour) hfinish
  have hpair : ∀ start finish, resolveBoundarySeconds start = some (60 * (startS cfg / 60)) →
      resolveBoundarySeconds finish = some (60 * (endS cfg / 60)) →
      ((finish.mode = .exact ∧ finish.time = some "00:00") → endS cfg = 0) →
      ((isValidBoundaryPair start finish).isNone = true ↔ startS cfg / 60 < endS cfg / 60) := by
    intro start finish hs hf hmidnight
    have hnonneg := startS_nonneg hhours
    rw [isValidBoundaryPair, hs, hf, atLeast]
    by_cases hexact : finish.mode = .exact ∧ finish.time = some "00:00"
    · have hzero := hmidnight hexact
      simp only [hexact, and_self, if_true, Option.isNone_some, Bool.false_eq_true, false_iff]
      omega
    · by_cases hle : 60 * (endS cfg / 60) ≤ 60 * (startS cfg / 60)
      · simp only [hexact, if_false, hle, decide_true, if_true, Option.isNone_some, Bool.false_eq_true, false_iff]
        omega
      · simp only [hexact, if_false, hle, decide_false, Bool.false_eq_true, Option.isNone_none, true_iff]
        omega
  refine hpair _ _ ?_ ?_ ?_
  · rw [hresolve, startS, hstartHour]
    rfl
  · rw [hresolve', endS, hendHour]
    rfl
  · rintro ⟨-, htime⟩
    have hmidnight : day.dayEndTime = some "00:00" := by
      unfold hydrateBoundary at htime
      split_ifs at htime with hnone
      exact htime
    have hread : readOptional parseClock (some "00:00") = some (some midnight) := by decide
    rw [hmidnight, hread] at hfinish
    rw [endS, ← Option.some.inj hfinish]
    rfl

end Boundaries

section Agreement

variable {day : Planner.DayConfig} {cfg : DayConfig} {transfer : Planner.TransferBlock}
  {block : TransferBlock}

/-- What the backend asks of a day besides its range, and the client does not look at. -/
def Complete (cfg : DayConfig) : Prop :=
  ¬(cfg.dayEndHour = 24 ∧ cfg.dayEndTime ≠ none) ∧ cfg.startLat.isNone = cfg.startLng.isNone ∧
    cfg.endLat.isNone = cfg.endLng.isNone

/-- A day from one minute to a later one is complete, and a day within one minute is not. -/
def DayAgrees (cfg : DayConfig) : Prop :=
  (startS cfg / 60 < endS cfg / 60 → Complete cfg) ∧
    (startS cfg / 60 = endS cfg / 60 → startS cfg < endS cfg → ¬Complete cfg)

/-- A transfer that takes time has no longer label than it may have, and one that takes
none does not show it by a longer text. -/
def TransferAgrees (transfer : Planner.TransferBlock) (block : TransferBlock) : Prop :=
  (block.departureTime < block.arrivalTime → ∀ l ∈ block.label, l.length ≤ 200) ∧
    transfer.arrivalTime ≠ transfer.departureTime ++ ":00"

theorem validate_day_iff (hhours : HoursInRange cfg) :
    cfg.validate = .ok () ↔ startS cfg < endS cfg ∧ Complete cfg := by
  have hmidnight : startS cfg < endS cfg → cfg.dayEndTime ≠ some midnight := by
    intro hlt hmidnight
    have hzero : endS cfg = 0 := by
      rw [endS, hmidnight]
      rfl
    have hnonneg := startS_nonneg hhours
    omega
  simp only [DayConfig.validate, validateDayHours, validateDayEndTimeSemantics, validateDayRange,
    validateStartLocation, validateEndLocation, then_ok, check_ok, Complete]
  constructor
  · rintro ⟨-, ⟨-, h24⟩, hlt, hstart, hend⟩
    exact ⟨hlt, h24, hstart, hend⟩
  · rintro ⟨hlt, h24, hstart, hend⟩
    exact ⟨hhours, ⟨hmidnight hlt, h24⟩, hlt, hstart, hend⟩

theorem day_agrees_iff (hday : receiveDay parseClock day = some cfg) (hhours : HoursInRange cfg) :
    (isDayConfigValid day = true ↔ cfg.validate = .ok ()) ↔ DayAgrees cfg := by
  rw [isDayConfigValid_iff hday hhours, validate_day_iff hhours, DayAgrees]
  rcases lt_trichotomy (startS cfg / 60) (endS cfg / 60) with hlt | heq | hgt
  · have hseconds : startS cfg < endS cfg := by omega
    simp [hlt, hlt.ne, hseconds]
  · simp [heq]
  · have hseconds : ¬startS cfg < endS cfg := by omega
    simp [lt_asymm hgt, hgt.ne', hseconds]

theorem receiveTransfer_spec (h : receiveTransfer parseClock transfer = some block) :
    parseClock transfer.departureTime = some block.departureTime ∧
      parseClock transfer.arrivalTime = some block.arrivalTime := by
  simp only [receiveTransfer, Option.bind_eq_bind, Option.bind_eq_some_iff] at h
  obtain ⟨date, -, departure, hdeparture, arrival, harrival, h⟩ := h
  obtain rfl := Option.some.inj h
  exact ⟨hdeparture, harrival⟩

/-- The client accepts a transfer that takes time, and one that shows its departure again
with seconds. -/
theorem isTransferBlockValid_iff (h : receiveTransfer parseClock transfer = some block) :
    isTransferBlockValid transfer = true ↔
      block.departureTime < block.arrivalTime ∨ transfer.arrivalTime = transfer.departureTime ++ ":00" := by
  obtain ⟨hdeparture, harrival⟩ := receiveTransfer_spec h
  obtain ⟨tail, htext, htail, hmicro⟩ := parseClock_spec hdeparture
  obtain ⟨tail', htext', htail', hmicro'⟩ := parseClock_spec harrival
  have hlength : ∀ {s : String}, s ≠ "" → 0 < s.length := fun hne ↦ by
    rw [← String.length_toList, List.length_pos_iff]
    simpa using hne
  simp only [isTransferBlockValid, hlength (clock_ne_empty hdeparture), hlength (clock_ne_empty harrival),
    decide_true, Bool.true_and, decide_eq_true_eq, text_lt_iff htext htext' htail htail', time_lt_iff hmicro hmicro']
  constructor
  · rintro (hlt | ⟨heq, hlt | hsame⟩)
    · exact .inl (.inl hlt)
    · exact .inl (.inr ⟨heq, hlt⟩)
    · exact .inr hsame
  · rintro ((hlt | ⟨heq, hlt⟩) | hsame)
    · exact .inl hlt
    · exact .inr ⟨heq, .inl hlt⟩
    · exact .inr ⟨((seconds_added_iff htext htext').mp hsame).1, .inr hsame⟩

theorem not_later_of_seconds (h : receiveTransfer parseClock transfer = some block)
    (hsame : transfer.arrivalTime = transfer.departureTime ++ ":00") : ¬block.departureTime < block.arrivalTime := by
  obtain ⟨hdeparture, harrival⟩ := receiveTransfer_spec h
  obtain ⟨tail, htext, htail, hmicro⟩ := parseClock_spec hdeparture
  obtain ⟨tail', htext', htail', hmicro'⟩ := parseClock_spec harrival
  obtain ⟨hminute, htails⟩ := (seconds_added_iff htext htext').mp hsame
  have hzero := no_seconds_added htail htail' htails
  rw [time_lt_iff hmicro hmicro']
  omega

theorem transfer_agrees_iff (h : receiveTransfer parseClock transfer = some block) :
    (isTransferBlockValid transfer = true ↔ block.validate = .ok ()) ↔ TransferAgrees transfer block := by
  rw [isTransferBlockValid_iff h, TransferAgrees]
  simp only [TransferBlock.validate, then_ok, check_ok]
  by_cases hlt : block.departureTime < block.arrivalTime
  · have hnot : transfer.arrivalTime ≠ transfer.departureTime ++ ":00" := fun hsame ↦ not_later_of_seconds h hsame hlt
    simp [hlt, hnot]
  · simp [hlt]

/-- The checks of the form and of the backend agree exactly where a day that lasts minutes
is complete and no less than a minute is told apart, and where a transfer does not show its
departure again with seconds or a label that is too long. -/
theorem form_mirrors_backend_iff (day : Planner.DayConfig) (transfer : Planner.TransferBlock) :
    (∀ cfg, receiveDay parseClock day = some cfg → HoursInRange cfg →
      ((isDayConfigValid day = true ↔ cfg.validate = .ok ()) ↔ DayAgrees cfg)) ∧
    ∀ block, receiveTransfer parseClock transfer = some block →
      ((isTransferBlockValid transfer = true ↔ block.validate = .ok ()) ↔ TransferAgrees transfer block) :=
  ⟨fun _ ↦ day_agrees_iff, fun _ ↦ transfer_agrees_iff⟩

def briefDay : Planner.DayConfig :=
  { date := "2053-05-05", dayStartTime := some "09:00:30", dayEndTime := some "09:00:45" }

def shortTransfer : Planner.TransferBlock := ⟨"2053-05-06", "09:00", "10:15:00", none⟩

theorem form_mirrors_backend_iff_short :
    (∃ cfg, receiveDay parseClock briefDay = some cfg ∧
      ((isDayConfigValid briefDay = true ↔ cfg.validate = .ok ()) ↔ DayAgrees cfg)) ∧
    ∃ block, receiveTransfer parseClock shortTransfer = some block ∧
      ((isTransferBlockValid shortTransfer = true ↔ block.validate = .ok ()) ↔ TransferAgrees shortTransfer block) := by
  have hread : ((receiveDay parseClock briefDay).map fun cfg ↦ (cfg.dayStartHour, cfg.dayEndHour)) = some (9, 21) := by
    decide
  obtain ⟨cfg, hcfg, hhours⟩ := Option.map_eq_some_iff.mp hread
  obtain ⟨hstart, hend⟩ := Prod.mk.inj hhours
  have hrange : HoursInRange cfg := by
    rw [HoursInRange, hstart, hend]
    decide
  have hsome : (receiveTransfer parseClock shortTransfer).isSome := by decide
  obtain ⟨block, hblock⟩ := Option.isSome_iff_exists.mp hsome
  have hboth := form_mirrors_backend_iff briefDay shortTransfer
  exact ⟨⟨cfg, hcfg, hboth.1 cfg hcfg hrange⟩, block, hblock, hboth.2 block hblock⟩

example : isDayConfigValid briefDay = false := by decide

def standingTransfer : Planner.TransferBlock := ⟨"2053-05-06", "09:00", "09:00:00", none⟩

theorem standingTransfer_accepted : ¬((∀ day cfg, receiveDay parseClock day = some cfg → HoursInRange cfg →
      (isDayConfigValid day = true ↔ cfg.validate = .ok ())) ∧
    ∀ transfer block, receiveTransfer parseClock transfer = some block →
      (isTransferBlockValid transfer = true ↔ block.validate = .ok ())) := by
  rintro ⟨-, htransfers⟩
  have hread : (receiveTransfer parseClock standingTransfer).isSome := by decide
  obtain ⟨block, hblock⟩ := Option.isSome_iff_exists.mp hread
  have hvalid := (htransfers standingTransfer block hblock).mp (by decide)
  have hrejected : (receiveTransfer parseClock standingTransfer).all (fun block ↦ block.validate ≠ .ok ()) = true := by
    decide
  rw [hblock] at hrejected
  exact of_decide_eq_true hrejected hvalid

end Agreement

end TravelPlanner.FormChecks
