import Mathlib.Data.Int.Basic
import Mathlib.Logic.Function.Basic
import Mathlib.Logic.Relation
import TravelPlanner.Runs

namespace TravelPlanner.VersionLogs

open Runs

/-- How a version came about. A copy names the version it repeats. -/
inductive Origin
  | written | adopted
  | copy (number : ℤ)
  deriving DecidableEq

structure Version (C : Type*) where
  content : C
  origin : Origin

/-- Versions under consecutive numbers, the newest apart. -/
structure Log (C : Type*) where
  base : ℤ
  earlier : List (Version C)
  newest : Version C

variable {C Id K D : Type*}

namespace Log

variable {log : Log C} {v : Version C} {n : ℤ}

def current (log : Log C) : ℤ := log.base + log.earlier.length

def versions (log : Log C) : List (Version C) := log.earlier ++ [log.newest]

def lookup (log : Log C) (n : ℤ) : Option (Version C) :=
  if log.base ≤ n then log.versions[(n - log.base).toNat]? else none

def numbered (log : Log C) : List (ℤ × Version C) := log.versions.zipIdx.map fun v ↦ (log.base + v.2, v.1)

def start (base : ℤ) (v : Version C) : Log C := ⟨base, [], v⟩

def append (log : Log C) (v : Version C) : Log C := ⟨log.base, log.versions, v⟩

@[simp] theorem current_start (base : ℤ) (v : Version C) : (start base v).current = base := by
  simp [current, start]

@[simp] theorem current_append : (log.append v).current = log.current + 1 := by
  simp only [current, append, versions, List.length_append, List.length_singleton]
  omega

theorem base_le_current : log.base ≤ log.current := by
  simp only [current]
  omega

theorem lookup_ne_none : log.lookup n ≠ none ↔ log.base ≤ n ∧ n ≤ log.current := by
  have hlength : log.versions.length = log.earlier.length + 1 := by simp [versions]
  unfold lookup
  split_ifs with hbase
  · rw [Ne, List.getElem?_eq_none_iff, current]
    omega
  · exact iff_of_false (by simp) (by omega)

theorem mem_numbered : (n, v) ∈ log.numbered ↔ log.lookup n = some v := by
  simp only [numbered, lookup, List.mem_map, Prod.mk.injEq, Option.ite_none_right_eq_some, Prod.exists]
  constructor
  · rintro ⟨w, i, hw, hn, rfl⟩
    have hindex : (n - log.base).toNat = i := by omega
    rw [hindex]
    exact ⟨by omega, List.mk_mem_zipIdx_iff_getElem?.mp hw⟩
  · rintro ⟨hbase, hv⟩
    exact ⟨v, (n - log.base).toNat, List.mk_mem_zipIdx_iff_getElem?.mpr hv, by omega, rfl⟩

theorem numbered_increasing (log : Log C) : log.numbered.Pairwise fun a b ↦ a.1 < b.1 := by
  have hindices : (log.versions.zipIdx.map Prod.snd).Pairwise (· < ·) := by
    rw [List.zipIdx_map_snd]
    exact List.pairwise_lt_range'
  refine List.pairwise_map.mpr ((List.pairwise_map.mp hindices).imp fun hlt ↦ ?_)
  dsimp only
  omega

theorem lookup_current : log.lookup log.current = some log.newest := by
  have hindex : (log.current - log.base).toNat = log.earlier.length := by
    simp only [current]
    omega
  rw [lookup, if_pos base_le_current, hindex, versions, List.getElem?_concat_length]

theorem lookup_start {base : ℤ} : (start base v).lookup n = if base = n then some v else none := by
  by_cases hn : base = n
  · have hcurrent : (start base v).lookup (start base v).current = some v := lookup_current
    rw [current_start] at hcurrent
    rw [if_pos hn, ← hn, hcurrent]
  · rw [if_neg hn]
    by_contra hne
    have hrange := lookup_ne_none.mp hne
    rw [current_start] at hrange
    have hbase : (start base v).base = base := rfl
    omega

theorem lookup_append : (log.append v).lookup n = if log.current + 1 = n then some v else log.lookup n := by
  by_cases hn : log.current + 1 = n
  · rw [if_pos hn, ← hn, ← current_append (v := v), lookup_current]
    rfl
  · rw [if_neg hn]
    have hbase : (log.append v).base = log.base := rfl
    by_cases hrange : log.base ≤ n ∧ n ≤ log.current
    · have hindex : (n - log.base).toNat < log.versions.length := by
        simp only [versions, List.length_append, List.length_singleton]
        have := hrange.2
        simp only [current] at this
        omega
      rw [lookup, lookup, hbase, if_pos hrange.1, if_pos hrange.1]
      change (log.versions ++ [v])[(n - log.base).toNat]? = _
      rw [List.getElem?_append_left hindex]
    · have hnone : log.lookup n = none := by
        by_contra hne
        exact hrange (lookup_ne_none.mp hne)
      rw [hnone]
      by_contra hne
      have happended := lookup_ne_none.mp hne
      rw [current_append, hbase] at happended
      omega

end Log

abbrev Logs (Id C : Type*) := Id → Option (Log C)

/-- What can be asked of the logs. A write carries the number it was made from, a copy
the number of the version to repeat as well. -/
inductive Command (Id C : Type*)
  | create (id : Id) (content : C)
  | write (id : Id) (content : C) (token : Option ℤ)
  | copy (id : Id) (target token : ℤ)
  | remove (id : Id)
  | adopt (id : Id) (content : C) (number : ℤ)

inductive Refusal
  | otherKind | noToken | stale | absent | already | unknown | differs | taken | storage
  deriving DecidableEq

inductive Reply
  | version (number : ℤ)
  | nothing
  | removed (existed : Bool)
  | adopted | alreadyAdopted
  | refused (why : Refusal)
  deriving DecidableEq

section Steps

variable [DecidableEq Id] [DecidableEq K] [DecidableEq D] (kind : C → K) (digest : C → D) (Fits : ℤ → Prop)
  [DecidablePred Fits] (logs : Logs Id C)

def extend (id : Id) (log : Log C) (v : Version C) : Reply × Logs Id C :=
  if Fits (log.current + 1) then
    (.version (log.current + 1), Function.update logs id (some (log.append v)))
  else (.refused .storage, logs)

/-- One command: a new log, one version more, a log gone, or nothing but a reply. -/
def step : Command Id C → Reply × Logs Id C
  | .create id content =>
    match logs id with
    | some _ => (.refused .storage, logs)
    | none =>
      if Fits 0 then (.version 0, Function.update logs id (some (.start 0 ⟨content, .written⟩)))
      else (.refused .storage, logs)
  | .write id content token =>
    match logs id with
    | none => (.nothing, logs)
    | some log =>
      if kind log.newest.content ≠ kind content then (.refused .otherKind, logs)
      else
        match token with
        | none => (.refused .noToken, logs)
        | some token =>
          if token ≠ log.current then (.refused .stale, logs)
          else if digest content = digest log.newest.content then (.version log.current, logs)
          else extend Fits logs id log ⟨content, .written⟩
  | .copy id target token =>
    match logs id with
    | none => (.refused .absent, logs)
    | some log =>
      if token ≠ log.current then (.refused .stale, logs)
      else if target = log.current then (.refused .already, logs)
      else
        match log.lookup target with
        | none => (.refused .unknown, logs)
        | some v => extend Fits logs id log ⟨v.content, .copy target⟩
  | .remove id => (.removed (logs id).isSome, Function.update logs id none)
  | .adopt id content number =>
    match (logs id).bind fun log ↦ (log.lookup number).filter fun v ↦ v.origin = .adopted with
    | some v =>
      if digest v.content = digest content then (.alreadyAdopted, logs) else (.refused .differs, logs)
    | none =>
      match logs id with
      | some _ => (.refused .taken, logs)
      | none =>
        if Fits number then (.adopted, Function.update logs id (some (.start number ⟨content, .adopted⟩)))
        else (.refused .storage, logs)

def runCommands (commands : List (Command Id C)) : Logs Id C :=
  run (fun logs command ↦ (step kind digest Fits logs command).2) (fun _ ↦ none) commands

/-- A write changes the logs only by a version that follows the one it was made from. -/
theorem step_write_cases (id : Id) (content : C) (token : Option ℤ) :
    (step kind digest Fits logs (.write id content token)).2 = logs ∨
      ∃ log, logs id = some log ∧ token = some log.current ∧
        step kind digest Fits logs (.write id content token) =
          (.version (log.current + 1), Function.update logs id (some (log.append ⟨content, .written⟩))) := by
  simp only [step]
  cases hlog : logs id with
  | none => exact .inl rfl
  | some log =>
    dsimp only
    by_cases hkind : kind log.newest.content ≠ kind content
    · rw [if_pos hkind]
      exact .inl rfl
    rw [if_neg hkind]
    cases token with
    | none => exact .inl rfl
    | some token =>
      dsimp only
      by_cases hstale : token ≠ log.current
      · rw [if_pos hstale]
        exact .inl rfl
      rw [if_neg hstale]
      by_cases hsame : digest content = digest log.newest.content
      · rw [if_pos hsame]
        exact .inl rfl
      rw [if_neg hsame, extend]
      by_cases hfits : Fits (log.current + 1)
      · rw [if_pos hfits]
        exact .inr ⟨log, rfl, congrArg some (not_not.mp hstale), rfl⟩
      · rw [if_neg hfits]
        exact .inl rfl

variable {kind digest Fits logs}

end Steps

section Provenance

/-- A copy names an older version of the same log with its content. -/
def Sound (log : Log C) : Prop :=
  ∀ n v, log.lookup n = some v → ∀ k, v.origin = .copy k →
    k < n ∧ ∃ w, log.lookup k = some w ∧ w.content = v.content

theorem sound_start (base : ℤ) {v : Version C} (hv : ∀ k, v.origin ≠ .copy k) : Sound (.start base v) := by
  intro n w hw k hk
  rw [Log.lookup_start] at hw
  split_ifs at hw
  obtain rfl := Option.some.inj hw
  exact absurd hk (hv k)

theorem sound_append {log : Log C} (h : Sound log) {v : Version C}
    (hv : ∀ k, v.origin = .copy k → ∃ w, log.lookup k = some w ∧ w.content = v.content) :
    Sound (log.append v) := by
  have hkept : ∀ {k : ℤ} {w : Version C}, log.lookup k = some w → k ≤ log.current ∧ (log.append v).lookup k = some w := by
    intro k w hw
    have hle := (Log.lookup_ne_none.mp (hw ▸ Option.some_ne_none w)).2
    refine ⟨hle, ?_⟩
    rw [Log.lookup_append, if_neg (by omega), hw]
  intro n u hu k hk
  rw [Log.lookup_append] at hu
  split_ifs at hu with hn
  · obtain rfl := Option.some.inj hu
    obtain ⟨w, hw, hcontent⟩ := hv k hk
    obtain ⟨hle, hw'⟩ := hkept hw
    exact ⟨by omega, w, hw', hcontent⟩
  · obtain ⟨hlt, w, hw, hcontent⟩ := h n u hu k hk
    exact ⟨hlt, w, (hkept hw).2, hcontent⟩

def CopyOf (log : Log C) (n k : ℤ) : Prop := ∃ v, log.lookup n = some v ∧ v.origin = .copy k

/-- Going back from copy to copy ends at a version that is none, with the same content. -/
theorem Sound.exists_original {log : Log C} (h : Sound log) {n : ℤ} {v : Version C} (hv : log.lookup n = some v) :
    ∃ m w, Relation.ReflTransGen (CopyOf log) n m ∧ m ≤ n ∧ log.lookup m = some w ∧ w.content = v.content ∧
      ∀ k, w.origin ≠ .copy k := by
  -- numbers fall along copies and stay above the base
  have hind : ∀ (d : ℕ) (n : ℤ) (v : Version C), (n - log.base).toNat = d → log.lookup n = some v →
      ∃ m w, Relation.ReflTransGen (CopyOf log) n m ∧ m ≤ n ∧ log.lookup m = some w ∧ w.content = v.content ∧
        ∀ k, w.origin ≠ .copy k := by
    intro d
    induction d using Nat.strong_induction_on with
    | _ d ih =>
      intro n v hd hv
      by_cases hcopy : ∃ k, v.origin = .copy k
      · obtain ⟨k, hk⟩ := hcopy
        obtain ⟨hlt, w, hw, hcontent⟩ := h n v hv k hk
        have hk_range := Log.lookup_ne_none.mp (hw ▸ Option.some_ne_none w)
        obtain ⟨m, u, hreach, hle, hu, hsame, hnone⟩ := ih _ (by omega) k w rfl hw
        exact ⟨m, u, .head ⟨v, hv, hk⟩ hreach, by omega, hu, hsame.trans hcontent, hnone⟩
      · exact ⟨n, v, .refl, Int.le_refl n, hv, rfl, fun k hk ↦ hcopy ⟨k, hk⟩⟩
  exact hind _ n v rfl hv

variable [DecidableEq Id] [DecidableEq K] [DecidableEq D] {kind : C → K} {digest : C → D} {Fits : ℤ → Prop}
  [DecidablePred Fits] {logs : Logs Id C}

def AllSound (logs : Logs Id C) : Prop := ∀ id log, logs id = some log → Sound log

theorem AllSound.update (h : AllSound logs) {id : Id} {o : Option (Log C)} (ho : ∀ log ∈ o, Sound log) :
    AllSound (Function.update logs id o) := by
  intro id' log hlog
  rw [Function.update_apply] at hlog
  split_ifs at hlog
  · exact ho log hlog
  · exact h id' log hlog

theorem AllSound.extend (h : AllSound logs) {id : Id} {log : Log C} (hlog : logs id = some log) {v : Version C}
    (hv : ∀ k, v.origin = .copy k → ∃ w, log.lookup k = some w ∧ w.content = v.content) :
    AllSound (extend Fits logs id log v).2 := by
  unfold VersionLogs.extend
  split_ifs
  · refine h.update fun log' hlog' ↦ ?_
    obtain rfl := Option.some.inj hlog'
    exact sound_append (h id log hlog) hv
  · exact h

theorem AllSound.start (h : AllSound logs) (id : Id) (base : ℤ) {v : Version C} (hv : ∀ k, v.origin ≠ .copy k) :
    AllSound (Function.update logs id (some (.start base v))) := by
  refine h.update fun log' hlog' ↦ ?_
  obtain rfl := Option.some.inj hlog'
  exact sound_start base hv

theorem step_sound (h : AllSound logs) (command : Command Id C) : AllSound (step kind digest Fits logs command).2 := by
  cases command with
  | create id content =>
    simp only [step]
    split
    · exact h
    · split_ifs
      · exact h.start id 0 (by simp)
      · exact h
  | write id content token =>
    simp only [step]
    split
    · exact h
    · next log hlog =>
      by_cases hkind : kind log.newest.content ≠ kind content
      · rw [if_pos hkind]
        exact h
      · rw [if_neg hkind]
        cases token with
        | none => exact h
        | some token =>
          dsimp only
          split_ifs
          · exact h
          · exact h
          · exact h.extend hlog (by simp)
  | copy id target token =>
    simp only [step]
    split
    · exact h
    · next log hlog =>
      split_ifs
      · exact h
      · exact h
      · split
        · exact h
        · next v hv =>
          refine h.extend hlog fun k hk ↦ ?_
          obtain rfl := Origin.copy.inj hk
          exact ⟨v, hv, rfl⟩
  | remove id => exact h.update (by simp)
  | adopt id content number =>
    simp only [step]
    split
    · split_ifs
      · exact h
      · exact h
    · split
      · exact h
      · split_ifs
        · exact h.start id number (by simp)
        · exact h

theorem runCommands_sound (commands : List (Command Id C)) : AllSound (runCommands kind digest Fits commands) := by
  have hempty : AllSound (fun _ ↦ none : Logs Id C) := fun _ _ h ↦ by cases h
  have hstep : ∀ (logs : Logs Id C) (command : Command Id C), AllSound logs → True →
      AllSound (step kind digest Fits logs command).2 := fun _ command h _ ↦ step_sound h command
  exact (trace_invariant_of hempty hstep commands fun _ _ ↦ trivial).1

end Provenance

end TravelPlanner.VersionLogs
