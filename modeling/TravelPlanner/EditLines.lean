import Mathlib.Data.Bool.AllAny
import TravelPlanner.Delimiters
import TravelPlanner.EditOperations
import TravelPlanner.SnapshotJson
import TravelPlanner.TripContext

namespace TravelPlanner.EditLines

open IsoDates Requests EditOperations Delimiters
open SnapshotJson (modeText)
open TripContext (Text number twoDigits)

section Lines

/-- An operation as the model proposes it: dates and times are texts, and a field that is
absent or null is missing. -/
inductive Op
  | setPlaceAuto (placeId : PlaceId)
  | setPlacePinned (placeId : PlaceId) (dayIndex : ℕ) (preferredHourFrom preferredHourTo : Option ℤ)
  | setPlaceFlexible (placeId : PlaceId) (slots : List DaySlotOp)
  | removePlace (placeId : PlaceId)
  | updateDayWindow (dayIndex : ℕ) (dayStartHour dayEndHour : Option ℤ) (dayStartTime dayEndTime : Option String)
      (clearStartTime clearEndTime : Bool)
  | setTransportMode (mode : TransportMode)
  | addTransfer (date departureTime arrivalTime : String) (label : Option String)
  | updateTransfer (date : String) (departureTime arrivalTime label : Option String) (clearLabel : Bool)
  | removeTransfer (date : String)
  | addAccommodation (name : String) (lat lng : Coord) (checkInDate checkOutDate : String)
      (checkInFrom checkOutBy : Option String)
  | updateAccommodation (stayIndex : ℕ) (name : Option String) (lat lng : Option Coord)
      (checkInDate checkOutDate checkInFrom checkOutBy : Option String) (clearCheckInFrom clearCheckOutBy : Bool)
  | removeAccommodation (stayIndex : ℕ)
  deriving DecidableEq

def hour (value : Option ℤ) : Option String := value.map fun n ↦ String.ofList (twoDigits n) ++ ":00"

def windowText (hourFrom hourTo : Option ℤ) : String :=
  match hour hourFrom, hour hourTo with
  | some a, some b => a ++ "–" ++ b
  | some a, none => "from " ++ a
  | none, some b => "until " ++ b
  | none, none => ""

def windowParts (startHour endHour : Option ℤ) (startTime endTime : Option String) (clearStart clearEnd : Bool) :
    List String :=
  let w := windowText startHour endHour
  (if w ≠ "" then some ("window " ++ w) else none).toList ++
  ((startTime.filter (· ≠ "")).map fun t ↦ "start " ++ t).toList ++
  ((endTime.filter (· ≠ "")).map fun t ↦ "end " ++ t).toList ++
  (if clearStart then ["clear start time"] else []) ++
  if clearEnd then ["clear end time"] else []

def formatTripEditOperation : Op → String
  | .setPlaceAuto placeId => "Let place " ++ placeId ++ " be scheduled on any day"
  | .setPlacePinned placeId dayIndex hourFrom hourTo =>
    let w := windowText hourFrom hourTo
    "Pin place " ++ placeId ++ " to day " ++ toString dayIndex ++ if w ≠ "" then " (" ++ w ++ ")" else ""
  | .setPlaceFlexible placeId slots =>
    let days := ", ".intercalate (slots.map fun s ↦ toString s.dayIndex)
    "Make place " ++ placeId ++ " flexible across days " ++ days
  | .removePlace placeId => "Remove place " ++ placeId ++ " from the trip"
  | .updateDayWindow dayIndex startHour endHour startTime endTime clearStart clearEnd =>
    let parts := ", ".intercalate (windowParts startHour endHour startTime endTime clearStart clearEnd)
    "Day " ++ toString dayIndex ++ ": " ++ if parts ≠ "" then parts else "no change"
  | .setTransportMode mode => "Change transport mode to " ++ modeText mode
  | .addTransfer date departureTime arrivalTime _ =>
    "Add transfer on " ++ date ++ ": depart " ++ departureTime ++ ", arrive " ++ arrivalTime
  | .updateTransfer date _ _ _ _ => "Update the transfer on " ++ date
  | .removeTransfer date => "Remove the transfer on " ++ date
  | .addAccommodation name _ _ checkInDate checkOutDate _ _ =>
    "Add stay \"" ++ name ++ "\" " ++ checkInDate ++ " → " ++ checkOutDate
  | .updateAccommodation stayIndex .. => "Update stay " ++ toString stayIndex
  | .removeAccommodation stayIndex => "Remove stay " ++ toString stayIndex

def formatTripEditBatch (ops : List Op) : List String := ops.map formatTripEditOperation

end Lines

section Fields

def HourIn (lo hi : ℤ) (value : Option ℤ) : Prop := ∀ n ∈ value, lo ≤ n ∧ n ≤ hi

/-- Times come in several spellings, none of them with a blank. -/
def TimeText (s : String) : Prop := s ≠ "" ∧ ' ' ∉ s.toList

def DateText (s : String) : Prop := (parseDate s).isSome

def LatIn (lat : Coord) : Prop := -90 ≤ lat ∧ lat ≤ 90

def LngIn (lng : Coord) : Prop := -180 ≤ lng ∧ lng ≤ 180

def NameIn (name : String) : Prop := 1 ≤ name.length ∧ name.length ≤ 200

def LabelIn (label : Option String) : Prop := ∀ l ∈ label, l.length ≤ 200

def Op.WellFormed : Op → Prop
  | .setPlaceAuto placeId => placeId ≠ ""
  | .setPlacePinned placeId _ hourFrom hourTo => placeId ≠ "" ∧ HourIn 0 23 hourFrom ∧ HourIn 0 23 hourTo
  | .setPlaceFlexible placeId slots => placeId ≠ "" ∧ 2 ≤ slots.length ∧
      ∀ s ∈ slots, HourIn 0 23 s.preferredHourFrom ∧ HourIn 0 23 s.preferredHourTo
  | .removePlace placeId => placeId ≠ ""
  | .updateDayWindow _ startHour endHour startTime endTime _ _ => HourIn 0 23 startHour ∧ HourIn 1 24 endHour ∧
      (∀ t ∈ startTime, TimeText t) ∧ ∀ t ∈ endTime, TimeText t
  | .setTransportMode mode => mode ≠ .transit
  | .addTransfer date departureTime arrivalTime label =>
    DateText date ∧ TimeText departureTime ∧ TimeText arrivalTime ∧ LabelIn label
  | .updateTransfer date departureTime arrivalTime label _ =>
    DateText date ∧ (∀ t ∈ departureTime, TimeText t) ∧ (∀ t ∈ arrivalTime, TimeText t) ∧ LabelIn label
  | .removeTransfer date => DateText date
  | .addAccommodation name lat lng checkInDate checkOutDate checkInFrom checkOutBy =>
    NameIn name ∧ LatIn lat ∧ LngIn lng ∧ DateText checkInDate ∧ DateText checkOutDate ∧
      (∀ t ∈ checkInFrom, TimeText t) ∧ ∀ t ∈ checkOutBy, TimeText t
  | .updateAccommodation _ name lat lng checkInDate checkOutDate checkInFrom checkOutBy _ _ =>
    (∀ n ∈ name, NameIn n) ∧ (∀ c ∈ lat, LatIn c) ∧ (∀ c ∈ lng, LngIn c) ∧ (∀ d ∈ checkInDate, DateText d) ∧
      (∀ d ∈ checkOutDate, DateText d) ∧ (∀ t ∈ checkInFrom, TimeText t) ∧ ∀ t ∈ checkOutBy, TimeText t
  | .removeAccommodation _ => True

/-- An operation without the fields that its line does not show. -/
def Op.shown : Op → Op
  | .setPlaceFlexible placeId slots => .setPlaceFlexible placeId (slots.map fun s ↦ { s with
      preferredHourFrom := none
      preferredHourTo := none })
  | .addTransfer date departureTime arrivalTime _ => .addTransfer date departureTime arrivalTime none
  | .updateTransfer date _ _ _ _ => .updateTransfer date none none none false
  | .addAccommodation name _ _ checkInDate checkOutDate _ _ =>
    .addAccommodation name 0 0 checkInDate checkOutDate none none
  | .updateAccommodation stayIndex .. =>
    .updateAccommodation stayIndex none none none none none none none false false
  | op => op

end Fields

section Openings

inductive OpKind
  | setPlaceAuto | setPlacePinned | setPlaceFlexible | removePlace | updateDayWindow | setTransportMode | addTransfer
  | updateTransfer | removeTransfer | addAccommodation | updateAccommodation | removeAccommodation
  deriving DecidableEq

def Op.kind : Op → OpKind
  | .setPlaceAuto .. => .setPlaceAuto
  | .setPlacePinned .. => .setPlacePinned
  | .setPlaceFlexible .. => .setPlaceFlexible
  | .removePlace .. => .removePlace
  | .updateDayWindow .. => .updateDayWindow
  | .setTransportMode .. => .setTransportMode
  | .addTransfer .. => .addTransfer
  | .updateTransfer .. => .updateTransfer
  | .removeTransfer .. => .removeTransfer
  | .addAccommodation .. => .addAccommodation
  | .updateAccommodation .. => .updateAccommodation
  | .removeAccommodation .. => .removeAccommodation

def opening : OpKind → Text
  | .setPlaceAuto => "Let place ".toList
  | .setPlacePinned => "Pin place ".toList
  | .setPlaceFlexible => "Make place ".toList
  | .removePlace => "Remove place ".toList
  | .updateDayWindow => "Day ".toList
  | .setTransportMode => "Change transport mode to ".toList
  | .addTransfer => "Add transfer on ".toList
  | .updateTransfer => "Update the transfer on ".toList
  | .removeTransfer => "Remove the transfer on ".toList
  | .addAccommodation => "Add stay \"".toList
  | .updateAccommodation => "Update stay ".toList
  | .removeAccommodation => "Remove stay ".toList

def kinds : List OpKind :=
  [.setPlaceAuto, .setPlacePinned, .setPlaceFlexible, .removePlace, .updateDayWindow, .setTransportMode, .addTransfer,
    .updateTransfer, .removeTransfer, .addAccommodation, .updateAccommodation, .removeAccommodation]

theorem mem_kinds (k : OpKind) : k ∈ kinds := by cases k <;> decide

theorem opening_free (k k' : OpKind) (h : opening k <+: opening k') : k = k' := by
  have hall : ∀ k ∈ kinds, ∀ k' ∈ kinds, opening k <+: opening k' → k = k' := by decide +kernel
  exact hall k (mem_kinds k) k' (mem_kinds k') h

def rest : Op → Text
  | .setPlaceAuto placeId => placeId.toList ++ " be scheduled on any day".toList
  | .setPlacePinned placeId dayIndex hourFrom hourTo =>
    let w := windowText hourFrom hourTo
    placeId.toList ++ " to day ".toList ++ (toString dayIndex).toList ++
      if w ≠ "" then " (".toList ++ w.toList ++ ")".toList else []
  | .setPlaceFlexible placeId slots => placeId.toList ++ " flexible across days ".toList ++
      ", ".toList.intercalate (slots.map fun s ↦ (toString s.dayIndex).toList)
  | .removePlace placeId => placeId.toList ++ " from the trip".toList
  | .updateDayWindow dayIndex startHour endHour startTime endTime clearStart clearEnd =>
    let parts := ", ".intercalate (windowParts startHour endHour startTime endTime clearStart clearEnd)
    (toString dayIndex).toList ++ ": ".toList ++ (if parts ≠ "" then parts else "no change").toList
  | .setTransportMode mode => (modeText mode).toList
  | .addTransfer date departureTime arrivalTime _ =>
    date.toList ++ ": depart ".toList ++ departureTime.toList ++ ", arrive ".toList ++ arrivalTime.toList
  | .updateTransfer date _ _ _ _ => date.toList
  | .removeTransfer date => date.toList
  | .addAccommodation name _ _ checkInDate checkOutDate _ _ =>
    name.toList ++ "\" ".toList ++ checkInDate.toList ++ " → ".toList ++ checkOutDate.toList
  | .updateAccommodation stayIndex .. => (toString stayIndex).toList
  | .removeAccommodation stayIndex => (toString stayIndex).toList

theorem toList_format (op : Op) : (formatTripEditOperation op).toList = opening op.kind ++ rest op := by
  cases op with
  | setPlacePinned placeId dayIndex hourFrom hourTo =>
    delta formatTripEditOperation rest
    simp only [String.toList_append, List.append_assoc, apply_ite String.toList]
    rfl
  | setPlaceFlexible placeId slots =>
    delta formatTripEditOperation rest
    simp only [String.toList_append, String.toList_intercalate, List.append_assoc, List.map_map]
    rfl
  | _ =>
    delta formatTripEditOperation rest
    simp only [String.toList_append, List.append_assoc]
    rfl

theorem rest_shown (op : Op) : rest op.shown = rest op := by
  cases op with
  | setPlaceFlexible placeId slots => simp only [Op.shown, rest, List.map_map, Function.comp_def]
  | _ => simp only [Op.shown, rest]

theorem kind_shown (op : Op) : op.shown.kind = op.kind := by cases op <;> rfl

end Openings

section Hours

variable {f t f' t' : Option ℤ}

theorem toList_toString (n : ℕ) : (toString n).toList = Nat.toDigits 10 n := Nat.toList_repr

theorem toString_digits {n : ℕ} {c : Char} (hc : c ∈ (toString n).toList) : c.isDigit = true := by
  rw [toList_toString] at hc
  exact JsonRoundTrip.toDigits_isDigit hc

theorem toString_free {c : Char} (hc : c.isDigit = false) (n : ℕ) : c ∉ (toString n).toList := fun h ↦ by
  rw [toString_digits h] at hc
  cases hc

theorem toString_ne_nil (n : ℕ) : (toString n).toList ≠ [] := by
  rw [toList_toString]
  exact Nat.toDigits_ne_nil

theorem toString_inj {m n : ℕ} (h : (toString m).toList = (toString n).toList) : m = n := by
  rw [toList_toString, toList_toString] at h
  rw [← Nat.ofDigitChars_ten_toDigits (n := m), h, Nat.ofDigitChars_ten_toDigits]

theorem twoDigits_nat (n : ℕ) : twoDigits n = Nat.toDigits 10 n ∨ twoDigits n = '0' :: Nat.toDigits 10 n := by
  have hnumber : number n = Nat.toDigits 10 n := Nat.toList_repr
  rw [twoDigits, hnumber]
  split_ifs
  · exact .inr rfl
  · exact .inl rfl

theorem twoDigits_digits {n : ℤ} (hn : 0 ≤ n) : twoDigits n ≠ [] ∧ ∀ c ∈ twoDigits n, c.isDigit = true := by
  obtain ⟨n, rfl⟩ := Int.eq_ofNat_of_zero_le hn
  have hdigits : ∀ c ∈ Nat.toDigits 10 n, c.isDigit = true :=
    fun c hc ↦ Nat.isDigit_of_mem_toDigits (by decide) (by decide) hc
  rcases twoDigits_nat n with h | h
  · rw [h]
    exact ⟨Nat.toDigits_ne_nil, hdigits⟩
  · rw [h]
    exact ⟨List.cons_ne_nil _ _, List.forall_mem_cons.mpr ⟨by decide, hdigits⟩⟩

theorem twoDigits_value (n : ℕ) : Nat.ofDigitChars 10 (twoDigits n) 0 = n := by
  rcases twoDigits_nat n with h | h
  · rw [h, Nat.ofDigitChars_ten_toDigits]
  · rw [h, Nat.ofDigitChars_cons]
    exact Nat.ofDigitChars_ten_toDigits

theorem twoDigits_inj {m n : ℤ} (hm : 0 ≤ m) (hn : 0 ≤ n) (h : twoDigits m = twoDigits n) : m = n := by
  obtain ⟨m, rfl⟩ := Int.eq_ofNat_of_zero_le hm
  obtain ⟨n, rfl⟩ := Int.eq_ofNat_of_zero_le hn
  have hvalue := congrArg (Nat.ofDigitChars 10 · 0) h
  simp only [twoDigits_value] at hvalue
  rw [hvalue]

def hourText (n : ℤ) : Text := twoDigits n ++ ":00".toList

theorem window_both (a b : ℤ) : (windowText (some a) (some b)).toList = hourText a ++ '–' :: hourText b := by
  simp [windowText, hour, hourText]

theorem window_from (a : ℤ) : (windowText (some a) none).toList = "from ".toList ++ hourText a := by
  simp [windowText, hour, hourText]

theorem window_until (b : ℤ) : (windowText none (some b)).toList = "until ".toList ++ hourText b := by
  simp [windowText, hour, hourText]

theorem hourText_chars {n : ℤ} (hn : 0 ≤ n) {c : Char} (hc : c ∈ hourText n) : c.isDigit = true ∨ c = ':' := by
  rcases List.mem_append.mp hc with h | h
  · exact .inl ((twoDigits_digits hn).2 c h)
  · have hall : ∀ c ∈ ":00".toList, c.isDigit = true ∨ c = ':' := List.all_iff_forall_prop.mp (by decide)
    exact hall c h

theorem hourText_inj {m n : ℤ} (hm : 0 ≤ m) (hn : 0 ≤ n) (h : hourText m = hourText n) : m = n :=
  twoDigits_inj hm hn (List.append_cancel_right h)

def NonNeg (value : Option ℤ) : Prop := ∀ n ∈ value, 0 ≤ n

theorem windowText_chars (hf : NonNeg f) (ht : NonNeg t) {c : Char} (hc : c ∈ (windowText f t).toList) :
    c.isDigit = true ∨ c ∈ ":– fromuntil".toList := by
  have hhour : ∀ {n : ℤ}, 0 ≤ n → c ∈ hourText n → c.isDigit = true ∨ c ∈ ":– fromuntil".toList :=
    fun hn h ↦ (hourText_chars hn h).imp_right fun h ↦ by
      rw [h]
      decide
  cases f with
  | none =>
    cases t with
    | none => cases hc
    | some b =>
      rw [window_until] at hc
      rcases List.mem_append.mp hc with h | h
      · have hall : ∀ c ∈ "until ".toList, c ∈ ":– fromuntil".toList := List.all_iff_forall_prop.mp (by decide)
        exact .inr (hall c h)
      · exact hhour (ht b rfl) h
  | some a =>
    cases t with
    | none =>
      rw [window_from] at hc
      rcases List.mem_append.mp hc with h | h
      · have hall : ∀ c ∈ "from ".toList, c ∈ ":– fromuntil".toList := List.all_iff_forall_prop.mp (by decide)
        exact .inr (hall c h)
      · exact hhour (hf a rfl) h
    | some b =>
      rw [window_both] at hc
      rcases List.mem_append.mp hc with h | h
      · exact hhour (hf a rfl) h
      · rcases List.mem_cons.mp h with rfl | h
        · exact .inr (by decide)
        · exact hhour (ht b rfl) h

theorem windowText_free (hf : NonNeg f) (ht : NonNeg t) {c : Char} (hdigit : c.isDigit = false)
    (hc : c ∉ ":– fromuntil".toList) : c ∉ (windowText f t).toList := by
  intro h
  rcases windowText_chars hf ht h with h | h
  · rw [h] at hdigit
    cases hdigit
  · exact hc h

theorem hourText_head {n : ℤ} (hn : 0 ≤ n) : ∃ c s, hourText n = c :: s ∧ c ≠ 'u' ∧ c ≠ 'f' := by
  obtain ⟨hne, hdigits⟩ := twoDigits_digits hn
  obtain ⟨c, s, hshape⟩ := List.exists_cons_of_ne_nil hne
  have hdigit := hdigits c (hshape ▸ List.mem_cons_self)
  refine ⟨c, s ++ ":00".toList, by rw [hourText, hshape, List.cons_append], ?_, ?_⟩
  · rintro rfl
    exact absurd hdigit (by decide)
  · rintro rfl
    exact absurd hdigit (by decide)

theorem windowText_shape (hf : NonNeg f) (hf' : NonNeg f') (h : windowText f t = windowText f' t') :
    f.isSome = f'.isSome ∧ t.isSome = t'.isSome := by
  have hhead : ∀ {f t : Option ℤ}, NonNeg f → (windowText f t).toList.head? = none ∧ f = none ∧ t = none ∨
      (windowText f t).toList.head? = some 'u' ∧ f = none ∧ t.isSome ∨
      (windowText f t).toList.head? = some 'f' ∧ f.isSome ∧ t = none ∨
      (∃ c, (windowText f t).toList.head? = some c ∧ c ≠ 'u' ∧ c ≠ 'f') ∧ f.isSome ∧ t.isSome := by
    intro f t hf
    cases f with
    | none =>
      cases t with
      | none => exact .inl ⟨rfl, rfl, rfl⟩
      | some b => exact .inr (.inl ⟨by rw [window_until]; rfl, rfl, rfl⟩)
    | some a =>
      cases t with
      | none => exact .inr (.inr (.inl ⟨by rw [window_from]; rfl, rfl, rfl⟩))
      | some b =>
        obtain ⟨c, s, hshape, hu, hfrom⟩ := hourText_head (hf a rfl)
        exact .inr (.inr (.inr ⟨⟨c, by rw [window_both, hshape]; rfl, hu, hfrom⟩, rfl, rfl⟩))
  have h₁ := hhead (t := t) hf
  have h₂ := hhead (t := t') hf'
  rw [← h] at h₂
  rcases h₁ with ⟨hd, rfl, rfl⟩ | ⟨hd, rfl, ht⟩ | ⟨hd, hfs, rfl⟩ | ⟨⟨c, hd, hu, hfc⟩, hfs, hts⟩ <;>
    rw [hd] at h₂ <;> simp_all

theorem windowText_inj (hf : NonNeg f) (ht : NonNeg t) (hf' : NonNeg f') (ht' : NonNeg t')
    (h : windowText f t = windowText f' t') : f = f' ∧ t = t' := by
  obtain ⟨hfrom, huntil⟩ := windowText_shape hf hf' h
  have htext := congrArg String.toList h
  have hdash : ∀ {n : ℤ}, 0 ≤ n → '–' ∉ hourText n := fun hn hmem ↦
    (hourText_chars hn hmem).elim (fun hdigit ↦ absurd hdigit (by decide)) fun hcolon ↦ absurd hcolon (by decide)
  have hsame : ∀ {m n : ℤ}, NonNeg (some m) → NonNeg (some n) → hourText m = hourText n → m = n :=
    fun hm hn ↦ hourText_inj (hm _ rfl) (hn _ rfl)
  cases f with
  | none =>
    obtain rfl : f' = none := by simpa using hfrom.symm
    cases t with
    | none =>
      obtain rfl : t' = none := by simpa using huntil.symm
      exact ⟨rfl, rfl⟩
    | some b =>
      obtain ⟨b', rfl⟩ := Option.isSome_iff_exists.mp huntil.symm
      rw [window_until, window_until] at htext
      exact ⟨rfl, congrArg some (hsame ht ht' (List.append_cancel_left htext))⟩
  | some a =>
    obtain ⟨a', rfl⟩ := Option.isSome_iff_exists.mp hfrom.symm
    cases t with
    | none =>
      obtain rfl : t' = none := by simpa using huntil.symm
      rw [window_from, window_from] at htext
      exact ⟨congrArg some (hsame hf hf' (List.append_cancel_left htext)), rfl⟩
    | some b =>
      obtain ⟨b', rfl⟩ := Option.isSome_iff_exists.mp huntil.symm
      rw [window_both, window_both] at htext
      obtain ⟨hstart, hend⟩ := first_inj (hdash (hf a rfl)) (hdash (hf' a' rfl)) htext
      exact ⟨congrArg some (hsame hf hf' hstart), congrArg some (hsame ht ht' hend)⟩

end Hours

section Contents

variable {p p' : PlaceId} {n n' : ℕ} {f t f' t' : Option ℤ}

def target (p : PlaceId) (n : ℕ) : Text := p.toList ++ " to day ".toList ++ (toString n).toList

theorem target_inj (h : target p n = target p' n') : p = p' ∧ n = n' := by
  have hsplit : ∀ (p : PlaceId) (n : ℕ), target p n = (p.toList ++ " to day".toList) ++ ' ' :: (toString n).toList := by
    intro p n
    simp [target]
  rw [hsplit, hsplit] at h
  obtain ⟨hplace, hday⟩ := last_inj (toString_free (by decide) n) (toString_free (by decide) n') h
  exact ⟨String.toList_inj.mp (List.append_cancel_right hplace), toString_inj hday⟩

theorem target_last (p : PlaceId) (n : ℕ) : ∃ c, (target p n).getLast? = some c ∧ c ≠ ')' := by
  obtain ⟨front, c, hshape⟩ := (List.eq_nil_or_concat (toString n).toList).resolve_left (toString_ne_nil n)
  have hdigit : c.isDigit = true := toString_digits (n := n) (by rw [hshape]; simp)
  refine ⟨c, by rw [target, hshape, List.concat_eq_append, ← List.append_assoc, List.getLast?_concat], ?_⟩
  rintro rfl
  exact absurd hdigit (by decide)

def bracketed (w : String) : Text := if w ≠ "" then " (".toList ++ w.toList ++ ")".toList else []

/-- A pinned place is read from the end of its line. -/
theorem target_bracketed_inj {w w' : String} (hw : '(' ∉ w.toList) (hw' : '(' ∉ w'.toList)
    (h : target p n ++ bracketed w = target p' n' ++ bracketed w') : p = p' ∧ n = n' ∧ w = w' := by
  have hmixed : ∀ {p p' : PlaceId} {n n' : ℕ} {w : String},
      target p n ≠ target p' n' ++ (" (".toList ++ w.toList ++ ")".toList) := by
    intro p p' n n' w heq
    obtain ⟨c, hlast, hc⟩ := target_last p n
    rw [heq, ← List.append_assoc] at hlast
    exact hc (Option.some.inj ((List.getLast?_concat).symm.trans hlast)).symm
  have hsplit : ∀ (a : Text) (w : String),
      a ++ (" (".toList ++ w.toList ++ ")".toList) = (a ++ [' ']) ++ '(' :: (w.toList ++ [')']) := by
    intro a w
    simp
  by_cases hnone : w = ""
  · by_cases hnone' : w' = ""
    · subst hnone hnone'
      simp only [bracketed, ne_eq, not_true_eq_false, if_false, List.append_nil] at h
      obtain ⟨hplace, hday⟩ := target_inj h
      exact ⟨hplace, hday, rfl⟩
    · simp only [bracketed, hnone, hnone', ne_eq, not_true_eq_false, not_false_eq_true, if_false, if_true,
        List.append_nil] at h
      exact absurd h hmixed
  · by_cases hnone' : w' = ""
    · simp only [bracketed, hnone, hnone', ne_eq, not_true_eq_false, not_false_eq_true, if_false, if_true,
        List.append_nil] at h
      exact absurd h.symm hmixed
    · simp only [bracketed, hnone, hnone', ne_eq, not_false_eq_true, if_true, hsplit] at h
      obtain ⟨hfront, hback⟩ := last_inj (by simpa using hw) (by simpa using hw') h
      obtain ⟨hplace, hday⟩ := target_inj (List.append_cancel_right hfront)
      exact ⟨hplace, hday, String.toList_inj.mp (List.append_cancel_right hback)⟩

theorem pinned_inj (hf : NonNeg f) (ht : NonNeg t) (hf' : NonNeg f') (ht' : NonNeg t')
    (h : rest (.setPlacePinned p n f t) = rest (.setPlacePinned p' n' f' t')) :
    p = p' ∧ n = n' ∧ f = f' ∧ t = t' := by
  have hfree := windowText_free hf ht (c := '(') (by decide) (by decide)
  have hfree' := windowText_free hf' ht' (c := '(') (by decide) (by decide)
  simp only [rest] at h
  obtain ⟨hplace, hday, hwindow⟩ := target_bracketed_inj hfree hfree' h
  exact ⟨hplace, hday, windowText_inj hf ht hf' ht' hwindow⟩

theorem pair_comma {a : Text} (h : [',', ' '] <:+: a) : ',' ∈ a := h.subset List.mem_cons_self

theorem numerals_free (days : List ℕ) :
    ∀ d ∈ days.map fun n ↦ (toString n).toList, d ≠ [] ∧ ¬[',', ' '] <:+: d := by
  intro d hd
  obtain ⟨n, -, rfl⟩ := List.mem_map.mp hd
  exact ⟨toString_ne_nil n, fun h ↦ toString_free (by decide) n (pair_comma h)⟩

theorem days_inj {days days' : List ℕ} (h : ", ".toList.intercalate (days.map fun n ↦ (toString n).toList) =
    ", ".toList.intercalate (days'.map fun n ↦ (toString n).toList)) : days = days' := by
  have hlist := joined_inj (x := ',') (y := ' ') (by decide) (numerals_free days) (numerals_free days') h
  exact List.map_injective_iff.mpr (fun _ _ ↦ toString_inj) hlist

theorem days_chars (days : List ℕ) {c : Char}
    (hc : c ∈ ", ".toList.intercalate (days.map fun n ↦ (toString n).toList)) : c.isDigit = true ∨ c ∈ ", ".toList := by
  induction days with
  | nil => cases hc
  | cons n days ih =>
    cases days with
    | nil =>
      rw [List.map_singleton, List.intercalate_singleton] at hc
      exact .inl (toString_digits hc)
    | cons m days =>
      rw [List.map_cons, List.map_cons, List.intercalate_cons_cons, List.append_assoc, List.mem_append,
        List.mem_append] at hc
      rcases hc with hc | hc | hc
      · exact .inl (toString_digits hc)
      · exact .inr hc
      · exact ih hc

theorem flexible_inj {slots slots' : List DaySlotOp}
    (h : rest (.setPlaceFlexible p slots) = rest (.setPlaceFlexible p' slots')) :
    p = p' ∧ slots.map DaySlotOp.dayIndex = slots'.map DaySlotOp.dayIndex := by
  have hdays : ∀ slots : List DaySlotOp, (slots.map fun s ↦ (toString s.dayIndex).toList) =
      (slots.map DaySlotOp.dayIndex).map fun n ↦ (toString n).toList := by
    intro slots
    rw [List.map_map]
    rfl
  have hsplit : ∀ (p : PlaceId) (d : Text), p.toList ++ " flexible across days ".toList ++ d =
      (p.toList ++ " flexible across day".toList) ++ 's' :: ' ' :: d := by
    intro p d
    simp
  have hfree : ∀ days : List ℕ, 's' ∉ ' ' :: ", ".toList.intercalate (days.map fun n ↦ (toString n).toList) := by
    intro days hmem
    rcases List.mem_cons.mp hmem with hblank | hmem
    · exact absurd hblank (by decide)
    · rcases days_chars days hmem with hdigit | hsign
      · exact absurd hdigit (by decide)
      · exact absurd hsign (by decide)
  simp only [rest, hdays, hsplit] at h
  obtain ⟨hplace, hlist⟩ := last_inj (hfree _) (hfree _) h
  exact ⟨String.toList_inj.mp (List.append_cancel_right hplace), days_inj (List.cons.inj hlist).2⟩

theorem dateText_chars {s : String} (h : DateText s) {c : Char} (hc : c ∈ s.toList) : c.isDigit = true ∨ c = '-' := by
  obtain ⟨d, hd⟩ := Option.isSome_iff_exists.mp h
  have hdigits : ∀ w n, c ∈ digits w n → c.isDigit = true := by
    intro w
    induction w with
    | zero => exact fun n hmem ↦ absurd hmem List.not_mem_nil
    | succ w ih =>
      intro n hmem
      rcases List.mem_append.mp hmem with hmem | hmem
      · exact ih _ hmem
      · rw [List.mem_singleton.mp hmem]
        exact (digit_isDigit n).1
  rw [parseDate_iff.mp hd, isoformat, String.toList_ofList] at hc
  simp only [List.mem_append, List.mem_cons, List.append_assoc, List.cons_append] at hc
  rcases hc with hc | hc | hc | hc | hc
  · exact .inl (hdigits _ _ hc)
  · exact .inr hc
  · exact .inl (hdigits _ _ hc)
  · exact .inr hc
  · exact .inl (hdigits _ _ hc)

theorem dateText_free {s : String} (h : DateText s) {c : Char} (hdigit : c.isDigit = false) (hc : c ≠ '-') :
    c ∉ s.toList := by
  intro hmem
  rcases dateText_chars h hmem with hmem | hmem
  · rw [hmem] at hdigit
    cases hdigit
  · exact hc hmem

theorem addTransfer_inj {date date' departure departure' arrival arrival' : String} {label label' : Option String}
    (hdate : DateText date) (hdate' : DateText date') (htime : TimeText departure) (htime' : TimeText departure')
    (h : rest (.addTransfer date departure arrival label) = rest (.addTransfer date' departure' arrival' label')) :
    date = date' ∧ departure = departure' ∧ arrival = arrival' := by
  have hsplit : ∀ date departure arrival : Text,
      date ++ ": depart ".toList ++ departure ++ ", arrive ".toList ++ arrival =
        date ++ ':' :: (" depart ".toList ++ (departure ++ [','] ++ ' ' :: ("arrive ".toList ++ arrival))) := by
    intro date departure arrival
    simp
  have hcomma : ∀ {s : String}, TimeText s → ' ' ∉ s.toList ++ [','] := fun hs ↦ by simp [hs.2]
  simp only [rest, hsplit] at h
  obtain ⟨hdates, h⟩ := first_inj (dateText_free hdate (by decide) (by decide))
    (dateText_free hdate' (by decide) (by decide)) h
  obtain ⟨hdepartures, h⟩ := first_inj (hcomma htime) (hcomma htime') (List.append_cancel_left h)
  exact ⟨String.toList_inj.mp hdates, String.toList_inj.mp (List.append_cancel_right hdepartures),
    String.toList_inj.mp (List.append_cancel_left h)⟩

/-- A name may hold any signs: the dates are read from the end of the line. -/
theorem addAccommodation_inj {name name' checkIn checkIn' checkOut checkOut' : String} {lat lat' lng lng' : Coord}
    {checkInFrom checkInFrom' checkOutBy checkOutBy' : Option String} (hin : DateText checkIn)
    (hin' : DateText checkIn') (hout : DateText checkOut) (hout' : DateText checkOut')
    (h : rest (.addAccommodation name lat lng checkIn checkOut checkInFrom checkOutBy) =
      rest (.addAccommodation name' lat' lng' checkIn' checkOut' checkInFrom' checkOutBy')) :
    name = name' ∧ checkIn = checkIn' ∧ checkOut = checkOut' := by
  have hsplit : ∀ name checkIn checkOut : Text,
      name ++ "\" ".toList ++ checkIn ++ " → ".toList ++ checkOut =
        (name ++ '"' :: (' ' :: checkIn ++ [' '])) ++ '→' :: ' ' :: checkOut := by
    intro name checkIn checkOut
    simp
  have harrow : ∀ {s : String}, DateText s → '→' ∉ ' ' :: s.toList := fun hs ↦ by
    simp [dateText_free hs (c := '→') (by decide) (by decide)]
  have hquote : ∀ {s : String}, DateText s → '"' ∉ ' ' :: s.toList ++ [' '] := fun hs ↦ by
    simp [dateText_free hs (c := '"') (by decide) (by decide)]
  simp only [rest, hsplit] at h
  obtain ⟨h, houts⟩ := last_inj (harrow hout) (harrow hout') h
  obtain ⟨hnames, hins⟩ := last_inj (hquote hin) (hquote hin') h
  exact ⟨String.toList_inj.mp hnames,
    String.toList_inj.mp (List.cons.inj (List.append_cancel_right hins)).2,
    String.toList_inj.mp (List.cons.inj houts).2⟩

end Contents

section Parts

variable {f t f' t' : Option ℤ} {start finish start' finish' : Option String} {clear clear' clearEnd clearEnd' : Bool}

def windowPart (w : String) : Option String := if w ≠ "" then some ("window " ++ w) else none

def timePart (label : String) (time : Option String) : Option String := (time.filter (· ≠ "")).map fun t ↦ label ++ t

def clearParts (clearStart clearEnd : Bool) : List String :=
  (if clearStart then ["clear start time"] else []) ++ if clearEnd then ["clear end time"] else []

theorem windowParts_eq (f t : Option ℤ) (start finish : Option String) (clear clearEnd : Bool) :
    windowParts f t start finish clear clearEnd = (windowPart (windowText f t)).toList ++
      ((timePart "start " start).toList ++ ((timePart "end " finish).toList ++ clearParts clear clearEnd)) := by
  simp only [windowParts, windowPart, timePart, clearParts, List.append_assoc]

def Starts (c : Char) (part : String) : Prop := part.toList.head? = some c

instance (c : Char) (part : String) : Decidable (Starts c part) := inferInstanceAs (Decidable (_ = _))

theorem starts_append {label : String} {c : Char} (h : Starts c label) (s : String) : Starts c (label ++ s) := by
  rw [Starts, String.toList_append, List.head?_append, h]
  rfl

theorem windowPart_starts {w z : String} (hz : z ∈ windowPart w) : Starts 'w' z := by
  have hlabel : Starts 'w' "window " := by decide
  unfold windowPart at hz
  split_ifs at hz
  · rw [← Option.some.inj hz]
    exact starts_append hlabel w
  · cases hz

theorem timePart_starts {label z : String} {c : Char} {time : Option String} (hlabel : Starts c label)
    (hz : z ∈ timePart label time) : Starts c z := by
  obtain ⟨t, -, rfl⟩ := Option.map_eq_some_iff.mp hz
  exact starts_append hlabel t

theorem clearParts_starts {z : String} (hz : z ∈ clearParts clear clearEnd) : Starts 'c' z := by
  have hall : ∀ clear clearEnd, ∀ z ∈ clearParts clear clearEnd, z.toList.head? = some 'c' := by decide
  exact hall clear clearEnd z hz

theorem starts_unique {z : String} {c d : Char} (h : Starts c z) (hcd : c ≠ d) : ¬Starts d z := fun h' ↦
  hcd (Option.some.inj (h.symm.trans h'))

theorem windowPart_inj {w w' : String} (h : windowPart w = windowPart w') : w = w' := by
  unfold windowPart at h
  split_ifs at h with hw hw' hw'
  · rw [← String.toList_inj, ← List.append_cancel_left_eq "window ".toList, ← String.toList_append,
      ← String.toList_append, Option.some.inj h]
  · rw [not_not.mp hw, not_not.mp hw']

theorem timePart_inj {label : String} {time time' : Option String} (htime : ∀ s ∈ time, TimeText s)
    (htime' : ∀ s ∈ time', TimeText s) (h : timePart label time = timePart label time') : time = time' := by
  have hfilter : ∀ {time : Option String}, (∀ s ∈ time, TimeText s) → time.filter (· ≠ "") = time := by
    intro time htime
    cases time with
    | none => rfl
    | some s => simp [(htime s rfl).1]
  have hlabel : Function.Injective fun s : String ↦ label ++ s := by
    intro s s' heq
    have htext := congrArg String.toList heq
    rw [String.toList_append, String.toList_append] at htext
    exact String.toList_inj.mp (List.append_cancel_left htext)
  rw [timePart, timePart, hfilter htime, hfilter htime'] at h
  exact Option.map_injective hlabel h

theorem clearParts_inj (h : clearParts clear clearEnd = clearParts clear' clearEnd') :
    clear = clear' ∧ clearEnd = clearEnd' := by
  have hall : ∀ clear clearEnd clear' clearEnd', clearParts clear clearEnd = clearParts clear' clearEnd' →
      clear = clear' ∧ clearEnd = clearEnd' := by decide
  exact hall _ _ _ _ h

theorem windowParts_inj (hf : NonNeg f) (ht : NonNeg t) (hf' : NonNeg f') (ht' : NonNeg t')
    (hstart : ∀ s ∈ start, TimeText s) (hfinish : ∀ s ∈ finish, TimeText s) (hstart' : ∀ s ∈ start', TimeText s)
    (hfinish' : ∀ s ∈ finish', TimeText s)
    (h : windowParts f t start finish clear clearEnd = windowParts f' t' start' finish' clear' clearEnd') :
    f = f' ∧ t = t' ∧ start = start' ∧ finish = finish' ∧ clear = clear' ∧ clearEnd = clearEnd' := by
  have hs : Starts 's' "start " := by decide
  have he : Starts 'e' "end " := by decide
  have hflags : ∀ {d : Char} {clear clearEnd : Bool}, 'c' ≠ d → ∀ z ∈ clearParts clear clearEnd, ¬Starts d z :=
    fun hd z hz ↦ starts_unique (clearParts_starts hz) hd
  have hends : ∀ {d : Char} {finish : Option String} {clear clearEnd : Bool}, 'e' ≠ d → 'c' ≠ d →
      ∀ z ∈ (timePart "end " finish).toList ++ clearParts clear clearEnd, ¬Starts d z := by
    intro d finish clear clearEnd hed hcd z hz
    rcases List.mem_append.mp hz with hz | hz
    · exact starts_unique (timePart_starts he (Option.mem_toList.mp hz)) hed
    · exact hflags hcd z hz
  have hstarts : ∀ {start finish : Option String} {clear clearEnd : Bool}, ∀ z ∈ (timePart "start " start).toList ++
      ((timePart "end " finish).toList ++ clearParts clear clearEnd), ¬Starts 'w' z := by
    intro start finish clear clearEnd z hz
    rcases List.mem_append.mp hz with hz | hz
    · exact starts_unique (timePart_starts hs (Option.mem_toList.mp hz)) (by decide)
    · exact hends (by decide) (by decide) z hz
  rw [windowParts_eq, windowParts_eq] at h
  obtain ⟨hwindow, h⟩ := optional_inj (fun _ hz ↦ windowPart_starts hz) (fun _ hz ↦ windowPart_starts hz) hstarts
    hstarts h
  obtain ⟨hfrom, h⟩ := optional_inj (fun _ hz ↦ timePart_starts hs hz) (fun _ hz ↦ timePart_starts hs hz)
    (hends (by decide) (by decide)) (hends (by decide) (by decide)) h
  obtain ⟨huntil, h⟩ := optional_inj (fun _ hz ↦ timePart_starts he hz) (fun _ hz ↦ timePart_starts he hz)
    (hflags (by decide)) (hflags (by decide)) h
  obtain ⟨hf, ht⟩ := windowText_inj hf ht hf' ht' (windowPart_inj hwindow)
  obtain ⟨hc, hce⟩ := clearParts_inj h
  exact ⟨hf, ht, timePart_inj hstart hstart' hfrom, timePart_inj hfinish hfinish' huntil, hc, hce⟩

/-- A part that is told apart from its neighbours, and from no part at all. -/
def Plain (part : String) : Prop := part ≠ "" ∧ ¬[',', ' '] <:+: part.toList ∧ part ≠ "no change"

theorem plain_append {label s : String} {c : Char} (hlabel : Starts c label) (hc : c ≠ 'n')
    (hfree : ¬[',', ' '] <:+: label.toList ++ s.toList) : Plain (label ++ s) := by
  have hstarts := starts_append hlabel s
  refine ⟨?_, by rwa [String.toList_append], ?_⟩
  · intro hempty
    rw [hempty] at hstarts
    cases hstarts
  · intro hchange
    rw [hchange] at hstarts
    exact hc (Option.some.inj hstarts).symm

theorem windowParts_plain (hf : NonNeg f) (ht : NonNeg t) (hstart : ∀ s ∈ start, TimeText s)
    (hfinish : ∀ s ∈ finish, TimeText s) : ∀ z ∈ windowParts f t start finish clear clearEnd, Plain z := by
  have htime : ∀ {label z : String} {c : Char} {time : Option String}, Starts c label → c ≠ 'n' → ',' ∉ label.toList →
      (∀ s ∈ time, TimeText s) → z ∈ timePart label time → Plain z := by
    intro label z c time hlabel hc hcomma htime hz
    obtain ⟨s, hs, rfl⟩ := Option.map_eq_some_iff.mp hz
    have hblank := (htime s (Option.filter_eq_some_iff.mp hs).1).2
    exact plain_append hlabel hc fun h ↦ hcomma (pair_comma (pair_of_append hblank h))
  have hflags : ∀ clear clearEnd, ∀ z ∈ clearParts clear clearEnd,
      z ≠ "" ∧ ¬[',', ' '] <:+: z.toList ∧ z ≠ "no change" := by decide +kernel
  intro z hz
  rw [windowParts_eq] at hz
  simp only [List.mem_append, Option.mem_toList] at hz
  rcases hz with hz | hz | hz | hz
  · unfold windowPart at hz
    split_ifs at hz
    · obtain rfl := Option.some.inj hz
      have hcomma : ',' ∉ "window ".toList := by decide
      refine plain_append (c := 'w') (by decide) (by decide) fun h ↦ ?_
      rcases List.mem_append.mp (pair_comma h) with hmem | hmem
      · exact hcomma hmem
      · exact windowText_free hf ht (by decide) (by decide) hmem
  · exact htime (c := 's') (by decide) (by decide) (by decide) hstart hz
  · exact htime (c := 'e') (by decide) (by decide) (by decide) hfinish hz
  · exact hflags _ _ z hz

def partsText (parts : List String) : String :=
  if ", ".intercalate parts ≠ "" then ", ".intercalate parts else "no change"

def spelled (parts : List String) : List String := if parts = [] then ["no change"] else parts

theorem partsText_eq {parts : List String} (hparts : ∀ z ∈ parts, Plain z) :
    (partsText parts).toList = ", ".toList.intercalate ((spelled parts).map String.toList) := by
  cases parts with
  | nil => decide +kernel
  | cons z parts =>
    have hne : ", ".intercalate (z :: parts) ≠ "" := by
      intro hempty
      have htext := congrArg String.toList hempty
      rw [String.toList_intercalate, List.map_cons] at htext
      have hz : z.toList = [] := by
        cases parts with
        | nil => simpa using htext
        | cons z' parts =>
          rw [List.map_cons, List.intercalate_cons_cons, List.append_assoc] at htext
          exact (List.append_eq_nil_iff.mp htext).1
      exact (hparts z List.mem_cons_self).1 (String.toList_inj.mp hz)
    rw [partsText, if_pos hne, String.toList_intercalate, spelled, if_neg (List.cons_ne_nil _ _)]

theorem partsText_inj {parts parts' : List String} (hparts : ∀ z ∈ parts, Plain z) (hparts' : ∀ z ∈ parts', Plain z)
    (h : partsText parts = partsText parts') : parts = parts' := by
  have hfree : ∀ {parts : List String}, (∀ z ∈ parts, Plain z) →
      ∀ z ∈ (spelled parts).map String.toList, z ≠ [] ∧ ¬[',', ' '] <:+: z := by
    intro parts hparts z hz
    obtain ⟨part, hpart, rfl⟩ := List.mem_map.mp hz
    unfold spelled at hpart
    split_ifs at hpart
    · rw [List.mem_singleton.mp hpart]
      decide +kernel
    · obtain ⟨hne, hpair, -⟩ := hparts part hpart
      exact ⟨fun hnil ↦ hne (String.toList_inj.mp hnil), hpair⟩
  have htext := congrArg String.toList h
  rw [partsText_eq hparts, partsText_eq hparts'] at htext
  have hmapped := joined_inj (x := ',') (y := ' ') (by decide) (hfree hparts) (hfree hparts') htext
  have hsame := List.map_injective_iff.mpr (fun _ _ ↦ String.toList_inj.mp) hmapped
  have hnone : ∀ {parts : List String}, (∀ z ∈ parts, Plain z) → parts ≠ ["no change"] := by
    rintro _ hparts rfl
    exact (hparts _ List.mem_cons_self).2.2 rfl
  unfold spelled at hsame
  split_ifs at hsame with hnil hnil' hnil'
  · rw [hnil, hnil']
  · exact absurd hsame.symm (hnone hparts')
  · exact absurd hsame (hnone hparts)
  · exact hsame

end Parts

section Telling

variable {op op' : Op} {ops ops' : List Op}

theorem HourIn.nonNeg {lo hi : ℤ} {value : Option ℤ} (h : HourIn lo hi value) (hlo : 0 ≤ lo) : NonNeg value :=
  fun n hn ↦ hlo.trans (h n hn).1

theorem modeText_inj {mode mode' : TransportMode} (h : (modeText mode).toList = (modeText mode').toList) :
    mode = mode' := by
  cases mode <;> cases mode' <;> first | rfl | exact absurd h (by decide)

theorem dayWindow_inj {n n' : ℕ} {f t f' t' : Option ℤ} {start finish start' finish' : Option String}
    {clear clear' clearEnd clearEnd' : Bool} (hop : (Op.updateDayWindow n f t start finish clear clearEnd).WellFormed)
    (hop' : (Op.updateDayWindow n' f' t' start' finish' clear' clearEnd').WellFormed)
    (h : rest (.updateDayWindow n f t start finish clear clearEnd) =
      rest (.updateDayWindow n' f' t' start' finish' clear' clearEnd')) :
    Op.updateDayWindow n f t start finish clear clearEnd =
      .updateDayWindow n' f' t' start' finish' clear' clearEnd' := by
  obtain ⟨hf, ht, hstart, hfinish⟩ := hop
  obtain ⟨hf', ht', hstart', hfinish'⟩ := hop'
  have hf := hf.nonNeg le_rfl
  have ht := ht.nonNeg zero_le_one
  have hf' := hf'.nonNeg le_rfl
  have ht' := ht'.nonNeg zero_le_one
  have hsplit : ∀ (n : ℕ) (parts : List String), (toString n).toList ++ ": ".toList ++
      (if ", ".intercalate parts ≠ "" then ", ".intercalate parts else "no change").toList =
        (toString n).toList ++ ':' :: ' ' :: (partsText parts).toList := by
    intro n parts
    rw [List.append_assoc]
    rfl
  simp only [rest, hsplit] at h
  obtain ⟨hday, hparts⟩ := first_inj (toString_free (by decide) n) (toString_free (by decide) n') h
  have hsame := partsText_inj (windowParts_plain hf ht hstart hfinish) (windowParts_plain hf' ht' hstart' hfinish')
    (String.toList_inj.mp (List.cons.inj hparts).2)
  obtain ⟨rfl, rfl, rfl, rfl, rfl, rfl⟩ :=
    windowParts_inj hf ht hf' ht' hstart hfinish hstart' hfinish' hsame
  rw [toString_inj hday]

/-- What follows the opening says all that an operation shows. -/
theorem rest_inj (hop : op.WellFormed) (hop' : op'.WellFormed) (hkind : op.kind = op'.kind)
    (h : rest op = rest op') : op.shown = op'.shown := by
  cases op with
  | setPlaceAuto p =>
    cases op' with
    | setPlaceAuto p' => rw [String.toList_inj.mp (List.append_cancel_right h)]
    | _ => cases hkind
  | setPlacePinned p n f t =>
    cases op' with
    | setPlacePinned p' n' f' t' =>
      obtain ⟨-, hf, ht⟩ := hop
      obtain ⟨-, hf', ht'⟩ := hop'
      obtain ⟨rfl, rfl, rfl, rfl⟩ := pinned_inj (hf.nonNeg le_rfl) (ht.nonNeg le_rfl) (hf'.nonNeg le_rfl)
        (ht'.nonNeg le_rfl) h
      rfl
    | _ => cases hkind
  | setPlaceFlexible p slots =>
    cases op' with
    | setPlaceFlexible p' slots' =>
      obtain ⟨rfl, hdays⟩ := flexible_inj h
      have hslots : ∀ slots : List DaySlotOp, (slots.map fun s : DaySlotOp ↦ (⟨s.dayIndex, none, none⟩ : DaySlotOp)) =
          (slots.map DaySlotOp.dayIndex).map fun n ↦ ⟨n, none, none⟩ := by
        intro slots
        rw [List.map_map]
        rfl
      simp only [Op.shown, hslots, hdays]
    | _ => cases hkind
  | removePlace p =>
    cases op' with
    | removePlace p' => rw [String.toList_inj.mp (List.append_cancel_right h)]
    | _ => cases hkind
  | updateDayWindow n f t start finish clear clearEnd =>
    cases op' with
    | updateDayWindow n' f' t' start' finish' clear' clearEnd' => rw [dayWindow_inj hop hop' h]
    | _ => cases hkind
  | setTransportMode mode =>
    cases op' with
    | setTransportMode mode' => rw [modeText_inj h]
    | _ => cases hkind
  | addTransfer date departure arrival label =>
    cases op' with
    | addTransfer date' departure' arrival' label' =>
      obtain ⟨hdate, htime, -⟩ := hop
      obtain ⟨hdate', htime', -⟩ := hop'
      obtain ⟨rfl, rfl, rfl⟩ := addTransfer_inj hdate hdate' htime htime' h
      rfl
    | _ => cases hkind
  | updateTransfer date departure arrival label clear =>
    cases op' with
    | updateTransfer date' departure' arrival' label' clear' =>
      obtain rfl := String.toList_inj.mp h
      rfl
    | _ => cases hkind
  | removeTransfer date =>
    cases op' with
    | removeTransfer date' => rw [String.toList_inj.mp h]
    | _ => cases hkind
  | addAccommodation name lat lng checkIn checkOut checkInFrom checkOutBy =>
    cases op' with
    | addAccommodation name' lat' lng' checkIn' checkOut' checkInFrom' checkOutBy' =>
      obtain ⟨-, -, -, hin, hout, -⟩ := hop
      obtain ⟨-, -, -, hin', hout', -⟩ := hop'
      obtain ⟨rfl, rfl, rfl⟩ := addAccommodation_inj hin hin' hout hout' h
      rfl
    | _ => cases hkind
  | updateAccommodation n =>
    cases op' with
    | updateAccommodation n' =>
      obtain rfl := toString_inj h
      rfl
    | _ => cases hkind
  | removeAccommodation n =>
    cases op' with
    | removeAccommodation n' => rw [toString_inj h]
    | _ => cases hkind

/-- Two lines are the same exactly where the operations show the same. -/
theorem format_eq_iff (hop : op.WellFormed) (hop' : op'.WellFormed) :
    formatTripEditOperation op = formatTripEditOperation op' ↔ op.shown = op'.shown := by
  rw [← String.toList_inj, toList_format, toList_format]
  constructor
  · intro h
    obtain ⟨hkind, hrest⟩ := opening_inj opening_free h
    exact rest_inj hop hop' hkind hrest
  · intro h
    rw [← kind_shown op, ← rest_shown op, h, kind_shown, rest_shown]

theorem formatBatch_eq_iff (hops : ∀ op ∈ ops, op.WellFormed) (hops' : ∀ op ∈ ops', op.WellFormed) :
    formatTripEditBatch ops = formatTripEditBatch ops' ↔ ops.map Op.shown = ops'.map Op.shown := by
  induction ops generalizing ops' with
  | nil => simp [formatTripEditBatch, eq_comm]
  | cons op ops ih =>
    cases ops' with
    | nil => simp [formatTripEditBatch]
    | cons op' ops' =>
      obtain ⟨hop, hrest⟩ := List.forall_mem_cons.mp hops
      obtain ⟨hop', hrest'⟩ := List.forall_mem_cons.mp hops'
      simp only [formatTripEditBatch] at ih ⊢
      rw [List.map_cons, List.map_cons, List.map_cons, List.map_cons, List.cons_eq_cons, List.cons_eq_cons,
        format_eq_iff hop hop', ih hrest hrest']

theorem formatBatch_nodup_iff (hops : ∀ op ∈ ops, op.WellFormed) :
    (formatTripEditBatch ops).Nodup ↔ (ops.map Op.shown).Nodup := by
  rw [formatTripEditBatch, List.Nodup, List.Nodup, List.pairwise_map, List.pairwise_map]
  exact List.Pairwise.iff_of_mem fun hop hop' ↦ not_congr (format_eq_iff (hops _ hop) (hops _ hop'))

/-- The text that is confirmed tells operations apart that differ in a field which it
shows, and no others: so do the lines of two batches, and the lines within one. -/
theorem lines_tell_apart_iff (hops : ∀ op ∈ ops, op.WellFormed)
    (hops' : ∀ op ∈ ops', op.WellFormed) :
    (∀ op ∈ ops, ∀ op' ∈ ops', (op ≠ op' → formatTripEditOperation op ≠ formatTripEditOperation op') ↔
      (op ≠ op' → op.shown ≠ op'.shown)) ∧
    ((formatTripEditBatch ops = formatTripEditBatch ops' → ops = ops') ↔
      (ops.map Op.shown = ops'.map Op.shown → ops = ops')) ∧
    ((ops.Nodup → (formatTripEditBatch ops).Nodup) ↔ (ops.Nodup → (ops.map Op.shown).Nodup)) := by
  refine ⟨fun op hop op' hop' ↦ ?_, ?_, ?_⟩
  · rw [Ne, Ne, format_eq_iff (hops op hop) (hops' op' hop')]
  · rw [formatBatch_eq_iff hops hops']
  · rw [formatBatch_nodup_iff hops]

def pinMuseum : Op := .setPlacePinned "museum" 1 (some 9) none

def addTram : Op := .addTransfer "2056-05-02" "08:30" "10:05:00" (some "Tram 15")

theorem pinMuseum_wellFormed : pinMuseum.WellFormed := by
  refine ⟨by decide, ?_, ?_⟩
  · rintro n ⟨⟩
    decide
  · rintro n ⟨⟩

theorem addTram_wellFormed : addTram.WellFormed := by
  have hdate : (parseDate "2056-05-02").isSome = true := by decide
  have htime : ∀ s ∈ ["08:30", "10:05:00"], s ≠ "" ∧ ' ' ∉ s.toList := by decide
  refine ⟨hdate, htime _ (by simp), htime _ (by simp), ?_⟩
  rintro l ⟨⟩
  decide

theorem lines_tell_apart_iff_museum :
    (∀ op ∈ [pinMuseum, addTram], ∀ op' ∈ [addTram],
      (op ≠ op' → formatTripEditOperation op ≠ formatTripEditOperation op') ↔ (op ≠ op' → op.shown ≠ op'.shown)) ∧
    ((formatTripEditBatch [pinMuseum, addTram] = formatTripEditBatch [addTram] → [pinMuseum, addTram] = [addTram]) ↔
      ([pinMuseum, addTram].map Op.shown = [addTram].map Op.shown → [pinMuseum, addTram] = [addTram])) ∧
    (([pinMuseum, addTram].Nodup → (formatTripEditBatch [pinMuseum, addTram]).Nodup) ↔
      ([pinMuseum, addTram].Nodup → ([pinMuseum, addTram].map Op.shown).Nodup)) := by
  have hboth : ∀ op ∈ [pinMuseum, addTram], op.WellFormed := by
    simp only [List.forall_mem_cons]
    exact ⟨pinMuseum_wellFormed, addTram_wellFormed, by simp⟩
  exact lines_tell_apart_iff hboth (List.forall_mem_cons.mp hboth).2

example : formatTripEditOperation pinMuseum = "Pin place museum to day 1 (from 09:00)" := by decide +kernel

def departAt (time : String) : Op := .updateTransfer "2056-05-02" (some time) none none false

theorem departures_look_alike : ¬∀ op op' : Op, op.WellFormed → op'.WellFormed → op ≠ op' →
    formatTripEditOperation op ≠ formatTripEditOperation op' := by
  intro hall
  have hvalid : ∀ time : String, TimeText time → (departAt time).WellFormed := by
    intro time htime
    have hdate : (parseDate "2056-05-02").isSome = true := by decide
    refine ⟨hdate, ?_, ?_, ?_⟩
    · rintro t ⟨⟩
      exact htime
    · rintro t ⟨⟩
    · rintro l ⟨⟩
  have hearly : "07:00" ≠ "" ∧ ' ' ∉ "07:00".toList := by decide
  have hlate : "12:00" ≠ "" ∧ ' ' ∉ "12:00".toList := by decide
  exact hall (departAt "07:00") (departAt "12:00") (hvalid _ hearly) (hvalid _ hlate) (by decide) rfl

end Telling

end TravelPlanner.EditLines
