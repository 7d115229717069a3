import TravelPlanner.Requests

namespace TravelPlanner.Windows

open Clock Requests

structure TimeWindow where
  segments : List (ℤ × ℤ)
  deriving DecidableEq, Repr

def TimeWindow.single (openS closeS : ℤ) : TimeWindow := ⟨[(openS, closeS)]⟩

def segmentLe (a b : ℤ × ℤ) : Prop := a.1 < b.1 ∨ a.1 = b.1 ∧ a.2 ≤ b.2

instance : DecidableRel segmentLe := fun _ _ ↦ inferInstanceAs (Decidable (_ ∨ _))

def TimeWindow.fromSegments (segments : List (ℤ × ℤ)) : TimeWindow :=
  ⟨segments.insertionSort segmentLe⟩

def TimeWindow.closeS (tw : TimeWindow) : ℤ :=
  match tw.segments.getLast? with
  | some s => s.2
  | none => 0

/-- The earliest second a visit can begin: it must fit inside one segment, and
waiting for a segment to open is allowed. -/
def earliestIn (arrivalS visitS : ℤ) : List (ℤ × ℤ) → Option ℤ
  | [] => none
  | s :: rest =>
    let start := max arrivalS s.1
    if start + visitS ≤ s.2 then some start else earliestIn arrivalS visitS rest

def TimeWindow.earliestStart (tw : TimeWindow) (arrivalS visitS : ℤ) : Option ℤ :=
  earliestIn arrivalS visitS tw.segments

theorem earliestIn_spec {arrivalS visitS t : ℤ} {l : List (ℤ × ℤ)}
    (h : earliestIn arrivalS visitS l = some t) :
    arrivalS ≤ t ∧ ∃ s ∈ l, s.1 ≤ t ∧ t + visitS ≤ s.2 := by
  induction l with
  | nil => simp [earliestIn] at h
  | cons s rest ih =>
    simp only [earliestIn] at h
    split_ifs at h with hfit
    · cases h
      exact ⟨le_max_left _ _, s, List.mem_cons_self, le_max_right _ _, hfit⟩
    · obtain ⟨ha, s', hs', hb⟩ := ih h
      exact ⟨ha, s', List.mem_cons_of_mem _ hs', hb⟩

theorem earliestStart_spec {tw : TimeWindow} {arrivalS visitS t : ℤ}
    (h : tw.earliestStart arrivalS visitS = some t) :
    arrivalS ≤ t ∧ ∃ s ∈ tw.segments, s.1 ≤ t ∧ t + visitS ≤ s.2 := earliestIn_spec h

/-- Document ids of the places collection: 24 hexadecimal digits. -/
structure ObjectId where
  hex : String
  digits : hex.length = 24 ∧ hex.toList.all fun c ↦ c.isDigit ∨ c ∈ ['a', 'b', 'c', 'd', 'e', 'f']
  deriving DecidableEq

inductive Priority
  | mustSee | normal | optional
  | unknown (text : String)
  deriving DecidableEq, Repr

structure OpeningPoint where
  day : Option ℤ
  hour : Option ℤ
  minute : Option ℤ
  deriving DecidableEq, Repr

structure OpeningPeriod where
  opening : Option OpeningPoint
  closing : Option OpeningPoint
  deriving DecidableEq, Repr

/-- The fields of a place document the optimizer reads. The library stores only
positive visit durations. -/
structure PlaceDoc where
  id : ObjectId
  name : Option String := none
  lat : Option Coord := none
  lng : Option Coord := none
  visitDurationMin : Option ℕ := none
  preferredHourFrom : Option ℤ := none
  preferredHourTo : Option ℤ := none
  priority : Option Priority := none
  openingPeriods : List OpeningPeriod := []
  deriving DecidableEq

def PlaceDoc.visitMin (d : PlaceDoc) : ℕ :=
  match d.visitDurationMin with
  | none | some 0 => 30
  | some n => n

/-- `{str(doc["_id"]): doc for doc in docs}`: a later document wins. -/
def docMap (docs : List PlaceDoc) (placeId : PlaceId) : Option PlaceDoc :=
  docs.reverse.find? (fun d ↦ d.id.hex = placeId)

theorem docMap_id {docs : List PlaceDoc} {placeId : PlaceId} {d : PlaceDoc}
    (h : docMap docs placeId = some d) : d.id.hex = placeId := by
  simpa using List.find?_some h

theorem docMap_mem {docs : List PlaceDoc} {placeId : PlaceId} {d : PlaceDoc}
    (h : docMap docs placeId = some d) : d ∈ docs :=
  List.mem_reverse.mp (List.mem_of_find?_eq_some h)

def OpeningPeriod.day (p : OpeningPeriod) : Option ℤ := p.opening.bind OpeningPoint.day

def OpeningPoint.seconds (o : OpeningPoint) : ℤ := o.hour.getD 0 * 3600 + o.minute.getD 0 * 60

/-- One period of the planning weekday, cut down to the day's own bounds. A
closing point on another day counts as open until the planning day ends. -/
def periodSegment (openS closeS : ℤ) (opening : OpeningPoint) (closing : Option OpeningPoint) : ℤ × ℤ :=
  match closing with
  | none => (max openS opening.seconds, closeS)
  | some close =>
    let ohCloseS := if close.day ≠ none ∧ opening.day ≠ none ∧ close.day ≠ opening.day
      then 24 * 3600 else close.seconds
    (max openS opening.seconds, min closeS ohCloseS)

def daySegments (openS closeS : ℤ) (googleWeekday : ℕ) (periods : List OpeningPeriod) : List (ℤ × ℤ) :=
  periods.filterMap fun p ↦ do
    let opening ← p.opening
    if opening.day = some (googleWeekday : ℤ) then
      let segment := periodSegment openS closeS opening p.closing
      if segment.1 < segment.2 then some segment else none
    else none

/-- Preferences of the place intersected with its opening hours on the planning
weekday. `none` means closed, or nothing left after the intersection. -/
def parseTimeWindow (doc : PlaceDoc) (dayStartS dayEndS : ℤ) (googleWeekday : Option ℕ) :
    Option TimeWindow :=
  let openS := match doc.preferredHourFrom with | some h => h * 3600 | none => dayStartS
  let closeS := match doc.preferredHourTo with | some h => h * 3600 | none => dayEndS
  match googleWeekday, doc.openingPeriods with
  | some weekday, p :: rest =>
    match daySegments openS closeS weekday (p :: rest) with
    | [] => none
    | s :: segments => some (TimeWindow.fromSegments (s :: segments))
  | _, _ => if closeS ≤ openS then none else some (TimeWindow.single openS closeS)

end TravelPlanner.Windows
