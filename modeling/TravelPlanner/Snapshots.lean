import TravelPlanner.IsoDates
import TravelPlanner.SavedPlans

namespace TravelPlanner.Snapshots

open Clock IsoDates Requests SavedPlans

inductive PlanType
  | singleDay | multiDay
  deriving DecidableEq, Repr

inductive TripPlan
  | singleDay (date : Date) (request : OptimizeRequest) (response : OptimizeResponse)
  | multiDay (request : MultiDayRequest) (response : MultiDayResponse)
  deriving DecidableEq

def TripPlan.planType : TripPlan → PlanType
  | .singleDay .. => .singleDay
  | .multiDay .. => .multiDay

def TripPlan.validate : TripPlan → Validated
  | .singleDay _ request _ => request.validate
  | .multiDay request _ => request.validate

structure SaveTripRequest where
  name : String
  plan : TripPlan
  expectedRevision : Option ℤ := none
  deriving DecidableEq

def SaveTripRequest.validate (r : SaveTripRequest) : Validated := do
  check (1 ≤ r.name.length ∧ r.name.length ≤ 200) (.field "name")
  r.plan.validate

/-- A save request as the repository receives it: the model has accepted it. -/
abbrev TripSave := {r : SaveTripRequest // r.validate = .ok ()}

def schemaVersion : ℤ := 1

structure Payload where
  name : String
  plan : TripPlan
  schemaVersion : ℤ
  deriving DecidableEq

def snapshotPayload (r : SaveTripRequest) : Payload := ⟨r.name, r.plan, schemaVersion⟩

structure SnapshotDisplayFields where
  startDate : String
  endDate : String
  numDays : ℕ
  deriving DecidableEq, Repr

/-- Columns for list queries; the extremes are taken over the texts of the dates
and do not exist for a trip without days. -/
def displayFields (p : Payload) : Option SnapshotDisplayFields :=
  match p.plan with
  | .multiDay request _ => do
    let dates := request.days.map fun d ↦ isoformat d.date
    let startDate ← dates.min?
    let endDate ← dates.max?
    return ⟨startDate, endDate, dates.length⟩
  | .singleDay date _ _ => some ⟨isoformat date, isoformat date, 1⟩

/-- The serialiser, its parser and the content hash. Parsing undoes serialising. -/
structure SnapshotCodec (Text Hash : Type) where
  canonicalJson : Payload → Text
  snapshotHash : Text → Hash
  parse : Text → Option Payload
  parse_canonicalJson : ∀ p, parse (canonicalJson p) = some p

variable {Text Hash : Type} (codec : SnapshotCodec Text Hash)

def buildSnapshot (r : SaveTripRequest) : Option (Text × Hash × SnapshotDisplayFields) := do
  let payload := snapshotPayload r
  let canonical := codec.canonicalJson payload
  let display ← displayFields payload
  return (canonical, codec.snapshotHash canonical, display)

inductive Compression
  | none | other (name : String)
  deriving DecidableEq, Repr

def loadSnapshot (snapshot : Text) (compression : Compression) : Option Payload :=
  if compression = .none then codec.parse snapshot else none

inductive DetailBody
  | singleDay (date : String) (request : OptimizeRequest) (response : OptimizeResponse)
      (selectedPlaceIds : List PlaceId) (transportMode : TransportMode) (dayStartHour dayEndHour : ℤ)
  | multiDay (startDate endDate : String) (numDays : ℕ) (transportMode : TransportMode)
      (request : MultiDayRequest) (response : MultiDayResponse)
  deriving DecidableEq

def DetailBody.planType : DetailBody → PlanType
  | .singleDay .. => .singleDay
  | .multiDay .. => .multiDay

structure TripDetail where
  id : String
  name : String
  createdAt : String
  updatedAt : Option String
  revision : ℤ
  body : DetailBody
  deriving DecidableEq

/-- A stored snapshot is validated again on its way out; `none` is a rejection. -/
def detailFromSnapshot (tripId : String) (p : Payload) (revision : ℤ) (createdAt : String)
    (updatedAt : Option String) : Option TripDetail :=
  if p.plan.validate = .ok () then
    match p.plan with
    | .multiDay request response => do
      let dates := request.days.map DayConfig.date
      let start ← dates.min?
      let finish ← dates.max?
      return ⟨tripId, p.name, createdAt, updatedAt, revision,
        .multiDay (isoformat start) (isoformat finish) request.days.length request.transportMode request response⟩
    | .singleDay date request response =>
      some ⟨tripId, p.name, createdAt, updatedAt, revision,
        .singleDay (isoformat date) request response request.placeIds request.transportMode request.dayStartHour
          request.dayEndHour⟩
  else none

inductive SummaryBody
  | singleDay (date : String)
  | multiDay (startDate endDate : String) (numDays : ℕ)
  deriving DecidableEq, Repr

structure TripSummary where
  id : String
  name : String
  createdAt : String
  body : SummaryBody
  deriving DecidableEq, Repr

def TripDetail.summary (d : TripDetail) : TripSummary where
  id := d.id
  name := d.name
  createdAt := d.createdAt
  body :=
    match d.body with
    | .singleDay date .. => .singleDay date
    | .multiDay startDate endDate numDays .. => .multiDay startDate endDate numDays

def summaryBody (planType : PlanType) (display : SnapshotDisplayFields) : SummaryBody :=
  match planType with
  | .multiDay => .multiDay display.startDate display.endDate display.numDays
  | .singleDay => .singleDay display.startDate

variable {codec} {p : Payload}

theorem days_ne_nil {request : MultiDayRequest} (h : request.validate = .ok ()) : request.days ≠ [] := by
  simp only [MultiDayRequest.validate, then_ok, check_ok] at h
  rintro he
  simp [he] at h

theorem displayFields_total (h : p.plan.validate = .ok ()) : ∃ display, displayFields p = some display := by
  obtain ⟨name, plan, version⟩ := p
  cases plan with
  | singleDay date request response => exact ⟨_, rfl⟩
  | multiDay request response =>
    have hne : request.days.map (fun d ↦ isoformat d.date) ≠ [] := by simpa using days_ne_nil h
    obtain ⟨a, ha⟩ := Option.ne_none_iff_exists'.mp (mt List.min?_eq_none_iff.mp hne)
    obtain ⟨b, hb⟩ := Option.ne_none_iff_exists'.mp (mt List.max?_eq_none_iff.mp hne)
    exact ⟨⟨a, b, _⟩, by simp only [displayFields, ha, hb]; rfl⟩

theorem detail_agrees (h : p.plan.validate = .ok ()) (tripId : String) (revision : ℤ) (createdAt : String)
    (updatedAt : Option String) {display : SnapshotDisplayFields} (hd : displayFields p = some display) :
    ∃ detail, detailFromSnapshot tripId p revision createdAt updatedAt = some detail ∧
      detail.summary = ⟨tripId, p.name, createdAt, summaryBody p.plan.planType display⟩ ∧
      detail.revision = revision := by
  obtain ⟨name, plan, version⟩ := p
  cases plan with
  | singleDay date request response =>
    obtain rfl := Option.some.inj hd
    exact ⟨_, if_pos h, rfl, rfl⟩
  | multiDay request response =>
    have hne : request.days.map DayConfig.date ≠ [] := by simpa using days_ne_nil h
    obtain ⟨a, ha⟩ := Option.ne_none_iff_exists'.mp (mt List.min?_eq_none_iff.mp hne)
    obtain ⟨b, hb⟩ := Option.ne_none_iff_exists'.mp (mt List.max?_eq_none_iff.mp hne)
    have hmin : (request.days.map fun d ↦ isoformat d.date).min? = some (isoformat a) := by
      rw [← Function.comp_def isoformat, ← List.map_map, min?_map isoformat_strictMono, ha]; rfl
    have hmax : (request.days.map fun d ↦ isoformat d.date).max? = some (isoformat b) := by
      rw [← Function.comp_def isoformat, ← List.map_map, max?_map isoformat_strictMono, hb]; rfl
    have hdisplay : display = ⟨isoformat a, isoformat b, request.days.length⟩ := by
      simpa [displayFields, hmin, hmax, eq_comm] using hd
    refine ⟨⟨tripId, name, createdAt, updatedAt, revision, .multiDay (isoformat a) (isoformat b)
      request.days.length request.transportMode request response⟩, ?_, ?_, rfl⟩
    · simp only [detailFromSnapshot, if_pos h, ha, hb]
      rfl
    · rw [hdisplay]
      rfl

theorem detail_planType {tripId createdAt : String} {revision : ℤ} {updatedAt : Option String} {detail : TripDetail}
    (h : detailFromSnapshot tripId p revision createdAt updatedAt = some detail) :
    detail.body.planType = p.plan.planType := by
  obtain ⟨name, plan, version⟩ := p
  simp only [detailFromSnapshot] at h
  split_ifs at h
  cases plan with
  | singleDay date request response =>
    obtain rfl := Option.some.inj h
    rfl
  | multiDay request response =>
    simp only [Option.bind_eq_bind, Option.bind_eq_some_iff] at h
    obtain ⟨_, _, _, _, h⟩ := h
    obtain rfl := Option.some.inj h
    rfl

theorem save_plan_valid {r : SaveTripRequest} (h : r.validate = .ok ()) :
    (snapshotPayload r).plan.validate = .ok () := by
  simp only [SaveTripRequest.validate, then_ok] at h
  exact h.2

theorem buildSnapshot_total (codec : SnapshotCodec Text Hash) {r : SaveTripRequest} (h : r.validate = .ok ()) :
    ∃ display, displayFields (snapshotPayload r) = some display ∧
      buildSnapshot codec r = some (codec.canonicalJson (snapshotPayload r),
        codec.snapshotHash (codec.canonicalJson (snapshotPayload r)), display) := by
  obtain ⟨display, hd⟩ := displayFields_total (save_plan_valid h)
  exact ⟨display, hd, by simp only [buildSnapshot, hd]; rfl⟩

@[simp] theorem load_canonical (p : Payload) : loadSnapshot codec (codec.canonicalJson p) .none = some p :=
  codec.parse_canonicalJson p

end TravelPlanner.Snapshots
