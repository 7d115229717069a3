import TravelPlanner.IsoTimes
import TravelPlanner.JsonRecords
import TravelPlanner.JsonRoundTrip
import TravelPlanner.Snapshots

namespace TravelPlanner.SnapshotJson

open Clock IsoDates IsoTimes Requests SavedPlans Snapshots JsonText JsonRoundTrip JsonRecords
open JsonStrings (Text)
open TripService (TransferEndpoint SegmentKind)

section Scalars

def coordinate : Codec Coord Coord where
  dump := .float
  load
    | .float x => some x
    | .int n => some n
    | _ => none
  load_dump _ := rfl

def date : Codec Coord Date := .textual isoformat parseDate fun _ ↦ parseDate_iff.mpr rfl

def time : Codec Coord OffsetTime := .textual isoTime parseTime parseTime_isoTime

def rejectAwareTime (t : OffsetTime) : Option Time := if t.offset = none then some t.time else none

def naiveTime : Codec Coord Time :=
  .textual (fun t ↦ isoTime ⟨t, none⟩) (fun s ↦ (parseTime s).bind rejectAwareTime) fun t ↦ by
    rw [parseTime_isoTime]
    rfl

def modeText : TransportMode → String
  | .walk => "WALK"
  | .drive => "DRIVE"
  | .bicycle => "BICYCLE"
  | .transit => "TRANSIT"

def readMode (s : String) : Option TransportMode :=
  [TransportMode.walk, .drive, .bicycle, .transit].find? fun mode ↦ modeText mode = s

def transportMode : Codec Coord TransportMode := .textual modeText readMode fun mode ↦ by cases mode <;> decide

def kindText : SegmentKind → String
  | .preTransfer => "PRE_TRANSFER"
  | .postTransfer => "POST_TRANSFER"

def readKind (s : String) : Option SegmentKind :=
  [SegmentKind.preTransfer, .postTransfer].find? fun kind ↦ kindText kind = s

def segmentKind : Codec Coord SegmentKind := .textual kindText readKind fun kind ↦ by cases kind <;> decide

def optionalInt : Codec Coord (Option ℤ) := .nullable .int fun _ ↦ nofun

def optionalStr : Codec Coord (Option String) := .nullable .str fun _ ↦ nofun

def optionalCoordinate : Codec Coord (Option Coord) := .nullable coordinate fun _ ↦ nofun

def optionalDate : Codec Coord (Option Date) := .nullable date fun _ ↦ nofun

def optionalTime : Codec Coord (Option Time) := .nullable naiveTime fun _ ↦ nofun

end Scalars

section Models

def optimizeRequest : Codec Coord OptimizeRequest :=
  .model
    (Fields.build OptimizeRequest.mk
      |>.required "place_ids" (.list .str) OptimizeRequest.placeIds
      |>.withDefault "transport_mode" transportMode .walk OptimizeRequest.transportMode
      |>.withDefault "day_start_hour" .int 9 OptimizeRequest.dayStartHour
      |>.withDefault "day_end_hour" .int 21 OptimizeRequest.dayEndHour
      |>.withDefault "day_start_time" optionalTime none OptimizeRequest.dayStartTime
      |>.withDefault "day_end_time" optionalTime none OptimizeRequest.dayEndTime
      |>.withDefault "start_lat" optionalCoordinate none OptimizeRequest.startLat
      |>.withDefault "start_lng" optionalCoordinate none OptimizeRequest.startLng
      |>.withDefault "end_lat" optionalCoordinate none OptimizeRequest.endLat
      |>.withDefault "end_lng" optionalCoordinate none OptimizeRequest.endLng
      |>.withDefault "departure_date" optionalDate none OptimizeRequest.departureDate)
    (fun _ ↦ rfl) (by decide)

def routeStep : Codec Coord RouteStep :=
  .model
    (Fields.build RouteStep.mk
      |>.required "place_id" .str RouteStep.placeId
      |>.required "name" optionalStr RouteStep.name
      |>.required "lat" optionalCoordinate RouteStep.lat
      |>.required "lng" optionalCoordinate RouteStep.lng
      |>.required "arrival_time" time RouteStep.arrivalTime
      |>.required "departure_time" time RouteStep.departureTime
      |>.required "travel_from_previous_s" .int RouteStep.travelFromPreviousS
      |>.required "visit_duration_min" .int RouteStep.visitDurationMin
      |>.withDefault "wait_min" .int 0 RouteStep.waitMin)
    (fun _ ↦ rfl) (by decide)

def skippedPlace : Codec Coord SkippedPlace :=
  .model
    (Fields.build SkippedPlace.mk
      |>.required "place_id" .str SkippedPlace.placeId
      |>.required "name" optionalStr SkippedPlace.name
      |>.required "reason" .str SkippedPlace.reason)
    (fun _ ↦ rfl) (by decide)

def optimizeResponse : Codec Coord OptimizeResponse :=
  .model
    (Fields.build OptimizeResponse.mk
      |>.required "steps" (.list routeStep) OptimizeResponse.steps
      |>.required "total_travel_time_s" .int OptimizeResponse.totalTravelTimeS
      |>.required "total_visit_time_min" .int OptimizeResponse.totalVisitTimeMin
      |>.required "total_wait_min" .int OptimizeResponse.totalWaitMin
      |>.required "transport_mode" transportMode OptimizeResponse.transportMode
      |>.required "skipped" (.list skippedPlace) OptimizeResponse.skipped
      |>.withDefault "travel_to_end_s" .int 0 OptimizeResponse.travelToEndS)
    (fun _ ↦ rfl) (by decide)

def daySlot : Codec Coord DaySlot :=
  .model
    (Fields.build DaySlot.mk
      |>.required "day_index" .int DaySlot.dayIndex
      |>.withDefault "preferred_hour_from" optionalInt none DaySlot.preferredHourFrom
      |>.withDefault "preferred_hour_to" optionalInt none DaySlot.preferredHourTo)
    (fun _ ↦ rfl) (by decide)

def placeDayPreference : Codec Coord PlaceDayPreference :=
  .model
    (Fields.build PlaceDayPreference.mk
      |>.required "place_id" .str PlaceDayPreference.placeId
      |>.withDefault "day_preferences" (.list daySlot) [] PlaceDayPreference.dayPreferences)
    (fun _ ↦ rfl) (by decide)

def dayConfig : Codec Coord DayConfig :=
  .model
    (Fields.build DayConfig.mk
      |>.required "date" date DayConfig.date
      |>.withDefault "day_start_hour" .int 9 DayConfig.dayStartHour
      |>.withDefault "day_end_hour" .int 21 DayConfig.dayEndHour
      |>.withDefault "day_start_time" optionalTime none DayConfig.dayStartTime
      |>.withDefault "day_end_time" optionalTime none DayConfig.dayEndTime
      |>.withDefault "start_lat" optionalCoordinate none DayConfig.startLat
      |>.withDefault "start_lng" optionalCoordinate none DayConfig.startLng
      |>.withDefault "end_lat" optionalCoordinate none DayConfig.endLat
      |>.withDefault "end_lng" optionalCoordinate none DayConfig.endLng)
    (fun _ ↦ rfl) (by decide)

def accommodationStay : Codec Coord AccommodationStay :=
  .model
    (Fields.build AccommodationStay.mk
      |>.required "name" .str AccommodationStay.name
      |>.required "lat" coordinate AccommodationStay.lat
      |>.required "lng" coordinate AccommodationStay.lng
      |>.required "check_in_date" date AccommodationStay.checkInDate
      |>.required "check_out_date" date AccommodationStay.checkOutDate
      |>.withDefault "check_in_from" optionalTime none AccommodationStay.checkInFrom
      |>.withDefault "check_out_by" optionalTime none AccommodationStay.checkOutBy)
    (fun _ ↦ rfl) (by decide)

def transferBlock : Codec Coord TransferBlock :=
  .model
    (Fields.build TransferBlock.mk
      |>.required "date" date TransferBlock.date
      |>.required "departure_time" naiveTime TransferBlock.departureTime
      |>.required "arrival_time" naiveTime TransferBlock.arrivalTime
      |>.withDefault "label" optionalStr none TransferBlock.label)
    (fun _ ↦ rfl) (by decide)

def multiDayRequest : Codec Coord MultiDayRequest :=
  .model
    (Fields.build MultiDayRequest.mk
      |>.required "days" (.list dayConfig) MultiDayRequest.days
      |>.required "places" (.list placeDayPreference) MultiDayRequest.places
      |>.withDefault "transport_mode" transportMode .walk MultiDayRequest.transportMode
      |>.withDefault "start_lat" optionalCoordinate none MultiDayRequest.startLat
      |>.withDefault "start_lng" optionalCoordinate none MultiDayRequest.startLng
      |>.withDefault "end_lat" optionalCoordinate none MultiDayRequest.endLat
      |>.withDefault "end_lng" optionalCoordinate none MultiDayRequest.endLng
      |>.withDefault "accommodations" (.list accommodationStay) [] MultiDayRequest.accommodations
      |>.withDefault "transfers" (.list transferBlock) [] MultiDayRequest.transfers)
    (fun _ ↦ rfl) (by decide)

def transferEndpoint : Codec Coord TransferEndpoint :=
  .model
    (Fields.build TransferEndpoint.mk
      |>.required "name" .str TransferEndpoint.name
      |>.required "lat" coordinate TransferEndpoint.lat
      |>.required "lng" coordinate TransferEndpoint.lng)
    (fun _ ↦ rfl) (by decide)

def transferSegment : Codec Coord TransferSegment :=
  .model
    (Fields.build TransferSegment.mk
      |>.required "origin" transferEndpoint TransferSegment.origin
      |>.required "destination" transferEndpoint TransferSegment.destination
      |>.required "departure_time" time TransferSegment.departureTime
      |>.required "arrival_time" time TransferSegment.arrivalTime
      |>.required "duration_s" .int TransferSegment.durationS
      |>.withDefault "label" optionalStr none TransferSegment.label)
    (fun _ ↦ rfl) (by decide)

def dayRouteSegment : Codec Coord DayRouteSegment :=
  .model
    (Fields.build DayRouteSegment.mk
      |>.required "kind" segmentKind DayRouteSegment.kind
      |>.required "steps" (.list routeStep) DayRouteSegment.steps
      |>.required "total_travel_time_s" .int DayRouteSegment.totalTravelTimeS
      |>.required "total_visit_time_min" .int DayRouteSegment.totalVisitTimeMin
      |>.required "total_wait_min" .int DayRouteSegment.totalWaitMin
      |>.withDefault "travel_to_end_s" .int 0 DayRouteSegment.travelToEndS
      |>.required "skipped" (.list skippedPlace) DayRouteSegment.skipped)
    (fun _ ↦ rfl) (by decide)

def dayPlan : Codec Coord DayPlan :=
  .model
    (Fields.build DayPlan.mk
      |>.required "day_index" .int DayPlan.dayIndex
      |>.required "date" date DayPlan.date
      |>.required "steps" (.list routeStep) DayPlan.steps
      |>.required "total_travel_time_s" .int DayPlan.totalTravelTimeS
      |>.required "total_visit_time_min" .int DayPlan.totalVisitTimeMin
      |>.required "total_wait_min" .int DayPlan.totalWaitMin
      |>.required "skipped" (.list skippedPlace) DayPlan.skipped
      |>.withDefault "travel_to_end_s" .int 0 DayPlan.travelToEndS
      |>.withDefault "transfer" (.nullable transferSegment fun _ ↦ nofun) none DayPlan.transfer
      |>.withDefault "route_segments" (.list dayRouteSegment) [] DayPlan.routeSegments)
    (fun _ ↦ rfl) (by decide)

def multiDayResponse : Codec Coord MultiDayResponse :=
  .model
    (Fields.build MultiDayResponse.mk
      |>.required "days" (.list dayPlan) MultiDayResponse.days
      |>.required "transport_mode" transportMode MultiDayResponse.transportMode
      |>.required "unassigned" (.list skippedPlace) MultiDayResponse.unassigned)
    (fun _ ↦ rfl) (by decide)

/-- The dump of a `SingleDaySaveTripRequest` without its concurrency token, and with
the schema version. -/
structure SingleDayPayload where
  name : String
  date : Date
  optimizerRequest : OptimizeRequest
  optimizerResponse : OptimizeResponse
  schemaVersion : ℤ

structure MultiDayPayload where
  name : String
  multiDayRequest : MultiDayRequest
  multiDayResponse : MultiDayResponse
  schemaVersion : ℤ

def singleDayPayload : Codec Coord SingleDayPayload :=
  .model
    (Fields.build (fun () ↦ SingleDayPayload.mk)
      |>.required "plan_type" (.literal "SINGLE_DAY") (fun _ ↦ ())
      |>.required "name" .str SingleDayPayload.name
      |>.required "date" date SingleDayPayload.date
      |>.required "optimizer_request" optimizeRequest SingleDayPayload.optimizerRequest
      |>.required "optimizer_response" optimizeResponse SingleDayPayload.optimizerResponse
      |>.required "schema_version" .int SingleDayPayload.schemaVersion)
    (fun _ ↦ rfl) (by decide)

def multiDayPayload : Codec Coord MultiDayPayload :=
  .model
    (Fields.build (fun () ↦ MultiDayPayload.mk)
      |>.required "plan_type" (.literal "MULTI_DAY") (fun _ ↦ ())
      |>.required "name" .str MultiDayPayload.name
      |>.required "multi_day_request" multiDayRequest MultiDayPayload.multiDayRequest
      |>.required "multi_day_response" multiDayResponse MultiDayPayload.multiDayResponse
      |>.required "schema_version" .int MultiDayPayload.schemaVersion)
    (fun _ ↦ rfl) (by decide)

end Models

section Dictionaries

variable (ft : FloatText Coord)

def payloadJson (p : Payload) : Json Coord :=
  match p.plan with
  | .multiDay request response => multiDayPayload.dump ⟨p.name, request, response, p.schemaVersion⟩
  | .singleDay date request response => singleDayPayload.dump ⟨p.name, date, request, response, p.schemaVersion⟩

def canonicalJson (payload : Json Coord) : Text := write ft ⟨false, false⟩ (sortKeys payload)

def loadSnapshot (snapshot : Text) (compression : Compression) : Option (Json Coord) :=
  if compression = .none then loads ft snapshot else none

def member (payload : Json Coord) (key : String) : Option (Json Coord) :=
  match payload with
  | .obj members => get? members key
  | _ => none

def textMember (payload : Json Coord) (key : String) : Option String := (member payload key).bind Codec.str.load

/-- A model is loaded field by field, then its validators run. -/
def modelValidate {α : Type} (c : Codec Coord α) (validate : α → Validated) (v : Json Coord) : Option α := do
  let a ← c.load v
  if validate a = .ok () then some a else none

/-- The dictionary of a stored snapshot is validated on its way out; the date of a
single day is passed on as the text it is. -/
def detailFromSnapshot (tripId : String) (payload : Json Coord) (revision : ℤ) (createdAt : String)
    (updatedAt : Option String) : Option TripDetail :=
  if textMember payload "plan_type" = some "MULTI_DAY" then do
    let v ← member payload "multi_day_request"
    let request ← modelValidate multiDayRequest MultiDayRequest.validate v
    let v ← member payload "multi_day_response"
    let response ← multiDayResponse.load v
    let dates := request.days.map DayConfig.date
    let name ← textMember payload "name"
    let start ← dates.min?
    let finish ← dates.max?
    return ⟨tripId, name, createdAt, updatedAt, revision,
      .multiDay (isoformat start) (isoformat finish) request.days.length request.transportMode request response⟩
  else do
    let v ← member payload "optimizer_request"
    let request ← modelValidate optimizeRequest OptimizeRequest.validate v
    let v ← member payload "optimizer_response"
    let response ← optimizeResponse.load v
    let name ← textMember payload "name"
    let date ← textMember payload "date"
    return ⟨tripId, name, createdAt, updatedAt, revision,
      .singleDay date request response request.placeIds request.transportMode request.dayStartHour
        request.dayEndHour⟩

/-- The payload a dictionary stands for; nothing is validated yet. -/
def readPayload (payload : Json Coord) : Option Payload :=
  if textMember payload "plan_type" = some "MULTI_DAY" then
    (multiDayPayload.load payload).map fun p ↦
      ⟨p.name, .multiDay p.multiDayRequest p.multiDayResponse, p.schemaVersion⟩
  else
    (singleDayPayload.load payload).map fun p ↦
      ⟨p.name, .singleDay p.date p.optimizerRequest p.optimizerResponse, p.schemaVersion⟩

end Dictionaries

section Reading

variable {v : Json Coord}

theorem literal_text {o : Option (Json Coord)} {text : String} {u : Unit}
    (h : o.bind (Codec.literal text).load = some u) : o.bind Codec.str.load = some text := by
  obtain ⟨w, rfl, hw⟩ := Option.bind_eq_some_iff.mp h
  cases w with
  | str s =>
    simp only [Codec.literal, Codec.textual] at hw
    split_ifs at hw with hs
    rw [← hs]
    rfl
  | _ => cases hw

theorem date_text {o : Option (Json Coord)} {d : Date} (h : o.bind date.load = some d) :
    o.bind Codec.str.load = some (isoformat d) := by
  obtain ⟨w, rfl, hw⟩ := Option.bind_eq_some_iff.mp h
  cases w with
  | str s => exact congrArg some (parseDate_iff.mp hw)
  | _ => cases hw

structure LoadedSingleDay (v : Json Coord) (p : SingleDayPayload) : Prop where
  planType : textMember v "plan_type" = some "SINGLE_DAY"
  name : textMember v "name" = some p.name
  date : textMember v "date" = some (isoformat p.date)
  request : (member v "optimizer_request").bind optimizeRequest.load = some p.optimizerRequest
  response : (member v "optimizer_response").bind optimizeResponse.load = some p.optimizerResponse

structure LoadedMultiDay (v : Json Coord) (p : MultiDayPayload) : Prop where
  planType : textMember v "plan_type" = some "MULTI_DAY"
  name : textMember v "name" = some p.name
  request : (member v "multi_day_request").bind multiDayRequest.load = some p.multiDayRequest
  response : (member v "multi_day_response").bind multiDayResponse.load = some p.multiDayResponse

theorem singleDayPayload_loaded {p : SingleDayPayload} (h : singleDayPayload.load v = some p) :
    LoadedSingleDay v p := by
  cases v with
  | obj members =>
    simp only [singleDayPayload, Codec.model, Fields.required_load, Fields.build_load] at h
    obtain ⟨_, ⟨_, ⟨_, ⟨_, ⟨_, ⟨_, rfl, _, htype, rfl⟩, _, hname, rfl⟩, _, hdate, rfl⟩, _, hrequest, rfl⟩,
      _, hresponse, rfl⟩, _, _, rfl⟩ := h
    exact ⟨literal_text htype, hname, date_text hdate, hrequest, hresponse⟩
  | _ => cases h

theorem multiDayPayload_loaded {p : MultiDayPayload} (h : multiDayPayload.load v = some p) :
    LoadedMultiDay v p := by
  cases v with
  | obj members =>
    simp only [multiDayPayload, Codec.model, Fields.required_load, Fields.build_load] at h
    obtain ⟨_, ⟨_, ⟨_, ⟨_, ⟨_, rfl, _, htype, rfl⟩, _, hname, rfl⟩, _, hrequest, rfl⟩, _, hresponse, rfl⟩,
      _, _, rfl⟩ := h
    exact ⟨literal_text htype, hname, hrequest, hresponse⟩
  | _ => cases h

theorem readPayload_payloadJson (p : Payload) : readPayload (sortKeys (payloadJson p)) = some p := by
  obtain ⟨name, plan, version⟩ := p
  cases plan with
  | multiDay request response =>
    have hload := multiDayPayload.load_dump ⟨name, request, response, version⟩
    have htype := (multiDayPayload_loaded hload).planType
    simp only [payloadJson]
    rw [readPayload, if_pos htype, hload]
    rfl
  | singleDay date request response =>
    have hload := singleDayPayload.load_dump ⟨name, date, request, response, version⟩
    have htype := (singleDayPayload_loaded hload).planType
    simp only [payloadJson]
    rw [readPayload, htype, if_neg (by decide), hload]
    rfl

theorem modelValidate_loaded {α : Type} {c : Codec Coord α} {validate : α → Validated} {w : Json Coord} {a : α}
    (h : c.load w = some a) : modelValidate c validate w = if validate a = .ok () then some a else none := by
  rw [modelValidate, h]
  rfl

theorem detailFromSnapshot_read {p : Payload} (h : readPayload v = some p) (tripId : String) (revision : ℤ)
    (createdAt : String) (updatedAt : Option String) :
    detailFromSnapshot tripId v revision createdAt updatedAt =
      Snapshots.detailFromSnapshot tripId p revision createdAt updatedAt := by
  unfold readPayload at h
  split_ifs at h with htype
  · obtain ⟨q, hq, rfl⟩ := Option.map_eq_some_iff.mp h
    obtain ⟨-, hname, hrequest, hresponse⟩ := multiDayPayload_loaded hq
    obtain ⟨w, hw, hload⟩ := Option.bind_eq_some_iff.mp hrequest
    obtain ⟨w', hw', hload'⟩ := Option.bind_eq_some_iff.mp hresponse
    have hvalidate : (TripPlan.multiDay q.multiDayRequest q.multiDayResponse).validate =
      q.multiDayRequest.validate := rfl
    rw [detailFromSnapshot, if_pos htype, Snapshots.detailFromSnapshot, hw, hw']
    simp only [Option.bind_eq_bind, Option.bind_some, hload', hname, modelValidate_loaded hload, hvalidate]
    split_ifs <;> rfl
  · obtain ⟨q, hq, rfl⟩ := Option.map_eq_some_iff.mp h
    obtain ⟨-, hname, hdate, hrequest, hresponse⟩ := singleDayPayload_loaded hq
    obtain ⟨w, hw, hload⟩ := Option.bind_eq_some_iff.mp hrequest
    obtain ⟨w', hw', hload'⟩ := Option.bind_eq_some_iff.mp hresponse
    have hvalidate : (TripPlan.singleDay q.date q.optimizerRequest q.optimizerResponse).validate =
      q.optimizerRequest.validate := rfl
    rw [detailFromSnapshot, if_neg htype, Snapshots.detailFromSnapshot, hw, hw']
    simp only [Option.bind_eq_bind, Option.bind_some, hload', hname, hdate, modelValidate_loaded hload, hvalidate]
    split_ifs <;> rfl

end Reading

/-- The serialiser of the repository; its hash stays a parameter. -/
def jsonCodec (ft : FloatText Coord) {Hash : Type} (snapshotHash : Text → Hash) : SnapshotCodec Text Hash where
  canonicalJson p := canonicalJson ft (payloadJson p)
  snapshotHash := snapshotHash
  parse s := (loads ft s).bind readPayload
  parse_canonicalJson p := by
    rw [canonicalJson, loads_write, Option.bind_some]
    exact readPayload_payloadJson p

/-- A stored text that holds a payload is a dictionary with the details of the
payload. -/
theorem loadSnapshot_dictionary {ft : FloatText Coord} {Hash : Type} {snapshotHash : Text → Hash} {snapshot : Text}
    {compression : Compression} {p : Payload}
    (h : Snapshots.loadSnapshot (jsonCodec ft snapshotHash) snapshot compression = some p) :
    ∃ v, loadSnapshot ft snapshot compression = some v ∧ ∀ tripId revision createdAt updatedAt,
      detailFromSnapshot tripId v revision createdAt updatedAt =
        Snapshots.detailFromSnapshot tripId p revision createdAt updatedAt := by
  unfold Snapshots.loadSnapshot at h
  split_ifs at h with hnone
  obtain ⟨v, hv, hread⟩ := Option.bind_eq_some_iff.mp h
  refine ⟨v, ?_, detailFromSnapshot_read hread⟩
  rw [loadSnapshot, if_pos hnone, hv]

end TravelPlanner.SnapshotJson
