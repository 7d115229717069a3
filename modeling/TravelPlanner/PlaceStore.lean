import TravelPlanner.Runs
import TravelPlanner.Windows

namespace TravelPlanner.PlaceStore

open Clock Requests Windows Runs

structure ScrapedPlace where
  name : Option String := none
  address : Option String := none
  mapsUrl : Option String := none
  lat : Option Coord := none
  lng : Option Coord := none
  gmapsPlaceId : Option String := none
  gmapsCid : Option String := none
  raw : String := ""
  deriving DecidableEq

structure PlaceDetails where
  formattedAddress : Option String
  regularOpeningHours : Option String
  latitude : Option Coord
  longitude : Option Coord
  body : String
  deriving DecidableEq

/-- A document of the places collection. A missing field reads like a null one; only
`mapsUrl` tells them apart (`none` is missing), because its unique index is sparse. -/
structure PlaceDocument where
  id : ObjectId
  name : Option String := none
  address : Option String := none
  mapsUrl : Option (Option String) := none
  lat : Option Coord := none
  lng : Option Coord := none
  gmapsPlaceId : Option String := none
  gmapsCid : Option String := none
  raw : Option String := none
  sourceListUrl : Option String := none
  listName : Option String := none
  scrapedAt : Option DateTime := none
  details : Option PlaceDetails := none
  openingHours : Option String := none
  detailsStatus : Option String := none
  detailsError : Option String := none
  resolveStatus : Option String := none
  resolveError : Option String := none
  enrichedAt : Option DateTime := none
  preferredHourFrom : Option ℤ := none
  preferredHourTo : Option ℤ := none
  visitDurationMin : Option ℤ := none
  priority : Option Priority := none
  skipped : Option Bool := none
  deriving DecidableEq

section Import

structure ImportInfo where
  sourceListUrl : String
  listName : Option String
  scrapedAt : DateTime
  deriving DecidableEq

/-- The filter of an upsert: the URL where there is one, else name and address. -/
def matchesPlace (place : ScrapedPlace) (d : PlaceDocument) : Bool :=
  if place.mapsUrl ≠ none ∧ place.mapsUrl ≠ some "" then d.mapsUrl.join = place.mapsUrl
  else d.name = place.name && d.address = place.address

def setDump (place : ScrapedPlace) (info : ImportInfo) (d : PlaceDocument) : PlaceDocument :=
  { d with
    name := place.name
    address := place.address
    mapsUrl := some place.mapsUrl
    lat := place.lat
    lng := place.lng
    gmapsPlaceId := place.gmapsPlaceId
    gmapsCid := place.gmapsCid
    raw := some place.raw
    sourceListUrl := some info.sourceListUrl
    listName := info.listName
    scrapedAt := some info.scrapedAt }

/-- The unique sparse index on `maps_url`. -/
def indexed (docs : List PlaceDocument) : Bool := (docs.filterMap PlaceDocument.mapsUrl).Nodup

/-- What an upsert would write, were it not for the index. -/
def upserted (docs : List PlaceDocument) (newId : ObjectId) (place : ScrapedPlace) (info : ImportInfo) :
    List PlaceDocument :=
  match docs.findIdx? (matchesPlace place) with
  | some i => docs.modify i (setDump place info)
  | none => docs ++ [setDump place info { id := newId }]

def upsertPlace (docs : List PlaceDocument) (newId : ObjectId) (place : ScrapedPlace) (info : ImportInfo) :
    List PlaceDocument :=
  if indexed (upserted docs newId place info) then upserted docs newId place info else docs

end Import

section Enrichment

/-- Each call answers with what it found, a status and an error. -/
structure PlacesApi where
  fetchPlaceDetails : String → Option PlaceDetails × Option String × Option String
  searchPlaceId : Option String → Option Coord → Option Coord → Option String × Option String × Option String

structure EnrichmentUpdate where
  detailsStatus : Option String
  detailsError : Option String
  resolveStatus : Option String
  resolveError : Option String
  enrichedAt : DateTime
  gmapsPlaceId : Option String
  details : Option PlaceDetails
  deriving DecidableEq

def orElse (a b : Option String) : Option String := if a = none ∨ a = some "" then b else a

def buildEnrichmentUpdate (api : PlacesApi) (now : DateTime) (doc : PlaceDocument) : EnrichmentUpdate :=
  let placeId := doc.gmapsPlaceId.filter fun id ↦ ['C', 'h', 'I'].isPrefixOf id.toList
  let fetched :=
    match placeId with
    | some id => api.fetchPlaceDetails id
    | none => (none, none, none)
  let resolved := if fetched.1 = none then api.searchPlaceId doc.name doc.lat doc.lng else (none, none, none)
  let found :=
    match fetched.1, resolved.1 with
    | none, some id => api.fetchPlaceDetails id
    | _, _ => fetched
  { detailsStatus :=
      if found.1 ≠ none then found.2.1
      else if resolved.1 ≠ none then orElse found.2.1 resolved.2.1
      else orElse resolved.2.1 found.2.1
    detailsError :=
      if found.1 ≠ none then found.2.2
      else if resolved.1 ≠ none then orElse found.2.2 resolved.2.2
      else orElse resolved.2.2 found.2.2
    resolveStatus := resolved.2.1
    resolveError := resolved.2.2
    enrichedAt := now
    gmapsPlaceId := resolved.1
    details := found.1 }

def EnrichmentUpdate.apply (u : EnrichmentUpdate) (d : PlaceDocument) : PlaceDocument :=
  let d :=
    { d with
      detailsStatus := u.detailsStatus
      detailsError := u.detailsError
      resolveStatus := u.resolveStatus
      resolveError := u.resolveError
      enrichedAt := some u.enrichedAt
      gmapsPlaceId := u.gmapsPlaceId.or d.gmapsPlaceId }
  match u.details with
  | none => d
  | some details =>
    let located := details.latitude ≠ none ∧ details.longitude ≠ none
    { d with
      details := some details
      address := details.formattedAddress
      openingHours := details.regularOpeningHours
      lat := if located then details.latitude else d.lat
      lng := if located then details.longitude else d.lng }

end Enrichment

section Preferences

inductive Change (α : Type)
  | omitted | cleared
  | value (a : α)
  deriving DecidableEq, Repr

def Change.apply {α : Type} : Change α → Option α → Option α
  | .omitted, stored => stored
  | .cleared, _ => none
  | .value a, _ => some a

structure PlacePatch where
  preferredHourFrom : Change ℤ := .omitted
  preferredHourTo : Change ℤ := .omitted
  visitDurationMin : Change ℤ := .omitted
  priority : Change Priority := .omitted
  skipped : Change Bool := .omitted
  deriving DecidableEq

/-- A one-sided change of the hours is checked against the stored other side. -/
def PlacePatch.hoursConflict (p : PlacePatch) (d : PlaceDocument) : Bool :=
  match p.preferredHourFrom, p.preferredHourTo with
  | .value hourFrom, .omitted => d.preferredHourTo.any fun hourTo ↦ hourTo ≤ hourFrom
  | .omitted, .value hourTo => d.preferredHourFrom.any fun hourFrom ↦ hourTo ≤ hourFrom
  | _, _ => false

def PlacePatch.apply (p : PlacePatch) (d : PlaceDocument) : PlaceDocument :=
  if p.hoursConflict d then d
  else
    { d with
      preferredHourFrom := p.preferredHourFrom.apply d.preferredHourFrom
      preferredHourTo := p.preferredHourTo.apply d.preferredHourTo
      visitDurationMin := p.visitDurationMin.apply d.visitDurationMin
      priority := p.priority.apply d.priority
      skipped := p.skipped.apply d.skipped }

structure PlaceCreate where
  name : String
  address : Option String := none
  lat : Option Coord := none
  lng : Option Coord := none
  visitDurationMin : Option ℤ := none
  preferredHourFrom : Option ℤ := none
  preferredHourTo : Option ℤ := none
  priority : Option Priority := none
  deriving DecidableEq

def insertPlace (newId : ObjectId) (place : PlaceCreate) : PlaceDocument where
  id := newId
  name := some place.name
  address := place.address
  lat := place.lat
  lng := place.lng
  visitDurationMin := place.visitDurationMin
  preferredHourFrom := place.preferredHourFrom
  preferredHourTo := place.preferredHourTo
  priority := place.priority
  skipped := some false

end Preferences

def modifyById (docs : List PlaceDocument) (id : ObjectId) (f : PlaceDocument → PlaceDocument) : List PlaceDocument :=
  docs.map fun d ↦ if d.id = id then f d else d

/-- The operations of a list import are applied one by one, in any order, and others
may come between them. An enrichment rests on the document as it was read. -/
inductive Event
  | upsert (newId : ObjectId) (place : ScrapedPlace) (info : ImportInfo)
  | enrich (id : ObjectId) (read : PlaceDocument) (api : PlacesApi) (now : DateTime)
  | patch (id : ObjectId) (p : PlacePatch)
  | insert (newId : ObjectId) (place : PlaceCreate)

def step (docs : List PlaceDocument) : Event → List PlaceDocument
  | .upsert newId place info => upsertPlace docs newId place info
  | .enrich id read api now => modifyById docs id (buildEnrichmentUpdate api now read).apply
  | .patch id p => modifyById docs id p.apply
  | .insert newId place => docs ++ [insertPlace newId place]

def upsertPlaces (docs : List PlaceDocument) (places : List (ObjectId × ScrapedPlace)) (info : ImportInfo) :
    List PlaceDocument :=
  run step docs (places.map fun p ↦ .upsert p.1 p.2 info)

end TravelPlanner.PlaceStore
