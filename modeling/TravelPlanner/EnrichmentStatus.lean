import TravelPlanner.PlaceStore
import TravelPlanner.RoutesDecoding

namespace TravelPlanner.EnrichmentStatus

open Clock Requests PlaceStore
open RoutesDecoding (ErrorBody refusal)

section Outcomes

structure Outcome (α : Type) where
  payload : Option α := none
  status : Option String := none
  error : Option String := none

def Outcome.report {α : Type} (outcome : Outcome α) : Option String × Option String := (outcome.status, outcome.error)

/-- The JSON of a place; an empty object holds no details. -/
abbrev Payload := Option PlaceDetails

def usable (outcome : Outcome Payload) : Option PlaceDetails := outcome.payload.join

/-- The calls an enrichment may make. The same id may be answered differently the second
time. -/
structure Calls where
  storedFetch : String → Outcome Payload
  search : Option String → Option Coord → Option Coord → Outcome String
  resolvedFetch : String → Outcome Payload

end Outcomes

section Update

variable (calls : Calls) (doc : PlaceDocument)

def storedId : Option String := doc.gmapsPlaceId.filter fun id ↦ ['C', 'h', 'I'].isPrefixOf id.toList

def fetched : Outcome Payload :=
  match storedId doc with
  | some id => calls.storedFetch id
  | none => {}

def resolved : Outcome String := if usable (fetched calls doc) = none then calls.search doc.name doc.lat doc.lng else {}

def resolvedId : Option String := (resolved calls doc).payload.filter (· ≠ "")

def found : Outcome Payload :=
  match usable (fetched calls doc), resolvedId calls doc with
  | none, some id => calls.resolvedFetch id
  | _, _ => fetched calls doc

def buildEnrichmentUpdate (now : DateTime) : EnrichmentUpdate × Bool :=
  let resolved := resolved calls doc
  let found := found calls doc
  let update : EnrichmentUpdate :=
    { detailsStatus :=
        if usable found ≠ none then found.status
        else if resolvedId calls doc ≠ none then orElse found.status resolved.status
        else orElse resolved.status found.status
      detailsError :=
        if usable found ≠ none then found.error
        else if resolvedId calls doc ≠ none then orElse found.error resolved.error
        else orElse resolved.error found.error
      resolveStatus := resolved.status
      resolveError := resolved.error
      enrichedAt := now
      gmapsPlaceId := resolvedId calls doc
      details := usable found }
  (update, found.payload ≠ none)

end Update

section Client

inductive FetchAnswer
  | refused (statusCode : ℕ) (error : Option ErrorBody) (text : String)
  | failed (error : ErrorBody)
  | place (payload : Option Payload)

inductive SearchAnswer
  | refused (statusCode : ℕ) (error : Option ErrorBody) (text : String)
  | places (ids : List (Option String))

def fetchPlaceDetails (apiKey : String) (answer : FetchAnswer) : Outcome Payload :=
  if apiKey = "" then ⟨none, some "MISSING_API_KEY", none⟩
  else
    match answer with
    | .refused statusCode error text =>
      let (status, message) := refusal statusCode error text
      ⟨none, some status, some message⟩
    | .failed error => ⟨none, error.status, error.message⟩
    | .place payload => ⟨payload, some "OK", none⟩

def searchPlaceId (apiKey : String) (name : Option String) (answer : SearchAnswer) : Outcome String :=
  if apiKey = "" then ⟨none, some "MISSING_API_KEY", none⟩
  else if name = none ∨ name = some "" then ⟨none, some "MISSING_NAME", none⟩
  else
    match answer with
    | .refused statusCode error text =>
      let (status, message) := refusal statusCode error text
      ⟨none, some status, some message⟩
    | .places ids =>
      match ids.head?.join.filter (· ≠ "") with
      | none => ⟨none, some "NOT_FOUND", none⟩
      | some id => ⟨some id, some "OK", none⟩

/-- The calls of a client, by what its requests are answered with. -/
def clientCalls (apiKey : String) (stored : String → FetchAnswer)
    (searched : Option String → Option Coord → Option Coord → SearchAnswer) (again : String → FetchAnswer) :
    Calls where
  storedFetch id := fetchPlaceDetails apiKey (stored id)
  search name lat lng := searchPlaceId apiKey name (searched name lat lng)
  resolvedFetch id := fetchPlaceDetails apiKey (again id)

end Client

section Provenance

def attempts (calls : Calls) (doc : PlaceDocument) : List (Option String × Option String) :=
  let stored := (storedId doc).toList.map fun id ↦ (calls.storedFetch id).report
  if usable (fetched calls doc) ≠ none then stored
  else
    let again := (resolvedId calls doc).toList.map fun id ↦ (calls.resolvedFetch id).report
    stored ++ (calls.search doc.name doc.lat doc.lng).report :: again

def FromLastAttempt (calls : Calls) (doc : PlaceDocument) (update : EnrichmentUpdate) : Prop :=
  (attempts calls doc).getLast? = some (update.detailsStatus, update.detailsError) ∧
    (update.detailsStatus = some "OK" → update.details ≠ none)

/-- A text stands on its own before a fallback, or agrees with it. -/
def Outranks (a b : Option String) : Prop := (a ≠ none ∧ a ≠ some "") ∨ a = b

def lastTwo (calls : Calls) (doc : PlaceDocument) : (Option String × Option String) × (Option String × Option String) :=
  if resolvedId calls doc ≠ none then ((found calls doc).report, (resolved calls doc).report)
  else ((resolved calls doc).report, (fetched calls doc).report)

/-- There are details, or the last call names a status other than `OK` and an error of its
own, unless the call before it reported the same. -/
def Conclusive (calls : Calls) (doc : PlaceDocument) : Prop :=
  usable (found calls doc) ≠ none ∨
    Outranks (lastTwo calls doc).1.1 (lastTwo calls doc).2.1 ∧
      Outranks (lastTwo calls doc).1.2 (lastTwo calls doc).2.2 ∧ (lastTwo calls doc).1.1 ≠ some "OK"

theorem orElse_eq_left {a b : Option String} : orElse a b = a ↔ Outranks a b := by
  rw [orElse, Outranks]
  split_ifs with h
  · constructor
    · exact fun hsame ↦ .inr hsame.symm
    · rintro (⟨hnone, hempty⟩ | hsame)
      · exact absurd h (not_or.mpr ⟨hnone, hempty⟩)
      · exact hsame.symm
  · exact iff_of_true rfl (.inl (not_or.mp h))

variable {calls : Calls} {doc : PlaceDocument}

theorem storedId_of_usable (h : usable (fetched calls doc) ≠ none) :
    ∃ id, storedId doc = some id ∧ fetched calls doc = calls.storedFetch id := by
  rw [fetched] at h ⊢
  cases hid : storedId doc with
  | none =>
    rw [hid] at h
    exact absurd rfl h
  | some id => exact ⟨id, rfl, rfl⟩

theorem found_of_usable (h : usable (fetched calls doc) ≠ none) : found calls doc = fetched calls doc := by
  obtain ⟨details, hdetails⟩ := Option.ne_none_iff_exists'.mp h
  rw [found, hdetails]

theorem found_of_unresolved (h : resolvedId calls doc = none) : found calls doc = fetched calls doc := by
  rw [found, h]
  cases usable (fetched calls doc) <;> rfl

theorem resolvedId_of_usable (h : usable (fetched calls doc) ≠ none) : resolvedId calls doc = none := by
  rw [resolvedId, resolved, if_neg h]
  rfl

/-- The last call is the fetch that gave the details, the fetch of a resolved id, or else
the search. -/
theorem last_attempt (calls : Calls) (doc : PlaceDocument) : (attempts calls doc).getLast? =
    some (if usable (found calls doc) ≠ none then (found calls doc).report else (lastTwo calls doc).1) := by
  by_cases hstored : usable (fetched calls doc) = none
  · have hsearch : resolved calls doc = calls.search doc.name doc.lat doc.lng := if_pos hstored
    rw [attempts, if_neg (not_not.mpr hstored)]
    cases hid : resolvedId calls doc with
    | none =>
      have hfound : usable (found calls doc) = none := by rw [found_of_unresolved hid, hstored]
      rw [lastTwo, hid, if_neg (not_not.mpr hfound), if_neg (not_not.mpr rfl), hsearch]
      exact List.getLast?_concat
    | some id =>
      have hfound : found calls doc = calls.resolvedFetch id := by rw [found, hstored, hid]
      rw [lastTwo, hid, if_pos (Option.some_ne_none id), ite_self, hfound]
      simp
  · obtain ⟨id, hid, hfetched⟩ := storedId_of_usable hstored
    rw [attempts, if_pos hstored, found_of_usable hstored, if_pos hstored, hid, hfetched]
    rfl

/-- Without details the last report is stored, with the one before it for a fallback. -/
theorem stored_of_unusable (now : DateTime) (h : usable (found calls doc) = none) :
    (buildEnrichmentUpdate calls doc now).1.detailsStatus = orElse (lastTwo calls doc).1.1 (lastTwo calls doc).2.1 ∧
    (buildEnrichmentUpdate calls doc now).1.detailsError = orElse (lastTwo calls doc).1.2 (lastTwo calls doc).2.2 := by
  simp only [buildEnrichmentUpdate, lastTwo, h, ne_eq, not_true_eq_false, if_false]
  by_cases hid : resolvedId calls doc = none
  · simp only [hid, not_true_eq_false, if_false, found_of_unresolved hid]
    exact ⟨rfl, rfl⟩
  · simp only [hid, not_false_eq_true, if_true]
    exact ⟨rfl, rfl⟩

theorem stored_of_usable (now : DateTime) (h : usable (found calls doc) ≠ none) :
    ((buildEnrichmentUpdate calls doc now).1.detailsStatus, (buildEnrichmentUpdate calls doc now).1.detailsError) =
      (found calls doc).report := by
  simp only [buildEnrichmentUpdate, if_pos h]
  rfl

/-- The stored status comes from the last call exactly when that call is conclusive. -/
theorem provenance_iff (calls : Calls) (doc : PlaceDocument) (now : DateTime) :
    FromLastAttempt calls doc (buildEnrichmentUpdate calls doc now).1 ↔ Conclusive calls doc := by
  have hdetails : (buildEnrichmentUpdate calls doc now).1.details = usable (found calls doc) := rfl
  rw [FromLastAttempt, Conclusive, last_attempt, hdetails]
  by_cases h : usable (found calls doc) = none
  · obtain ⟨hstatus, herror⟩ := stored_of_unusable now h
    rw [if_neg (not_not.mpr h), hstatus, herror, Option.some_inj, eq_comm, Prod.ext_iff, orElse_eq_left,
      orElse_eq_left]
    constructor
    · rintro ⟨⟨hown, howned⟩, hok⟩
      refine .inr ⟨hown, howned, fun hlast ↦ hok ?_ h⟩
      rw [orElse_eq_left.mpr hown, hlast]
    · rintro (hfound | ⟨hown, howned, hnot⟩)
      · exact absurd h hfound
      · refine ⟨⟨hown, howned⟩, fun hok ↦ absurd ?_ hnot⟩
        rw [← orElse_eq_left.mpr hown, hok]
  · rw [if_pos h, stored_of_usable now h]
    exact iff_of_true ⟨rfl, fun _ ↦ h⟩ (.inl h)

end Provenance

section Client

theorem httpStatus_ne_empty (statusCode : ℕ) (error : Option ErrorBody) (text : String) :
    (refusal statusCode error text).1 ≠ "" := by
  rw [refusal]
  cases hstatus : (error.bind ErrorBody.status).filter (· ≠ "") with
  | none => simp
  | some status => simpa using (Option.filter_eq_some_iff.mp hstatus).2

theorem searchPlaceId_status (apiKey : String) (name : Option String) (answer : SearchAnswer) :
    ∃ status ≠ "", (searchPlaceId apiKey name answer).status = some status := by
  unfold searchPlaceId
  split_ifs
  · exact ⟨_, by decide, rfl⟩
  · exact ⟨_, by decide, rfl⟩
  · cases answer with
    | refused statusCode error text => exact ⟨_, httpStatus_ne_empty statusCode error text, rfl⟩
    | places ids =>
      dsimp only
      split
      · exact ⟨_, by decide, rfl⟩
      · exact ⟨_, by decide, rfl⟩

/-- Where neither the stored id nor the search led to a place, the client stores the status
of the search. -/
theorem unresolved_status (apiKey : String) (stored : String → FetchAnswer)
    (searched : Option String → Option Coord → Option Coord → SearchAnswer) (again : String → FetchAnswer)
    (doc : PlaceDocument) (now : DateTime)
    (hfetch : usable (fetched (clientCalls apiKey stored searched again) doc) = none)
    (hsearch : resolvedId (clientCalls apiKey stored searched again) doc = none) :
    (buildEnrichmentUpdate (clientCalls apiKey stored searched again) doc now).1.detailsStatus =
      (searchPlaceId apiKey doc.name (searched doc.name doc.lat doc.lng)).status := by
  have hunusable : usable (found (clientCalls apiKey stored searched again) doc) = none := by
    rw [found_of_unresolved hsearch, hfetch]
  have hresolved : resolved (clientCalls apiKey stored searched again) doc =
      searchPlaceId apiKey doc.name (searched doc.name doc.lat doc.lng) := if_pos hfetch
  obtain ⟨status, hempty, hstatus⟩ :=
    searchPlaceId_status apiKey doc.name (searched doc.name doc.lat doc.lng)
  rw [(stored_of_unusable now hunusable).1, lastTwo, if_neg (not_not.mpr hsearch), hresolved]
  refine orElse_eq_left.mpr (.inl ⟨?_, ?_⟩)
  · rw [Outcome.report, hstatus]
    exact Option.some_ne_none status
  · rw [Outcome.report, hstatus]
    exact fun h ↦ hempty (Option.some.inj h)

end Client

section Stores

def outcomeOf (answer : Option PlaceDetails × Option String × Option String) : Outcome Payload :=
  ⟨answer.1.map some, answer.2.1, answer.2.2⟩

def callsOf (api : PlacesApi) : Calls where
  storedFetch id := outcomeOf (api.fetchPlaceDetails id)
  search name lat lng := ⟨(api.searchPlaceId name lat lng).1, (api.searchPlaceId name lat lng).2.1,
    (api.searchPlaceId name lat lng).2.2⟩
  resolvedFetch id := outcomeOf (api.fetchPlaceDetails id)

@[simp] theorem usable_outcomeOf (answer : Option PlaceDetails × Option String × Option String) :
    usable (outcomeOf answer) = answer.1 := by
  cases h : answer.1 <;> simp [usable, outcomeOf, h]

@[simp] theorem usable_empty : usable {} = none := rfl

@[simp] theorem outcomeOf_status (answer : Option PlaceDetails × Option String × Option String) :
    (outcomeOf answer).status = answer.2.1 := rfl

@[simp] theorem outcomeOf_error (answer : Option PlaceDetails × Option String × Option String) :
    (outcomeOf answer).error = answer.2.2 := rfl

variable {api : PlacesApi} {doc : PlaceDocument}

theorem resolvedId_callsOf (hids : ∀ name lat lng, (api.searchPlaceId name lat lng).1 ≠ some "")
    (h : usable (fetched (callsOf api) doc) = none) :
    resolvedId (callsOf api) doc = (api.searchPlaceId doc.name doc.lat doc.lng).1 := by
  have hresolved : resolved (callsOf api) doc = (callsOf api).search doc.name doc.lat doc.lng := if_pos h
  rw [resolvedId, hresolved]
  change (api.searchPlaceId doc.name doc.lat doc.lng).1.filter _ = _
  cases hid : (api.searchPlaceId doc.name doc.lat doc.lng).1 with
  | none => rfl
  | some id =>
    have hne : id ≠ "" := fun hempty ↦ hids _ _ _ (hempty ▸ hid)
    simp [hne]

/-- What the store writes for such a service is the update of its calls. -/
theorem buildEnrichmentUpdate_callsOf (hids : ∀ name lat lng, (api.searchPlaceId name lat lng).1 ≠ some "")
    (now : DateTime) :
    (buildEnrichmentUpdate (callsOf api) doc now).1 = PlaceStore.buildEnrichmentUpdate api now doc := by
  have hagain : (callsOf api).resolvedFetch = fun id ↦ outcomeOf (api.fetchPlaceDetails id) := rfl
  have hsearched (h : usable (fetched (callsOf api) doc) = none) :
      (resolved (callsOf api) doc).status = (api.searchPlaceId doc.name doc.lat doc.lng).2.1 ∧
        (resolved (callsOf api) doc).error = (api.searchPlaceId doc.name doc.lat doc.lng).2.2 := by
    rw [resolved, if_pos h]
    exact ⟨rfl, rfl⟩
  cases hstored : doc.gmapsPlaceId.filter fun id ↦ ['C', 'h', 'I'].isPrefixOf id.toList with
  | none =>
    have hfetched : fetched (callsOf api) doc = {} := by rw [fetched, storedId, hstored]
    have hnone : usable (fetched (callsOf api) doc) = none := by rw [hfetched, usable_empty]
    obtain ⟨hstatus, herror⟩ := hsearched hnone
    have hid := resolvedId_callsOf hids hnone
    cases hsearch : (api.searchPlaceId doc.name doc.lat doc.lng).1 <;>
      simp [buildEnrichmentUpdate, PlaceStore.buildEnrichmentUpdate, found, hid, hstatus, herror, hsearch, hstored,
        hfetched, hagain]
  | some placeId =>
    have hfetched : fetched (callsOf api) doc = outcomeOf (api.fetchPlaceDetails placeId) := by
      rw [fetched, storedId, hstored]
      rfl
    cases hdetails : (api.fetchPlaceDetails placeId).1 with
    | none =>
      have hnone : usable (fetched (callsOf api) doc) = none := by rw [hfetched, usable_outcomeOf, hdetails]
      obtain ⟨hstatus, herror⟩ := hsearched hnone
      have hid := resolvedId_callsOf hids hnone
      cases hsearch : (api.searchPlaceId doc.name doc.lat doc.lng).1 <;>
        simp [buildEnrichmentUpdate, PlaceStore.buildEnrichmentUpdate, found, hid, hstatus, herror, hsearch, hstored,
          hfetched, hdetails, hagain]
    | some details =>
      have hsome : usable (fetched (callsOf api) doc) ≠ none := by simp [hfetched, hdetails]
      have hresolved : resolved (callsOf api) doc = {} := if_neg hsome
      simp [buildEnrichmentUpdate, PlaceStore.buildEnrichmentUpdate, found_of_usable hsome, resolvedId_of_usable hsome,
        hresolved, hstored, hfetched, hdetails]

end Stores

section Kiosk

def kiosk : PlaceDocument where
  id := ⟨"65a0000000000000000000e1", by decide⟩
  name := some "Kiosk"
  gmapsPlaceId := some "ChIkiosk"

def kioskCalls : Calls :=
  clientCalls "key" (fun _ ↦ .refused 404 (some ⟨some "NOT_FOUND", some "Place not found"⟩) "")
    (fun _ _ _ ↦ .places []) (fun _ ↦ .place none)

def enrichedAt : DateTime := ⟨⟨2051, 8, 9, by decide, by decide, by decide⟩, midnight⟩

/-- The search reported no error; the message stored is the one of the fetch before it. -/
theorem kiosk_superseded : ¬∀ (calls : Calls) (doc : PlaceDocument) (now : DateTime),
    FromLastAttempt calls doc (buildEnrichmentUpdate calls doc now).1 := by
  intro h
  obtain ⟨hlast, -⟩ := h kioskCalls kiosk enrichedAt
  have hsearch : (attempts kioskCalls kiosk).getLast? = some (some "NOT_FOUND", none) := by decide
  have herror : (buildEnrichmentUpdate kioskCalls kiosk enrichedAt).1.detailsError = some "Place not found" := by decide
  rw [hsearch, herror] at hlast
  cases hlast

end Kiosk

end TravelPlanner.EnrichmentStatus
