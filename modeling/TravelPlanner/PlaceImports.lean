import TravelPlanner.PlaceStore

namespace TravelPlanner.PlaceImports

open Clock Requests Windows Runs PlaceStore

/-- What an import owes a document: nothing known becomes null, and the preferences
stay as the user set them. -/
structure Keeps (d d' : PlaceDocument) : Prop where
  address : d.address ≠ none → d'.address ≠ none
  gmapsPlaceId : d.gmapsPlaceId ≠ none → d'.gmapsPlaceId ≠ none
  lat : d.lat ≠ none → d'.lat ≠ none
  lng : d.lng ≠ none → d'.lng ≠ none
  details : d.details ≠ none → d'.details ≠ none
  openingHours : d.openingHours ≠ none → d'.openingHours ≠ none
  visitDurationMin : d'.visitDurationMin = d.visitDurationMin
  preferredHourFrom : d'.preferredHourFrom = d.preferredHourFrom
  preferredHourTo : d'.preferredHourTo = d.preferredHourTo
  priority : d'.priority = d.priority
  skipped : d'.skipped = d.skipped

def NonDestructive (t : Transition (List PlaceDocument) Event) : Prop :=
  match t.event with
  | .upsert .. => ∀ (i : ℕ) (d : PlaceDocument), t.before[i]? = some d →
      ∃ d', t.after[i]? = some d' ∧ d'.id = d.id ∧ Keeps d d'
  | _ => True

def matched (docs : List PlaceDocument) (place : ScrapedPlace) : Option PlaceDocument :=
  (docs.findIdx? (matchesPlace place)).bind fun i ↦ docs[i]?

def forgets (place : ScrapedPlace) (d : PlaceDocument) : Bool :=
  place.address = none && d.address ≠ none || place.gmapsPlaceId = none && d.gmapsPlaceId ≠ none ||
    place.lat = none && d.lat ≠ none || place.lng = none && d.lng ≠ none

/-- An imported place matches no document, or one of which it knows as much, or the
index refuses it. -/
def remembers (docs : List PlaceDocument) : Event → Bool
  | .upsert newId place info =>
    !(matched docs place).any (forgets place) || !indexed (upserted docs newId place info)
  | _ => true

/-- The fields that imports and enrichments both write. -/
structure Whereabouts where
  address : Option String
  gmapsPlaceId : Option String
  lat : Option Coord
  lng : Option Coord

def scrapedWhereabouts (place : ScrapedPlace) : Whereabouts :=
  ⟨place.address, place.gmapsPlaceId, place.lat, place.lng⟩

def knownWhereabouts (d : PlaceDocument) : Whereabouts := ⟨d.address, d.gmapsPlaceId, d.lat, d.lng⟩

structure SameDetails (d d' : PlaceDocument) : Prop where
  details : d'.details = d.details
  openingHours : d'.openingHours = d.openingHours
  detailsStatus : d'.detailsStatus = d.detailsStatus
  detailsError : d'.detailsError = d.detailsError
  resolveStatus : d'.resolveStatus = d.resolveStatus
  resolveError : d'.resolveError = d.resolveError
  enrichedAt : d'.enrichedAt = d.enrichedAt

structure SameData (d d' : PlaceDocument) : Prop extends SameDetails d d' where
  whereabouts : knownWhereabouts d' = knownWhereabouts d

/-- One import of a list: its places in the order in which the bulk carries them out,
each with the id of the document it may become. -/
structure ListImport (places : List ScrapedPlace) where
  operations : List (ObjectId × ScrapedPlace)
  whole : (operations.map Prod.snd).Perm places
  info : ImportInfo

def ListImport.events {places : List ScrapedPlace} (again : ListImport places) : List Event :=
  again.operations.map fun op ↦ .upsert op.1 op.2 again.info

def written (i : ℕ) (t : Transition (List PlaceDocument) Event) : Option ScrapedPlace :=
  match t.event with
  | .upsert newId place info =>
    if t.before.findIdx? (matchesPlace place) = some i ∧ indexed (upserted t.before newId place info) = true
    then some place else none
  | _ => none

def lastWritten (i : ℕ) (ts : List (Transition (List PlaceDocument) Event)) : Option ScrapedPlace :=
  (ts.filterMap (written i)).getLast?

def LeavesData {places : List ScrapedPlace} (docs : List PlaceDocument) (again : ListImport places) : Prop :=
  ∀ (i : ℕ) (d : PlaceDocument), docs[i]? = some d →
    ∃ d', (run step docs again.events)[i]? = some d' ∧ d'.id = d.id ∧ SameData d d'

/-- What the import writes to a document last has the document's own address, place id
and coordinates. -/
def FoundAsScraped {places : List ScrapedPlace} (docs : List PlaceDocument) (again : ListImport places) : Prop :=
  ∀ (i : ℕ) (d : PlaceDocument), docs[i]? = some d →
    ∀ place ∈ lastWritten i (trace step docs again.events), scrapedWhereabouts place = knownWhereabouts d

variable {docs : List PlaceDocument} {place : ScrapedPlace} {info : ImportInfo} {d : PlaceDocument}

theorem Keeps.refl (d : PlaceDocument) : Keeps d d :=
  ⟨id, id, id, id, id, id, rfl, rfl, rfl, rfl, rfl⟩

theorem keeps_setDump (info : ImportInfo) : Keeps d (setDump place info d) ↔ forgets place d = false := by
  simp only [forgets, Bool.or_eq_false_iff, Bool.and_eq_false_iff, decide_eq_false_iff_not, not_not, ne_eq]
  constructor
  · intro h
    have hfield : ∀ {α : Type} {known scraped : Option α}, (known ≠ none → scraped ≠ none) →
        ¬scraped = none ∨ known = none := fun h ↦ or_iff_not_imp_right.mpr h
    exact ⟨⟨⟨hfield h.address, hfield h.gmapsPlaceId⟩, hfield h.lat⟩, hfield h.lng⟩
  · rintro ⟨⟨⟨haddress, hplace⟩, hlat⟩, hlng⟩
    exact ⟨haddress.resolve_right, hplace.resolve_right, hlat.resolve_right, hlng.resolve_right, id, id,
      rfl, rfl, rfl, rfl, rfl⟩

theorem upserted_keeps_iff (newId : ObjectId) :
    (∀ (i : ℕ) (d : PlaceDocument), docs[i]? = some d →
      ∃ d', (upserted docs newId place info)[i]? = some d' ∧ d'.id = d.id ∧ Keeps d d') ↔
    (matched docs place).any (forgets place) = false := by
  unfold upserted matched
  cases hfind : docs.findIdx? (matchesPlace place) with
  | none =>
    simp only [Option.bind_none, Option.any_none, iff_true]
    intro i d hd
    exact ⟨d, by rw [List.getElem?_append_left (List.getElem?_eq_some_iff.mp hd).1, hd], rfl, .refl d⟩
  | some i =>
    obtain ⟨hi, _⟩ := List.findIdx?_eq_some_iff_getElem.mp hfind
    simp only [Option.bind_some, List.getElem?_eq_getElem hi, Option.any_some, ← keeps_setDump info]
    constructor
    · intro h
      obtain ⟨d', hd', _, hkeeps⟩ := h i docs[i] (List.getElem?_eq_getElem hi)
      rw [List.getElem?_modify_eq, List.getElem?_eq_getElem hi] at hd'
      obtain rfl := Option.some.inj hd'
      exact hkeeps
    · intro hkeeps j d hd
      rw [List.getElem?_modify, hd]
      by_cases hij : i = j
      · subst hij
        obtain rfl : docs[i] = d := Option.some.inj ((List.getElem?_eq_getElem hi).symm.trans hd)
        exact ⟨setDump place info docs[i], by simp, rfl, hkeeps⟩
      · exact ⟨d, by simp [hij], rfl, .refl d⟩

theorem step_nondestructive_iff (docs : List PlaceDocument) (e : Event) :
    NonDestructive ⟨docs, e, step docs e⟩ ↔ remembers docs e = true := by
  cases e with
  | upsert newId place info =>
    simp only [NonDestructive, remembers, step, upsertPlace, Bool.or_eq_true, Bool.not_eq_true']
    cases hindexed : indexed (upserted docs newId place info) with
    | true => simpa using upserted_keeps_iff newId
    | false => simpa using fun i d hd ↦ ⟨d, hd, rfl, Keeps.refl d⟩
  | enrich id read api now => exact iff_of_true trivial rfl
  | patch id p => exact iff_of_true trivial rfl
  | insert newId place => exact iff_of_true trivial rfl

theorem imports_remember_iff (docs : List PlaceDocument) (events : List Event) :
    (∀ t ∈ trace step docs events, NonDestructive t) ↔
      ∀ t ∈ trace step docs events, remembers t.before t.event = true := by
  have hsame : ∀ t ∈ trace step docs events, (NonDestructive t ↔ remembers t.before t.event = true) := by
    rintro ⟨before, event, after⟩ ht
    obtain rfl : after = step before event := trace_after step docs events _ ht
    exact step_nondestructive_iff before event
  exact forall₂_congr hsame

section Again

variable {i : ℕ}

theorem upsert_getElem? (newId : ObjectId) (place : ScrapedPlace) (info : ImportInfo) (hd : docs[i]? = some d) :
    (step docs (.upsert newId place info))[i]? =
      some (((written i ⟨docs, .upsert newId place info, step docs (.upsert newId place info)⟩).map
        fun p ↦ setDump p info d).getD d) := by
  simp only [step, upsertPlace, written]
  by_cases hindexed : indexed (upserted docs newId place info) = true
  · rw [if_pos hindexed]
    simp only [hindexed, and_true]
    unfold upserted
    cases hfind : docs.findIdx? (matchesPlace place) with
    | none =>
      have hlt : i < docs.length := (List.getElem?_eq_some_iff.mp hd).1
      simp [List.getElem?_append_left hlt, hd]
    | some j =>
      by_cases hij : j = i
      · subst hij
        simp [hd]
      · simp [hij, hd]
  · simp [hindexed, hd]

theorem lastWritten_cons (t : Transition (List PlaceDocument) Event)
    (ts : List (Transition (List PlaceDocument) Event)) :
    lastWritten i (t :: ts) = (lastWritten i ts).or (written i t) := by
  unfold lastWritten
  rw [List.filterMap_cons]
  cases written i t with
  | none => exact (Option.or_none).symm
  | some place => simp [List.getLast?_cons]

/-- An import leaves a document with its details, and with the whereabouts written to it
last, or its own. -/
theorem upserts_getElem? (ops : List (ObjectId × ScrapedPlace)) (info : ImportInfo) (hd : docs[i]? = some d) :
    ∃ d', (run step docs (ops.map fun op ↦ .upsert op.1 op.2 info))[i]? = some d' ∧ d'.id = d.id ∧
      SameDetails d d' ∧
      knownWhereabouts d' = ((lastWritten i (trace step docs (ops.map fun op ↦ .upsert op.1 op.2 info))).map
        scrapedWhereabouts).getD (knownWhereabouts d) := by
  induction ops generalizing docs d with
  | nil => exact ⟨d, hd, rfl, ⟨rfl, rfl, rfl, rfl, rfl, rfl, rfl⟩, rfl⟩
  | cons op ops ih =>
    have hstep := upsert_getElem? op.1 op.2 info hd
    obtain ⟨d', hd', hid, hdetails, hwhere⟩ := ih hstep
    simp only [List.map_cons, trace, lastWritten_cons]
    refine ⟨d', hd', ?_⟩
    cases hfirst : written i ⟨docs, .upsert op.1 op.2 info, step docs (.upsert op.1 op.2 info)⟩ with
    | none =>
      rw [hfirst] at hid hdetails hwhere
      exact ⟨hid, hdetails, by rw [Option.or_none]; exact hwhere⟩
    | some place =>
      rw [hfirst] at hid hdetails hwhere
      refine ⟨hid, ⟨hdetails.1, hdetails.2, hdetails.3, hdetails.4, hdetails.5, hdetails.6, hdetails.7⟩, ?_⟩
      rw [hwhere]
      generalize lastWritten i (trace step (step docs (.upsert op.1 op.2 info)) _) = last
      cases last <;> rfl

theorem leavesData_iff {places : List ScrapedPlace} (docs : List PlaceDocument) (again : ListImport places) :
    LeavesData docs again ↔ FoundAsScraped docs again := by
  refine forall₃_congr fun i d hd ↦ ?_
  obtain ⟨d', hd', hid, hdetails, hwhere⟩ := upserts_getElem? again.operations again.info hd
  have hrun : (run step docs again.events)[i]? = some d' := hd'
  constructor
  · intro ⟨d'', hd'', _, hsame⟩ place hplace
    obtain rfl : d' = d'' := Option.some.inj (hrun.symm.trans hd'')
    have hlast : lastWritten i (trace step docs (again.operations.map fun op ↦ .upsert op.1 op.2 again.info)) =
        some place := hplace
    rw [hlast] at hwhere
    exact hwhere.symm.trans hsame.whereabouts
  · intro hagree
    refine ⟨d', hrun, hid, hdetails, ?_⟩
    rw [hwhere]
    cases hlast : lastWritten i (trace step docs (again.operations.map fun op ↦ .upsert op.1 op.2 again.info)) with
    | none => rfl
    | some place => exact hagree place hlast

end Again

/-- The imports of a run keep what is known exactly if each imported place knows as
much as the document it matches. A list that is imported, worked on and imported again
leaves every document with its data exactly if that data is what it writes. -/
theorem imports_keep_iff (docs : List PlaceDocument) :
    (∀ events : List Event, (∀ t ∈ trace step docs events, NonDestructive t) ↔
      ∀ t ∈ trace step docs events, remembers t.before t.event = true) ∧
    ∀ (places : List ScrapedPlace) (first again : ListImport places) (between : List Event),
      LeavesData (run step docs (first.events ++ between)) again ↔
        FoundAsScraped (run step docs (first.events ++ between)) again :=
  ⟨imports_remember_iff docs, fun _ first again between ↦
    leavesData_iff (run step docs (first.events ++ between)) again⟩

section Reimport

def louvre : ScrapedPlace where
  name := some "Louvre"
  mapsUrl := some "https://www.google.com/maps?cid=42"
  lat := some 48
  lng := some 2
  gmapsPlaceId := some "ChIJ"
  gmapsCid := some "42"

def louvreId : ObjectId := ⟨"0123456789abcdef01234567", by decide⟩

def scrapeDay : DateTime := ⟨⟨2031, 7, 9, by decide, by decide, by decide⟩, midnight⟩

def parisList : ImportInfo := ⟨"https://maps.app.goo.gl/paris", some "Paris", scrapeDay⟩

def found : PlaceDetails := ⟨some "Rue de Rivoli", none, none, none, "details"⟩

def located : PlaceDetails := ⟨none, none, some 49, some 3, "details"⟩

def enrichment (details : PlaceDetails) : Event :=
  .enrich louvreId (setDump louvre parisList { id := louvreId })
    ⟨fun _ ↦ (some details, some "OK", none), fun _ _ _ ↦ (none, none, none)⟩ scrapeDay

def parisImport : ListImport [louvre] := ⟨[(louvreId, louvre)], .refl _, parisList⟩

def reimport : List Event := parisImport.events ++ enrichment found :: parisImport.events

/-- The second import forgets the address, and moves a place back to where it was scraped. -/
theorem reimport_forgets_address : ¬(∀ t ∈ trace step [] reimport, NonDestructive t) ∧
    ¬LeavesData (run step [] (parisImport.events ++ [enrichment located])) parisImport := by
  constructor
  · intro h
    have hlast := h ⟨run step [] (reimport.take 2), .upsert louvreId louvre parisList, run step [] reimport⟩
      (by simp [reimport, ListImport.events, parisImport, trace, run])
    obtain ⟨d', hd', -, hkeeps⟩ := hlast 0 _ rfl
    have hnull : ((run step [] reimport)[0]?).map PlaceDocument.address = some none := by decide
    rw [hd'] at hnull
    exact hkeeps.address (by decide) (Option.some.inj hnull)
  · intro h
    obtain ⟨d', hd', -, hsame⟩ := h 0 _ rfl
    have hlat : ((run step (run step [] (parisImport.events ++ [enrichment located])) parisImport.events)[0]?).map
        PlaceDocument.lat = some (some 48) := by decide +kernel
    rw [hd'] at hlat
    have hkept := (Option.some.inj hlat).symm.trans (congrArg Whereabouts.lat hsame.whereabouts)
    exact absurd hkept (by decide +kernel)

end Reimport

end TravelPlanner.PlaceImports
