import TravelPlanner.JsonText
import TravelPlanner.PlaceStore

namespace TravelPlanner.PlaceScraping

open Requests JsonStrings JsonText PlaceStore

variable {F : Type}

/-- What Python makes of JSON values: the text of a number, the coordinate it is stored
as, if it is one, and the stored copy of a value. -/
structure Rendering (F : Type) where
  text : Json F → String
  coord : Json F → Option Coord
  copy : Json F → String

section Entities

variable (r : Rendering F)

def isNumber : Json F → Bool
  | .int _ | .float _ | .bool _ => true
  | _ => false

def asText : Json F → Option String
  | .str s => some s
  | _ => none

def textAt (ids : Option (Json F)) (i : ℕ) : Option String :=
  match ids with
  | some (.arr items) => items[i]?.bind asText
  | _ => none

def entityUrl (cid : Option String) (lat lng : Json F) : String :=
  match cid.filter (· ≠ "") with
  | some cid => "https://www.google.com/maps?cid=" ++ cid
  | none => "https://www.google.com/maps/search/?api=1&query=" ++ r.text lat ++ "," ++ r.text lng

def entityPlace (node : List (Json F)) (name lat lng : Json F) (ids : Option (Json F)) : Option ScrapedPlace := do
  let latitude ← r.coord lat
  let longitude ← r.coord lng
  return {
    name := asText name
    mapsUrl := some (entityUrl r (textAt ids 1) lat lng)
    lat := some latitude
    lng := some longitude
    gmapsPlaceId := textAt ids 0
    gmapsCid := textAt ids 1
    raw := r.copy (.obj [("node", .arr node)]) }

def placeOf (node : List (Json F)) : Option ScrapedPlace :=
  match node with
  | _ :: .arr entry :: name :: _ =>
    match (entry[5]? : Option (Json F)) with
    | some (.arr (_ :: _ :: lat :: lng :: _)) =>
      if isNumber lat && isNumber lng then entityPlace r node name lat lng entry[6]? else none
    | _ => none
  | _ => none

mutual

def walk : Json F → List ScrapedPlace
  | .arr node => (placeOf r node).toList ++ walkItems node
  | _ => []

def walkItems : List (Json F) → List ScrapedPlace
  | [] => []
  | item :: items => walk item ++ walkItems items

end

end Entities

section Coordinates

/-- `-?\d+\.\d+`. -/
def readDecimal (s : Text) : Option (Coord × Text) :=
  let unsigned := if s.head? = some '-' then s.tail else s
  let whole := unsigned.takeWhile Char.isDigit
  let rest := unsigned.dropWhile Char.isDigit
  let fraction := rest.tail.takeWhile Char.isDigit
  if whole = [] ∨ rest.head? ≠ some '.' ∨ fraction = [] then none
  else
    let value : Coord := (Nat.ofDigitChars 10 whole 0 : Coord) +
      (Nat.ofDigitChars 10 fraction 0 : Coord) / 10 ^ fraction.length
    some (if s.head? = some '-' then -value else value, rest.tail.dropWhile Char.isDigit)

def readAfter (lead s : Text) : Option Text := if lead.isPrefixOf s then some (s.drop lead.length) else none

def readPair (lead separator s : Text) : Option (Coord × Coord) := do
  let s ← readAfter lead s
  let (lat, s) ← readDecimal s
  let s ← readAfter separator s
  let (lng, _) ← readDecimal s
  return (lat, lng)

/-- `_COORDS_IN_AT` comes before `_COORDS_IN_BANG`. -/
def extractCoords (url : Option String) : Option Coord × Option Coord :=
  let tails := (url.getD "").toList.tails
  match (tails.findSome? (readPair ['@'] [','])).or
      (tails.findSome? (readPair ['!', '3', 'd'] ['!', '4', 'd'])) with
  | some (lat, lng) => (some lat, some lng)
  | none => (none, none)

end Coordinates

section Cards

/-- A card of the page: its trimmed texts and its link, where it has them. -/
structure Card where
  name : Option String := none
  address : Option String := none
  link : Option String := none

def orNull (text : Option String) : Option String := text.filter (· ≠ "")

def nullable (text : Option String) : Json F := text.elim .null .str

def collectItem (r : Rendering F) (card : Card) : ScrapedPlace :=
  let name := orNull card.name
  let address := orNull card.address
  let mapsUrl := orNull card.link
  { name := name
    address := address
    mapsUrl := mapsUrl
    lat := (extractCoords mapsUrl).1
    lng := (extractCoords mapsUrl).2
    raw := r.copy (.obj [("name", nullable name), ("address", nullable address), ("maps_url", nullable mapsUrl)]) }

end Cards

section Dedupe

def formatted (text : Option String) : String := text.getD "None"

def dedupeKey (place : ScrapedPlace) : String :=
  (((orNull place.gmapsCid).or (orNull place.gmapsPlaceId)).or (orNull place.mapsUrl)).getD
    (formatted place.name ++ "|" ++ formatted place.address)

def dedupeFrom (seen : List String) : List ScrapedPlace → List ScrapedPlace
  | [] => []
  | place :: places =>
    if dedupeKey place ∈ seen then dedupeFrom seen places
    else place :: dedupeFrom (dedupeKey place :: seen) places

def dedupePlaces (rawPlaces : List ScrapedPlace) : List ScrapedPlace := dedupeFrom [] rawPlaces

/-- The entity list where it yields places, else the cards of the page. -/
def scrapePublicList (r : Rendering F) (entitylist : Option (Json F)) (cards : List Card) : List ScrapedPlace :=
  let places := entitylist.elim [] fun data ↦ dedupePlaces (walk r data)
  if places = [] then dedupePlaces (cards.map (collectItem r)) else places

theorem dedupeFrom_sublist (seen : List String) (places : List ScrapedPlace) :
    (dedupeFrom seen places).Sublist places := by
  induction places generalizing seen with
  | nil => exact .slnil
  | cons place places ih =>
    rw [dedupeFrom]
    split_ifs
    · exact (ih seen).cons place
    · exact (ih _).cons_cons place

theorem dedupeKey_not_seen {seen : List String} {places : List ScrapedPlace} {place : ScrapedPlace}
    (h : place ∈ dedupeFrom seen places) : dedupeKey place ∉ seen := by
  induction places generalizing seen with
  | nil => cases h
  | cons first places ih =>
    rw [dedupeFrom] at h
    split_ifs at h with hseen
    · exact ih h
    · rcases List.mem_cons.mp h with rfl | h
      · exact hseen
      · exact fun hmem ↦ ih h (List.mem_cons_of_mem _ hmem)

theorem dedupeFrom_keys (seen : List String) (places : List ScrapedPlace) :
    ((dedupeFrom seen places).map dedupeKey).Nodup := by
  induction places generalizing seen with
  | nil => exact List.nodup_nil
  | cons place places ih =>
    rw [dedupeFrom]
    split_ifs
    · exact ih seen
    · rw [List.map_cons, List.nodup_cons]
      refine ⟨?_, ih _⟩
      intro hmem
      obtain ⟨q, hq, hkey⟩ := List.mem_map.mp hmem
      exact dedupeKey_not_seen hq (hkey ▸ List.mem_cons_self)

end Dedupe

section Links

variable {r : Rendering F} {node : List (Json F)} {place : ScrapedPlace}

theorem placeOf_spec (h : placeOf r node = some place) :
    ∃ lat lng, place.mapsUrl = some (entityUrl r place.gmapsCid lat lng) := by
  unfold placeOf at h
  split at h
  · split at h
    · split_ifs at h
      rename_i lat lng _ _ _
      obtain ⟨latitude, -, h⟩ := Option.bind_eq_some_iff.mp h
      obtain ⟨longitude, -, h⟩ := Option.bind_eq_some_iff.mp h
      obtain rfl := Option.some.inj h
      exact ⟨lat, lng, rfl⟩
    · cases h
  · cases h

theorem walkItems_eq (items : List (Json F)) : walkItems r items = items.flatMap (walk r) := by
  induction items with
  | nil => rfl
  | cons item items ih => rw [walkItems, ih, List.flatMap_cons]

/-- What holds of the place of every node holds of every place of the list. -/
theorem forall_walk {P : ScrapedPlace → Prop} (hnode : ∀ node place, placeOf r node = some place → P place)
    (data : Json F) : ∀ place ∈ walk r data, P place := by
  induction data using Json.ind with
  | arr items ih =>
    intro place hplace
    rw [walk, walkItems_eq] at hplace
    rcases List.mem_append.mp hplace with hplace | hplace
    · exact hnode items place (Option.mem_toList.mp hplace)
    · obtain ⟨item, hitem, hplace⟩ := List.mem_flatMap.mp hplace
      exact ih item hitem place hplace
  | null => simp [walk]
  | bool b => simp [walk]
  | int n => simp [walk]
  | float x => simp [walk]
  | str s => simp [walk]
  | obj fields ih => simp [walk]

theorem entityUrl_ne_empty (cid : Option String) (lat lng : Json F) : entityUrl r cid lat lng ≠ "" := by
  unfold entityUrl
  split <;> simp

theorem scraped_link {entitylist : Option (Json F)} {cards : List Card}
    (h : place ∈ scrapePublicList r entitylist cards) : place.mapsUrl ≠ some "" := by
  have hcards : place ∈ dedupePlaces (cards.map (collectItem r)) → place.mapsUrl ≠ some "" := by
    intro h
    obtain ⟨card, -, rfl⟩ := List.mem_map.mp ((dedupeFrom_sublist [] _).subset h)
    simp [collectItem, orNull, Option.filter_eq_some_iff]
  rw [scrapePublicList] at h
  split_ifs at h
  · exact hcards h
  · cases entitylist with
    | none => cases h
    | some data =>
      have hnode : ∀ node place, placeOf r node = some place → place.mapsUrl ≠ some "" := by
        intro node place hplace
        obtain ⟨lat, lng, hurl⟩ := placeOf_spec hplace
        rw [hurl]
        exact fun hempty ↦ entityUrl_ne_empty _ lat lng (Option.some.inj hempty)
      exact forall_walk hnode data place ((dedupeFrom_sublist [] _).subset h)

/-- The link of a place with a cid is that of no other place of the list. -/
theorem entityUrl_cid {cid : String} {other : Option String} {lat lng lat' lng' : Json F} (hcid : cid ≠ "")
    (h : entityUrl r (some cid) lat lng = entityUrl r other lat' lng') : orNull other = some cid := by
  have hsome : (some cid).filter (· ≠ "") = some cid := by simp [hcid]
  rw [entityUrl, hsome, entityUrl] at h
  rw [orNull]
  cases hother : other.filter (· ≠ "") with
  | none =>
    rw [hother] at h
    have hchars := congrArg String.toList h
    simp at hchars
  | some cid' =>
    rw [hother] at h
    have hchars := congrArg String.toList h
    simp only [String.toList_append, List.append_cancel_left_eq] at hchars
    rw [String.toList_inj.mp hchars]

/-- Entries that are kept and still share a link have no cid. -/
theorem shared_link {data : Json F} {p q : ScrapedPlace} (hp : p ∈ dedupePlaces (walk r data))
    (hq : q ∈ dedupePlaces (walk r data)) (hne : p ≠ q) (hlink : p.mapsUrl = q.mapsUrl) : orNull p.gmapsCid = none := by
  have hurl : ∀ place ∈ dedupePlaces (walk r data),
      ∃ lat lng, place.mapsUrl = some (entityUrl r place.gmapsCid lat lng) :=
    fun place hplace ↦ forall_walk (fun _ _ ↦ placeOf_spec) data place ((dedupeFrom_sublist [] _).subset hplace)
  obtain ⟨lat, lng, hp'⟩ := hurl p hp
  obtain ⟨lat', lng', hq'⟩ := hurl q hq
  rw [hp', hq', Option.some_inj] at hlink
  by_contra hcid
  obtain ⟨cid, hcid⟩ := Option.ne_none_iff_exists'.mp hcid
  obtain ⟨hown, hempty⟩ := Option.filter_eq_some_iff.mp hcid
  rw [hown] at hlink
  have hother := entityUrl_cid (by simpa using hempty) hlink
  refine hne (List.inj_on_of_nodup_map (dedupeFrom_keys [] _) hp hq ?_)
  rw [dedupeKey, dedupeKey, hcid, hother]
  rfl

end Links

end TravelPlanner.PlaceScraping
