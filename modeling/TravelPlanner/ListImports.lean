import TravelPlanner.EventStream
import TravelPlanner.FirstMatch
import TravelPlanner.PlaceScraping

namespace TravelPlanner.ListImports

open Clock Requests Windows PlaceStore PlaceScraping Runs FirstMatch JsonText

abbrev Operation := ObjectId × ScrapedPlace

section Imports

/-- The index refuses none of the operations of a bulk. -/
def accepted (info : ImportInfo) : List PlaceDocument → List Operation → Bool
  | _, [] => true
  | docs, op :: ops =>
    indexed (upserted docs op.1 op.2 info) && accepted info (upsertPlace docs op.1 op.2 info) ops

def identity (place : ScrapedPlace) : Option String × Option String × Option String :=
  (place.name, place.gmapsPlaceId, place.gmapsCid)

def documentIdentity (d : PlaceDocument) : Option String × Option String × Option String :=
  (d.name, d.gmapsPlaceId, d.gmapsCid)

def rescraped (info : ImportInfo) (scrapedAt : DateTime) : ImportInfo := { info with scrapedAt := scrapedAt }

/-- A bulk loses no place: every place has one document, and importing the list again
only moves the time of the scrape. -/
structure LosesNothing (places : List ScrapedPlace) (info : ImportInfo) (ops : List Operation) : Prop where
  accepted : accepted info [] ops = true
  documents : ((upsertPlaces [] ops info).map documentIdentity).Perm (places.map identity)
  again : ∀ (again : List Operation) (scrapedAt : DateTime), (again.map Prod.snd).Perm places →
    ListImports.accepted (rescraped info scrapedAt) (upsertPlaces [] ops info) again = true ∧
      upsertPlaces (upsertPlaces [] ops info) again (rescraped info scrapedAt) =
        (upsertPlaces [] ops info).map fun d ↦ { d with scrapedAt := some scrapedAt }

def Fresh (ids : List ObjectId) : Prop := ids.Nodup ∨ ∀ other : List ObjectId, other.length = ids.length → ¬other.Nodup

/-- Whatever the order in which the bulk is carried out. -/
def Lossless (places : List ScrapedPlace) : Prop :=
  ∀ (info : ImportInfo) (ops : List Operation), (ops.map Prod.snd).Perm places → Fresh (ops.map Prod.fst) →
    LosesNothing places info ops

structure Distinguishable (places : List ScrapedPlace) : Prop where
  links : (places.map ScrapedPlace.mapsUrl).Nodup
  linkless : ∀ p ∈ places, p.mapsUrl = none → ∀ q ∈ places, q.name = p.name → q.address = p.address → q = p

end Imports

section Documents

variable {places : List ScrapedPlace} {info : ImportInfo} {ops : List Operation} {f : Operation → ImportInfo}
  {p : ScrapedPlace} {op : Operation} {docs : List PlaceDocument}

def newDocument (info : ImportInfo) (op : Operation) : PlaceDocument := setDump op.2 info { id := op.1 }

theorem Distinguishable.perm {places' : List ScrapedPlace} (h : Distinguishable places) (hperm : places.Perm places') :
    Distinguishable places' where
  links := (hperm.map _).nodup_iff.mp h.links
  linkless p hp hnone q hq := h.linkless p (hperm.mem_iff.mpr hp) hnone q (hperm.mem_iff.mpr hq)

theorem Distinguishable.sublist {places' : List ScrapedPlace} (h : Distinguishable places)
    (hsub : places'.Sublist places) : Distinguishable places' where
  links := h.links.sublist (hsub.map _)
  linkless p hp hnone q hq := h.linkless p (hsub.subset hp) hnone q (hsub.subset hq)

theorem matches_newDocument (h : Distinguishable places) (hlink : p.mapsUrl ≠ some "") (hp : p ∈ places)
    (hop : op.2 ∈ places) : matchesPlace p (newDocument info op) = true ↔ op.2 = p := by
  rw [matchesPlace]
  split_ifs with hurl
  · constructor
    · intro hsame
      exact List.inj_on_of_nodup_map h.links hop hp (of_decide_eq_true hsame)
    · rintro rfl
      exact decide_eq_true rfl
  · have hnone : p.mapsUrl = none := by
      by_contra hne
      exact hurl ⟨hne, hlink⟩
    rw [Bool.and_eq_true, decide_eq_true_eq, decide_eq_true_eq]
    constructor
    · rintro ⟨hname, haddress⟩
      exact h.linkless p hp hnone op.2 hop hname haddress
    · rintro rfl
      exact ⟨rfl, rfl⟩

theorem indexed_newDocuments (h : ((ops.map Prod.snd).map ScrapedPlace.mapsUrl).Nodup) :
    indexed (ops.map fun op ↦ newDocument (f op) op) = true := by
  have hurls : (ops.map fun op ↦ newDocument (f op) op).filterMap PlaceDocument.mapsUrl =
      (ops.map Prod.snd).map ScrapedPlace.mapsUrl := by
    rw [List.filterMap_map, List.map_map, ← List.filterMap_eq_map]
    rfl
  rw [indexed, hurls]
  exact decide_eq_true h

theorem upserted_known (info : ImportInfo) (h : Distinguishable (ops.map Prod.snd))
    (hlinks : ∀ q ∈ ops.map Prod.snd, q.mapsUrl ≠ some "")
    (hp : p ∈ ops.map Prod.snd) (newId : ObjectId) :
    upserted (ops.map fun op ↦ newDocument (f op) op) newId p info =
      ops.map fun op ↦ newDocument (if op.2 = p then info else f op) op := by
  have hmatch : ∀ op ∈ ops, (matchesPlace p (newDocument (f op) op) = true ↔ op.2 = p) :=
    fun op hop ↦ matches_newDocument h (hlinks p hp) hp (List.mem_map_of_mem hop)
  have hdistinct : ops.Pairwise fun a b ↦ a.2 ≠ b.2 := List.pairwise_map.mp h.links.of_map
  have hsingle : (ops.map fun op ↦ newDocument (f op) op).Pairwise
      fun d d' ↦ matchesPlace p d = true → matchesPlace p d' = false := by
    refine List.pairwise_map.mpr (hdistinct.imp_of_mem fun {a b} ha hb hne hfirst ↦ ?_)
    rw [Bool.eq_false_iff, Ne, hmatch b hb]
    exact fun hsame ↦ hne (((hmatch a ha).mp hfirst).trans hsame.symm)
  rw [upserted]
  cases hfind : (ops.map fun op ↦ newDocument (f op) op).findIdx? (matchesPlace p) with
  | none =>
    obtain ⟨op, hop, hsame⟩ := List.mem_map.mp hp
    have hfalse := List.findIdx?_eq_none_iff.mp hfind _ (List.mem_map_of_mem hop)
    rw [(hmatch op hop).mpr hsame] at hfalse
    cases hfalse
  | some i =>
    simp only
    rw [modify_findIdx? hfind, updateFirst_eq_map hsingle, List.map_map]
    refine List.map_congr_left fun op hop ↦ ?_
    simp only [Function.comp_apply]
    by_cases hsame : op.2 = p
    · rw [if_pos ((hmatch op hop).mpr hsame), if_pos hsame, ← hsame]
      rfl
    · rw [if_neg (mt (hmatch op hop).mp hsame), if_neg hsame]

theorem upserted_new (info : ImportInfo) (h : Distinguishable ((ops ++ [op]).map Prod.snd))
    (hlinks : ∀ q ∈ (ops ++ [op]).map Prod.snd, q.mapsUrl ≠ some "") :
    upserted (ops.map (newDocument info)) op.1 op.2 info = (ops ++ [op]).map (newDocument info) := by
  have hlast : op.2 ∈ (ops ++ [op]).map Prod.snd := by simp
  have hdistinct := h.links.of_map
  rw [List.map_append, List.map_singleton] at hdistinct
  have hnone : (ops.map (newDocument info)).findIdx? (matchesPlace op.2) = none := by
    rw [List.findIdx?_eq_none_iff]
    intro d hd
    obtain ⟨first, hfirst, rfl⟩ := List.mem_map.mp hd
    have hmem : first.2 ∈ (ops ++ [op]).map Prod.snd := List.mem_map_of_mem (List.mem_append_left _ hfirst)
    rw [Bool.eq_false_iff, Ne, matches_newDocument h (hlinks op.2 hlast) hlast hmem]
    intro hsame
    exact (List.nodup_append.mp hdistinct).2.2 first.2 (List.mem_map_of_mem hfirst) op.2 (by simp) hsame
  rw [upserted, hnone, List.map_append]
  rfl

end Documents

section Runs

variable {places : List ScrapedPlace} {info : ImportInfo} {ops : List Operation}

theorem upsertPlaces_cons (docs : List PlaceDocument) (op : Operation) (ops : List Operation) (info : ImportInfo) :
    upsertPlaces docs (op :: ops) info = upsertPlaces (upsertPlace docs op.1 op.2 info) ops info := rfl

/-- Places that can be told apart all become documents of their own. -/
theorem import_new (info : ImportInfo) (done ops : List Operation) (h : Distinguishable ((done ++ ops).map Prod.snd))
    (hlinks : ∀ q ∈ (done ++ ops).map Prod.snd, q.mapsUrl ≠ some "") :
    accepted info (done.map (newDocument info)) ops = true ∧
      upsertPlaces (done.map (newDocument info)) ops info = (done ++ ops).map (newDocument info) := by
  induction ops generalizing done with
  | nil => exact ⟨rfl, by rw [List.append_nil]; rfl⟩
  | cons op ops ih =>
    have hsplit : done ++ op :: ops = done ++ [op] ++ ops := by simp
    rw [hsplit] at h hlinks ⊢
    have hinit : ((done ++ [op]).map Prod.snd).Sublist ((done ++ [op] ++ ops).map Prod.snd) :=
      (List.sublist_append_left _ _).map _
    have hnew := upserted_new info (h.sublist hinit) fun q hq ↦ hlinks q (hinit.subset hq)
    have hindexed : indexed ((done ++ [op]).map (newDocument info)) = true :=
      indexed_newDocuments (f := fun _ ↦ info) (h.sublist hinit).links
    obtain ⟨haccepted, hdocs⟩ := ih (done ++ [op]) h hlinks
    rw [accepted, upsertPlaces_cons, upsertPlace, hnew, if_pos hindexed, hindexed, Bool.true_and]
    exact ⟨haccepted, hdocs⟩

/-- Importing places that have documents only writes those documents again. -/
theorem import_again (info : ImportInfo) (h : Distinguishable (ops.map Prod.snd))
    (hlinks : ∀ q ∈ ops.map Prod.snd, q.mapsUrl ≠ some "")
    (again : List Operation) (hagain : ∀ op ∈ again, op.2 ∈ ops.map Prod.snd) (f : Operation → ImportInfo) :
    accepted info (ops.map fun op ↦ newDocument (f op) op) again = true ∧
      upsertPlaces (ops.map fun op ↦ newDocument (f op) op) again info =
        ops.map fun op ↦ newDocument (if op.2 ∈ again.map Prod.snd then info else f op) op := by
  induction again generalizing f with
  | nil => exact ⟨rfl, by simp [upsertPlaces, run]⟩
  | cons op again ih =>
    obtain ⟨hop, hrest⟩ := List.forall_mem_cons.mp hagain
    have hknown := upserted_known (f := f) info h hlinks hop op.1
    have hindexed : indexed (ops.map fun q ↦ newDocument (if q.2 = op.2 then info else f q) q) = true :=
      indexed_newDocuments h.links
    obtain ⟨haccepted, hdocs⟩ := ih hrest fun q ↦ if q.2 = op.2 then info else f q
    rw [accepted, upsertPlaces_cons, upsertPlace, hknown, if_pos hindexed, hindexed, Bool.true_and]
    refine ⟨haccepted, hdocs.trans (List.map_congr_left fun q _ ↦ ?_)⟩
    by_cases hlater : q.2 ∈ again.map Prod.snd
    · have hmem : q.2 ∈ (op :: again).map Prod.snd := List.mem_cons_of_mem _ hlater
      rw [if_pos hlater, if_pos hmem]
    · by_cases hsame : q.2 = op.2
      · have hmem : q.2 ∈ (op :: again).map Prod.snd := by simp [hsame]
        rw [if_neg hlater, if_pos hsame, if_pos hmem]
      · have hnot : q.2 ∉ (op :: again).map Prod.snd := by
          rw [List.map_cons, List.mem_cons, not_or]
          exact ⟨hsame, hlater⟩
        rw [if_neg hlater, if_neg hsame, if_neg hnot]

theorem losesNothing (h : Distinguishable places) (hlinks : ∀ q ∈ places, q.mapsUrl ≠ some "")
    (hops : (ops.map Prod.snd).Perm places) : LosesNothing places info ops := by
  have hdistinguishable : Distinguishable (ops.map Prod.snd) := h.perm hops.symm
  have hnamed : ∀ q ∈ ops.map Prod.snd, q.mapsUrl ≠ some "" := fun q hq ↦ hlinks q (hops.mem_iff.mp hq)
  obtain ⟨haccepted, hdocs⟩ := import_new info [] ops hdistinguishable hnamed
  have hdocs : upsertPlaces [] ops info = ops.map (newDocument info) := hdocs
  refine ⟨haccepted, ?_, ?_⟩
  · have hids : (ops.map (newDocument info)).map documentIdentity = (ops.map Prod.snd).map identity := by
      rw [List.map_map, List.map_map]
      rfl
    rw [hdocs, hids]
    exact hops.map identity
  · intro again scrapedAt hagain
    have hknown : ∀ op ∈ again, op.2 ∈ ops.map Prod.snd :=
      fun op hop ↦ hops.mem_iff.mpr (hagain.mem_iff.mp (List.mem_map_of_mem hop))
    obtain ⟨haccepted', hdocs'⟩ := import_again (rescraped info scrapedAt) hdistinguishable hnamed again hknown
      fun _ ↦ info
    rw [hdocs]
    refine ⟨haccepted', hdocs'.trans ?_⟩
    rw [List.map_map]
    refine List.map_congr_left fun op hop ↦ ?_
    rw [if_pos (hagain.mem_iff.mpr (hops.mem_iff.mp (List.mem_map_of_mem hop)))]
    rfl

end Runs

section Losses

variable {places rest : List ScrapedPlace} {p q : ScrapedPlace} {info : ImportInfo} {docs : List PlaceDocument}

theorem length_upsertPlace (docs : List PlaceDocument) (newId : ObjectId) (p : ScrapedPlace) (info : ImportInfo) :
    (upsertPlace docs newId p info).length ≤ docs.length + 1 := by
  rw [upsertPlace, upserted]
  split_ifs
  · split <;> simp
  · exact Nat.le_succ _

theorem length_upsertPlaces (docs : List PlaceDocument) (ops : List Operation) (info : ImportInfo) :
    (upsertPlaces docs ops info).length ≤ docs.length + ops.length := by
  induction ops generalizing docs with
  | nil => exact le_rfl
  | cons op ops ih =>
    rw [upsertPlaces_cons, List.length_cons]
    have hrest := ih (upsertPlace docs op.1 op.2 info)
    have hfirst := length_upsertPlace docs op.1 op.2 info
    omega

def Clash (p q : ScrapedPlace) : Prop :=
  p.mapsUrl = q.mapsUrl ∨ q.mapsUrl = none ∧ p.name = q.name ∧ p.address = q.address

theorem clash_one_document (info : ImportInfo) (h : Clash p q) (newId secondId : ObjectId) :
    (upsertPlaces [] [(newId, p), (secondId, q)] info).length ≤ 1 := by
  have hfirst : upsertPlace [] newId p info = [newDocument info (newId, p)] := by
    rw [upsertPlace, if_pos]
    · rfl
    · simp [upserted, indexed, setDump]
  rw [upsertPlaces_cons, upsertPlaces_cons, hfirst]
  change (upsertPlace [newDocument info (newId, p)] secondId q info).length ≤ 1
  by_cases hmatch : matchesPlace q (newDocument info (newId, p)) = true
  · have hlength : (upserted [newDocument info (newId, p)] secondId q info).length = 1 := by
      simp [upserted, List.findIdx?_cons, hmatch]
    rw [upsertPlace]
    split_ifs
    · exact hlength.le
    · exact le_rfl
  · have hnew : upserted [newDocument info (newId, p)] secondId q info =
        [newDocument info (newId, p), newDocument info (secondId, q)] := by
      have hfind : [newDocument info (newId, p)].findIdx? (matchesPlace q) = none := by
        simp [List.findIdx?_cons, hmatch]
      rw [upserted, hfind]
      rfl
    have hlink : p.mapsUrl = q.mapsUrl := by
      rcases h with hlink | ⟨hnone, hname, haddress⟩
      · exact hlink
      · refine absurd ?_ hmatch
        simp [matchesPlace, hnone, newDocument, setDump, hname, haddress]
    have hrefused : indexed [newDocument info (newId, p), newDocument info (secondId, q)] = false := by
      simp [indexed, newDocument, setDump, hlink]
    rw [upsertPlace, hnew, hrefused]
    exact le_rfl

def someId : ObjectId := ⟨"65a0000000000000000000f1", by decide⟩

def someInfo : ImportInfo :=
  ⟨"https://maps.app.goo.gl/list", none, ⟨⟨2052, 10, 11, by decide, by decide, by decide⟩, midnight⟩⟩

theorem exists_fresh (n : ℕ) : ∃ ids : List ObjectId, ids.length = n ∧ Fresh ids := by
  by_cases henough : ∃ ids : List ObjectId, ids.length = n ∧ ids.Nodup
  · obtain ⟨ids, hlength, hnodup⟩ := henough
    exact ⟨ids, hlength, .inl hnodup⟩
  · refine ⟨List.replicate n someId, List.length_replicate, .inr ?_⟩
    intro other hother hnodup
    exact henough ⟨other, hother.trans List.length_replicate, hnodup⟩

/-- A bulk that starts with two places that clash ends with too few documents. -/
theorem not_lossless_of_clash (hperm : places.Perm (p :: q :: rest)) (h : Clash p q) : ¬Lossless places := by
  intro hlossless
  obtain ⟨ids, hlength, hfresh⟩ := exists_fresh (p :: q :: rest).length
  obtain ⟨newId, secondId, ids, rfl⟩ : ∃ newId secondId more, ids = newId :: secondId :: more := by
    rcases ids with - | ⟨newId, - | ⟨secondId, more⟩⟩
    · simp at hlength
    · simp at hlength
    · exact ⟨newId, secondId, more, rfl⟩
  have hids : ids.length = rest.length := by simpa using hlength
  have hops : (((newId :: secondId :: ids).zip (p :: q :: rest)).map Prod.snd).Perm places := by
    rw [List.map_snd_zip hlength.ge]
    exact hperm.symm
  have hnew : Fresh (((newId :: secondId :: ids).zip (p :: q :: rest)).map Prod.fst) := by
    rwa [List.map_fst_zip hlength.le]
  have hdocs := (hlossless someInfo _ hops hnew).documents.length_eq
  have htwo := clash_one_document someInfo h newId secondId
  have hrest := length_upsertPlaces (upsertPlaces [] [(newId, p), (secondId, q)] someInfo) (ids.zip rest) someInfo
  rw [List.length_map, List.length_map, hperm.length_eq] at hdocs
  rw [List.length_zip, hids, Nat.min_self] at hrest
  have hsplit : upsertPlaces [] ((newId :: secondId :: ids).zip (p :: q :: rest)) someInfo =
      upsertPlaces (upsertPlaces [] [(newId, p), (secondId, q)] someInfo) (ids.zip rest) someInfo := rfl
  rw [hsplit] at hdocs
  simp only [List.length_cons] at hdocs
  omega

theorem exists_pair_of_not_nodup {α β : Type} {g : α → β} {l : List α} (h : ¬(l.map g).Nodup) :
    ∃ a b rest, l.Perm (a :: b :: rest) ∧ g a = g b := by
  induction l with
  | nil => exact absurd List.nodup_nil h
  | cons x l ih =>
    by_cases hx : g x ∈ l.map g
    · obtain ⟨y, hy, hsame⟩ := List.mem_map.mp hx
      obtain ⟨s, t, rfl⟩ := List.append_of_mem hy
      exact ⟨x, y, s ++ t, List.perm_middle.cons x, hsame.symm⟩
    · have hrest : ¬(l.map g).Nodup := fun hnodup ↦ h (List.nodup_cons.mpr ⟨hx, hnodup⟩)
      obtain ⟨a, b, rest, hperm, hsame⟩ := ih hrest
      refine ⟨a, b, x :: rest, (hperm.cons x).trans ?_, hsame⟩
      exact (List.Perm.swap a x _).trans ((List.Perm.swap b x rest).cons a)

theorem distinguishable_of_lossless (h : Lossless places) : Distinguishable places where
  links := by
    by_contra hdup
    obtain ⟨p, q, rest, hperm, hsame⟩ := exists_pair_of_not_nodup hdup
    exact not_lossless_of_clash hperm (.inl hsame) h
  linkless := by
    intro p hp hnone q hq hname haddress
    by_contra hne
    have hrest : p ∈ places.erase q := (List.mem_erase_of_ne (Ne.symm hne)).mpr hp
    have hperm : places.Perm (q :: p :: (places.erase q).erase p) :=
      (List.perm_cons_erase hq).trans ((List.perm_cons_erase hrest).cons q)
    exact not_lossless_of_clash hperm (.inr ⟨hnone, hname, haddress⟩) h

/-- An import loses no place, in whatever order it is carried out, exactly when the places
kept can be told apart by what the store looks at. -/
theorem import_lossless_iff {F : Type} (r : Rendering F) (entitylist : Option (Json F)) (cards : List Card) :
    Lossless (scrapePublicList r entitylist cards) ↔ Distinguishable (scrapePublicList r entitylist cards) :=
  ⟨distinguishable_of_lossless, fun h _ _ hops _ ↦ losesNothing h (fun _ hq ↦ scraped_link hq) hops⟩

end Losses

section Lists

variable {F : Type} {r : Rendering F} {data : Json F}

/-- An entity list whose places all have a cid is imported without a loss. -/
theorem entitylist_lossless (hcid : ∀ p ∈ walk r data, orNull p.gmapsCid ≠ none) :
    Lossless (dedupePlaces (walk r data)) := by
  have hsub := dedupeFrom_sublist [] (walk r data)
  have hurl : ∀ p ∈ dedupePlaces (walk r data), ∃ url, p.mapsUrl = some url ∧ url ≠ "" := by
    intro p hp
    have hnode : ∀ node place, placeOf r node = some place → ∃ url, place.mapsUrl = some url ∧ url ≠ "" := by
      intro node place hplace
      obtain ⟨lat, lng, hlink⟩ := placeOf_spec hplace
      exact ⟨_, hlink, entityUrl_ne_empty _ lat lng⟩
    exact forall_walk hnode data p (hsub.subset hp)
  have hdistinct : (dedupePlaces (walk r data)).Nodup := (dedupeFrom_keys [] _).of_map
  have hdistinguishable : Distinguishable (dedupePlaces (walk r data)) := by
    constructor
    · refine List.Nodup.map_on (fun p hp q hq hlink ↦ ?_) hdistinct
      by_contra hne
      exact hcid p (hsub.subset hp) (shared_link hp hq hne hlink)
    · intro p hp hnone
      obtain ⟨url, hlink, -⟩ := hurl p hp
      rw [hlink] at hnone
      cases hnone
  intro info ops hops _
  refine losesNothing hdistinguishable (fun p hp hempty ↦ ?_) hops
  obtain ⟨url, hlink, hne⟩ := hurl p hp
  exact hne (Option.some.inj (hlink.symm.trans hempty))

def wholeNumbers : Rendering Empty where
  text v := String.ofList (write EventStream.noFloats ⟨false, true⟩ v)
  coord v :=
    match v with
    | .int n => some n
    | _ => none
  copy v := String.ofList (write EventStream.noFloats ⟨false, true⟩ v)

def bench : Card := { name := some "Bench" }

def fountain : Card := { name := some "Fountain" }

/-- The index takes a missing link for a value, and refuses the second place. -/
theorem linkless_lost : ¬∀ (F : Type) (r : Rendering F) (entitylist : Option (Json F)) (cards : List Card),
    Lossless (scrapePublicList r entitylist cards) := by
  intro h
  have hkept : scrapePublicList wholeNumbers none [bench, fountain] =
      [collectItem wholeNumbers bench, collectItem wholeNumbers fountain] := rfl
  have hclash : Clash (collectItem wholeNumbers bench) (collectItem wholeNumbers fountain) := .inl rfl
  have hlossless := h Empty wholeNumbers none [bench, fountain]
  rw [hkept] at hlossless
  exact not_lossless_of_clash (List.Perm.refl _) hclash hlossless

def spot (placeId : String) : Json Empty :=
  .arr [.null, .arr [.null, .null, .null, .null, .null, .arr [.null, .null, .int 48, .int 2], .arr [.str placeId]],
    .str placeId]

theorem spots_lost : ¬Lossless (scrapePublicList wholeNumbers (some (.arr [spot "ChIa", spot "ChIb"])) []) := by
  obtain ⟨p, q, hkept, hlink⟩ :
      ∃ p q, scrapePublicList wholeNumbers (some (.arr [spot "ChIa", spot "ChIb"])) [] = [p, q] ∧
        p.mapsUrl = q.mapsUrl := ⟨_, _, rfl, rfl⟩
  rw [hkept]
  exact not_lossless_of_clash (List.Perm.refl _) (.inl hlink)

end Lists

end TravelPlanner.ListImports
