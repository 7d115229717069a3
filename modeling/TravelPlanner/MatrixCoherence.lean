import TravelPlanner.MatrixCache

namespace TravelPlanner.MatrixCoherence

open Clock Requests Windows Engine RouteService Tables Runs MatrixCache

def position (q : MatrixQuery) (placeId : PlaceId) : Option (Coord × Coord) :=
  (q.placeCoords.find? fun p ↦ p.1 = placeId).map Prod.snd

def Answers (routes : Routes) (q : MatrixQuery) (e : MatrixEntry) : Prop :=
  ∃ o d, position q e.originId = some o ∧ position q e.destId = some d ∧
    (routes o d q.transportMode).entry e.originId e.destId = some e

def Fetched (routes : Routes) (calls : List Call) (mode : TransportMode) (t : ℤ) (e : MatrixEntry) : Prop :=
  ∃ f ∈ calls, f.fetchedAt = some t ∧ f.query.transportMode = mode ∧ Answers routes f.query e

def Backed (routes : Routes) (calls : List Call) (c : Call) (e : MatrixEntry) : Prop :=
  Answers routes c.query e ∨ ∃ loaded t, c.loadedAt = some loaded ∧
    loaded - ttlForMode c.query.transportMode ≤ t ∧ t ≤ loaded ∧ Fetched routes calls c.query.transportMode t e

structure WellFormed (q : MatrixQuery) : Prop where
  ids : ∀ p ∈ q.placeCoords, p.1.length = 24
  positions : ∀ p ∈ q.placeCoords, ∀ p' ∈ q.placeCoords, p.1 = p'.1 → p = p'
  start : ∀ a ∈ q.startAnchor, a.1 = startAnchorId
  finish : ∀ a ∈ q.endAnchor, a.1 = endAnchorId

/-- Every entry between places is backed, whatever the anchors add. -/
def WellServed (routes : Routes) (calls : List Call) (c : Call) (m : EntryMap) : Prop :=
  c.query.transportMode ≠ .transit → ∀ o ∈ c.placeIds, ∀ d ∈ c.placeIds, ∀ e, m (o, d) = some e →
    e.originId = o ∧ e.destId = d ∧ Backed routes calls c e

def PhaseOk (routes : Routes) (calls : List Call) (now : ℤ) (c : Call) : Prop :=
  match c.phase with
  | .load => c.fetchedAt = none
  | .compute => c.fetchedAt = none
  | .store entries pending stamp => c.fetchedAt = some stamp ∧ stamp ≤ now ∧ pending.Sublist entries ∧
      (c.query.transportMode ≠ .transit → ∀ e ∈ entries, Answers routes c.query e)
  | .startLegs m _ => WellServed routes calls c m
  | .endLegs m _ => WellServed routes calls c m
  | .done (.ok m) => WellServed routes calls c m.matrix.entries
  | .done (.error _) => True

section Entries

theorem updateEntries_spec {entries : List MatrixEntry} {m : EntryMap} {o d : PlaceId} {e : MatrixEntry}
    (h : updateEntries m entries (o, d) = some e) :
    e ∈ entries ∧ e.originId = o ∧ e.destId = d ∨ m (o, d) = some e := by
  induction entries generalizing m with
  | nil => exact .inr h
  | cons a entries ih =>
    rcases ih h with ⟨hmem, hkey⟩ | hm
    · exact .inl ⟨List.mem_cons_of_mem _ hmem, hkey⟩
    · dsimp only at hm
      by_cases hkey : (o, d) = (a.originId, a.destId)
      · rw [hkey, Function.update_self] at hm
        obtain rfl := Option.some.inj hm
        obtain ⟨rfl, rfl⟩ := Prod.mk.inj hkey
        exact .inl ⟨List.mem_cons_self, rfl, rfl⟩
      · rw [Function.update_of_ne hkey] at hm
        exact .inr hm

theorem entry_ids {item : RouteItem} {originId destId : PlaceId} {e : MatrixEntry}
    (h : item.entry originId destId = some e) : e.originId = originId ∧ e.destId = destId := by
  rw [RouteItem.entry] at h
  split_ifs at h
  obtain rfl := Option.some.inj h
  exact ⟨rfl, rfl⟩

theorem computeMatrix_spec {routes : Routes} {answer : Answer} {mode : TransportMode} {origins dests : List Located}
    {entries : List MatrixEntry} (h : computeMatrix routes answer mode origins dests = .ok entries)
    {e : MatrixEntry} (he : e ∈ entries) : ∃ o ∈ origins, ∃ d ∈ dests, e.originId = o.1 ∧ e.destId = d.1 ∧
      (mode ≠ .transit → (routes o.2 d.2 mode).entry o.1 d.1 = some e) := by
  cases answer with
  | failed failure => cases h
  | items transit =>
    obtain rfl := Except.ok.inj h
    obtain ⟨o, ho, he⟩ := List.mem_flatMap.mp he
    obtain ⟨d, hd, he⟩ := List.mem_filterMap.mp he
    split_ifs at he with hsame
    · obtain ⟨horigin, hdest⟩ := entry_ids he
      exact ⟨o, ho, d, hd, horigin, hdest, fun hmode ↦ absurd ‹_› hmode⟩
    · obtain ⟨horigin, hdest⟩ := entry_ids he
      exact ⟨o, ho, d, hd, horigin, hdest, fun _ ↦ he⟩

theorem position_of_mem {q : MatrixQuery} (hq : WellFormed q) {p : Located} (hp : p ∈ q.placeCoords) :
    position q p.1 = some p.2 := by
  obtain ⟨p', hp'⟩ := Option.isSome_iff_exists.mp
    (List.find?_isSome (p := fun x : Located ↦ decide (x.1 = p.1)) |>.mpr ⟨p, hp, by simp⟩)
  have hkey : p'.1 = p.1 := by simpa using List.find?_some hp'
  rw [position, hp', hq.positions p' (List.mem_of_find?_eq_some hp') p hp hkey]
  rfl

theorem answers_of_compute {routes : Routes} {answer : Answer} {q : MatrixQuery} (hq : WellFormed q)
    (hmode : q.transportMode ≠ .transit) {entries : List MatrixEntry}
    (h : computeMatrix routes answer q.transportMode q.placeCoords q.placeCoords = .ok entries)
    {e : MatrixEntry} (he : e ∈ entries) : Answers routes q e := by
  obtain ⟨o, ho, d, hd, horigin, hdest, hitem⟩ := computeMatrix_spec h he
  rw [← horigin, ← hdest] at hitem
  refine ⟨o.2, d.2, ?_, ?_, hitem hmode⟩
  · rw [horigin]
    exact position_of_mem hq ho
  · rw [hdest]
    exact position_of_mem hq hd

theorem anchor_apart {q : MatrixQuery} (hq : WellFormed q) {a : Located} (ha : a ∈ q.startAnchor ∨ a ∈ q.endAnchor)
    {id : PlaceId} (hid : id ∈ q.placeCoords.map Prod.fst) : a.1 ≠ id := by
  obtain ⟨p, hp, rfl⟩ := List.mem_map.mp hid
  have hlength := hq.ids p hp
  intro hsame
  rw [← hsame] at hlength
  rcases ha with ha | ha
  · rw [hq.start a ha] at hlength
    exact absurd hlength (by decide)
  · rw [hq.finish a ha] at hlength
    exact absurd hlength (by decide)

end Entries

section Cache

theorem mem_insert {cache cache' : Cache} {row r : CacheRow} (h : cache.insert row = some cache')
    (hr : r ∈ cache'.rows) : r = row ∨ r ∈ cache.rows := by
  rw [Table.insert] at h
  split_ifs at h
  obtain rfl := Option.some.inj h
  exact List.mem_cons.mp hr

theorem mem_replace {cache : Cache} {row r : CacheRow} (hr : r ∈ (cache.replace row).rows) :
    r = row ∨ r ∈ cache.rows := by
  obtain ⟨x, hx, rfl⟩ := List.mem_map.mp hr
  split_ifs
  · exact .inl rfl
  · exact .inr hx

/-- An upsert leaves rows that were there and the row it writes. -/
theorem mem_storeEntry {cache : Cache} {mode : TransportMode} {now : ℤ} {e : MatrixEntry} {r : CacheRow}
    (hr : r ∈ (storeEntry cache mode now e).rows) :
    r = ⟨e.originId, e.destId, mode, e.distanceM, e.durationS, now⟩ ∨ r ∈ cache.rows := by
  rw [storeEntry] at hr
  cases hinsert : cache.insert ⟨e.originId, e.destId, mode, e.distanceM, e.durationS, now⟩ with
  | none =>
    rw [hinsert] at hr
    exact mem_replace hr
  | some cache' =>
    rw [hinsert] at hr
    exact mem_insert hinsert hr

theorem loadCachedMatrix_spec {cache : Cache} {now : ℤ} {placeIds : List PlaceId} {mode : TransportMode}
    {m : TimedMatrix} (h : loadCachedMatrix cache now placeIds mode = some m) {o d : PlaceId} {e : MatrixEntry}
    (he : m.matrix.entries (o, d) = some e) : ∃ r ∈ cache.rows, r.entry = e ∧ e.originId = o ∧ e.destId = d ∧
      r.transportMode = mode ∧ now - ttlForMode mode ≤ r.computedAt := by
  rw [loadCachedMatrix] at h
  split_ifs at h
  obtain rfl := Option.some.inj h
  rcases updateEntries_spec he with ⟨hmem, horigin, hdest⟩ | hnone
  · obtain ⟨r, hr, rfl⟩ := List.mem_map.mp hmem
    obtain ⟨hr, hfresh⟩ := List.mem_filter.mp hr
    obtain ⟨hmode, -, -, hcutoff⟩ := of_decide_eq_true hfresh
    exact ⟨r, hr, rfl, horigin, hdest, hmode, hcutoff⟩
  · cases hnone

end Cache

section Resuming

variable {routes : Routes} {calls calls' : List Call} {now now' : ℤ} {cache : Cache} {c : Call} {m : EntryMap}

def RowOk (routes : Routes) (calls : List Call) (now : ℤ) (r : CacheRow) : Prop :=
  r.transportMode ≠ .transit → r.computedAt ≤ now ∧ Fetched routes calls r.transportMode r.computedAt r.entry

structure Resumed (routes : Routes) (calls : List Call) (now : ℤ) (cache : Cache) (c : Call) (next : Call × Cache) :
    Prop where
  query : next.1.query = c.query
  fetched : ∀ t, c.fetchedAt = some t → next.1.fetchedAt = some t
  phase : PhaseOk routes calls now next.1
  rows : ∀ r ∈ next.2.rows, r ∈ cache.rows ∨ c.fetchedAt = some r.computedAt ∧ r.computedAt ≤ now ∧
    r.transportMode = c.query.transportMode ∧ (c.query.transportMode ≠ .transit → Answers routes c.query r.entry)

theorem cached_served (hrows : ∀ r ∈ cache.rows, RowOk routes calls now r) {cached : TimedMatrix}
    (hcached : loadCachedMatrix cache now c.placeIds c.query.transportMode = some cached)
    (hloaded : c.loadedAt = some now) : WellServed routes calls c cached.matrix.entries := by
  intro hmode o _ d _ e he
  obtain ⟨r, hr, hentry, horigin, hdest, hrow, hcutoff⟩ := loadCachedMatrix_spec hcached he
  rw [← hrow] at hmode hcutoff
  obtain ⟨hpast, hfetched⟩ := hrows r hr hmode
  rw [hentry] at hfetched
  refine ⟨horigin, hdest, .inr ⟨now, r.computedAt, hloaded, ?_, hpast, ?_⟩⟩
  · rw [← hrow]
    exact hcutoff
  · rw [← hrow]
    exact hfetched

theorem computed_served {entries : List MatrixEntry}
    (h : c.query.transportMode ≠ .transit → ∀ e ∈ entries, Answers routes c.query e) :
    WellServed routes calls c (updateEntries (fun _ ↦ none) entries) := by
  intro hmode o _ d _ e he
  rcases updateEntries_spec he with ⟨hmem, horigin, hdest⟩ | hnone
  · exact ⟨horigin, hdest, .inl (h hmode e hmem)⟩
  · cases hnone

theorem empty_served : WellServed routes calls c fun _ ↦ none := by
  intro _ o _ d _ e he
  cases he

/-- The legs of an anchor never overwrite an entry between places. -/
theorem legs_served (hquery : WellFormed c.query) (h : WellServed routes calls c m) {anchor : Located}
    (hanchor : anchor ∈ c.query.startAnchor ∨ anchor ∈ c.query.endAnchor) {entries : List MatrixEntry}
    (hlegs : ∀ e ∈ entries, e.originId = anchor.1 ∨ e.destId = anchor.1) :
    WellServed routes calls c (updateEntries m entries) := by
  intro hmode o ho d hd e he
  rcases updateEntries_spec he with ⟨hmem, horigin, hdest⟩ | hm
  · rcases hlegs e hmem with hleg | hleg
    · exact absurd (hleg.symm.trans horigin) (anchor_apart hquery hanchor ho)
    · exact absurd (hleg.symm.trans hdest) (anchor_apart hquery hanchor hd)
  · exact h hmode o ho d hd e hm

theorem resume_load (hphase : c.phase = .load) (hok : PhaseOk routes calls now c)
    (hrows : ∀ r ∈ cache.rows, RowOk routes calls now r) (answer : Answer) :
    Resumed routes calls now cache c (c.resume routes answer now cache) := by
  simp only [PhaseOk, hphase] at hok
  simp only [Call.resume, hphase]
  split
  · exact ⟨rfl, fun _ ↦ id, trivial, fun _ hr ↦ .inl hr⟩
  · split
    · rename_i cached hcached
      have hserved := cached_served (c := { c with loadedAt := some now }) hrows hcached rfl
      split
      · exact ⟨rfl, fun _ ↦ id, hserved, fun _ hr ↦ .inl hr⟩
      · exact ⟨rfl, fun _ ↦ id, hserved, fun _ hr ↦ .inl hr⟩
    · split
      · exact ⟨rfl, fun _ ↦ id, empty_served, fun _ hr ↦ .inl hr⟩
      · exact ⟨rfl, fun _ ↦ id, hok, fun _ hr ↦ .inl hr⟩

theorem resume_compute (hquery : WellFormed c.query) (hphase : c.phase = .compute)
    (hok : PhaseOk routes calls now c) (answer : Answer) :
    Resumed routes calls now cache c (c.resume routes answer now cache) := by
  simp only [PhaseOk, hphase] at hok
  simp only [Call.resume, hphase]
  split
  · exact ⟨rfl, fun _ ↦ id, trivial, fun _ hr ↦ .inl hr⟩
  · rename_i entries hentries
    refine ⟨rfl, by simp [hok], ⟨rfl, le_rfl, List.Sublist.refl _, ?_⟩, fun _ hr ↦ .inl hr⟩
    exact fun hmode e he ↦ answers_of_compute hquery hmode hentries he

theorem resume_store {entries pending : List MatrixEntry} {stamp : ℤ} (hphase : c.phase = .store entries pending stamp)
    (hok : PhaseOk routes calls now c) (answer : Answer) :
    Resumed routes calls now cache c (c.resume routes answer now cache) := by
  simp only [PhaseOk, hphase] at hok
  obtain ⟨hfetched, hpast, hpending, hanswers⟩ := hok
  simp only [Call.resume, hphase]
  cases pending with
  | nil => exact ⟨rfl, fun _ ↦ id, computed_served hanswers, fun _ hr ↦ .inl hr⟩
  | cons e pending =>
    refine ⟨rfl, fun _ ↦ id, ⟨hfetched, hpast, (List.sublist_cons_self e pending).trans hpending, hanswers⟩, ?_⟩
    intro r hr
    refine (mem_storeEntry hr).symm.imp id ?_
    rintro rfl
    exact ⟨hfetched, hpast, rfl, fun hmode ↦ hanswers hmode e (hpending.subset List.mem_cons_self)⟩

theorem resume_startLegs (hquery : WellFormed c.query) {computedAt : ℤ} (hphase : c.phase = .startLegs m computedAt)
    (hok : PhaseOk routes calls now c) (answer : Answer) :
    Resumed routes calls now cache c (c.resume routes answer now cache) := by
  simp only [PhaseOk, hphase] at hok
  simp only [Call.resume, hphase]
  split
  · exact ⟨rfl, fun _ ↦ id, hok, fun _ hr ↦ .inl hr⟩
  · rename_i anchor hanchor
    split
    · exact ⟨rfl, fun _ ↦ id, trivial, fun _ hr ↦ .inl hr⟩
    · rename_i entries hentries
      refine ⟨rfl, fun _ ↦ id, legs_served hquery hok (.inl hanchor) ?_, fun _ hr ↦ .inl hr⟩
      intro e he
      obtain ⟨o, ho, d, -, horigin, -⟩ := computeMatrix_spec hentries he
      rw [List.mem_singleton.mp ho] at horigin
      exact .inl horigin

theorem resume_endLegs (hquery : WellFormed c.query) {computedAt : ℤ} (hphase : c.phase = .endLegs m computedAt)
    (hok : PhaseOk routes calls now c) (answer : Answer) :
    Resumed routes calls now cache c (c.resume routes answer now cache) := by
  simp only [PhaseOk, hphase] at hok
  simp only [Call.resume, hphase]
  split
  · exact ⟨rfl, fun _ ↦ id, hok, fun _ hr ↦ .inl hr⟩
  · rename_i anchor hanchor
    split
    · exact ⟨rfl, fun _ ↦ id, trivial, fun _ hr ↦ .inl hr⟩
    · rename_i entries hentries
      refine ⟨rfl, fun _ ↦ id, legs_served hquery hok (.inr hanchor) ?_, fun _ hr ↦ .inl hr⟩
      intro e he
      obtain ⟨o, -, d, hd, -, hdest, -⟩ := computeMatrix_spec hentries he
      rw [List.mem_singleton.mp hd] at hdest
      exact .inr hdest

theorem resume_resumed (hquery : WellFormed c.query) (hok : PhaseOk routes calls now c)
    (hrows : ∀ r ∈ cache.rows, RowOk routes calls now r) (answer : Answer) :
    Resumed routes calls now cache c (c.resume routes answer now cache) := by
  cases hphase : c.phase with
  | load => exact resume_load hphase hok hrows answer
  | compute => exact resume_compute hquery hphase hok answer
  | store entries pending stamp => exact resume_store hphase hok answer
  | startLegs entryMap computedAt => exact resume_startLegs hquery hphase hok answer
  | endLegs entryMap computedAt => exact resume_endLegs hquery hphase hok answer
  | done result =>
    simp only [Call.resume, hphase]
    exact ⟨rfl, fun _ ↦ id, hok, fun _ hr ↦ .inl hr⟩

end Resuming

section Runs

variable {routes : Routes} {calls calls' : List Call} {now now' : ℤ} {c : Call} {s : System}

/-- Calls go on, but what they fetched and for which query stays. -/
def Extends (calls calls' : List Call) : Prop :=
  ∀ f ∈ calls, ∀ t, f.fetchedAt = some t → ∃ f' ∈ calls', f'.query = f.query ∧ f'.fetchedAt = some t

theorem extends_refl (calls : List Call) : Extends calls calls := fun f hf _ ht ↦ ⟨f, hf, rfl, ht⟩

theorem fetched_mono (hext : Extends calls calls') {mode : TransportMode} {t : ℤ} {e : MatrixEntry}
    (h : Fetched routes calls mode t e) : Fetched routes calls' mode t e := by
  obtain ⟨f, hf, hfetched, hmode, hanswers⟩ := h
  obtain ⟨f', hf', hquery, hfetched'⟩ := hext f hf t hfetched
  exact ⟨f', hf', hfetched', hquery ▸ hmode, hquery ▸ hanswers⟩

theorem wellServed_mono (hext : Extends calls calls') {m : EntryMap} (h : WellServed routes calls c m) :
    WellServed routes calls' c m := by
  intro hmode o ho d hd e he
  obtain ⟨horigin, hdest, hbacked⟩ := h hmode o ho d hd e he
  refine ⟨horigin, hdest, hbacked.imp id ?_⟩
  rintro ⟨loaded, t, hloaded, hcutoff, hpast, hfetched⟩
  exact ⟨loaded, t, hloaded, hcutoff, hpast, fetched_mono hext hfetched⟩

theorem phaseOk_mono (hext : Extends calls calls') (hnow : now ≤ now') (h : PhaseOk routes calls now c) :
    PhaseOk routes calls' now' c := by
  cases hphase : c.phase with
  | load =>
    simp only [PhaseOk, hphase] at h ⊢
    exact h
  | compute =>
    simp only [PhaseOk, hphase] at h ⊢
    exact h
  | store entries pending stamp =>
    simp only [PhaseOk, hphase] at h ⊢
    exact ⟨h.1, h.2.1.trans hnow, h.2.2⟩
  | startLegs m computedAt =>
    simp only [PhaseOk, hphase] at h ⊢
    exact wellServed_mono hext h
  | endLegs m computedAt =>
    simp only [PhaseOk, hphase] at h ⊢
    exact wellServed_mono hext h
  | done result =>
    cases result with
    | error failure => simp only [PhaseOk, hphase]
    | ok m =>
      simp only [PhaseOk, hphase] at h ⊢
      exact wellServed_mono hext h

theorem rowOk_mono (hext : Extends calls calls') (hnow : now ≤ now') {r : CacheRow} (h : RowOk routes calls now r) :
    RowOk routes calls' now' r :=
  fun hmode ↦ ⟨(h hmode).1.trans hnow, fetched_mono hext (h hmode).2⟩

structure Coherent (routes : Routes) (s : System) : Prop where
  queries : ∀ c ∈ s.calls, WellFormed c.query
  phases : ∀ c ∈ s.calls, PhaseOk routes s.calls s.now c
  rows : ∀ r ∈ s.cache.rows, RowOk routes s.calls s.now r

theorem storedCoords_spec {places : List PlaceStore.PlaceDocument} {placeId : PlaceId} {p : Located}
    (h : storedCoords places placeId = some p) : p.1 = placeId ∧ placeId.length = 24 := by
  obtain ⟨doc, hdoc, h⟩ := Option.bind_eq_some_iff.mp h
  obtain ⟨lat, -, h⟩ := Option.bind_eq_some_iff.mp h
  obtain ⟨lng, -, h⟩ := Option.bind_eq_some_iff.mp h
  obtain rfl := Option.some.inj h
  have hid : doc.id.hex = placeId := by simpa using List.find?_some hdoc
  exact ⟨rfl, hid ▸ doc.id.digits.1⟩

theorem anchorOf_id {id : PlaceId} {lat lng : Option Coord} {a : Located} (h : a ∈ anchorOf id lat lng) :
    a.1 = id := by
  obtain ⟨lat, -, h⟩ := Option.bind_eq_some_iff.mp h
  obtain ⟨lng, -, h⟩ := Option.bind_eq_some_iff.mp h
  obtain rfl := Option.some.inj h
  rfl

theorem wellFormed_queryOf (places : List PlaceStore.PlaceDocument) (request : OptimizeRequest) (kept : List PlaceId)
    (departureTime : Option DateTime) : WellFormed (queryOf places request kept departureTime) where
  ids := by
    intro p hp
    obtain ⟨id, -, hid⟩ := List.mem_filterMap.mp hp
    obtain ⟨hsame, hlength⟩ := storedCoords_spec hid
    rw [hsame]
    exact hlength
  positions := by
    intro p hp p' hp' hsame
    obtain ⟨id, -, hid⟩ := List.mem_filterMap.mp hp
    obtain ⟨id', -, hid'⟩ := List.mem_filterMap.mp hp'
    rw [(storedCoords_spec hid).1, (storedCoords_spec hid').1] at hsame
    rw [hsame, hid'] at hid
    exact (Option.some.inj hid).symm
  start := fun a ha ↦ anchorOf_id ha
  finish := fun a ha ↦ anchorOf_id ha

theorem extends_set {i : ℕ} (hc : calls[i]? = some c) {next : Call} (hquery : next.query = c.query)
    (hfetched : ∀ t, c.fetchedAt = some t → next.fetchedAt = some t) : Extends calls (calls.set i next) := by
  intro f hf t ht
  obtain ⟨j, hj⟩ := List.getElem?_of_mem hf
  have hi : i < calls.length := (List.getElem?_eq_some_iff.mp hc).1
  by_cases hij : i = j
  · subst hij
    obtain rfl := Option.some.inj (hc.symm.trans hj)
    exact ⟨next, List.mem_of_getElem? (List.getElem?_set_self hi), hquery, hfetched t ht⟩
  · refine ⟨f, List.mem_of_getElem? (i := j) ?_, rfl, ht⟩
    rw [List.getElem?_set_ne hij]
    exact hj

theorem step_coherent (routes : Routes) (s : System) (event : Event) (h : Coherent routes s) :
    Coherent routes (step routes s event) := by
  have hsame := extends_refl s.calls
  cases event with
  | wait ms =>
    have hnow : s.now ≤ s.now + ms := by omega
    exact ⟨h.queries, fun c hc ↦ phaseOk_mono hsame hnow (h.phases c hc),
      fun r hr ↦ rowOk_mono hsame hnow (h.rows r hr)⟩
  | place e => exact ⟨h.queries, h.phases, h.rows⟩
  | invalidate mode => exact ⟨h.queries, h.phases, fun r hr ↦ h.rows r (List.mem_filter.mp hr).1⟩
  | request r kept departureTime =>
    have hext : Extends s.calls (step routes s (.request r kept departureTime)).calls :=
      fun f hf t ht ↦ ⟨f, List.mem_append_left _ hf, rfl, ht⟩
    refine ⟨?_, ?_, fun r hr ↦ rowOk_mono hext le_rfl (h.rows r hr)⟩
    · intro c hc
      rcases List.mem_append.mp hc with hc | hc
      · exact h.queries c hc
      · rw [List.mem_singleton.mp hc]
        exact wellFormed_queryOf s.places r kept departureTime
    · intro c hc
      rcases List.mem_append.mp hc with hc | hc
      · exact phaseOk_mono hext le_rfl (h.phases c hc)
      · rw [List.mem_singleton.mp hc]
        rfl
  | resume i answer =>
    cases hc : s.calls[i]? with
    | none =>
      simp only [step, hc]
      exact h
    | some c =>
      have hmem := List.mem_of_getElem? hc
      have hnext := resume_resumed (h.queries c hmem) (h.phases c hmem) h.rows answer
      have hext := extends_set hc hnext.query hnext.fetched
      simp only [step, hc]
      refine ⟨?_, ?_, ?_⟩
      · intro f hf
        rcases List.mem_or_eq_of_mem_set hf with hf | rfl
        · exact h.queries f hf
        · rw [hnext.query]
          exact h.queries c hmem
      · intro f hf
        rcases List.mem_or_eq_of_mem_set hf with hf | rfl
        · exact phaseOk_mono hext le_rfl (h.phases f hf)
        · exact phaseOk_mono hext le_rfl hnext.phase
      · intro r hr
        rcases hnext.rows r hr with hr | ⟨hfetched, hpast, hmode, hanswers⟩
        · exact rowOk_mono hext le_rfl (h.rows r hr)
        · intro htransit
          rw [hmode] at htransit ⊢
          exact ⟨hpast, fetched_mono hext ⟨c, hmem, hfetched, rfl, hanswers htransit⟩⟩

def started (places : List PlaceStore.PlaceDocument) (now : ℤ) : System := { places := places, now := now }

theorem run_coherent (routes : Routes) (places : List PlaceStore.PlaceDocument) (now : ℤ) (events : List Event) :
    Coherent routes (run (step routes) (started places now) events) := by
  have hstart : Coherent routes (started places now) :=
    ⟨by simp [started], by simp [started], by simp [started, Table.empty]⟩
  have hstep : ∀ s e, Coherent routes s → True → Coherent routes (step routes s e) :=
    fun s e h _ ↦ step_coherent routes s e h
  exact (trace_invariant_of hstart hstep events fun _ _ ↦ trivial).1

def returnedMatrix (c : Call) : Option TimedMatrix :=
  match c.phase with
  | .done (.ok m) => some m
  | _ => none

theorem phase_of_returned {m : TimedMatrix} (h : returnedMatrix c = some m) : c.phase = .done (.ok m) := by
  unfold returnedMatrix at h
  split at h
  case h_1 hphase => rw [hphase, Option.some.inj h]
  case h_2 => cases h

def Returned (c : Call) (e : MatrixEntry) : Prop :=
  ∃ m ∈ returnedMatrix c, e.originId ∈ c.placeIds ∧ e.destId ∈ c.placeIds ∧
    m.matrix.get e.originId e.destId = some e

instance (c : Call) (e : MatrixEntry) : Decidable (Returned c e) :=
  inferInstanceAs (Decidable (∃ m ∈ returnedMatrix c, _))

/-- Every duration a matrix gives is the service's for some query of its mode: the
call's own, or one that was fetched at most a time to live before the call read the
cache. It is the call's own answer where both places were passed at the same position. -/
theorem durations_answered (routes : Routes) (places : List PlaceStore.PlaceDocument) (now : ℤ) (events : List Event)
    (c : Call) (hc : c ∈ (run (step routes) (started places now) events).calls)
    (hmode : c.query.transportMode ≠ .transit) (e : MatrixEntry) (he : Returned c e) :
    ∃ f ∈ (run (step routes) (started places now) events).calls, f.query.transportMode = c.query.transportMode ∧
      Answers routes f.query e ∧
      (f = c ∨ ∃ loaded fetched, c.loadedAt = some loaded ∧ f.fetchedAt = some fetched ∧
        loaded - ttlForMode c.query.transportMode ≤ fetched ∧ fetched ≤ loaded) ∧
      (position f.query e.originId = position c.query e.originId →
        position f.query e.destId = position c.query e.destId → Answers routes c.query e) := by
  obtain ⟨m, hreturned, horigin, hdest, hentry⟩ := he
  have hphase := phase_of_returned hreturned
  have hserved := (run_coherent routes places now events).phases c hc
  simp only [PhaseOk, hphase] at hserved
  obtain ⟨-, -, hbacked⟩ := hserved hmode _ horigin _ hdest e hentry
  rcases hbacked with hown | ⟨loaded, t, hloaded, hcutoff, hpast, f, hf, hfetched, hsame, hanswers⟩
  · exact ⟨c, hc, rfl, hown, .inl rfl, fun _ _ ↦ hown⟩
  · refine ⟨f, hf, hsame, hanswers, .inr ⟨loaded, t, hloaded, hfetched, hcutoff, hpast⟩, ?_⟩
    intro hat hto
    obtain ⟨o, d, ho, hd, hitem⟩ := hanswers
    rw [hsame] at hitem
    exact ⟨o, d, hat.symm.trans ho, hto.symm.trans hd, hitem⟩

end Runs

section Moved

def towerId : ObjectId := ⟨"aaaaaaaaaaaaaaaaaaaaaaaa", by decide⟩

def bridgeId : ObjectId := ⟨"bbbbbbbbbbbbbbbbbbbbbbbb", by decide⟩

def cityPlaces : List PlaceStore.PlaceDocument :=
  [{ id := towerId, lat := some 0, lng := some 0 }, { id := bridgeId, lat := some 0, lng := some 1 }]

def cityRoutes : Routes := fun o d _ ↦
  ⟨0, some (if o = (0, 0) ∧ d = (0, 1) ∨ o = (0, 1) ∧ d = (0, 0) then 600 else 1200), some 1000⟩

def movedDay : DateTime := ⟨⟨2033, 4, 5, by decide, by decide, by decide⟩, midnight⟩

def towerDetails : PlaceStore.PlaceDetails := ⟨some "North", none, some 7, some 7, "details"⟩

def towerApi : PlaceStore.PlacesApi :=
  ⟨fun _ ↦ (some towerDetails, some "OK", none), fun _ _ _ ↦ (some "ChIJtower", some "OK", none)⟩

def cityRequest : OptimizeRequest := { placeIds := [towerId.hex, bridgeId.hex] }

def answered : Answer := .items fun _ _ ↦ ⟨0, none, none⟩

def call (i : ℕ) (awaits : ℕ) : List Event :=
  .request cityRequest cityRequest.placeIds none :: List.replicate awaits (.resume i answered)

def moveAndReplan : List Event :=
  call 0 7 ++ [.wait 3600000, .place (.enrich towerId { id := towerId, lat := some 0, lng := some 0 }
      towerApi movedDay)] ++
    call 1 1

def replanned : System := run (step cityRoutes) (started cityPlaces 0) moveAndReplan

def stale : MatrixEntry := ⟨towerId.hex, bridgeId.hex, 1000, 600⟩

theorem replanned_returned : ∃ c ∈ replanned.calls, c.query.transportMode ≠ .transit ∧ Returned c stale ∧
    position c.query towerId.hex = some (7, 7) := by
  decide

/-- The second route still rests on the place where the tower stood. -/
theorem replanned_stale : ¬∀ (routes : Routes) (places : List PlaceStore.PlaceDocument) (now : ℤ) (events : List Event),
    ∀ c ∈ (run (step routes) (started places now) events).calls, c.query.transportMode ≠ .transit →
      ∀ e, Returned c e → Answers routes c.query e := by
  intro h
  obtain ⟨c, hc, hmode, hreturned, hmoved⟩ := replanned_returned
  obtain ⟨o, d, ho, -, hitem⟩ := h cityRoutes cityPlaces 0 moveAndReplan c hc hmode stale hreturned
  obtain rfl := Option.some.inj (hmoved.symm.trans ho)
  have hduration := congrArg (Option.map MatrixEntry.durationS) hitem
  simp [RouteItem.entry, cityRoutes, stale] at hduration

theorem replanned_answered : ∃ f ∈ replanned.calls, Answers cityRoutes f.query stale := by
  obtain ⟨c, hc, hmode, hreturned, -⟩ := replanned_returned
  obtain ⟨f, hf, -, hanswers, -⟩ := durations_answered cityRoutes cityPlaces 0 moveAndReplan c hc hmode stale hreturned
  exact ⟨f, hf, hanswers⟩

end Moved

end TravelPlanner.MatrixCoherence
