import TravelPlanner.EnrichmentStatus
import TravelPlanner.FirstMatch

namespace TravelPlanner.EnrichmentQueue

open Clock Runs
open Windows (ObjectId)
open PlaceStore (PlaceDocument EnrichmentUpdate modifyById upserted)
open EnrichmentStatus (Calls)
open FirstMatch (map_modify)

section Model

def instant (t : DateTime) : ℕ := t.date.toOrdinal * 86400000000 + t.time.micros

def backoff : ℕ := 24 * 3600 * 1000000

/-- Places with an id and without an address are to be looked up. -/
def awaiting (d : PlaceDocument) : Bool := d.gmapsPlaceId ≠ none && (d.address = none || d.address = some "")

def recentFailure (now : DateTime) (d : PlaceDocument) : Bool :=
  d.detailsStatus ≠ none && d.detailsStatus ≠ some "OK" && d.enrichedAt.any fun t ↦ instant now ≤ instant t + backoff

def candidate (now : DateTime) (d : PlaceDocument) : Bool := awaiting d && !recentFailure now d

/-- To the database a time that was never stored is not null, so that the tier is the same
for all; but it sorts before every time, which comes to the same. -/
def sortTier (d : PlaceDocument) : ℕ := if d.enrichedAt = none then 0 else 1

def noLater : Option DateTime → Option DateTime → Bool
  | none, _ => true
  | some _, none => false
  | some t, some t' => !(t'.before t)

def sortsFirst (d d' : PlaceDocument) : Prop :=
  sortTier d < sortTier d' ∨ sortTier d = sortTier d' ∧ noLater d.enrichedAt d'.enrichedAt = true

instance (d d' : PlaceDocument) : Decidable (sortsFirst d d') := by unfold sortsFirst; infer_instance

/-- What `fetch_enrichment_candidates` may answer: which of two places of one time comes
first is up to the database. -/
def Candidates (docs : List PlaceDocument) (now : DateTime) (limit : ℕ) (found : List PlaceDocument) : Prop :=
  ∃ ordered : List PlaceDocument, ordered.Perm (docs.filter (candidate now)) ∧ ordered.Pairwise sortsFirst ∧
    found = ordered.take limit

/-- A request to enrich: the places that it has yet to ask for, and what it has yet to
store. -/
structure Job where
  waiting : List PlaceDocument
  updates : List (ObjectId × EnrichmentUpdate) := []
  failed : Bool := false

structure Library where
  docs : List PlaceDocument
  jobs : List Job := []

/-- The steps of the requests to enrich, between any steps of other requests. Only when
all places of a batch have been asked for is anything stored; an error ends a request. -/
inductive Event
  | fetch (now : DateTime) (limit : ℕ) (found : List PlaceDocument)
  | readPlace (id : ObjectId)
  | lookUp (job : ℕ) (calls : Calls) (now : DateTime)
  | fails (job : ℕ)
  | store (job k : ℕ)
  | edit (e : PlaceStore.Event)
  | delete (id : ObjectId)

def Job.lookUp (calls : Calls) (now : DateTime) (job : Job) : Job :=
  match job.failed, job.waiting with
  | false, d :: rest =>
    { job with
      waiting := rest
      updates := job.updates ++ [(d.id, (EnrichmentStatus.buildEnrichmentUpdate calls d now).1)] }
  | _, _ => job

def Job.next (job : Job) (k : ℕ) : Option (ObjectId × EnrichmentUpdate) :=
  if job.failed = false ∧ job.waiting = [] then job.updates[k]? else none

def Job.stored (k : ℕ) (job : Job) : Job := { job with updates := job.updates.eraseIdx k }

def store (s : Library) (i k : ℕ) : Library :=
  match (s.jobs[i]?).bind (Job.next · k) with
  | some (id, u) =>
    { docs := modifyById s.docs id u.apply
      jobs := s.jobs.modify i (Job.stored k) }
  | none => s

def step (s : Library) : Event → Library
  | .fetch _ _ found => { s with jobs := s.jobs ++ [⟨found, [], false⟩] }
  | .readPlace id => { s with jobs := s.jobs ++ [⟨(s.docs.find? fun d ↦ d.id = id).toList, [], false⟩] }
  | .lookUp i calls now => { s with jobs := s.jobs.modify i (Job.lookUp calls now) }
  | .fails i => { s with jobs := s.jobs.modify i fun job ↦ { job with failed := true } }
  | .store i k => store s i k
  | .edit e => { s with docs := PlaceStore.step s.docs e }
  | .delete id => { s with docs := s.docs.filter fun d ↦ d.id ≠ id }

def Completed (s : Library) (i : ℕ) : Prop :=
  ∃ job, s.jobs[i]? = some job ∧ job.failed = false ∧ job.waiting = [] ∧ job.updates = []

end Model

section Documents

theorem apply_spec (u : EnrichmentUpdate) (d : PlaceDocument) :
    (u.apply d).id = d.id ∧ (u.apply d).enrichedAt = some u.enrichedAt := by
  unfold EnrichmentUpdate.apply
  cases u.details with
  | none => exact ⟨rfl, rfl⟩
  | some _ => exact ⟨rfl, rfl⟩

theorem patch_spec (p : PlaceStore.PlacePatch) (d : PlaceDocument) :
    (p.apply d).id = d.id ∧ (p.apply d).enrichedAt = d.enrichedAt := by
  unfold PlaceStore.PlacePatch.apply
  split_ifs
  · exact ⟨rfl, rfl⟩
  · exact ⟨rfl, rfl⟩

theorem modifyById_map {β : Type} {f : PlaceDocument → PlaceDocument} {g : PlaceDocument → β}
    (hf : ∀ d, g (f d) = g d) (docs : List PlaceDocument) (id : ObjectId) :
    (modifyById docs id f).map g = docs.map g := by
  rw [modifyById, List.map_map]
  refine List.map_congr_left fun d _ ↦ ?_
  rw [Function.comp_apply]
  split_ifs
  · exact hf d
  · rfl

/-- Whatever an upsert does to the places that are there, it keeps which they are and
when each was last attempted; it adds one place at the most. -/
theorem upsertPlace_map (docs : List PlaceDocument) (newId : ObjectId) (place : PlaceStore.ScrapedPlace)
    (info : PlaceStore.ImportInfo) :
    (PlaceStore.upsertPlace docs newId place info).map (fun d ↦ (d.id, d.enrichedAt)) =
        docs.map (fun d ↦ (d.id, d.enrichedAt)) ∨
      (PlaceStore.upsertPlace docs newId place info).map (fun d ↦ (d.id, d.enrichedAt)) =
        docs.map (fun d ↦ (d.id, d.enrichedAt)) ++ [(newId, none)] := by
  unfold PlaceStore.upsertPlace
  split_ifs
  · unfold upserted
    cases docs.findIdx? (PlaceStore.matchesPlace place) with
    | some i => exact .inl (map_modify (f := PlaceStore.setDump place info) (fun _ ↦ rfl) docs i)
    | none =>
      right
      rw [List.map_append]
      rfl
  · exact .inl rfl

theorem countP_le_add {α : Type} {p q r : α → Bool} (h : ∀ a, p a = true → q a = true ∨ r a = true) (l : List α) :
    l.countP p ≤ l.countP q + l.countP r := by
  induction l with
  | nil => exact Nat.zero_le _
  | cons a l ih =>
    have hhead := h a
    simp only [List.countP_cons]
    cases hp : p a with
    | false => simp only [Bool.false_eq_true, if_false]; omega
    | true =>
      rcases hhead hp with hq | hr
      · simp only [hq, if_true]; omega
      · simp only [hr, if_true]; omega

theorem countP_id_le {docs : List PlaceDocument} (h : (docs.map PlaceDocument.id).Nodup) (id : ObjectId) :
    docs.countP (fun d ↦ d.id = id) ≤ 1 := by
  have hcount := List.nodup_iff_count_le_one.mp h id
  rw [List.count, List.countP_map] at hcount
  exact hcount

end Documents

section Line

variable (w : ObjectId) (τ : Option DateTime)

/-- Another place that was last attempted no later than the time. -/
def ahead (d : PlaceDocument) : Bool := d.id ≠ w && noLater d.enrichedAt τ

/-- Updates that are yet to be stored and would put a place back that far. -/
def stale (s : Library) : ℕ :=
  (s.jobs.map fun job ↦ job.updates.countP fun u ↦ noLater (some u.2.enrichedAt) τ).sum

def inLine (s : Library) : ℕ := s.docs.countP (ahead w τ) + stale τ s

def Job.places (job : Job) : List ObjectId := job.waiting.map PlaceDocument.id ++ job.updates.map Prod.fst

def heldBy (s : Library) (i : ℕ) : List ObjectId := ((s.jobs[i]?).map Job.places).getD []

/-- The line without the places that a job is to store an update for. -/
def inLineBut (i : ℕ) (s : Library) : ℕ := s.docs.countP (fun d ↦ ahead w τ d && d.id ∉ heldBy s i) + stale τ s

def arrivals : Event → ℕ
  | .edit (.upsert ..) | .edit (.insert ..) => 1
  | _ => 0

def Answered (s : Library) : Event → Prop
  | .fetch now limit found => Candidates s.docs now limit found
  | .lookUp _ _ now | .edit (.enrich _ _ _ now) => ∀ t ∈ τ, t.before now
  | .edit (.upsert newId _ _) | .edit (.insert newId _) => newId ∉ s.docs.map PlaceDocument.id
  | _ => True

def Distinct (s : Library) : Prop := (s.docs.map PlaceDocument.id).Nodup

variable {w τ} {s : Library}

theorem noLater_after {now : DateTime} (h : ∀ t ∈ τ, t.before now) : noLater (some now) τ = false := by
  cases τ with
  | none => rfl
  | some t => simp only [noLater, h t rfl, decide_true, Bool.not_true]

theorem edit_map {e : PlaceStore.Event} (he : ∀ id read api now, e ≠ .enrich id read api now) :
    (PlaceStore.step s.docs e).map (fun d ↦ (d.id, d.enrichedAt)) = s.docs.map (fun d ↦ (d.id, d.enrichedAt)) ∨
      ∃ newId, (PlaceStore.step s.docs e).map (fun d ↦ (d.id, d.enrichedAt)) =
        s.docs.map (fun d ↦ (d.id, d.enrichedAt)) ++ [(newId, none)] ∧ arrivals (.edit e) = 1 ∧
          (Answered τ s (.edit e) → newId ∉ s.docs.map PlaceDocument.id) := by
  cases e with
  | upsert newId place info =>
    rcases upsertPlace_map s.docs newId place info with h | h
    · exact .inl h
    · exact .inr ⟨newId, h, rfl, id⟩
  | enrich id read api now => exact absurd rfl (he id read api now)
  | patch id p =>
    left
    refine modifyById_map (fun d ↦ ?_) s.docs id
    rw [(patch_spec p d).1, (patch_spec p d).2]
  | insert newId place =>
    right
    refine ⟨newId, ?_, rfl, id⟩
    rw [PlaceStore.step, List.map_append]
    rfl

theorem edit_ids {e : PlaceStore.Event} (hok : Answered τ s (.edit e)) :
    (PlaceStore.step s.docs e).map PlaceDocument.id = s.docs.map PlaceDocument.id ∨
      ∃ newId, newId ∉ s.docs.map PlaceDocument.id ∧
        (PlaceStore.step s.docs e).map PlaceDocument.id = s.docs.map PlaceDocument.id ++ [newId] := by
  by_cases he : ∀ id read api now, e ≠ .enrich id read api now
  · rcases edit_map (τ := τ) (s := s) he with h | ⟨newId, h, -, hnew⟩
    · have hids := congrArg (List.map Prod.fst) h
      rw [List.map_map, List.map_map] at hids
      exact .inl hids
    · have hids := congrArg (List.map Prod.fst) h
      rw [List.map_append, List.map_map, List.map_map] at hids
      exact .inr ⟨newId, hnew hok, hids⟩
  · push Not at he
    obtain ⟨id, read, api, now, rfl⟩ := he
    exact .inl (modifyById_map (fun d ↦ (apply_spec _ d).1) s.docs id)

theorem step_distinct (h : Distinct s) {e : Event} (hok : Answered τ s e) : Distinct (step s e) := by
  cases e with
  | store i k =>
    simp only [step, store]
    cases (s.jobs[i]?).bind (Job.next · k) with
    | none => exact h
    | some update =>
      have hids := modifyById_map (fun d ↦ (apply_spec update.2 d).1) s.docs update.1
      rw [Distinct, hids]
      exact h
  | edit e =>
    rcases edit_ids hok with hids | ⟨newId, hnew, hids⟩
    · rw [Distinct, step, hids]
      exact h
    · have hall := List.Nodup.concat hnew h
      rw [List.concat_eq_append] at hall
      rw [Distinct, step, hids]
      exact hall
  | delete id => exact h.sublist (List.filter_sublist.map _)
  | fetch now limit found => exact h
  | readPlace id => exact h
  | lookUp i calls now => exact h
  | fails i => exact h

theorem sum_modify {α : Type} {f : α → α} {g : α → ℕ} {l : List α} {i : ℕ} {a : α} (h : l[i]? = some a) :
    ((l.modify i f).map g).sum + g a = (l.map g).sum + g (f a) := by
  induction l generalizing i with
  | nil => exact absurd h (by simp)
  | cons b l ih =>
    cases i with
    | zero =>
      obtain rfl := Option.some.inj h
      rw [List.modify_zero_cons, List.map_cons, List.map_cons, List.sum_cons, List.sum_cons]
      omega
    | succ i =>
      have hrest := ih h
      rw [List.modify_succ_cons, List.map_cons, List.map_cons, List.sum_cons, List.sum_cons]
      omega

theorem mem_eraseIdx {α : Type} {l : List α} {k : ℕ} {a b : α} (h : l[k]? = some a) (hb : b ∈ l) (hne : b ≠ a) :
    b ∈ l.eraseIdx k := by
  obtain ⟨hk, rfl⟩ := List.getElem?_eq_some_iff.mp h
  exact (List.mem_cons.mp ((List.getElem_cons_eraseIdx_perm hk).mem_iff.mpr hb)).resolve_left hne

theorem countP_eraseIdx {α : Type} (p : α → Bool) {l : List α} {k : ℕ} {a : α} (h : l[k]? = some a) :
    (l.eraseIdx k).countP p + (if p a = true then 1 else 0) = l.countP p := by
  obtain ⟨hk, rfl⟩ := List.getElem?_eq_some_iff.mp h
  rw [← (List.getElem_cons_eraseIdx_perm hk).countP_eq, List.countP_cons]

/-- An update moves one place at the most, and not forward in the line unless it is stale. -/
theorem countP_apply (h : Distinct s) {p q : PlaceDocument → Bool} (id : ObjectId) (u : EnrichmentUpdate)
    (hothers : ∀ d, d.id ≠ id → q d = true → p d = true)
    (hself : ∀ d, d.id = id → q (u.apply d) = true → noLater (some u.enrichedAt) τ = true) :
    (modifyById s.docs id u.apply).countP q ≤
      s.docs.countP p + if noLater (some u.enrichedAt) τ = true then 1 else 0 := by
  rw [modifyById, List.countP_map]
  have hsplit : ∀ d, (q ∘ fun d ↦ if d.id = id then u.apply d else d) d = true →
      p d = true ∨ (d.id = id && noLater (some u.enrichedAt) τ) = true := by
    intro d hd
    by_cases hid : d.id = id
    · rw [Function.comp_apply, if_pos hid] at hd
      right
      rw [hself d hid hd, decide_eq_true hid, Bool.and_self]
    · rw [Function.comp_apply, if_neg hid] at hd
      exact .inl (hothers d hid hd)
  refine (countP_le_add hsplit s.docs).trans (Nat.add_le_add_left ?_ _)
  cases noLater (some u.enrichedAt) τ with
  | false => simp
  | true =>
    simp only [Bool.and_true, if_true]
    exact countP_id_le h id

theorem heldBy_append {i : ℕ} (hi : i < s.jobs.length) (job : Job) :
    heldBy { s with jobs := s.jobs ++ [job] } i = heldBy s i := by
  rw [heldBy, heldBy, List.getElem?_append_left hi]

theorem stale_append (job : Job) (h : job.updates = []) : stale τ { s with jobs := s.jobs ++ [job] } = stale τ s := by
  simp only [stale, List.map_append, List.map_singleton, List.sum_append, List.sum_singleton, h, List.countP_nil,
    Nat.add_zero]

theorem mem_heldBy_modify {f : Job → Job} {id : ObjectId} (i j : ℕ)
    (hf : ∀ job, s.jobs[j]? = some job → id ∈ job.places → id ∈ (f job).places) (h : id ∈ heldBy s i) :
    id ∈ heldBy { s with jobs := s.jobs.modify j f } i := by
  simp only [heldBy, List.getElem?_modify, Option.map_eq_map, Option.map_map] at h ⊢
  cases hjob : s.jobs[i]? with
  | none =>
    rw [hjob] at h
    exact absurd h List.not_mem_nil
  | some job =>
    rw [hjob, Option.map_some, Option.getD_some] at h
    rw [Option.map_some, Option.getD_some, Function.comp_apply]
    split_ifs with hij
    · exact hf job (hij ▸ hjob) h
    · exact h

theorem lookUp_places (calls : Calls) (now : DateTime) (job : Job) {id : ObjectId} (h : id ∈ job.places) :
    id ∈ (job.lookUp calls now).places := by
  obtain ⟨waiting, updates, failed⟩ := job
  cases failed with
  | true => exact h
  | false =>
    cases waiting with
    | nil => exact h
    | cons d rest =>
      simp only [Job.places, Job.lookUp, List.map_cons, List.map_append, List.map_nil, List.mem_append, List.mem_cons,
        List.not_mem_nil, or_false] at h ⊢
      tauto

theorem lookUp_stale {now : DateTime} (h : ∀ t ∈ τ, t.before now) (calls : Calls) (job : Job) :
    ((job.lookUp calls now).updates.countP fun u ↦ noLater (some u.2.enrichedAt) τ) =
      job.updates.countP fun u ↦ noLater (some u.2.enrichedAt) τ := by
  obtain ⟨waiting, updates, failed⟩ := job
  cases failed with
  | true => rfl
  | false =>
    cases waiting with
    | nil => rfl
    | cons d rest =>
      have hnow : noLater (some (EnrichmentStatus.buildEnrichmentUpdate calls d now).1.enrichedAt) τ = false :=
        noLater_after h
      simp only [Job.lookUp, List.countP_append, List.countP_singleton, hnow, Bool.false_eq_true, if_false,
        Nat.add_zero]

theorem next_spec {job : Job} {k : ℕ} {update : ObjectId × EnrichmentUpdate} (h : job.next k = some update) :
    job.updates[k]? = some update := by
  unfold Job.next at h
  split_ifs at h
  exact h

theorem store_places {job : Job} {k : ℕ} {id id' : ObjectId} {u : EnrichmentUpdate} (h : job.updates[k]? = some (id, u))
    (hne : id' ≠ id) (hmem : id' ∈ job.places) :
    id' ∈ (job.stored k).places := by
  rcases List.mem_append.mp hmem with hmem | hmem
  · exact List.mem_append_left _ hmem
  · obtain ⟨update, hupdate, rfl⟩ := List.mem_map.mp hmem
    have hother : update ≠ (id, u) := fun heq ↦ hne (congrArg Prod.fst heq)
    exact List.mem_append_right _ (List.mem_map_of_mem (mem_eraseIdx h hupdate hother))

theorem store_line (hd : Distinct s) (i j k : ℕ) : inLineBut w τ i (store s j k) ≤ inLineBut w τ i s := by
  unfold store
  cases hnext : (s.jobs[j]?).bind (Job.next · k) with
  | none => exact Nat.le_refl _
  | some update =>
    obtain ⟨id, u⟩ := update
    obtain ⟨job, hjob, hnext⟩ := Option.bind_eq_some_iff.mp hnext
    have hk := next_spec hnext
    have hheld : ∀ id' ≠ id, id' ∈ heldBy s i → id' ∈ heldBy { s with jobs := s.jobs.modify j (Job.stored k) } i := by
      intro id' hne hmem
      refine mem_heldBy_modify i j (fun job' hjob' hmem ↦ ?_) hmem
      obtain rfl := Option.some.inj (hjob.symm.trans hjob')
      exact store_places hk hne hmem
    have hstale := sum_modify (f := Job.stored k)
      (g := fun job ↦ job.updates.countP fun u ↦ noLater (some u.2.enrichedAt) τ) hjob
    have herased := countP_eraseIdx (fun u ↦ noLater (some u.2.enrichedAt) τ) hk
    have hdocs : (modifyById s.docs id u.apply).countP
          (fun d ↦ ahead w τ d && d.id ∉ heldBy { s with jobs := s.jobs.modify j (Job.stored k) } i) ≤
        s.docs.countP (fun d ↦ ahead w τ d && d.id ∉ heldBy s i) +
          if noLater (some u.enrichedAt) τ = true then 1 else 0 := by
      apply countP_apply hd
      · intro d hne hcount
        simp only [Bool.and_eq_true, decide_eq_true_eq] at hcount ⊢
        exact ⟨hcount.1, fun hmem ↦ hcount.2 (hheld d.id hne hmem)⟩
      · intro d _ hcount
        simp only [ahead, Bool.and_eq_true, (apply_spec u d).2] at hcount
        exact hcount.1.2
    have hafter : inLineBut w τ i ⟨modifyById s.docs id u.apply, s.jobs.modify j (Job.stored k)⟩ =
        (modifyById s.docs id u.apply).countP
          (fun d ↦ ahead w τ d && d.id ∉ heldBy { s with jobs := s.jobs.modify j (Job.stored k) } i) +
          ((s.jobs.modify j (Job.stored k)).map fun job ↦
            job.updates.countP fun u ↦ noLater (some u.2.enrichedAt) τ).sum := rfl
    have hbefore : inLineBut w τ i s = s.docs.countP (fun d ↦ ahead w τ d && d.id ∉ heldBy s i) +
        (s.jobs.map fun job ↦ job.updates.countP fun u ↦ noLater (some u.2.enrichedAt) τ).sum := rfl
    rw [hafter, hbefore]
    simp only [Job.stored] at hstale herased hdocs ⊢
    omega

theorem edit_line (hd : Distinct s) {e : PlaceStore.Event} (hok : Answered τ s (.edit e)) (i : ℕ) :
    inLineBut w τ i (step s (.edit e)) ≤ inLineBut w τ i s + arrivals (.edit e) := by
  by_cases he : ∀ id read api now, e ≠ .enrich id read api now
  · have hcount : ∀ docs : List PlaceDocument, docs.countP (fun d ↦ ahead w τ d && d.id ∉ heldBy s i) =
        (docs.map fun d ↦ (d.id, d.enrichedAt)).countP
          fun x ↦ (x.1 ≠ w && noLater x.2 τ) && x.1 ∉ heldBy s i := by
      intro docs
      rw [List.countP_map]
      rfl
    have hsplit : inLineBut w τ i (step s (.edit e)) =
        (PlaceStore.step s.docs e).countP (fun d ↦ ahead w τ d && d.id ∉ heldBy s i) + stale τ s := rfl
    rw [hsplit, inLineBut, hcount, hcount]
    rcases edit_map (τ := τ) (s := s) he with h | ⟨newId, h, hone, -⟩
    · rw [h]
      exact Nat.le_add_right _ _
    · rw [h, List.countP_append, List.countP_singleton, hone]
      split_ifs
      · omega
      · omega
  · push Not at he
    obtain ⟨id, read, api, now, rfl⟩ := he
    have hlate : noLater (some (PlaceStore.buildEnrichmentUpdate api now read).enrichedAt) τ = false :=
      noLater_after hok
    have hdocs := countP_apply (τ := τ) hd id (PlaceStore.buildEnrichmentUpdate api now read)
      (p := fun d ↦ ahead w τ d && d.id ∉ heldBy s i) (q := fun d ↦ ahead w τ d && d.id ∉ heldBy s i)
      (fun _ _ h ↦ h) (fun d _ hcount ↦ by
        simp only [ahead, Bool.and_eq_true, (apply_spec _ d).2] at hcount
        exact hcount.1.2)
    rw [hlate] at hdocs
    exact Nat.add_le_add_right hdocs _

/-- A step lengthens the line, less what a job holds, by the places it adds. -/
theorem step_line (hd : Distinct s) {i : ℕ} (hi : i < s.jobs.length) {e : Event} (hok : Answered τ s e) :
    inLineBut w τ i (step s e) ≤ inLineBut w τ i s + arrivals e := by
  cases e with
  | fetch now limit found =>
    rw [inLineBut, inLineBut, step, heldBy_append hi, stale_append _ rfl]
    exact Nat.le_refl _
  | readPlace id =>
    rw [inLineBut, inLineBut, step, heldBy_append hi, stale_append _ rfl]
    exact Nat.le_refl _
  | lookUp j calls now =>
    have hstale : stale τ (step s (.lookUp j calls now)) = stale τ s := by
      rw [stale, step, stale, map_modify (fun job ↦ lookUp_stale hok calls job)]
    rw [inLineBut, hstale]
    refine Nat.add_le_add_right (List.countP_mono_left fun d _ hcount ↦ ?_) _
    simp only [Bool.and_eq_true, decide_eq_true_eq] at hcount ⊢
    exact ⟨hcount.1, fun hheld ↦ hcount.2 (mem_heldBy_modify i j (fun job _ ↦ lookUp_places calls now job) hheld)⟩
  | fails j =>
    have hstale : stale τ (step s (.fails j)) = stale τ s := by
      rw [stale, step, stale, map_modify (f := fun job : Job ↦ { job with failed := true }) (fun _ ↦ rfl)]
    rw [inLineBut, hstale]
    refine Nat.add_le_add_right (List.countP_mono_left fun d _ hcount ↦ ?_) _
    simp only [Bool.and_eq_true, decide_eq_true_eq] at hcount ⊢
    exact ⟨hcount.1, fun hheld ↦ hcount.2 (mem_heldBy_modify i j (fun _ _ h ↦ h) hheld)⟩
  | store j k => exact store_line hd i j k
  | edit e => exact edit_line hd hok i
  | delete id =>
    refine Nat.add_le_add_right ?_ _
    exact List.Sublist.countP_le List.filter_sublist

theorem step_jobs (s : Library) (e : Event) : s.jobs.length ≤ (step s e).jobs.length := by
  cases e with
  | store i k =>
    simp only [step, store]
    cases (s.jobs[i]?).bind (Job.next · k) with
    | none => exact Nat.le_refl _
    | some update => exact (List.length_modify _ _ _).ge
  | fetch now limit found => exact List.length_append ▸ Nat.le_add_right _ _
  | readPlace id => exact List.length_append ▸ Nat.le_add_right _ _
  | lookUp i calls now => exact (List.length_modify _ _ _).ge
  | fails i => exact (List.length_modify _ _ _).ge
  | edit e => exact Nat.le_refl _
  | delete id => exact Nat.le_refl _

structure Passes (w : ObjectId) (τ : Option DateTime) (s : Library) (now : DateTime) (found : List PlaceDocument) :
    Prop where
  waits : ∃ d ∈ s.docs, d.id = w ∧ d.enrichedAt = τ ∧ candidate now d = true
  passed : w ∉ found.map PlaceDocument.id

/-- A batch that leaves out a place is full, of places before it. -/
theorem found_ahead {now : DateTime} {limit : ℕ} {found : List PlaceDocument} (hd : Distinct s)
    (hfound : Candidates s.docs now limit found) (hp : Passes w τ s now found) :
    found.length = limit ∧ found.Nodup ∧ ∀ d ∈ found, d ∈ s.docs ∧ ahead w τ d = true := by
  obtain ⟨ordered, hperm, hsorted, rfl⟩ := hfound
  obtain ⟨waiting, hwaiting, hid, htime, hcandidate⟩ := hp.waits
  have hin : waiting ∈ ordered := hperm.mem_iff.mpr (List.mem_filter.mpr ⟨hwaiting, hcandidate⟩)
  rw [← List.take_append_drop limit ordered] at hin hsorted
  have hlater : waiting ∈ ordered.drop limit := by
    refine (List.mem_append.mp hin).resolve_left fun hmem ↦ ?_
    exact hp.passed (hid ▸ List.mem_map_of_mem hmem)
  have hlong : limit ≤ ordered.length := by
    by_contra hshort
    rw [List.drop_eq_nil_of_le (by omega)] at hlater
    exact absurd hlater List.not_mem_nil
  have hnodup : ordered.Nodup := hperm.nodup_iff.mpr ((List.Nodup.of_map _ hd).filter _)
  refine ⟨List.length_take_of_le hlong, hnodup.sublist (List.take_sublist _ _), fun d hmem ↦ ⟨?_, ?_⟩⟩
  · exact (List.mem_filter.mp (hperm.mem_iff.mp (List.mem_of_mem_take hmem))).1
  · have hfirst := (List.pairwise_append.mp hsorted).2.2 d hmem waiting hlater
    have hother : d.id ≠ w := fun heq ↦ hp.passed (heq ▸ List.mem_map_of_mem hmem)
    rw [ahead, decide_eq_true hother, Bool.true_and, ← htime]
    rcases hfirst with htier | ⟨-, hfirst⟩
    · have hnever : d.enrichedAt = none := by
        by_contra hsome
        simp only [sortTier, if_neg hsome] at htier
        split_ifs at htier
        · omega
        · omega
      rw [hnever]
      rfl
    · exact hfirst

theorem fetch_line {now : DateTime} {limit : ℕ} {found : List PlaceDocument} (hd : Distinct s)
    (hfound : Candidates s.docs now limit found) (hp : Passes w τ s now found) :
    inLineBut w τ s.jobs.length (step s (.fetch now limit found)) + limit ≤ inLine w τ s := by
  obtain ⟨hfull, hnodup, hahead⟩ := found_ahead hd hfound hp
  have hheld : heldBy (step s (.fetch now limit found)) s.jobs.length = found.map PlaceDocument.id := by
    simp only [heldBy, step, List.getElem?_concat_length, Option.map_some, Option.getD_some, Job.places, List.map_nil,
      List.append_nil]
  have hstale : stale τ (step s (.fetch now limit found)) = stale τ s := stale_append _ rfl
  have hsub : found.length ≤ ((s.docs.filter fun d ↦ d.id ∈ found.map PlaceDocument.id).countP (ahead w τ)) := by
    rw [List.countP_eq_length_filter]
    apply List.Subperm.length_le
    apply List.subperm_of_subset hnodup
    intro d hmem
    obtain ⟨hdoc, hbefore⟩ := hahead d hmem
    refine List.mem_filter.mpr ⟨List.mem_filter.mpr ⟨hdoc, ?_⟩, hbefore⟩
    exact decide_eq_true (List.mem_map_of_mem hmem)
  have hsplit := List.countP_eq_countP_filter_add s.docs (ahead w τ) fun d ↦ d.id ∈ found.map PlaceDocument.id
  have hrest : (s.docs.filter fun d ↦ !decide (d.id ∈ found.map PlaceDocument.id)).countP (ahead w τ) =
      s.docs.countP fun d ↦ ahead w τ d && d.id ∉ found.map PlaceDocument.id := by
    rw [List.countP_filter]
    refine List.countP_congr fun d _ ↦ ?_
    rw [decide_not]
  have hbut : inLineBut w τ s.jobs.length (step s (.fetch now limit found)) =
      s.docs.countP (fun d ↦ ahead w τ d && d.id ∉ found.map PlaceDocument.id) + stale τ s := by
    rw [inLineBut, hheld, hstale]
    rfl
  rw [hbut, inLine, hsplit, hrest]
  omega

theorem completed_line {i : ℕ} (h : Completed s i) : inLineBut w τ i s = inLine w τ s := by
  obtain ⟨job, hjob, -, hwaiting, hupdates⟩ := h
  have hheld : heldBy s i = [] := by
    rw [heldBy, hjob, Option.map_some, Option.getD_some, Job.places, hwaiting, hupdates]
    rfl
  simp only [inLineBut, inLine, hheld, List.not_mem_nil, not_false_eq_true, decide_true, Bool.and_true]

end Line

section Batches

/-- Batches one after another, each completed before the next is fetched, with any other
steps in between; every one of them passes over the place. -/
inductive Batches (w : ObjectId) (τ : Option DateTime) : Library → List ℕ → List Event → Prop
  | nil (s : Library) : Batches w τ s [] []
  | batch {s : Library} {now : DateTime} {limit : ℕ} {found : List PlaceDocument} {events : List Event}
      {limits : List ℕ} {rest : List Event} (hpassed : Passes w τ s now found)
      (hdone : Completed (run step s (.fetch now limit found :: events)) s.jobs.length)
      (hrest : Batches w τ (run step s (.fetch now limit found :: events)) limits rest) :
      Batches w τ s (limit :: limits) ((.fetch now limit found :: events) ++ rest)

variable {w : ObjectId} {τ : Option DateTime} {s : Library}

structure Underway (i : ℕ) (s : Library) : Prop where
  distinct : Distinct s
  started : i < s.jobs.length

theorem step_underway {i : ℕ} (h : Underway i s) {e : Event} (hok : Answered τ s e) : Underway i (step s e) :=
  ⟨step_distinct h.distinct hok, h.started.trans_le (step_jobs s e)⟩

theorem batch_line {now : DateTime} {limit : ℕ} {found : List PlaceDocument} {events : List Event} (hd : Distinct s)
    (hp : Passes w τ s now found)
    (hdone : Completed (run step s (.fetch now limit found :: events)) s.jobs.length)
    (hok : ∀ t ∈ trace step s (.fetch now limit found :: events), Answered τ t.before t.event) :
    Distinct (run step s (.fetch now limit found :: events)) ∧
      inLine w τ (run step s (.fetch now limit found :: events)) + limit ≤
        inLine w τ s + ((.fetch now limit found :: events : List Event).map arrivals).sum := by
  have hfetch := hok ⟨s, .fetch now limit found, step s (.fetch now limit found)⟩ List.mem_cons_self
  have hafter := fetch_line hd hfetch hp
  have hinv : Underway s.jobs.length (step s (.fetch now limit found)) := by
    refine ⟨step_distinct hd hfetch, ?_⟩
    rw [step, List.length_append]
    exact Nat.lt_succ_self _
  have hrest : ∀ t ∈ trace step (step s (.fetch now limit found)) events, Answered τ t.before t.event :=
    fun t ht ↦ hok t (List.mem_cons_of_mem _ ht)
  have hstep : ∀ t e, Underway s.jobs.length t → Answered τ t e → Underway s.jobs.length (step t e) :=
    fun _ _ h hok ↦ step_underway h hok
  have hline : ∀ t e, Underway s.jobs.length t → Answered τ t e →
      inLineBut w τ s.jobs.length (step t e) ≤ inLineBut w τ s.jobs.length t + arrivals e :=
    fun _ _ h hok ↦ step_line h.distinct h.started hok
  have hkept := (trace_invariant_of hinv hstep events hrest).1
  have hrun := run_measure_le hinv hstep hline events hrest
  rw [← completed_line hdone]
  refine ⟨hkept.distinct, ?_⟩
  have hzero : arrivals (.fetch now limit found) = 0 := rfl
  rw [List.map_cons, List.sum_cons, hzero]
  have hsame : run step s (.fetch now limit found :: events) = run step (step s (.fetch now limit found)) events := rfl
  rw [hsame]
  omega

/-- No place is passed over for ever: batches that run one after another and leave it out,
while it is not attempted itself, have together no more places than were in line with it
and than have been added since. -/
theorem passed_over_bound {limits : List ℕ} {events : List Event} (hd : Distinct s)
    (hbatches : Batches w τ s limits events) (hok : ∀ t ∈ trace step s events, Answered τ t.before t.event) :
    limits.sum ≤ inLine w τ s + (events.map arrivals).sum := by
  induction hbatches with
  | nil s => exact Nat.zero_le _
  | batch hpassed hdone hrest ih =>
    rw [trace_append] at hok
    obtain ⟨hdistinct, hline⟩ := batch_line hd hpassed hdone fun t ht ↦ hok t (List.mem_append_left _ ht)
    have hmore := ih hdistinct fun t ht ↦ hok t (List.mem_append_right _ ht)
    rw [List.map_append, List.sum_append, List.sum_cons]
    omega

def gate : PlaceDocument := { id := ⟨"65f0c0ffee00000000005e01", by decide⟩, gmapsPlaceId := some "ChIJgate" }

def pier : PlaceDocument := { id := ⟨"65f0c0ffee00000000005e02", by decide⟩, gmapsPlaceId := some "ChIJpier" }

def mill : PlaceDocument := { id := ⟨"65f0c0ffee00000000005e03", by decide⟩, gmapsPlaceId := some "ChIJmill" }

def mayMorning (minute : ℤ) : DateTime :=
  ⟨⟨2060, 5, 1, by decide, by decide, by decide⟩, secondsToTime (60 * minute)⟩

def notFound : Calls where
  storedFetch := fun _ ↦ { status := some "NOT_FOUND" }
  search := fun _ _ _ ↦ { status := some "NOT_FOUND" }
  resolvedFetch := fun _ ↦ {}

def gateFirst : List Event := [.fetch (mayMorning 0) 1 [gate], .lookUp 0 notFound (mayMorning 1), .store 0 0]

def pierNext : List Event := [.fetch (mayMorning 2) 1 [pier], .lookUp 1 notFound (mayMorning 3), .store 1 0]

theorem passed_over_bound_mill :
    [1, 1].sum ≤ inLine mill.id none ⟨[gate, pier, mill], []⟩ + ((gateFirst ++ pierNext).map arrivals).sum := by
  apply passed_over_bound
  · exact (by decide : ([gate, pier, mill].map PlaceDocument.id).Nodup)
  · rw [← List.append_nil pierNext]
    refine .batch ⟨⟨mill, by decide, rfl, rfl, by decide⟩, by decide⟩ ⟨_, rfl, rfl, rfl, rfl⟩ ?_
    refine .batch ⟨⟨mill, by decide, rfl, rfl, by decide⟩, by decide⟩ ⟨_, rfl, rfl, rfl, rfl⟩ ?_
    exact .nil _
  · intro t ht
    simp only [gateFirst, pierNext, trace, List.cons_append, List.nil_append, List.mem_cons, List.not_mem_nil,
      or_false] at ht
    obtain rfl | rfl | rfl | rfl | rfl | rfl := ht
    · exact ⟨[gate, pier, mill], by decide, by decide, rfl⟩
    · exact fun t ht ↦ absurd ht (Option.not_mem_none t)
    · trivial
    · exact ⟨[pier, mill], by decide, by decide, rfl⟩
    · exact fun t ht ↦ absurd ht (Option.not_mem_none t)
    · trivial

end Batches

end TravelPlanner.EnrichmentQueue
