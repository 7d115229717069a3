import TravelPlanner.PlaceStore

namespace TravelPlanner.PlacePreferences

open Clock Runs
open Requests (Coord Validated ValidationError check)
open Windows (ObjectId Priority)
open PlaceStore (PlaceDocument PlacePatch PlaceCreate Change ScrapedPlace ImportInfo PlacesApi modifyById insertPlace)

section Validation

def validateHour (v : Option ℤ) : Validated :=
  check (∀ h ∈ v, 0 ≤ h ∧ h ≤ 23) (.value "Hour must be between 0 and 23")

def validateDuration (v : Option ℤ) : Validated :=
  check (∀ m ∈ v, 0 < m) (.value "visit_duration_min must be a positive integer")

def validatePriority (v : Option Priority) : Validated :=
  check (v ∈ [none, some .mustSee, some .normal, some .optional])
    (.value "Input should be 'must_see', 'normal' or 'optional'")

def validateHourRange (hourFrom hourTo : Option ℤ) : Validated :=
  check (∀ a ∈ hourFrom, ∀ b ∈ hourTo, a < b) (.value "preferred_hour_from must be less than preferred_hour_to")

def given {α : Type} : Change α → Option α
  | .value a => some a
  | _ => none

def validatePatch (p : PlacePatch) : Validated := do
  validateHour (given p.preferredHourFrom)
  validateHour (given p.preferredHourTo)
  validateDuration (given p.visitDurationMin)
  validatePriority (given p.priority)
  validateHourRange (given p.preferredHourFrom) (given p.preferredHourTo)
  check (p.skipped ≠ .cleared) (.value "skipped cannot be null; use true or false")

def validateCreate (c : PlaceCreate) : Validated := do
  validateHour c.preferredHourFrom
  validateHour c.preferredHourTo
  validateDuration c.visitDurationMin
  validatePriority c.priority
  validateHourRange c.preferredHourFrom c.preferredHourTo

abbrev ValidPatch := { p : PlacePatch // validatePatch p = .ok () }

abbrev ValidCreate := { c : PlaceCreate // validateCreate c = .ok () }

end Validation

section Model

/-- Only such a patch is checked against the stored place. -/
def oneSided (p : PlacePatch) : Bool :=
  match p.preferredHourFrom, p.preferredHourTo with
  | .value _, .omitted | .omitted, .value _ => true
  | _, _ => false

def setFields (p : PlacePatch) (d : PlaceDocument) : PlaceDocument :=
  { d with
    preferredHourFrom := p.preferredHourFrom.apply d.preferredHourFrom
    preferredHourTo := p.preferredHourTo.apply d.preferredHourTo
    visitDurationMin := p.visitDurationMin.apply d.visitDurationMin
    priority := p.priority.apply d.priority
    skipped := p.skipped.apply d.skipped }

def fetchPlace (docs : List PlaceDocument) (id : ObjectId) : Option PlaceDocument := docs.find? fun d ↦ d.id = id

inductive Patched
  | notFound
  | invalidHours
  | updated (d : PlaceDocument)

def findOneAndUpdate (docs : List PlaceDocument) (id : ObjectId) (p : PlacePatch) : Patched × List PlaceDocument :=
  match fetchPlace docs id with
  | none => (.notFound, docs)
  | some d => (.updated (setFields p d), modifyById docs id (setFields p))

inductive Patching
  | start (id : ObjectId) (p : ValidPatch)
  | checked (id : ObjectId) (p : ValidPatch) (seen : PlaceDocument)
  | finished (answer : Patched)

def Patching.next (docs : List PlaceDocument) : Patching → Patching × List PlaceDocument
  | .start id p =>
    if oneSided p.1 then
      match fetchPlace docs id with
      | none => (.finished .notFound, docs)
      | some seen => if p.1.hoursConflict seen then (.finished .invalidHours, docs) else (.checked id p seen, docs)
    else
      let (answer, docs') := findOneAndUpdate docs id p.1
      (.finished answer, docs')
  | .checked id p _ =>
    let (answer, docs') := findOneAndUpdate docs id p.1
    (.finished answer, docs')
  | .finished answer => (.finished answer, docs)

structure Library where
  docs : List PlaceDocument
  calls : ℕ → Patching

/-- An access of a patch, or what else is done to the places. -/
inductive Event
  | call (i : ℕ)
  | upsert (newId : ObjectId) (place : ScrapedPlace) (info : ImportInfo)
  | enrich (id : ObjectId) (read : PlaceDocument) (api : PlacesApi) (now : DateTime)
  | insert (newId : ObjectId) (place : ValidCreate)
  | delete (id : ObjectId)

def step (s : Library) : Event → Library
  | .call i =>
    let (c, docs) := (s.calls i).next s.docs
    ⟨docs, Function.update s.calls i c⟩
  | .upsert newId place info => { s with docs := PlaceStore.upsertPlace s.docs newId place info }
  | .enrich id read api now =>
    { s with docs := modifyById s.docs id (PlaceStore.buildEnrichmentUpdate api now read).apply }
  | .insert newId place => { s with docs := s.docs ++ [insertPlace newId place.1] }
  | .delete id => { s with docs := s.docs.filter fun d ↦ d.id ≠ id }

end Model

section Invariant

structure InRange (d : PlaceDocument) : Prop where
  hourFrom : ∀ h ∈ d.preferredHourFrom, 0 ≤ h ∧ h ≤ 23
  hourTo : ∀ h ∈ d.preferredHourTo, 0 ≤ h ∧ h ≤ 23
  duration : ∀ m ∈ d.visitDurationMin, 0 < m

def HoursOrdered (d : PlaceDocument) : Prop := ∀ a ∈ d.preferredHourFrom, ∀ b ∈ d.preferredHourTo, a < b

def otherHour (p : PlacePatch) (d : PlaceDocument) : Option ℤ :=
  match p.preferredHourFrom with
  | .omitted => d.preferredHourFrom
  | _ => d.preferredHourTo

/-- The other hour of the place has been moved since the check, past the new one. -/
def overtaken (s : Library) : Event → Bool
  | .call i =>
    match s.calls i with
    | .checked id p seen => s.docs.any fun d ↦
      d.id = id && otherHour p.1 d ≠ otherHour p.1 seen && p.1.hoursConflict d
    | _ => false
  | _ => false

def Cleared : Patching → Prop
  | .checked _ p seen => oneSided p.1 = true ∧ p.1.hoursConflict seen = false
  | _ => True

structure Inv (s : Library) : Prop where
  inRange : ∀ d ∈ s.docs, InRange d
  ordered : ∀ d ∈ s.docs, HoursOrdered d
  cleared : ∀ i, Cleared (s.calls i)

variable {p : PlacePatch} {d seen : PlaceDocument} {s : Library}

theorem apply_given {α : Type} {c : Change α} {stored : Option α} {a : α} (h : a ∈ c.apply stored) :
    a ∈ given c ∨ a ∈ stored := by
  cases c with
  | omitted => exact .inr h
  | cleared => exact absurd h (Option.not_mem_none a)
  | value b => exact .inl h

theorem validatePatch_spec (h : validatePatch p = .ok ()) :
    (∀ a ∈ given p.preferredHourFrom, 0 ≤ a ∧ a ≤ 23) ∧
      (∀ b ∈ given p.preferredHourTo, 0 ≤ b ∧ b ≤ 23) ∧
      (∀ m ∈ given p.visitDurationMin, 0 < m) ∧
      ∀ a ∈ given p.preferredHourFrom, ∀ b ∈ given p.preferredHourTo, a < b := by
  simp only [validatePatch, validateHour, validateDuration, validatePriority, validateHourRange, Requests.then_ok,
    Requests.check_ok] at h
  exact ⟨h.1, h.2.1, h.2.2.1, h.2.2.2.2.1⟩

theorem insertPlace_sound {c : PlaceCreate} (h : validateCreate c = .ok ()) (newId : ObjectId) :
    InRange (insertPlace newId c) ∧ HoursOrdered (insertPlace newId c) := by
  simp only [validateCreate, validateHour, validateDuration, validatePriority, validateHourRange, Requests.then_ok,
    Requests.check_ok] at h
  obtain ⟨hfrom, hto, hduration, -, hrange⟩ := h
  exact ⟨⟨hfrom, hto, hduration⟩, hrange⟩

theorem setFields_inRange (hp : validatePatch p = .ok ()) (h : InRange d) : InRange (setFields p d) := by
  obtain ⟨hfrom, hto, hduration, -⟩ := validatePatch_spec hp
  refine ⟨fun a ha ↦ ?_, fun b hb ↦ ?_, fun m hm ↦ ?_⟩
  · exact (apply_given ha).elim (hfrom a) (h.hourFrom a)
  · exact (apply_given hb).elim (hto b) (h.hourTo b)
  · exact (apply_given hm).elim (hduration m) (h.duration m)

/-- The hours stay in order exactly if the patch does not conflict with the place as it is
when it is written. -/
theorem setFields_ordered_iff (hp : validatePatch p = .ok ()) (h : HoursOrdered d) :
    HoursOrdered (setFields p d) ↔ p.hoursConflict d = false := by
  obtain ⟨-, -, -, hrange⟩ := validatePatch_spec hp
  simp only [HoursOrdered, setFields, PlacePatch.hoursConflict]
  cases hfrom : p.preferredHourFrom with
  | omitted =>
    cases hto : p.preferredHourTo with
    | omitted => exact iff_of_true h rfl
    | cleared => exact iff_of_true (fun _ _ b hb ↦ absurd hb (Option.not_mem_none b)) rfl
    | value b =>
      cases hstored : d.preferredHourFrom with
      | none => simp [Change.apply]
      | some a => simp [Change.apply]
  | cleared =>
    cases hto : p.preferredHourTo with
    | omitted => exact iff_of_true (fun a ha ↦ absurd ha (Option.not_mem_none a)) rfl
    | cleared => exact iff_of_true (fun a ha ↦ absurd ha (Option.not_mem_none a)) rfl
    | value b => exact iff_of_true (fun a ha ↦ absurd ha (Option.not_mem_none a)) rfl
  | value a =>
    cases hto : p.preferredHourTo with
    | omitted =>
      cases hstored : d.preferredHourTo with
      | none => simp [Change.apply]
      | some b => simp [Change.apply]
    | cleared => exact iff_of_true (fun _ _ b hb ↦ absurd hb (Option.not_mem_none b)) rfl
    | value b =>
      rw [hfrom, hto] at hrange
      exact iff_of_true hrange rfl

theorem conflict_moved (hconflict : p.hoursConflict d = true) (hseen : p.hoursConflict seen = false) :
    otherHour p d ≠ otherHour p seen := by
  intro heq
  unfold PlacePatch.hoursConflict at hconflict hseen
  unfold otherHour at heq
  cases hfrom : p.preferredHourFrom with
  | omitted =>
    cases hto : p.preferredHourTo with
    | value b =>
      simp only [hfrom, hto] at hconflict hseen heq
      rw [heq, hseen] at hconflict
      exact absurd hconflict Bool.false_ne_true
    | omitted => simp [hfrom, hto] at hconflict
    | cleared => simp [hfrom, hto] at hconflict
  | cleared => simp [hfrom] at hconflict
  | value a =>
    cases hto : p.preferredHourTo with
    | omitted =>
      simp only [hfrom, hto] at hconflict hseen heq
      rw [heq, hseen] at hconflict
      exact absurd hconflict Bool.false_ne_true
    | value b => simp [hfrom, hto] at hconflict
    | cleared => simp [hfrom, hto] at hconflict

theorem conflict_oneSided (h : p.hoursConflict d = true) : oneSided p = true := by
  unfold PlacePatch.hoursConflict at h
  unfold oneSided
  cases hfrom : p.preferredHourFrom with
  | omitted =>
    cases hto : p.preferredHourTo with
    | value b => rfl
    | omitted => simp [hfrom, hto] at h
    | cleared => simp [hfrom, hto] at h
  | cleared => simp [hfrom] at h
  | value a =>
    cases hto : p.preferredHourTo with
    | omitted => rfl
    | value b => simp [hfrom, hto] at h
    | cleared => simp [hfrom, hto] at h

end Invariant

section Steps

variable {s : Library}

structure SamePreferences (d d' : PlaceDocument) : Prop where
  hourFrom : d'.preferredHourFrom = d.preferredHourFrom
  hourTo : d'.preferredHourTo = d.preferredHourTo
  duration : d'.visitDurationMin = d.visitDurationMin

theorem SamePreferences.inRange {d d' : PlaceDocument} (h : SamePreferences d d') (hd : InRange d) : InRange d' :=
  ⟨h.hourFrom ▸ hd.hourFrom, h.hourTo ▸ hd.hourTo, h.duration ▸ hd.duration⟩

theorem SamePreferences.ordered {d d' : PlaceDocument} (h : SamePreferences d d') (hd : HoursOrdered d) :
    HoursOrdered d' := by
  rw [HoursOrdered, h.hourFrom, h.hourTo]
  exact hd

theorem mem_modifyById {docs : List PlaceDocument} {id : ObjectId} {f : PlaceDocument → PlaceDocument}
    {d' : PlaceDocument} (h : d' ∈ modifyById docs id f) :
    d' ∈ docs ∧ d'.id ≠ id ∨ ∃ d ∈ docs, d.id = id ∧ d' = f d := by
  obtain ⟨d, hd, rfl⟩ := List.mem_map.mp h
  by_cases hid : d.id = id
  · rw [if_pos hid]
    exact .inr ⟨d, hd, hid, rfl⟩
  · rw [if_neg hid]
    exact .inl ⟨hd, hid⟩

theorem upsertPlace_cases {docs : List PlaceDocument} {newId : ObjectId} {place : ScrapedPlace} {info : ImportInfo}
    {d' : PlaceDocument} (h : d' ∈ PlaceStore.upsertPlace docs newId place info) :
    (∃ d ∈ docs, SamePreferences d d') ∨ SamePreferences { id := newId } d' := by
  unfold PlaceStore.upsertPlace at h
  split_ifs at h
  · unfold PlaceStore.upserted at h
    cases hat : docs.findIdx? (PlaceStore.matchesPlace place) with
    | some i =>
      rw [hat] at h
      obtain ⟨j, hj, rfl⟩ := List.mem_iff_getElem.mp h
      rw [List.length_modify] at hj
      refine .inl ⟨docs[j], List.getElem_mem hj, ?_⟩
      rw [List.getElem_modify]
      split_ifs
      · exact ⟨rfl, rfl, rfl⟩
      · exact ⟨rfl, rfl, rfl⟩
    | none =>
      rw [hat] at h
      rcases List.mem_append.mp h with h | h
      · exact .inl ⟨d', h, rfl, rfl, rfl⟩
      · obtain rfl := List.mem_singleton.mp h
        exact .inr ⟨rfl, rfl, rfl⟩
  · exact .inl ⟨d', h, rfl, rfl, rfl⟩

theorem apply_same (u : PlaceStore.EnrichmentUpdate) (d : PlaceDocument) : SamePreferences d (u.apply d) := by
  unfold PlaceStore.EnrichmentUpdate.apply
  cases u.details with
  | none => exact ⟨rfl, rfl, rfl⟩
  | some _ => exact ⟨rfl, rfl, rfl⟩

theorem blank_sound (newId : ObjectId) : InRange { id := newId } ∧ HoursOrdered { id := newId } := by
  refine ⟨⟨?_, ?_, ?_⟩, ?_⟩
  · exact fun h hh ↦ absurd hh (Option.not_mem_none h)
  · exact fun h hh ↦ absurd hh (Option.not_mem_none h)
  · exact fun m hm ↦ absurd hm (Option.not_mem_none m)
  · exact fun a ha ↦ absurd ha (Option.not_mem_none a)

/-- Whatever but a patch is done to the places: each has the preferences of one before, or
good ones. -/
theorem step_cases {e : Event} (he : ∀ i, e ≠ .call i) {d' : PlaceDocument} (h : d' ∈ (step s e).docs) :
    (∃ d ∈ s.docs, SamePreferences d d') ∨ InRange d' ∧ HoursOrdered d' := by
  cases e with
  | call i => exact absurd rfl (he i)
  | upsert newId place info =>
    rcases upsertPlace_cases h with hold | hnew
    · exact .inl hold
    · exact .inr ⟨hnew.inRange (blank_sound newId).1, hnew.ordered (blank_sound newId).2⟩
  | enrich id read api now =>
    rcases mem_modifyById h with ⟨hd, -⟩ | ⟨d, hd, -, rfl⟩
    · exact .inl ⟨d', hd, rfl, rfl, rfl⟩
    · exact .inl ⟨d, hd, apply_same _ d⟩
  | insert newId place =>
    rcases List.mem_append.mp h with hd | hd
    · exact .inl ⟨d', hd, rfl, rfl, rfl⟩
    · obtain rfl := List.mem_singleton.mp hd
      exact .inr (insertPlace_sound place.2 newId)
  | delete id => exact .inl ⟨d', (List.mem_filter.mp h).1, rfl, rfl, rfl⟩

theorem findOneAndUpdate_inRange {docs : List PlaceDocument} (hin : ∀ d ∈ docs, InRange d) (id : ObjectId)
    (p : ValidPatch) : ∀ d ∈ (findOneAndUpdate docs id p.1).2, InRange d := by
  intro d' hd'
  unfold findOneAndUpdate at hd'
  cases hfetch : fetchPlace docs id with
  | none =>
    rw [hfetch] at hd'
    exact hin d' hd'
  | some d =>
    rw [hfetch] at hd'
    rcases mem_modifyById hd' with ⟨hd, -⟩ | ⟨d, hd, -, rfl⟩
    · exact hin d' hd
    · exact setFields_inRange p.2 (hin d hd)

/-- A write keeps the hours in order exactly if no place of the id conflicts with it. -/
theorem findOneAndUpdate_ordered_iff {docs : List PlaceDocument} (hordered : ∀ d ∈ docs, HoursOrdered d) (id : ObjectId)
    (p : ValidPatch) : (∀ d ∈ (findOneAndUpdate docs id p.1).2, HoursOrdered d) ↔
      ∀ d ∈ docs, d.id = id → p.1.hoursConflict d = false := by
  unfold findOneAndUpdate
  cases hfetch : fetchPlace docs id with
  | none =>
    refine iff_of_true hordered fun d hd hid ↦ absurd hid ?_
    simpa using List.find?_eq_none.mp hfetch d hd
  | some found =>
    constructor
    · intro h d hd hid
      refine (setFields_ordered_iff p.2 (hordered d hd)).mp (h _ ?_)
      refine List.mem_map.mpr ⟨d, hd, ?_⟩
      rw [if_pos hid]
    · intro h d' hd'
      rcases mem_modifyById hd' with ⟨hd, -⟩ | ⟨d, hd, hid, rfl⟩
      · exact hordered d' hd
      · exact (setFields_ordered_iff p.2 (hordered d hd)).mpr (h d hd hid)

theorem not_conflict {p : PlacePatch} (h : oneSided p = false) (d : PlaceDocument) : p.hoursConflict d = false := by
  cases hconflict : p.hoursConflict d with
  | false => rfl
  | true =>
    rw [conflict_oneSided hconflict] at h
    exact absurd h.symm Bool.false_ne_true

theorem next_cases (docs : List PlaceDocument) {c : Patching} (hc : Cleared c) :
    (c.next docs).2 = docs ∧ Cleared (c.next docs).1 ∧ (∀ id p seen, c ≠ .checked id p seen) ∨
      ∃ id p answer, (c.next docs) = (.finished answer, (findOneAndUpdate docs id p.1).2) ∧
        (c = .start id p ∧ oneSided p.1 = false ∨ ∃ seen, c = .checked id p seen) := by
  cases c with
  | start id p =>
    simp only [Patching.next]
    by_cases hone : oneSided p.1 = true
    · left
      rw [if_pos hone]
      refine ⟨?_, ?_, fun _ _ _ h ↦ Patching.noConfusion h⟩
      · cases fetchPlace docs id with
        | none => rfl
        | some seen =>
          dsimp only
          split_ifs
          · rfl
          · rfl
      · cases fetchPlace docs id with
        | none => trivial
        | some seen =>
          dsimp only
          split_ifs with hconflict
          · trivial
          · exact ⟨hone, Bool.not_eq_true _ ▸ hconflict⟩
    · right
      rw [if_neg hone]
      exact ⟨id, p, _, rfl, .inl ⟨rfl, Bool.not_eq_true _ ▸ hone⟩⟩
  | checked id p seen => exact .inr ⟨id, p, _, rfl, .inr ⟨seen, rfl⟩⟩
  | finished answer => exact .inl ⟨rfl, trivial, fun _ _ _ h ↦ Patching.noConfusion h⟩

def AllInRange (s : Library) : Prop := (∀ d ∈ s.docs, InRange d) ∧ ∀ i, Cleared (s.calls i)

theorem step_calls_cleared (h : ∀ i, Cleared (s.calls i)) (e : Event) : ∀ i, Cleared ((step s e).calls i) := by
  cases e with
  | call j =>
    intro i
    simp only [step, Function.update_apply]
    split_ifs
    · rcases next_cases s.docs (h j) with ⟨-, hcleared, -⟩ | ⟨id, p, answer, hnext, -⟩
      · exact hcleared
      · rw [hnext]
        trivial
    · exact h i
  | upsert newId place info => exact h
  | enrich id read api now => exact h
  | insert newId place => exact h
  | delete id => exact h

theorem step_inRange (h : AllInRange s) (e : Event) : AllInRange (step s e) := by
  refine ⟨?_, step_calls_cleared h.2 e⟩
  by_cases he : ∀ i, e ≠ .call i
  · intro d' hd'
    rcases step_cases he hd' with ⟨d, hd, hsame⟩ | ⟨hin, -⟩
    · exact hsame.inRange (h.1 d hd)
    · exact hin
  · push Not at he
    obtain ⟨i, rfl⟩ := he
    rcases next_cases s.docs (h.2 i) with ⟨hdocs, -, -⟩ | ⟨id, p, answer, hnext, -⟩
    · simp only [step, hdocs]
      exact h.1
    · simp only [step, hnext]
      exact findOneAndUpdate_inRange h.1 id p

/-- A step keeps the hours in order exactly if no patch has been overtaken. -/
theorem step_ordered (h : Inv s) (e : Event) :
    overtaken s e = false ∧ Inv (step s e) ∨ ¬overtaken s e = false ∧ ¬∀ d ∈ (step s e).docs, HoursOrdered d := by
  have hin := step_inRange ⟨h.inRange, h.cleared⟩ e
  by_cases he : ∀ i, e ≠ .call i
  · left
    refine ⟨?_, hin.1, fun d' hd' ↦ ?_, hin.2⟩
    · cases e with
      | call i => exact absurd rfl (he i)
      | _ => rfl
    · rcases step_cases he hd' with ⟨d, hd, hsame⟩ | ⟨-, hordered⟩
      · exact hsame.ordered (h.ordered d hd)
      · exact hordered
  · push Not at he
    obtain ⟨i, rfl⟩ := he
    rcases next_cases s.docs (h.cleared i) with ⟨hdocs, -, hnot⟩ | ⟨id, p, answer, hnext, hwrites⟩
    · left
      refine ⟨?_, hin.1, ?_, hin.2⟩
      · cases hcall : s.calls i with
        | checked id p seen => exact absurd hcall (hnot id p seen)
        | start id p => simp only [overtaken, hcall]
        | finished answer => simp only [overtaken, hcall]
      · simp only [step, hdocs]
        exact h.ordered
    · have hdocs : (step s (.call i)).docs = (findOneAndUpdate s.docs id p.1).2 := by simp only [step, hnext]
      have hiff := findOneAndUpdate_ordered_iff h.ordered id p
      rw [← hdocs] at hiff
      have hovertaken : overtaken s (.call i) = false ↔ ∀ d ∈ s.docs, d.id = id → p.1.hoursConflict d = false := by
        rcases hwrites with ⟨hstart, hone⟩ | ⟨seen, hchecked⟩
        · have hnone : overtaken s (.call i) = false := by simp only [overtaken, hstart]
          exact iff_of_true hnone fun d _ _ ↦ not_conflict hone d
        · have hcleared := h.cleared i
          rw [hchecked] at hcleared
          simp only [overtaken, hchecked, List.any_eq_false]
          refine forall₂_congr fun d hd ↦ ?_
          rw [Bool.and_eq_true, Bool.and_eq_true, decide_eq_true_eq, decide_eq_true_eq]
          constructor
          · intro hno hid
            by_contra hconflict
            have hconflict := (Bool.not_eq_false _).mp hconflict
            exact hno ⟨⟨hid, conflict_moved hconflict hcleared.2⟩, hconflict⟩
          · intro hno hall
            rw [hno hall.1.1] at hall
            exact Bool.false_ne_true hall.2
      by_cases hall : ∀ d ∈ s.docs, d.id = id → p.1.hoursConflict d = false
      · exact .inl ⟨hovertaken.mpr hall, hin.1, hiff.mpr hall, hin.2⟩
      · exact .inr ⟨fun h ↦ hall (hovertaken.mp h), fun h ↦ hall (hiff.mp h)⟩

end Steps

section Results

def opened (requests : ℕ → ObjectId × ValidPatch) : Library := ⟨[], fun i ↦ .start (requests i).1 (requests i).2⟩

/-- However patches, imports, enrichments, new places and deletions interleave: what is
stored is in range, and the hours of all places stay in order exactly if between the check
of a one-sided patch and its write nobody moves the other hour past the new one. -/
theorem preferences_ordered_iff (requests : ℕ → ObjectId × ValidPatch) (events : List Event) :
    (∀ t ∈ trace step (opened requests) events, ∀ d ∈ t.after.docs, InRange d) ∧
      ((∀ t ∈ trace step (opened requests) events, ∀ d ∈ t.after.docs, HoursOrdered d) ↔
        ∀ t ∈ trace step (opened requests) events, overtaken t.before t.event = false) := by
  have hempty : ∀ {P : PlaceDocument → Prop}, ∀ d ∈ (opened requests).docs, P d :=
    fun d hd ↦ absurd hd List.not_mem_nil
  have hcleared : ∀ i, Cleared ((opened requests).calls i) := fun _ ↦ trivial
  have hinv : Inv (opened requests) := ⟨hempty, hempty, hcleared⟩
  have hopen : AllInRange (opened requests) := ⟨hempty, hcleared⟩
  constructor
  · intro t ht
    obtain ⟨hbefore, hafter⟩ := trace_invariant hopen (fun _ e h ↦ step_inRange h e) events t ht
    rw [hafter]
    exact (step_inRange hbefore t.event).1
  · exact trace_iff hinv (fun _ h ↦ h.ordered) (fun _ e h ↦ step_ordered h e) events

def cafeId : ObjectId := ⟨"65f0c0ffee00000000005f01", by decide⟩

def latePatch : ValidPatch := ⟨{ preferredHourFrom := .value 15 }, by decide⟩

def earlyPatch : ValidPatch := ⟨{ preferredHourTo := .value 12 }, by decide⟩

/-- Each of two patches passes its check before the other is written. -/
example : overtaken
    (run step (opened fun i ↦ (cafeId, if i = 0 then latePatch else earlyPatch))
      [.insert cafeId ⟨{ name := "Cafe", preferredHourFrom := some 9, preferredHourTo := some 18 }, by decide⟩, .call 0,
        .call 1, .call 0]) (.call 1) = true := by
  decide

end Results

end TravelPlanner.PlacePreferences
