import Mathlib.Data.List.Nodup
import Mathlib.Logic.Function.Basic
import TravelPlanner.Runs

namespace TravelPlanner.PlaceList

open Runs

abbrev PlaceId := String

structure Place (V : Type) where
  id : PlaceId
  value : V
  deriving DecidableEq, Repr

inductive Slot (V : Type)
  | place (p : Place V)
  | undefined
  | hole
  deriving DecidableEq, Repr

/-- What a call keeps across its request: `patch` an index and the value it found
there, `remove` the whole list. -/
inductive Memo (V : Type)
  | patch (index : ℕ) (previous : Place V)
  | remove (previous : List (Slot V))
  deriving DecidableEq, Repr

structure Request (V : Type) where
  id : PlaceId
  memo : Memo V
  deriving DecidableEq, Repr

structure PlacesState (V : Type) where
  places : List (Slot V)
  error : Option String := none
  /-- One entry for every request made, `none` once it has settled. -/
  requests : List (Option (Request V)) := []
  /-- What the server has last confirmed of a place; nothing of a deleted one. -/
  confirmed : PlaceId → Option V

variable {V : Type}

/-- How the server answers a request; the answer to a patch carries the place. -/
inductive Answer (V : Type)
  | patched (updated : V)
  | patchFailed (message : String)
  | removed
  | removeFailed (message : String)
  deriving DecidableEq, Repr

inductive Event (V : Type)
  | patch (id : PlaceId) (change : V → V)
  | remove (id : PlaceId)
  | answered (request : ℕ) (a : Answer V)

def load (loaded : List (Place V)) : PlacesState V where
  places := loaded.map .place
  confirmed := fun id ↦ (loaded.find? fun p ↦ p.id = id).map Place.value

/-- `places.findIndex((p) => p.id === id)` with the entry found; `none` is the error
that reading the id of a missing entry raises. -/
def findIndex (id : PlaceId) : List (Slot V) → Option (Option (ℕ × Place V))
  | [] => some none
  | .place p :: places =>
    if p.id = id then some (some (0, p)) else (findIndex id places).map (Option.map fun r ↦ (r.1 + 1, r.2))
  | _ :: _ => none

/-- `places.filter((p) => p.id !== id)`, which skips holes. -/
def filterOut (id : PlaceId) : List (Slot V) → Option (List (Slot V))
  | [] => some []
  | .hole :: places => filterOut id places
  | .undefined :: _ => none
  | .place p :: places => (filterOut id places).map fun rest ↦ if p.id = id then rest else .place p :: rest

/-- `[...places]` -/
def spread (places : List (Slot V)) : List (Slot V) :=
  places.map fun slot ↦
    match slot with
    | .hole => .undefined
    | slot => slot

/-- `places[index] = slot` -/
def assign (places : List (Slot V)) (index : ℕ) (slot : Slot V) : List (Slot V) :=
  if index < places.length then places.set index slot
  else places ++ List.replicate (index - places.length) .hole ++ [slot]

namespace PlacesState

variable (s : PlacesState V)

def pending (i : ℕ) : Option (Request V) := s.requests[i]?.join

def settle (i : ℕ) : PlacesState V := { s with requests := s.requests.set i none }

def patch (id : PlaceId) (change : V → V) : PlacesState V :=
  match findIndex id s.places with
  | some (some (index, previous)) =>
    { s with
      places := assign s.places index (.place { previous with value := change previous.value })
      requests := s.requests ++ [some ⟨id, .patch index previous⟩] }
  | _ => s

def remove (id : PlaceId) : PlacesState V :=
  match filterOut id s.places with
  | some rest => { s with places := rest, requests := s.requests ++ [some ⟨id, .remove (spread s.places)⟩] }
  | none => s

def answered (i : ℕ) (id : PlaceId) : Memo V → Answer V → PlacesState V
  | .patch index _, .patched updated =>
    { s.settle i with
      places := assign s.places index (.place ⟨id, updated⟩)
      confirmed := Function.update s.confirmed id ((s.confirmed id).map fun _ ↦ updated) }
  | .patch index previous, .patchFailed message =>
    { s.settle i with places := assign s.places index (.place previous), error := some message }
  | .remove _, .removed => { s.settle i with confirmed := Function.update s.confirmed id none }
  | .remove previous, .removeFailed message => { s.settle i with places := previous, error := some message }
  | _, _ => s

end PlacesState

def step (s : PlacesState V) : Event V → PlacesState V
  | .patch id change => s.patch id change
  | .remove id => s.remove id
  | .answered i a =>
    match s.pending i with
    | none => s
    | some r => s.answered i r.id r.memo a

def others (id : PlaceId) (places : List (Slot V)) : List (Slot V) :=
  places.filter fun slot ↦
    match slot with
    | .place p => p.id ≠ id
    | _ => false

def ids (places : List (Slot V)) : List PlaceId :=
  places.filterMap fun slot ↦
    match slot with
    | .place p => some p.id
    | _ => none

def subject (s : PlacesState V) : Event V → Option PlaceId
  | .patch id _ | .remove id => some id
  | .answered i _ => (s.pending i).map Request.id

structure Exact (s : PlacesState V) : Prop where
  solid : ∀ slot ∈ s.places, ∃ p, slot = .place p
  confirmed : ∀ (id : PlaceId) (v : V), .place ⟨id, v⟩ ∈ s.places ↔ s.confirmed id = some v

structure Converging (t : Transition (PlacesState V) (Event V)) : Prop where
  distinct : (ids t.after.places).Nodup
  frame : ∀ id, subject t.before t.event = some id → others id t.after.places = others id t.before.places
  exact : (∀ i, t.after.pending i = none) → Exact t.after

section Lists

variable {id : PlaceId} {places rest : List (Slot V)} {i : ℕ} {p q : Place V}

theorem findIndex_spec (h : findIndex id places = some (some (i, p))) : places[i]? = some (.place p) ∧ p.id = id := by
  induction places generalizing i with
  | nil => simp [findIndex] at h
  | cons slot places ih =>
    cases slot with
    | undefined => simp [findIndex] at h
    | hole => simp [findIndex] at h
    | place q =>
      simp only [findIndex] at h
      split_ifs at h with hq
      · obtain ⟨rfl, rfl⟩ := Prod.mk.inj (Option.some.inj (Option.some.inj h))
        exact ⟨rfl, hq⟩
      · obtain ⟨found, hfound, hmap⟩ := Option.map_eq_some_iff.mp h
        obtain ⟨⟨j, r⟩, rfl, heq⟩ := Option.map_eq_some_iff.mp hmap
        obtain ⟨rfl, rfl⟩ := Prod.mk.inj heq
        exact ih hfound

theorem filterOut_spec (h : filterOut id places = some rest) : rest = others id places := by
  induction places generalizing rest with
  | nil =>
    obtain rfl := Option.some.inj h
    rfl
  | cons slot places ih =>
    cases slot with
    | undefined => simp [filterOut] at h
    | hole => exact ih h
    | place q =>
      obtain ⟨rest', hrest, rfl⟩ := Option.map_eq_some_iff.mp h
      rw [ih hrest]
      by_cases hq : q.id = id <;> simp [others, hq]

theorem spread_solid (h : ∀ slot ∈ places, ∃ p, slot = Slot.place p) : spread places = places := by
  rw [spread]
  conv_rhs => rw [← List.map_id places]
  refine List.map_congr_left fun slot hslot ↦ ?_
  obtain ⟨p, rfl⟩ := h slot hslot
  rfl

theorem mem_ids : id ∈ ids places ↔ ∃ p, .place p ∈ places ∧ p.id = id := by
  simp only [ids, List.mem_filterMap]
  constructor
  · rintro ⟨slot, hslot, hid⟩
    cases slot with
    | place p => exact ⟨p, hslot, Option.some.inj hid⟩
    | undefined => cases hid
    | hole => cases hid
  · rintro ⟨p, hp, rfl⟩
    exact ⟨.place p, hp, rfl⟩

theorem mem_others : .place p ∈ others id places ↔ .place p ∈ places ∧ p.id ≠ id := by
  simp [others]

theorem mem_ids_others {y : PlaceId} : y ∈ ids (others id places) ↔ y ∈ ids places ∧ y ≠ id := by
  simp only [mem_ids, mem_others]
  constructor
  · rintro ⟨p, ⟨hp, hne⟩, rfl⟩
    exact ⟨⟨p, hp, rfl⟩, hne⟩
  · rintro ⟨⟨p, hp, rfl⟩, hne⟩
    exact ⟨p, ⟨hp, hne⟩, rfl⟩

theorem others_sublist (id : PlaceId) (places : List (Slot V)) : (ids (others id places)).Sublist (ids places) :=
  List.filter_sublist.filterMap _

theorem others_others (id : PlaceId) (places : List (Slot V)) : others id (others id places) = others id places :=
  List.filter_filter.trans (by simp [others])

theorem same_place (h : (ids places).Nodup) (hp : .place p ∈ places) (hq : .place q ∈ places) (hid : p.id = q.id) :
    p = q := by
  induction places with
  | nil => simp at hp
  | cons slot places ih =>
    have htail : (ids places).Nodup := by
      cases slot with
      | place r => exact (List.nodup_cons.mp h).2
      | undefined => exact h
      | hole => exact h
    have hhead : ∀ r r', slot = .place r → .place r' ∈ places → r.id ≠ r'.id := by
      rintro r r' rfl hr' heq
      exact (List.nodup_cons.mp h).1 (mem_ids.mpr ⟨r', hr', heq.symm⟩)
    rcases List.mem_cons.mp hp with hp | hp <;> rcases List.mem_cons.mp hq with hq | hq
    · exact Slot.place.inj (hp.trans hq.symm)
    · exact absurd hid (hhead p q hp.symm hq)
    · exact absurd hid.symm (hhead q p hq.symm hp)
    · exact ih htail hp hq

theorem ids_set (h : places[i]? = some (.place p)) (hid : q.id = p.id) :
    ids (places.set i (.place q)) = ids places := by
  induction places generalizing i with
  | nil => rfl
  | cons slot places ih =>
    cases i with
    | zero =>
      obtain rfl := Option.some.inj h
      simp [ids, hid]
    | succ i =>
      have htail := ih h
      simp only [ids, List.set_cons_succ, List.filterMap_cons] at htail ⊢
      rw [htail]

theorem others_set (h : places[i]? = some (.place p)) (hp : p.id = id) (hq : q.id = id) :
    others id (places.set i (.place q)) = others id places := by
  induction places generalizing i with
  | nil => rfl
  | cons slot places ih =>
    cases i with
    | zero =>
      obtain rfl := Option.some.inj h
      simp [others, hp, hq]
    | succ i =>
      have htail := ih h
      simp only [others, List.set_cons_succ, List.filter_cons] at htail ⊢
      rw [htail]

end Lists

section Pending

variable {s : PlacesState V} {i j : ℕ} {r r' : Request V}

def PlacesState.Patching (s : PlacesState V) (id : PlaceId) : Prop :=
  ∃ i index previous, s.pending i = some ⟨id, .patch index previous⟩

def PlacesState.Removing (s : PlacesState V) (i : ℕ) (id : PlaceId) (previous : List (Slot V)) : Prop :=
  s.pending i = some ⟨id, .remove previous⟩

theorem pending_settle : (s.settle i).pending j = some r ↔ j ≠ i ∧ s.pending j = some r := by
  simp only [PlacesState.pending, PlacesState.settle, List.getElem?_set]
  by_cases hij : i = j
  · subst hij
    by_cases hi : i < s.requests.length <;> simp [hi]
  · simp [hij, Ne.symm hij]

theorem pending_append {places : List (Slot V)} :
    ({ s with places := places, requests := s.requests ++ [some r] } : PlacesState V).pending i = some r' ↔
      s.pending i = some r' ∨ i = s.requests.length ∧ r' = r := by
  simp only [PlacesState.pending]
  rcases Nat.lt_trichotomy i s.requests.length with hi | hi | hi
  · rw [List.getElem?_append_left hi]
    simp [Nat.ne_of_lt hi]
  · rw [hi, List.getElem?_concat_length]
    simp [eq_comm]
  · rw [List.getElem?_eq_none (by simp; omega), List.getElem?_eq_none (Nat.le_of_lt hi)]
    simp [Nat.ne_of_gt hi]

theorem removing_append {places old previous : List (Slot V)} {id y : PlaceId} :
    ({ s with places := places, requests := s.requests ++ [some ⟨id, .remove old⟩] } : PlacesState V).Removing i y
      previous ↔ s.Removing i y previous ∨ i = s.requests.length ∧ y = id ∧ previous = old := by
  rw [PlacesState.Removing, pending_append, Request.mk.injEq, Memo.remove.injEq]
  rfl

end Pending

end TravelPlanner.PlaceList
