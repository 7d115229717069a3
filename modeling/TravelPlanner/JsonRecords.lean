import Mathlib.Data.List.Sort
import Mathlib.Data.String.Basic
import TravelPlanner.Fallible
import TravelPlanner.JsonText

namespace TravelPlanner.JsonRecords

open Fallible JsonText

variable {F α β σ : Type}

section Keys

def get? (members : List (String × Json F)) (key : String) : Option (Json F) := members.reverse.lookup key

def byKey (a b : String × Json F) : Prop := a.1 ≤ b.1

instance : DecidableRel (@byKey F) := fun a b ↦ inferInstanceAs (Decidable (a.1 ≤ b.1))

mutual

def sortKeys : Json F → Json F
  | .null => .null
  | .bool b => .bool b
  | .int n => .int n
  | .float x => .float x
  | .str s => .str s
  | .arr items => .arr (sortItems items)
  | .obj members => .obj ((sortMembers members).insertionSort byKey)

def sortItems : List (Json F) → List (Json F)
  | [] => []
  | v :: items => sortKeys v :: sortItems items

def sortMembers : List (String × Json F) → List (String × Json F)
  | [] => []
  | (k, v) :: members => (k, sortKeys v) :: sortMembers members

end

theorem sortItems_eq (items : List (Json F)) : sortItems items = items.map sortKeys := by
  induction items with
  | nil => rfl
  | cons v items ih => rw [sortItems, ih, List.map_cons]

theorem sortMembers_eq (members : List (String × Json F)) :
    sortMembers members = members.map fun f ↦ (f.1, sortKeys f.2) := by
  induction members with
  | nil => rfl
  | cons f members ih => rw [sortMembers, ih, List.map_cons]

theorem sortKeys_null {v : Json F} (h : sortKeys v = .null) : v = .null := by
  cases v with
  | null => rfl
  | _ => cases h

theorem lookup_of_mem {members : List (String × Json F)} (hkeys : (members.map Prod.fst).Nodup) {k : String}
    {v : Json F} (h : (k, v) ∈ members) : members.lookup k = some v := by
  induction members with
  | nil => cases h
  | cons f members ih =>
    obtain ⟨hhead, htail⟩ := List.nodup_cons.mp hkeys
    rcases List.mem_cons.mp h with rfl | h
    · exact List.lookup_cons_self
    · have hne : k ≠ f.1 := by
        intro he
        exact hhead (he ▸ List.mem_map_of_mem h)
      rw [List.lookup_cons, beq_eq_false_iff_ne.mpr hne]
      exact ih htail h

theorem get?_of_mem {members : List (String × Json F)} (hkeys : (members.map Prod.fst).Nodup) {k : String}
    {v : Json F} (h : (k, v) ∈ members) : get? members k = some v := by
  have hperm := members.reverse_perm
  have hnodup : (members.reverse.map Prod.fst).Nodup := (hperm.map Prod.fst).nodup_iff.mpr hkeys
  exact lookup_of_mem hnodup (hperm.mem_iff.mpr h)

/-- Sorting an object whose keys are distinct leaves each member under its key. -/
theorem get?_sorted {members : List (String × Json F)} (hkeys : (members.map Prod.fst).Nodup) {k : String}
    {v : Json F} (h : (k, v) ∈ members) :
    get? ((sortMembers members).insertionSort byKey) k = some (sortKeys v) := by
  have hperm := List.perm_insertionSort byKey (sortMembers members)
  have hsame : (sortMembers members).map Prod.fst = members.map Prod.fst := by
    rw [sortMembers_eq, List.map_map]
    rfl
  apply get?_of_mem
  · rw [(hperm.map Prod.fst).nodup_iff, hsame]
    exact hkeys
  · rw [hperm.mem_iff, sortMembers_eq]
    exact List.mem_map.mpr ⟨(k, v), h, rfl⟩

end Keys

section Codecs

/-- How the values of a type are dumped, and loaded again after their keys were
sorted. Only values of the kind that is dumped are loaded. -/
structure Codec (F α : Type) where
  dump : α → Json F
  load : Json F → Option α
  load_dump : ∀ a, load (sortKeys (dump a)) = some a

namespace Codec

def int : Codec F ℤ where
  dump := .int
  load
    | .int n => some n
    | _ => none
  load_dump _ := rfl

def textual (write : α → String) (read : String → Option α) (h : ∀ a, read (write a) = some a) : Codec F α where
  dump a := .str (write a)
  load
    | .str s => read s
    | _ => none
  load_dump := h

def str : Codec F String := textual id some fun _ ↦ rfl

def literal (text : String) : Codec F Unit :=
  textual (fun _ ↦ text) (fun s ↦ if s = text then some () else none) fun _ ↦ if_pos rfl

def nullable (c : Codec F α) (h : ∀ a, c.dump a ≠ .null) : Codec F (Option α) where
  dump
    | none => .null
    | some a => c.dump a
  load
    | .null => some none
    | v => (c.load v).map some
  load_dump a := by
    cases a with
    | none => rfl
    | some a =>
      have hne : sortKeys (c.dump a) ≠ .null := mt sortKeys_null (h a)
      have hload := c.load_dump a
      split
      · next hnull => exact absurd hnull hne
      · rw [hload, Option.map_some]

def list (c : Codec F α) : Codec F (List α) where
  dump l := .arr (l.map c.dump)
  load
    | .arr items => items.mapM c.load
    | _ => none
  load_dump l := by
    simp only [sortKeys, sortItems_eq, List.map_map]
    exact mapM_map c.load_dump l

end Codec

/-- The fields of a model: the dumped members of a record, the constructor call on
the loaded ones and what it returns for the members of a given record. -/
structure Fields (F σ α : Type) where
  dumps : List (String × (σ → Json F))
  load : (String → Option (Json F)) → Option α
  value : σ → α
  load_dump : ∀ (s : σ) (get : String → Option (Json F)),
    (∀ f ∈ dumps, get f.1 = some (sortKeys (f.2 s))) → load get = some (value s)

namespace Fields

def build (a : α) : Fields F σ α := ⟨[], fun _ ↦ some a, fun _ ↦ a, fun _ _ _ ↦ rfl⟩

def required (r : Fields F σ (α → β)) (key : String) (c : Codec F α) (proj : σ → α) : Fields F σ β where
  dumps := r.dumps ++ [(key, fun s ↦ c.dump (proj s))]
  load get := do
    let f ← r.load get
    let v ← get key
    let a ← c.load v
    return f a
  value s := r.value s (proj s)
  load_dump s get h := by
    have hkey := h (key, fun s ↦ c.dump (proj s)) (by simp)
    simp only at hkey
    rw [r.load_dump s get fun f hf ↦ h f (List.mem_append_left _ hf), hkey]
    simp [c.load_dump]

/-- A field that may be missing; it is dumped nevertheless. -/
def withDefault (r : Fields F σ (α → β)) (key : String) (c : Codec F α) (default : α) (proj : σ → α) :
    Fields F σ β where
  dumps := r.dumps ++ [(key, fun s ↦ c.dump (proj s))]
  load get := do
    let f ← r.load get
    match get key with
    | none => return f default
    | some v =>
      let a ← c.load v
      return f a
  value s := r.value s (proj s)
  load_dump s get h := by
    have hkey := h (key, fun s ↦ c.dump (proj s)) (by simp)
    simp only at hkey
    rw [r.load_dump s get fun f hf ↦ h f (List.mem_append_left _ hf), hkey]
    simp [c.load_dump]

theorem build_load {a b : α} {get : String → Option (Json F)} :
    (build a : Fields F σ α).load get = some b ↔ a = b := Option.some_inj

theorem required_load {r : Fields F σ (α → β)} {key : String} {c : Codec F α} {proj : σ → α}
    {get : String → Option (Json F)} {b : β} :
    (r.required key c proj).load get = some b ↔
      ∃ f, r.load get = some f ∧ ∃ a, (get key).bind c.load = some a ∧ f a = b := by
  simp only [required, Option.bind_eq_bind, Option.bind_eq_some_iff, Option.pure_def, Option.some_inj]
  constructor
  · rintro ⟨f, hf, v, hv, a, ha, hb⟩
    exact ⟨f, hf, a, ⟨v, hv, ha⟩, hb⟩
  · rintro ⟨f, hf, a, ⟨v, hv, ha⟩, hb⟩
    exact ⟨f, hf, v, hv, a, ha, hb⟩

def dump (r : Fields F σ α) (s : σ) : List (String × Json F) := r.dumps.map fun f ↦ (f.1, f.2 s)

end Fields

def Codec.model (r : Fields F α α) (hvalue : ∀ a, r.value a = a) (hkeys : (r.dumps.map Prod.fst).Nodup) :
    Codec F α where
  dump a := .obj (r.dump a)
  load
    | .obj members => r.load (get? members)
    | _ => none
  load_dump a := by
    have hnodup : ((r.dump a).map Prod.fst).Nodup := by
      rw [Fields.dump, List.map_map]
      exact hkeys
    have hload := r.load_dump a (get? ((sortMembers (r.dump a)).insertionSort byKey)) fun f hf ↦
      get?_sorted hnodup (List.mem_map.mpr ⟨f, hf, rfl⟩)
    rw [hvalue] at hload
    exact hload

end Codecs

end TravelPlanner.JsonRecords
