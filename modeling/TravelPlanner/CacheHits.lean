import Mathlib.Data.List.ProdSigma
import TravelPlanner.MatrixCoherence
import TravelPlanner.RoutesDecoding

namespace TravelPlanner.CacheHits

open Requests Engine Tables MatrixCache
open RoutesDecoding (decodeElements MatrixElement)

section Batches

structure Batch where
  mode : TransportMode
  storedAt : ℤ
  entries : List MatrixEntry
  decoded : ∃ originIds destIds items, decodeElements originIds destIds items = .ok entries

def storeMatrix (cache : Cache) (mode : TransportMode) (now : ℤ) (entries : List MatrixEntry) : Cache :=
  if entries = [] then cache else entries.foldl (fun cache e ↦ storeEntry cache mode now e) cache

def storeBatches (batches : List Batch) : Cache :=
  batches.foldl (fun cache b ↦ storeMatrix cache b.mode b.storedAt b.entries) .empty

def rowOf (mode : TransportMode) (now : ℤ) (e : MatrixEntry) : CacheRow :=
  ⟨e.originId, e.destId, mode, e.distanceM, e.durationS, now⟩

def written (batches : List Batch) : List CacheRow :=
  batches.flatMap fun b ↦ b.entries.map (rowOf b.mode b.storedAt)

def lastStored (batches : List Batch) (o d : PlaceId) (mode : TransportMode) : Option CacheRow :=
  (written batches).reverse.find? (·.key = (o, d, mode))

end Batches

section Contents

variable {batches : List Batch} {r : CacheRow}

theorem storeMatrix_eq (cache : Cache) (mode : TransportMode) (now : ℤ) (entries : List MatrixEntry) :
    storeMatrix cache mode now entries = (entries.map (rowOf mode now)).foldl Table.upsert cache := by
  rw [storeMatrix, List.foldl_map]
  split_ifs with hnil
  · rw [hnil, List.foldl_nil]
  · rfl

theorem storeBatches_eq (batches : List Batch) :
    storeBatches batches = (written batches).foldl Table.upsert .empty := by
  rw [storeBatches, written, List.foldl_flatMap]
  simp only [storeMatrix_eq]

/-- The cache holds the last row stored for a pair and a mode, and nothing else. -/
theorem find_storeBatches (batches : List Batch) (o d : PlaceId) (mode : TransportMode) :
    (storeBatches batches).find (o, d, mode) = lastStored batches o d mode := by
  rw [storeBatches_eq, Table.find_foldl_upsert, Table.find_empty, Option.or_none, lastStored]

theorem lastStored_of_mem (hr : r ∈ (storeBatches batches).rows) :
    lastStored batches r.originId r.destId r.transportMode = some r := by
  rw [← find_storeBatches]
  exact Table.find_of_mem hr

theorem row_apart (hr : r ∈ (storeBatches batches).rows) : r.originId ≠ r.destId := by
  have hwritten := List.mem_of_find?_eq_some (lastStored_of_mem hr)
  obtain ⟨b, -, hb⟩ := List.mem_flatMap.mp (List.mem_reverse.mp hwritten)
  obtain ⟨e, he, rfl⟩ := List.mem_map.mp hb
  obtain ⟨originIds, destIds, items, hdecoded⟩ := b.decoded
  exact RoutesDecoding.decodeElements_apart hdecoded he

end Contents

section Counting

variable {cache : Cache} {now : ℤ} {placeIds : List PlaceId} {mode : TransportMode} {o d : PlaceId}

def pairOf (r : CacheRow) : PlaceId × PlaceId := (r.originId, r.destId)

theorem mem_originDestPairs : (o, d) ∈ originDestPairs placeIds ↔ o ∈ placeIds ∧ d ∈ placeIds ∧ o ≠ d := by
  rw [originDestPairs, List.mem_filter, List.mem_product, decide_eq_true_eq, and_assoc]

theorem mem_freshRows {r : CacheRow} (h : r ∈ freshRows cache now placeIds mode) :
    r ∈ cache.rows ∧ r.transportMode = mode ∧ r.originId ∈ placeIds ∧ r.destId ∈ placeIds ∧
      now - ttlForMode mode ≤ r.computedAt := by
  obtain ⟨hr, hfresh⟩ := List.mem_filter.mp h
  exact ⟨hr, of_decide_eq_true hfresh⟩

theorem freshRows_nodup (cache : Cache) (now : ℤ) (placeIds : List PlaceId) (mode : TransportMode) :
    ((freshRows cache now placeIds mode).map pairOf).Nodup := by
  have hkeys : ((freshRows cache now placeIds mode).map CacheRow.key).Nodup :=
    cache.nodup.sublist (List.filter_sublist.map _)
  refine List.Nodup.map_on ?_ hkeys.of_map
  intro r hr r' hr' hids
  obtain ⟨horigin, hdest⟩ := Prod.mk.inj hids
  refine List.inj_on_of_nodup_map hkeys hr hr' ?_
  rw [CacheRow.key, CacheRow.key, horigin, hdest, (mem_freshRows hr).2.1, (mem_freshRows hr').2.1]

/-- As many fresh pairs as requested ones are the requested ones, where no row leads from
a place to itself. -/
theorem fresh_of_count (hapart : ∀ r ∈ cache.rows, r.originId ≠ r.destId)
    (hcount : (originDestPairs placeIds).length ≤ ((freshRows cache now placeIds mode).map pairOf).length) :
    ((freshRows cache now placeIds mode).map pairOf).Perm (originDestPairs placeIds) := by
  refine (List.subperm_of_subset (freshRows_nodup cache now placeIds mode) ?_).perm_of_length_le hcount
  intro p hp
  obtain ⟨r, hr, rfl⟩ := List.mem_map.mp hp
  obtain ⟨hrow, -, horigin, hdest, -⟩ := mem_freshRows hr
  exact mem_originDestPairs.mpr ⟨horigin, hdest, hapart r hrow⟩

theorem loadCachedMatrix_some {m : TimedMatrix} (h : loadCachedMatrix cache now placeIds mode = some m) :
    (originDestPairs placeIds).length ≤ ((freshRows cache now placeIds mode).map pairOf).length ∧
      m.matrix.entries = updateEntries (fun _ ↦ none) ((freshRows cache now placeIds mode).map CacheRow.entry) := by
  rw [loadCachedMatrix] at h
  split_ifs at h with hmiss
  obtain rfl := Option.some.inj h
  have hdedup : ((freshRows cache now placeIds mode).map pairOf).dedup =
      (freshRows cache now placeIds mode).map pairOf :=
    (freshRows_nodup cache now placeIds mode).dedup
  refine ⟨?_, rfl⟩
  rw [← hdedup]
  exact not_lt.mp (not_or.mp hmiss).2

theorem updateEntries_of_mem {entries : List MatrixEntry} (m : EntryMap)
    (h : (o, d) ∈ entries.map fun e ↦ (e.originId, e.destId)) :
    ∃ e ∈ entries, (e.originId, e.destId) = (o, d) ∧ updateEntries m entries (o, d) = some e := by
  induction entries using List.reverseRecOn with
  | nil => cases h
  | append_singleton entries a ih =>
    rw [updateEntries, List.foldl_append, List.foldl_cons, List.foldl_nil]
    by_cases hkey : (a.originId, a.destId) = (o, d)
    · exact ⟨a, by simp, hkey, by rw [← hkey, Function.update_self]⟩
    · have hold : (o, d) ∈ entries.map fun e ↦ (e.originId, e.destId) := by
        rw [List.map_append, List.mem_append] at h
        refine h.resolve_right fun hlast ↦ hkey ?_
        exact (List.mem_singleton.mp hlast).symm
      obtain ⟨e, he, hids, hvalue⟩ := ih hold
      refine ⟨e, List.mem_append_left _ he, hids, ?_⟩
      rw [Function.update_of_ne (Ne.symm hkey)]
      exact hvalue

end Counting

section Hits

variable {cache : Cache} {now : ℤ} {placeIds : List PlaceId} {mode : TransportMode} {m : TimedMatrix} {o d : PlaceId}

/-- What an answer from the cache holds for a pair, in terms of its rows. -/
theorem loaded_entry (h : loadCachedMatrix cache now placeIds mode = some m)
    (hpair : (o, d) ∈ (freshRows cache now placeIds mode).map pairOf) :
    ∃ r ∈ cache.rows, r.key = (o, d, mode) ∧ now - ttlForMode mode ≤ r.computedAt ∧
      m.matrix.entries (o, d) = some r.entry := by
  have hentry : (o, d) ∈ ((freshRows cache now placeIds mode).map CacheRow.entry).map
      fun e ↦ (e.originId, e.destId) := by
    rw [List.map_map]
    exact hpair
  obtain ⟨e, he, hids, hvalue⟩ := updateEntries_of_mem (fun _ ↦ none) hentry
  obtain ⟨r, hr, rfl⟩ := List.mem_map.mp he
  obtain ⟨hrow, hmode, -, -, hfresh⟩ := mem_freshRows hr
  obtain ⟨horigin, hdest⟩ := Prod.mk.inj hids
  refine ⟨r, hrow, ?_, hfresh, ?_⟩
  · rw [CacheRow.key, hmode, ← horigin, ← hdest]
    rfl
  · rw [(loadCachedMatrix_some h).2, hvalue]

theorem loaded_pair (h : loadCachedMatrix cache now placeIds mode = some m) (hentry : m.matrix.entries (o, d) ≠ none) :
    (o, d) ∈ (freshRows cache now placeIds mode).map pairOf := by
  obtain ⟨e, he⟩ := Option.ne_none_iff_exists'.mp hentry
  rw [(loadCachedMatrix_some h).2] at he
  rcases MatrixCoherence.updateEntries_spec he with ⟨hmem, horigin, hdest⟩ | hnone
  · obtain ⟨r, hr, rfl⟩ := List.mem_map.mp hmem
    exact List.mem_map.mpr ⟨r, hr, Prod.ext horigin hdest⟩
  · cases hnone

/-- A cache that answers answers for every pair: the last row stored for it, not yet
expired; and for no other pair. -/
theorem hit_complete (batches : List Batch) (now : ℤ) (placeIds : List PlaceId) (mode : TransportMode)
    (m : TimedMatrix) (h : loadCachedMatrix (storeBatches batches) now placeIds mode = some m) :
    (∀ o ∈ placeIds, ∀ d ∈ placeIds, o ≠ d → ∃ r, lastStored batches o d mode = some r ∧
      now - ttlForMode mode ≤ r.computedAt ∧ m.matrix.entries (o, d) = some r.entry) ∧
    ∀ o d, m.matrix.entries (o, d) ≠ none → o ∈ placeIds ∧ d ∈ placeIds ∧ o ≠ d := by
  have hperm := fresh_of_count (fun r hr ↦ row_apart hr) (loadCachedMatrix_some h).1
  constructor
  · intro o ho d hd hne
    have hpair := hperm.mem_iff.mpr (mem_originDestPairs.mpr ⟨ho, hd, hne⟩)
    obtain ⟨r, hr, hkey, hfresh, hvalue⟩ := loaded_entry h hpair
    refine ⟨r, ?_, hfresh, hvalue⟩
    rw [← find_storeBatches, ← hkey]
    exact Table.find_of_mem hr
  · intro o d hentry
    exact mem_originDestPairs.mp (hperm.mem_iff.mp (loaded_pair h hentry))

end Hits

section Remeasured

def legs (there back : String) : List MatrixElement :=
  [{ originIndex := 0, destinationIndex := 1, duration := some there },
    { originIndex := 1, destinationIndex := 0, duration := some back }]

def remeasured : List Batch :=
  [⟨.walk, 0, [⟨"p1", "p2", 0, 300⟩, ⟨"p2", "p1", 0, 320⟩], ["p1", "p2"], ["p1", "p2"], legs "300s" "320s",
      by decide⟩,
    ⟨.drive, 5, [⟨"p1", "p2", 0, 60⟩], ["p1", "p2"], ["p1", "p2"], (legs "60s" "60s").take 1, by decide⟩,
    ⟨.walk, 10, [⟨"p1", "p2", 0, 360⟩, ⟨"p2", "p1", 0, 380⟩], ["p1", "p2"], ["p1", "p2"], legs "360s" "380s",
      by decide⟩]

example : (lastStored remeasured "p1" "p2" .walk).map CacheRow.durationS = some 360 := by decide

theorem remeasured_hit : ∃ m, loadCachedMatrix (storeBatches remeasured) 1000 ["p1", "p2"] .walk = some m ∧
    ∀ o ∈ ["p1", "p2"], ∀ d ∈ ["p1", "p2"], o ≠ d → ∃ r, lastStored remeasured o d .walk = some r ∧
      1000 - ttlForMode .walk ≤ r.computedAt ∧ m.matrix.entries (o, d) = some r.entry := by
  have hsome : (loadCachedMatrix (storeBatches remeasured) 1000 ["p1", "p2"] .walk).isSome := by decide
  obtain ⟨m, hm⟩ := Option.isSome_iff_exists.mp hsome
  exact ⟨m, hm, (hit_complete remeasured 1000 ["p1", "p2"] .walk m hm).1⟩

end Remeasured

end TravelPlanner.CacheHits
