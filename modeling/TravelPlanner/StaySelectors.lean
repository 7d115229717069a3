import TravelPlanner.Intervals
import TravelPlanner.TripEditing

namespace TravelPlanner.StaySelectors

open Clock Requests EditOperations Fallible Intervals TripEditing

variable {positions claimed : List ℕ} {ops ops' : List AccommodationOp} {resolved : List (AccommodationOp × ℕ)}
  {stays : List AccommodationStay}

section Resolving

def selections (positions : List ℕ) (ops : List AccommodationOp) : List (AccommodationOp × ℕ) :=
  ops.filterMap fun op ↦ op.stayIndex?.bind fun selector ↦ positions[selector]?.map (op, ·)

structure Selectable (positions claimed : List ℕ) (ops : List AccommodationOp) : Prop where
  inRange : ∀ op ∈ ops, ∀ selector ∈ op.stayIndex?, selector < positions.length
  distinct : ((selections positions ops).map Prod.snd).Nodup
  fresh : ∀ i ∈ (selections positions ops).map Prod.snd, i ∉ claimed

theorem selections_cons_none {op : AccommodationOp} (hop : op.stayIndex? = none) :
    selections positions (op :: ops) = selections positions ops := by
  rw [selections, List.filterMap_cons_none (by rw [hop]; rfl), selections]

theorem selections_cons_some {op : AccommodationOp} {selector original : ℕ} (hop : op.stayIndex? = some selector)
    (hposition : positions[selector]? = some original) :
    selections positions (op :: ops) = (op, original) :: selections positions ops := by
  rw [selections, List.filterMap_cons_some (b := (op, original)) (by rw [hop, Option.bind_some, hposition]; rfl),
    selections]

theorem selectable_cons_none {op : AccommodationOp} (hop : op.stayIndex? = none) :
    Selectable positions claimed (op :: ops) ↔ Selectable positions claimed ops := by
  constructor
  · rintro ⟨hrange, hdistinct, hfresh⟩
    rw [selections_cons_none hop] at hdistinct hfresh
    exact ⟨fun o ho ↦ hrange o (List.mem_cons_of_mem op ho), hdistinct, hfresh⟩
  · rintro ⟨hrange, hdistinct, hfresh⟩
    refine ⟨List.forall_mem_cons.mpr ⟨by simp [hop], hrange⟩, ?_, ?_⟩
    · rwa [selections_cons_none hop]
    · rwa [selections_cons_none hop]

theorem selectable_cons_some {op : AccommodationOp} {selector original : ℕ} (hop : op.stayIndex? = some selector)
    (hposition : positions[selector]? = some original) :
    Selectable positions claimed (op :: ops) ↔
      original ∉ claimed ∧ Selectable positions (original :: claimed) ops := by
  have hcons : selections positions (op :: ops) = (op, original) :: selections positions ops :=
    selections_cons_some hop hposition
  constructor
  · rintro ⟨hrange, hdistinct, hfresh⟩
    rw [hcons, List.map_cons] at hdistinct hfresh
    obtain ⟨hnew, hdistinct⟩ := List.nodup_cons.mp hdistinct
    refine ⟨hfresh original List.mem_cons_self, fun o ho ↦ hrange o (List.mem_cons_of_mem op ho), hdistinct, ?_⟩
    intro i hi hmem
    rcases List.mem_cons.mp hmem with rfl | hmem
    · exact hnew hi
    · exact hfresh i (List.mem_cons_of_mem original hi) hmem
  · rintro ⟨hclaimed, hrange, hdistinct, hfresh⟩
    refine ⟨List.forall_mem_cons.mpr ⟨fun s hs ↦ ?_, hrange⟩, ?_, ?_⟩
    · obtain rfl := Option.some.inj (hop.symm.trans hs)
      exact (List.getElem?_eq_some_iff.mp hposition).1
    · rw [hcons, List.map_cons, List.nodup_cons]
      exact ⟨fun hmem ↦ hfresh original hmem List.mem_cons_self, hdistinct⟩
    · rw [hcons, List.map_cons]
      refine List.forall_mem_cons.mpr ⟨hclaimed, fun i hi hmem ↦ ?_⟩
      exact hfresh i hi (List.mem_cons_of_mem original hmem)

theorem resolveSelectors_ok_iff : resolveSelectors positions claimed ops = .ok resolved ↔
    resolved = selections positions ops ∧ Selectable positions claimed ops := by
  induction ops generalizing claimed resolved with
  | nil =>
    refine ⟨fun h ↦ ⟨(Except.ok.inj h).symm, by simp, .nil, by simp [selections]⟩, ?_⟩
    rintro ⟨rfl, -⟩
    rfl
  | cons op ops ih =>
    rw [resolveSelectors]
    cases hop : op.stayIndex? with
    | none =>
      rw [selections_cons_none hop, selectable_cons_none hop]
      exact ih
    | some selector =>
      cases hposition : positions[selector]? with
      | none =>
        refine iff_of_false (by simp [hposition]) ?_
        rintro ⟨-, hrange, -⟩
        have hlt := hrange op List.mem_cons_self selector hop
        exact absurd (List.getElem?_eq_none_iff.mp hposition) (not_le.mpr hlt)
      | some original =>
        simp only [hposition]
        rw [selections_cons_some hop hposition, selectable_cons_some hop hposition]
        split_ifs with hclaimed
        · exact iff_of_false (by simp) fun h ↦ h.2.1 hclaimed
        · rw [map_eq_ok]
          constructor
          · rintro ⟨rest, hrest, rfl⟩
            obtain ⟨rfl, hselectable⟩ := ih.mp hrest
            exact ⟨rfl, hclaimed, hselectable⟩
          · rintro ⟨rfl, -, hselectable⟩
            exact ⟨selections positions ops, ih.mpr ⟨rfl, hselectable⟩, rfl⟩

theorem selections_perm (h : ops'.Perm ops) : (selections positions ops').Perm (selections positions ops) :=
  h.filterMap _

/-- The order of the operations does not matter to their selectors. -/
theorem selectable_perm (h : ops'.Perm ops) (hops : Selectable positions claimed ops) :
    Selectable positions claimed ops' where
  inRange := fun op hop ↦ hops.inRange op (h.mem_iff.mp hop)
  distinct := ((selections_perm h).map Prod.snd).nodup_iff.mpr hops.distinct
  fresh := fun i hi ↦ hops.fresh i (((selections_perm h).map Prod.snd).mem_iff.mp hi)

end Resolving

section Applying

def revise (resolved : List (AccommodationOp × ℕ)) (i : ℕ) (stay : AccommodationStay) : AccommodationStay :=
  match (resolved.find? fun r ↦ r.2 = i).map Prod.fst with
  | some (.update op) => applyAccommodationUpdate stay op
  | _ => stay

def fate (resolved : List (AccommodationOp × ℕ)) (s : AccommodationStay × ℕ) : Option AccommodationStay :=
  match (resolved.find? fun r ↦ r.2 = s.2).map Prod.fst with
  | some (.update op) => some (applyAccommodationUpdate s.1 op)
  | some (.remove _) => none
  | _ => some s.1

theorem find?_position_none {i : ℕ} (h : i ∉ resolved.map Prod.snd) : (resolved.find? fun r ↦ r.2 = i) = none := by
  refine List.find?_eq_none.mpr fun r hr hi ↦ h ?_
  exact of_decide_eq_true hi ▸ List.mem_map_of_mem hr

theorem getElem?_updateSelected {r : AccommodationOp × ℕ} {i : ℕ} (hne : r.2 ≠ i) :
    (updateSelected stays r)[i]? = stays[i]? := by
  obtain ⟨op, j⟩ := r
  cases op with
  | add op => rfl
  | update op => exact List.getElem?_modify_ne _ _ hne
  | remove op => rfl

theorem getElem?_updated (hdistinct : (resolved.map Prod.snd).Nodup) (stays : List AccommodationStay) (i : ℕ) :
    (resolved.foldl updateSelected stays)[i]? = stays[i]?.map (revise resolved i) := by
  induction resolved generalizing stays with
  | nil => exact (Option.map_id_apply ..).symm
  | cons r resolved ih =>
    rw [List.map_cons, List.nodup_cons] at hdistinct
    obtain ⟨hnew, hdistinct⟩ := hdistinct
    rw [List.foldl_cons, ih hdistinct]
    by_cases hi : r.2 = i
    · subst hi
      have hrest : revise resolved r.2 = id := by
        funext stay
        rw [revise, find?_position_none hnew]
        rfl
      obtain ⟨op, j⟩ := r
      rw [hrest, Option.map_id, id]
      cases op with
      | add op => cases hs : stays[j]? <;> simp [updateSelected, revise, hs]
      | update op =>
        rw [updateSelected, List.getElem?_modify_eq]
        cases hs : stays[j]? <;> simp [revise]
      | remove op => cases hs : stays[j]? <;> simp [updateSelected, revise, hs]
    · have hskip : revise (r :: resolved) i = revise resolved i := by
        funext stay
        rw [revise, List.find?_cons_of_neg (by simpa using hi), revise]
      rw [getElem?_updateSelected hi, hskip]

theorem zipIdx_updated (hdistinct : (resolved.map Prod.snd).Nodup) (stays : List AccommodationStay) :
    (resolved.foldl updateSelected stays).zipIdx = stays.zipIdx.map fun s ↦ (revise resolved s.2 s.1, s.2) := by
  refine List.ext_getElem? fun i ↦ ?_
  rw [List.getElem?_map, List.getElem?_zipIdx, List.getElem?_zipIdx, getElem?_updated hdistinct, Option.map_map,
    Option.map_map]
  cases stays[i]? <;> simp

theorem find?_perm {resolved' : List (AccommodationOp × ℕ)} (hdistinct : (resolved.map Prod.snd).Nodup)
    (hperm : resolved'.Perm resolved) (i : ℕ) :
    (resolved'.find? fun r ↦ r.2 = i) = resolved.find? fun r ↦ r.2 = i := by
  have hexclusive : Exclusive (fun r : AccommodationOp × ℕ ↦ r.2 = i) resolved := by
    refine (List.pairwise_map.mp hdistinct).imp fun hne hboth ↦ hne ?_
    rw [decide_eq_true_eq, decide_eq_true_eq] at hboth
    exact hboth.1.trans hboth.2.symm
  exact hexclusive.find?_perm hperm

theorem fate_perm {resolved' : List (AccommodationOp × ℕ)} (hdistinct : (resolved.map Prod.snd).Nodup)
    (hperm : resolved'.Perm resolved) : fate resolved' = fate resolved := by
  funext s
  rw [fate, fate, find?_perm hdistinct hperm]

theorem find?_position (hdistinct : (resolved.map Prod.snd).Nodup) {r : AccommodationOp × ℕ} (hr : r ∈ resolved) :
    (resolved.find? fun x ↦ x.2 = r.2) = some r := by
  obtain ⟨x, hx⟩ : ∃ x, (resolved.find? fun x ↦ x.2 = r.2) = some x :=
    Option.isSome_iff_exists.mp (List.find?_isSome.mpr ⟨r, hr, by simp⟩)
  have hsame : x.2 = r.2 := by simpa using List.find?_some hx
  rw [hx, List.inj_on_of_nodup_map hdistinct (List.mem_of_find?_eq_some hx) hr hsame]

theorem removedIndex_eq_some {r : AccommodationOp × ℕ} {i : ℕ} (h : removedIndex r = some i) :
    ∃ op, r = (.remove op, i) := by
  obtain ⟨op, j⟩ := r
  cases op with
  | add op => cases h
  | update op => cases h
  | remove op =>
    obtain rfl := Option.some.inj h
    exact ⟨op, rfl⟩

theorem fate_eq (hdistinct : (resolved.map Prod.snd).Nodup) (s : AccommodationStay × ℕ) :
    fate resolved s = if s.2 ∈ resolved.filterMap removedIndex then none else some (revise resolved s.2 s.1) := by
  split_ifs with hremoved
  · obtain ⟨r, hr, hindex⟩ := List.mem_filterMap.mp hremoved
    obtain ⟨op, rfl⟩ := removedIndex_eq_some hindex
    rw [fate, find?_position hdistinct hr]
    rfl
  · rw [fate, revise]
    cases hfind : resolved.find? fun r ↦ r.2 = s.2 with
    | none => rfl
    | some r =>
      obtain ⟨op, j⟩ := r
      cases op with
      | add op => rfl
      | update op => rfl
      | remove op =>
        have hj : j = s.2 := by simpa using List.find?_some hfind
        exact absurd (List.mem_filterMap.mpr
          ⟨(.remove op, j), List.mem_of_find?_eq_some hfind, by rw [removedIndex, hj]⟩) hremoved

/-- The accommodation operations leave each stay to its fate and add theirs at the end. -/
theorem applied_eq (hdistinct : (resolved.map Prod.snd).Nodup) (stays : List AccommodationStay)
    (ops : List AccommodationOp) : applyAccommodationOps stays ops resolved =
      stays.zipIdx.filterMap (fate resolved) ++ ops.filterMap AccommodationOp.added? := by
  rw [applyAccommodationOps, zipIdx_updated hdistinct]
  congr 1
  induction stays.zipIdx with
  | nil => rfl
  | cons s l ih =>
    rw [List.map_cons, List.filterMap_cons, fate_eq hdistinct]
    by_cases hremoved : s.2 ∈ resolved.filterMap removedIndex
    · rw [if_pos hremoved, List.filter_cons_of_neg (by simpa using hremoved), ih]
    · rw [if_neg hremoved, List.filter_cons_of_pos (by simpa using hremoved), List.map_cons, ih]

/-- A stay that no operation selects is kept as it is. -/
theorem unselected_sublist (hdistinct : (resolved.map Prod.snd).Nodup) (stays : List AccommodationStay)
    (ops : List AccommodationOp) :
    ((stays.zipIdx.filter fun s ↦ s.2 ∉ resolved.map Prod.snd).map Prod.fst).Sublist
      (applyAccommodationOps stays ops resolved) := by
  have hkept : (stays.zipIdx.filter fun s ↦ s.2 ∉ resolved.map Prod.snd).map Prod.fst =
      (stays.zipIdx.filter fun s ↦ s.2 ∉ resolved.map Prod.snd).filterMap (fate resolved) := by
    rw [← List.filterMap_eq_map]
    refine List.filterMap_congr fun s hs ↦ ?_
    have hfree : s.2 ∉ resolved.map Prod.snd := by simpa using (List.mem_filter.mp hs).2
    rw [fate, find?_position_none hfree]
    rfl
  rw [hkept, applied_eq hdistinct]
  exact (List.filter_sublist.filterMap _).trans (List.sublist_append_left _ _)

end Applying

end TravelPlanner.StaySelectors
