import TravelPlanner.PlaceList

namespace TravelPlanner.PlaceConvergence

open Runs PlaceList

variable {V : Type}

def standsAt (places : List (Slot V)) (index : ℕ) (id : PlaceId) : Bool :=
  match places[index]? with
  | some (.place p) => p.id = id
  | _ => false

/-- The answer to a request meets the list as the request left it: a patched place
still stands at the kept index, a deleted one has not come back, and a value or a
list that is put back is still the one to go back to. -/
def undisturbed [DecidableEq V] (s : PlacesState V) : Event V → Bool
  | .answered i a =>
    match s.pending i, a with
    | some ⟨id, .patch index _⟩, .patched _ => standsAt s.places index id
    | some ⟨id, .patch index previous⟩, .patchFailed _ =>
      standsAt s.places index id && s.confirmed id = some previous.value
    | some ⟨id, .remove _⟩, .removed => id ∉ ids s.places
    | some ⟨id, .remove previous⟩, .removeFailed _ =>
      others id previous = s.places && (id ∉ ids previous || s.confirmed id ≠ none)
    | _, _ => true
  | _ => true

structure Inv (s : PlacesState V) : Prop where
  solid : ∀ slot ∈ s.places, ∃ p, slot = .place p
  distinct : (ids s.places).Nodup
  current : ∀ p, .place p ∈ s.places → ∃ v, s.confirmed p.id = some v ∧ (p.value = v ∨ s.Patching p.id)
  missing : ∀ id v, s.confirmed id = some v → id ∉ ids s.places →
    ∃ i previous, s.Removing i id previous ∧ id ∈ ids previous
  memo : ∀ i id index previous, s.pending i = some ⟨id, .patch index previous⟩ → previous.id = id
  snapshot : ∀ i id previous, s.Removing i id previous →
    (∀ slot ∈ previous, ∃ p, slot = .place p) ∧ (ids previous).Nodup
  held : ∀ i id previous, s.Removing i id previous → id ∈ ids previous → id ∉ ids s.places
  kept : ∀ i previous p v, s.Removing i p.id previous → .place p ∈ previous → s.confirmed p.id = some v →
    p.value = v ∨ s.Patching p.id
  single : ∀ i j id previous previous', s.Removing i id previous → s.Removing j id previous' →
    id ∈ ids previous → id ∈ ids previous' → i = j

variable {s s' : PlacesState V} {id : PlaceId}

theorem inv_load (loaded : List (Place V)) (h : (loaded.map Place.id).Nodup) : Inv (load loaded) := by
  have hids : ids (load loaded).places = loaded.map Place.id := by
    simp [load, ids, List.filterMap_map]
  have hidle : ∀ i r, (load loaded).pending i ≠ some r := by
    intro i r hr
    simp [load, PlacesState.pending] at hr
  have hfound : ∀ p ∈ loaded, (load loaded).confirmed p.id = some p.value := by
    intro p hp
    obtain ⟨q, hq⟩ : ∃ q, loaded.find? (fun q ↦ q.id = p.id) = some q :=
      Option.isSome_iff_exists.mp (List.find?_isSome.mpr ⟨p, hp, by simp⟩)
    have hid : q.id = p.id := by simpa using List.find?_some hq
    obtain rfl := List.inj_on_of_nodup_map h (List.mem_of_find?_eq_some hq) hp hid
    simp [load, hq]
  refine ⟨?_, hids ▸ h, ?_, ?_, ?_, ?_, ?_, ?_, ?_⟩
  · simp [load]
  · intro p hp
    exact ⟨p.value, hfound p (by simpa [load] using hp), .inl rfl⟩
  · intro id v hv hnot
    refine absurd ?_ hnot
    obtain ⟨p, hp, _⟩ := Option.map_eq_some_iff.mp hv
    rw [hids]
    have hid : p.id = id := by simpa using List.find?_some hp
    exact hid ▸ List.mem_map_of_mem (List.mem_of_find?_eq_some hp)
  · exact fun i id index previous hi ↦ absurd hi (hidle i _)
  · exact fun i id previous hi ↦ absurd hi (hidle i _)
  · exact fun i id previous hi ↦ absurd hi (hidle i _)
  · exact fun i previous p v hi ↦ absurd hi (hidle i _)
  · exact fun i j id previous previous' hi ↦ absurd hi (hidle i _)

theorem Inv.exact (h : Inv s) (hidle : ∀ i, s.pending i = none) : Exact s where
  solid := h.solid
  confirmed := by
    have hpatching : ∀ id, ¬s.Patching id := by
      rintro id ⟨i, index, previous, hi⟩
      rw [hidle i] at hi
      cases hi
    intro id v
    constructor
    · intro hp
      obtain ⟨w, hw, hvalue | hpatch⟩ := h.current ⟨id, v⟩ hp
      · rw [hw, ← hvalue]
      · exact absurd hpatch (hpatching id)
    · intro hv
      by_contra hnot
      have habsent : id ∉ ids s.places := by
        intro hid
        obtain ⟨p, hp, rfl⟩ := mem_ids.mp hid
        obtain ⟨w, hw, hvalue | hpatch⟩ := h.current p hp
        · rw [hv] at hw
          obtain rfl := Option.some.inj hw
          exact hnot (hvalue ▸ hp)
        · exact hpatching p.id hpatch
      obtain ⟨i, previous, hi, _⟩ := h.missing id v hv habsent
      rw [PlacesState.Removing, hidle i] at hi
      cases hi

theorem assign_inside {places : List (Slot V)} {index : ℕ} {p : Place V} (h : places[index]? = some (.place p))
    (slot : Slot V) : assign places index slot = places.set index slot :=
  if_pos (List.getElem?_eq_some_iff.mp h).1

theorem put_inv (h : Inv s) {index : ℕ} {p : Place V} {v w : V} (hat : s.places[index]? = some (.place p))
    (hid : p.id = id) (hplaces : s'.places = s.places.set index (.place ⟨id, v⟩))
    (hconfirmed : ∀ y ≠ id, s'.confirmed y = s.confirmed y) (hw : s'.confirmed id = some w)
    (hvalue : v = w ∨ s'.Patching id)
    (hremoving : ∀ i y previous, s'.Removing i y previous ↔ s.Removing i y previous)
    (hpatching : ∀ y ≠ id, s.Patching y → s'.Patching y)
    (hmemo : ∀ i y index previous, s'.pending i = some ⟨y, .patch index previous⟩ → previous.id = y) : Inv s' := by
  have hids : ids s'.places = ids s.places := by
    rw [hplaces]
    exact ids_set hat hid.symm
  have hstands : id ∈ ids s.places := mem_ids.mpr ⟨p, List.mem_of_getElem? hat, hid⟩
  have hput : Slot.place ⟨id, v⟩ ∈ s'.places := by
    rw [hplaces]
    exact List.mem_set (List.getElem?_eq_some_iff.mp hat).1 _
  have hdistinct : (ids s'.places).Nodup := hids ▸ h.distinct
  have hold : ∀ q, .place q ∈ s'.places → q = ⟨id, v⟩ ∨ q.id ≠ id ∧ .place q ∈ s.places := by
    intro q hq
    by_cases hqid : q.id = id
    · exact .inl (same_place hdistinct hq hput hqid)
    · rw [hplaces] at hq
      rcases List.mem_or_eq_of_mem_set hq with hq | hq
      · exact .inr ⟨hqid, hq⟩
      · exact .inl (Slot.place.inj hq)
  refine ⟨fun slot hslot ↦ ?_, hdistinct, fun q hq ↦ ?_, fun y u hy hnot ↦ ?_, hmemo, ?_, ?_, ?_, ?_⟩
  · rw [hplaces] at hslot
    rcases List.mem_or_eq_of_mem_set hslot with hslot | rfl
    · exact h.solid slot hslot
    · exact ⟨_, rfl⟩
  · rcases hold q hq with rfl | ⟨hne, hq⟩
    · exact ⟨w, hw, hvalue⟩
    · obtain ⟨u, hu, hcase⟩ := h.current q hq
      exact ⟨u, by rw [hconfirmed q.id hne, hu], hcase.imp_right (hpatching q.id hne)⟩
  · rw [hids] at hnot
    have hne : y ≠ id := fun heq ↦ hnot (heq ▸ hstands)
    rw [hconfirmed y hne] at hy
    obtain ⟨i, previous, hi, hmem⟩ := h.missing y u hy hnot
    exact ⟨i, previous, (hremoving i y previous).mpr hi, hmem⟩
  · exact fun i y previous hi ↦ h.snapshot i y previous ((hremoving i y previous).mp hi)
  · intro i y previous hi hmem
    rw [hids]
    exact h.held i y previous ((hremoving i y previous).mp hi) hmem
  · intro i previous q u hi hq hu
    have hi := (hremoving i q.id previous).mp hi
    have hne : q.id ≠ id := by
      rintro heq
      exact h.held i q.id previous hi (mem_ids.mpr ⟨q, hq, rfl⟩) (heq ▸ hstands)
    rw [hconfirmed q.id hne] at hu
    exact (h.kept i previous q u hi hq hu).imp_right (hpatching q.id hne)
  · intro i j y previous previous' hi hj
    exact h.single i j y previous previous' ((hremoving i y previous).mp hi) ((hremoving j y previous').mp hj)

theorem patch_inv (h : Inv s) (id : PlaceId) (change : V → V) : Inv (s.patch id change) := by
  unfold PlacesState.patch
  split
  · rename_i index previous hfind
    obtain ⟨hat, hid⟩ := findIndex_spec hfind
    obtain ⟨w, hw, _⟩ := h.current previous (List.mem_of_getElem? hat)
    refine put_inv h hat hid (by rw [assign_inside hat, hid]) (fun _ _ ↦ rfl) (hid ▸ hw) (.inr ?_) ?_ ?_ ?_
    · exact ⟨s.requests.length, index, previous, pending_append.mpr (.inr ⟨rfl, rfl⟩)⟩
    · intro i y old
      simp [PlacesState.Removing, pending_append]
    · rintro y _ ⟨i, index', old, hi⟩
      exact ⟨i, index', old, pending_append.mpr (.inl hi)⟩
    · intro i y index' old hi
      rcases pending_append.mp hi with hi | ⟨_, hi⟩
      · exact h.memo i y index' old hi
      · obtain ⟨rfl, hmemo⟩ := Request.mk.inj hi
        obtain ⟨_, rfl⟩ := Memo.patch.inj hmemo
        exact hid
  · exact h

theorem remove_inv (h : Inv s) (id : PlaceId) : Inv (s.remove id) := by
  unfold PlacesState.remove
  split
  · rename_i rest hfilter
    obtain rfl := filterOut_spec hfilter
    rw [spread_solid h.solid]
    have hpatching : ∀ y, s.Patching y → ({ s with
        places := others id s.places, requests := s.requests ++ [some ⟨id, .remove s.places⟩] } :
          PlacesState V).Patching y := by
      rintro y ⟨i, index, old, hi⟩
      exact ⟨i, index, old, pending_append.mpr (.inl hi)⟩
    refine ⟨?_, h.distinct.sublist (others_sublist id s.places), ?_, ?_, ?_, ?_, ?_, ?_, ?_⟩
    · exact fun slot hslot ↦ h.solid slot (List.mem_of_mem_filter hslot)
    · intro p hp
      obtain ⟨w, hw, hcase⟩ := h.current p (mem_others.mp hp).1
      exact ⟨w, hw, hcase.imp_right (hpatching p.id)⟩
    · intro y v hv hnot
      by_cases hy : y ∈ ids s.places
      · have hyid : y = id := by
          by_contra hne
          exact hnot (mem_ids_others.mpr ⟨hy, hne⟩)
        exact ⟨s.requests.length, s.places, removing_append.mpr (.inr ⟨rfl, hyid, rfl⟩), hy⟩
      · obtain ⟨i, previous, hi, hmem⟩ := h.missing y v hv hy
        exact ⟨i, previous, removing_append.mpr (.inl hi), hmem⟩
    · intro i y index previous hi
      rcases pending_append.mp hi with hi | ⟨_, hi⟩
      · exact h.memo i y index previous hi
      · cases hi
    · intro i y previous hi
      rcases removing_append.mp hi with hi | ⟨_, _, rfl⟩
      · exact h.snapshot i y previous hi
      · exact ⟨h.solid, h.distinct⟩
    · intro i y previous hi hmem hy
      obtain ⟨hy, hne⟩ := mem_ids_others.mp hy
      rcases removing_append.mp hi with hi | ⟨_, hyid, _⟩
      · exact h.held i y previous hi hmem hy
      · exact hne hyid
    · intro i previous p v hi hp hv
      rcases removing_append.mp hi with hi | ⟨_, _, rfl⟩
      · exact (h.kept i previous p v hi hp hv).imp_right (hpatching p.id)
      · obtain ⟨w, hw, hcase⟩ := h.current p hp
        rw [hv] at hw
        obtain rfl := Option.some.inj hw
        exact hcase.imp_right (hpatching p.id)
    · -- an earlier request still holds the place only if the list has lost it
      intro i j y previous previous' hi hj hmem hmem'
      rcases removing_append.mp hi with hi | ⟨hlast, _, rfl⟩ <;>
        rcases removing_append.mp hj with hj | ⟨hlast', _, rfl⟩
      · exact h.single i j y previous previous' hi hj hmem hmem'
      · exact absurd hmem' (h.held i y previous hi hmem)
      · exact absurd hmem (h.held j y previous' hj hmem')
      · rw [hlast, hlast']
  · exact h

theorem standsAt_spec {places : List (Slot V)} {index : ℕ} (h : standsAt places index id = true) :
    ∃ p, places[index]? = some (.place p) ∧ p.id = id := by
  unfold standsAt at h
  split at h
  · rename_i p hat
    exact ⟨p, hat, by simpa using h⟩
  · cases h

/-- Settling a request of one place leaves the patches of the others pending. -/
theorem settle_patching {i : ℕ} {memo : Memo V} (hi : s.pending i = some ⟨id, memo⟩) (y : PlaceId) (hne : y ≠ id)
    (h : s.Patching y) : (s.settle i).Patching y := by
  obtain ⟨j, index, previous, hj⟩ := h
  refine ⟨j, index, previous, pending_settle.mpr ⟨?_, hj⟩⟩
  rintro rfl
  rw [hi] at hj
  exact hne (Request.mk.inj (Option.some.inj hj)).1.symm

theorem settle_removing {i index : ℕ} {previous : Place V} (hi : s.pending i = some ⟨id, .patch index previous⟩)
    (j : ℕ) (y : PlaceId) (old : List (Slot V)) : (s.settle i).Removing j y old ↔ s.Removing j y old := by
  refine pending_settle.trans ⟨And.right, fun hj ↦ ⟨?_, hj⟩⟩
  rintro rfl
  rw [PlacesState.Removing, hi] at hj
  cases hj

theorem removed_inv (h : Inv s) {i : ℕ} {previous : List (Slot V)} (hi : s.Removing i id previous)
    (hgone : id ∉ ids s.places) : Inv { s.settle i with confirmed := Function.update s.confirmed id none } := by
  have hsame : ∀ y ≠ id, Function.update s.confirmed id none y = s.confirmed y := fun y hne ↦
    Function.update_of_ne hne none s.confirmed
  have hconfirmed : ∀ y v, Function.update s.confirmed id none y = some v → y ≠ id ∧ s.confirmed y = some v := by
    intro y v hv
    have hne : y ≠ id := by
      rintro rfl
      simp at hv
    exact ⟨hne, by rwa [hsame y hne] at hv⟩
  refine ⟨h.solid, h.distinct, ?_, ?_, ?_, ?_, ?_, ?_, ?_⟩
  · intro p hp
    have hne : p.id ≠ id := fun heq ↦ hgone (mem_ids.mpr ⟨p, hp, heq⟩)
    obtain ⟨w, hw, hcase⟩ := h.current p hp
    exact ⟨w, (hsame p.id hne).trans hw, hcase.imp_right (settle_patching hi p.id hne)⟩
  · intro y v hv hnot
    obtain ⟨hne, hv⟩ := hconfirmed y v hv
    obtain ⟨j, old, hj, hmem⟩ := h.missing y v hv hnot
    refine ⟨j, old, pending_settle.mpr ⟨?_, hj⟩, hmem⟩
    rintro rfl
    rw [PlacesState.Removing, hi] at hj
    exact hne (Request.mk.inj (Option.some.inj hj)).1.symm
  · exact fun j y index old hj ↦ h.memo j y index old (pending_settle.mp hj).2
  · exact fun j y old hj ↦ h.snapshot j y old (pending_settle.mp hj).2
  · exact fun j y old hj ↦ h.held j y old (pending_settle.mp hj).2
  · intro j old p v hj hp hv
    obtain ⟨hne, hv⟩ := hconfirmed p.id v hv
    exact (h.kept j old p v (pending_settle.mp hj).2 hp hv).imp_right (settle_patching hi p.id hne)
  · exact fun j k y old old' hj hk ↦ h.single j k y old old' (pending_settle.mp hj).2 (pending_settle.mp hk).2

/-- The list that is put back is the present one with the place still in it. -/
theorem removeFailed_inv (h : Inv s) {i : ℕ} {previous : List (Slot V)} (message : String)
    (hi : s.Removing i id previous) (hrest : others id previous = s.places)
    (halive : id ∈ ids previous → s.confirmed id ≠ none) :
    Inv { s.settle i with places := previous, error := some message } := by
  have hmem : ∀ y, y ∈ ids s.places ↔ y ∈ ids previous ∧ y ≠ id := by
    intro y
    rw [← hrest]
    exact mem_ids_others
  have hpatching : ∀ y, s.Patching y → (s.settle i).Patching y := by
    rintro y ⟨j, index, old, hj⟩
    refine ⟨j, index, old, pending_settle.mpr ⟨?_, hj⟩⟩
    rintro rfl
    rw [hi] at hj
    cases hj
  obtain ⟨hsolid, hdistinct⟩ := h.snapshot i id previous hi
  refine ⟨hsolid, hdistinct, ?_, ?_, ?_, ?_, ?_, ?_, ?_⟩
  · intro p hp
    by_cases hid : p.id = id
    · subst hid
      obtain ⟨v, hv⟩ := Option.ne_none_iff_exists'.mp (halive (mem_ids.mpr ⟨p, hp, rfl⟩))
      exact ⟨v, hv, (h.kept i previous p v hi hp hv).imp_right (hpatching p.id)⟩
    · obtain ⟨v, hv, hcase⟩ := h.current p (hrest ▸ mem_others.mpr ⟨hp, hid⟩)
      exact ⟨v, hv, hcase.imp_right (hpatching p.id)⟩
  · intro y v hv hnot
    obtain ⟨j, old, hj, hold⟩ := h.missing y v hv fun hy ↦ hnot ((hmem y).mp hy).1
    refine ⟨j, old, pending_settle.mpr ⟨?_, hj⟩, hold⟩
    rintro rfl
    rw [PlacesState.Removing, hi] at hj
    obtain ⟨_, hmemo⟩ := Request.mk.inj (Option.some.inj hj)
    exact hnot (Memo.remove.inj hmemo ▸ hold)
  · exact fun j y index old hj ↦ h.memo j y index old (pending_settle.mp hj).2
  · exact fun j y old hj ↦ h.snapshot j y old (pending_settle.mp hj).2
  · intro j y old hj hold hy
    obtain ⟨hne, hj⟩ := pending_settle.mp hj
    by_cases hyid : y = id
    · subst hyid
      exact hne (h.single j i y old previous hj hi hold hy)
    · exact h.held j y old hj hold ((hmem y).mpr ⟨hy, hyid⟩)
  · intro j old p v hj hp hv
    exact (h.kept j old p v (pending_settle.mp hj).2 hp hv).imp_right (hpatching p.id)
  · exact fun j k y old old' hj hk ↦ h.single j k y old old' (pending_settle.mp hj).2 (pending_settle.mp hk).2

variable [DecidableEq V]

theorem answered_inv (h : Inv s) {i : ℕ} {memo : Memo V} {a : Answer V} (hi : s.pending i = some ⟨id, memo⟩)
    (hok : undisturbed s (.answered i a) = true) :
    Inv (s.answered i id memo a) ∧ others id (s.answered i id memo a).places = others id s.places := by
  simp only [undisturbed, hi] at hok
  cases memo with
  | patch index previous =>
    have hmemo : ∀ j y index' old, (s.settle i).pending j = some ⟨y, .patch index' old⟩ → old.id = y :=
      fun j y index' old hj ↦ h.memo j y index' old (pending_settle.mp hj).2
    cases a with
    | patched updated =>
      obtain ⟨p, hat, hid⟩ := standsAt_spec hok
      obtain ⟨w, hw, _⟩ := h.current p (List.mem_of_getElem? hat)
      rw [hid] at hw
      refine ⟨put_inv h hat hid (assign_inside hat _) (fun y hne ↦ Function.update_of_ne hne _ _) ?_ (.inl rfl)
        (settle_removing hi) (settle_patching hi) hmemo, ?_⟩
      · simp [PlacesState.answered, hw]
      · rw [PlacesState.answered, assign_inside hat]
        exact others_set hat hid rfl
    | patchFailed message =>
      obtain ⟨hstands, hprevious⟩ := Bool.and_eq_true_iff.mp hok
      obtain ⟨p, hat, hid⟩ := standsAt_spec hstands
      have hown : previous.id = id := h.memo i id index previous hi
      refine ⟨put_inv h hat hid (v := previous.value) ?_ (fun _ _ ↦ rfl) (of_decide_eq_true hprevious) (.inl rfl)
        (settle_removing hi) (settle_patching hi) hmemo, ?_⟩
      · rw [← hown]
        exact assign_inside hat _
      · rw [PlacesState.answered, assign_inside hat]
        exact others_set hat hid hown
    | removed => exact ⟨h, rfl⟩
    | removeFailed message => exact ⟨h, rfl⟩
  | remove previous =>
    cases a with
    | removed => exact ⟨removed_inv h hi (of_decide_eq_true hok), rfl⟩
    | removeFailed message =>
      obtain ⟨hrest, halive⟩ := Bool.and_eq_true_iff.mp hok
      have hrest : others id previous = s.places := of_decide_eq_true hrest
      refine ⟨removeFailed_inv h message hi hrest fun hmem ↦ ?_, ?_⟩
      · simpa [hmem] using halive
      · rw [← hrest, others_others]
        rfl
    | patched updated => exact ⟨h, rfl⟩
    | patchFailed message => exact ⟨h, rfl⟩

theorem step_inv (h : Inv s) {e : Event V} (hok : undisturbed s e = true) : Inv (step s e) := by
  cases e with
  | patch id change => exact patch_inv h id change
  | remove id => exact remove_inv h id
  | answered i a =>
    simp only [step]
    cases hi : s.pending i with
    | none => exact h
    | some r => exact (answered_inv h hi hok).1

omit [DecidableEq V] in
theorem patch_others (s : PlacesState V) (id : PlaceId) (change : V → V) :
    others id (s.patch id change).places = others id s.places := by
  unfold PlacesState.patch
  split
  · rename_i index previous hfind
    obtain ⟨hat, hid⟩ := findIndex_spec hfind
    rw [assign_inside hat]
    exact others_set hat hid hid
  · rfl

omit [DecidableEq V] in
theorem remove_others (s : PlacesState V) (id : PlaceId) : others id (s.remove id).places = others id s.places := by
  unfold PlacesState.remove
  split
  · rename_i rest hfilter
    obtain rfl := filterOut_spec hfilter
    exact others_others id s.places
  · rfl

theorem step_frame (h : Inv s) {e : Event V} (hok : undisturbed s e = true) (hid : subject s e = some id) :
    others id (step s e).places = others id s.places := by
  cases e with
  | patch y change =>
    obtain rfl := Option.some.inj hid
    exact patch_others s y change
  | remove y =>
    obtain rfl := Option.some.inj hid
    exact remove_others s y
  | answered i a =>
    simp only [subject] at hid
    simp only [step]
    cases hi : s.pending i with
    | none => rfl
    | some r =>
      rw [hi] at hid
      obtain rfl := Option.some.inj hid
      exact (answered_inv h hi hok).2

/-- As long as every answer meets the list as its request left it, the list keeps
its places apart, and once all requests have settled it is what the server has
confirmed. -/
theorem list_converges (loaded : List (Place V)) (hids : (loaded.map Place.id).Nodup) (events : List (Event V))
    (hok : ∀ t ∈ trace step (load loaded) events, undisturbed t.before t.event = true) :
    ∀ t ∈ trace step (load loaded) events, Converging t := by
  intro t ht
  obtain ⟨hbefore, hafter⟩ :=
    (trace_invariant_of (inv_load loaded hids) (fun s e h hok ↦ step_inv h hok) events hok).2 t ht
  have hkept : Inv t.after := hafter ▸ step_inv hbefore (hok t ht)
  refine ⟨hkept.distinct, fun id hid ↦ ?_, hkept.exact⟩
  rw [hafter]
  exact step_frame hbefore (hok t ht) hid

def twoPlaces : List (Place ℕ) := [⟨"louvre", 0⟩, ⟨"orsay", 0⟩]

def inTurn : List (Event ℕ) :=
  [.patch "orsay" fun _ ↦ 1, .answered 0 (.patched 1), .remove "louvre", .answered 1 (.removeFailed "offline")]

theorem list_converges_inTurn :
    Converging ⟨run step (load twoPlaces) (inTurn.take 3), .answered 1 (.removeFailed "offline"),
      run step (load twoPlaces) inTurn⟩ :=
  list_converges twoPlaces (by decide) inTurn (by decide) _ (by simp [inTurn, trace, run])

def removedMeanwhile : List (Event ℕ) := [.patch "orsay" fun _ ↦ 1, .remove "louvre", .answered 0 (.patched 1)]

theorem removedMeanwhile_duplicates : ¬∀ t ∈ trace step (load twoPlaces) removedMeanwhile, Converging t := by
  intro h
  have hlast := h ⟨run step (load twoPlaces) (removedMeanwhile.take 2), .answered 0 (.patched 1),
    run step (load twoPlaces) removedMeanwhile⟩ (by simp [removedMeanwhile, trace, run])
  exact absurd hlast.distinct (by decide)

end TravelPlanner.PlaceConvergence
