import TravelPlanner.RouteAccounting
import TravelPlanner.TripRequests

namespace TravelPlanner.SkipReasons

open Clock Requests Windows Engine Construction Priorities RouteService RouteAccounting TripRequests

def Connected (matrix : DistanceMatrix) (a b : PlaceId) : Prop :=
  (matrix.get a b).isSome ∨ (matrix.get b a).isSome

instance (matrix : DistanceMatrix) (a b : PlaceId) : Decidable (Connected matrix a b) :=
  inferInstanceAs (Decidable (_ ∨ _))

def others (finalCandidates : List PlaceId) (id : PlaceId) : List PlaceId := finalCandidates.filter (· ≠ id)

/-- What a reason says about a place the solver left out. -/
structure Truthful (matrix : DistanceMatrix) (finalCandidates : List PlaceId) (id : PlaceId) (reason : SkipReason) :
    Prop where
  named : reason = .noMatrixEntry ∨ reason = .matrixIncomplete ∨ reason = .timeWindowInfeasible
  noEntry : reason = .noMatrixEntry →
    others finalCandidates id ≠ [] ∧ ∀ other ∈ others finalCandidates id, ¬Connected matrix id other
  incomplete : reason = .matrixIncomplete → ∃ other ∈ others finalCandidates id, ¬Connected matrix id other
  otherwise : reason = .timeWindowInfeasible ↔ ∀ other ∈ others finalCandidates id, Connected matrix id other

def Countable (matrix : DistanceMatrix) (finalCandidates : List PlaceId) (id : PlaceId) : Prop :=
  others finalCandidates id ≠ [] ∧
    (finalCandidates.count id = 1 ∨ ∃ other ∈ others finalCandidates id, ¬Connected matrix id other)

variable {matrix : DistanceMatrix} {finalCandidates : List PlaceId} {id : PlaceId}

theorem actualEdges_eq : actualEdges matrix finalCandidates id =
    ((others finalCandidates id).filter fun other ↦ Connected matrix id other).length := by
  rw [actualEdges, others, List.filter_filter]
  refine congrArg List.length (List.filter_congr fun other _ ↦ ?_)
  rw [Bool.eq_iff_iff, Bool.and_eq_true, decide_eq_true_iff, decide_eq_true_iff, decide_eq_true_iff]
  exact and_comm

theorem others_length : (others finalCandidates id).length + finalCandidates.count id = finalCandidates.length := by
  have hsplit := List.length_eq_length_filter_add (l := finalCandidates) (fun other ↦ decide (other = id))
  have hcount : (finalCandidates.filter fun other ↦ decide (other = id)).length = finalCandidates.count id := by
    rw [List.count_eq_length_filter]
    rfl
  have hothers : (finalCandidates.filter fun other ↦ !decide (other = id)) = others finalCandidates id := by
    simp [others]
  rw [hothers, hcount] at hsplit
  omega

theorem actualEdges_zero :
    actualEdges matrix finalCandidates id = 0 ↔ ∀ other ∈ others finalCandidates id, ¬Connected matrix id other := by
  rw [actualEdges_eq, List.length_eq_zero_iff, List.filter_eq_nil_iff]
  simp

theorem actualEdges_le : actualEdges matrix finalCandidates id ≤ (others finalCandidates id).length := by
  rw [actualEdges_eq]
  exact List.length_filter_le _ _

theorem actualEdges_full : actualEdges matrix finalCandidates id = (others finalCandidates id).length ↔
    ∀ other ∈ others finalCandidates id, Connected matrix id other := by
  rw [actualEdges_eq, List.length_filter_eq_length_iff]
  simp

theorem noEntry_truthful (hnone : ∀ other ∈ others finalCandidates id, ¬Connected matrix id other) :
    Truthful matrix finalCandidates id .noMatrixEntry ↔ others finalCandidates id ≠ [] := by
  constructor
  · intro h
    exact (h.noEntry rfl).1
  · intro hne
    obtain ⟨other, hother⟩ := List.exists_mem_of_ne_nil _ hne
    refine ⟨.inl rfl, fun _ ↦ ⟨hne, hnone⟩, nofun, ?_⟩
    exact ⟨nofun, fun hall ↦ absurd (hall other hother) (hnone other hother)⟩

theorem incomplete_truthful : Truthful matrix finalCandidates id .matrixIncomplete ↔
    ∃ other ∈ others finalCandidates id, ¬Connected matrix id other := by
  constructor
  · intro h
    exact h.incomplete rfl
  · intro hmissing
    obtain ⟨other, hother, hapart⟩ := hmissing
    refine ⟨.inr (.inl rfl), nofun, fun _ ↦ ⟨other, hother, hapart⟩, ?_⟩
    exact ⟨nofun, fun hall ↦ absurd (hall other hother) hapart⟩

theorem otherwise_truthful (hall : ∀ other ∈ others finalCandidates id, Connected matrix id other) :
    Truthful matrix finalCandidates id .timeWindowInfeasible :=
  ⟨.inr (.inr rfl), nofun, nofun, fun _ ↦ hall, fun _ ↦ rfl⟩

/-- The reason given to a final candidate is truthful exactly when its edges are
counted against the right number. -/
theorem skipReason_truthful (hid : id ∈ finalCandidates) :
    Truthful matrix finalCandidates id (skipReason matrix finalCandidates id) ↔
      Countable matrix finalCandidates id := by
  have hlen : (others finalCandidates id).length + finalCandidates.count id = finalCandidates.length := others_length
  have hle : actualEdges matrix finalCandidates id ≤ (others finalCandidates id).length := actualEdges_le
  have hcount := List.count_pos_iff.mpr hid
  unfold skipReason Countable
  by_cases hzero : actualEdges matrix finalCandidates id = 0
  · -- no edge at all: right as soon as there is another candidate
    have hnone := actualEdges_zero.mp hzero
    rw [if_pos hzero, noEntry_truthful hnone]
    refine (and_iff_left_of_imp fun hne ↦ ?_).symm
    obtain ⟨other, hother⟩ := List.exists_mem_of_ne_nil _ hne
    exact .inr ⟨other, hother, hnone other hother⟩
  · have hne : others finalCandidates id ≠ [] := by
      intro hnil
      rw [hnil, List.length_nil] at hle
      omega
    rw [if_neg hzero, and_iff_right hne]
    by_cases hless : (actualEdges matrix finalCandidates id : ℤ) < finalCandidates.length - 1
    · -- fewer edges than expected: one is missing, or the id is repeated
      rw [if_pos hless, incomplete_truthful]
      refine (or_iff_right_of_imp fun honce ↦ ?_).symm
      by_contra hall
      have hfull := actualEdges_full.mpr (by simpa using hall)
      omega
    · -- as many as expected: the id occurs once and has every edge
      have hfull : actualEdges matrix finalCandidates id = (others finalCandidates id).length := by omega
      have honce : finalCandidates.count id = 1 := by omega
      rw [if_neg hless]
      exact iff_of_true (otherwise_truthful (actualEdges_full.mp hfull)) (.inl honce)

variable {request : OptimizeRequest} {docs : List PlaceDoc} {s : Solved}

theorem solverSkip_reason (h : Final request docs matrix s) {skip : SkippedPlace}
    (hskip : skip ∈ (buildResponse request docs matrix s).skipped) (hid : skip.placeId ∈ s.solverSkipped) :
    skip.reason = skipReason matrix s.candidates skip.placeId := by
  have hcandidate := h.skipped_sub hid
  rcases List.mem_append.mp hskip with hpre | hsolver
  · have hnode := h.candidates.subset hcandidate
    exact absurd hnode (preSkipped_not_node (List.mem_map_of_mem hpre))
  · rcases List.mem_append.mp hsolver with hdropped | hsolver
    · obtain ⟨id, hdropped, rfl⟩ := List.mem_map.mp hdropped
      rw [h.dropped] at hdropped
      simp [hcandidate] at hdropped
    · obtain ⟨id, _, rfl⟩ := List.mem_map.mp hsolver
      rfl

/-- Every place the solver left out is reported, and its reason is truthful
exactly when its edges are counted against the right number. -/
theorem skip_reasons_truthful_iff (order : SetOrder) (now : DateTime) (request : OptimizeRequest)
    (docs : List PlaceDoc) (matrix : DistanceMatrix) :
    ∃ resp s, optimizeRoute order (fun _ ↦ .ok matrix) now request docs = .ok resp ∧
      finalRoute order request docs matrix = some s ∧ s.solverSkipped ⊆ skippedIds resp.skipped ∧
      ∀ skip ∈ resp.skipped, skip.placeId ∈ s.solverSkipped →
        (Truthful matrix s.candidates skip.placeId skip.reason ↔ Countable matrix s.candidates skip.placeId) := by
  rcases optimizeRoute_cases order now request docs matrix with ⟨hnil, he⟩ | ⟨_, s, hs, hfinal, he⟩
  · obtain ⟨s, hs⟩ := finalRoute_total order request docs matrix
    have hfinal := finalRoute_final hs
    have hnone : ∀ id, id ∉ s.solverSkipped := by
      intro id hid
      have hnode := hfinal.candidates.subset (hfinal.skipped_sub hid)
      simp [candidates_nil_iff.mp hnil] at hnode
    refine ⟨_, s, he, hs, fun id hid ↦ absurd hid (hnone id), fun skip _ hid ↦ absurd hid (hnone _)⟩
  · refine ⟨_, s, he, hs, ?_, ?_⟩
    · intro id hid
      rw [response_skipped]
      exact List.mem_append_right _ (List.mem_append_right _ hid)
    · intro skip hskip hid
      rw [solverSkip_reason hfinal hskip hid]
      exact skipReason_truthful (hfinal.skipped_sub hid)

def oneAsked : OptimizeRequest where
  placeIds := ["65f0c0ffee0000000000000a"]

def endlessVisits : List PlaceDoc := changeoverDocs.map fun doc ↦ { doc with visitDurationMin := some 1500 }

theorem lonePlace_misreported : oneAsked.Valid ∧ ∃ resp s skip,
    optimizeRoute .insertion (fun _ ↦ .ok steadyMatrix) ⟨dayOne, midnight⟩ oneAsked endlessVisits = .ok resp ∧
      finalRoute .insertion oneAsked endlessVisits steadyMatrix = some s ∧ skip ∈ resp.skipped ∧
      skip.placeId ∈ s.solverSkipped ∧ skip.reason = .noMatrixEntry ∧
      ¬Truthful steadyMatrix s.candidates skip.placeId skip.reason := by
  have hroute : finalRoute .insertion oneAsked endlessVisits steadyMatrix =
      some ⟨[], oneAsked.placeIds, [], oneAsked.placeIds⟩ := by rfl
  have hskipped : ⟨"65f0c0ffee0000000000000a", none, .noMatrixEntry⟩ ∈
      (buildResponse oneAsked endlessVisits steadyMatrix ⟨[], oneAsked.placeIds, [], oneAsked.placeIds⟩).skipped := by
    decide +kernel
  have hanswer : optimizeRoute .insertion (fun _ ↦ .ok steadyMatrix) ⟨dayOne, midnight⟩ oneAsked endlessVisits =
      .ok (buildResponse oneAsked endlessVisits steadyMatrix ⟨[], oneAsked.placeIds, [], oneAsked.placeIds⟩) := by
    rfl
  refine ⟨by decide +kernel, _, _, _, hanswer, hroute, hskipped, by decide, rfl, ?_⟩
  intro htrue
  exact absurd (htrue.noEntry rfl).1 (by decide)

end TravelPlanner.SkipReasons
