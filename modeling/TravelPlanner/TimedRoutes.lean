import Mathlib.Data.List.Chain
import TravelPlanner.Engine

namespace TravelPlanner.TimedRoutes

open Requests Windows Engine

variable (p : DayProblem)

def Follows (v w : Visit) : Prop :=
  ∃ leg, p.matrix.get v.placeId w.placeId = some leg ∧
    w.travelS = leg.durationS ∧ w.arrivalS = v.departureS + leg.durationS

def Served (v : Visit) : Prop :=
  ∃ startS, p.serviceStart v.placeId v.arrivalS = some startS ∧
    v.departureS = startS + p.visitS v.placeId

/-- What a schedule means: the route's nodes in order, each reached from the one
before it and served there. -/
structure Timed (prev : Option PlaceId) (t : ℤ) (route : List PlaceId) (visits : List Visit) : Prop where
  places : visits.map Visit.placeId = route
  first : ∀ v ∈ visits.head?, p.travelTo v.placeId prev = some v.travelS ∧ v.arrivalS = t + v.travelS
  legs : visits.IsChain (Follows p)
  served : ∀ v ∈ visits, Served p v

variable {p} {prev : Option PlaceId} {t : ℤ} {route : List PlaceId} {visits : List Visit}

theorem Timed.nil : Timed p prev t [] [] :=
  ⟨rfl, by simp, .nil, by simp⟩

theorem travelTo_eq_some {node last : PlaceId} {s : ℤ} :
    p.travelTo node (some last) = some s ↔
      ∃ leg, p.matrix.get last node = some leg ∧ s = leg.durationS := by
  simp [DayProblem.travelTo, eq_comm]

theorem timed_cons {v : Visit} {node : PlaceId} :
    Timed p prev t (node :: route) (v :: visits) ↔
      v.placeId = node ∧ p.travelTo node prev = some v.travelS ∧ v.arrivalS = t + v.travelS ∧
        Served p v ∧ Timed p (some node) v.departureS route visits := by
  constructor
  · rintro ⟨hp, hf, hl, hs⟩
    obtain ⟨rfl, hrest⟩ := List.cons.inj hp
    have hv := hf v (by simp)
    refine ⟨rfl, hv.1, hv.2, hs v (by simp), hrest, ?_, hl.tail, fun w hw ↦ hs w (by simp [hw])⟩
    intro w hw
    obtain ⟨l, rfl⟩ : ∃ l, visits = w :: l := List.head?_eq_some_iff.mp hw
    obtain ⟨leg, hleg, htravel, harr⟩ := (List.isChain_cons_cons.mp hl).1
    exact ⟨travelTo_eq_some.mpr ⟨leg, hleg, htravel⟩, by omega⟩
  · rintro ⟨rfl, htravel, harr, hsv, hp, hf, hl, hs⟩
    refine ⟨by simp [hp], by simp [htravel, harr], ?_, by simpa using ⟨hsv, hs⟩⟩
    cases visits with
    | nil => exact .singleton v
    | cons w l =>
      obtain ⟨hw, hwarr⟩ := hf w (by simp)
      obtain ⟨leg, hleg, he⟩ := travelTo_eq_some.mp hw
      exact List.isChain_cons_cons.mpr ⟨⟨leg, hleg, he, by omega⟩, hl⟩

/-- The scheduling loop computes exactly the timed visits of a route. -/
theorem schedule_iff : scheduleFrom p prev t route = some visits ↔ Timed p prev t route visits := by
  induction route generalizing prev t visits with
  | nil =>
    constructor
    · intro h
      obtain rfl : [] = visits := by simpa [scheduleFrom] using h
      exact .nil
    · intro h
      simp [scheduleFrom, List.map_eq_nil_iff.mp h.places]
  | cons node rest ih =>
    constructor
    · intro h
      simp only [scheduleFrom, Option.bind_eq_bind, Option.bind_eq_some_iff, Option.pure_def,
        Option.some.injEq] at h
      obtain ⟨travelS, ht, startS, hs, tail, htail, rfl⟩ := h
      exact timed_cons.mpr ⟨rfl, ht, rfl, ⟨startS, hs, rfl⟩, ih.mp htail⟩
    · intro h
      cases visits with
      | nil => simpa using h.places
      | cons v visits =>
        obtain ⟨hid, ht, harr, ⟨startS, hs, hdep⟩, hrest⟩ := timed_cons.mp h
        rw [hdep] at hrest
        rw [harr] at hs
        obtain ⟨id, arr, dep, travel⟩ := v
        simp only at *
        subst hid harr hdep
        simp [scheduleFrom, ht, hs, ih.mpr hrest]

theorem Timed.snoc {last w : Visit} (h : Timed p prev t route visits)
    (hlast : visits.getLast? = some last) (hw : Follows p last w) (hsv : Served p w) :
    Timed p prev t (route ++ [w.placeId]) (visits ++ [w]) := by
  refine ⟨by simp [h.places], ?_, ?_, ?_⟩
  · intro v hv
    cases visits with
    | nil => simp at hlast
    | cons a l => exact h.first v hv
  · refine List.isChain_append.mpr ⟨h.legs, .singleton w, ?_⟩
    intro x hx y hy
    obtain rfl : last = x := by simpa [hlast] using hx
    obtain rfl : w = y := by simpa using hy
    exact hw
  · intro v hv
    rcases List.mem_append.mp hv with hv | hv
    · exact h.served v hv
    · obtain rfl := List.mem_singleton.mp hv
      exact hsv

theorem Timed.getLast_place {last : Visit} (h : Timed p prev t route visits)
    (hlast : visits.getLast? = some last) : route.getLast? = some last.placeId := by
  rw [← h.places, List.getLast?_map, hlast]; rfl

theorem Timed.eq_nil (h : Timed p prev t route visits) : visits = [] ↔ route = [] := by
  rw [← h.places, List.map_eq_nil_iff]

theorem serviceStart_ge {node : PlaceId} {arrivalS startS : ℤ}
    (h : p.serviceStart node arrivalS = some startS) : arrivalS ≤ startS := by
  unfold DayProblem.serviceStart at h
  split at h
  · exact (earliestStart_spec h).1
  · cases h; exact le_max_left _ _

def VisitsNonNeg (p : DayProblem) : Prop := ∀ node, 0 ≤ p.visitS node

theorem Served.arrival_le {v : Visit} (hv : VisitsNonNeg p) (h : Served p v) :
    v.arrivalS ≤ v.departureS := by
  obtain ⟨startS, hs, hd⟩ := h
  have := serviceStart_ge hs
  have := hv v.placeId
  omega

theorem Timed.after_start (hm : p.matrix.NonNeg) (hv : VisitsNonNeg p) (h : Timed p prev t route visits) :
    ∀ v ∈ visits, t ≤ v.arrivalS := by
  induction visits generalizing prev t route with
  | nil => simp
  | cons v visits ih =>
    obtain ⟨node, rest, rfl⟩ : ∃ node rest, route = node :: rest := ⟨_, _, h.places.symm⟩
    obtain ⟨rfl, ht, harr, hs, hrest⟩ := timed_cons.mp h
    have htravel : 0 ≤ v.travelS := by
      cases prev with
      | none => simp [DayProblem.travelTo] at ht; omega
      | some last =>
        obtain ⟨leg, hleg, he⟩ := travelTo_eq_some.mp ht
        have := hm _ _ _ hleg
        omega
    have hdep := hs.arrival_le hv
    intro w hw
    rcases List.mem_cons.mp hw with rfl | hw
    · omega
    · have := ih hrest w hw
      omega

theorem Timed.departure_le_last (hm : p.matrix.NonNeg) (hv : VisitsNonNeg p)
    (h : Timed p prev t route visits) {last : Visit} (hlast : visits.getLast? = some last) :
    ∀ v ∈ visits, v.departureS ≤ last.departureS := by
  induction visits generalizing prev t route with
  | nil => simp
  | cons v visits ih =>
    obtain ⟨node, rest, rfl⟩ : ∃ node rest, route = node :: rest := ⟨_, _, h.places.symm⟩
    obtain ⟨rfl, _, _, _, hrest⟩ := timed_cons.mp h
    cases visits with
    | nil => simp_all
    | cons w l =>
      rw [List.getLast?_cons_cons] at hlast
      have hmem := List.mem_of_getLast? hlast
      have harr := hrest.after_start hm hv last hmem
      have hdep := (hrest.served last hmem).arrival_le hv
      intro x hx
      rcases List.mem_cons.mp hx with rfl | hx
      · omega
      · exact ih hrest hlast x hx

theorem Timed.departure_add_last (hm : p.matrix.NonNeg) (hv : VisitsNonNeg p)
    (h : Timed p prev t route visits) {last : Visit} (hlast : visits.getLast? = some last) :
    ∀ v ∈ visits.dropLast, v.departureS + last.travelS ≤ last.arrivalS := by
  induction visits generalizing prev t route with
  | nil => simp
  | cons v visits ih =>
    obtain ⟨node, rest, rfl⟩ : ∃ node rest, route = node :: rest := ⟨_, _, h.places.symm⟩
    obtain ⟨rfl, _, _, _, hrest⟩ := timed_cons.mp h
    cases visits with
    | nil => simp
    | cons w l =>
      rw [List.getLast?_cons_cons] at hlast
      have hfirst := (hrest.first w (by simp)).2
      have hserved := (hrest.served w (by simp)).arrival_le hv
      have hstart := hrest.after_start hm hv w (by simp)
      have hnext := ih hrest hlast
      intro x hx
      rw [List.dropLast_cons_cons] at hx
      rcases List.mem_cons.mp hx with rfl | hx
      · cases l with
        | nil =>
          obtain rfl : w = last := by simpa using hlast
          omega
        | cons y l =>
          have := hnext w (by simp)
          omega
      · exact hnext x hx

theorem isFeasible_iff : isFeasible p route = true ↔
    ∃ visits last, Timed p none p.dayStartS route visits ∧ visits.getLast? = some last ∧
      last.departureS ≤ p.dayEndS := by
  unfold isFeasible scheduleRoute
  constructor
  · intro h
    split at h
    · cases h
    · next last hlast =>
      cases hs : scheduleFrom p none p.dayStartS route with
      | none => simp [hs] at hlast
      | some visits =>
        rw [hs] at hlast
        exact ⟨visits, last, schedule_iff.mp hs, hlast, by simpa using h⟩
  · rintro ⟨visits, last, ht, hlast, hend⟩
    simp [schedule_iff.mpr ht, hlast, hend]

theorem Timed.scheduleRoute_eq (h : Timed p none p.dayStartS route visits) :
    scheduleRoute p route = visits := by
  simp [scheduleRoute, schedule_iff.mpr h]

end TravelPlanner.TimedRoutes
