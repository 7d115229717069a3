import Mathlib.Data.Rat.Defs
import Mathlib.Algebra.Order.Ring.Rat
import TravelPlanner.Runs

namespace TravelPlanner.CallerAuth

open Runs

section Model

structure CurrentUser where
  sub : String
  email : Option String := none
  permissions : List String := []
  deriving DecidableEq, Repr

def CurrentUser.anonymous : CurrentUser := { sub := "anonymous" }

structure Claims where
  sub : Option String
  email : Option String
  permissions : Option (List String)

def Claims.user (claims : Claims) : CurrentUser := ⟨claims.sub.getD "", claims.email, claims.permissions.getD []⟩

structure Settings where
  authEnabled : Bool := false
  auth0Domain : String := ""
  auth0Audience : String := ""

def Settings.authActive (settings : Settings) : Bool :=
  settings.authEnabled && settings.auth0Domain != "" && settings.auth0Audience != ""

/-- The token of an `Authorization` header, missing where the header is not a bearer's. -/
def bearerToken (header : Option String) : Option String :=
  let text := (header.getD "").toList
  if "Bearer ".toList.isPrefixOf text then some (String.ofList (text.drop 7)) else none

/-- The readings of the two clocks. Only the monotonic one dates the cache; the other
decides whether a token has expired. -/
structure Moment where
  monotonic : ℚ
  wall : ℚ

def jwksTtlSeconds : ℚ := 3600

structure JwksCache (Keys : Type) where
  keyset : Option Keys := none
  fetchedAt : ℚ := 0

def JwksCache.isStale {Keys : Type} (cache : JwksCache Keys) (m : Moment) : Bool :=
  jwksTtlSeconds ≤ m.monotonic - cache.fetchedAt

def JwksCache.usable {Keys : Type} (cache : JwksCache Keys) (m : Moment) : Option Keys :=
  if cache.isStale m then none else cache.keyset

inductive Rejection
  | missingHeader | invalidToken
  deriving DecidableEq, Repr

/-- Where a request stands. It waits for the key set, at the second time because the
token did not verify under the first, or it is answered; a first fetch that fails is not
caught. -/
inductive Phase
  | fetching (token : String) (forced : Bool) (begun : ℚ)
  | accepted (user : CurrentUser)
  | rejected (why : Rejection)
  | failed
  deriving DecidableEq

structure Caller where
  header : Option String
  arrived : ℚ
  phase : Phase
  deriving DecidableEq

structure Server (Keys : Type) where
  cache : JwksCache Keys := {}
  callers : List Caller := []

/-- A request arrives, or the fetch of a waiting one ends; between these nothing of a
request runs. -/
inductive Event (Keys : Type)
  | arrive (header : Option String) (m : Moment)
  | answer (i : ℕ) (result : Option Keys) (m : Moment)

def Event.moment {Keys : Type} : Event Keys → Moment
  | .arrive _ m => m
  | .answer _ _ m => m

variable {Keys : Type} (settings : Settings) (decodeToken : String → Keys → ℚ → Option Claims)

/-- A token is decoded; where that fails the caller goes on to `otherwise`. -/
def judge (token : String) (keys : Keys) (m : Moment) (otherwise : Phase) : Phase :=
  match decodeToken token keys m.wall with
  | some claims => .accepted claims.user
  | none => otherwise

def getCurrentUser (cache : JwksCache Keys) (header : Option String) (m : Moment) : Phase :=
  if !settings.authActive then .accepted .anonymous
  else
    match bearerToken header with
    | none => .rejected .missingHeader
    | some token =>
      match cache.usable m with
      | none => .fetching token false m.monotonic
      | some keys => judge decodeToken token keys m (.fetching token true m.monotonic)

def fetched (token : String) (forced : Bool) (result : Option Keys) (m : Moment) : Phase :=
  match result with
  | none => if forced then .rejected .invalidToken else .failed
  | some keys =>
    judge decodeToken token keys m
      (if forced then .rejected .invalidToken else .fetching token true m.monotonic)

def JwksCache.fill (cache : JwksCache Keys) (result : Option Keys) (m : Moment) : JwksCache Keys :=
  match result with
  | none => cache
  | some keys => ⟨some keys, m.monotonic⟩

def step (s : Server Keys) : Event Keys → Server Keys
  | .arrive header m =>
    { s with callers := s.callers ++ [⟨header, m.monotonic, getCurrentUser settings decodeToken s.cache header m⟩] }
  | .answer i result m =>
    match s.callers[i]? with
    | some ⟨header, arrived, .fetching token forced _⟩ =>
      { cache := s.cache.fill result m
        callers := s.callers.set i ⟨header, arrived, fetched decodeToken token forced result m⟩ }
    | _ => s

end Model

section Runs

variable {Keys : Type} (settings : Settings) (decodeToken : String → Keys → ℚ → Option Claims)
  (Delivered : Keys → ℚ → ℚ → Prop)

def Timely (s : Server Keys) : Event Keys → Prop
  | .arrive _ _ => True
  | .answer i result m => ∀ header arrived token forced begun,
      s.callers[i]? = some ⟨header, arrived, .fetching token forced begun⟩ →
        begun ≤ m.monotonic ∧ ∀ keys ∈ result, Delivered keys begun m.monotonic

/-- A token verified under a key set that a fetch delivered less than an hour ago. -/
def Verified (header : Option String) (m : Moment) (user : CurrentUser) : Prop :=
  ∃ token keys begun ended claims, bearerToken header = some token ∧ Delivered keys begun ended ∧
    m.monotonic - ended < jwksTtlSeconds ∧ decodeToken token keys m.wall = some claims ∧ user = claims.user

/-- There is no token, or it did not verify under a key set whose fetch began after the
request arrived, or no such key set could be had. -/
def Refused (e : Event Keys) (caller : Caller) : Rejection → Prop
  | .missingHeader => bearerToken caller.header = none
  | .invalidToken => (∃ i m, e = .answer i none m) ∨
      ∃ token keys begun, bearerToken caller.header = some token ∧ caller.arrived ≤ begun ∧
        Delivered keys begun e.moment.monotonic ∧ decodeToken token keys e.moment.wall = none

/-- How a caller that has just been answered came by the answer. -/
def Justified (e : Event Keys) (caller : Caller) : Prop :=
  match caller.phase with
  | .fetching _ _ _ => True
  | .accepted user => settings.authActive = false ∧ user = .anonymous ∨
      Verified decodeToken Delivered caller.header e.moment user
  | .rejected why => Refused decodeToken Delivered e caller why
  | .failed => ∃ i m, e = .answer i none m

/-- A step justifies the answer of every caller that it answers, and leaves the callers
that were answered before alone. -/
structure Sound (t : Transition (Server Keys) (Event Keys)) : Prop where
  answered : ∀ (i : ℕ) (caller : Caller), t.after.callers[i]? = some caller →
    t.before.callers[i]? = some caller ∨ Justified settings decodeToken Delivered t.event caller
  settled : ∀ (i : ℕ) (caller : Caller), t.before.callers[i]? = some caller →
    (∀ token forced begun, caller.phase ≠ .fetching token forced begun) → t.after.callers[i]? = some caller

structure Inv (s : Server Keys) : Prop where
  cached : ∀ keys ∈ s.cache.keyset, ∃ begun, Delivered keys begun s.cache.fetchedAt
  waiting : ∀ (i : ℕ) (header : Option String) (arrived : ℚ) (token : String) (forced : Bool) (begun : ℚ),
    s.callers[i]? = some ⟨header, arrived, .fetching token forced begun⟩ →
      bearerToken header = some token ∧ arrived ≤ begun

variable {Delivered} {s : Server Keys} {m : Moment} {header : Option String}

theorem usable_eq_some {cache : JwksCache Keys} {keys : Keys} (h : cache.usable m = some keys) :
    cache.keyset = some keys ∧ m.monotonic - cache.fetchedAt < jwksTtlSeconds := by
  unfold JwksCache.usable at h
  split_ifs at h with hstale
  refine ⟨h, ?_⟩
  rw [JwksCache.isStale, decide_eq_true_eq, not_le] at hstale
  exact hstale

theorem judge_cases (token : String) (keys : Keys) (m : Moment) (otherwise : Phase) :
    (∃ claims, decodeToken token keys m.wall = some claims ∧
      judge decodeToken token keys m otherwise = .accepted claims.user) ∨
    decodeToken token keys m.wall = none ∧ judge decodeToken token keys m otherwise = otherwise := by
  unfold judge
  cases hdecode : decodeToken token keys m.wall with
  | none => exact .inr ⟨rfl, rfl⟩
  | some claims => exact .inl ⟨claims, rfl, rfl⟩

theorem getCurrentUser_cases (cache : JwksCache Keys) (header : Option String) (m : Moment) :
    (settings.authActive = false ∧ getCurrentUser settings decodeToken cache header m = .accepted .anonymous) ∨
    (bearerToken header = none ∧ getCurrentUser settings decodeToken cache header m = .rejected .missingHeader) ∨
    (∃ token keys claims, bearerToken header = some token ∧ cache.usable m = some keys ∧
      decodeToken token keys m.wall = some claims ∧
      getCurrentUser settings decodeToken cache header m = .accepted claims.user) ∨
    ∃ token forced, bearerToken header = some token ∧
      getCurrentUser settings decodeToken cache header m = .fetching token forced m.monotonic := by
  unfold getCurrentUser
  cases hactive : settings.authActive with
  | false => exact .inl ⟨rfl, rfl⟩
  | true =>
    cases htoken : bearerToken header with
    | none => exact .inr (.inl ⟨rfl, rfl⟩)
    | some token =>
      cases husable : cache.usable m with
      | none => exact .inr (.inr (.inr ⟨token, false, rfl, rfl⟩))
      | some keys =>
        dsimp only [Bool.not_true, Bool.false_eq_true, if_false]
        rcases judge_cases decodeToken token keys m (.fetching token true m.monotonic) with
          ⟨claims, hclaims, he⟩ | ⟨-, he⟩
        · exact .inr (.inr (.inl ⟨token, keys, claims, rfl, rfl, hclaims, he⟩))
        · exact .inr (.inr (.inr ⟨token, true, rfl, he⟩))

theorem fetched_cases (token : String) (forced : Bool) (result : Option Keys) (m : Moment) :
    (∃ keys claims, result = some keys ∧ decodeToken token keys m.wall = some claims ∧
      fetched decodeToken token forced result m = .accepted claims.user) ∨
    (∃ keys, result = some keys ∧ decodeToken token keys m.wall = none ∧ forced = true ∧
      fetched decodeToken token forced result m = .rejected .invalidToken) ∨
    (∃ keys, result = some keys ∧ forced = false ∧
      fetched decodeToken token forced result m = .fetching token true m.monotonic) ∨
    (result = none ∧ forced = true ∧ fetched decodeToken token forced result m = .rejected .invalidToken) ∨
    result = none ∧ forced = false ∧ fetched decodeToken token forced result m = .failed := by
  cases result with
  | none =>
    cases forced with
    | true => exact .inr (.inr (.inr (.inl ⟨rfl, rfl, rfl⟩)))
    | false => exact .inr (.inr (.inr (.inr ⟨rfl, rfl, rfl⟩)))
  | some keys =>
    simp only [fetched]
    rcases judge_cases decodeToken token keys m
      (if forced then .rejected .invalidToken else .fetching token true m.monotonic) with
      ⟨claims, hclaims, he⟩ | ⟨hnone, he⟩
    · exact .inl ⟨keys, claims, rfl, hclaims, he⟩
    · cases forced with
      | true => exact .inr (.inl ⟨keys, rfl, hnone, rfl, he⟩)
      | false => exact .inr (.inr (.inl ⟨keys, rfl, rfl, he⟩))

theorem step_cases (s : Server Keys) (e : Event Keys) :
    (∃ header m, e = .arrive header m ∧ step settings decodeToken s e =
      { s with
        callers := s.callers ++ [⟨header, m.monotonic, getCurrentUser settings decodeToken s.cache header m⟩] }) ∨
    (∃ i result m header arrived token forced begun, e = .answer i result m ∧
      s.callers[i]? = some ⟨header, arrived, .fetching token forced begun⟩ ∧
      step settings decodeToken s e =
        { cache := s.cache.fill result m
          callers := s.callers.set i ⟨header, arrived, fetched decodeToken token forced result m⟩ }) ∨
    step settings decodeToken s e = s := by
  cases e with
  | arrive header m => exact .inl ⟨header, m, rfl, rfl⟩
  | answer i result m =>
    rw [step]
    split
    · next header arrived token forced begun hcaller =>
      exact .inr (.inl ⟨i, result, m, header, arrived, token, forced, begun, rfl, hcaller, rfl⟩)
    · exact .inr (.inr rfl)

theorem lookup_append {caller caller' : Caller} {l : List Caller} {i : ℕ} (h : (l ++ [caller])[i]? = some caller') :
    l[i]? = some caller' ∨ caller' = caller := by
  rcases Nat.lt_or_ge i l.length with hlt | hge
  · rw [List.getElem?_append_left hlt] at h
    exact .inl h
  · rw [List.getElem?_append_right hge] at h
    exact .inr (List.mem_singleton.mp (List.mem_of_getElem? h))

theorem lookup_set {caller caller' : Caller} {l : List Caller} {i j : ℕ} (h : (l.set i caller)[j]? = some caller') :
    i ≠ j ∧ l[j]? = some caller' ∨ i = j ∧ caller' = caller := by
  rw [List.getElem?_set] at h
  split_ifs at h with hij hlt
  · exact .inr ⟨hij, (Option.some.inj h).symm⟩
  · exact .inl ⟨hij, h⟩

theorem inv_start : Inv Delivered ({} : Server Keys) :=
  ⟨by simp, by simp⟩

theorem step_inv (h : Inv Delivered s) {e : Event Keys} (ht : Timely Delivered s e) :
    Inv Delivered (step settings decodeToken s e) := by
  rcases step_cases settings decodeToken s e with
    ⟨header, m, rfl, hs⟩ | ⟨i, result, m, header, arrived, token, forced, begun, rfl, hcaller, hs⟩ | hs
  · rw [hs]
    refine ⟨h.cached, ?_⟩
    intro i header' arrived token forced begun hi
    rcases lookup_append hi with hi | hnew
    · exact h.waiting i header' arrived token forced begun hi
    · obtain ⟨rfl, rfl, hphase⟩ := Caller.mk.inj hnew
      rcases getCurrentUser_cases settings decodeToken s.cache header' m with
        ⟨-, he⟩ | ⟨-, he⟩ | ⟨_, _, _, -, -, -, he⟩ | ⟨token', forced', htoken, he⟩
      · rw [he] at hphase
        cases hphase
      · rw [he] at hphase
        cases hphase
      · rw [he] at hphase
        cases hphase
      · rw [he] at hphase
        obtain ⟨rfl, -, rfl⟩ := Phase.fetching.inj hphase
        exact ⟨htoken, le_rfl⟩
  · obtain ⟨hbegun, hdelivered⟩ := ht header arrived token forced begun hcaller
    obtain ⟨htoken, harrived⟩ := h.waiting i header arrived token forced begun hcaller
    rw [hs]
    constructor
    · intro keys hkeys
      cases result with
      | none => exact h.cached keys hkeys
      | some keys' =>
        obtain rfl := Option.some.inj hkeys
        exact ⟨begun, hdelivered keys' rfl⟩
    · intro j header' arrived' token' forced' begun' hj
      rcases lookup_set hj with ⟨-, hj⟩ | ⟨-, hnew⟩
      · exact h.waiting j header' arrived' token' forced' begun' hj
      · obtain ⟨rfl, rfl, hphase⟩ := Caller.mk.inj hnew
        rcases fetched_cases decodeToken token forced result m with
          ⟨_, _, -, -, he⟩ | ⟨_, -, -, -, he⟩ | ⟨_, -, -, he⟩ | ⟨-, -, he⟩ | ⟨-, -, he⟩
        · rw [he] at hphase
          cases hphase
        · rw [he] at hphase
          cases hphase
        · rw [he] at hphase
          obtain ⟨rfl, -, rfl⟩ := Phase.fetching.inj hphase
          exact ⟨htoken, harrived.trans hbegun⟩
        · rw [he] at hphase
          cases hphase
        · rw [he] at hphase
          cases hphase
  · rw [hs]
    exact h

theorem arrival_justified (h : Inv Delivered s) (header : Option String) (m : Moment) :
    Justified settings decodeToken Delivered (.arrive header m)
      ⟨header, m.monotonic, getCurrentUser settings decodeToken s.cache header m⟩ := by
  unfold Justified
  dsimp only
  rcases getCurrentUser_cases settings decodeToken s.cache header m with
    ⟨hactive, he⟩ | ⟨htoken, he⟩ | ⟨token, keys, claims, htoken, husable, hclaims, he⟩ | ⟨_, _, -, he⟩
  · rw [he]
    exact .inl ⟨hactive, rfl⟩
  · rw [he]
    exact htoken
  · rw [he]
    obtain ⟨hkeys, hfresh⟩ := usable_eq_some husable
    obtain ⟨begun, hdelivered⟩ := h.cached keys hkeys
    exact .inr ⟨token, keys, begun, _, claims, htoken, hdelivered, hfresh, hclaims, rfl⟩
  · rw [he]
    trivial

theorem answer_justified (h : Inv Delivered s) {i : ℕ} {result : Option Keys} {arrived : ℚ} {token : String}
    {forced : Bool} {begun : ℚ} (ht : Timely Delivered s (.answer i result m))
    (hcaller : s.callers[i]? = some ⟨header, arrived, .fetching token forced begun⟩) :
    Justified settings decodeToken Delivered (.answer i result m)
      ⟨header, arrived, fetched decodeToken token forced result m⟩ := by
  obtain ⟨htoken, harrived⟩ := h.waiting i header arrived token forced begun hcaller
  obtain ⟨-, hdelivered⟩ := ht header arrived token forced begun hcaller
  unfold Justified
  dsimp only
  rcases fetched_cases decodeToken token forced result m with
    ⟨keys, claims, rfl, hclaims, he⟩ | ⟨keys, rfl, hnone, -, he⟩ | ⟨_, -, -, he⟩ | ⟨rfl, -, he⟩ | ⟨rfl, -, he⟩
  · rw [he]
    have hfresh : m.monotonic - m.monotonic < jwksTtlSeconds := by
      rw [sub_self]
      decide
    exact .inr ⟨token, keys, begun, _, claims, htoken, hdelivered keys rfl, hfresh, hclaims, rfl⟩
  · rw [he]
    exact .inr ⟨token, keys, begun, htoken, harrived, hdelivered keys rfl, hnone⟩
  · rw [he]
    trivial
  · rw [he]
    exact .inl ⟨i, m, rfl⟩
  · rw [he]
    exact ⟨i, m, rfl⟩

theorem step_sound (h : Inv Delivered s) {e : Event Keys} (ht : Timely Delivered s e) :
    Sound settings decodeToken Delivered ⟨s, e, step settings decodeToken s e⟩ := by
  rcases step_cases settings decodeToken s e with
    ⟨header, m, rfl, hs⟩ | ⟨i, result, m, header, arrived, token, forced, begun, rfl, hcaller, hs⟩ | hs
  · constructor
    · intro j caller hj
      dsimp only at hj ⊢
      rw [hs] at hj
      rcases lookup_append hj with hj | rfl
      · exact .inl hj
      · exact .inr (arrival_justified settings decodeToken h header m)
    · intro j caller hj _
      dsimp only at hj ⊢
      rw [hs]
      obtain ⟨hlt, -⟩ := List.getElem?_eq_some_iff.mp hj
      exact (List.getElem?_append_left hlt).trans hj
  · constructor
    · intro j caller hj
      dsimp only at hj ⊢
      rw [hs] at hj
      rcases lookup_set hj with ⟨-, hj⟩ | ⟨-, rfl⟩
      · exact .inl hj
      · exact .inr (answer_justified settings decodeToken h ht hcaller)
    · intro j caller hj hsettled
      dsimp only at hj ⊢
      have hij : i ≠ j := by
        intro hij
        rw [← hij, hcaller] at hj
        obtain rfl := Option.some.inj hj
        exact hsettled token forced begun rfl
      rw [hs]
      exact (List.getElem?_set_ne hij).trans hj
  · constructor
    · intro j caller hj
      dsimp only at hj ⊢
      rw [hs] at hj
      exact .inl hj
    · intro j caller hj _
      dsimp only at hj ⊢
      rw [hs]
      exact hj

def Phase.fetches : Phase → ℕ
  | .fetching _ false _ => 2
  | .fetching _ true _ => 1
  | _ => 0

def Event.answers (i : ℕ) : Event Keys → Bool
  | .arrive _ _ => false
  | .answer j _ _ => i = j

theorem step_fetches (e : Event Keys) {i : ℕ} {caller : Caller} (hcaller : s.callers[i]? = some caller) :
    ∃ caller', (step settings decodeToken s e).callers[i]? = some caller' ∧
      caller'.phase.fetches ≤ caller.phase.fetches - if e.answers i then 1 else 0 := by
  cases e with
  | arrive header m =>
    obtain ⟨hlt, -⟩ := List.getElem?_eq_some_iff.mp hcaller
    exact ⟨caller, (List.getElem?_append_left hlt).trans hcaller, le_rfl⟩
  | answer j result m =>
    by_cases hij : i = j
    · subst hij
      obtain ⟨header, arrived, phase⟩ := caller
      cases phase with
      | fetching token forced begun =>
        have hstep : (step settings decodeToken s (.answer i result m)).callers =
            s.callers.set i ⟨header, arrived, fetched decodeToken token forced result m⟩ := by
          simp only [step, hcaller]
        refine ⟨⟨header, arrived, fetched decodeToken token forced result m⟩, ?_, ?_⟩
        · rw [hstep, List.getElem?_set_self (List.getElem?_eq_some_iff.mp hcaller).1]
        · rcases fetched_cases decodeToken token forced result m with
            ⟨_, _, -, -, he⟩ | ⟨_, -, -, -, he⟩ | ⟨_, -, rfl, he⟩ | ⟨-, -, he⟩ | ⟨-, -, he⟩
          · rw [he]
            exact Nat.zero_le _
          · rw [he]
            exact Nat.zero_le _
          · rw [he]
            simp [Phase.fetches, Event.answers]
          · rw [he]
            exact Nat.zero_le _
          · rw [he]
            exact Nat.zero_le _
      | accepted _ =>
        simp only [step, hcaller]
        exact ⟨_, rfl, Nat.zero_le _⟩
      | rejected _ =>
        simp only [step, hcaller]
        exact ⟨_, rfl, Nat.zero_le _⟩
      | failed =>
        simp only [step, hcaller]
        exact ⟨_, rfl, Nat.zero_le _⟩
    · have hnone : (Event.answer j result m : Event Keys).answers i = false := by simpa [Event.answers] using hij
      rw [hnone]
      rcases step_cases settings decodeToken s (.answer j result m) with
        ⟨_, _, he, -⟩ | ⟨_, _, _, _, _, _, _, _, he, -, hs⟩ | hs
      · cases he
      · obtain ⟨rfl, rfl, rfl⟩ := Event.answer.inj he
        rw [hs]
        exact ⟨caller, (List.getElem?_set_ne (Ne.symm hij)).trans hcaller, le_rfl⟩
      · rw [hs]
        exact ⟨caller, hcaller, le_rfl⟩

theorem run_fetches (events : List (Event Keys)) {i : ℕ} {caller : Caller} (hcaller : s.callers[i]? = some caller) :
    ∃ caller', (run (step settings decodeToken) s events).callers[i]? = some caller' ∧
      caller'.phase.fetches ≤ caller.phase.fetches - (events.filter (Event.answers i)).length := by
  induction events generalizing s caller with
  | nil => exact ⟨caller, hcaller, le_rfl⟩
  | cons e events ih =>
    obtain ⟨caller₁, h₁, hle₁⟩ := step_fetches settings decodeToken e hcaller
    obtain ⟨caller', h', hle'⟩ := ih h₁
    refine ⟨caller', h', ?_⟩
    rw [List.filter_cons]
    split_ifs at hle₁ ⊢ with he
    · rw [List.length_cons]
      omega
    · omega

theorem fetches_eq_zero {phase : Phase} :
    phase.fetches = 0 ↔ ∀ token forced begun, phase ≠ .fetching token forced begun := by
  cases phase with
  | fetching token forced begun =>
    refine iff_of_false ?_ fun h ↦ h token forced begun rfl
    cases forced <;> simp [Phase.fetches]
  | accepted _ => exact iff_of_true rfl (by simp)
  | rejected _ => exact iff_of_true rfl (by simp)
  | failed => exact iff_of_true rfl (by simp)

/-- However the requests and their fetches interleave, a caller is accepted on a key set
fetched less than an hour ago, and a token is rejected only under a key set whose fetch
began after its request arrived or for want of one; an answer stands, and two fetches
bring it about. -/
theorem callers_justified (settings : Settings) (decodeToken : String → Keys → ℚ → Option Claims)
    (Delivered : Keys → ℚ → ℚ → Prop) (events : List (Event Keys))
    (htimely : ∀ t ∈ trace (step settings decodeToken) {} events, Timely Delivered t.before t.event) :
    (∀ t ∈ trace (step settings decodeToken) {} events, Sound settings decodeToken Delivered t) ∧
    ∀ (i : ℕ) (caller : Caller) (more : List (Event Keys)),
      (run (step settings decodeToken) {} events).callers[i]? = some caller →
      2 ≤ (more.filter (Event.answers i)).length →
      ∃ caller', (run (step settings decodeToken) (run (step settings decodeToken) {} events) more).callers[i]? =
        some caller' ∧ ∀ token forced begun, caller'.phase ≠ .fetching token forced begun := by
  constructor
  · have hstep : ∀ s e, Inv Delivered s → Timely Delivered s e → Inv Delivered (step settings decodeToken s e) :=
      fun _ _ h ht ↦ step_inv settings decodeToken h ht
    intro t ht
    obtain ⟨hinv, hafter⟩ := (trace_invariant_of inv_start hstep events htimely).2 t ht
    have hsound := step_sound settings decodeToken hinv (htimely t ht)
    rw [← hafter] at hsound
    exact hsound
  · intro i caller more hcaller htwo
    obtain ⟨caller', hcaller', hle⟩ := run_fetches settings decodeToken more hcaller
    have hmost : caller.phase.fetches ≤ 2 := by
      cases caller.phase with
      | fetching token forced begun => cases forced <;> simp [Phase.fetches]
      | accepted _ => exact Nat.zero_le _
      | rejected _ => exact Nat.zero_le _
      | failed => exact Nat.zero_le _
    exact ⟨caller', hcaller', fetches_eq_zero.mp (by omega)⟩

end Runs

section Rotation

def tenant : Settings := ⟨true, "tenant.example", "planner"⟩

def signed (token : String) (generation : ℕ) (_ : ℚ) : Option Claims :=
  if token = "first" ∧ generation = 1 ∨ token = "second" ∧ generation = 2 then some ⟨some token, none, none⟩ else none

def published (generation : ℕ) (begun ended : ℚ) : Prop :=
  generation = 1 ∧ begun < 20 ∨ generation = 2 ∧ 20 ≤ ended

def rotation : List (Event ℕ) :=
  [.arrive (some "Bearer first") ⟨1, 0⟩, .answer 0 (some 1) ⟨2, 0⟩, .arrive (some "Bearer second") ⟨30, 0⟩,
    .answer 1 (some 2) ⟨31, 0⟩]

theorem rotation_timely : ∀ t ∈ trace (step tenant signed) {} rotation, Timely published t.before t.event := by
  refine List.forall_mem_cons.mpr ⟨trivial, List.forall_mem_cons.mpr ⟨?_, List.forall_mem_cons.mpr
    ⟨trivial, List.forall_mem_cons.mpr ⟨?_, by simp [trace]⟩⟩⟩⟩
  · intro header arrived token forced begun h
    have hwaiting : (run (step tenant signed) {} (rotation.take 1)).callers[0]? =
        some ⟨some "Bearer first", 1, .fetching "first" false 1⟩ := by decide +kernel
    obtain ⟨-, -, hphase⟩ := Caller.mk.inj (Option.some.inj (hwaiting.symm.trans h))
    obtain ⟨-, -, rfl⟩ := Phase.fetching.inj hphase
    refine ⟨by decide, fun keys hkeys ↦ ?_⟩
    obtain rfl := Option.some.inj hkeys
    exact .inl ⟨rfl, by decide⟩
  · intro header arrived token forced begun h
    have hwaiting : (run (step tenant signed) {} (rotation.take 3)).callers[1]? =
        some ⟨some "Bearer second", 30, .fetching "second" true 30⟩ := by decide +kernel
    obtain ⟨-, -, hphase⟩ := Caller.mk.inj (Option.some.inj (hwaiting.symm.trans h))
    obtain ⟨-, -, rfl⟩ := Phase.fetching.inj hphase
    refine ⟨by decide, fun keys hkeys ↦ ?_⟩
    obtain rfl := Option.some.inj hkeys
    exact .inr ⟨rfl, by decide⟩

theorem callers_justified_rotation :
    (run (step tenant signed) {} rotation).callers.map Caller.phase =
        [.accepted ⟨"first", none, []⟩, .accepted ⟨"second", none, []⟩] ∧
      ∀ t ∈ trace (step tenant signed) {} rotation, Sound tenant signed published t :=
  ⟨by decide +kernel, (callers_justified tenant signed published rotation rotation_timely).1⟩

end Rotation

end TravelPlanner.CallerAuth
