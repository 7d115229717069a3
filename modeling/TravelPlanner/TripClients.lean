import TravelPlanner.Runs
import TravelPlanner.StoreInvariant
import TravelPlanner.TripRequests

namespace TravelPlanner.TripClients

open Clock Requests Windows DayPartition RouteService TripService TripRequests Snapshots Tables TripStore
open StoreInvariant Runs

inductive EditError
  | tripNotFound
  | tripDeleted
  | unsupportedPlanType
  | operation (message : String)
  | optimizerFailed (message : String)
  | persistence
  | concurrencyConflict
  | unexpected
  deriving DecidableEq

def optimizerError : SolverError → EditError
  | .matrixUnavailable .. => .optimizerFailed "The routing service is unavailable right now; nothing was saved."
  | .validation _ => .optimizerFailed "I couldn't re-plan the trip with those changes; nothing was saved."
  | .noCandidateDay => .optimizerFailed "I couldn't re-plan the trip with those changes; nothing was saved."
  | .assertion => .unexpected

structure Operations where
  apply : MultiDayRequest → Except String MultiDayRequest
  summary : String

inductive Outcome
  | success (detail : TripDetail)
  | removed (existed : Bool)
  | notFound
  | failed (e : TripError)
  | editFailed (e : EditError)

/-- A client between two of its accesses to the store. -/
inductive Client (Text Hash : Type)
  | uiStart (tripId : TripId)
  | uiHolding (tripId : TripId) (token : ℤ)
  | chatStart (tripId : TripId) (operations : Operations) (expected : ℤ)
  | chatReady (tripId : TripId) (request : TripSave) (summary : String)
  | chatConflicted (tripId : TripId)
  | restoreStart (tripId : TripId) (target expected : ℤ)
  | restoreHolding (tripId : TripId) (target expected : ℤ) (row : TripRow Text Hash)
  | restoreReady (tripId : TripId) (target expected : ℤ) (plan : RestorePlan Text Hash)
  | deleteStart (tripId : TripId)
  | done (outcome : Outcome)

structure Choice where
  now : String
  request : TripSave
  docs : List PlaceDoc
  world : World

def withToken (request : TripSave) (token : ℤ) : TripSave :=
  ⟨{ request.1 with expectedRevision := some token }, request.2⟩

def manualUpdateSummary (request : SaveTripRequest) : String :=
  match request.plan with
  | .multiDay r _ => s!"Manual update — MULTI_DAY, {r.places.length} places, {r.days.length} days"
  | .singleDay _ r _ => s!"Manual update — SINGLE_DAY, {r.placeIds.length} places"

variable {Text Hash : Type} (codec : SnapshotCodec Text Hash) (km : Haversine)

def editorPrepare (choice : Choice) (tripId : TripId) (operations : Operations) (expected : ℤ)
    (s : Store Text Hash) : Except EditError TripSave :=
  match get codec s tripId with
  | .error _ => .error .unexpected
  | .ok none => .error .tripNotFound
  | .ok (some trip) =>
    match trip.body with
    | .singleDay .. => .error .unsupportedPlanType
    | .multiDay _ _ _ _ request _ =>
      if trip.revision ≠ expected then .error .concurrencyConflict
      else
        match operations.apply request with
        | .error message => .error (.operation message)
        | .ok edited =>
          match optimizeTrip km choice.world edited choice.docs with
          | .error e => .error (optimizerError e)
          | .ok response =>
            let save : SaveTripRequest :=
              { name := trip.name, plan := .multiDay edited (.ofSolver response), expectedRevision := some expected }
            if h : save.validate = .ok () then .ok ⟨save, h⟩ else .error .unexpected

def editorAnswer (tripId : TripId) : Except TripError (Option TripDetail) → Client Text Hash
  | .error (.concurrencyConflict ..) => .chatConflicted tripId
  | .error .database => .done (.editFailed .persistence)
  | .error _ => .done (.editFailed .unexpected)
  | .ok none => .done (.editFailed .tripDeleted)
  | .ok (some updated) =>
    match updated.body with
    | .multiDay .. => .done (.success updated)
    | .singleDay .. => .done (.editFailed .unsupportedPlanType)

def uiAnswer : Except TripError (Option TripDetail) → Client Text Hash
  | .error e => .done (.failed e)
  | .ok none => .done .notFound
  | .ok (some updated) => .done (.success updated)

def restoreAnswer : Except TripError TripDetail → Client Text Hash
  | .error e => .done (.failed e)
  | .ok detail => .done (.success detail)

structure System (Text Hash : Type) where
  store : Store Text Hash
  clients : ℕ → Client Text Hash

abbrev Event := ℕ × Choice

section

variable [DecidableEq Hash]

def clientStep (choice : Choice) (s : Store Text Hash) : Client Text Hash → Client Text Hash × Store Text Hash
  | .uiStart tripId =>
    match get codec s tripId with
    | .error e => (.done (.failed e), s)
    | .ok none => (.done .notFound, s)
    | .ok (some trip) => (.uiHolding tripId trip.revision, s)
  | .uiHolding tripId token =>
    let request := withToken choice.request token
    let r := update codec tripId request .manual (manualUpdateSummary request.1) choice.now s
    (uiAnswer r.1, r.2)
  | .chatStart tripId operations expected =>
    match editorPrepare codec km choice tripId operations expected s with
    | .error e => (.done (.editFailed e), s)
    | .ok request => (.chatReady tripId request operations.summary, s)
  | .chatReady tripId request summary =>
    let r := update codec tripId request .orchestrator summary choice.now s
    (editorAnswer tripId r.1, r.2)
  | .chatConflicted tripId =>
    match get codec s tripId with
    | .error _ => (.done (.editFailed .unexpected), s)
    | .ok none => (.done (.editFailed .tripDeleted), s)
    | .ok (some _) => (.done (.editFailed .concurrencyConflict), s)
  | .restoreStart tripId target expected =>
    match restoreRead tripId target expected s with
    | .error e => (.done (.failed e), s)
    | .ok row => (.restoreHolding tripId target expected row, s)
  | .restoreHolding tripId target expected row =>
    match restoreTarget codec tripId target row s with
    | .error e => (.done (.failed e), s)
    | .ok plan => (.restoreReady tripId target expected plan, s)
  | .restoreReady tripId target expected plan =>
    let r := restoreCommit tripId target expected choice.now plan s
    (restoreAnswer r.1, r.2)
  | .deleteStart tripId =>
    let r := delete tripId s
    (.done (.removed r.1), r.2)
  | .done outcome => (.done outcome, s)

def step (sys : System Text Hash) (e : Event) : System Text Hash :=
  let r := clientStep codec km e.2 sys.store (sys.clients e.1)
  ⟨r.2, Function.update sys.clients e.1 r.1⟩

end

def Client.Start : Client Text Hash → Prop
  | .uiStart _ | .uiHolding .. | .chatStart .. | .restoreStart .. | .deleteStart _ => True
  | _ => False

def Client.update? (choice : Choice) : Client Text Hash → Option (TripId × TripSave)
  | .uiHolding tripId token => some (tripId, withToken choice.request token)
  | .chatReady tripId request _ => some (tripId, request)
  | _ => none

def Client.token : Client Text Hash → Option (TripId × ℤ)
  | .uiHolding tripId token => some (tripId, token)
  | .chatReady tripId request _ => request.1.expectedRevision.map (tripId, ·)
  | .restoreReady tripId _ expected _ => some (tripId, expected)
  | _ => none

def Client.Succeeded : Client Text Hash → Prop
  | .done (.success _) => True
  | _ => False

/-- An error, a not-found answer, or a conflict about to be reported as one. -/
def Client.Refused : Client Text Hash → Prop
  | .done .notFound | .done (.failed _) | .done (.editFailed _) | .chatConflicted _ => True
  | _ => False

/-- Everything one access of a client can do. -/
inductive Linearized (codec : SnapshotCodec Text Hash) (choice : Choice) (s : Store Text Hash)
    (c : Client Text Hash) : Client Text Hash × Store Text Hash → Prop
  | read {c' : Client Text Hash} (htoken : c.token = none) (hanswer : ∀ o, c' = .done o → c' = c ∨ c'.Refused)
      (hconflict : ∀ tripId, c = .chatConflicted tripId → ∃ e, c' = .done (.editFailed e)) :
      Linearized codec choice s c (c', s)
  | wrote {tripId : TripId} {token : ℤ} {c' : Client Text Hash} {s' : Store Text Hash}
      (htoken : c.token = some (tripId, token)) (hanswer : c'.Succeeded) (h : NewRevision codec s s' tripId token) :
      Linearized codec choice s c (c', s')
  | unchanged {tripId : TripId} {request : TripSave} {token : ℤ} {c' : Client Text Hash}
      (hupdate : c.update? choice = some (tripId, request)) (htoken : request.1.expectedRevision = some token)
      (hanswer : c'.Succeeded) (hcurrent : Current codec s tripId token (snapshotPayload request.1)) :
      Linearized codec choice s c (c', s)
  | refused {tripId : TripId} {token : ℤ} {c' : Client Text Hash} (htoken : c.token = some (tripId, token))
      (hanswer : c'.Refused) : Linearized codec choice s c (c', s)
  | deleted {tripId : TripId} (hc : c = .deleteStart tripId)
      (hmissing : (delete tripId s).1 = false → (delete tripId s).2 = s) :
      Linearized codec choice s c (.done (.removed (delete tripId s).1), (delete tripId s).2)

/-- What a client may rely on between its accesses. -/
def ClientInv (codec : SnapshotCodec Text Hash) (s : Store Text Hash) : Client Text Hash → Prop
  | .chatReady _ request _ => request.1.plan.planType = .multiDay ∧ ∃ token, request.1.expectedRevision = some token
  | .restoreHolding _ _ expected row => row.revision = expected
  | .restoreReady tripId _ expected plan => Restorable codec s tripId expected plan
  | _ => True

structure SystemInv (codec : SnapshotCodec Text Hash) (sys : System Text Hash) : Prop where
  store : StoreInv codec sys.store
  clients : ∀ i, ClientInv codec sys.store (sys.clients i)

variable {codec km} {s s' : Store Text Hash} {c : Client Text Hash} {choice : Choice}

theorem withToken_token (request : TripSave) (token : ℤ) :
    (withToken request token).1.expectedRevision = some token := rfl

theorem editorPrepare_spec {tripId : TripId} {operations : Operations} {expected : ℤ} {request : TripSave}
    (h : editorPrepare codec km choice tripId operations expected s = .ok request) :
    request.1.plan.planType = .multiDay ∧ request.1.expectedRevision = some expected := by
  unfold editorPrepare at h
  split at h <;> try cases h
  split at h <;> try cases h
  split_ifs at h
  split at h <;> try cases h
  split at h <;> try cases h
  dsimp only at h
  split_ifs at h
  obtain rfl := Except.ok.inj h
  exact ⟨rfl, rfl⟩

theorem update_linearized (hinj : Function.Injective codec.snapshotHash) (h : StoreInv codec s) {tripId : TripId}
    {request : TripSave} {token : ℤ} {r : Except TripError (Option TripDetail) × Store Text Hash}
    {answer : Except TripError (Option TripDetail) → Client Text Hash}
    (hupdate : c.update? choice = some (tripId, request)) (hc : c.token = some (tripId, token))
    (htoken : request.1.expectedRevision = some token)
    (hrefused : ∀ r, (∀ detail, r ≠ .ok (some detail)) → (answer r).Refused)
    (hanswer : ∀ detail : TripDetail, (answer (.ok (some detail))).Succeeded ∨
      (answer (.ok (some detail))).Refused ∧ detail.body.planType ≠ request.1.plan.planType)
    (hr : Updated codec s tripId request.1 r) : Linearized codec choice s c (answer r.1, r.2) := by
  cases hr with
  | refused hno => exact .refused hc (hrefused _ hno)
  | @unchanged row detail hrow hrev hhash =>
    rcases hanswer detail with hs | ⟨hno, _⟩
    · obtain rfl : token = row.revision := Option.some.inj (htoken.symm.trans hrev)
      exact .unchanged hupdate htoken hs (h.current hinj hrow hhash)
    · exact .refused hc hno
  | @advanced token' detail s' hrev hbody hnew =>
    obtain rfl : token = token' := Option.some.inj (htoken.symm.trans hrev)
    rcases hanswer detail with hs | ⟨_, hne⟩
    · exact .wrote hc hs hnew
    · exact absurd hbody hne

theorem uiAnswer_refused {r : Except TripError (Option TripDetail)} (h : ∀ detail, r ≠ .ok (some detail)) :
    (uiAnswer r : Client Text Hash).Refused := by
  match r with
  | .error e => trivial
  | .ok none => trivial
  | .ok (some detail) => exact absurd rfl (h detail)

theorem editorAnswer_refused (tripId : TripId) {r : Except TripError (Option TripDetail)}
    (h : ∀ detail, r ≠ .ok (some detail)) : (editorAnswer tripId r : Client Text Hash).Refused := by
  match r with
  | .error e => cases e <;> trivial
  | .ok none => trivial
  | .ok (some detail) => exact absurd rfl (h detail)

theorem editorAnswer_detail (tripId : TripId) (detail : TripDetail) :
    (editorAnswer tripId (.ok (some detail)) : Client Text Hash).Succeeded ∨
      (editorAnswer tripId (.ok (some detail)) : Client Text Hash).Refused ∧ detail.body.planType ≠ .multiDay := by
  obtain ⟨id, name, createdAt, updatedAt, revision, body⟩ := detail
  cases body with
  | singleDay => exact .inr ⟨trivial, by simp [DetailBody.planType]⟩
  | multiDay => exact .inl trivial

def Grows (s s' : Store Text Hash) : Prop :=
  ∀ id row', s'.trips.find id = some row' → ∃ row, s.trips.find id = some row ∧
    row.planType = row'.planType ∧ row.revision ≤ row'.revision

inductive Moved (codec : SnapshotCodec Text Hash) (s : Store Text Hash) : Store Text Hash → Prop
  | same : Moved codec s s
  | revised {s' : Store Text Hash} {tripId : TripId} {token : ℤ} (h : NewRevision codec s s' tripId token) :
      Moved codec s s'
  | deleted (tripId : TripId) : Moved codec s (delete tripId s).2

theorem Moved.inv (hm : Moved codec s s') (h : StoreInv codec s) : StoreInv codec s' := by
  cases hm with
  | same => exact h
  | revised hnew =>
    obtain ⟨row, row', rev, payload, _, _, ha, hkey, hrevision, hplan, hp, hr, hsnap⟩ := hnew
    exact advance_inv h ha hkey hrevision hplan hp hr hsnap
  | deleted tripId => exact delete_inv h tripId

theorem Moved.grows (hm : Moved codec s s') : Grows s s' := by
  cases hm with
  | same => exact fun _ row hrow ↦ ⟨row, hrow, rfl, le_rfl⟩
  | revised hnew =>
    obtain ⟨row, row', _, _, _, _, ha, _, hrevision, hplan, _⟩ := hnew
    intro id found hfound
    rw [ha.trips] at hfound
    split_ifs at hfound with hid
    · obtain rfl := Option.some.inj hfound
      exact ⟨row, by rw [← hid, ha.found], hplan.symm, by omega⟩
    · exact ⟨found, hfound, rfl, le_rfl⟩
  | deleted tripId =>
    intro id found hfound
    rw [(delete_spec _ s).1] at hfound
    split_ifs at hfound
    exact ⟨found, hfound, rfl, le_rfl⟩

theorem Linearized.store_moved {r : Client Text Hash × Store Text Hash} (h : Linearized codec choice s c r) :
    Moved codec s r.2 := by
  cases h with
  | read => exact .same
  | unchanged => exact .same
  | refused => exact .same
  | wrote _ _ hnew => exact .revised hnew
  | deleted => exact .deleted _

theorem Linearized.grows {r : Client Text Hash × Store Text Hash} (h : Linearized codec choice s c r) :
    Grows s r.2 := h.store_moved.grows

theorem Linearized.storeInv {r : Client Text Hash × Store Text Hash} (h : Linearized codec choice s c r)
    (hs : StoreInv codec s) : StoreInv codec r.2 := h.store_moved.inv hs

theorem ClientInv.mono (hc : ClientInv codec s c) (h : Grows s s') : ClientInv codec s' c := by
  cases c with
  | restoreReady tripId target expected plan =>
    obtain ⟨hrevision, hrecorded, hdisplay, hplan⟩ := hc
    refine ⟨hrevision, hrecorded, hdisplay, fun row' hrow' ↦ ?_⟩
    obtain ⟨row, hrow, htype, _⟩ := h tripId row' hrow'
    rw [hplan row hrow, htype]
  | uiStart | uiHolding | chatStart | chatReady | chatConflicted | restoreStart | restoreHolding | deleteStart
  | done => exact hc

/-- A revision that moved moved by one, with the token of the client that moved it. -/
theorem Linearized.moved {r : Client Text Hash × Store Text Hash} (h : Linearized codec choice s c r)
    {tripId : TripId} {row row' : TripRow Text Hash} (hrow : s.trips.find tripId = some row)
    (hrow' : r.2.trips.find tripId = some row') (hne : row'.revision ≠ row.revision) :
    row'.revision = row.revision + 1 ∧ c.token = some (tripId, row.revision) ∧ r.1.Succeeded := by
  cases h with
  | read => exact absurd (congrArg TripRow.revision (Option.some.inj (hrow'.symm.trans hrow))) hne
  | unchanged => exact absurd (congrArg TripRow.revision (Option.some.inj (hrow'.symm.trans hrow))) hne
  | refused => exact absurd (congrArg TripRow.revision (Option.some.inj (hrow'.symm.trans hrow))) hne
  | wrote htoken hanswer hnew =>
    obtain ⟨old, new, _, _, hid, htok, ha, _, hrevision, _⟩ := hnew
    rw [ha.trips] at hrow'
    split_ifs at hrow' with hsame
    · obtain rfl := Option.some.inj hrow'
      obtain rfl : old = row := Option.some.inj (ha.found.symm.trans (hsame ▸ hrow))
      exact ⟨hrevision, by rw [htoken, ← hid, hsame, htok], hanswer⟩
    · exact absurd (congrArg TripRow.revision (Option.some.inj (hrow'.symm.trans hrow))) hne
  | deleted =>
    rw [(delete_spec _ s).1] at hrow'
    split_ifs at hrow'
    exact absurd (congrArg TripRow.revision (Option.some.inj (hrow'.symm.trans hrow))) hne

variable [DecidableEq Hash]

theorem clientStep_linearized (km : Haversine) (choice : Choice)
    (hinj : Function.Injective codec.snapshotHash) (h : StoreInv codec s) (hc : ClientInv codec s c) :
    Linearized codec choice s c (clientStep codec km choice s c) := by
  cases c with
  | uiStart tripId =>
    simp only [clientStep]
    split <;> exact .read rfl (by simp [Client.Refused]) (by simp)
  | uiHolding tripId token =>
    exact update_linearized hinj h rfl rfl (withToken_token choice.request token) (fun _ ↦ uiAnswer_refused)
      (fun _ ↦ .inl trivial) (update_updated codec tripId _ _ _ _ s)
  | chatStart tripId operations expected =>
    simp only [clientStep]
    split <;> exact .read rfl (by simp [Client.Refused]) (by simp)
  | chatReady tripId request summary =>
    obtain ⟨hmulti, token, htoken⟩ := hc
    refine update_linearized hinj h rfl (by simp [Client.token, htoken]) htoken
      (fun _ ↦ editorAnswer_refused tripId) ?_ (update_updated codec tripId _ _ _ _ s)
    rw [hmulti]
    exact editorAnswer_detail tripId
  | chatConflicted tripId =>
    simp only [clientStep]
    split <;> exact .read rfl (by simp [Client.Refused]) (fun _ _ ↦ ⟨_, rfl⟩)
  | restoreStart tripId target expected =>
    simp only [clientStep]
    split <;> exact .read rfl (by simp [Client.Refused]) (by simp)
  | restoreHolding tripId target expected row =>
    simp only [clientStep]
    split <;> exact .read rfl (by simp [Client.Refused]) (by simp)
  | restoreReady tripId target expected plan =>
    simp only [clientStep]
    rcases restoreCommit_effect hc choice.now with ⟨e, he⟩ | ⟨detail, s', he, hnew⟩
    · rw [he]
      exact .refused rfl trivial
    · rw [he]
      exact .wrote rfl trivial hnew
  | deleteStart tripId => exact .deleted rfl (delete_missing h)
  | done outcome => exact .read rfl (fun _ _ ↦ .inl rfl) (by simp)

theorem clientStep_clientInv (km : Haversine) (choice : Choice) (h : StoreInv codec s) (hc : ClientInv codec s c) :
    ClientInv codec (clientStep codec km choice s c).2 (clientStep codec km choice s c).1 := by
  cases c with
  | uiStart tripId =>
    simp only [clientStep]
    split <;> trivial
  | uiHolding tripId token =>
    simp only [clientStep, uiAnswer]
    split <;> trivial
  | chatStart tripId operations expected =>
    simp only [clientStep]
    split
    · trivial
    · next request hrequest =>
      obtain ⟨hmulti, htoken⟩ := editorPrepare_spec hrequest
      exact ⟨hmulti, expected, htoken⟩
  | chatReady tripId request summary =>
    simp only [clientStep, editorAnswer]
    split <;> try trivial
    split <;> trivial
  | chatConflicted tripId =>
    simp only [clientStep]
    split <;> trivial
  | restoreStart tripId target expected =>
    simp only [clientStep]
    split
    · trivial
    · next row hrow => exact (restoreRead_spec hrow).2.1.symm
  | restoreHolding tripId target expected row =>
    simp only [clientStep]
    split
    · trivial
    · next plan hplan =>
      obtain rfl : row.revision = expected := hc
      exact restoreTarget_restorable h hplan
  | restoreReady tripId target expected plan =>
    simp only [clientStep, restoreAnswer]
    split <;> trivial
  | deleteStart tripId => trivial
  | done outcome => trivial

theorem step_linearized (km : Haversine) (hinj : Function.Injective codec.snapshotHash) {sys : System Text Hash}
    (h : SystemInv codec sys) (e : Event) : Linearized codec e.2 sys.store (sys.clients e.1)
      ((step codec km sys e).clients e.1, (step codec km sys e).store) := by
  have hstep := clientStep_linearized km e.2 hinj h.store (h.clients e.1)
  simpa only [step, Function.update_self] using hstep

theorem step_inv (km : Haversine) (hinj : Function.Injective codec.snapshotHash) (sys : System Text Hash)
    (e : Event) (h : SystemInv codec sys) : SystemInv codec (step codec km sys e) := by
  have hstep := step_linearized km hinj h e
  refine ⟨hstep.storeInv h.store, fun i ↦ ?_⟩
  by_cases hi : i = e.1
  · subst hi
    have hclient := clientStep_clientInv km e.2 h.store (h.clients e.1)
    simpa only [step, Function.update_self] using hclient
  · have hclient := (h.clients i).mono hstep.grows
    simpa only [step, Function.update_of_ne hi] using hclient

omit [DecidableEq Hash] in
theorem Client.Start.clientInv (h : c.Start) : ClientInv codec s c := by
  cases c with
  | chatReady | restoreHolding | restoreReady => exact h.elim
  | uiStart | uiHolding | chatStart | chatConflicted | restoreStart | deleteStart | done => trivial

abbrev Access (Text Hash : Type) := Transition (System Text Hash) Event

def Access.Linearized (codec : SnapshotCodec Text Hash) (t : Access Text Hash) : Prop :=
  TripClients.Linearized codec t.event.2 t.before.store (t.before.clients t.event.1)
    (t.after.clients t.event.1, t.after.store)

def Access.Creates (codec : SnapshotCodec Text Hash) (tripId : TripId) (token : ℤ) (t : Access Text Hash) : Prop :=
  NewRevision codec t.before.store t.after.store tripId token

/-- Whoever changes the revision of a trip held the one it found and is told so. -/
def Access.TokenHeld (t : Access Text Hash) : Prop :=
  ∀ tripId row row', t.before.store.trips.find tripId = some row → t.after.store.trips.find tripId = some row' →
    row'.revision ≠ row.revision → row'.revision = row.revision + 1 ∧
      (t.before.clients t.event.1).token = some (tripId, row.revision) ∧ (t.after.clients t.event.1).Succeeded

/-- Past a token no trip comes back to it. -/
def Passed (tripId : TripId) (token : ℤ) (sys : System Text Hash) : Prop :=
  ∀ row, sys.store.trips.find tripId = some row → token < row.revision

omit [DecidableEq Hash] in
theorem Access.Creates.passed {tripId : TripId} {token : ℤ} {t : Access Text Hash}
    (h : t.Creates codec tripId token) : ¬Passed tripId token t.before ∧ Passed tripId token t.after := by
  obtain ⟨row, row', _, _, rfl, rfl, ha, _, hrevision, _⟩ := h
  refine ⟨fun hp ↦ lt_irrefl _ (hp row ha.found), fun found hfound ↦ ?_⟩
  rw [ha.trips, if_pos rfl] at hfound
  rw [← Option.some.inj hfound, hrevision]
  omega

/-- In any interleaving of clients that start on any store the calls can reach, each
access is one of the allowed ones, revisions move by their holders only, and no
token is used twice. -/
theorem no_lost_update (codec : SnapshotCodec Text Hash) (km : Haversine)
    (hinj : Function.Injective codec.snapshotHash) (calls : List TripCall) (clients : ℕ → Client Text Hash)
    (hstart : ∀ i, (clients i).Start) (events : List Event) :
    (∀ t ∈ trace (step codec km) ⟨runCalls codec calls Store.empty, clients⟩ events,
      Access.Linearized codec t ∧ Access.TokenHeld t) ∧
    ∀ tripId token, (trace (step codec km) ⟨runCalls codec calls Store.empty, clients⟩ events).Pairwise
      fun t t' ↦ ¬(Access.Creates codec tripId token t ∧ Access.Creates codec tripId token t') := by
  have hinit : SystemInv codec ⟨runCalls codec calls Store.empty, clients⟩ :=
    ⟨runCalls_inv (StoreInv.empty codec) calls, fun i ↦ (hstart i).clientInv⟩
  have hstep := step_inv km hinj
  constructor
  · intro t ht
    obtain ⟨hinv, hafter⟩ := trace_invariant hinit hstep events t ht
    have hlin : Access.Linearized codec t := by
      rw [Access.Linearized, hafter]
      exact step_linearized km hinj hinv t.event
    exact ⟨hlin, fun tripId row row' hrow hrow' hne ↦ hlin.moved hrow hrow' hne⟩
  · intro tripId token
    refine trace_once (Passed tripId token) hinit hstep (fun t _ h ↦ h.passed.2) ?_
      (fun t hp h ↦ h.passed.1 hp) events
    intro sys e hinv hp row' hrow'
    obtain ⟨row, hrow, _, hle⟩ := (step_linearized km hinj hinv e).grows tripId row' hrow'
    have hlt := hp row hrow
    omega

def plainCodec : SnapshotCodec Payload Payload := ⟨id, id, some, fun _ ↦ rfl⟩

def juneTrip (name : String) (h : 1 ≤ name.length ∧ name.length ≤ 200) : TripSave :=
  ⟨{ name := name, plan := .multiDay changeover ⟨[], changeover.transportMode, []⟩ }, by
    simp only [SaveTripRequest.validate, then_ok, check_ok]
    exact ⟨h, changeover_valid⟩⟩

def renameTo (name : String) (h : 1 ≤ name.length ∧ name.length ≤ 200) : Choice :=
  ⟨"2026-06-01T08:00:00", juneTrip name h, changeoverDocs, steadyWorld⟩

theorem june_named : 1 ≤ "June".length ∧ "June".length ≤ 200 := by decide

theorem alps_named : 1 ≤ "Alps".length ∧ "Alps".length ≤ 200 := by decide

theorem no_lost_update_race :
    (∀ t ∈ trace (step plainCodec gridDistance)
        ⟨runCalls plainCodec [.save "trip" (juneTrip "June" (by decide)) "2026-05-01T08:00:00"] Store.empty,
          fun _ ↦ .uiHolding "trip" 0⟩ [(0, renameTo "Alps" (by decide)), (1, renameTo "Lakes" (by decide))],
      Access.Linearized plainCodec t ∧ Access.TokenHeld t) ∧
    ∀ tripId token, (trace (step plainCodec gridDistance)
        ⟨runCalls plainCodec [.save "trip" (juneTrip "June" (by decide)) "2026-05-01T08:00:00"] Store.empty,
          fun _ ↦ .uiHolding "trip" 0⟩
        [(0, renameTo "Alps" (by decide)), (1, renameTo "Lakes" (by decide))]).Pairwise
      fun t t' ↦ ¬(Access.Creates plainCodec tripId token t ∧ Access.Creates plainCodec tripId token t') :=
  no_lost_update plainCodec gridDistance (fun _ _ h ↦ h) _ (fun _ ↦ .uiHolding "trip" 0) (fun _ ↦ trivial) _

end TravelPlanner.TripClients
