import TravelPlanner.SnapshotJson
import TravelPlanner.StoreInvariant

namespace TravelPlanner.SnapshotIdentity

open Clock IsoDates Fallible Requests SavedPlans Snapshots Tables TripStore StoreInvariant JsonText

/-- A detail body shows a plan: its request and its response, and the date of a single
day as a text. -/
def ShowsPlan : DetailBody → TripPlan → Prop
  | .singleDay shown request response .., .singleDay date request' response' =>
    shown = isoformat date ∧ request = request' ∧ response = response'
  | .multiDay _ _ _ _ request response, .multiDay request' response' => request = request' ∧ response = response'
  | _, _ => False

/-- What a detail and a save request have in common when one is the content of the
other; the concurrency token is no content. -/
def Shows (d : TripDetail) (r : SaveTripRequest) : Prop := d.name = r.name ∧ ShowsPlan d.body r.plan

section Content

variable {p : Payload} {tripId createdAt : String} {revision : ℤ} {updatedAt : Option String} {d : TripDetail}

theorem detail_showsPlan (h : detailFromSnapshot tripId p revision createdAt updatedAt = some d) :
    d.name = p.name ∧ d.revision = revision ∧ ∀ plan, ShowsPlan d.body plan ↔ p.plan = plan := by
  obtain ⟨name, plan, version⟩ := p
  simp only [detailFromSnapshot] at h
  split_ifs at h
  cases plan with
  | singleDay date request response =>
    obtain rfl := Option.some.inj h
    refine ⟨rfl, rfl, fun plan ↦ ?_⟩
    cases plan with
    | singleDay date' request' response' =>
      simp only [ShowsPlan, isoformat_strictMono.injective.eq_iff, TripPlan.singleDay.injEq]
    | multiDay request' response' => simp [ShowsPlan]
  | multiDay request response =>
    simp only [Option.bind_eq_bind, Option.bind_eq_some_iff] at h
    obtain ⟨_, _, _, _, h⟩ := h
    obtain rfl := Option.some.inj h
    refine ⟨rfl, rfl, fun plan ↦ ?_⟩
    cases plan with
    | singleDay date' request' response' => simp [ShowsPlan]
    | multiDay request' response' => simp only [ShowsPlan, TripPlan.multiDay.injEq]

theorem snapshotPayload_eq_iff {r r' : SaveTripRequest} :
    snapshotPayload r = snapshotPayload r' ↔ r.name = r'.name ∧ r.plan = r'.plan := by
  simp [snapshotPayload]

theorem detail_shows {r₀ r : SaveTripRequest}
    (h : detailFromSnapshot tripId (snapshotPayload r₀) revision createdAt updatedAt = some d) :
    Shows d r ↔ snapshotPayload r₀ = snapshotPayload r := by
  obtain ⟨hname, -, hplan⟩ := detail_showsPlan h
  rw [Shows, hname, hplan, snapshotPayload_eq_iff]
  rfl

end Content

section Stored

variable {Text Hash : Type} {codec : SnapshotCodec Text Hash} {s s' : Store Text Hash}

theorem canonicalJson_injective (codec : SnapshotCodec Text Hash) : Function.Injective codec.canonicalJson := by
  intro p p' h
  have hread := codec.parse_canonicalJson p
  rw [h, codec.parse_canonicalJson] at hread
  exact (Option.some.inj hread).symm

def IsCanonical (codec : SnapshotCodec Text Hash) (snapshot : Text) : Prop :=
  ∃ r, snapshot = codec.canonicalJson (snapshotPayload r)

/-- Every stored text was written by the serialiser, for some request. -/
structure Canonical (codec : SnapshotCodec Text Hash) (s : Store Text Hash) : Prop where
  trips : ∀ id row, s.trips.find id = some row → IsCanonical codec row.snapshot
  revisions : ∀ key rev, s.revisions.find key = some rev → IsCanonical codec rev.snapshot

theorem Canonical.empty (codec : SnapshotCodec Text Hash) : Canonical codec (Store.empty : Store Text Hash) where
  trips := by simp [Store.empty]
  revisions := by simp [Store.empty]

theorem Canonical.write (h : Canonical codec s) {id₀ : TripId} {row : TripRow Text Hash} {key₀ : TripId × ℤ}
    {rev : RevisionRow Text Hash}
    (htrips : ∀ id, s'.trips.find id = if id₀ = id then some row else s.trips.find id)
    (hrevisions : ∀ key, s'.revisions.find key = if key₀ = key then some rev else s.revisions.find key)
    (hrow : IsCanonical codec row.snapshot) (hrev : IsCanonical codec rev.snapshot) : Canonical codec s' := by
  constructor
  · intro id found hfound
    rw [htrips] at hfound
    split_ifs at hfound
    · obtain rfl := Option.some.inj hfound
      exact hrow
    · exact h.trips id found hfound
  · intro key found hfound
    rw [hrevisions] at hfound
    split_ifs at hfound
    · obtain rfl := Option.some.inj hfound
      exact hrev
    · exact h.revisions key found hfound

theorem Canonical.create (h : Canonical codec s) {row : TripRow Text Hash} {rev : RevisionRow Text Hash}
    (hc : Created s s' row rev) (hrow : IsCanonical codec row.snapshot) (hrev : IsCanonical codec rev.snapshot) :
    Canonical codec s' := h.write hc.trips hc.revisions hrow hrev

theorem Canonical.advance (h : Canonical codec s) {row row' : TripRow Text Hash} {rev : RevisionRow Text Hash}
    (ha : Advanced s s' row row' rev) (hrow : IsCanonical codec row'.snapshot)
    (hrev : IsCanonical codec rev.snapshot) : Canonical codec s' := h.write ha.trips ha.revisions hrow hrev

theorem Canonical.delete (h : Canonical codec s) (tripId : TripId) : Canonical codec (delete tripId s).2 := by
  obtain ⟨htrips, hrevisions⟩ := delete_spec tripId s
  constructor
  · intro id found hfound
    rw [htrips] at hfound
    split_ifs at hfound
    exact h.trips id found hfound
  · intro key found hfound
    rw [hrevisions] at hfound
    split_ifs at hfound
    exact h.revisions key found hfound

/-- What a block that returns leaves true is true after the transaction. -/
theorem transaction_keeps {A : Type} {P : Store Text Hash → Prop}
    {block : Store Text Hash → Except TripError (A × Store Text Hash)} (h : P s)
    (hblock : ∀ a s', block s = .ok (a, s') → P s') : P (transaction block s).2 := by
  rcases transaction_cases block s with ⟨e, he⟩ | ⟨a, s', hok, he⟩
  · rw [he]
    exact h
  · rw [he]
    exact hblock a s' hok

theorem save_canonical (h : Canonical codec s) (tripId : TripId) (request : TripSave) (now : String) :
    Canonical codec (save codec tripId request now s).2 := by
  obtain ⟨display, -, hbuild⟩ := buildSnapshot_total codec request.2
  simp only [save, hbuild, load_canonical]
  refine transaction_keeps h fun u s' hblock ↦ ?_
  exact h.create (createBlock_spec hblock) ⟨request.1, rfl⟩ ⟨request.1, rfl⟩

theorem restore_canonical (h : Canonical codec s) (tripId : TripId) (target expected : ℤ) (now : String) :
    Canonical codec (restoreRevision codec tripId target expected now s).2 := by
  unfold restoreRevision
  split
  · exact h
  · next row hread =>
    split
    · exact h
    · next plan hplan =>
      obtain ⟨-, htarget, -, -⟩ := restoreTarget_spec hplan
      have hsnapshot := h.revisions _ _ htarget
      simp only [restoreCommit]
      refine transaction_keeps h fun u s' hblock ↦ ?_
      obtain ⟨row, -, -, ha⟩ := restoreBlock_spec hblock
      exact h.advance ha hsnapshot hsnapshot

theorem Canonical.stored (h : Canonical codec s) {tripId : TripId} {d : TripDetail}
    (hget : get codec s tripId = .ok (some d)) :
    ∃ row r₀, s.trips.find tripId = some row ∧ row.snapshot = codec.canonicalJson (snapshotPayload r₀) ∧
      loadSnapshot codec row.snapshot row.compression = some (snapshotPayload r₀) ∧
      detailFromSnapshot tripId (snapshotPayload r₀) row.revision row.createdAt row.updatedAt = some d := by
  obtain ⟨row, payload, hrow, hload, hdetail⟩ := get_eq_some.mp hget
  obtain ⟨r₀, hsnapshot⟩ := h.trips tripId row hrow
  have hsame : payload = snapshotPayload r₀ := by
    have hparse := hload
    unfold loadSnapshot at hparse
    split_ifs at hparse
    rw [hsnapshot, codec.parse_canonicalJson] at hparse
    exact (Option.some.inj hparse).symm
  exact ⟨row, r₀, hrow, hsnapshot, hsame ▸ hload, hsame ▸ hdetail⟩

variable [DecidableEq Hash]

theorem update_canonical (h : Canonical codec s) (tripId : TripId) (request : TripSave) (source : TripUpdateSource)
    (summary now : String) : Canonical codec (update codec tripId request source summary now s).2 := by
  obtain ⟨display, -, hbuild⟩ := buildSnapshot_total codec request.2
  simp only [update, hbuild, load_canonical]
  refine transaction_keeps h fun answer s' hblock ↦ ?_
  rcases updateBlock_cases hblock with ⟨-, -, rfl⟩ | ⟨row, -, -, -, ⟨-, rfl, -⟩ | ⟨-, -, ha⟩⟩
  · exact h
  · exact h
  · exact h.advance ha ⟨request.1, rfl⟩ ⟨request.1, rfl⟩

theorem import_canonical (h : Canonical codec s) (tripId : TripId) (request : TripSave) (revision : ℤ)
    (createdAt now : String) :
    Canonical codec (importMigrationBaseline codec tripId request revision createdAt now s).2 := by
  obtain ⟨display, -, hbuild⟩ := buildSnapshot_total codec request.2
  simp only [importMigrationBaseline, hbuild, load_canonical]
  split
  · split_ifs <;> exact h
  · split_ifs
    · exact h
    · refine transaction_keeps h fun u s' hblock ↦ ?_
      exact h.create (createBlock_spec hblock) ⟨request.1, rfl⟩ ⟨request.1, rfl⟩

theorem runCall_canonical (h : Canonical codec s) (call : TripCall) : Canonical codec (runCall codec s call).2 := by
  cases call with
  | save tripId request now => exact save_canonical h tripId request now
  | update tripId request source summary now => exact update_canonical h tripId request source summary now
  | restoreRevision tripId target expected now => exact restore_canonical h tripId target expected now
  | delete tripId => exact h.delete tripId
  | importMigrationBaseline tripId request revision createdAt now =>
    exact import_canonical h tripId request revision createdAt now

theorem runCalls_canonical (h : Canonical codec s) (calls : List TripCall) :
    Canonical codec (runCalls codec calls s) := by
  induction calls generalizing s with
  | nil => exact h
  | cons call calls ih => exact ih (runCall_canonical h call)

theorem update_noop {tripId : TripId} {request : TripSave} {row : TripRow Text Hash} {payload : Payload}
    {d : TripDetail} (source : TripUpdateSource) (summary now : String) (hrow : s.trips.find tripId = some row)
    (htype : row.planType = request.1.plan.planType) (htoken : request.1.expectedRevision = some row.revision)
    (hhash : codec.snapshotHash (codec.canonicalJson (snapshotPayload request.1)) = row.snapshotHash)
    (hload : loadSnapshot codec row.snapshot row.compression = some payload)
    (hdetail : detailFromSnapshot tripId payload row.revision row.createdAt row.updatedAt = some d) :
    update codec tripId request source summary now s = (.ok (some d), s) := by
  obtain ⟨display, -, hbuild⟩ := buildSnapshot_total codec request.2
  have hblock : updateBlock codec tripId request.1 source summary now
      (codec.canonicalJson (snapshotPayload request.1))
      (codec.snapshotHash (codec.canonicalJson (snapshotPayload request.1))) display (snapshotPayload request.1) s =
      .ok (some d, s) := by
    simp only [updateBlock, hrow, htype, htoken, hhash, hload, hdetail, ne_eq, not_true_eq_false, if_false, if_true,
      orRaise, bind, Except.bind]
    rfl
  simp only [update, hbuild, load_canonical, transaction, hblock]

/-- With the revision the caller was shown and a hash without collisions, an update
answers with the detail it was shown, and writes nothing, exactly when it changes
nothing. -/
theorem noop_iff_unchanged (hinj : Function.Injective codec.snapshotHash) (hinv : StoreInv codec s)
    (h : Canonical codec s) {tripId : TripId} {d : TripDetail} (hget : get codec s tripId = .ok (some d))
    {request : TripSave} (htoken : request.1.expectedRevision = some d.revision) (source : TripUpdateSource)
    (summary now : String) :
    update codec tripId request source summary now s = (.ok (some d), s) ↔ Shows d request.1 := by
  obtain ⟨row, r₀, hrow, hsnapshot, hload, hdetail⟩ := h.stored hget
  obtain ⟨payload, hprojected⟩ := hinv.projected tripId row hrow
  obtain rfl : payload = snapshotPayload r₀ := Option.some.inj (hprojected.loads.symm.trans hload)
  have hhash : row.snapshotHash = codec.snapshotHash (codec.canonicalJson (snapshotPayload r₀)) := by
    rw [hprojected.hash, hsnapshot]
  rw [(detail_showsPlan hdetail).2.1] at htoken
  rw [detail_shows hdetail]
  constructor
  · intro hupdate
    have hupdated := update_updated codec tripId request source summary now s
    rw [hupdate] at hupdated
    cases hupdated with
    | refused hr => exact absurd rfl (hr d)
    | unchanged hrow' _ hdigest =>
      obtain rfl := Option.some.inj (hrow.symm.trans hrow')
      exact (canonicalJson_injective codec (hinj (hdigest.trans hhash))).symm
    | advanced _ _ hnew =>
      -- the row would have to be its own successor
      obtain ⟨old, new, _, _, _, _, ha, _, hrevision, _⟩ := hnew
      have hnext := ha.trips old.id
      rw [if_pos rfl, ha.found] at hnext
      obtain rfl := Option.some.inj hnext
      omega
  · intro hsame
    refine update_noop source summary now hrow ?_ htoken ?_ hload hdetail
    · rw [hprojected.planType, (snapshotPayload_eq_iff.mp hsame).2.symm]
      rfl
    · rw [hhash, hsame]

end Stored

section Lossless

open SnapshotJson
open JsonStrings (Text)

/-- The snapshot codec loses nothing: what was encoded is decoded and validated to the
content of the request, canonical texts are equal exactly for equal contents, and
on every store the calls can reach an update is a no-op exactly when the content is
the stored one. -/
theorem snapshot_lossless (ft : FloatText Coord) {Hash : Type} [DecidableEq Hash] (snapshotHash : Text → Hash) :
    (∀ (r : TripSave) (tripId : TripId) (revision : ℤ) (createdAt : String) (updatedAt : Option String),
      ∃ canonical digest display payload d,
        buildSnapshot (jsonCodec ft snapshotHash) r.1 = some (canonical, digest, display) ∧
        SnapshotJson.loadSnapshot ft canonical .none = some payload ∧
        SnapshotJson.detailFromSnapshot tripId payload revision createdAt updatedAt = some d ∧ Shows d r.1) ∧
    (∀ r r' : TripSave, canonicalJson ft (payloadJson (snapshotPayload r.1)) =
        canonicalJson ft (payloadJson (snapshotPayload r'.1)) ↔ r.1.name = r'.1.name ∧ r.1.plan = r'.1.plan) ∧
    ∀ (calls : List TripCall) (tripId : TripId) (d : TripDetail) (r : TripSave) (source : TripUpdateSource)
      (summary now : String), Function.Injective snapshotHash →
      get (jsonCodec ft snapshotHash) (runCalls (jsonCodec ft snapshotHash) calls Store.empty) tripId = .ok (some d) →
      r.1.expectedRevision = some d.revision →
      (update (jsonCodec ft snapshotHash) tripId r source summary now
          (runCalls (jsonCodec ft snapshotHash) calls Store.empty) =
        (.ok (some d), runCalls (jsonCodec ft snapshotHash) calls Store.empty) ↔ Shows d r.1) := by
  refine ⟨?_, ?_, ?_⟩
  · intro r tripId revision createdAt updatedAt
    obtain ⟨display, hdisplay, hbuild⟩ := buildSnapshot_total (jsonCodec ft snapshotHash) r.2
    obtain ⟨d, hd, -⟩ := detail_agrees (save_plan_valid r.2) tripId revision createdAt updatedAt hdisplay
    obtain ⟨payload, hload, hdetail⟩ := loadSnapshot_dictionary (load_canonical (snapshotPayload r.1))
    refine ⟨_, _, display, payload, d, hbuild, hload, ?_, (detail_shows hd).mpr rfl⟩
    rw [hdetail]
    exact hd
  · intro r r'
    rw [← snapshotPayload_eq_iff]
    exact (canonicalJson_injective (jsonCodec ft snapshotHash)).eq_iff
  · intro calls tripId d r source summary now hinj hget htoken
    exact noop_iff_unchanged hinj (runCalls_inv (StoreInv.empty _) calls)
      (runCalls_canonical (Canonical.empty _) calls) hget htoken source summary now

end Lossless

section Scenarios

open JsonRoundTrip SnapshotJson
open JsonStrings (Text)

def exponentText (den : ℕ) : Text := if den = 1 then [] else 'e' :: Nat.toDigits 10 den

def pointText (x : ℚ) : Text := intText x.num ++ '.' :: '0' :: exponentText x.den

def readExponent : Text → ℕ
  | [] => 1
  | _ :: digits => Nat.ofDigitChars 10 digits 0

def readPoint (s : Text) : Option ℚ :=
  some (mkRat (intValue (s.takeWhile (· != '.'))) (readExponent ((s.dropWhile (· != '.')).drop 2)))

theorem intText_pointless (n : ℤ) : ∀ c ∈ intText n, (c != '.') = true := by
  have hdigits : ∀ m : ℕ, ∀ c ∈ Nat.toDigits 10 m, (c != '.') = true := by
    intro m c hc
    have hdigit := toDigits_isDigit hc
    rw [bne_iff_ne]
    rintro rfl
    exact absurd hdigit (by decide)
  cases n with
  | ofNat n => exact hdigits n
  | negSucc n => exact List.forall_mem_cons.mpr ⟨by decide, hdigits (n + 1)⟩

theorem readExponent_exponentText (den : ℕ) : readExponent (exponentText den) = den := by
  unfold exponentText
  split_ifs with h
  · exact h.symm
  · exact Nat.ofDigitChars_ten_toDigits

theorem readPoint_pointText (x : ℚ) : readPoint (pointText x) = some x := by
  have hall := intText_pointless x.num
  rw [readPoint, pointText, List.takeWhile_append_of_pos hall, List.dropWhile_append_of_pos hall]
  simp [intValue_intText, readExponent_exponentText, Rat.mkRat_self]

theorem lexExponent_exponentText (den : ℕ) : lexExponent (exponentText den) = (exponentText den, []) := by
  unfold exponentText
  split_ifs with h
  · rfl
  · obtain ⟨c, cs, hshape, hdigit, hminus⟩ := toDigits_ne_minus den
    have hsign : lexSign (Nat.toDigits 10 den) = ([], Nat.toDigits 10 den) := by
      have hplus : c ≠ '+' := by
        rintro rfl
        exact absurd hdigit (by decide)
      rw [hshape, lexSign, if_neg (by simp [hplus, hminus])]
    have hall : ∀ d ∈ Nat.toDigits 10 den, d.isDigit = true := fun d hd ↦ toDigits_isDigit hd
    have htake := List.takeWhile_eq_self_iff.mpr hall
    have hdrop := List.dropWhile_eq_nil_iff.mpr hall
    have hne : Nat.toDigits 10 den ≠ [] := by simp [hshape]
    simp only [lexExponent, hsign, htake, hdrop, true_or, true_and, if_pos hne, List.nil_append, List.cons_append]

theorem pointText_lexed (x : ℚ) : lexNumber (pointText x) =
    some (intText x.num, '.' :: '0' :: exponentText x.den, []) := by
  have hstop : ∀ c ∈ ('.' :: '0' :: exponentText x.den).head?, c.isDigit = false := by simp
  have hint := lexInt_append hstop (lexInt_intText x.num)
  have hfraction : lexFraction ('.' :: '0' :: exponentText x.den) = (['.', '0'], exponentText x.den) := by
    unfold exponentText
    split_ifs <;> rfl
  rw [lexNumber, pointText, hint]
  simp [hfraction, lexExponent_exponentText]

def points : FloatText Coord where
  write := pointText
  read := readPoint
  read_write := readPoint_pointText
  lexed x := ⟨_, _, by simp, rfl, pointText_lexed x⟩

example : canonicalJson points (transferEndpoint.dump ⟨"Hut", 50, 20⟩) =
    "\x7b\"lat\":50.0,\"lng\":20.0,\"name\":\"Hut\"\x7d".toList := by decide

theorem get_saved {Hash : Type} [DecidableEq Hash] (codec : SnapshotCodec Text Hash) {tripId : TripId}
    {request : TripSave} {now : String} {d : TripDetail}
    (hd : Snapshots.detailFromSnapshot tripId (snapshotPayload request.1) 0 now none = some d) :
    get codec (runCalls codec [.save tripId request now] Store.empty) tripId = .ok (some d) := by
  obtain ⟨display, -, hbuild⟩ := buildSnapshot_total codec request.2
  have hzero : Bindable 0 := by decide
  refine get_eq_some.mpr ⟨newTripRow tripId (snapshotPayload request.1)
    (codec.canonicalJson (snapshotPayload request.1))
    (codec.snapshotHash (codec.canonicalJson (snapshotPayload request.1))) display 0 now, _, ?_,
    load_canonical _, hd⟩
  simp [runCalls, runCall, save, hbuild, transaction, createBlock, insertTripRow, insertRevision, newTripRow, hzero,
    Store.empty, Table.insert, Table.empty, Table.find, orRaise, bind, Except.bind, Except.map, RevisionRow.key, pure,
    Except.pure]

def springRequest : OptimizeRequest := { placeIds := ["garden"], startLat := some 50, startLng := some 20 }

def springResponse : OptimizeResponse where
  steps := [⟨"garden", none, some 50, some 20, ⟨secondsToTime 36000, none⟩, ⟨secondsToTime 39600, none⟩, 600, 60, 0⟩]
  totalTravelTimeS := 600
  totalVisitTimeMin := 60
  totalWaitMin := 0
  transportMode := .walk
  skipped := []

def springPlan : TripPlan :=
  .singleDay ⟨2035, 3, 21, by decide, by decide, by decide⟩ springRequest springResponse

theorem springTrip_valid : SaveTripRequest.validate ⟨"Spring", springPlan, none⟩ = .ok () := by decide

def springTrip (expectedRevision : Option ℤ) : TripSave :=
  ⟨⟨"Spring", springPlan, expectedRevision⟩, springTrip_valid⟩

def springStore : Store Text Text :=
  runCalls (jsonCodec points id) [.save "spring" (springTrip none) "2035-01-01T08:00:00"] Store.empty

def springDetail : TripDetail where
  id := "spring"
  name := "Spring"
  createdAt := "2035-01-01T08:00:00"
  updatedAt := none
  revision := 0
  body := .singleDay "2035-03-21" springRequest springResponse ["garden"] .walk 9 21

theorem springStore_get : get (jsonCodec points id) springStore "spring" = .ok (some springDetail) :=
  get_saved (jsonCodec points id) rfl

theorem springStore_noop : update (jsonCodec points id) "spring" (springTrip (some 0)) .manual "again"
      "2035-01-02T08:00:00" springStore = (.ok (some springDetail), springStore) ↔
    Shows springDetail (springTrip (some 0)).1 :=
  (snapshot_lossless points id).2.2 [.save "spring" (springTrip none) "2035-01-01T08:00:00"] "spring" springDetail
    (springTrip (some 0)) .manual "again" "2035-01-02T08:00:00" Function.injective_id springStore_get rfl

end Scenarios

end TravelPlanner.SnapshotIdentity
