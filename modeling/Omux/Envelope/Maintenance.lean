import Omux.Envelope.Check

/-!
# The reserve for maintenance

The engine prepays the span of every scalar of every legal slot of the domain.  What the
present records have widened already is taken off, so the encoding and the reserve
together do not depend on the scalars.
-/

namespace Omux.Envelope

open Library List
open Admission (maximumSnapshotBytes)
open Domain (FloatFormat maxRecords snapshotSections u64)

inductive MaintenanceError where
  | measure (error : MeasureError)
  | checkpointTooLarge

abbrev Reserving := Except MaintenanceError

def measured {α : Type} (x : Measured α) : Reserving α :=
  x.mapError .measure

def remainingReservation (serializedBytes : Nat) : Reserving Nat := do
  failIf (decide (maxLifecycleCheckpointBytes < serializedBytes)) .checkpointTooLarge
  .ok (maxLifecycleCheckpointBytes - serializedBytes)

def epochShape : Shape Nat := .ofScalar u64

def reserveLifecycle (part : Option LifecycleRecorder) (reserve : Nat) : Reserving Nat :=
  match part with
  | none => .ok reserve
  | some measurements => do
    let actual <- measured (countJson maxLifecycleCheckpointBytes measurements.json)
    let left <- remainingReservation actual
    .ok (reserve + left)

def reserveBrowser (part : Option Browser.Snapshot) (reserve : Nat) : Reserving Nat :=
  match part with
  | none => .ok reserve
  | some attempts => do
    let actual <- measured (countJson Browser.maximumSnapshotBytes attempts.json)
    let left <- measured (subtract Browser.maximumSnapshotBytes actual)
    .ok (reserve + left)

def maintenanceReservation (format : FloatFormat) (saved : Persisted) : Reserving Nat := do
  let reserve <- measured (Section.reserveAll maxRecords (snapshotSections format) saved.state 0)
  let reserve := reserve + epochShape.span * (maxRecords + saved.adapterEpochs.size + 1)
  let reserve <- measured (epochShape.spend reserve
    (saved.importSourceAuthority.map ImportSourceAuthority.generation))
  let reserve <- measured (epochShape.spend reserve saved.adapterEpochs.toList)
  let reserve <- measured (epochShape.spend reserve [saved.importForgetEpoch])
  let reserve := reserve + outcomeIntentShape.span * saved.outcomeIntents.length
  let reserve <- measured (outcomeIntentShape.spend reserve saved.outcomeIntents)
  let reserve <- reserveLifecycle saved.lifecycleMeasurements reserve
  reserveBrowser saved.browserAttemptAuthority reserve

/-!
## Envelopes that differ in scalars only
-/

namespace Persisted

/-- The same texts, lists and optional records; the reserve itself is left out. -/
structure SameTexts (format : FloatFormat) (a b : Persisted) : Prop where
  schemaVersion : a.schemaVersion = b.schemaVersion
  lifecycleMeasurements : a.lifecycleMeasurements = b.lifecycleMeasurements
  browserAttemptAuthority : a.browserAttemptAuthority = b.browserAttemptAuthority
  state : (snapshotSections format).all (fun part => part.same a.state b.state) = true
  policy : a.policy = b.policy
  installedIntegrations : a.installedIntegrations = b.installedIntegrations
  sourceDescriptions : a.sourceDescriptions = b.sourceDescriptions
  requestAuthority : a.requestAuthority = b.requestAuthority
  mutationAuthority : a.mutationAuthority = b.mutationAuthority
  snapshotAdmission : a.snapshotAdmission = b.snapshotAdmission
  importSourceAuthority : importSourceAuthorityShape.sameAll a.importSourceAuthority
    b.importSourceAuthority = true
  outcomeIntents : outcomeIntentShape.sameAll a.outcomeIntents b.outcomeIntents = true
  nativeOwnerAuthority : a.nativeOwnerAuthority = b.nativeOwnerAuthority
  nativeRegistry : a.nativeRegistry = b.nativeRegistry
  measuredCodexRuntime : a.measuredCodexRuntime = b.measuredCodexRuntime

/-- Every scalar is a value of its type, and doubles print within their width. -/
structure Fits (format : FloatFormat) (saved : Persisted) : Prop where
  state : (snapshotSections format).all (fun part => part.fits saved.state) = true
  importSourceAuthority : saved.importSourceAuthority.all
    importSourceAuthorityShape.fits = true
  adapterEpochs : saved.adapterEpochs.toList.all u64.fits = true
  importForgetEpoch : u64.fits saved.importForgetEpoch = true
  outcomeIntents : saved.outcomeIntents.all outcomeIntentShape.fits = true

/-- No list of the domain and no list of import authorities has too many records. -/
structure WithinRecords (format : FloatFormat) (saved : Persisted) : Prop where
  state : (snapshotSections format).all (fun part => part.within maxRecords saved.state) = true
  importSourceAuthority : saved.importSourceAuthority.length <= maxRecords

def lengthWithoutReserve (format : FloatFormat) (self : Persisted) : Nat :=
  (self.json format).length - (jsonOption decimal self.maintenanceGrowthBytes).length

end Persisted

/-!
## What the reserve and the scalars take together
-/

theorem length_authorityJson (authority : ImportSourceAuthority) :
    (importSourceAuthorityShape.json authority).length + 1 =
      importSourceAuthorityShape.base authority +
        (decimal authority.generation).length := by
  change (Shape.membersJson _ authority).length + 1 = Shape.membersBase _ authority + _
  rw [Shape.length_membersJson, Shape.membersBase]
  simp only [map_cons, map_nil, sum_cons]
  simp only [Domain.text, Domain.scalar, Domain.field, Shape.comap, Shape.rigid,
    Shape.ofScalar, u64, Scalar.unsigned]
  omega

def coveredBytes (format : FloatFormat) (saved : Persisted) : Nat :=
  ((snapshotSections format).map (fun part => (part.json saved.state).length)).sum +
    (saved.importSourceAuthority.map (fun authority =>
      (decimal authority.generation).length)).sum +
    (saved.adapterEpochs.toList.map (fun epoch => (decimal epoch).length)).sum +
    (decimal saved.importForgetEpoch).length +
    (saved.outcomeIntents.map (fun intent => (outcomeIntentShape.json intent).length)).sum

variable (saved : Persisted)

def lifecycleLeft : Nat :=
  match saved.lifecycleMeasurements with
  | none => 0
  | some measurements => maxLifecycleCheckpointBytes - measurements.json.length

def browserLeft : Nat :=
  match saved.browserAttemptAuthority with
  | none => 0
  | some attempts => Browser.maximumSnapshotBytes - attempts.json.length

def ceiling (format : FloatFormat) (saved : Persisted) : Nat :=
  ((snapshotSections format).map (fun part => part.ceiling maxRecords saved.state)).sum +
    epochShape.span * (maxRecords + 4 + 1) + saved.importSourceAuthority.length + 4 + 1 +
    outcomeIntentShape.span * saved.outcomeIntents.length +
    (saved.outcomeIntents.map outcomeIntentShape.base).sum +
    lifecycleLeft saved + browserLeft saved

def BrowserFits : Prop :=
  forall attempts, saved.browserAttemptAuthority = some attempts ->
    attempts.json.length <= Browser.maximumSnapshotBytes

theorem span_epochShape : epochShape.span = 19 := by decide +kernel

theorem spend_epochs {reserve : Nat} {epochs : List Nat}
    (hfits : epochs.all u64.fits = true) (hresv : epochs.length * 19 <= reserve) :
    exists left, epochShape.spend reserve epochs = .ok left ∧
      left + (epochs.map (fun epoch => (decimal epoch).length)).sum =
        reserve + epochs.length ∧ reserve <= left + epochs.length * 19 := by
  rcases epochShape.spend_of_fits hfits hresv with ⟨left, hspend, hsum, hleft⟩
  have hbase : (epochs.map epochShape.base).sum = epochs.length := by
    have hone : epochs.map epochShape.base = epochs.map (fun _ => 1) := rfl
    rw [hone]
    simp
  rw [hbase] at hsum
  exact ⟨left, hspend, hsum, hleft⟩

theorem fits_generation {authorities : List ImportSourceAuthority}
    (h : authorities.all importSourceAuthorityShape.fits = true) :
    (authorities.map ImportSourceAuthority.generation).all u64.fits = true := by
  rw [all_map, all_eq_true]
  intro authority hauth
  have hfits := all_eq_true.mp h authority hauth
  change (all _ _) = true at hfits
  simp only [all_cons, all_nil, Bool.and_true, bool_iff] at hfits
  exact hfits.2

theorem measured_ok {α : Type} (a : α) : measured (.ok a : Measured α) = .ok a := rfl

theorem reserveLifecycle_eq (saved : Persisted) (reserve : Nat) :
    reserveLifecycle saved.lifecycleMeasurements reserve =
      .ok (reserve + lifecycleLeft saved) := by
  unfold reserveLifecycle lifecycleLeft
  cases saved.lifecycleMeasurements with
  | none => rfl
  | some measurements =>
    have hlength := measurements.length_json_le
    have hleft : remainingReservation measurements.json.length =
        .ok (maxLifecycleCheckpointBytes - measurements.json.length) := by
      rw [remainingReservation, decide_eq_false (not_lt.mpr hlength)]
      rfl
    simp [countJson_of_le hlength, measured_ok, bind_ok, hleft]

variable {format : FloatFormat} {a b saved : Persisted}

theorem reserveBrowser_eq (h : BrowserFits saved) (reserve : Nat) :
    reserveBrowser saved.browserAttemptAuthority reserve = .ok (reserve + browserLeft saved) := by
  unfold reserveBrowser browserLeft
  cases hatts : saved.browserAttemptAuthority with
  | none => rfl
  | some attempts =>
    have hlength := h attempts hatts
    simp [countJson_of_le hlength, measured_ok, bind_ok, subtract_of_le hlength]

/-- The reservation neither underflows nor fails, and it is exactly the rest of the
ceiling. -/
theorem maintenanceReservation_eq (hfits : saved.Fits format)
    (hwithin : saved.WithinRecords format) (hbrowser : BrowserFits saved) :
    exists reserve, maintenanceReservation format saved = .ok reserve ∧
      reserve + coveredBytes format saved = ceiling format saved := by
  rcases Section.reserveAll_of_fits 0 hfits.state hwithin.state with ⟨domain, hdomain, _⟩
  have hcount : (saved.importSourceAuthority.map
      ImportSourceAuthority.generation).length <= 1024 := by
    rw [length_map]
    exact hwithin.importSourceAuthority
  have hsize : saved.adapterEpochs.toList.length = 4 := Vector.length_toList
  rcases @spend_epochs (domain + 19 * (1024 + 4 + 1)) _
    (fits_generation hfits.importSourceAuthority) (by omega) with
    ⟨authorities, hauthorities, ha, _⟩
  rcases @spend_epochs authorities _ hfits.adapterEpochs (by omega) with
    ⟨epochs, hepochs, _, _⟩
  have hforgetFits : [saved.importForgetEpoch].all u64.fits = true := by
    rw [all_cons, hfits.importForgetEpoch]
    rfl
  rcases @spend_epochs epochs _ hforgetFits
    (by rw [length_singleton]; omega) with ⟨forget, hforget, hf, _⟩
  rcases @Shape.spend_of_fits _ outcomeIntentShape
    (forget + outcomeIntentShape.span * saved.outcomeIntents.length) _
    hfits.outcomeIntents (by rw [Nat.mul_comm]; exact Nat.le_add_left _ _) with
    ⟨intents, hintents, _, _⟩
  refine ⟨intents + lifecycleLeft saved + browserLeft saved, ?_, ?_⟩
  · unfold maintenanceReservation
    rw [hdomain]
    change (measured (epochShape.spend (domain + 19 * (1024 + 4 + 1)) _) >>= _) = _
    rw [hauthorities]
    simp only [measured_ok, bind_ok]
    rw [hepochs]
    simp only [measured_ok, bind_ok]
    rw [hforget]
    simp only [measured_ok, bind_ok]
    rw [hintents]
    simp only [measured_ok, bind_ok]
    rw [reserveLifecycle_eq]
    exact reserveBrowser_eq hbrowser _
  · simp only [map_map, Function.comp_def, map_cons, map_nil, sum_cons,
      sum_nil, length_map, length_singleton] at ha hf
    have hslots : 19 * (maxRecords + 4 + 1) = 19551 := rfl
    simp only [coveredBytes, ceiling, span_epochShape]
    omega

/-!
## The encoding beside the covered lengths
-/

theorem length_stateJson (format : FloatFormat) (state : Domain.Snapshot) :
    (state.json format).length = objectOverhead ((snapshotSections format).map Section.name) +
        ((snapshotSections format).map (fun part => (part.json state).length)).sum := by
  rw [Domain.Snapshot.json, length_jsonObject_names]
  rfl

theorem sum_authorityJson (authorities : List ImportSourceAuthority) :
    (authorities.map (fun authority =>
      (importSourceAuthorityShape.json authority).length)).sum + authorities.length =
      (authorities.map importSourceAuthorityShape.base).sum +
        (authorities.map (fun authority => (decimal authority.generation).length)).sum := by
  induction authorities with
  | nil => rfl
  | cons authority _ _ =>
    have hauth := length_authorityJson authority
    simp only [map_cons, sum_cons, length_cons]
    omega

theorem lengthWithoutReserve_add (format : FloatFormat) (saved : Persisted) :
    saved.lengthWithoutReserve format + (jsonOption decimal saved.maintenanceGrowthBytes).length =
        (saved.json format).length := by
  have hjson := length_json format saved
  exact Nat.sub_add_cancel (by rw [hjson]; exact Nat.le_add_left _ _)

/-- Outside of what the reserve covers, the encodings have the same length. -/
theorem length_of_sameTexts (h : a.SameTexts format b) :
    a.lengthWithoutReserve format + coveredBytes format b =
      b.lengthWithoutReserve format + coveredBytes format a := by
  have hauthorities := importSourceAuthorityShape.length_of_sameAll h.importSourceAuthority
  have hbase := importSourceAuthorityShape.base_of_sameAll h.importSourceAuthority
  have hintents := outcomeIntentShape.length_of_sameAll h.outcomeIntents
  have ha := sum_authorityJson a.importSourceAuthority
  have hb := sum_authorityJson b.importSourceAuthority
  have hjsonA := lengthWithoutReserve_add format a
  have hjsonB := lengthWithoutReserve_add format b
  simp only [Persisted.json, length_jsonObject_names] at hjsonA hjsonB
  simp only [Persisted.fields, map_cons, sum_cons,
    length_jsonArray, length_stateJson, map_map, Function.comp_def, length_map,
    Vector.length_toList, h.schemaVersion, h.lifecycleMeasurements,
    h.browserAttemptAuthority, h.policy, h.installedIntegrations, h.sourceDescriptions,
    h.requestAuthority, h.mutationAuthority, h.snapshotAdmission, h.nativeOwnerAuthority,
    h.nativeRegistry, h.measuredCodexRuntime, hauthorities, hintents] at hjsonA hjsonB
  simp only [coveredBytes]
  linarith

theorem ceiling_of_sameTexts (h : a.SameTexts format b) : ceiling format a = ceiling format b := by
  have hsections : (snapshotSections format).map (fun part =>
      part.ceiling maxRecords a.state) =
      (snapshotSections format).map (fun part => part.ceiling maxRecords b.state) := by
    refine map_congr_left (fun part hpart => ?_)
    exact part.ceiling_same maxRecords (all_eq_true.mp h.state part hpart)
  simp [ceiling, hsections, lifecycleLeft, browserLeft, h.lifecycleMeasurements,
    h.browserAttemptAuthority, importSourceAuthorityShape.length_of_sameAll h.importSourceAuthority,
    outcomeIntentShape.length_of_sameAll h.outcomeIntents, outcomeIntentShape.base_of_sameAll
    h.outcomeIntents]

/-!
## Accepted envelopes
-/

theorem sameAll_of_sections (h : a.SameTexts format b) {α : Type} {name : Bytes} {shape : Shape α}
    {get : Domain.Snapshot -> List α}
    (hpart : Section.records name shape get ∈ snapshotSections format) :
    shape.sameAll (get a.state) (get b.state) = true :=
  all_eq_true.mp h.state _ hpart

theorem sourceIds_of_same {a b : Domain.Account} (h : Domain.accountShape.same a b = true) :
    a.sourceIds = b.sourceIds := by
  change (all _ _) = true at h
  simp only [all_cons, all_nil, Bool.and_true, bool_iff] at h
  exact of_decide_eq_true h.2.2.2.2.2

theorem actualCounts_of_sameTexts (h : a.SameTexts format b) (part : Admission.CountField) :
    a.actualCounts part = b.actualCounts part := by
  have hlength : forall (i : Nat) {α : Type} {name : Bytes} {shape : Shape α}
      {get : Domain.Snapshot -> List α},
      (snapshotSections format)[i]? = some (Section.records name shape get) ->
        (get a.state).length = (get b.state).length := by
    intro _ α name shape get hpart
    exact shape.length_of_sameAll (sameAll_of_sections h (mem_of_getElem? hpart))
  cases part with
  | sources => exact hlength 2 rfl
  | accounts => exact hlength 3 rfl
  | grants => exact hlength 4 rfl
  | observations => exact hlength 5 rfl
  | bindings => exact hlength 6 rfl
  | leases => exact hlength 7 rfl
  | tombstones => exact hlength 8 rfl
  | quarantinedImports => exact hlength 9 rfl
  | jobs => exact hlength 10 rfl
  | sourceDescriptions => exact congrArg length h.sourceDescriptions
  | sourceLinks =>
    have haccs := sameAll_of_sections h (.tail _ (.tail _ (.tail _ (.head _))))
    have hlinks := Domain.accountShape.map_of_sameAll
      (fun a b hsame => congrArg length (sourceIds_of_same hsame)) haccs
    have hfold : forall accounts : List Domain.Account,
        accounts.foldl (fun most account => max most account.sourceIds.length) 0 =
          (accounts.map (fun account => account.sourceIds.length)).foldl max 0 := by
      intro accounts
      rw [foldl_map]
    simp only [Persisted.actualCounts, hfold]
    exact congrArg (foldl max 0) hlinks
  | nativeOwners => exact congrArg (fun ledger => ledger.owners.length) h.nativeOwnerAuthority
  | nativeAuthorityRecords =>
    exact congrArg (fun ledger => ledger.attachments.length + ledger.removals.length)
      h.nativeOwnerAuthority

def Persisted.withReserve (reserve : Nat) : Persisted :=
  { saved with maintenanceGrowthBytes := some reserve }

theorem actualCounts_withReserve (saved : Persisted) (reserve : Nat) :
    (saved.withReserve reserve).actualCounts = saved.actualCounts := by
  funext part
  cases part <;> rfl

theorem outsideBytes_withReserve (format : FloatFormat) (saved : Persisted) (reserve : Nat) :
    (saved.withReserve reserve).outsideBytes format + saved.requestAuthority.text.length +
      saved.mutationAuthority.text.length + saved.nativeOwnerAuthority.json.length +
      (admissionJson saved.snapshotAdmission).length = saved.lengthWithoutReserve format := by
  have hjson := length_json format (saved.withReserve reserve)
  have hsaved := lengthWithoutReserve_add format saved
  simp only [Persisted.json, length_jsonObject_names] at hjson hsaved
  simp only [Persisted.fields, map_cons, sum_cons,
    Persisted.withReserve] at hjson hsaved ⊢
  linarith

/-- Status, generation, expiry and counter changes are prepaid exactly: neither value
makes the reservation fail, the encoding and the reserve come to the same number, and
an envelope that was accepted with its reserve is accepted with the changed one. -/
theorem maintenance_prepaid_exactly {format : FloatFormat} {a b : Persisted}
    (hsame : a.SameTexts format b) (ha : a.Fits format) (hb : b.Fits format)
    (hrecordsA : a.WithinRecords format) (hrecordsB : b.WithinRecords format)
    (hbrowser : BrowserFits a) :
    exists reserveA reserveB, maintenanceReservation format a = .ok reserveA ∧
      maintenanceReservation format b = .ok reserveB ∧
      a.lengthWithoutReserve format + reserveA = b.lengthWithoutReserve format + reserveB ∧
      forall requestReserved mutationReserved nativeReserved,
        Succeeds (checkEnvelopeWithNative format (a.withReserve reserveA) requestReserved
          mutationReserved nativeReserved) ->
        Succeeds (checkEnvelopeWithNative format (b.withReserve reserveB) requestReserved
          mutationReserved nativeReserved) := by
  have hbrowserB : BrowserFits b := by
    intro attempts hatts
    exact hbrowser attempts (hsame.browserAttemptAuthority.trans hatts)
  rcases maintenanceReservation_eq ha hrecordsA hbrowser with ⟨reserveA, hokA, _⟩
  rcases maintenanceReservation_eq hb hrecordsB hbrowserB with ⟨reserveB, hokB, _⟩
  have hlength : a.lengthWithoutReserve format + reserveA =
      b.lengthWithoutReserve format + reserveB := by
    have hceiling := ceiling_of_sameTexts hsame
    have hrest := length_of_sameTexts hsame
    omega
  refine ⟨reserveA, reserveB, hokA, hokB, hlength, ?_⟩
  intro requestReserved mutationReserved nativeReserved hacc
  rcases hacc with ⟨_, husage⟩
  rcases admitted_of_check husage with ⟨maintenance, h, _⟩
  have hmaint : reserveA = maintenance := Option.some.inj h.maintained
  have hadm : (b.withReserve reserveB).snapshotAdmission =
      (a.withReserve reserveA).snapshotAdmission := hsame.snapshotAdmission.symm
  refine check_of_admitted ⟨rfl, ?_, ?_, ?_, ?_, ?_, ?_, ?_, ?_⟩
  · change b.requestAuthority.text.length <= _
    rw [<- hsame.requestAuthority]
    exact h.request
  · change b.mutationAuthority.text.length <= _
    rw [<- hsame.mutationAuthority]
    exact h.mutation
  · change b.nativeOwnerAuthority.json.length <= _
    rw [<- hsame.nativeOwnerAuthority]
    exact h.native
  · rw [hadm]
    exact h.version
  · rw [hadm]
    exact h.credits
  · rw [hadm]
    exact h.keys
  · intro part
    have hcounts := h.counts part
    rw [actualCounts_withReserve, actualCounts_of_sameTexts hsame] at hcounts
    rw [hadm]
    exact hcounts
  · have hfits := h.fits
    have houtsideA := outsideBytes_withReserve format a reserveA
    have houtsideB := outsideBytes_withReserve format b reserveB
    rw [hsame.requestAuthority, hsame.mutationAuthority, hsame.nativeOwnerAuthority,
      hsame.snapshotAdmission] at houtsideA
    unfold footprint at hfits ⊢
    rw [hadm]
    omega

/-!
## A grant that widens
-/

def quietGrant : Domain.Grant where
  id := ascii "grant"
  accountId := ascii "account"
  sourceId := ascii "source"
  credentialKind := .oauthAccess
  purposes := [.request]
  audience := ascii "https://github.com"

def refusal : Browser.Record where
  contextKey := Vector.replicate 32 1
  idLen := 1
  intentFingerprint := Vector.replicate 32 2
  refusal := .needsProviderAdapterProof
  cause := .none

def quiet : Persisted where
  state := { grants := [quietGrant] }
  requestAuthority := { text := jsonNull }
  mutationAuthority := { text := jsonNull }
  browserAttemptAuthority := some { records := [refusal] }

def expired : Persisted :=
  { quiet with
    state := { revision := 10
               grants := [{ quietGrant with
                 generation := 12, status := .quarantined, custodyExpiresAt := some (-5) }] }
    adapterEpochs := #v[1, 2, 30, 4]
    importForgetEpoch := 100 }

theorem maintenance_prepaid_exactly_expired :
    exists reserveA reserveB, maintenanceReservation .digits quiet = .ok reserveA ∧
      maintenanceReservation .digits expired = .ok reserveB ∧
      quiet.lengthWithoutReserve .digits + reserveA =
        expired.lengthWithoutReserve .digits + reserveB ∧
      forall requestReserved mutationReserved nativeReserved,
        Succeeds (checkEnvelopeWithNative .digits (quiet.withReserve reserveA)
          requestReserved mutationReserved nativeReserved) ->
        Succeeds (checkEnvelopeWithNative .digits (expired.withReserve reserveB)
          requestReserved mutationReserved nativeReserved) := by
  have hsame : quiet.SameTexts .digits expired :=
    ⟨rfl, rfl, rfl, by decide +kernel, rfl, rfl, rfl, rfl, rfl, rfl, rfl, rfl, rfl, rfl, rfl⟩
  have hquiet : quiet.Fits .digits :=
    ⟨by decide +kernel, rfl, by decide +kernel, by decide +kernel, rfl⟩
  have hexpired : expired.Fits .digits :=
    ⟨by decide +kernel, rfl, by decide +kernel, by decide +kernel, rfl⟩
  have hbrowser : BrowserFits quiet := by
    rintro _ ⟨⟩
    exact Browser.Snapshot.length_json_le rfl (by decide)
  exact maintenance_prepaid_exactly hsame hquiet hexpired ⟨by decide, by decide⟩
    ⟨by decide, by decide⟩ hbrowser

/-!
## A browser section that its ledger would refuse

The ledger of refusals keeps its section short.  The reservation trusts the section
no further than that, and fails on a longer one.
-/

def flooded : Persisted :=
  { quiet with
    browserAttemptAuthority :=
      some { records := replicate 593 refusal } }

theorem sum_le_browserJson (attempts : Browser.Snapshot) :
    (attempts.records.map (fun item => (Browser.record.json item).length)).sum <=
      attempts.json.length := by
  rw [Browser.Snapshot.json, length_jsonObject_names]
  simp only [map_cons, sum_cons, length_jsonArray, map_map, Function.comp_def]
  omega

theorem reservation_of_long_browser {attempts : Browser.Snapshot}
    (hatts : saved.browserAttemptAuthority = some attempts)
    (hlong : Browser.maximumSnapshotBytes < attempts.json.length) :
    ¬ Succeeds (maintenanceReservation format saved) := by
  intro hsucceeds
  rcases hsucceeds with ⟨_, hresv⟩
  simp only [maintenanceReservation, ok_iff, hatts, reserveBrowser, countJson, countWithin,
    if_neg (not_le.mpr hlong)] at hresv
  rcases hresv with ⟨_, _, _, _, _, _, _, _, _, _, _, _, _, hactual, _⟩
  cases hactual

theorem oversized_browser_section_fails : flooded.SameTexts .digits flooded ∧ flooded.Fits .digits ∧
      flooded.WithinRecords .digits ∧
      ¬ Succeeds (maintenanceReservation .digits flooded) := by
  refine ⟨⟨rfl, rfl, rfl, by decide +kernel, rfl, rfl, rfl, rfl, rfl, rfl, rfl, rfl, rfl, rfl,
    rfl⟩, ⟨by decide +kernel, rfl, by decide +kernel, by decide +kernel, rfl⟩,
    ⟨by decide, by decide⟩, reservation_of_long_browser rfl ?_⟩
  refine lt_of_lt_of_le ?_ (sum_le_browserJson _)
  rw [map_replicate, sum_replicate_nat]
  decide +kernel

end Omux.Envelope
