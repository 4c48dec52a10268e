import Mathlib.Tactic.Linarith
import Omux.Envelope.Persisted

/-!
# Admission of a whole envelope

A candidate is committed only when its exact encoding fits together with everything
that was promised: the reservations of the ledgers, the growth and the restart labels of
the credits, and the scalars that maintenance may widen.
-/

namespace Omux.Envelope

open Library List
open Admission (AdmissionError Counts CountField Credit Totals countLimit maximumCredits
  maximumSnapshotBytes validateKey addCounts addCredit totals stateGrowth)
open Domain (FloatFormat)

inductive EnvelopeError where
  | missingMaintenanceReservation | invalidSnapshotReservation | snapshotTooLarge
  | admission (error : AdmissionError)

abbrev Result := Except EnvelopeError

structure Usage where
  exactSnapshotBytes : Nat
  nonledgerBytes : Nat
  reservedBytes : Nat
  creditsBytes : Nat
  creditMetadataGrowthBytes : Nat
  maintenanceGrowthBytes : Nat
  maintenanceMetadataGrowthBytes : Nat
  nativeLedgerReservedBytes : Nat
  countsReserved : Counts
  remainingBytes : Nat

def measure (encoded : Bytes) : Result Nat :=
  orFail (countWithin maximumSnapshotBytes encoded) .snapshotTooLarge

def Persisted.actualCounts (full : Persisted) : Counts
  | .sources => full.state.sources.length
  | .accounts => full.state.accounts.length
  | .grants => full.state.grants.length
  | .observations => full.state.observations.length
  | .bindings => full.state.bindings.length
  | .leases => full.state.leases.length
  | .tombstones => full.state.tombstones.length
  | .quarantinedImports => full.state.quarantinedImports.length
  | .jobs => full.state.jobs.length
  | .sourceDescriptions => full.sourceDescriptions.length
  | .sourceLinks =>
    full.state.accounts.foldl (fun most account => max most account.sourceIds.length) 0
  | .nativeOwners => full.nativeOwnerAuthority.owners.length
  | .nativeAuthorityRecords =>
    full.nativeOwnerAuthority.attachments.length + full.nativeOwnerAuthority.removals.length

def checkCardinality (full : Persisted) (held : Counts) : Result Unit :=
  checkAll (fun part =>
    failIf (decide (countLimit part < full.actualCounts part) ||
      decide (countLimit part - full.actualCounts part < held part))
      (.admission .snapshotCardinalityExceeded)) CountField.all

def addPart (reserved part : Nat) : Result Nat := do
  failIf (decide (maximumSnapshotBytes - reserved < part)) .snapshotTooLarge
  .ok (reserved + part)

def checkEnvelopeWithNative (format : FloatFormat) (full : Persisted)
    (requestReserved mutationReserved nativeReserved : Nat) : Result Usage := do
  let maintenance <- orFail full.maintenanceGrowthBytes .missingMaintenanceReservation
  let exact <- measure (full.json format)
  let requestActual <- measure full.requestAuthority.text
  let mutationActual <- measure full.mutationAuthority.text
  let nativeActual <- measure full.nativeOwnerAuthority.json
  failIf (decide (requestReserved < requestActual) || decide (mutationReserved < mutationActual) ||
    decide (nativeReserved < nativeActual)) .invalidSnapshotReservation
  failIf (decide (exact < requestActual) ||
    decide (exact - requestActual < mutationActual)) .invalidSnapshotReservation
  failIf (decide (exact - requestActual - mutationActual < nativeActual))
    .invalidSnapshotReservation
  let nonledger := exact - requestActual - mutationActual - nativeActual
  let future <- (totals full.snapshotAdmission).mapError .admission
  checkCardinality full future.counts
  failIf (decide (maximumSnapshotBytes < maintenance)) .snapshotTooLarge
  let widest <- measure (decimal maximumSnapshotBytes)
  let width <- measure (decimal maintenance)
  let reserved <- [requestReserved, mutationReserved, nativeReserved, future.bytes,
    future.metadataGrowth, maintenance, widest - width].foldlM addPart nonledger
  .ok { exactSnapshotBytes := exact
        nonledgerBytes := nonledger
        reservedBytes := reserved
        creditsBytes := future.bytes
        creditMetadataGrowthBytes := future.metadataGrowth
        maintenanceGrowthBytes := maintenance
        maintenanceMetadataGrowthBytes := widest - width
        nativeLedgerReservedBytes := nativeReserved
        countsReserved := future.counts
        remainingBytes := maximumSnapshotBytes - reserved }

/-!
## What the credits hold
-/

def bytesHeld (credits : List Credit) : Nat :=
  (credits.map Credit.bytes).sum

def countsHeld (credits : List Credit) : Counts :=
  fun part => (credits.map (fun credit => credit.counts part)).sum

def Credit.metadataGrowth (credit : Credit) : Nat :=
  if credit.state == .reserved then stateGrowth else 0

def metadataHeld (credits : List Credit) : Nat :=
  (credits.map Credit.metadataGrowth).sum

theorem mem_countFields (part : CountField) : part ∈ CountField.all := by
  cases part <;> decide

theorem addCounts_eq_ok {a b c : Counts} :
    addCounts a b = .ok c ↔ (forall part, a part + b part <= countLimit part) ∧
        c = fun part => a part + b part := by
  simp only [addCounts, ok_iff, any_eq_false, Bool.or_eq_true, bool_iff, exists_const]
  constructor
  · intro h
    rcases h with ⟨hlimit, hc⟩
    refine ⟨fun part => ?_, hc.symm⟩
    have hpart := hlimit part (mem_countFields part)
    omega
  · intro h
    rcases h with ⟨hlimit, hc⟩
    refine ⟨fun part _ => ?_, hc.symm⟩
    have hpart := hlimit part
    omega

theorem addCredit_eq_ok {credit : Credit} {start next : Totals}
    (hstart : start.bytes <= maximumSnapshotBytes) :
    addCredit start credit = .ok next ↔ validateKey credit.key = .ok () ∧
      start.bytes + credit.bytes <= maximumSnapshotBytes ∧
      (forall part, start.counts part + credit.counts part <= countLimit part) ∧
      { bytes := start.bytes + credit.bytes
        metadataGrowth := start.metadataGrowth + Credit.metadataGrowth credit
        counts := fun part => start.counts part + credit.counts part } = next := by
  have hroom : ¬ maximumSnapshotBytes - start.bytes < credit.bytes ↔
      start.bytes + credit.bytes <= maximumSnapshotBytes := by omega
  simp only [addCredit, ok_iff, addCounts_eq_ok, bool_iff, exists_const, hroom,
    Credit.metadataGrowth, and_assoc, exists_and_left, exists_eq_left]
  constructor
  · intro h
    rcases h with ⟨_, h⟩
    exact h
  · intro h
    exact ⟨(), h⟩

/-- The totals are sums, and they exist when the sums stay within the limits. -/
theorem foldl_addCredit {credits : List Credit} {start sum : Totals}
    (hstart : start.bytes <= maximumSnapshotBytes)
    (hlimit : forall part, start.counts part <= countLimit part) :
    credits.foldlM addCredit start = .ok sum ↔
      (forall credit, credit ∈ credits -> validateKey credit.key = .ok ()) ∧
      start.bytes + bytesHeld credits <= maximumSnapshotBytes ∧
      (forall part, start.counts part + countsHeld credits part <= countLimit part) ∧
      sum = { bytes := start.bytes + bytesHeld credits
              metadataGrowth := start.metadataGrowth + metadataHeld credits
              counts := fun part => start.counts part + countsHeld credits part } := by
  induction credits generalizing start with
  | nil =>
    constructor
    · intro h
      cases h
      exact ⟨fun _ hmem => (not_mem_nil hmem).elim, hstart, hlimit, rfl⟩
    · intro h
      rw [h.2.2.2]
      rfl
  | cons credit _ ih =>
    simp only [foldlM_cons, bind_eq_ok, addCredit_eq_ok hstart, forall_mem_cons, bytesHeld,
      countsHeld, metadataHeld, map_cons, sum_cons, <- Nat.add_assoc] at ih ⊢
    constructor
    · intro h
      rcases h with ⟨_, ⟨hkey, hbytes, hcounts, rfl⟩, hrest⟩
      rcases (ih hbytes hcounts).mp hrest with ⟨hkeys, hend⟩
      exact ⟨⟨hkey, hkeys⟩, hend⟩
    · intro h
      rcases h with ⟨⟨hkey, hkeys⟩, hbytes, hcounts, hend⟩
      have hnext := fun part => (Nat.le_add_right _ _).trans (hcounts part)
      have hroom := (Nat.le_add_right _ _).trans hbytes
      exact ⟨_, ⟨hkey, hroom, hnext, rfl⟩, (ih hroom hnext).mpr ⟨hkeys, hbytes, hcounts, hend⟩⟩

theorem totals_eq_ok {saved : Admission.Snapshot} {sum : Totals} :
    totals saved = .ok sum ↔ saved.version = 1 ∧ saved.credits.length <= maximumCredits ∧
      (forall credit, credit ∈ saved.credits -> validateKey credit.key = .ok ()) ∧
      bytesHeld saved.credits <= maximumSnapshotBytes ∧
      (forall part, countsHeld saved.credits part <= countLimit part) ∧
      sum = { bytes := bytesHeld saved.credits
              metadataGrowth := metadataHeld saved.credits
              counts := countsHeld saved.credits } := by
  simp only [totals, ok_iff, exists_const, bool_iff, not_lt]
  rw [foldl_addCredit (Nat.zero_le _) (fun part => Nat.zero_le _)]
  simp [Counts.zero, and_assoc]

/-!
## When an envelope is accepted
-/

theorem foldl_addPart {parts : List Nat} {start reserved : Nat}
    (hstart : start <= maximumSnapshotBytes) : parts.foldlM addPart start = .ok reserved ↔
      start + parts.sum <= maximumSnapshotBytes ∧ reserved = start + parts.sum := by
  induction parts generalizing start with
  | nil =>
    constructor
    · intro h
      cases h
      exact ⟨hstart, rfl⟩
    · intro h
      rw [h.2]
      rfl
  | cons part _ ih =>
    rw [foldlM_cons, sum_cons]
    simp only [addPart, ok_iff, bool_iff, exists_const]
    constructor
    · intro h
      rcases h with ⟨_, ⟨_, _⟩, hrest⟩
      have hend := (ih (by omega)).mp hrest
      omega
    · intro h
      refine ⟨start + part, ⟨by omega, rfl⟩, (ih (by omega)).mpr ?_⟩
      omega

theorem measure_eq_ok {encoded : Bytes} {n : Nat} :
    measure encoded = .ok n ↔ encoded.length <= maximumSnapshotBytes ∧ n = encoded.length := by
  unfold measure countWithin
  split
  · rename_i h
    simp [h, eq_comm]
  · rename_i h
    simp [h]

theorem checkCardinality_eq_ok {full : Persisted} {held : Counts} {u : Unit} :
    checkCardinality full held = .ok u ↔
      forall part, full.actualCounts part + held part <= countLimit part := by
  rw [checkCardinality, checkAll_eq_ok]
  simp only [ok_iff, bool_iff]
  constructor
  · intro h part
    have hpart := h part (mem_countFields part)
    omega
  · intro h part _
    have hpart := h part
    omega

/-- Everything but the ledgers, the credits and the reserve for maintenance. -/
def Persisted.outsideBytes (format : FloatFormat) (full : Persisted) : Nat :=
  (full.json format).length - full.requestAuthority.text.length -
    full.mutationAuthority.text.length - full.nativeOwnerAuthority.json.length -
    (admissionJson full.snapshotAdmission).length -
    (jsonOption decimal full.maintenanceGrowthBytes).length

theorem length_json (format : FloatFormat) (full : Persisted) :
    (full.json format).length = full.outsideBytes format +
      full.requestAuthority.text.length + full.mutationAuthority.text.length +
      full.nativeOwnerAuthority.json.length + (admissionJson full.snapshotAdmission).length +
      (jsonOption decimal full.maintenanceGrowthBytes).length := by
  have hsum : full.requestAuthority.text.length + full.mutationAuthority.text.length +
      full.nativeOwnerAuthority.json.length + (admissionJson full.snapshotAdmission).length +
      (jsonOption decimal full.maintenanceGrowthBytes).length <= (full.json format).length := by
    rw [Persisted.json, length_jsonObject_names]
    simp only [Persisted.fields, map_cons, map_nil, sum_cons, sum_nil]
    linarith
  unfold Persisted.outsideBytes
  omega

theorem outsideBytes_credits (format : FloatFormat) (full : Persisted)
    (saved : Admission.Snapshot) :
    ({ full with snapshotAdmission := saved } : Persisted).outsideBytes format =
      full.outsideBytes format := by
  have hold := length_json format full
  have hnew := length_json format { full with snapshotAdmission := saved }
  rw [Persisted.json, length_jsonObject_names] at hold hnew
  simp only [Persisted.fields, map_cons, sum_cons] at hold hnew
  linarith

/-- What the envelope takes with all its promises; the number that says how much
maintenance may add is counted at its widest. -/
def footprint (format : FloatFormat) (full : Persisted)
    (requestReserved mutationReserved nativeReserved maintenance : Nat) : Nat :=
  full.outsideBytes format + (admissionJson full.snapshotAdmission).length +
    requestReserved + mutationReserved + nativeReserved +
    bytesHeld full.snapshotAdmission.credits +
    metadataHeld full.snapshotAdmission.credits + maintenance +
    (decimal maximumSnapshotBytes).length

structure Admitted (format : FloatFormat) (full : Persisted)
    (requestReserved mutationReserved nativeReserved maintenance : Nat) : Prop where
  maintained : full.maintenanceGrowthBytes = some maintenance
  request : full.requestAuthority.text.length <= requestReserved
  mutation : full.mutationAuthority.text.length <= mutationReserved
  native : full.nativeOwnerAuthority.json.length <= nativeReserved
  version : full.snapshotAdmission.version = 1
  credits : full.snapshotAdmission.credits.length <= maximumCredits
  keys : forall credit, credit ∈ full.snapshotAdmission.credits ->
    validateKey credit.key = .ok ()
  counts : forall part, full.actualCounts part +
    countsHeld full.snapshotAdmission.credits part <= countLimit part
  fits : footprint format full requestReserved mutationReserved nativeReserved maintenance <=
    maximumSnapshotBytes

variable {format : FloatFormat} {full : Persisted}
  {requestReserved mutationReserved nativeReserved maintenance : Nat}

theorem admitted_of_check {usage : Usage}
    (h : checkEnvelopeWithNative format full requestReserved mutationReserved
      nativeReserved = .ok usage) :
    exists maintenance, Admitted format full requestReserved mutationReserved
      nativeReserved maintenance ∧ usage.reservedBytes = footprint format full
        requestReserved mutationReserved nativeReserved maintenance := by
  simp only [checkEnvelopeWithNative, ok_iff, measure_eq_ok, mapError_eq_ok, totals_eq_ok,
    checkCardinality_eq_ok, bool_iff, not_lt, exists_const] at h
  rcases h with ⟨maintenance, hmaint, _, ⟨_, hexactEq⟩, _, ⟨_, hreq⟩, _, ⟨_, hmut⟩, _,
    ⟨_, hnative⟩, ⟨⟨hrequestFits, hmutationFits⟩, hnativeFits⟩, _, _, _, ⟨hversion, hlength, hkeys,
    _, _, hfuture⟩, hcounts, hmost, _, ⟨_, hwidest⟩, _, ⟨_, hwidth⟩, reserved, hresv, husage⟩
  subst hexactEq hreq hmut hnative hfuture hwidest hwidth husage
  have hlens := length_json format full
  have hnumber := length_decimal_mono hmost
  rw [hmaint] at hlens
  simp only [jsonOption] at hlens
  rw [foldl_addPart (by omega)] at hresv
  simp only [sum_cons, sum_nil] at hresv
  refine ⟨maintenance, ⟨hmaint, hrequestFits, hmutationFits, hnativeFits, hversion,
    hlength, hkeys, hcounts, ?_⟩, ?_⟩
  · unfold footprint
    omega
  · change reserved = _
    unfold footprint
    omega

theorem check_of_admitted (h : Admitted format full requestReserved mutationReserved
    nativeReserved maintenance) :
    exists usage, checkEnvelopeWithNative format full requestReserved mutationReserved
      nativeReserved = .ok usage := by
  have hfits := h.fits
  unfold footprint at hfits
  have hmost : maintenance <= maximumSnapshotBytes := by omega
  have hnumber := length_decimal_mono hmost
  have hlens := length_json format full
  have hreq := h.request
  have hmut := h.mutation
  have hnative := h.native
  rw [h.maintained] at hlens
  simp only [jsonOption] at hlens
  have hheld : forall part, countsHeld full.snapshotAdmission.credits part <= countLimit part := by
    intro part
    exact (Nat.le_add_left _ _).trans (h.counts part)
  simp only [checkEnvelopeWithNative, ok_iff, measure_eq_ok, mapError_eq_ok, totals_eq_ok,
    checkCardinality_eq_ok, bool_iff, not_lt, exists_const]
  apply Exists.intro
  refine ⟨maintenance, h.maintained, _, ⟨by omega, rfl⟩, _, ⟨by omega, rfl⟩, _,
    ⟨by omega, rfl⟩, _, ⟨by omega, rfl⟩, ⟨⟨hreq, hmut⟩, hnative⟩,
    ⟨by omega, by omega⟩, by omega, _,
    ⟨h.version, h.credits, h.keys, by omega, hheld, rfl⟩, h.counts, hmost, _,
    ⟨by omega, rfl⟩, _, ⟨by omega, rfl⟩, _, (foldl_addPart ?_).mpr ⟨?_, rfl⟩, rfl⟩
  · omega
  · simp only [sum_cons, sum_nil]
    omega

theorem length_json_le (h : Admitted format full requestReserved mutationReserved
    nativeReserved maintenance) : (full.json format).length <= maximumSnapshotBytes := by
  have hfits := h.fits
  unfold footprint at hfits
  have hnumber := length_decimal_mono (by omega : maintenance <= maximumSnapshotBytes)
  have hlens := length_json format full
  have hreq := h.request
  have hmut := h.mutation
  have hnative := h.native
  rw [h.maintained] at hlens
  simp only [jsonOption] at hlens
  omega

end Omux.Envelope
