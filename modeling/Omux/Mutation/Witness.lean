import Omux.Library.Fallible
import Omux.Library.Json

/-!
# Mutation records and their measurements

A mutation record is the replay authority of one operation id.  Two kinds of removal may
append one measurement to their record, which names the original operation and its cached
result by hash.
-/

namespace Omux.Mutation

open Library

def maxRecords : Nat := 4096
def maxIdBytes : Nat := 64
def maxMethodBytes : Nat := 64
def maxResultBytes : Nat := 1024

inductive MutationError where
  | invalidMutationCapacity | invalidOperationId | invalidMutationMethod | expectedRevisionRequired
  | operationIdConflict | staleRevision | serviceBusy | unknownOperation | resultTooLarge
  | operationNotStarted | lifecycleMeasurementAlreadyCaptured | lifecycleMeasurementNotReserved
  | lifecycleMeasurementReservationExceeded | lifecycleRevisionRequired | invalidMutationSnapshot
  | snapshotTooLarge | invalidLifecycleDuration | invalidLifecycleProvenance
  | invalidLifecycleWitness | invalidLifecycleAuthority | lifecycleAuthorityMismatch
  | nonterminalLifecycleAuthority | invalidLifecycleOutcome

abbrev Result := Except MutationError

abbrev Digest := Vector UInt8 32

/-- What comes from the standard library: the hash, and the parser of values whose
field names are all different and whose texts are bounded. -/
structure Platform where
  sha256 : Bytes -> Digest
  parseJson : Bytes -> Option JsonValue

/-!
## Measurements
-/

inductive Missing where
  | unobserved | clockAnomaly | durationOutOfRange | originalProcessLost
deriving DecidableEq

structure Duration where
  ns : Option Nat := none
  missing : Option Missing := some .unobserved
deriving DecidableEq

def Duration.validate (self : Duration) : Result Unit :=
  failIf (self.ns.isNone == self.missing.isNone) .invalidLifecycleDuration

inductive ProvenanceStatus where
  | unknown | verifiedDeployment
deriving DecidableEq

inductive Os where
  | unknown | linux | macos | other
deriving DecidableEq

inductive Architecture where
  | unknown | x8664 | aarch64 | other
deriving DecidableEq

inductive Channel where
  | unknown | development | release
deriving DecidableEq

structure Provenance where
  status : ProvenanceStatus := .unknown
  artifactSha256 : Option Digest := none
  sourceCommit : Option (Vector UInt8 40) := none
  os : Os := .unknown
  architecture : Architecture := .unknown
  channel : Channel := .unknown
deriving DecidableEq

def isLowerHex (byte : UInt8) : Bool :=
  isDigit byte || (0x61 <= byte && byte <= 0x66)

def Provenance.validate (self : Provenance) : Result Unit := do
  failIf (self.artifactSha256.any (fun digest =>
    digest.toList.all (fun byte => byte == 0))) .invalidLifecycleProvenance
  failIf (self.sourceCommit.any (fun commit =>
    commit.toList.all (fun byte => byte == 0x30) ||
      !commit.toList.all isLowerHex)) .invalidLifecycleProvenance
  failIf (self.status == .verifiedDeployment && (self.artifactSha256.isNone ||
    self.sourceCommit.isNone || self.os == .unknown || self.architecture == .unknown || self.channel
    == .unknown)) .invalidLifecycleProvenance

structure Anchor where
  operationDigest : Digest
  expectedRevision : Nat

/-- The two measured removals. -/
inductive Measured where
  | lifecycle | nativeRemoval
deriving DecidableEq

/-- Source disconnects have one outcome, native removals the other three. -/
inductive Outcome where
  | sourceDisconnected
  | removed | pendingRequests | pendingCustody
deriving DecidableEq

structure Witness where
  schemaVersion : Nat := 1
  outcome : Outcome
  anchor : Anchor
  resultSha256 : Digest
  outcomeRevision : Nat
  observedAtUtcS : Option Int
  elapsed : Duration
  localWork : Duration := {}
  userProviderWait : Duration := {}
  provenance : Provenance
  userEndToEndMeasured : Bool := false
  completeUserDemandDenominator : Bool := false
  applicationProvenanceMeasured : Bool := false
  achievedSlo : Bool := false

def allZero (digest : Digest) : Bool :=
  digest.toList.all (fun byte => byte == 0)

def Witness.validate (self : Witness) : Result Unit := do
  failIf (self.schemaVersion != 1 ||
    decide (self.outcomeRevision <= self.anchor.expectedRevision) ||
    allZero self.anchor.operationDigest || allZero self.resultSha256)
    .invalidLifecycleWitness
  failIf (self.observedAtUtcS.any (fun utc => decide (utc < 0)))
    .invalidLifecycleWitness
  self.elapsed.validate
  self.localWork.validate
  self.userProviderWait.validate
  failIf (self.localWork.ns.isSome || self.localWork.missing != some .unobserved ||
    self.userProviderWait.ns.isSome || self.userProviderWait.missing != some .unobserved ||
    self.userEndToEndMeasured || self.completeUserDemandDenominator ||
    self.applicationProvenanceMeasured || self.achievedSlo)
    .invalidLifecycleWitness
  self.provenance.validate

/-!
## Encoding
-/

def Missing.name : Missing -> Bytes
  | .unobserved => ascii "unobserved"
  | .clockAnomaly => ascii "clock_anomaly"
  | .durationOutOfRange => ascii "duration_out_of_range"
  | .originalProcessLost => ascii "original_process_lost"

def ProvenanceStatus.name : ProvenanceStatus -> Bytes
  | .unknown => ascii "unknown"
  | .verifiedDeployment => ascii "verified_deployment"

def Os.name : Os -> Bytes
  | .unknown => ascii "unknown"
  | .linux => ascii "linux"
  | .macos => ascii "macos"
  | .other => ascii "other"

def Architecture.name : Architecture -> Bytes
  | .unknown => ascii "unknown"
  | .x8664 => ascii "x86_64"
  | .aarch64 => ascii "aarch64"
  | .other => ascii "other"

def Channel.name : Channel -> Bytes
  | .unknown => ascii "unknown"
  | .development => ascii "development"
  | .release => ascii "release"

def Outcome.name : Outcome -> Bytes
  | .sourceDisconnected => ascii "source_disconnected"
  | .removed => ascii "removed"
  | .pendingRequests => ascii "pending_requests"
  | .pendingCustody => ascii "pending_custody"

def Measured.scope : Measured -> Bytes
  | .lifecycle => ascii "actor_admission_to_committed_source_disconnect"
  | .nativeRemoval => ascii "actor_admission_to_committed_native_removal"

def Duration.json (self : Duration) : Bytes :=
  jsonObject
    [(ascii "ns", jsonOption decimal self.ns),
      (ascii "missing", jsonOption (fun value => jsonString value.name)
        self.missing)]

def Provenance.json (self : Provenance) : Bytes :=
  jsonObject
    [(ascii "status", jsonString self.status.name), (ascii "artifact_sha256",
        jsonOption (fun digest => jsonSlice digest.toList) self.artifactSha256),
      (ascii "source_commit",
        jsonOption (fun commit => jsonSlice commit.toList) self.sourceCommit),
      (ascii "os", jsonString self.os.name),
      (ascii "architecture", jsonString self.architecture.name),
      (ascii "channel", jsonString self.channel.name)]

def Anchor.json (self : Anchor) : Bytes :=
  jsonObject
    [(ascii "operation_digest", jsonSlice self.operationDigest.toList),
      (ascii "expected_revision", decimal self.expectedRevision)]

variable (measured : Measured)

def Witness.json (self : Witness) : Bytes :=
  jsonObject
    [(ascii "schema_version", decimal self.schemaVersion),
      (ascii "scope", jsonString measured.scope), (ascii "outcome", jsonString self.outcome.name),
      (ascii "anchor", self.anchor.json),
      (ascii "result_sha256", jsonSlice self.resultSha256.toList),
      (ascii "outcome_revision", decimal self.outcomeRevision),
      (ascii "observed_at_utc_s", jsonOption decimalInt self.observedAtUtcS),
      (ascii "elapsed", self.elapsed.json), (ascii "local_work", self.localWork.json),
      (ascii "user_provider_wait", self.userProviderWait.json),
      (ascii "provenance", self.provenance.json),
      (ascii "user_end_to_end_measured", jsonBool self.userEndToEndMeasured),
      (ascii "complete_user_demand_denominator", jsonBool self.completeUserDemandDenominator),
      (ascii "application_provenance_measured", jsonBool self.applicationProvenanceMeasured),
      (ascii "achieved_slo", jsonBool self.achievedSlo)]

/-!
### The largest legal encoding
-/

def Measured.largestOutcome : Measured -> Outcome
  | .lifecycle => .sourceDisconnected
  | .nativeRemoval => .pendingRequests

def maximumDurations : List Duration :=
  [{ ns := some (2 ^ 64 - 1), missing := none }, { missing := some .unobserved },
    { missing := some .clockAnomaly }, { missing := some .durationOutOfRange },
    { missing := some .originalProcessLost }]

def maximumProvenance (status : ProvenanceStatus) (os : Os)
    (architecture : Architecture) (channel : Channel) : Provenance :=
  { status := status
    artifactSha256 := some (Vector.replicate 32 1)
    sourceCommit := some (Vector.replicate 40 0x66)
    os, architecture, channel }

def maximumProvenances : List Provenance :=
  [ProvenanceStatus.unknown, .verifiedDeployment].flatMap (fun status =>
    [Os.unknown, .linux, .macos, .other].flatMap (fun os =>
      [Architecture.unknown, .x8664, .aarch64, .other].flatMap (fun architecture =>
        [Channel.unknown, .development, .release].map
          (maximumProvenance status os architecture))))

def maximumWitness (provenance : Provenance) (elapsed : Duration) : Witness :=
  { outcome := measured.largestOutcome
    anchor :=
      { operationDigest := Vector.replicate 32 1, expectedRevision := 2 ^ 64 - 2 }
    resultSha256 := Vector.replicate 32 1
    outcomeRevision := 2 ^ 64 - 1
    observedAtUtcS := some (2 ^ 63 - 1)
    elapsed := elapsed
    provenance }

def Provenance.isValid (self : Provenance) : Bool :=
  match self.validate with
  | .ok _ => true
  | .error _ => false

/-- The longest encoding over the legal variants. -/
def maximumSerializedBytes : Nat :=
  ((maximumProvenances.filter Provenance.isValid).flatMap (fun provenance =>
    maximumDurations.map (fun elapsed =>
      ((maximumWitness measured provenance elapsed).json measured).length))).foldl
        max 0

/-!
## Records
-/

inductive Kind where
  | localAtomic | external
deriving DecidableEq

inductive State where
  | started | completed | indeterminate
deriving DecidableEq

/-- The reserved flag of a measurement and the measurement itself. -/
structure Slot where
  reserved : Bool := false
  fact : Option Witness := none

def Slot.reserve (slot : Slot) : Slot :=
  { slot with reserved := true }

def Slot.release (slot : Slot) : Slot :=
  { slot with reserved := false }

/-- Ids and methods are arrays of fixed length with the length in use. -/
structure Record where
  id : Bytes
  idLen : Nat
  method : Bytes
  methodLen : Nat
  fingerprint : Digest
  expectedRevision : Nat
  kind : Kind
  state : State := .started
  result : Bytes := []
  resultLen : Nat := 0
  lifecycleWitness : Slot := {}
  nativeRemovalWitness : Slot := {}

namespace Record

variable (record : Record)

def idBytes : Bytes :=
  record.id.take record.idLen

def methodBytes : Bytes :=
  record.method.take record.methodLen

def slot : Measured -> Slot
  | .lifecycle => record.lifecycleWitness
  | .nativeRemoval => record.nativeRemovalWitness

def withSlot (measured : Measured) (slot : Slot) : Record :=
  match measured with
  | .lifecycle => { record with lifecycleWitness := slot }
  | .nativeRemoval => { record with nativeRemovalWitness := slot }

end Record

/-!
## The anchor of a measurement
-/

def Measured.method : Measured -> Bytes
  | .lifecycle => ascii "source.disconnect"
  | .nativeRemoval => ascii "integrations.remove"

/-- Domain separation of the operation digest, with its final zero. -/
def Measured.separator : Measured -> Bytes
  | .lifecycle => ascii "omux.lifecycle.source-disconnect.v1" ++ [0]
  | .nativeRemoval => ascii "omux.lifecycle.native-removal.v1" ++ [0]

/-- Native removals are internal operations, whose ids are lower-case hashes. -/
def Measured.admitsId (record : Record) : Bool :=
  match measured with
  | .lifecycle => true
  | .nativeRemoval => record.idLen == 64 && record.id.all isLowerHex

def isIdByte (byte : UInt8) : Bool :=
  isAlphanumeric byte || byte == 0x2D || byte == 0x5F

def littleEndian64 (n : Nat) : Bytes :=
  (List.range 8).map (fun i => UInt8.ofNat (n / 256 ^ i))

/-- A record that a measurement of this kind may belong to. -/
def anchorable (record : Record) : Bool :=
  measured.admitsId record && !(record.idLen == 0 || decide (64 < record.idLen) || record.methodLen
      != measured.method.length || record.methodBytes != measured.method || record.kind != .external
      || record.resultLen != record.result.length || decide (1024 < record.resultLen)) &&
    record.idBytes.all isIdByte && (record.id.drop record.idLen).all (fun byte => byte == 0) &&
    (record.method.drop record.methodLen).all (fun byte => byte == 0) &&
    !(record.state != .completed && record.resultLen != 0)

section Platform

variable (platform : Platform)

def anchorOf (measured : Measured) (record : Record) : Result Anchor := do
  failIf (!anchorable measured record) .invalidLifecycleAuthority
  .ok
    { operationDigest := platform.sha256 (measured.separator ++
        littleEndian64 record.idLen ++ record.idBytes ++
        record.fingerprint.toList ++ littleEndian64 record.expectedRevision)
      expectedRevision := record.expectedRevision }

def lifecycleAnchor (record : Record) : Result Anchor :=
  anchorOf platform .lifecycle record

def nativeRemovalAnchor (record : Record) : Result Anchor :=
  anchorOf platform .nativeRemoval record

/-!
## Terminal outcomes
-/

def disconnectOutcome (value : JsonValue) : Option Outcome := do
  guard (value.hasFields 1)
  let disconnected <- value.get (ascii "disconnected")
  guard disconnected.isTrue
  some .sourceDisconnected

def pendingReason : JsonValue -> Option Outcome
  | .string reason =>
    if reason = ascii "NativeRequestsPending" then some .pendingRequests
    else if reason = ascii "NativeCustodyPending" then some .pendingCustody
    else none
  | _ => none

def removalOutcome (value : JsonValue) : Option Outcome := do
  let .string adapter <- value.get (ascii "adapter") | none
  guard (adapter = ascii "codex")
  let .bool removed <- value.get (ascii "removed") | none
  if removed then do
    guard (value.hasFields 4)
    let path <- value.get (ascii "config_path")
    let changed <- value.get (ascii "changed")
    guard (path.isString && changed.isBool)
    some .removed
  else do
    guard (value.hasFields 5)
    let installed <- value.get (ascii "installed")
    let pending <- value.get (ascii "pending_safe_detach")
    let reason <- value.get (ascii "reason")
    guard (installed.isTrue && pending.isTrue)
    pendingReason reason

def Measured.readOutcome : Measured -> JsonValue -> Option Outcome
  | .lifecycle => disconnectOutcome
  | .nativeRemoval => removalOutcome

def requireTerminal (measured : Measured) (record : Record) : Result Outcome := do
  failIf (record.state != .completed) .nonterminalLifecycleAuthority
  let value <- orFail (platform.parseJson record.result) .invalidLifecycleOutcome
  orFail (measured.readOutcome value) .invalidLifecycleOutcome

def Witness.validateForRecord (self : Witness) (measured : Measured)
    (record : Record) (currentRevision : Nat) : Result Unit := do
  self.validate
  let original <- anchorOf platform measured record
  failIf (original.operationDigest != self.anchor.operationDigest ||
    original.expectedRevision != self.anchor.expectedRevision ||
    decide (currentRevision < self.outcomeRevision)) .lifecycleAuthorityMismatch
  let outcome <- requireTerminal platform measured record
  failIf (outcome != self.outcome) .lifecycleAuthorityMismatch
  failIf (platform.sha256 record.result != self.resultSha256)
    .lifecycleAuthorityMismatch

end Platform

end Omux.Mutation
