import Omux.Library.Table
import Omux.Storage.Authority

/-!
# The tables of the store

A mutation prepares its input before the transaction, then reads and rewrites the tables
or refuses.
-/

namespace Omux.Storage

open Library

inductive RenewalOwner where
  | none | external | omux
deriving DecidableEq

inductive GrantState where
  | ready | refreshing | quarantined
deriving DecidableEq

inductive RotationStatus where
  | started | completed | quarantined
deriving DecidableEq

structure GrantRow where
  grant : GrantKey
  generation : Nat
  purpose : Bytes
  scope : Bytes
  renewalOwner : RenewalOwner
  state : GrantState
  ciphertext : Bytes

structure OperationRow where
  operationId : Bytes
  grant : GrantKey
  generation : Nat
  state : RotationStatus
  committedRevision : Option Nat := none

structure GenerationRow where
  grant : GrantKey
  generation : Nat

structure SnapshotRow where
  revision : Nat
  metadata : Bytes

structure CustodyRow where
  keyId : Bytes
  keyCheck : Bytes

structure Tables where
  custody : Option CustodyRow := none
  snapshot : Option SnapshotRow := none
  tombstones : Table Bytes Bytes id := .empty
  grants : Table GrantRow GrantKey GrantRow.grant := .empty
  operations : Table OperationRow Bytes OperationRow.operationId := .empty
  generations : Table GenerationRow GrantKey GenerationRow.grant := .empty
  checkpoint : Option Checkpoint := none

/-!
## Requests
-/

structure GrantPut where
  context : Context
  plaintext : Bytes
  renewalOwner : RenewalOwner := .none

/-- A put carries the nonce that its sealing draws. -/
inductive GrantChange where
  | put (grant : GrantPut) (nonce : SealNonce)
  | delete (grant : GrantKey)
  | tombstoneAccount (accountId : Bytes)
  | reenrollAccount (accountId : Bytes)

inductive SealedChange where
  | put (grant : GrantPut) (ciphertext : Bytes)
  | delete (grant : GrantKey)
  | tombstoneAccount (accountId : Bytes)
  | reenrollAccount (accountId : Bytes)

inductive Mutation where
  | commit (expectedRevision : Nat) (snapshotJson : Bytes) (changes : List GrantChange)
  | beginRotation (context : Context) (operationId : Bytes)
  | completeRotation (operationId : Bytes) (expectedRevision : Nat)
      (snapshotJson : Bytes) (successor : Context) (plaintext : Bytes) (nonce : SealNonce)
  | quarantineRotation (operationId : Bytes)
  | reconcilePendingRotations

/-- A mutation whose input was checked and sealed. -/
inductive Prepared where
  | commit (expectedRevision : Nat) (snapshotJson : Bytes) (changes : List SealedChange)
  | beginRotation (context : Context) (operationId : Bytes)
  | completeRotation (operationId : Bytes) (expectedRevision : Nat)
      (snapshotJson : Bytes) (successor : Context) (ciphertext : Bytes)
  | quarantineRotation (operationId : Bytes)
  | reconcilePendingRotations

structure RotationBegin where
  status : RotationStatus
  mayIssue : Bool

inductive Reply where
  | revision (committed : Nat)
  | begun (rotation : RotationBegin)
  | quarantined
  | reconciled (count : Nat)

/-- A transaction that wrote nothing commits without a checkpoint. -/
inductive Outcome where
  | unchanged (reply : Reply)
  | changed (tables : Tables) (reply : Reply)

/-!
## Metadata
-/

def maximumSnapshotBytes : Nat := 16 * 1024 * 1024

def toLower (byte : UInt8) : UInt8 :=
  if isUpper byte then byte + 32 else byte

def eqlIgnoreCase (a b : Bytes) : Bool :=
  a.map toLower == b.map toLower

def forbiddenFields : List Bytes :=
  [ascii "access_token", ascii "refresh_token", ascii "id_token", ascii "api_key",
    ascii "OPENAI_API_KEY", ascii "password", ascii "cookie", ascii "cookies",
    ascii "secret", ascii "secrets", ascii "plaintext", ascii "grant_blob",
    ascii "credential_payload"]

mutual

def validateValue (depth : Nat) : JsonValue -> Result Unit
  | .object fields => do
    failIf (decide (64 < depth)) .invalidSnapshot
    validateFields (depth + 1) fields
  | .array items => do
    failIf (decide (64 < depth)) .invalidSnapshot
    validateItems (depth + 1) items
  | _ => failIf (decide (64 < depth)) .invalidSnapshot

def validateItems (depth : Nat) : List JsonValue -> Result Unit
  | [] => pure ()
  | item :: rest => do
    validateValue depth item
    validateItems depth rest

def validateFields (depth : Nat) : List (Bytes × JsonValue) -> Result Unit
  | [] => pure ()
  | (name, value) :: rest => do
    failIf (forbiddenFields.any (eqlIgnoreCase name)) .secretInSnapshot
    validateValue depth value
    validateFields depth rest

end

def validateMetadata (platform : Platform) (json : Bytes) : Result Unit := do
  failIf (decide (maximumSnapshotBytes < json.length)) .snapshotTooLarge
  match platform.parseJson json with
  | some (.object fields) => validateValue 0 (.object fields)
  | _ => .error .invalidSnapshot

namespace Tables

/-!
## The snapshot row
-/

variable (self : Tables)

def checkRevision (expected : Nat) : Result Nat := do
  let row <- orFail self.snapshot .recordMissing
  failIf (row.revision != expected) .revisionConflict
  failIf (decide (maxInt64 <= expected)) .revisionExhausted
  pure (expected + 1)

def bumpRevision : Result Tables := do
  let row <- orFail self.snapshot .recordMissing
  failIf (decide (maxInt64 <= row.revision)) .revisionExhausted
  pure { self with snapshot := some { row with revision := row.revision + 1 } }

def updateSnapshot (revision : Nat) (json : Bytes) : Tables :=
  { self with
    snapshot := self.snapshot.map (fun _ => { revision, metadata := json }) }

/-!
## Grants
-/

def isTombstoned (accountId : Bytes) : Bool :=
  (self.tombstones.find accountId).isSome

def nextGeneration (grant : GrantKey) : Result Nat :=
  match self.generations.find grant with
  | none => .ok 1
  | some row => do
    failIf (decide (maxInt64 <= row.generation)) .generationExhausted
    pure (row.generation + 1)

def recordGeneration (context : Context) : Tables :=
  { self with
    generations := self.generations.upsert
      { grant := context.grant, generation := context.generation } }

/-- The row that a put would overwrite must be the predecessor, and not in use. -/
def checkPredecessor (generation : Nat) : Option GrantRow -> Result Unit
  | none => .ok ()
  | some row => do
    failIf (row.generation == maxInt64 || generation != row.generation + 1)
      .staleGeneration
    failIf (row.state == .refreshing) .rotationInProgress

def putRow (grant : GrantPut) (ciphertext : Bytes) : GrantRow :=
  { grant := grant.context.grant
    generation := grant.context.generation
    purpose := grant.context.purpose
    scope := grant.context.scope
    renewalOwner := grant.renewalOwner
    state := .ready
    ciphertext }

def put (grant : GrantPut) (ciphertext : Bytes) : Result Tables := do
  failIf (self.isTombstoned grant.context.accountId) .accountForgotten
  let next <- self.nextGeneration grant.context.grant
  failIf (grant.context.generation != next) .staleGeneration
  checkPredecessor grant.context.generation (self.grants.find grant.context.grant)
  pure ({ self with grants := self.grants.upsert (putRow grant ciphertext) }.recordGeneration
    grant.context)

def quarantineOperations (selected : OperationRow -> Bool) : Tables :=
  { self with
    operations := self.operations.update
      (fun row => selected row && row.state == .started)
      (fun row => { row with state := .quarantined }) (fun _ => rfl) }

def quarantineGrants (selected : GrantRow -> Bool) : Tables :=
  { self with
    grants := self.grants.update
      (fun row => row.state == .refreshing && selected row)
      (fun row => { row with state := .quarantined }) (fun _ => rfl) }

/-- Delete grants and give up the rotations that were started on them. -/
def dropGrants (selected : GrantKey -> Bool) : Tables :=
  quarantineOperations
    { self with grants := self.grants.delete (fun row => selected row.grant) }
    (fun row => selected row.grant)

def deleteGrant (grant : GrantKey) : Tables :=
  self.dropGrants (fun key => key == grant)

def tombstoneAccount (accountId : Bytes) : Result Tables := do
  failIf accountId.isEmpty .invalidContext
  pure ({ self with tombstones := self.tombstones.upsert accountId }.dropGrants
    (fun key => key.accountId == accountId))

def reenrollAccount (accountId : Bytes) : Result Tables := do
  failIf accountId.isEmpty .invalidContext
  pure { self with tombstones := self.tombstones.delete (fun row => row == accountId) }

def applyChange : SealedChange -> Result Tables
  | .put grant ciphertext => self.put grant ciphertext
  | .delete grant => .ok (self.deleteGrant grant)
  | .tombstoneAccount accountId => self.tombstoneAccount accountId
  | .reenrollAccount accountId => self.reenrollAccount accountId

def loadGrant (platform : Platform) (root : Root) (self : Tables) (context : Context) :
    Result Bytes := do
  context.validate
  failIf (root.keyId != context.keyId) .wrongKeyIdentity
  let row <- orFail (self.grants.find context.grant) .grantUnavailable
  failIf (row.generation != context.generation) .staleGeneration
  failIf (row.state == .refreshing) .rotationInProgress
  failIf (row.state != .ready) .grantQuarantined
  openEnvelope platform root.key context row.ciphertext

/-!
## Rotations
-/

def commit (expectedRevision : Nat) (snapshotJson : Bytes)
    (changes : List SealedChange) : Result Outcome := do
  let next <- self.checkRevision expectedRevision
  let tables <- changes.foldlM applyChange self
  pure (.changed (tables.updateSnapshot next snapshotJson) (.revision next))

/-- The condition under which a rotation may start on a row. -/
def renewable (context : Context) (row : GrantRow) : Bool :=
  row.grant == context.grant && row.generation == context.generation &&
    row.renewalOwner == .omux && row.state == .ready

def startRotation (context : Context) (operationId : Bytes) : Result Outcome := do
  failIf (self.grants.count (renewable context) != 1) .renewalNotOwned
  let operations <- orFail (self.operations.insert
    { operationId := operationId
      grant := context.grant
      generation := context.generation
      state := .started }) .constraintViolation
  let tables <- bumpRevision
    { self with
      grants := self.grants.update (renewable context)
        (fun row => { row with state := .refreshing }) (fun _ => rfl)
      operations }
  pure (.changed tables (.begun { status := .started, mayIssue := true }))

def beginRotation (platform : Platform) (root : Root) (self : Tables) (context : Context)
    (operationId : Bytes) : Result Outcome :=
  match self.operations.find operationId with
  | some previous => do
    failIf (previous.grant != context.grant || previous.generation != context.generation)
      .operationConflict
    pure (.unchanged (.begun { status := previous.state, mayIssue := false }))
  | none => do
    let _ <- self.loadGrant platform root context
    self.startRotation context operationId

/-- The row that waits for the successor of an operation. -/
def awaiting (operation : OperationRow) (row : GrantRow) : Bool :=
  row.grant == operation.grant && row.generation == operation.generation &&
    row.state == .refreshing && row.renewalOwner == .omux

def installSuccessor (operation : OperationRow) (revision : Nat)
    (snapshotJson : Bytes) (successor : Context) (ciphertext : Bytes) : Tables :=
  let installed : Tables :=
    { self with
      grants := self.grants.update (awaiting operation)
        (fun row => { row with
          generation := successor.generation
          purpose := successor.purpose
          scope := successor.scope
          ciphertext := ciphertext
          state := .ready }) (fun _ => rfl) }
  let recorded := installed.recordGeneration successor
  updateSnapshot
    { recorded with
      operations := recorded.operations.update
        (fun row => row.operationId == operation.operationId && row.state == .started)
        (fun row => { row with state := .completed, committedRevision := some revision })
        (fun _ => rfl) }
    revision snapshotJson

def completeRotation (operationId : Bytes) (expectedRevision : Nat)
    (snapshotJson : Bytes) (successor : Context) (ciphertext : Bytes) : Result Outcome := do
  let operation <- orFail (self.operations.find operationId) .recordMissing
  failIf (operation.grant != successor.grant || operation.generation == maxInt64 ||
    successor.generation != operation.generation + 1) .operationConflict
  match operation.state with
  | .completed => do
    let revision <- orFail operation.committedRevision .databaseCorrupt
    pure (.unchanged (.revision revision))
  | .quarantined => .error .grantQuarantined
  | .started => do
    let revision <- self.checkRevision expectedRevision
    failIf (self.grants.count (awaiting operation) != 1) .rotationConflict
    pure (.changed (self.installSuccessor operation revision snapshotJson successor ciphertext)
      (.revision revision))

/-- Quarantine what a condition selects; a transaction that selects nothing is empty. -/
def quarantine (grants : GrantRow -> Bool)
    (operations : OperationRow -> Bool) (reply : Reply) : Result Outcome :=
  if self.grants.count (fun row => row.state == .refreshing && grants row) != 0 ||
      self.operations.count (fun row => operations row && row.state == .started) != 0 then do
    let tables <- ((self.quarantineGrants grants).quarantineOperations operations).bumpRevision
    pure (.changed tables reply)
  else .ok (.unchanged reply)

def startedFor (operation : Option OperationRow) (row : GrantRow) : Bool :=
  operation.any (fun operation => operation.state == .started &&
    operation.grant == row.grant && operation.generation == row.generation)

def quarantineRotation (operationId : Bytes) : Result Outcome :=
  self.quarantine (startedFor (self.operations.find operationId))
    (fun row => row.operationId == operationId) .quarantined

def reconcilePendingRotations : Result Outcome :=
  self.quarantine (fun _ => true) (fun _ => true)
    (.reconciled (self.operations.count (fun row => row.state == .started)))

end Tables

/-!
## Mutations
-/

section Mutations

variable (platform : Platform) (root : Root)

def sealChange : GrantChange -> Result SealedChange
  | .put grant nonce => do
    failIf (root.keyId != grant.context.keyId) .wrongKeyIdentity
    let ciphertext <- sealEnvelope platform root.key grant.context nonce grant.plaintext
    pure (.put grant ciphertext)
  | .delete grant => .ok (.delete grant)
  | .tombstoneAccount accountId => .ok (.tombstoneAccount accountId)
  | .reenrollAccount accountId => .ok (.reenrollAccount accountId)

def sealChanges : List GrantChange -> Result (List SealedChange)
  | [] => .ok []
  | change :: rest => do
    let sealed <- sealChange platform root change
    let others <- sealChanges rest
    pure (sealed :: others)

/-- Checks and sealing before the transaction. -/
def Mutation.prepare : Mutation -> Result Prepared
  | .commit expectedRevision snapshotJson changes => do
    validateMetadata platform snapshotJson
    let sealed <- sealChanges platform root changes
    pure (.commit expectedRevision snapshotJson sealed)
  | .beginRotation context operationId => do
    context.validate
    failIf (operationId.isEmpty || decide (4096 < operationId.length)) .invalidOperation
    pure (.beginRotation context operationId)
  | .completeRotation operationId expectedRevision snapshotJson successor plaintext nonce => do
    validateMetadata platform snapshotJson
    failIf (root.keyId != successor.keyId) .wrongKeyIdentity
    let ciphertext <- sealEnvelope platform root.key successor nonce plaintext
    pure (.completeRotation operationId expectedRevision snapshotJson successor ciphertext)
  | .quarantineRotation operationId => .ok (.quarantineRotation operationId)
  | .reconcilePendingRotations => .ok .reconcilePendingRotations

/-- What a prepared mutation does inside the transaction. -/
def Prepared.transact (tables : Tables) : Prepared -> Result Outcome
  | .commit expectedRevision snapshotJson changes =>
    tables.commit expectedRevision snapshotJson changes
  | .beginRotation context operationId => tables.beginRotation platform root context operationId
  | .completeRotation operationId expectedRevision snapshotJson successor ciphertext =>
    tables.completeRotation operationId expectedRevision snapshotJson successor ciphertext
  | .quarantineRotation operationId => tables.quarantineRotation operationId
  | .reconcilePendingRotations => tables.reconcilePendingRotations

end Mutations

end Omux.Storage
