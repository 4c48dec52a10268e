import Omux.Library.Records
import Omux.Library.Run
import Omux.Native.Reference

/-!
# Native owners and attachments

The ledger of native owners, of the attachments of their threads, and of the fences that
end one application at one adapter epoch.  Rows are never removed.
-/

namespace Omux.Native

open Library

def maximumOwners : Nat := 256
def maximumAttachments : Nat := 4096
def maximumThreadBytes : Nat := 256
def maximumSnapshotBytes : Nat := 16 * 1024 * 1024

inductive NativeError where
  | invalidNativeRef | invalidNativeOperation | invalidNativeOwner | invalidNativeAttachment
  | unsafePath | invalidPeerWitness | nativeOwnerConflict | nativeOwnerStillLive
  | nativeOwnerMismatch | nativeOwnerAmbiguous | unknownNativeOwner | nativeOwnerCapacity
  | nativeGenerationConflict | nativeAttachmentConflict | nativeAttachmentPending
  | nativeAttachmentCapacity | unknownNativeAttachment | nativeRemovalPending
  | nativeRetirementPending | nativeOperationMismatch | nativeOperationAlreadyPending
  | invalidNativeTransition | invalidNativeOwnerSnapshot | snapshotTooLarge
deriving DecidableEq

abbrev Result := Except NativeError

abbrev OwnerId := Vector UInt8 32
abbrev OperationId := Vector UInt8 64

/-!
## Peers and paths
-/

inductive Profile where
  | linuxPidfs64V1
deriving DecidableEq

structure NamespaceWitness where
  device : Nat
  inode : Nat
deriving DecidableEq

structure Witness where
  profile : Profile
  bootId : Vector UInt8 16
  pidfsDevice : Nat
  pidfsInode : Nat
  userNamespace : NamespaceWitness
  pidNamespace : NamespaceWitness
  uid : Nat
  gid : Nat
deriving DecidableEq

def validateSavedWitness (witness : Witness) : Result Unit :=
  failIf (!nonzero witness.bootId.toList || witness.pidfsInode == 0 ||
    witness.userNamespace.inode == 0 || witness.pidNamespace.inode == 0)
    .invalidPeerWitness

def sameOriginal (a b : Witness) : Bool :=
  a == b

def isSafePart (part : Bytes) : Bool :=
  !(part.isEmpty || part == ascii "." || part == ascii "..")

def validateAbsolute (path : Bytes) : Result Unit := do
  failIf (decide (path.length < 2) || path.head? != some 0x2F ||
    path.getLast? == some 0x2F || path.contains 0) .unsafePath
  failIf (!((path.drop 1).splitOn 0x2F).all isSafePart) .unsafePath

/-!
## Rows
-/

structure OwnerKey where
  ownerId : OwnerId
  adapterEpoch : Nat
  endpointGeneration : Nat
deriving DecidableEq

def NativeRef.ownerKey (self : NativeRef) : OwnerKey where
  ownerId := self.ownerId
  adapterEpoch := self.adapterEpoch
  endpointGeneration := self.endpointGeneration

inductive OwnerPhase where
  | opened | closing | retired
deriving DecidableEq

inductive AttachmentPhase where
  | pendingRegistration | attached | pendingDetach | unresolved | retired
deriving DecidableEq

inductive UnresolvedFrom where
  | registration | attachment | detachment
deriving DecidableEq

inductive Retirement where
  | none | verifiedDetach | verifiedRegistrationNoEffect
deriving DecidableEq

inductive RemovalPhase where
  | pending | retired
deriving DecidableEq

structure Owner where
  id : OwnerId
  application : Bytes
  adapterEpoch : Nat
  endpointGeneration : Nat
  witness : Witness
  nativeNonce : Vector UInt8 32
  endpointPath : Bytes
  phase : OwnerPhase := .opened
  removalOperation : Option OperationId := none

variable (self : Owner)

def Owner.key : OwnerKey where
  ownerId := self.id
  adapterEpoch := self.adapterEpoch
  endpointGeneration := self.endpointGeneration

def Owner.belongs (application : Bytes) (epoch : Nat) : Bool :=
  self.adapterEpoch == epoch && self.application == application

def Owner.close (operation : OperationId) : Owner :=
  { self with removalOperation := some operation, phase := .closing }

def Owner.retire : Owner :=
  { self with phase := .retired }

structure Attachment where
  reference : NativeRef
  threadId : Bytes
  registrationOperation : OperationId
  detachOperation : Option OperationId := none
  phase : AttachmentPhase := .pendingRegistration
  unresolvedFrom : UnresolvedFrom := .registration
  retirement : Retirement := .none

structure Removal where
  application : Bytes
  adapterEpoch : Nat
  operation : OperationId
  phase : RemovalPhase := .pending

def Removal.retire (self : Removal) : Removal :=
  { self with phase := .retired }

structure Snapshot where
  version : Nat := 1
  owners : List Owner := []
  attachments : List Attachment := []
  removals : List Removal := []

def validateOperation (id : OperationId) : Result Unit :=
  failIf (!id.toList.all (fun byte => isDigit byte || (0x61 <= byte && byte <= 0x66)))
    .invalidNativeOperation

def validateOptionalOperation (id : Option OperationId) : Result Unit :=
  match id with
  | none => pure ()
  | some id => validateOperation id

def isApplicationByte (byte : UInt8) : Bool :=
  isLower byte || isDigit byte || byte == 0x5F || byte == 0x2D

def validateRemoval (row : Removal) : Result Unit := do
  failIf (row.application.isEmpty || decide (64 < row.application.length) ||
    row.adapterEpoch == 0) .invalidNativeOwner
  failIf (!row.application.all isApplicationByte) .invalidNativeOwner
  validateOperation row.operation

def validateOwner (owner : Owner) : Result Unit := do
  failIf (!nonzero owner.id.toList || !nonzero owner.nativeNonce.toList ||
    owner.adapterEpoch == 0 || owner.endpointGeneration == 0 ||
    owner.application.isEmpty || decide (64 < owner.application.length))
    .invalidNativeOwner
  failIf (!owner.application.all isApplicationByte) .invalidNativeOwner
  failIf (decide (107 < owner.endpointPath.length)) .invalidNativeOwner
  validateAbsolute owner.endpointPath
  validateSavedWitness owner.witness
  validateOptionalOperation owner.removalOperation
  failIf ((owner.phase == .opened) != owner.removalOperation.isNone) .invalidNativeOwner

/-- What the phase of a row says about its operations. -/
def Attachment.isConsistent (row : Attachment) : Bool :=
  match row.phase with
  | .pendingRegistration => row.detachOperation.isNone && row.unresolvedFrom == .registration
  | .attached => row.detachOperation.isNone && row.unresolvedFrom == .attachment
  | .pendingDetach => row.detachOperation.isSome && row.unresolvedFrom == .detachment
  | .retired =>
    match row.retirement with
    | .none => false
    | .verifiedDetach => row.detachOperation.isSome && row.unresolvedFrom == .detachment
    | .verifiedRegistrationNoEffect =>
      row.detachOperation.isNone && row.unresolvedFrom == .registration
  | .unresolved => (row.unresolvedFrom == .detachment) == row.detachOperation.isSome

def validateAttachment (row : Attachment) : Result Unit := do
  row.reference.validate .invalidNativeRef
  failIf (row.threadId.isEmpty || decide (maximumThreadBytes < row.threadId.length))
    .invalidNativeAttachment
  validateOperation row.registrationOperation
  validateOptionalOperation row.detachOperation
  failIf ((row.phase == .retired) != (row.retirement != .none)) .invalidNativeAttachment
  failIf (!row.isConsistent) .invalidNativeAttachment

/-!
## The ledger
-/

structure Ledger where
  owners : List Owner := []
  attachments : List Attachment := []
  removals : List Removal := []

namespace Ledger

def init : Ledger := {}

variable (self : Ledger)

def snapshot : Snapshot where
  owners := self.owners
  attachments := self.attachments
  removals := self.removals

def applicationRemoval (application : Bytes) (epoch : Nat) : Option Removal :=
  self.removals.find? (fun row =>
    row.adapterEpoch == epoch && row.application == application)

def lookupOwnerKey (key : OwnerKey) : Option Owner :=
  recordAt Owner.key self.owners key

def lookupOwnerForRef (reference : NativeRef) : Option Owner :=
  self.lookupOwnerKey reference.ownerKey

def hasOwnerId (id : OwnerId) : Bool :=
  self.owners.any (fun owner => owner.id == id)

def lookupAttachment (reference : NativeRef) : Option Attachment :=
  recordAt Attachment.reference self.attachments reference

def ownerIndex (id : OwnerId) : Result (Nat × Owner) :=
  match firstEntry (fun owner => owner.id == id) self.owners with
  | none => .error .unknownNativeOwner
  | some (i, owner) =>
    if (self.owners.drop (i + 1)).any (fun other => other.id == id) then
      .error .nativeOwnerAmbiguous
    else .ok (i, owner)

def qualifiedOwnerIndex (key : OwnerKey) : Result (Nat × Owner) :=
  orFail (recordEntry Owner.key self.owners key) .unknownNativeOwner

def attachmentIndex (reference : NativeRef) : Result (Nat × Attachment) :=
  orFail (recordEntry Attachment.reference self.attachments reference)
    .unknownNativeAttachment

/-!
## Admission
-/

/-- Another row of the ledger against an owner that wants to enter. -/
def checkOwner (input old : Owner) : Result Unit := do
  failIf (old.id == input.id && old.phase != .retired) .nativeOwnerStillLive
  failIf (old.adapterEpoch == input.adapterEpoch && old.application == input.application &&
    sameOriginal old.witness input.witness && old.nativeNonce == input.nativeNonce && decide
    (input.endpointGeneration <= old.endpointGeneration)) .nativeGenerationConflict

def admitOwner (input : Owner) : Result Ledger := do
  validateOwner input
  failIf (input.phase != .opened || input.removalOperation.isSome) .invalidNativeOwner
  failIf (self.lookupOwnerKey input.key).isSome .nativeOwnerConflict
  failIf (self.applicationRemoval input.application input.adapterEpoch).isSome
    .nativeRemovalPending
  checkAll (checkOwner input) self.owners
  failIf (decide (maximumOwners <= self.owners.length)) .nativeOwnerCapacity
  pure { self with owners := self.owners ++ [input] }

/-- What the scan of the attachments of one owner has seen. -/
structure Seen where
  knownInstance : Bool := false
  greatestInstance : Nat := 0

def scanAttachment (input : Attachment) (seen : Seen) (row : Attachment) : Result Seen := do
  let sameOwner := row.reference.ownerKey == input.reference.ownerKey
  let sameThread := row.threadId == input.threadId
  let sameInstance := row.reference.threadInstanceGeneration ==
    input.reference.threadInstanceGeneration
  failIf (row.reference == input.reference) .nativeAttachmentConflict
  failIf (sameOwner && sameInstance && !sameThread) .nativeGenerationConflict
  failIf (sameOwner && sameThread && sameInstance &&
    decide (input.reference.attachmentGeneration <= row.reference.attachmentGeneration))
    .nativeGenerationConflict
  failIf (sameOwner && sameThread && row.phase != .retired) .nativeAttachmentPending
  pure (if sameOwner then
    { knownInstance := seen.knownInstance || sameInstance
      greatestInstance :=
        max seen.greatestInstance row.reference.threadInstanceGeneration }
    else seen)

/-- The owner that a reference names, or why there is none. -/
def ownerOf (reference : NativeRef) : Result Owner :=
  orFail (self.lookupOwnerForRef reference)
    (if self.hasOwnerId reference.ownerId then .nativeOwnerMismatch
    else .unknownNativeOwner)

def admitAttachment (input : Attachment) : Result Ledger := do
  validateAttachment input
  failIf (input.phase != .pendingRegistration || input.unresolvedFrom != .registration ||
    input.detachOperation.isSome) .invalidNativeAttachment
  let owner <- self.ownerOf input.reference
  failIf (owner.phase != .opened ||
    (self.applicationRemoval owner.application owner.adapterEpoch).isSome)
    .nativeRemovalPending
  failIf (owner.adapterEpoch != input.reference.adapterEpoch ||
    owner.endpointGeneration != input.reference.endpointGeneration) .nativeOwnerMismatch
  let seen <- self.attachments.foldlM (scanAttachment input) {}
  failIf (!seen.knownInstance &&
    decide (input.reference.threadInstanceGeneration <= seen.greatestInstance))
    .nativeGenerationConflict
  failIf (decide (maximumAttachments <= self.attachments.length + self.removals.length))
    .nativeAttachmentCapacity
  pure { self with attachments := self.attachments ++ [input] }

end Ledger

/-!
## The phases of an attachment
-/

namespace Attachment

variable (operation : OperationId)

def completeRegistration (row : Attachment) : Result Attachment := do
  failIf (row.registrationOperation != operation) .nativeOperationMismatch
  if row.phase == .attached then pure row
  else
    failIf (row.phase != .pendingRegistration &&
      !(row.phase == .unresolved && row.unresolvedFrom == .registration))
      .invalidNativeTransition
    pure { row with phase := .attached, unresolvedFrom := .attachment }

def beginDetach (row : Attachment) : Result Attachment := do
  failIf row.detachOperation.isSome .nativeOperationAlreadyPending
  failIf (row.phase != .attached &&
    !(row.phase == .unresolved && row.unresolvedFrom == .attachment))
    .invalidNativeTransition
  pure { row with detachOperation := some operation, phase := .pendingDetach,
                  unresolvedFrom := .detachment }

def completeRegistrationNoEffect (row : Attachment) : Result Attachment := do
  failIf (row.registrationOperation != operation) .nativeOperationMismatch
  if row.phase == .retired && row.retirement == .verifiedRegistrationNoEffect then pure row
  else
    failIf (row.phase != .pendingRegistration &&
      !(row.phase == .unresolved && row.unresolvedFrom == .registration))
      .invalidNativeTransition
    pure { row with phase := .retired, retirement := .verifiedRegistrationNoEffect }

def completeDetach (row : Attachment) : Result Attachment := do
  let expected <- orFail row.detachOperation .invalidNativeTransition
  failIf (expected != operation) .nativeOperationMismatch
  if row.phase == .retired then pure row
  else
    failIf (row.phase != .pendingDetach &&
      !(row.phase == .unresolved && row.unresolvedFrom == .detachment))
      .invalidNativeTransition
    pure { row with phase := .retired, retirement := .verifiedDetach }

/-- What was under way is uncertain from now on. -/
def markUnresolved (row : Attachment) : Attachment :=
  match row.phase with
  | .pendingRegistration => { row with phase := .unresolved, unresolvedFrom := .registration }
  | .attached => { row with phase := .unresolved, unresolvedFrom := .attachment }
  | .pendingDetach => { row with phase := .unresolved, unresolvedFrom := .detachment }
  | .unresolved | .retired => row

end Attachment

namespace Ledger

variable (self : Ledger)

def onAttachment (reference : NativeRef)
    (change : Attachment -> Result Attachment) : Result Ledger := do
  let entry <- self.attachmentIndex reference
  let row <- change entry.2
  pure { self with attachments := self.attachments.set entry.1 row }

def completeRegistration (reference : NativeRef) (operation : OperationId) : Result Ledger :=
  self.onAttachment reference (Attachment.completeRegistration operation)

def beginDetach (reference : NativeRef) (operation : OperationId) : Result Ledger := do
  validateOperation operation
  self.onAttachment reference (Attachment.beginDetach operation)

def completeRegistrationNoEffect (reference : NativeRef)
    (operation : OperationId) : Result Ledger :=
  self.onAttachment reference (Attachment.completeRegistrationNoEffect operation)

def completeDetach (reference : NativeRef) (operation : OperationId) : Result Ledger :=
  self.onAttachment reference (Attachment.completeDetach operation)

def markUnresolved (reference : NativeRef) : Result Ledger :=
  self.onAttachment reference (fun row => pure row.markUnresolved)

def recoverAfterRestart : Ledger :=
  { self with attachments := self.attachments.map Attachment.markUnresolved }

/-!
## Removal
-/

def beginRemovalForOwner (key : OwnerKey) (operation : OperationId) : Result Ledger := do
  validateOperation operation
  let entry <- self.qualifiedOwnerIndex key
  match entry.2.removalOperation with
  | some expected =>
    failIf (expected != operation) .nativeOperationMismatch
    pure self
  | none => pure { self with owners := self.owners.set entry.1 (entry.2.close operation) }

def beginRemoval (ownerId : OwnerId) (operation : OperationId) : Result Ledger := do
  let entry <- self.ownerIndex ownerId
  self.beginRemovalForOwner entry.2.key operation

def beginRemovalForRef (reference : NativeRef) (operation : OperationId) : Result Ledger :=
  self.beginRemovalForOwner reference.ownerKey operation

/-- An owner that a fence of its application must not meet. -/
def checkFenced (application : Bytes) (epoch : Nat) (operation : OperationId)
    (owner : Owner) : Result Unit :=
  failIf (owner.belongs application epoch && owner.phase != .retired &&
    owner.removalOperation.isSome && owner.removalOperation != some operation)
    .nativeOperationMismatch

def closeOwner (application : Bytes) (epoch : Nat) (operation : OperationId)
    (owner : Owner) : Owner :=
  if owner.belongs application epoch && owner.phase != .retired then owner.close operation
  else owner

def beginApplicationRemoval (application : Bytes) (epoch : Nat)
    (operation : OperationId) : Result Ledger := do
  validateRemoval { application, adapterEpoch := epoch, operation }
  match self.applicationRemoval application epoch with
  | some old =>
    failIf (old.operation != operation) .nativeOperationMismatch
    pure self
  | none =>
    failIf (decide (maximumAttachments <= self.attachments.length + self.removals.length))
      .nativeAttachmentCapacity
    checkAll (checkFenced application epoch operation) self.owners
    let fence : Removal := { application, adapterEpoch := epoch,
                             operation }
    pure { self with
           removals := self.removals ++ [fence]
           owners := self.owners.map (closeOwner application epoch operation) }

def removalReady (application : Bytes) (epoch : Nat) (operation : OperationId) : Bool :=
  match self.applicationRemoval application epoch with
  | none => false
  | some fence =>
    fence.operation == operation && self.owners.all (fun owner =>
        !owner.belongs application epoch || owner.phase == .retired)

def completeApplicationRemoval (application : Bytes) (epoch : Nat)
    (operation : OperationId) : Result Ledger := do
  failIf (!self.removalReady application epoch operation) .nativeRetirementPending
  let entry <- orFail (firstEntry (fun row =>
    row.adapterEpoch == epoch && row.application == application) self.removals)
    .invalidNativeTransition
  pure { self with removals := self.removals.set entry.1 entry.2.retire }

def retireOwnerForOwner (key : OwnerKey) (operation : OperationId) : Result Ledger := do
  let entry <- self.qualifiedOwnerIndex key
  let expected <- orFail entry.2.removalOperation .invalidNativeTransition
  failIf (expected != operation) .nativeOperationMismatch
  failIf (self.attachments.any (fun row =>
    row.reference.ownerKey == key && row.phase != .retired)) .nativeRetirementPending
  pure { self with owners := self.owners.set entry.1 entry.2.retire }

def retireOwner (ownerId : OwnerId) (operation : OperationId) : Result Ledger := do
  let entry <- self.ownerIndex ownerId
  self.retireOwnerForOwner entry.2.key operation

def retireOwnerForRef (reference : NativeRef) (operation : OperationId) : Result Ledger :=
  self.retireOwnerForOwner reference.ownerKey operation

end Ledger

/-!
## Encodings
-/

def OwnerPhase.json : OwnerPhase -> Bytes
  | .opened => jsonString (ascii "open")
  | .closing => jsonString (ascii "closing")
  | .retired => jsonString (ascii "retired")

def AttachmentPhase.json : AttachmentPhase -> Bytes
  | .pendingRegistration => jsonString (ascii "pending_registration")
  | .attached => jsonString (ascii "attached")
  | .pendingDetach => jsonString (ascii "pending_detach")
  | .unresolved => jsonString (ascii "unresolved")
  | .retired => jsonString (ascii "retired")

def UnresolvedFrom.json : UnresolvedFrom -> Bytes
  | .registration => jsonString (ascii "registration")
  | .attachment => jsonString (ascii "attachment")
  | .detachment => jsonString (ascii "detachment")

def Retirement.json : Retirement -> Bytes
  | .none => jsonString (ascii "none")
  | .verifiedDetach => jsonString (ascii "verified_detach")
  | .verifiedRegistrationNoEffect => jsonString (ascii "verified_registration_no_effect")

def RemovalPhase.json : RemovalPhase -> Bytes
  | .pending => jsonString (ascii "pending")
  | .retired => jsonString (ascii "retired")

def Profile.json : Profile -> Bytes
  | .linuxPidfs64V1 => jsonString (ascii "linux_pidfs64_v1")

def NamespaceWitness.json (self : NamespaceWitness) : Bytes :=
  jsonObject [(ascii "device", decimal self.device), (ascii "inode", decimal self.inode)]

def Witness.json (self : Witness) : Bytes :=
  jsonObject
    [(ascii "profile", self.profile.json), (ascii "boot_id", jsonSlice self.bootId.toList),
      (ascii "pidfs_device", decimal self.pidfsDevice),
      (ascii "pidfs_inode", decimal self.pidfsInode),
      (ascii "user_namespace", self.userNamespace.json),
      (ascii "pid_namespace", self.pidNamespace.json), (ascii "uid", decimal self.uid),
      (ascii "gid", decimal self.gid)]

def operationJson (operation : OperationId) : Bytes :=
  jsonSlice operation.toList

def Owner.json : Bytes :=
  jsonObject
    [(ascii "id", jsonSlice self.id.toList), (ascii "application", jsonSlice self.application),
      (ascii "adapter_epoch", decimal self.adapterEpoch),
      (ascii "endpoint_generation", decimal self.endpointGeneration),
      (ascii "witness", self.witness.json),
      (ascii "native_nonce", jsonSlice self.nativeNonce.toList),
      (ascii "endpoint_path", jsonSlice self.endpointPath), (ascii "phase", self.phase.json),
      (ascii "removal_operation", jsonOption operationJson self.removalOperation)]

def Attachment.json (self : Attachment) : Bytes :=
  jsonObject
    [(ascii "reference", self.reference.json), (ascii "thread_id", jsonSlice self.threadId),
      (ascii "registration_operation", operationJson self.registrationOperation),
      (ascii "detach_operation", jsonOption operationJson self.detachOperation),
      (ascii "phase", self.phase.json), (ascii "unresolved_from", self.unresolvedFrom.json),
      (ascii "retirement", self.retirement.json)]

def Removal.json (self : Removal) : Bytes :=
  jsonObject
    [(ascii "application", jsonSlice self.application),
      (ascii "adapter_epoch", decimal self.adapterEpoch),
      (ascii "operation", operationJson self.operation), (ascii "phase", self.phase.json)]

def Snapshot.json (self : Snapshot) : Bytes :=
  jsonObject
    [(ascii "version", decimal self.version),
      (ascii "owners", jsonArray (self.owners.map Owner.json)),
      (ascii "attachments", jsonArray (self.attachments.map Attachment.json)),
      (ascii "removals", jsonArray (self.removals.map Removal.json))]

def countJson (encoded : Bytes) : Result Nat :=
  orFail (countWithin maximumSnapshotBytes encoded) .snapshotTooLarge

/-!
## Reserved bytes
-/

/-- How much the widest of the futures of a row is longer than the row. -/
def widening (actual : Bytes) (futures : List Bytes) : Result Nat := do
  let actual <- countJson actual
  let widest <- futures.foldlM (fun widest future => do
    let count <- countJson future
    pure (max widest count)) actual
  pure (widest - actual)

def ownerPhases : List OwnerPhase := [.opened, .closing, .retired]

def attachmentPhases : List AttachmentPhase :=
  [.pendingRegistration, .attached, .pendingDetach, .unresolved, .retired]

def unresolvedOrigins : List UnresolvedFrom := [.registration, .attachment, .detachment]

def someOperation : OperationId := Vector.replicate 64 0x61

def Owner.widening : Result Nat :=
  if self.phase == .retired then pure 0
  else Native.widening self.json (ownerPhases.map (fun phase =>
    { self with phase, removalOperation := some someOperation : Owner }.json))

def Attachment.widening (self : Attachment) : Result Nat :=
  if self.phase == .retired then pure 0
  else Native.widening self.json (attachmentPhases.flatMap (fun phase =>
    unresolvedOrigins.map (fun origin =>
      { self with phase, unresolvedFrom := origin, detachOperation := some someOperation,
                  retirement := .verifiedRegistrationNoEffect : Attachment }.json)))

def Removal.widening (self : Removal) : Result Nat := do
  let actual <- countJson self.json
  let future <- countJson self.retire.json
  pure (future - actual)

namespace Ledger

def reserveAll {α : Type _} (widening : α -> Result Nat) (rows : List α) (bytes : Nat) :
    Result Nat :=
  rows.foldlM (fun bytes row => do
    let growth <- widening row
    pure (bytes + growth)) bytes

variable (self : Ledger)

def reservedSnapshotBytes : Result Nat := do
  let bytes <- countJson self.snapshot.json
  let bytes <- reserveAll Owner.widening self.owners bytes
  let bytes <- reserveAll Attachment.widening self.attachments bytes
  let bytes <- reserveAll Removal.widening self.removals bytes
  failIf (decide (maximumSnapshotBytes < bytes)) .snapshotTooLarge
  pure bytes

/-!
## Restoring
-/

def sameIncarnation (old owner : Owner) : Bool :=
  old.adapterEpoch == owner.adapterEpoch && old.endpointGeneration == owner.endpointGeneration &&
    old.application == owner.application && sameOriginal old.witness owner.witness &&
    old.nativeNonce == owner.nativeNonce

def restoreOwner (owner : Owner) : Result Ledger := do
  validateOwner owner
  failIf (self.lookupOwnerKey owner.key).isSome .nativeOwnerConflict
  failIf (self.owners.any (fun old =>
    old.id == owner.id && old.phase != .retired && owner.phase != .retired))
    .nativeOwnerStillLive
  failIf (self.owners.any (fun old => sameIncarnation old owner)) .nativeOwnerConflict
  pure { self with owners := self.owners ++ [owner] }

def restoreAttachment (row : Attachment) : Result Ledger := do
  validateAttachment row
  let owner <- self.ownerOf row.reference
  failIf (owner.adapterEpoch != row.reference.adapterEpoch ||
    owner.endpointGeneration != row.reference.endpointGeneration ||
    (owner.phase == .retired && row.phase != .retired)) .nativeOwnerMismatch
  failIf (self.lookupAttachment row.reference).isSome .nativeAttachmentConflict
  failIf (self.attachments.any (fun previous =>
    previous.reference.ownerKey == row.reference.ownerKey && previous.threadId == row.threadId &&
    previous.reference.threadInstanceGeneration == row.reference.threadInstanceGeneration &&
    previous.reference.attachmentGeneration == row.reference.attachmentGeneration))
    .nativeGenerationConflict
  failIf (self.attachments.any (fun previous =>
    previous.reference.ownerKey == row.reference.ownerKey &&
    previous.reference.threadInstanceGeneration == row.reference.threadInstanceGeneration &&
    previous.threadId != row.threadId)) .nativeGenerationConflict
  failIf (self.attachments.any (fun previous =>
    previous.reference.ownerKey == row.reference.ownerKey &&
    previous.threadId == row.threadId && previous.phase != .retired &&
    row.phase != .retired)) .nativeAttachmentPending
  pure { self with attachments := self.attachments ++ [row] }

def checkRestoredFence (row : Removal) (owner : Owner) : Result Unit :=
  if !owner.belongs row.application row.adapterEpoch || owner.phase == .retired then
    pure ()
  else do
    let operation <- orFail owner.removalOperation .invalidNativeOwnerSnapshot
    failIf (operation != row.operation || owner.phase == .opened ||
      (row.phase == .retired && owner.phase != .retired)) .invalidNativeOwnerSnapshot

def restoreRemoval (row : Removal) : Result Ledger := do
  validateRemoval row
  failIf (self.applicationRemoval row.application row.adapterEpoch).isSome
    .nativeOwnerConflict
  checkAll (checkRestoredFence row) self.owners
  pure { self with removals := self.removals ++ [row] }

def fromSnapshot (saved : Snapshot) : Result Ledger := do
  failIf (saved.version != 1 || decide (maximumOwners < saved.owners.length) ||
    decide (maximumAttachments < saved.attachments.length) ||
    decide (maximumAttachments - saved.attachments.length < saved.removals.length))
    .invalidNativeOwnerSnapshot
  let ledger <- saved.owners.foldlM restoreOwner init
  let ledger <- saved.attachments.foldlM restoreAttachment ledger
  let ledger <- saved.removals.foldlM restoreRemoval ledger
  let _ <- ledger.reservedSnapshotBytes
  pure ledger

/-!
## Runs
-/

inductive Op where
  | admitOwner (input : Owner)
  | admitAttachment (input : Attachment)
  | completeRegistration (reference : NativeRef) (operation : OperationId)
  | completeRegistrationNoEffect (reference : NativeRef) (operation : OperationId)
  | beginDetach (reference : NativeRef) (operation : OperationId)
  | completeDetach (reference : NativeRef) (operation : OperationId)
  | markUnresolved (reference : NativeRef)
  | recoverAfterRestart
  | beginRemoval (ownerId : OwnerId) (operation : OperationId)
  | beginRemovalForRef (reference : NativeRef) (operation : OperationId)
  | beginRemovalForOwner (key : OwnerKey) (operation : OperationId)
  | beginApplicationRemoval (application : Bytes) (epoch : Nat) (operation : OperationId)
  | completeApplicationRemoval (application : Bytes) (epoch : Nat)
      (operation : OperationId)
  | retireOwner (ownerId : OwnerId) (operation : OperationId)
  | retireOwnerForRef (reference : NativeRef) (operation : OperationId)
  | retireOwnerForOwner (key : OwnerKey) (operation : OperationId)
  | restore

def attempt : Op -> Result Ledger
  | .admitOwner input => self.admitOwner input
  | .admitAttachment input => self.admitAttachment input
  | .completeRegistration reference operation => self.completeRegistration reference operation
  | .completeRegistrationNoEffect reference operation =>
    self.completeRegistrationNoEffect reference operation
  | .beginDetach reference operation => self.beginDetach reference operation
  | .completeDetach reference operation => self.completeDetach reference operation
  | .markUnresolved reference => self.markUnresolved reference
  | .recoverAfterRestart => pure self.recoverAfterRestart
  | .beginRemoval ownerId operation => self.beginRemoval ownerId operation
  | .beginRemovalForRef reference operation => self.beginRemovalForRef reference operation
  | .beginRemovalForOwner key operation => self.beginRemovalForOwner key operation
  | .beginApplicationRemoval application epoch operation =>
    self.beginApplicationRemoval application epoch operation
  | .completeApplicationRemoval application epoch operation =>
    self.completeApplicationRemoval application epoch operation
  | .retireOwner ownerId operation => self.retireOwner ownerId operation
  | .retireOwnerForRef reference operation => self.retireOwnerForRef reference operation
  | .retireOwnerForOwner key operation => self.retireOwnerForOwner key operation
  | .restore => fromSnapshot self.snapshot

def step (op : Op) : Ledger :=
  match self.attempt op with
  | .ok next => next
  | .error _ => self

end Ledger

end Omux.Native
