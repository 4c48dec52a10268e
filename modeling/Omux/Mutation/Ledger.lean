import Omux.Library.Records
import Omux.Library.Run
import Omux.Mutation.Witness

/-!
# The mutation ledger

One record for each operation id, never retired.  `begin` hands out an execution
once; later it answers from the record.
-/

namespace Omux.Mutation

open Library

def maximumSnapshotBytes : Nat := 6 * 1024 * 1024
def maximumRecordMetadataBytes : Nat := 1536
def maximumRecordSnapshotBytes : Nat :=
  maximumRecordMetadataBytes + 2 * 4 + maxResultBytes * 6 + 2
def snapshotOverhead : Nat := 128

/-- Length of the missing measurement `null`. -/
def nullBytes : Nat := 4

inductive Begin where
  | execute (slot : Nat)
  | replay (result : Bytes)
  | indeterminate

structure Snapshot where
  version : Nat := 1
  count : Nat := 0
  capacity : Nat := maxRecords
  records : List Record := []

structure Ledger where
  capacity : Nat
  records : List Record := []
  reservedSnapshotBytes : Nat := snapshotOverhead
  witnessCeiling : Nat
  nativeWitnessCeiling : Nat

/-!
## Validation and reserved bytes
-/

def validId (id : Bytes) : Bool :=
  !id.isEmpty && decide (id.length <= maxIdBytes) && id.all isIdByte

def validMethod (method : Bytes) : Bool :=
  !method.isEmpty && decide (method.length <= maxMethodBytes) &&
    method.all (fun byte => isAlphanumeric byte || byte == 0x5F || byte == 0x2E)

/-- Digits of a number: `fuel` bounds the divisions by ten. -/
def decimalWidthFrom : Nat -> Nat -> Nat
  | 0, _ => 1
  | fuel + 1, remaining => if 10 <= remaining then decimalWidthFrom fuel (remaining / 10) + 1 else 1

/-- No 64-bit number has more than twenty digits. -/
def decimalWidth (value : Nat) : Nat :=
  decimalWidthFrom 19 value

def stringReservation (value : Bytes) : Nat :=
  reservedLength (fun byte => decimalWidth byte.toNat) value

def arrayReservation (value : Bytes) : Nat :=
  stringReservation value

def recordFixedBytes : Nat :=
  (ascii "\x7b\"id\":,\"id_len\":,\"method\":,\"method_len\":,\"fingerprint\":," ++
    ascii "\"expected_revision\":,\"kind\":\"local_atomic\"," ++
    ascii "\"state\":\"indeterminate\",\"result\":,\"result_len\":," ++
    ascii "\"lifecycle_witness_reserved\":false,\"lifecycle_witness\":," ++
    ascii "\"native_removal_witness_reserved\":false," ++
    ascii "\"native_removal_witness\":\x7d").length

def recordMetadata (record : Record) : Nat :=
  recordFixedBytes + arrayReservation record.id + arrayReservation record.method +
    arrayReservation record.fingerprint.toList + decimalWidth record.idLen +
    decimalWidth record.methodLen + 20 + 4

def slotReservation (measured : Measured) (ceiling : Nat) (slot : Slot) : Result Nat :=
  if slot.reserved then .ok ceiling
  else
    match slot.fact with
    | some fact => orFail (countWithin ceiling (fact.json measured)) .snapshotTooLarge
    | none => .ok nullBytes

def resultReservation (record : Record) : Nat :=
  if record.state == .completed then stringReservation record.result
  else maxResultBytes * 6 + 2

def recordReservation (record : Record)
    (witnessCeiling nativeWitnessCeiling : Nat) : Result Nat := do
  let witnessBytes <- slotReservation .lifecycle witnessCeiling
    record.lifecycleWitness
  let nativeBytes <- slotReservation .nativeRemoval nativeWitnessCeiling
    record.nativeRemovalWitness
  .ok (recordMetadata record + witnessBytes + nativeBytes + resultReservation record)

/-!
## The ledger
-/

namespace Ledger

def init (capacity : Nat) : Result Ledger := do
  failIf (capacity == 0 || decide (maxRecords < capacity)) .invalidMutationCapacity
  .ok
    { capacity := capacity
      witnessCeiling := maximumSerializedBytes .lifecycle
      nativeWitnessCeiling := maximumSerializedBytes .nativeRemoval }

variable (l : Ledger)

def ceiling : Measured -> Nat
  | .lifecycle => l.witnessCeiling
  | .nativeRemoval => l.nativeWitnessCeiling

def remainingCapacity : Nat :=
  l.capacity - l.records.length

def remainingSnapshotBytes : Nat :=
  maximumSnapshotBytes - l.reservedSnapshotBytes

def remainingAdmissionCapacity : Nat :=
  min l.remainingCapacity (l.remainingSnapshotBytes / maximumRecordSnapshotBytes)

def reservation (record : Record) : Result Nat :=
  recordReservation record l.witnessCeiling l.nativeWitnessCeiling

def lookup (id : Bytes) : Result (Option Record) := do
  failIf (!validId id) .invalidOperationId
  .ok (recordAt Record.idBytes l.records id)

def padded (length : Nat) (value : Bytes) : Bytes :=
  value ++ List.replicate (length - value.length) 0

def newRecord (id method : Bytes) (fingerprint : Digest) (revision : Nat)
    (kind : Kind) : Record :=
  { id := padded maxIdBytes id, idLen := id.length
    method := padded maxMethodBytes method, methodLen := method.length
    fingerprint, expectedRevision := revision, kind }

def answer (record : Record) : Begin :=
  match record.state with
  | .completed => .replay (record.result.take record.resultLen)
  | .started | .indeterminate => .indeterminate

def sameIntent (record : Record) (method : Bytes) (fingerprint : Digest)
    (revision : Nat) (kind : Kind) : Bool :=
  !(record.methodBytes != method || record.fingerprint != fingerprint ||
    record.expectedRevision != revision || record.kind != kind)

def begin (id method : Bytes) (fingerprint : Digest)
    (expectedRevision : Option Nat) (currentRevision : Nat) (kind : Kind) :
    Result (Ledger × Begin) := do
  failIf (!validId id) .invalidOperationId
  failIf (!validMethod method) .invalidMutationMethod
  let revision <- orFail expectedRevision .expectedRevisionRequired
  match recordAt Record.idBytes l.records id with
  | some record => do
    failIf (!sameIntent record method fingerprint revision kind)
      .operationIdConflict
    .ok (l, answer record)
  | none => do
    failIf (revision != currentRevision) .staleRevision
    let record := newRecord id method fingerprint revision kind
    let bytes <- l.reservation record
    failIf (l.remainingCapacity == 0 || decide (l.remainingSnapshotBytes < bytes))
      .serviceBusy
    .ok ({ l with
      records := l.records ++ [record]
      reservedSnapshotBytes := l.reservedSnapshotBytes + bytes }, .execute l.records.length)

def completedRecord (record : Record) (redactedResult : Bytes) : Record :=
  { record with
    result := redactedResult
    resultLen := redactedResult.length
    state := .completed }

def complete (slot : Nat) (redactedResult : Bytes) : Result Ledger := do
  let record <- orFail l.records[slot]? .unknownOperation
  failIf (decide (maxResultBytes < redactedResult.length)) .resultTooLarge
  failIf (record.state != .started) .operationNotStarted
  .ok { l with
    records := l.records.set slot (completedRecord record redactedResult)
    reservedSnapshotBytes := l.reservedSnapshotBytes -
      (maxResultBytes * 6 + 2 - stringReservation redactedResult) }

def markIndeterminate (slot : Nat) : Result Ledger := do
  let record <- orFail l.records[slot]? .unknownOperation
  failIf (record.state != .started) .operationNotStarted
  .ok { l with
    records := l.records.set slot { record with state := .indeterminate } }

/-!
### Measurements
-/

section Platform

variable (platform : Platform)

variable (l : Ledger)

/-- No room is no error: the flag says whether the bytes are reserved. -/
def tryReserveWitness (measured : Measured) (slot : Nat) : Result (Ledger × Bool) := do
  let record <- orFail l.records[slot]? .unknownOperation
  let _ <- anchorOf platform measured record
  failIf (record.state != .started || (record.slot measured).fact.isSome)
    .operationNotStarted
  if (record.slot measured).reserved then .ok (l, true)
  else
    let additional := l.ceiling measured - nullBytes
    if l.remainingSnapshotBytes < additional then .ok (l, false)
    else
      .ok ({ l with
        records := l.records.set slot
          (record.withSlot measured (record.slot measured).reserve)
        reservedSnapshotBytes := l.reservedSnapshotBytes + additional }, true)

def abandonWitness (measured : Measured) (slot : Nat) : Result Ledger := do
  let record <- orFail l.records[slot]? .unknownOperation
  failIf (record.slot measured).fact.isSome .lifecycleMeasurementAlreadyCaptured
  let before <- l.reservation record
  let next := record.withSlot measured (record.slot measured).release
  let after <- l.reservation next
  .ok { l with
    records := l.records.set slot next
    reservedSnapshotBytes := l.reservedSnapshotBytes - (before - after) }

def setWitnessOnce (measured : Measured) (slot : Nat) (fact : Witness)
    (currentRevision : Nat) : Result Ledger := do
  let record <- orFail l.records[slot]? .unknownOperation
  failIf (record.slot measured).fact.isSome .lifecycleMeasurementAlreadyCaptured
  failIf (!(record.slot measured).reserved) .lifecycleMeasurementNotReserved
  fact.validateForRecord platform measured record currentRevision
  let before <- l.reservation record
  let next := record.withSlot measured { reserved := false, fact := some fact }
  let after <- l.reservation next
  failIf (decide (before < after)) .lifecycleMeasurementReservationExceeded
  .ok { l with
    records := l.records.set slot next
    reservedSnapshotBytes := l.reservedSnapshotBytes - (before - after) }

def tryReserveLifecycleWitness (slot : Nat) : Result (Ledger × Bool) :=
  l.tryReserveWitness platform .lifecycle slot

def abandonLifecycleWitness (slot : Nat) : Result Ledger :=
  l.abandonWitness .lifecycle slot

def setLifecycleWitnessOnce (slot : Nat) (fact : Witness)
    (currentRevision : Nat) : Result Ledger :=
  l.setWitnessOnce platform .lifecycle slot fact currentRevision

def tryReserveNativeRemovalWitness (slot : Nat) : Result (Ledger × Bool) :=
  l.tryReserveWitness platform .nativeRemoval slot

def abandonNativeRemovalWitness (slot : Nat) : Result Ledger :=
  l.abandonWitness .nativeRemoval slot

def setNativeRemovalWitnessOnce (slot : Nat) (fact : Witness)
    (currentRevision : Nat) : Result Ledger :=
  l.setWitnessOnce platform .nativeRemoval slot fact currentRevision

/-!
### Restart
-/

def snapshot : Snapshot :=
  { count := l.records.length, capacity := l.capacity, records := l.records }

def checkReserved (measured : Measured) (record : Record) : Result Unit :=
  if (record.slot measured).reserved then do
    let _ <- anchorOf platform measured record
    failIf (record.slot measured).fact.isSome .invalidMutationSnapshot
  else .ok ()

def checkFact (measured : Measured) (record : Record) (currentRevision : Nat) : Result Unit :=
  match (record.slot measured).fact with
  | some fact => fact.validateForRecord platform measured record currentRevision
  | none => .ok ()

/-- Check one saved record against those before it and add its bytes. -/
def checkRecord (currentRevision : Nat) (previous : List Record)
    (reserved : Nat) (record : Record) : Result Nat := do
  failIf (decide (maxIdBytes < record.idLen) || decide (maxMethodBytes < record.methodLen) ||
    decide (maxResultBytes < record.resultLen) ||
    record.resultLen != record.result.length) .invalidMutationSnapshot
  failIf (!validId record.idBytes || !validMethod record.methodBytes)
    .invalidMutationSnapshot
  failIf (record.state != .completed && record.resultLen != 0)
    .invalidMutationSnapshot
  checkReserved platform .lifecycle record
  checkFact platform .lifecycle record currentRevision
  checkReserved platform .nativeRemoval record
  failIf (record.nativeRemovalWitness.reserved &&
    (record.lifecycleWitness.fact.isSome || record.lifecycleWitness.reserved))
    .invalidMutationSnapshot
  checkFact platform .nativeRemoval record currentRevision
  let bytes <- recordReservation record (maximumSerializedBytes .lifecycle)
    (maximumSerializedBytes .nativeRemoval)
  failIf (decide (maximumSnapshotBytes - reserved < bytes)) .invalidMutationSnapshot
  failIf (previous.any (fun other => other.idBytes == record.idBytes))
    .invalidMutationSnapshot
  .ok (reserved + bytes)

def checkRecords (currentRevision : Nat) : List Record -> Nat -> List Record -> Result Nat
  | _, reserved, [] => .ok reserved
  | previous, reserved, record :: rest => do
    let reserved <- checkRecord platform currentRevision previous reserved record
    checkRecords currentRevision (previous ++ [record]) reserved rest

def fromSnapshotAtRevision (value : Snapshot) (currentRevision : Nat) : Result Ledger := do
  failIf (value.version != 1 || value.capacity == 0 ||
    decide (maxRecords < value.capacity) || decide (value.capacity < value.count) ||
    value.count != value.records.length) .invalidMutationSnapshot
  let reserved <- checkRecords platform currentRevision [] snapshotOverhead
    value.records
  let l <- init value.capacity
  .ok { l with records := value.records, reservedSnapshotBytes := reserved }

def fromSnapshot (value : Snapshot) : Result Ledger := do
  failIf (value.records.any (fun record => record.lifecycleWitness.fact.isSome ||
    record.nativeRemovalWitness.fact.isSome)) .lifecycleRevisionRequired
  fromSnapshotAtRevision platform value 0

def recoverRecord (record : Record) : Record :=
  { record with
    state := if record.state == .started then .indeterminate else record.state
    nativeRemovalWitness := record.nativeRemovalWitness.release
    lifecycleWitness := record.lifecycleWitness.release }

/-- Bytes of the measurements that a restart gives up. -/
def releasedBytes (record : Record) : Nat :=
  (if record.nativeRemovalWitness.reserved then l.nativeWitnessCeiling - nullBytes
    else 0) + (if record.lifecycleWitness.reserved then l.witnessCeiling - nullBytes else 0)

def recoverAfterRestart : Ledger :=
  { l with
    records := l.records.map recoverRecord
    reservedSnapshotBytes :=
      l.reservedSnapshotBytes - (l.records.map l.releasedBytes).sum }

/-!
## Runs
-/

inductive Op where
  | begin (id method : Bytes) (fingerprint : Digest)
      (expectedRevision : Option Nat) (currentRevision : Nat) (kind : Kind)
  | complete (slot : Nat) (redactedResult : Bytes)
  | markIndeterminate (slot : Nat)
  | tryReserveWitness (measured : Measured) (slot : Nat)
  | abandonWitness (measured : Measured) (slot : Nat)
  | setWitnessOnce (measured : Measured) (slot : Nat) (fact : Witness)
      (currentRevision : Nat)
  | restart (currentRevision : Nat)

def restart (currentRevision : Nat) : Result Ledger := do
  let restored <- fromSnapshotAtRevision platform l.snapshot currentRevision
  .ok restored.recoverAfterRestart

def attempt : Op -> Result Ledger
  | .begin id method fingerprint expectedRevision currentRevision kind =>
    (l.begin id method fingerprint expectedRevision currentRevision kind).map
      Prod.fst
  | .complete slot redactedResult => l.complete slot redactedResult
  | .markIndeterminate slot => l.markIndeterminate slot
  | .tryReserveWitness measured slot => (l.tryReserveWitness platform measured slot).map Prod.fst
  | .abandonWitness measured slot => l.abandonWitness measured slot
  | .setWitnessOnce measured slot fact currentRevision =>
    l.setWitnessOnce platform measured slot fact currentRevision
  | .restart currentRevision => l.restart platform currentRevision

/-- A refused operation leaves the ledger as it was. -/
def step (op : Op) : Ledger :=
  match l.attempt platform op with
  | .ok next => next
  | .error _ => l

end Platform

end Ledger

end Omux.Mutation
