import Mathlib.Data.List.ModifyLast
import Omux.Library.Records
import Omux.Library.Run
import Omux.Native.Reference

/-!
# Native request fences

One record for each piece of native work, with a first attempt and at most one alternate,
which is issued only after a safe rejection of the first.
-/

namespace Omux.Request

open Library
open Native (NativeRef sameNativeRef)

def maximumCapacity : Nat := 4096
def maximumSnapshotBytes : Nat := 4 * 1024 * 1024
def snapshotOverhead : Nat := 32
def recordOverhead : Nat := 256
def attemptOverhead : Nat := 512
def maximumAccountJsonBytes : Nat := 4096 * 6 + 2

def maximumSequence : Nat := 2 ^ 64 - 1

inductive RequestError where
  | invalidRequestId | invalidRequestAuthority | invalidNativeRef | nativeOwnerMismatch
  | requestMismatch | attemptBudgetExhausted | requestLedgerFull | snapshotTooLarge | overflow
  | duplicateLease | rejectedAccount | unknownLease | reportMismatch | invalidTransition
  | unsafeReplay | invalidRequestSnapshot | duplicateRequest | unreachable
deriving DecidableEq

abbrev Result := Except RequestError

structure Key where
  application : Bytes
  sessionId : Bytes
  requestId : Bytes
deriving DecidableEq

structure Intent where
  key : Key
  bindingId : Bytes
  demandFingerprint : Bytes
  nativeRef : Option NativeRef := none
deriving DecidableEq

inductive Event where
  | accepted | completed | rejected | abandoned
deriving DecidableEq

inductive Status where
  | issued | accepted | completed | rejected | abandoned | unknown
deriving DecidableEq

structure Report where
  event : Event
  preAcceptance : Bool := false
  responseStarted : Bool := true
  status : Nat := 0
deriving DecidableEq

structure Attempt where
  leaseHandle : Bytes
  accountId : Bytes
  expiresAt : Int
  issuedSequence : Nat := 0
  state : Status := .issued
  acceptedReport : Option Report := none
  terminalReport : Option Report := none
deriving DecidableEq

structure Record where
  intent : Intent
  first : Attempt
  alternate : Option Attempt := none
deriving DecidableEq

structure Snapshot where
  records : List Record := []

structure Ledger where
  capacity : Nat
  records : List Record := []
  lastSequence : Nat := 0
  reservedSnapshotBytes : Nat := snapshotOverhead
deriving DecidableEq

/-!
## Validation
-/

def validateRequestId (value : Bytes) : Result Unit := do
  failIf (value.isEmpty || decide (64 < value.length)) .invalidRequestId
  failIf (!value.all (fun byte =>
    isAlphanumeric byte || byte == 0x2D || byte == 0x5F)) .invalidRequestId

def validDescriptor (value : Bytes) : Bool :=
  !value.isEmpty && decide (value.length <= 4096) &&
    value.all (fun byte => !(decide (byte < 0x20) || byte == 0x7F))

def validateIntent (intent : Intent) : Result Unit := do
  match intent.nativeRef with
  | some ref => ref.validate .invalidNativeRef
  | none => .ok ()
  validateRequestId intent.key.requestId
  failIf (!validDescriptor intent.key.application) .invalidRequestAuthority
  failIf (!validDescriptor intent.key.sessionId) .invalidRequestAuthority
  failIf (!validDescriptor intent.bindingId) .invalidRequestAuthority
  failIf (intent.demandFingerprint.length != 64) .invalidRequestAuthority
  failIf (!intent.demandFingerprint.all isHex) .invalidRequestAuthority

/-!
## Reserved snapshot bytes
-/

def decimalWidth (byte : UInt8) : Nat :=
  if 100 <= byte then 3 else if 10 <= byte then 2 else 1

def stringReservation (value : Bytes) : Nat :=
  reservedLength decimalWidth value

def intentReservation (intent : Intent) : Result Nat := do
  let nativeBytes <- orFail
    (countWithin maximumSnapshotBytes (jsonOption NativeRef.json intent.nativeRef))
    .snapshotTooLarge
  .ok (recordOverhead + stringReservation intent.key.application +
    stringReservation intent.key.sessionId + stringReservation intent.key.requestId +
    stringReservation intent.bindingId + stringReservation intent.demandFingerprint + nativeBytes)

/-!
## Reports
-/

def safeRejection (value : Report) : Bool :=
  value.event == .rejected && value.preAcceptance && !value.responseStarted &&
    (value.status == 401 || value.status == 403 || value.status == 429)

/-- The transition of an attempt for a report that it has not seen. -/
def transition (attempt : Attempt) (evidence : Report) : Result Attempt :=
  match evidence.event with
  | .accepted => do
    failIf (attempt.state != .issued) .invalidTransition
    .ok { attempt with acceptedReport := some evidence, state := .accepted }
  | .completed => do
    failIf (attempt.state != .accepted &&
      !(attempt.state == .unknown && attempt.acceptedReport.isSome))
      .invalidTransition
    .ok { attempt with terminalReport := some evidence, state := .completed }
  | .abandoned => do
    failIf (attempt.state != .issued && attempt.state != .accepted &&
      attempt.state != .unknown) .invalidTransition
    .ok { attempt with terminalReport := some evidence, state := .abandoned }
  | .rejected => do
    failIf (attempt.state != .issued || !safeRejection evidence) .unsafeReplay
    .ok { attempt with terminalReport := some evidence, state := .rejected }

/-- The acknowledgment that an attempt holds for an event. -/
def heldReport (attempt : Attempt) (event : Event) : Option Report :=
  if event == .accepted then attempt.acceptedReport else attempt.terminalReport

/-- A duplicate is acknowledged and changes nothing. -/
def applyReport (attempt : Attempt) (evidence : Report) : Result (Attempt × Bool) :=
  match heldReport attempt evidence.event with
  | some held => if held == evidence then .ok (attempt, false) else .error .reportMismatch
  | none => do
    let next <- transition attempt evidence
    .ok (next, true)

def recoverAttempt (attempt : Attempt) : Attempt :=
  if attempt.state == .issued || attempt.state == .accepted then
    { attempt with state := .unknown }
  else attempt

def reportsMatchState (value : Attempt) : Bool :=
  match value.state with
  | .issued => value.acceptedReport.isNone && value.terminalReport.isNone
  | .accepted => value.acceptedReport.isSome && value.terminalReport.isNone
  | .completed => value.acceptedReport.isSome &&
      value.terminalReport.any (fun report => report.event == .completed)
  | .rejected => value.acceptedReport.isNone &&
      value.terminalReport.any (fun report => report.event == .rejected)
  | .abandoned => value.terminalReport.any (fun report => report.event == .abandoned)
  | .unknown => value.terminalReport.isNone

def validateAttempt (value : Attempt) : Result Unit := do
  failIf (value.acceptedReport.any (fun report => report.event != .accepted))
    .invalidRequestSnapshot
  failIf (value.terminalReport.any (fun report =>
    report.event == .accepted || (report.event == .rejected && !safeRejection report)))
    .invalidRequestSnapshot
  failIf (!reportsMatchState value) .invalidRequestSnapshot

/-!
## The ledger
-/

namespace Record

def key (item : Record) : Key := item.intent.key

def attempts (item : Record) : List Attempt :=
  item.first :: item.alternate.toList

def handles (item : Record) : List Bytes :=
  item.attempts.map Attempt.leaseHandle

def sequences (item : Record) : List Nat :=
  item.attempts.map Attempt.issuedSequence

def usesHandle (handle : Bytes) (item : Record) : Bool :=
  item.handles.contains handle

end Record

namespace Ledger

def init (capacity : Nat) : Ledger :=
  { capacity := min capacity maximumCapacity }

variable (l : Ledger)

def snapshot : Snapshot :=
  { records := l.records }

def remainingSnapshotBytes : Nat :=
  maximumSnapshotBytes - l.reservedSnapshotBytes

def record (key : Key) : Option Record :=
  recordAt Record.key l.records key

/-- Which attempt the intent may issue: the first or the alternate. -/
def checkIntent (intent : Intent) : Result Nat := do
  validateIntent intent
  match l.record intent.key with
  | some held =>
    failIf (!sameNativeRef held.intent.nativeRef intent.nativeRef)
      .nativeOwnerMismatch
    failIf (held.intent.bindingId != intent.bindingId ||
      held.intent.demandFingerprint != intent.demandFingerprint)
      .requestMismatch
    failIf (held.alternate.isSome || held.first.state != .rejected)
      .attemptBudgetExhausted
    .ok 2
  | none =>
    failIf (decide (l.capacity <= l.records.length)) .requestLedgerFull
    .ok 1

/-- Bytes that one more attempt reserves. -/
def additionalBytes (intent : Intent) (number accountBytes : Nat) : Result Nat := do
  let intentBytes <- if number == 1 then intentReservation intent else .ok 0
  .ok (attemptOverhead + accountBytes + intentBytes)

def checkReservation (intent : Intent) (number accountBytes : Nat) : Result Unit := do
  let additional <- additionalBytes intent number accountBytes
  failIf (decide (l.remainingSnapshotBytes < additional)) .requestLedgerFull

def checkIssue (intent : Intent) : Result Nat := do
  let number <- l.checkIntent intent
  l.checkReservation intent number maximumAccountJsonBytes
  .ok number

def issue (intent : Intent) (leaseHandle accountId : Bytes)
    (expiresAt : Int) : Result (Ledger × Nat) := do
  let number <- l.checkIntent intent
  failIf (l.lastSequence == maximumSequence) .overflow
  let sequence := l.lastSequence + 1
  failIf (leaseHandle.length != 64 || accountId.isEmpty ||
    decide (4096 < accountId.length)) .invalidRequestAuthority
  failIf (!leaseHandle.all isHex) .invalidRequestAuthority
  let accountBytes := stringReservation accountId
  l.checkReservation intent number accountBytes
  let additional <- additionalBytes intent number accountBytes
  failIf (l.records.any (Record.usesHandle leaseHandle)) .duplicateLease
  let attempt : Attempt :=
    { leaseHandle, accountId, expiresAt,
      issuedSequence := sequence }
  if number == 2 then do
    let (i, item) <- orFail (recordEntry Record.key l.records intent.key)
      .unreachable
    failIf (item.first.accountId == accountId) .rejectedAccount
    .ok ({ l with
      records := l.records.set i { item with alternate := some attempt }
      lastSequence := sequence
      reservedSnapshotBytes := l.reservedSnapshotBytes + additional }, number)
  else
    .ok ({ l with
      records := l.records ++ [{ intent, first := attempt }]
      lastSequence := sequence
      reservedSnapshotBytes := l.reservedSnapshotBytes + additional }, number)

/-!
### Reporting
-/

def reportRecord (item : Record) (leaseHandle : Bytes) (evidence : Report) :
    Result (Record × Bool) :=
  if item.first.leaseHandle == leaseHandle then do
    let (first, fresh) <- applyReport item.first evidence
    .ok ({ item with first }, fresh)
  else
    match item.alternate with
    | none => .error .unknownLease
    | some alternate => do
      let (next, fresh) <- applyReport alternate evidence
      .ok ({ item with alternate := some next }, fresh)

def applyReportForHandle (leaseHandle : Bytes) (evidence : Report) : Result (Ledger × Bool) := do
  let (i, item) <- orFail (firstEntry (Record.usesHandle leaseHandle) l.records)
    .unknownLease
  let (next, fresh) <- reportRecord item leaseHandle evidence
  .ok ({ l with records := l.records.set i next }, fresh)

def report (leaseHandle : Bytes) (evidence : Report) : Result (Ledger × Bool) := do
  failIf (l.records.any (fun item =>
    item.usesHandle leaseHandle && item.intent.nativeRef.isSome))
    .nativeOwnerMismatch
  l.applyReportForHandle leaseHandle evidence

def intentForHandle (application leaseHandle : Bytes) : Option Intent :=
  (l.records.find? (fun item =>
    item.intent.key.application == application && item.usesHandle leaseHandle)).map
      Record.intent

def checkOwner (application leaseHandle : Bytes) (ref : NativeRef) : Result Unit := do
  ref.validate .invalidNativeRef
  let intent <- orFail (l.intentForHandle application leaseHandle) .unknownLease
  let original <- orFail intent.nativeRef .nativeOwnerMismatch
  failIf (original != ref) .nativeOwnerMismatch

def reportForOwner (application leaseHandle : Bytes)
    (ref : NativeRef) (evidence : Report) : Result (Ledger × Bool) := do
  l.checkOwner application leaseHandle ref
  l.applyReportForHandle leaseHandle evidence

/-!
### Read-only queries
-/

def attemptForHandle (application leaseHandle : Bytes) : Option Attempt :=
  l.records.findSome? (fun item =>
    if item.intent.key.application == application then
      item.attempts.find? (fun attempt => attempt.leaseHandle == leaseHandle)
    else none)

/-- Whether the report would change the attempt. -/
def checkHeld (application leaseHandle : Bytes) (evidence : Report) : Result Bool := do
  let held <- orFail (l.attemptForHandle application leaseHandle) .unknownLease
  let (_, fresh) <- applyReport held evidence
  .ok fresh

def checkReport (application leaseHandle : Bytes) (evidence : Report) : Result Bool := do
  let intent <- orFail (l.intentForHandle application leaseHandle) .unknownLease
  failIf intent.nativeRef.isSome .nativeOwnerMismatch
  l.checkHeld application leaseHandle evidence

def checkReportForOwner (application leaseHandle : Bytes)
    (ref : NativeRef) (evidence : Report) : Result Bool := do
  l.checkOwner application leaseHandle ref
  l.checkHeld application leaseHandle evidence

/-- The account of a first attempt that the next attempt must avoid. -/
def rejectedAccount (intent : Intent) : Result (Option Bytes) := do
  let _ <- l.checkIssue intent
  .ok ((l.record intent.key).map (fun held => held.first.accountId))

def laterAttempt (latest : Option Attempt) (attempt : Attempt) : Option Attempt :=
  match latest with
  | none => some attempt
  | some held => if held.issuedSequence < attempt.issuedSequence then some attempt else latest

def latestHandleForBinding (application bindingId : Bytes) : Option Bytes :=
  (l.records.foldl (fun latest item =>
    if item.intent.key.application == application && item.intent.bindingId == bindingId then
      item.attempts.foldl laterAttempt latest
    else latest) none).map Attempt.leaseHandle

/-!
### Restart
-/

def recoverRecord (item : Record) : Record :=
  { item with
    first := recoverAttempt item.first
    alternate := item.alternate.map recoverAttempt }

def recoverAfterRestart : Ledger :=
  { l with records := l.records.map recoverRecord }

def validateSequence (previous : List Record) (item : Record) (sequence : Nat)
    (isAlternate : Bool) : Result Unit := do
  failIf (sequence == 0) .invalidRequestSnapshot
  failIf (previous.any (fun other => other.sequences.contains sequence))
    .invalidRequestSnapshot
  failIf (isAlternate && item.first.issuedSequence == sequence)
    .invalidRequestSnapshot

def scanSequences : List Record -> List Record -> Nat -> Result Nat
  | _, [], maximum => .ok maximum
  | previous, item :: rest, maximum => do
    validateSequence previous item item.first.issuedSequence false
    let maximum := max maximum item.first.issuedSequence
    match item.alternate with
    | none => scanSequences (previous ++ [item]) rest maximum
    | some alternate => do
      validateSequence previous item alternate.issuedSequence true
      failIf (decide (alternate.issuedSequence <= item.first.issuedSequence))
        .invalidRequestSnapshot
      scanSequences (previous ++ [item]) rest
        (max maximum alternate.issuedSequence)

def restoreAttempt (saved target : Attempt) : Attempt :=
  { target with
    state := saved.state
    issuedSequence := saved.issuedSequence
    acceptedReport := saved.acceptedReport
    terminalReport := saved.terminalReport }

def updateLast (f : Record -> Record) : Ledger :=
  { l with records := l.records.modifyLast f }

def restoreFirst (item : Record) : Result Ledger := do
  failIf (l.record item.intent.key).isSome .duplicateRequest
  let (l, _) <- l.issue item.intent item.first.leaseHandle item.first.accountId
    item.first.expiresAt
  validateAttempt item.first
  .ok (l.updateLast (fun target =>
    { target with first := restoreAttempt item.first target.first }))

/-- `issue` checks the immutable intent and the rejected first attempt again. -/
def restoreAlternate (intent : Intent) (alternate : Attempt) : Result Ledger := do
  let (l, _) <- l.issue intent alternate.leaseHandle alternate.accountId
    alternate.expiresAt
  validateAttempt alternate
  .ok (l.updateLast (fun target =>
    { target with
      alternate := target.alternate.map (restoreAttempt alternate) }))

def restoreRecord (item : Record) : Result Ledger := do
  let l <- l.restoreFirst item
  match item.alternate with
  | none => .ok l
  | some alternate => l.restoreAlternate item.intent alternate

def fromSnapshot (capacity : Nat) (saved : Snapshot) : Result Ledger := do
  let empty := init capacity
  failIf (decide (empty.capacity < saved.records.length)) .requestLedgerFull
  let maximum <- scanSequences [] saved.records 0
  let l <- saved.records.foldlM restoreRecord empty
  .ok { l with lastSequence := maximum }

/-!
## Runs
-/

inductive Op where
  | issue (intent : Intent) (leaseHandle accountId : Bytes) (expiresAt : Int)
  | report (leaseHandle : Bytes) (evidence : Report)
  | reportForOwner (application leaseHandle : Bytes) (ref : NativeRef)
      (evidence : Report)
  | recoverAfterRestart
  | restore (capacity : Nat)

def attempt : Op -> Result Ledger
  | .issue intent leaseHandle accountId expiresAt =>
    (l.issue intent leaseHandle accountId expiresAt).map Prod.fst
  | .report leaseHandle evidence => (l.report leaseHandle evidence).map Prod.fst
  | .reportForOwner application leaseHandle ref evidence =>
    (l.reportForOwner application leaseHandle ref evidence).map Prod.fst
  | .recoverAfterRestart => .ok l.recoverAfterRestart
  | .restore capacity => fromSnapshot capacity l.snapshot

def step (op : Op) : Ledger :=
  match l.attempt op with
  | .ok next => next
  | .error _ => l

def Reachable : Prop :=
  exists capacity, Library.Reachable step (init capacity) l

end Ledger

end Omux.Request
