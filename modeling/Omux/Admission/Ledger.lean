import Omux.Library.Records
import Omux.Mutation.Witness

/-!
# The admission ledger

A credit reserves the growth of the snapshot that the outcome of one piece of work
may still need.  It is kept under the key of its work until the outcome is written or
fenced.
-/

namespace Omux.Admission

open Library
open Mutation (Digest)

def maximumSnapshotBytes : Nat := 16 * 1024 * 1024
def maximumCredits : Nat := 4096
def maximumDomainRecords : Nat := 1024
def maximumAccountSources : Nat := 64

inductive AdmissionError where
  | invalidSnapshotCredit | duplicateSnapshotCredit | snapshotCreditConflict | snapshotTooLarge
  | snapshotCardinalityExceeded | unknownSnapshotCredit | snapshotCreditExceeded
  | invalidSnapshotAdmission
deriving DecidableEq

abbrev Result := Except AdmissionError

inductive Kind where
  | mutation | request | importing | observation | rotation
  | nativeRegistration | nativeDetach
deriving DecidableEq

structure Key where
  kind : Kind
  id : Digest
  generation : Nat
deriving DecidableEq

inductive State where
  | reserved | indeterminate
deriving DecidableEq

/-!
## Counted records
-/

inductive CountField where
  | sources | accounts | grants | observations | bindings | leases | tombstones
  | quarantinedImports | jobs | sourceDescriptions | sourceLinks | nativeOwners
  | nativeAuthorityRecords
deriving DecidableEq

def CountField.all : List CountField :=
  [.sources, .accounts, .grants, .observations, .bindings, .leases, .tombstones,
    .quarantinedImports, .jobs, .sourceDescriptions, .sourceLinks, .nativeOwners,
    .nativeAuthorityRecords]

abbrev Counts := CountField -> Nat

def Counts.zero : Counts := fun _ => 0

def Counts.eql (a b : Counts) : Bool :=
  CountField.all.all (fun field => a field == b field)

def countLimit : CountField -> Nat
  | .sourceLinks => maximumAccountSources
  | .nativeOwners => 256
  | .nativeAuthorityRecords => 4096
  | _ => maximumDomainRecords

def addCounts (a b : Counts) : Result Counts := do
  failIf (CountField.all.any (fun field => decide (countLimit field < a field) ||
    decide (countLimit field - a field < b field))) .snapshotCardinalityExceeded
  .ok (fun field => a field + b field)

structure Credit where
  key : Key
  bytes : Nat
  counts : Counts := Counts.zero
  state : State := .reserved

def Credit.debit (credit : Credit) (bytes : Nat) (counts : Counts) : Credit :=
  { credit with
    bytes := credit.bytes - bytes
    counts := fun field => credit.counts field - counts field }

def Credit.unsettle (credit : Credit) : Credit :=
  { credit with state := .indeterminate }

structure Snapshot where
  version : Nat := 1
  credits : List Credit := []

def validateKey (key : Key) : Result Unit :=
  failIf (key.id.toList.all (fun byte => byte == 0)) .invalidSnapshotCredit

def State.json : State -> Bytes
  | .reserved => jsonString (ascii "reserved")
  | .indeterminate => jsonString (ascii "indeterminate")

/-- Bytes that a reserved credit still needs for the label of a restart. -/
def stateGrowth : Nat :=
  State.indeterminate.json.length - State.reserved.json.length

structure Totals where
  bytes : Nat := 0
  metadataGrowth : Nat := 0
  counts : Counts := Counts.zero

def addCredit (sum : Totals) (credit : Credit) : Result Totals := do
  validateKey credit.key
  failIf (decide (maximumSnapshotBytes - sum.bytes < credit.bytes))
    .invalidSnapshotAdmission
  let counts <- addCounts sum.counts credit.counts
  .ok { bytes := sum.bytes + credit.bytes
        metadataGrowth := sum.metadataGrowth +
          (if credit.state == .reserved then stateGrowth else 0)
        counts }

def totals (saved : Snapshot) : Result Totals := do
  failIf (saved.version != 1 || decide (maximumCredits < saved.credits.length))
    .invalidSnapshotAdmission
  saved.credits.foldlM addCredit {}

/-!
## The ledger
-/

structure Ledger where
  credits : List Credit := []
  futureBytes : Nat := 0
  futureCounts : Counts := Counts.zero

namespace Ledger

def init : Ledger := {}

variable (l : Ledger)

def snapshot : Snapshot :=
  { credits := l.credits }

def index (key : Key) : Option (Nat × Credit) :=
  recordEntry Credit.key l.credits key

def lookup (key : Key) : Option Credit :=
  recordAt Credit.key l.credits key

def reserveWithCounts (key : Key) (bytes : Nat) (counts : Counts) : Result Ledger := do
  validateKey key
  failIf (bytes == 0) .invalidSnapshotCredit
  match l.lookup key with
  | some credit =>
    .error (if credit.bytes == bytes && credit.counts.eql counts
      then .duplicateSnapshotCredit else .snapshotCreditConflict)
  | none => do
    failIf (l.credits.length == maximumCredits ||
      decide (maximumSnapshotBytes - l.futureBytes < bytes)) .snapshotTooLarge
    let futureCounts <- addCounts l.futureCounts counts
    .ok { credits := l.credits ++ [{ key := key, bytes, counts }]
          futureBytes := l.futureBytes + bytes
          futureCounts }

def consumeWithCounts (key : Key) (bytes : Nat) (counts : Counts) : Result Ledger := do
  let (i, credit) <- orFail (l.index key) .unknownSnapshotCredit
  failIf (decide (credit.bytes < bytes)) .snapshotCreditExceeded
  failIf (CountField.all.any (fun field =>
    decide (credit.counts field < counts field))) .snapshotCreditExceeded
  .ok { credits := l.credits.set i (credit.debit bytes counts)
        futureBytes := l.futureBytes - bytes
        futureCounts := fun field => l.futureCounts field - counts field }

def release (key : Key) : Result Ledger := do
  let (i, credit) <- orFail (l.index key) .unknownSnapshotCredit
  .ok { credits := l.credits.eraseIdx i
        futureBytes := l.futureBytes - credit.bytes
        futureCounts := fun field => l.futureCounts field - credit.counts field }

def markIndeterminate (key : Key) : Result Ledger := do
  let (i, credit) <- orFail (l.index key) .unknownSnapshotCredit
  .ok { l with credits := l.credits.set i credit.unsettle }

def recoverAfterRestart : Ledger :=
  { l with credits := l.credits.map Credit.unsettle }

def distinctKeys : List Credit -> Bool
  | [] => true
  | credit :: rest => !rest.any (fun other => other.key == credit.key) && distinctKeys rest

def fromSnapshot (saved : Snapshot) : Result Ledger := do
  let future <- totals saved
  failIf (!distinctKeys saved.credits) .invalidSnapshotAdmission
  .ok { credits := saved.credits
        futureBytes := future.bytes
        futureCounts := future.counts }

/-!
## What the operations do to the credits
-/

variable {l next : Ledger} {key : Key}

theorem reserveWithCounts_inv {bytes : Nat} {counts : Counts}
    (h : l.reserveWithCounts key bytes counts = .ok next) : l.lookup key = none ∧ next.credits =
      l.credits ++ [{ key := key, bytes, counts }] := by
  simp only [reserveWithCounts, ok_iff] at h
  rcases h with ⟨_, _, _, _, h⟩
  cases hfound : l.lookup key with
  | some =>
    rw [hfound] at h
    cases h
  | none =>
    simp only [hfound, ok_iff] at h
    rcases h with ⟨_, _, _, _, rfl⟩
    exact ⟨rfl, rfl⟩

theorem consumeWithCounts_inv {bytes : Nat} {counts : Counts}
    (h : l.consumeWithCounts key bytes counts = .ok next) :
    exists i credit, l.index key = some (i, credit) ∧
      next.credits = l.credits.set i (credit.debit bytes counts) := by
  simp only [consumeWithCounts, ok_iff] at h
  rcases h with ⟨⟨i, credit⟩, hindex, _, _, _, _, rfl⟩
  exact ⟨i, credit, hindex, rfl⟩

theorem release_inv (h : l.release key = .ok next) :
    exists i credit, l.index key = some (i, credit) ∧
      next.credits = l.credits.eraseIdx i := by
  simp only [release, ok_iff] at h
  rcases h with ⟨⟨i, credit⟩, hindex, rfl⟩
  exact ⟨i, credit, hindex, rfl⟩

theorem markIndeterminate_inv (h : l.markIndeterminate key = .ok next) :
    exists i credit, l.index key = some (i, credit) ∧
      next.credits = l.credits.set i credit.unsettle := by
  simp only [markIndeterminate, ok_iff] at h
  rcases h with ⟨⟨i, credit⟩, hindex, rfl⟩
  exact ⟨i, credit, hindex, rfl⟩

theorem fromSnapshot_inv {saved : Snapshot} (h : fromSnapshot saved = .ok next) :
    next.credits = saved.credits := by
  simp only [fromSnapshot, ok_iff] at h
  rcases h with ⟨_, _, _, _, hnext⟩
  rw [<- hnext]

end Ledger
end Omux.Admission
