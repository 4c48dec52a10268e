import Omux.Domain.Operations

/-!
# Restoring a snapshot

`fromSnapshot` rebuilds the state table by table, through the public operations or with
the checks that they made when the records were written.
-/

namespace Omux.Domain

open Library

namespace State

variable (s : State)

def restoreSource (source : Source) : Result State := do
  failIf (s.sourceEntry source.id).isSome .duplicateId
  let (next, _) <- s.connectSource source
  .ok next

/-- The sources of an account exist, agree on the provider and do not repeat. -/
def checkSourceLinks (s : State) (identity : Identity) : List Bytes -> List Bytes -> Result Unit
  | _, [] => .ok ()
  | seen, sourceId :: rest => do
    let source <- orFail (s.source sourceId) .notFound
    failIf (!providerAgrees source identity) .invalidRecord
    failIf (seen.contains sourceId) .duplicateId
    checkSourceLinks s identity (seen ++ [sourceId]) rest

def restoreAccount (owner : Account) : Result State := do
  validate owner
  requireId owner.id
  requireIdentity owner.identity
  failIf (!owner.identity.verified || owner.sourceIds.isEmpty) .invalidRecord
  failIf (s.accountEntry owner.id).isSome .duplicateId
  failIf (s.accounts.any (fun other =>
    sameIdentity other.identity owner.identity)) .duplicateId
  s.checkSourceLinks owner.identity [] owner.sourceIds
  let accounts <- appendOwned s.accounts owner
  .ok { s with accounts }

def restoreGrant (g : Grant) : Result State := do
  failIf (s.grantEntry g.id).isSome .duplicateId
  let (next, _) <- s.addGrant g
  .ok next

def bindingMatches (g : Grant) (b : Binding) : Bool :=
  g.accountId == b.accountId && b.grantGeneration != 0 &&
    decide (b.grantGeneration <= g.generation) && b.routeGeneration != 0

/-- Bindings come back idle; the leases count them up again. -/
def restoreBinding (b : Binding) : Result State := do
  validate b
  validate b.nativeRef
  requireId b.id
  requireId b.application
  requireId b.sessionId
  failIf (s.bindingEntry b.id).isSome .duplicateId
  let g <- orFail (s.grant b.grantId) .notFound
  failIf (!bindingMatches g b) .invalidRecord
  let bindings <- appendOwned s.bindings { b with inFlight := 0 }
  .ok { s with bindings }

def restoreLease (lease : Lease) : Result State := do
  validate lease
  validate lease.nativeRef
  requireId lease.id
  failIf (!leaseInterval lease) .invalidRecord
  failIf (s.leases.any (fun existing => existing.id == lease.id)) .duplicateId
  let (bi, b) <- orFail (s.bindingEntry lease.bindingId) .notFound
  failIf (!leaseFollows b lease) .invalidRecord
  let g <- orFail (s.grant lease.grantId) .notFound
  validateLeaseAuthority lease g
  let leases <- appendOwned s.leases lease
  .ok { s with
    leases := leases
    bindings := s.bindings.set bi { b with inFlight := b.inFlight + 1 } }

def checkInFlight (b : Binding) : Result Unit := do
  let actual <- orFail (s.binding b.id) .invalidRecord
  failIf (actual.inFlight != b.inFlight) .invalidRecord

def restoreTombstone (tombstone : Tombstone) : Result State := do
  requireIdentity tombstone.identity
  requireId tombstone.sourceId
  failIf (!tombstone.identity.verified) .invalidRecord
  failIf (s.sourceEntry tombstone.sourceId).isNone .notFound
  failIf (s.tombstones.any (fun existing =>
    sameIdentity existing.identity tombstone.identity &&
      existing.sourceId == tombstone.sourceId)) .duplicateId
  failIf (s.accounts.any (fun owner =>
    sameIdentity owner.identity tombstone.identity)) .invalidRecord
  let tombstones <- appendOwned s.tombstones tombstone
  .ok { s with tombstones }

def reasonConflicts (candidate : QuarantinedImport) : Bool :=
  match candidate.reason with
  | .unverifiedIdentity => candidate.identity.verified
  | .conflictingIdentity => !candidate.identity.verified

def restoreQuarantined (candidate : QuarantinedImport) : Result State := do
  requireId candidate.sourceId
  requireId candidate.candidateId
  requireIdentity candidate.identity
  failIf (reasonConflicts candidate) .invalidRecord
  failIf (s.sourceEntry candidate.sourceId).isNone .notFound
  let imports <- appendOwned s.quarantinedImports candidate
  .ok { s with quarantinedImports := imports }

def restoreJob (job : Job) : Result State := do
  let (next, _) <- s.putJob job
  .ok next

def fromSnapshot (value : Snapshot) : Result State := do
  failIf (value.schemaVersion != Domain.schemaVersion) .unsupportedSchema
  let s <- value.sources.foldlM restoreSource State.init
  let s <- value.accounts.foldlM restoreAccount s
  let s <- value.grants.foldlM restoreGrant s
  let s <- value.observations.foldlM observe s
  let s <- value.bindings.foldlM restoreBinding s
  let s <- value.leases.foldlM restoreLease s
  checkAll s.checkInFlight value.bindings
  let s <- value.tombstones.foldlM restoreTombstone s
  let s <- value.quarantinedImports.foldlM restoreQuarantined s
  let s <- value.jobs.foldlM restoreJob s
  .ok { s with revision := value.revision }

end State

end Omux.Domain
