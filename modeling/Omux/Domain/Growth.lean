import Omux.Domain.LeaseAccounting
import Omux.Domain.Schema

/-!
# Growth plans

Before an operation that ends outside of the engine, its outcome is planned: how many
bytes the encoded snapshot may gain, and how many records each list.  A plan does not
count on what the operation removes or replaces.
-/

namespace Omux.Domain

open Library List
open Admission (Counts maximumSnapshotBytes)
open Native (NativeRef sameNativeRef)

inductive GrowthError where
  | domain (error : DomainError)
  | snapshotTooLarge | missingOutcomeBound
deriving DecidableEq

abbrev Growing := Except GrowthError

structure OutcomeGrowth where
  bytes : Nat := 0
  accounts : Nat := 0
  grants : Nat := 0
  observations : Nat := 0
  bindings : Nat := 0
  leases : Nat := 0
  tombstones : Nat := 0
  quarantinedImports : Nat := 0
  sourceLinks : Nat := 0

def OutcomeGrowth.counts (self : OutcomeGrowth) : Counts
  | .accounts => self.accounts
  | .grants => self.grants
  | .observations => self.observations
  | .bindings => self.bindings
  | .leases => self.leases
  | .tombstones => self.tombstones
  | .quarantinedImports => self.quarantinedImports
  | .sourceLinks => self.sourceLinks
  | _ => 0

def revisionGrowthBytes : Nat := 20

def recordGrowth (encoded : Bytes) : Growing Nat := do
  let count <- orFail (countWithin maximumSnapshotBytes encoded) .snapshotTooLarge
  .ok (count + 1)

/-!
## The plans
-/

/-- All real tombstones are counted, one for each source of the account. -/
def State.forgetGrowth (s : State) (accountId : Bytes) : Growing OutcomeGrowth := do
  let owner <- orFail (s.account accountId) (.domain .notFound)
  let bytes <- owner.sourceIds.foldlM (fun bytes sourceId => do
    let growth <- recordGrowth (tombstoneShape.json
      { identity := owner.identity, sourceId })
    .ok (bytes + growth)) revisionGrowthBytes
  .ok { bytes, tombstones := owner.sourceIds.length }

def widestNativeRef (ref : NativeRef) : NativeRef :=
  { ref with
    adapterEpoch := maxU64
    endpointGeneration := maxU64
    threadInstanceGeneration := maxU64
    attachmentGeneration := maxU64 }

def Binding.widest (binding : Binding) : Binding :=
  { binding with
    inFlight := maxU32
    grantGeneration := maxU64
    routeGeneration := maxU64
    lastUsedRevision := maxU64
    nativeRef := binding.nativeRef.map widestNativeRef }

def Lease.widest (lease : Lease) : Lease :=
  { lease with
    grantGeneration := maxU64
    routeGeneration := maxU64
    startedAt := minI64
    expiresAt := minI64
    nativeRef := lease.nativeRef.map widestNativeRef }

def acquisitionGrowth (format : FloatFormat) (binding : Binding) (lease : Lease) :
    Growing OutcomeGrowth := do
  (validate binding).mapError .domain
  (validate lease).mapError .domain
  failIf (!sameNativeRef binding.nativeRef lease.nativeRef) (.domain .generationConflict)
  failIf lease.audience.isEmpty .missingOutcomeBound
  let bindingBytes <- recordGrowth (bindingShape.json binding.widest)
  let leaseBytes <- recordGrowth ((leaseShape format).json lease.widest)
  .ok { bytes := bindingBytes + leaseBytes + revisionGrowthBytes
        bindings := 1
        leases := 1 }

/-- The rejection that a report before acceptance may leave. -/
def widestRejection (lease : Lease) (resource : Resource) : Observation where
  accountId := lease.accountId
  resource := resource
  bucketId := []
  remaining := F64.zero
  windowStart := minI64
  windowEnd := minI64
  observedAt := minI64
  expiresAt := minI64
  status := .unavailable
  provenance := .nativeApplication

def reportGrowth (format : FloatFormat) (lease : Lease) : Growing OutcomeGrowth := do
  (validate lease).mapError .domain
  match lease.resource with
  | none => .ok { bytes := revisionGrowthBytes }
  | some resource => do
    let bytes <- recordGrowth ((observationShape format).json (widestRejection lease resource))
    .ok { bytes := bytes + revisionGrowthBytes, observations := 1 }

def Grant.widest (g : Grant) : Grant :=
  { g with
    generation := maxU64
    status := .quarantined
    providerExpiresAt := some minI64
    custodyExpiresAt := some minI64 }

def Job.widest (job : Job) : Job :=
  { job with operationGeneration := maxU64, status := .completed }

def Account.widest (account : Account) : Account :=
  { account with lifecycle := .draining }

def Source.widest (source : Source) : Source :=
  { source with status := .disconnected }

def wideningGrowth (current widest : Bytes) : Growing Nat := do
  let most <- recordGrowth widest
  let now <- recordGrowth current
  .ok (most - now)

def wideningAll {α : Type} (json : α -> Bytes) (widest : α -> α) (bytes : Nat)
    (records : List α) : Growing Nat :=
  records.foldlM (fun bytes record => do
    let growth <- wideningGrowth (json record) (json (widest record))
    .ok (bytes + growth)) bytes

def maintenanceGrowth (saved : Snapshot) : Growing OutcomeGrowth := do
  let bytes <- wideningAll grantShape.json Grant.widest revisionGrowthBytes saved.grants
  let bytes <- wideningAll jobShape.json Job.widest bytes saved.jobs
  let bytes <- wideningAll accountShape.json Account.widest bytes saved.accounts
  let bytes <- wideningAll sourceShape.json Source.widest bytes saved.sources
  .ok { bytes := bytes }

/-!
## What a report before acceptance changes
-/

def cooldown (status : Nat) : Int :=
  if status = 403 then 300 else 60

def rejection (lease : Lease) (resource : Resource) (status : Nat) (timestamp : Int) :
    Observation where
  accountId := lease.accountId
  resource := resource
  bucketId := []
  remaining := F64.zero
  windowStart := timestamp
  windowEnd := timestamp + cooldown status
  observedAt := timestamp
  expiresAt := timestamp + cooldown status
  status := .unavailable
  provenance := .nativeApplication

namespace State

def invalidateLeased (s : State) (lease : Lease) : State :=
  { s with
    grants := s.grants.map (fun g =>
      if g.id == lease.grantId && g.generation == lease.grantGeneration then
        { g with status := .invalid } else g) }

/-- A rejected lease is completed after its grant was marked or its resource observed. -/
def rejectLease (s : State) (lease : Lease) (status : Nat) (timestamp : Int) : Result State := do
  if status = 401 then
    (s.invalidateLeased lease).completeLease lease.id
  else do
    let resource <- orFail lease.resource .invalidRecord
    let observed <- s.observe (rejection lease resource status timestamp)
    observed.completeLease lease.id

end State

/-!
## Growth of a snapshot
-/

/-- Lengths of the lists; links are counted at the account with most of them. -/
def Snapshot.counts (self : Snapshot) : Counts
  | .sources => self.sources.length
  | .accounts => self.accounts.length
  | .grants => self.grants.length
  | .observations => self.observations.length
  | .bindings => self.bindings.length
  | .leases => self.leases.length
  | .tombstones => self.tombstones.length
  | .quarantinedImports => self.quarantinedImports.length
  | .jobs => self.jobs.length
  | .sourceLinks => self.accounts.foldl (fun most account => max most account.sourceIds.length) 0
  | _ => 0

/-- A change that stays within its plan. -/
structure GrowsWithin (format : FloatFormat) (plan : OutcomeGrowth) (s next : State) :
    Prop where
  bytes : (next.snapshot.json format).length <= (s.snapshot.json format).length + plan.bytes
  counts : forall part, next.snapshot.counts part <= s.snapshot.counts part + plan.counts part

def Snapshot.listBytes (format : FloatFormat) (self : Snapshot) : Nat :=
  arrayBytes sourceShape.json self.sources + arrayBytes accountShape.json self.accounts +
    arrayBytes grantShape.json self.grants +
    arrayBytes (observationShape format).json self.observations +
    arrayBytes bindingShape.json self.bindings + arrayBytes (leaseShape format).json self.leases +
    arrayBytes tombstoneShape.json self.tombstones +
    arrayBytes quarantinedImportShape.json self.quarantinedImports +
    arrayBytes jobShape.json self.jobs

theorem length_snapshotJson (format : FloatFormat) (saved : Snapshot) :
    (saved.json format).length = objectOverhead ((snapshotSections format).map Section.name) +
        (decimal saved.schemaVersion).length + (decimal saved.revision).length +
        saved.listBytes format := by
  rw [Snapshot.json, length_jsonObject_names]
  simp only [snapshotSections, map_cons, map_nil, sum_cons, sum_nil, Section.json,
    Snapshot.listBytes, arrayBytes, Shape.ofScalar, u32, u64, Scalar.unsigned]
  omega

end Omux.Domain
