import Omux.Domain.Routing

/-!
# State mutations

Each mutation returns the next state or an error.  A refused mutation has no
next state, so the caller keeps the one it had.
-/

namespace Omux.Domain

open Library
open Native (NativeRef sameNativeRef)

namespace State

/-!
## Sources
-/

/-- An authorization that ends must end after it begins. -/
def validAuthorization (source : Source) : Bool :=
  match source.authorizedUntil with
  | some expires => decide (source.authorizedAt < expires)
  | none => true

variable (s : State)

/-- A reconnect may name a provider only where every owner already agrees. -/
def reconnectConflicts (previous source : Source) : Bool :=
  previous.kind != source.kind || (!previous.provider.isEmpty && !source.provider.isEmpty &&
      previous.provider != source.provider) || s.accounts.any (fun owner =>
      owner.sourceIds.contains source.id && !source.provider.isEmpty &&
        owner.identity.provider != source.provider)

def reconnected (previous source : Source) : Source :=
  { source with
    provider := if source.provider.isEmpty then previous.provider
      else source.provider }

def connectSource (source : Source) : Result (State × Source) := do
  requireId source.id
  failIf (!validAuthorization source) .invalidRecord
  match s.sourceEntry source.id with
  | some (i, previous) =>
    failIf (s.reconnectConflicts previous source) .invalidRecord
    let updated := reconnected previous source
    let sources <- replaceOwned s.sources i updated
    .ok ({ s with sources }.changed, updated)
  | none =>
    let sources <- appendOwned s.sources source
    .ok ({ s with sources }.changed, source)

def detachSource (id : Bytes) : Result State := do
  let (i, source) <- orFail (s.sourceEntry id) .notFound
  .ok { s with
    sources := s.sources.set i { source with status := .detached } }.changed

/-- Explicit disconnection also invalidates the grants of the source. -/
def invalidateGrant (id : Bytes) (g : Grant) : Grant :=
  if g.sourceId == id then { g with status := .invalid } else g

def disconnectSource (id : Bytes) : Result State := do
  let (i, source) <- orFail (s.sourceEntry id) .notFound
  .ok { s with
    sources := s.sources.set i { source with status := .disconnected }
    grants := s.grants.map (invalidateGrant id) }.changed

def sourceAuthorized (source : Source) (now : Int) : Bool :=
  source.status == .connected && decide (source.authorizedAt <= now) &&
    unexpired source.authorizedUntil now

def providerAgrees (source : Source) (identity : Identity) : Bool :=
  source.provider.isEmpty || source.provider == identity.provider

/-!
## Enrollment
-/

def quarantine (input : Enrollment) (reason : QuarantineReason) : Result State :=
  if s.quarantinedImports.any (fun candidate =>
      candidate.sourceId == input.sourceId && candidate.candidateId == input.accountId &&
        sameIdentity candidate.identity input.identity) then
    .ok s
  else do
    let imports <- appendOwned s.quarantinedImports
      { sourceId := input.sourceId, candidateId := input.accountId,
        identity := input.identity, reason }
    .ok { s with quarantinedImports := imports }.changed

/-- The id is taken by an account with another identity. -/
def idConflicts (input : Enrollment) : Bool :=
  match s.account input.accountId with
  | some holder => !sameIdentity holder.identity input.identity
  | none => false

def enrolledAccount (input : Enrollment) : Account :=
  { id := input.accountId, identity := input.identity, label := input.label,
    accountType := input.accountType, sourceIds := [input.sourceId] }

/-- Admit a verified identity that is neither tombstoned nor in conflict. -/
def admitIdentity (input : Enrollment) : Result (State × EnrollmentResult) :=
  match firstEntry (fun existing : Account =>
      sameIdentity existing.identity input.identity) s.accounts with
  | some (i, existing) =>
    if existing.sourceIds.contains input.sourceId then
      .ok (s, { status := .existing, accountId := some existing.id })
    else do
      failIf (decide (maxListItems <= existing.sourceIds.length)) .tooManyRecords
      .ok ({ s with
        accounts := s.accounts.set i
          { existing with sourceIds := existing.sourceIds ++ [input.sourceId] }
        }.changed, { status := .existing, accountId := some existing.id })
  | none => do
    let accounts <- appendOwned s.accounts (enrolledAccount input)
    .ok ({ s with accounts }.changed,
      { status := .enrolled, accountId := some input.accountId })

def enroll (input : Enrollment) (now : Int) : Result (State × EnrollmentResult) := do
  validate input
  requireId input.accountId
  requireIdentity input.identity
  let source <- orFail (s.source input.sourceId) .notFound
  failIf (!sourceAuthorized source now) .sourceUnauthorized
  failIf (!providerAgrees source input.identity) .sourceUnauthorized
  if s.tombstones.any (fun tombstone =>
      sameIdentity tombstone.identity input.identity) then
    .ok (s, { status := .tombstoned })
  else if !input.identity.verified then do
    let next <- s.quarantine input .unverifiedIdentity
    .ok (next, { status := .quarantined })
  else if s.idConflicts input then do
    let next <- s.quarantine input .conflictingIdentity
    .ok (next, { status := .quarantined })
  else
    s.admitIdentity input

/-!
## Grants
-/

def addGrant (input : Grant) : Result (State × Grant) := do
  validateGrant input
  let owner <- orFail (s.account input.accountId) .notFound
  failIf (!owner.sourceIds.contains input.sourceId) .sourceUnauthorized
  failIf (s.sourceEntry input.sourceId).isNone .notFound
  match s.grantEntry input.id with
  | some (i, previous) =>
    failIf (previous.accountId != input.accountId ||
      previous.sourceId != input.sourceId) .duplicateId
    failIf (!sameGrantAuthority previous input) .invalidRecord
    failIf (previous.generation == maxU64 ||
      input.generation != previous.generation + 1) .generationConflict
    let grants <- replaceOwned s.grants i input
    .ok ({ s with grants }.changed, input)
  | none =>
    let grants <- appendOwned s.grants input
    .ok ({ s with grants }.changed, input)

/-- Compare-and-swap; only grants that Omux owns may rotate themselves. -/
def reconcile (input : Reconciliation) : Result State := do
  let (i, g) <- orFail (s.grantEntry input.grantId) .notFound
  failIf (g.generation != input.expectedGeneration || input.expectedGeneration == maxU64 ||
    input.nextGeneration != input.expectedGeneration + 1) .generationConflict
  failIf (input.status == .refreshing && g.ownership != .omux) .ownershipRequired
  .ok { s with
    grants := s.grants.set i { g with
      generation := input.nextGeneration
      status := input.status
      providerExpiresAt := input.providerExpiresAt
      custodyExpiresAt := input.custodyExpiresAt } }.changed

/-!
## Bindings
-/

def routeChanged (previous input : Binding) : Bool :=
  previous.grantId != input.grantId || previous.grantGeneration != input.grantGeneration

def expectedRoute (previous input : Binding) : Nat :=
  previous.routeGeneration + (if routeChanged previous input then 1 else 0)

def bind (input : Binding) : Result (State × Binding) := do
  validate input
  validate input.nativeRef
  requireId input.id
  requireId input.application
  requireId input.sessionId
  failIf (input.inFlight != 0 || input.routeGeneration == 0) .invalidRecord
  let g <- orFail (s.grant input.grantId) .notFound
  failIf (g.accountId != input.accountId ||
    g.generation != input.grantGeneration) .generationConflict
  match s.bindingEntry input.id with
  | some (i, previous) =>
    failIf (previous.application != input.application ||
      previous.sessionId != input.sessionId) .duplicateId
    failIf (!sameNativeRef previous.nativeRef input.nativeRef)
      .generationConflict
    failIf (previous.inFlight != 0) .inFlight
    failIf (decide (maxU64 < expectedRoute previous input) ||
      input.routeGeneration != expectedRoute previous input)
      .generationConflict
    let bindings <- replaceOwned s.bindings i input
    .ok ({ s with bindings }.changed, input)
  | none =>
    let bindings <- appendOwned s.bindings input
    .ok ({ s with bindings }.changed, input)

def releaseBindingIndex (i : Nat) (b : Binding) : Result State := do
  failIf (b.inFlight != 0) .inFlight
  .ok { s with bindings := s.bindings.eraseIdx i }.changed

def releaseBinding (id : Bytes) : Result State := do
  let (i, b) <- orFail (s.bindingEntry id) .notFound
  failIf b.nativeRef.isSome .nativeOwnerRequired
  s.releaseBindingIndex i b

def releaseBindingExact (id : Bytes) (ref : NativeRef) : Result State := do
  validate ref
  let (i, b) <- orFail (s.bindingEntry id) .notFound
  let retained <- orFail b.nativeRef .nativeOwnerRequired
  failIf (retained != ref) .generationConflict
  s.releaseBindingIndex i b

/-!
## Leases
-/

def leaseInterval (lease : Lease) : Bool :=
  decide (lease.startedAt < lease.expiresAt) && decide (lease.expiresAt - lease.startedAt <= 3600)

/-- The lease repeats the route of its binding. -/
def leaseFollows (b : Binding) (lease : Lease) : Bool :=
  sameNativeRef b.nativeRef lease.nativeRef && b.accountId == lease.accountId &&
    b.grantId == lease.grantId && b.grantGeneration == lease.grantGeneration &&
    b.routeGeneration == lease.routeGeneration

def leaseSourceAdmits (g : Grant) (source : Source) (input : Lease) (now : Int) : Bool :=
  source.status != .disconnected && decide (source.authorizedAt <= now) &&
    unexpired source.authorizedUntil (input.expiresAt - 1) &&
    !(g.credentialKind == .browserBound && source.status != .connected)

def leaseGrantReady (owner : Account) (g : Grant) (input : Lease) (now : Int) : Bool :=
  owner.lifecycle == .active && g.status == .ready &&
    g.generation == input.grantGeneration && hasPurpose g input.purpose &&
    unexpired g.providerExpiresAt now && unexpired g.custodyExpiresAt now

def leaseDemand (owner : Account) (g : Grant) (input : Lease)
    (resource : Resource) (now : Int) : Demand :=
  { provider := owner.identity.provider, issuer := some owner.identity.issuer,
    audience := g.audience, purpose := input.purpose, scopes := input.scopes,
    resource, required := input.required, now,
    requiresCapacity := input.requiresCapacity, allowBrowserBound := input.browserContext }

def leaseCapacity (owner : Account) (g : Grant) (input : Lease) (now : Int) : Result Unit :=
  match input.resource with
  | none => .ok ()
  | some resource => do
    validateResource resource
    failIf (!s.eligible g (leaseDemand owner g input resource now))
      .grantNotReady

def issuedLease (g : Grant) (input : Lease) : Lease :=
  { input with
    audience := if input.audience.isEmpty then g.audience else input.audience }

def beginLease (input : Lease) (now : Int) : Result (State × Lease) := do
  validate input
  validate input.nativeRef
  requireId input.id
  failIf (decide (now < input.startedAt) || decide (input.expiresAt <= now) ||
    !leaseInterval input) .leaseExpired
  failIf (s.leases.any (fun lease => lease.id == input.id)) .duplicateId
  let (bi, b) <- orFail (s.bindingEntry input.bindingId) .notFound
  failIf (!leaseFollows b input) .generationConflict
  let owner <- orFail (s.account input.accountId) .notFound
  let g <- orFail (s.grant input.grantId) .notFound
  validateLeaseAuthority input g
  let source <- orFail (s.source g.sourceId) .notFound
  failIf (!leaseSourceAdmits g source input now) .sourceUnauthorized
  failIf (!leaseGrantReady owner g input now) .grantNotReady
  failIf (!unexpired g.providerExpiresAt (input.expiresAt - 1) ||
    !unexpired g.custodyExpiresAt (input.expiresAt - 1)) .leaseExpired
  failIf (!input.audience.isEmpty && input.audience != g.audience) .grantNotReady
  failIf (!input.scopes.all g.scopes.contains) .grantNotReady
  s.leaseCapacity owner g input now
  let leases <- appendOwned s.leases (issuedLease g input)
  .ok ({ s with
    leases := leases
    bindings := s.bindings.set bi { b with inFlight := b.inFlight + 1 } }.changed,
    issuedLease g input)

def completeLease (id : Bytes) : Result State := do
  let (i, lease) <- orFail (recordEntry Lease.id s.leases id) .notFound
  let (bi, b) <- orFail (s.bindingEntry lease.bindingId) .invalidRecord
  failIf (b.inFlight == 0) .invalidRecord
  .ok { s with
    bindings := s.bindings.set bi { b with inFlight := b.inFlight - 1 }
    leases := s.leases.eraseIdx i }.changed

/-!
## Account lifecycle
-/

def setLifecycle (accountId : Bytes) (lifecycle : AccountLifecycle) : Result State := do
  let (i, owner) <- orFail (s.accountEntry accountId) .notFound
  .ok { s with
    accounts := s.accounts.set i { owner with lifecycle } }.changed

def pause (accountId : Bytes) (paused : Bool) : Result State :=
  s.setLifecycle accountId (if paused then .paused else .active)

def drain (accountId : Bytes) : Result State :=
  s.setLifecycle accountId .draining

def tombstonesOf (owner : Account) : List Tombstone :=
  owner.sourceIds.map (fun sourceId =>
    { identity := owner.identity, sourceId })

abbrev withoutAccount (ai : Nat) (owner : Account) : State :=
  { s with
    tombstones := s.tombstones ++ tombstonesOf owner
    grants := s.grants.filter (fun g => g.accountId != owner.id)
    observations := s.observations.filter (fun o => o.accountId != owner.id)
    bindings := s.bindings.filter (fun b => b.accountId != owner.id)
    jobs := s.jobs.filter (fun job => job.accountId != owner.id)
    accounts := s.accounts.eraseIdx ai }.changed

/-- Local custody removal.  Tombstones block automatic re-enrollment. -/
def forget (accountId : Bytes) : Result State := do
  let (ai, owner) <- orFail (s.accountEntry accountId) .notFound
  failIf (s.leases.any (fun lease => lease.accountId == accountId)) .inFlight
  failIf (decide (maxRecords < s.tombstones.length + owner.sourceIds.length))
    .tooManyRecords
  .ok (s.withoutAccount ai owner)

/-- Every removed tombstone counts as one change. -/
def permitReenrollment (identity : Identity) (sourceId : Bytes) (now : Int) : Result State := do
  requireIdentity identity
  failIf (!identity.verified) .invalidRecord
  let source <- orFail (s.source sourceId) .notFound
  failIf (!sourceAuthorized source now || !providerAgrees source identity)
    .sourceUnauthorized
  let kept := s.tombstones.filter (fun tombstone =>
    !sameIdentity tombstone.identity identity)
  .ok (changed^[s.tombstones.length - kept.length] { s with tombstones := kept })

/-!
## Jobs
-/

def jobEnded (job : Job) : Bool :=
  job.status == .completed || job.status == .failed

def jobOwnerMissing (input : Job) : Bool :=
  !input.accountId.isEmpty && (s.accountEntry input.accountId).isNone

/-- The same id and intent is idempotent; an id cannot change its operation. -/
def putJob (input : Job) : Result (State × Job) := do
  validate input
  requireId input.id
  failIf (input.operationGeneration == 0) .invalidRecord
  failIf (s.jobOwnerMissing input) .notFound
  match recordEntry Job.id s.jobs input.id with
  | some (i, existing) =>
    failIf (existing.kind != input.kind || existing.accountId != input.accountId) .duplicateId
    if jobEnded existing then
      .ok (s, existing)
    else do
      failIf (input.operationGeneration != existing.operationGeneration)
        .generationConflict
      if existing.status == .running && input.status == .pending then
        .ok (s, existing)
      else
        let updated := { existing with status := input.status }
        .ok ({ s with jobs := s.jobs.set i updated }.changed, updated)
  | none =>
    let jobs <- appendOwned s.jobs input
    .ok ({ s with jobs }.changed, input)

/-- Explicitly repeat an ended job in the next operation generation. -/
def reopenJob (input : Job) : Result (State × Job) := do
  validate input
  requireId input.id
  failIf (input.status != .pending && input.status != .running) .invalidRecord
  failIf (input.operationGeneration == 0) .invalidRecord
  failIf (s.jobOwnerMissing input) .notFound
  match recordEntry Job.id s.jobs input.id with
  | some (i, existing) =>
    failIf (existing.kind != input.kind || existing.accountId != input.accountId) .duplicateId
    if jobEnded existing then do
      failIf (existing.operationGeneration == maxU64) .generationConflict
      let updated := { existing with
        operationGeneration := existing.operationGeneration + 1
        status := input.status }
      .ok ({ s with jobs := s.jobs.set i updated }.changed, updated)
    else if existing.status == .pending && input.status == .running then
      let updated := { existing with status := .running }
      .ok ({ s with jobs := s.jobs.set i updated }.changed, updated)
    else
      .ok (s, existing)
  | none =>
    failIf (input.operationGeneration != 1) .generationConflict
    s.putJob input

end State

end Omux.Domain
