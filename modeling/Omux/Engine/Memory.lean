import Omux.Actor.Model
import Omux.Domain.ProviderGrowth
import Omux.Envelope.Persisted
import Omux.Observer.Capacity
import Omux.Storage.Tables

/-!
# The memory of the engine

The part of the engine that a commit writes and a restore reads back, as far as the end of
an import uses it.
-/

namespace Omux.Engine

open Library
open Admission (Key Kind)
open Domain (State Source Job Grant Identity FloatFormat DomainError codexName
  githubName)
open Envelope (OutcomeIntent ImportSourceAuthority)
open Observer (Completion)
open Storage (Tables GrantKey GrantPut)
open Transport (Decoder Response)

inductive EngineError where
  | domain (error : DomainError)
  | addGrant (error : DomainError)
  | observation (error : DomainError)
  | admission (error : Admission.AdmissionError)
  | store (error : Storage.StoreError)
  | transport (error : Transport.TransportError)
  | invalidSnapshotCreditAuthority | serviceBusy | needsProviderAdapterProof
  | unsupportedCredentialKind | invalidCredential | expiredCredential | invalidCustodyLease
  | sourceUnauthorized | importSuperseded | providerUnavailable | identityMismatch
  | identityNotAdmitted
deriving DecidableEq

abbrev Result := Except EngineError

/-- A drawn identifier: 32 random bytes in hexadecimal. -/
structure Handle where
  bytes : Bytes
  length_eq : bytes.length = 64
  hex : bytes.all isHex = true

/-- Hashes, the typed parser, the printer of doubles and the name of the root key. -/
structure Platform extends Mutation.Platform where
  decoder : Decoder
  format : FloatFormat
  rootId : Bytes

def Platform.creditKey (platform : Platform) (kind : Kind) (id : Bytes)
    (generation : Nat) : Key :=
  Actor.creditKey platform.toPlatform kind id generation

structure Memory where
  state : State := {}
  admission : Admission.Ledger := Admission.Ledger.init
  outcomeIntents : List OutcomeIntent := []
  importSources : List ImportSourceAuthority := []
  importForgetEpoch : Nat := 0

/-- A read of an identity that has not completed; it is lost with the process. -/
structure PendingImport where
  networkId : Nat
  sourceId : Bytes
  provider : Bytes
  credentialKind : Domain.CredentialKind
  allowReenrollment : Bool := false
  sourceGeneration : Nat
  jobGeneration : Nat := 0
  creditKey : Key
  forgetEpoch : Nat
  providerAccountId : Option Bytes := none
  custodyExpiresAt : Option Int := none
  jobId : Bytes
  token : Bytes
  label : Bytes
  expiresAt : Option Int

namespace Memory

/-!
## Credits and intents
-/

variable (m : Memory)

def releaseOutcome (key : Key) : Result Memory := do
  let admission <- (m.admission.release key).mapError .admission
  let (i, _) <- orFail (recordEntry OutcomeIntent.key m.outcomeIntents key)
    .invalidSnapshotCreditAuthority
  .ok { m with admission, outcomeIntents := m.outcomeIntents.eraseIdx i }

/-- The loop that releases the selected intents; a release shifts the next one to the
same index. -/
def retireLoop (selected : OutcomeIntent -> Bool) : Nat -> Nat -> Memory -> Result Memory
  | 0, _, m => .ok m
  | rounds + 1, index, m =>
    match m.outcomeIntents[index]? with
    | none => .ok m
    | some intent =>
      if selected intent then do
        let next <- m.releaseOutcome intent.key
        retireLoop selected rounds index next
      else retireLoop selected rounds (index + 1) m

def retire (selected : OutcomeIntent -> Bool) : Result Memory :=
  retireLoop selected m.outcomeIntents.length 0 m

/-- A missing argument matches everything. -/
def ofObservation (sourceId accountId grantId : Option Bytes) (intent : OutcomeIntent) : Bool :=
  intent.key.kind == .observation && sourceId.all (fun id => intent.sourceId == id) &&
    accountId.all (fun id => intent.secondaryId == id) &&
    grantId.all (fun id => intent.ownerId == id)

def retireObservationCredits (sourceId accountId grantId : Option Bytes) : Result Memory :=
  m.retire (ofObservation sourceId accountId grantId)

/-!
## Import sources
-/

def setJobs (change : Job -> Job) : Memory :=
  { m with state := { m.state with jobs := m.state.jobs.map change } }

def importJobId (sourceId : Bytes) : Bytes :=
  ascii "reconcile-" ++ sourceId

def importJobRunning (pending : PendingImport) : Bool :=
  (recordAt Job.id m.state.jobs pending.jobId).any (fun job =>
    job.kind == .enrollment && job.status == .running &&
      job.operationGeneration == pending.jobGeneration)

def PendingImport.runs (pending : PendingImport) (job : Job) : Bool :=
  job.id == pending.jobId && job.operationGeneration == pending.jobGeneration &&
    job.status == .running

def endJob (pending : PendingImport) (status : Domain.JobStatus) (job : Job) : Job :=
  if PendingImport.runs pending job then { job with status } else job

end Memory

/-!
## Queueing an import
-/

structure ImportRequest where
  sourceId : Bytes
  provider : Bytes
  token : Bytes
  label : Bytes := []
  expiresAt : Option Int := none
  custodyExpiresAt : Option Int := none
  providerAccountId : Option Bytes := none
  credentialKind : Domain.CredentialKind
  allowReenrollment : Bool := false
  explicitAuthorization : Bool := false

def maximumCredentialBytes : Nat := 16 * 1024

def importable (sourceId provider : Bytes) (now : Int) (source : Source) : Bool :=
  source.id == sourceId && source.status == .connected && source.kind != .browser &&
    source.provider == provider && decide (source.authorizedAt <= now) &&
    Domain.unexpired source.authorizedUntil now

def checkImport (request : ImportRequest) (now : Int) : Result Unit := do
  failIf (request.provider != githubName && request.provider != codexName)
    .needsProviderAdapterProof
  failIf (request.credentialKind != .oauthAccess && request.credentialKind != .apiKey)
    .unsupportedCredentialKind
  failIf (request.provider == codexName && request.credentialKind != .oauthAccess)
    .needsProviderAdapterProof
  failIf (request.token.isEmpty || decide (maximumCredentialBytes < request.token.length))
    .invalidCredential
  failIf (!request.token.all (fun byte => decide (0x21 <= byte) && decide (byte <= 0x7E)))
    .invalidCredential
  failIf (!Domain.unexpired request.expiresAt now) .expiredCredential
  failIf (!Domain.unexpired request.custodyExpiresAt now) .invalidCustodyLease

namespace Memory

def newPending (platform : Platform) (request : ImportRequest)
    (sourceGeneration jobGeneration forgetEpoch : Nat) : PendingImport where
  networkId := 0
  sourceId := request.sourceId
  provider := request.provider
  credentialKind := request.credentialKind
  allowReenrollment := request.allowReenrollment
  sourceGeneration := sourceGeneration
  jobGeneration := jobGeneration
  creditKey := platform.creditKey .importing (importJobId request.sourceId) jobGeneration
  forgetEpoch := forgetEpoch
  providerAccountId := request.providerAccountId
  custodyExpiresAt := request.custodyExpiresAt
  jobId := importJobId request.sourceId
  token := request.token
  label := request.label
  expiresAt := request.expiresAt

end Memory

/-!
## Completing an import
-/

structure Proof where
  subject : Bytes
  tenant : Bytes
  issuer : Bytes
  kind : Bytes
  username : Option Bytes := none
  providerAccountId : Option Bytes := none

def githubProof (identity : Transport.GitHubIdentity) : Proof :=
  { subject := decimal identity.id.toNat, tenant := [], issuer := Domain.githubIssuer,
    kind := identity.type, username := some identity.login }

def codexProof (identity : Transport.CodexIdentity) : Proof :=
  { subject := identity.userId, tenant := identity.accountId, issuer := Domain.codexIssuer,
    kind := identity.planType, providerAccountId := some identity.accountId }

def identityProof (decoder : Decoder) (pending : PendingImport) (response : Response) :
    Result Proof :=
  if pending.provider == githubName then do
    let identity <- (response.githubIdentity decoder).mapError .transport
    .ok (githubProof identity)
  else do
    let identity <- (response.codexIdentity decoder).mapError .transport
    failIf (!identity.matchesHint pending.providerAccountId) .identityMismatch
    .ok (codexProof identity)

def Proof.identity (proof : Proof) (provider : Bytes) : Identity :=
  { provider, issuer := proof.issuer, subject := proof.subject,
    tenant := proof.tenant, verified := true }

variable (pending : PendingImport)

def importEnrollment (proof : Proof) (opaqueId : Bytes) : Domain.Enrollment :=
  { accountId := opaqueId, sourceId := pending.sourceId,
    identity := proof.identity pending.provider,
    label := Domain.accountLabel pending.provider pending.label, accountType := proof.kind }

/-- A grant of the account for the same source, kind and audience is rotated. -/
def importGrantId (s : State) (pending : PendingImport) (proof : Proof)
    (accountId randomGrant : Bytes) : Bytes :=
  ((s.grants.find? (fun grant => grant.accountId == accountId &&
    grant.sourceId == pending.sourceId && grant.credentialKind == pending.credentialKind &&
    grant.audience == proof.issuer)).map Grant.id).getD randomGrant

def importGrant (proof : Proof) (accountId grantId : Bytes) (generation : Nat) : Grant :=
  { id := grantId, accountId, sourceId := pending.sourceId,
    credentialKind := pending.credentialKind, ownership := .external,
    purposes := [.request, .accountRead], audience := proof.issuer,
    providerExpiresAt := pending.expiresAt, custodyExpiresAt := pending.custodyExpiresAt,
    generation }

def credentialJson (proof : Proof) : Bytes :=
  jsonObject
    [(ascii "access_token", jsonSlice pending.token),
      (ascii "username", jsonOption jsonSlice proof.username),
      (ascii "provider_account_id", jsonOption jsonSlice proof.providerAccountId)]

def importPut (platform : Platform) (pending : PendingImport) (proof : Proof)
    (grant : Grant) : GrantPut where
  context :=
    { keyId := platform.rootId, accountId := grant.accountId, grantId := grant.id,
      generation := grant.generation, purpose := ascii "request", scope := proof.issuer }
  plaintext := credentialJson pending proof
  renewalOwner := .external

structure Identifiers where
  account : Handle
  grant : Handle

/-- The clock is read for each of these. -/
structure Times where
  checked : Int
  permitted : Int
  enrolled : Int
  observed : Int

namespace Memory

/-- The source is still in the generation of the read, and may still be imported. -/
def importAuthorized (m : Memory) (pending : PendingImport) (now : Int) : Bool :=
  m.importSources.any (fun authority => authority.sourceId == pending.sourceId &&
    authority.generation == pending.sourceGeneration) &&
    m.state.sources.any (importable pending.sourceId pending.provider now)

/-- The checks of a completion against everything that may have superseded it. -/
def checkCompletion (m : Memory) (pending : PendingImport) (completion : Completion)
    (now : Int) : Result Response := do
  failIf (completion.id != pending.networkId || !m.importJobRunning pending)
    .importSuperseded
  failIf (!m.importAuthorized pending now) .sourceUnauthorized
  failIf (!Domain.unexpired pending.expiresAt now) .expiredCredential
  failIf (!Domain.unexpired pending.custodyExpiresAt now) .invalidCustodyLease
  failIf (pending.allowReenrollment && pending.forgetEpoch != m.importForgetEpoch)
    .importSuperseded
  orFail completion.response .providerUnavailable

def permitted (s : State) (pending : PendingImport) (proof : Proof) (now : Int) :
    Domain.Result State :=
  if pending.allowReenrollment then
    s.permitReenrollment (proof.identity pending.provider) pending.sourceId now
  else .ok s

/-- The limits of a Codex account come with its identity. -/
def observeImport (platform : Platform) (s : State) (pending : PendingImport)
    (grantId : Bytes) (response : Response) (now : Int) : Domain.Result State :=
  if pending.provider == codexName then
    match s.grant grantId with
    | some grant => Observer.observeCodexUsage platform.decoder s grant response now
    | none => .ok s
  else .ok s

/-- The body of `finishImport` up to its commit, with the grant to put into custody. -/
def finishImport (platform : Platform) (custody : Tables) (m : Memory)
    (pending : PendingImport) (completion : Completion) (identifiers : Identifiers)
    (times : Times) : Result (Memory × GrantPut) := do
  let response <- m.checkCompletion pending completion times.checked
  let proof <- identityProof platform.decoder pending response
  let state <- (permitted m.state pending proof times.permitted).mapError .domain
  let (state, enrollment) <- (state.enroll
    (importEnrollment pending proof identifiers.account.bytes) times.enrolled).mapError .domain
  let accountId <- orFail enrollment.accountId .identityNotAdmitted
  let grantId := importGrantId state pending proof accountId identifiers.grant.bytes
  let generation <- (custody.nextGeneration ⟨accountId, grantId⟩).mapError .store
  let unobserved <- { m with state }.retireObservationCredits none none
    (some grantId)
  let grant := importGrant pending proof accountId grantId generation
  let (state, _) <- (unobserved.state.addGrant grant).mapError .addGrant
  let state <- (observeImport platform state pending grantId response times.observed).mapError
    .observation
  let ended := { unobserved with state }.setJobs (endJob pending .completed)
  let released <- ended.releaseOutcome pending.creditKey
  .ok (released, importPut platform pending proof grant)

end Memory

end Omux.Engine
