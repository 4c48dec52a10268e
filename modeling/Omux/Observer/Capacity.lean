import Omux.Domain.Observations
import Omux.Transport.Responses

/-!
# Capacity polls

When a capacity request completes, an accepted answer for a grant that is still eligible
becomes one observation of the hourly GitHub bucket, or a batch of observations of the
Codex limits.
-/

namespace Omux.Observer

open Library
open Domain (State Grant Observation Resource minI64 maxI64)
open Transport (Decoder Response CodexUsage)

def freshnessSeconds : Int := 120

def githubCore : Resource :=
  { kind := ascii "api-calls", target := ascii "core", unit := .calls,
    scope := ascii "github:rest:core" }

/-- Permission for ordinary use, apart from any remaining percentage. -/
def codexOrdinaryAccess : Resource :=
  { kind := ascii "usage-access", target := ascii "codex", unit := .custom,
    unitName := ascii "provider-decision", scope := ascii "codex:ordinary-included" }

inductive Provider where
  | github | codex
deriving DecidableEq

def Provider.name : Provider -> Bytes
  | .github => ascii "github"
  | .codex => ascii "codex"

def Provider.audience : Provider -> Bytes
  | .github => ascii "https://github.com"
  | .codex => ascii "https://chatgpt.com"

inductive ObserverError where
  | invalidTime | invalidScope | grantNotReady | wrongAudience | unsupportedCredential
  | accountReadRequired | grantExpired

/-!
## Eligible grants
-/

def validHandle (value : Bytes) : Bool :=
  !value.isEmpty && decide (value.length <= 128) &&
    value.all (fun byte => isAlphanumeric byte || byte == 0x2D || byte == 0x5F)

def polled : Domain.CredentialKind -> Bool
  | .apiKey => true
  | .oauthAccess => true
  | _ => false

def validateGrantFor (grant : Grant) (now : Int) (provider : Provider) :
    Except ObserverError Unit := do
  failIf (decide (now < 0)) .invalidTime
  failIf (!validHandle grant.id || !validHandle grant.accountId) .invalidScope
  failIf (grant.status != .ready || grant.generation == 0) .grantNotReady
  failIf (grant.audience != provider.audience) .wrongAudience
  failIf (!polled grant.credentialKind) .unsupportedCredential
  failIf (!Domain.hasPurpose grant .accountRead) .accountReadRequired
  failIf (!Domain.unexpired grant.providerExpiresAt now) .grantExpired
  failIf (!Domain.unexpired grant.custodyExpiresAt now) .grantExpired

def sourceAuthorized (s : State) (sourceId : Bytes) (now : Int) (provider : Provider) : Bool :=
  match s.source sourceId with
  | none => false
  | some source =>
    source.status != .disconnected && decide (source.authorizedAt <= now) &&
      Domain.unexpired source.authorizedUntil now &&
      (source.provider.isEmpty || source.provider == provider.name)

/-- A decimal number of 64 bits that is not zero. -/
def numericSubject (subject : Bytes) : Bool :=
  let value := subject.foldl (fun value byte => value * 10 + (byte.toNat - 0x30)) 0
  !subject.isEmpty && decide (subject.length <= 20) && subject.all isDigit &&
    decide (value <= Domain.maxU64) && value != 0

def knownIdentity (identity : Domain.Identity) (provider : Provider) : Bool :=
  identity.verified && identity.provider == provider.name &&
    identity.issuer == provider.audience && match provider with
    | .github => numericSubject identity.subject
    | .codex => !identity.subject.isEmpty && !identity.tenant.isEmpty

/-- Checked before a request is made and again when it completes. -/
def capacityEligible (s : State) (grant : Grant) (now : Int) (provider : Provider) : Bool :=
  (validateGrantFor grant now provider).isOk && match s.grant grant.id with
    | none => false
    | some current =>
      current.generation == grant.generation && current.accountId == grant.accountId &&
        current.sourceId == grant.sourceId && (validateGrantFor current now provider).isOk &&
        (s.account grant.accountId).any (fun account =>
          knownIdentity account.identity provider) &&
        sourceAuthorized s current.sourceId now provider

def githubCapacityEligible (s : State) (grant : Grant) (now : Int) : Bool :=
  capacityEligible s grant now .github

def codexCapacityEligible (s : State) (grant : Grant) (now : Int) : Bool :=
  capacityEligible s grant now .codex

/-!
## Codex limits
-/

variable (accountId : Bytes)

/-- A decision of the provider; it holds as long as the answer is fresh. -/
def decisionObservation (resource : Resource) (allowed : Bool)
    (now expires : Int) : Observation where
  accountId := accountId
  resource := resource
  bucketId := []
  remaining := F64.ofNat (if allowed then 1 else 0)
  limit := some (F64.ofNat 1)
  windowStart := now
  windowEnd := expires
  observedAt := now
  expiresAt := expires
  status := if allowed then .ready else .unavailable
  provenance := .providerApi

def featureAccess (feature : Bytes) : Resource :=
  { kind := ascii "usage-access", target := feature, unit := .custom,
    unitName := ascii "provider-decision", scope := ascii "codex:feature:" ++ feature }

def windowScope (feature : Bytes) (ordinary : Bool) (name : Bytes) (seconds : Int) : Bytes :=
  (if ordinary then ascii "codex:ordinary-included:"
    else ascii "codex:feature:" ++ feature ++ ascii ":") ++
    name ++ ascii ":" ++ decimalInt seconds ++ ascii "s"

variable (accountId feature : Bytes)

def windowObservation (ordinary : Bool) (name : Bytes)
    (window : CodexUsage.Window) (start now expires : Int) : Observation where
  accountId := accountId
  resource :=
    { kind := ascii "subscription-usage", target := feature, unit := .custom,
      unitName := ascii "percent-of-window",
      scope := windowScope feature ordinary name window.limitWindowSeconds.toInt }
  bucketId := []
  remaining := F64.ofNat (100 - window.usedPercent.toInt).toNat
  limit := some (F64.ofNat 100)
  windowStart := start
  windowEnd := window.resetAt.toInt
  observedAt := now
  expiresAt := min expires window.resetAt.toInt
  provenance := .providerApi

/-- A window is used only while it is open; its start must be a time of 64 bits. -/
def addWindow (ordinary : Bool) (name : Bytes)
    (window : Option CodexUsage.Window) (now expires : Int) : List Observation :=
  match window with
  | none => []
  | some value =>
    let start := value.resetAt.toInt - value.limitWindowSeconds.toInt
    if start < minI64 ∨ now < start ∨ value.resetAt.toInt <= now then []
    else [windowObservation accountId feature ordinary name value start now expires]

def addCodexLimit (limit : CodexUsage.RateLimit)
    (ordinary : Bool) (now expires : Int) : List Observation :=
  decisionObservation accountId
      (if ordinary then codexOrdinaryAccess else featureAccess feature) limit.allowed now
      expires ::
    (addWindow accountId feature ordinary (ascii "primary") limit.primaryWindow now expires ++
      addWindow accountId feature ordinary (ascii "secondary") limit.secondaryWindow now
        expires)

def spendControl : Resource :=
  { kind := ascii "usage-access", target := ascii "codex", unit := .custom,
    unitName := ascii "provider-decision", scope := ascii "codex:spend-control" }

def additionalObservations (now expires : Int)
    (entry : CodexUsage.Additional) : List Observation :=
  match entry.rateLimit with
  | some limit => addCodexLimit accountId entry.meteredFeature limit false now expires
  | none => []

def codexObservations (usage : CodexUsage) (now expires : Int) : List Observation :=
  (match usage.rateLimit with
    | some limit => addCodexLimit accountId (ascii "codex") limit true now expires
    | none => []) ++
  (usage.additionalRateLimits.getD []).flatMap (additionalObservations accountId now expires) ++
  (match usage.spendControl with
    | some reached => [decisionObservation accountId spendControl (!reached) now expires]
    | none => [])

/-- The answer must be for the user and the workspace of the account. -/
def sameOwner (s : State) (accountId : Bytes) (usage : CodexUsage) : Bool :=
  (s.account accountId).any (fun account =>
    usage.userId == account.identity.subject && usage.accountId == account.identity.tenant)

def observeCodexUsage (decoder : Decoder) (s : State) (grant : Grant) (response : Response)
    (now : Int) : Domain.Result State :=
  if !codexCapacityEligible s grant now then .ok s
  else
    match response.codexUsage decoder with
    | .error _ => .ok s
    | .ok usage =>
      if !sameOwner s grant.accountId usage then .ok s
      else if maxI64 < now + freshnessSeconds then .ok s
      else s.observeBatch
        (codexObservations grant.accountId usage now (now + freshnessSeconds))

/-!
## Completions
-/

/-- No poll asks for another resource than the default one. -/
structure Pending where
  id : Nat
  accountId : Bytes
  grantId : Bytes
  generation : Nat
  resource : Resource := githubCore
  provider : Provider := .github
  resource_eq : resource = githubCore := by rfl
deriving DecidableEq

structure Coordinator where
  pending : List (Option Pending)

structure Completion where
  id : Nat
  response : Option Response

def githubBucket : Bytes :=
  ascii "github:" ++ accountId ++ ascii ":core"

def coreObservation (pending : Pending) (core : Transport.GitHubCapacity) (now : Int) :
    Observation where
  accountId := pending.accountId
  resource := pending.resource
  bucketId := githubBucket pending.accountId
  remaining := F64.ofNat core.remaining.toNat
  limit := some (F64.ofNat core.limit.toNat)
  windowStart := core.reset.toInt - 3600
  windowEnd := core.reset.toInt
  observedAt := now
  expiresAt := min (min (now + freshnessSeconds) maxI64) core.reset.toInt
  provenance := .providerApi

def observeGitHubCore (decoder : Decoder) (s : State) (pending : Pending)
    (response : Response) (now : Int) : Domain.Result State :=
  match response.githubCapacity decoder with
  | .error _ => .ok s
  | .ok core =>
    if core.reset.toInt <= now ∨ now < core.reset.toInt - 3600 then .ok s
    else s.observe (coreObservation pending core now)

/-- What a completed request for `pending` does to the state. -/
def observePending (decoder : Decoder) (s : State) (pending : Pending)
    (response : Option Response) (now : Int) : Domain.Result State :=
  match s.grant pending.grantId with
  | none => .ok s
  | some grant =>
    if grant.generation != pending.generation || grant.accountId != pending.accountId then
      .ok s
    else if !capacityEligible s grant now pending.provider then .ok s
    else
      match response, pending.provider with
      | none, _ => .ok s
      | some answer, .codex => observeCodexUsage decoder s grant answer now
      | some answer, .github => observeGitHubCore decoder s pending answer now

namespace Coordinator

def pendingIndex (self : Coordinator) (id : Nat) : Option (Nat × Pending) :=
  (firstEntry (fun entry : Option Pending => entry.any (fun pending => pending.id == id))
    self.pending).bind (fun entry => entry.2.map (fun pending => (entry.1, pending)))

/-- `false` for a completion that no poll is waiting for. -/
def take (decoder : Decoder) (self : Coordinator) (completion : Completion) (s : State)
    (now : Int) : Coordinator × Domain.Result (State × Bool) :=
  match self.pendingIndex completion.id with
  | none => (self, .ok (s, false))
  | some (i, pending) =>
    ({ pending := self.pending.set i none },
      (observePending decoder s pending completion.response now).map (fun next =>
        (next, true)))

end Coordinator

end Omux.Observer
