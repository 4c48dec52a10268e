import Omux.Domain.Observations

/-!
# Route selection

`select` keeps a usable sticky route and otherwise takes the first eligible
grant.  Selection reads the state and changes nothing.
-/

namespace Omux.Domain

open Library

def isNegative (negative : Observation) (demand : Demand) : Bool :=
  negative.status == .unavailable ||
    (negative.status == .ready && negative.remaining.lt demand.required)

def recovers (ready negative : Observation) (owner : Bytes) (demand : Demand) : Bool :=
  ready.accountId == owner && sameResource ready.resource demand.resource &&
    freshForDemand ready demand && decide (negative.observedAt < ready.observedAt) &&
    ready.status == .ready && demand.required.le ready.remaining &&
    isAuthoritative ready.provenance

def blocks (observations : List Observation) (owner : Bytes) (demand : Demand)
    (negative : Observation) : Bool :=
  negative.accountId == owner && sameResource negative.resource demand.resource &&
    freshForDemand negative demand && isNegative negative demand &&
    !observations.any (fun ready => recovers ready negative owner demand)

def newestFor (observations : List Observation) (owner : Bytes)
    (demand : Demand) : Option Observation :=
  observations.foldl
    (fun newest observation =>
      if observation.accountId == owner && sameResource observation.resource demand.resource &&
          freshForDemand observation demand then
        match newest with
        | none => some observation
        | some held =>
          if held.observedAt <= observation.observedAt then some observation
          else newest
      else newest)
    none

namespace State

variable (s : State)

def sameBucket (a b : Observation) : Bool :=
  !a.bucketId.isEmpty && a.bucketId == b.bucketId &&
    sameResource a.resource b.resource && a.windowStart == b.windowStart &&
    a.windowEnd == b.windowEnd && match s.account a.accountId, s.account b.accountId with
    | some ownerA, some ownerB =>
      ownerA.identity.provider == ownerB.identity.provider &&
        ownerA.identity.issuer == ownerB.identity.issuer &&
        ownerA.identity.tenant == ownerB.identity.tenant
    | _, _ => false

/-- Lifecycle, authority and expiry of the grant, before any capacity reading. -/
def grantAdmits (g : Grant) (owner : Account) (demand : Demand) : Bool :=
  owner.lifecycle == .active && owner.identity.verified &&
    owner.identity.provider == demand.provider && g.status == .ready &&
    g.audience == demand.audience && hasPurpose g demand.purpose &&
    unexpired g.providerExpiresAt demand.now && unexpired g.custodyExpiresAt demand.now

def sourceAdmits (g : Grant) (owner : Account) (source : Source) (demand : Demand) : Bool :=
  source.status != .disconnected && decide (source.authorizedAt <= demand.now) &&
    unexpired source.authorizedUntil demand.now &&
    demand.issuer.all (fun issuer => owner.identity.issuer == issuer) &&
    g.credentialKind != .oauthRefresh && !(g.credentialKind == .browserBound &&
      (!demand.allowBrowserBound || source.status != .connected)) &&
    !(source.status == .detached && g.ownership == .external &&
      g.credentialKind == .browserBound) && (demand.allowedAccountIds.isEmpty ||
      demand.allowedAccountIds.contains owner.id) && demand.scopes.all g.scopes.contains

def capacityAdmits (owner : Account) (demand : Demand) : Bool :=
  match newestFor s.observations owner.id demand with
  | none => !demand.requiresCapacity
  | some observation =>
    match observation.status with
    | .unavailable => false
    | .unknown => !demand.requiresCapacity
    | .ready =>
      !observation.remaining.lt demand.required && (observation.bucketId.isEmpty ||
          !s.observations.any (fun shared =>
            s.sameBucket shared observation && decide (demand.now < shared.expiresAt) &&
              decide (shared.observedAt <= demand.now) && (shared.status != .ready ||
                shared.remaining.lt demand.required)))

def eligible (g : Grant) (demand : Demand) : Bool :=
  match s.account g.accountId with
  | none => false
  | some owner =>
    grantAdmits g owner demand && match s.source g.sourceId with
      | none => false
      | some source =>
        sourceAdmits g owner source demand &&
          !s.observations.any (blocks s.observations owner.id demand) &&
          s.capacityAdmits owner demand

def selectionOf (g : Grant) (sticky : Bool) : Selection :=
  { accountId := g.accountId, grantId := g.id, generation := g.generation, sticky }

def stickyRoute (demand : Demand) (b : Binding) : Option Selection :=
  match s.grant b.grantId with
  | some g =>
    if g.generation == b.grantGeneration && s.eligible g demand then
      some (selectionOf g true)
    else none
  | none => none

def firstRoute (demand : Demand) : Result Selection :=
  match s.grants.find? (fun g => s.eligible g demand) with
  | some g => .ok (selectionOf g false)
  | none => .error .noEligibleAccount

def select (demand : Demand) (bindingId : Option Bytes) : Result Selection := do
  validate demand
  validateScopes demand.scopes
  requireId demand.provider
  requireId demand.audience
  validateResource demand.resource
  failIf (!validRequired demand.required) .invalidRecord
  match bindingId with
  | none => s.firstRoute demand
  | some id =>
    let b <- orFail (s.binding id) .notFound
    match s.stickyRoute demand b with
    | some selection => .ok selection
    | none => s.firstRoute demand

end State

end Omux.Domain
