import Omux.Domain.Model

/-!
# Record validation

`validate` walks a record field by field.  Texts are bounded UTF-8 without a
zero byte, lists are bounded, and native references check themselves.
-/

namespace Omux.Domain

open Library
open Native (NativeRef sameNativeRef)

/-!
## The structural walk
-/

def validText (value : Bytes) : Bool :=
  value.length <= maxTextBytes && utf8ValidateSlice value && !value.contains 0

class Validate (α : Type) where
  validate : α -> Result Unit

export Validate (validate)

instance : Validate Bytes where
  validate value := failIf (!validText value) .invalidRecord

instance : Validate (List Bytes) where
  validate values := do
    failIf (decide (maxListItems < values.length)) .tooManyRecords
    checkAll validate values

instance : Validate (List Purpose) where
  validate values := failIf (decide (maxListItems < values.length)) .tooManyRecords

instance {α : Type} [Validate α] : Validate (Option α) where
  validate
    | some value => validate value
    | none => .ok ()

instance : Validate NativeRef where
  validate ref := ref.validate .invalidNativeRef

instance : Validate Identity where
  validate value := do
    validate value.provider
    validate value.issuer
    validate value.subject
    validate value.tenant

instance : Validate Account where
  validate value := do
    validate value.id
    validate value.identity
    validate value.label
    validate value.accountType
    validate value.sourceIds

instance : Validate Source where
  validate value := do
    validate value.id
    validate value.provider
    validate value.label

instance : Validate Enrollment where
  validate value := do
    validate value.accountId
    validate value.sourceId
    validate value.identity
    validate value.label
    validate value.accountType

instance : Validate Grant where
  validate value := do
    validate value.id
    validate value.accountId
    validate value.sourceId
    validate value.purposes
    validate value.audience
    validate value.scopes

instance : Validate Resource where
  validate value := do
    validate value.kind
    validate value.target
    validate value.unitName
    validate value.scope

instance : Validate Observation where
  validate value := do
    validate value.accountId
    validate value.resource
    validate value.bucketId

instance : Validate Demand where
  validate value := do
    validate value.provider
    validate value.issuer
    validate value.audience
    validate value.scopes
    validate value.resource
    validate value.allowedAccountIds

instance : Validate Binding where
  validate value := do
    validate value.id
    validate value.application
    validate value.sessionId
    validate value.nativeRef
    validate value.accountId
    validate value.grantId

instance : Validate Lease where
  validate value := do
    validate value.id
    validate value.bindingId
    validate value.nativeRef
    validate value.accountId
    validate value.grantId
    validate value.audience
    validate value.scopes
    validate value.resource

instance : Validate Tombstone where
  validate value := do
    validate value.identity
    validate value.sourceId

instance : Validate QuarantinedImport where
  validate value := do
    validate value.sourceId
    validate value.candidateId
    validate value.identity

instance : Validate Job where
  validate value := do
    validate value.id
    validate value.accountId

/-!
## Comparisons
-/

def sameIdentity (a b : Identity) : Bool :=
  a.provider == b.provider && a.issuer == b.issuer &&
    a.subject == b.subject && a.tenant == b.tenant

def sameResource (a b : Resource) : Bool :=
  a.kind == b.kind && a.target == b.target && a.unit == b.unit &&
    a.unitName == b.unitName && a.scope == b.scope

def hasPurpose (g : Grant) (purpose : Purpose) : Bool :=
  g.purposes.contains purpose

def unexpired (expiry : Option Int) (now : Int) : Bool :=
  match expiry with
  | some value => decide (now < value)
  | none => true

def freshForDemand (observation : Observation) (demand : Demand) : Bool :=
  decide (observation.observedAt <= demand.now) && decide (demand.now < observation.expiresAt) &&
    decide (observation.windowStart <= demand.now) && decide (demand.now < observation.windowEnd)

def sameGrantAuthority (a b : Grant) : Bool :=
  a.credentialKind == b.credentialKind && a.audience == b.audience &&
    a.scopes.length == b.scopes.length && a.purposes.length == b.purposes.length &&
    a.scopes.all b.scopes.contains && a.purposes.all (hasPurpose b)

/-!
## Checks beyond the structural walk
-/

def validId (value : Bytes) : Bool :=
  !value.isEmpty && validText value

def requireId (value : Bytes) : Result Unit :=
  failIf (!validId value) .invalidRecord

def requireIdentity (value : Identity) : Result Unit := do
  requireId value.provider
  requireId value.issuer
  requireId value.subject

/-- Every refusal of a scope list is the same error. -/
def validateScopes (scopes : List Bytes) : Result Unit :=
  failIf (!(scopes.all validId && decide scopes.Nodup)) .invalidRecord

def validateGrant (value : Grant) : Result Unit := do
  validate value
  requireId value.id
  requireId value.accountId
  requireId value.sourceId
  requireId value.audience
  failIf (value.generation == 0 || value.purposes.isEmpty) .invalidRecord
  failIf (value.credentialKind == .oauthRefresh &&
    (hasPurpose value .request || hasPurpose value .accountRead)) .invalidRecord
  failIf (!decide value.purposes.Nodup) .invalidRecord
  validateScopes value.scopes

def validateResource (value : Resource) : Result Unit := do
  validate value
  requireId value.kind
  failIf (value.unit == .custom && value.unitName.isEmpty) .invalidRecord
  failIf (value.unit != .custom && !value.unitName.isEmpty) .invalidRecord

def validateOptionalResource (value : Option Resource) : Result Unit :=
  match value with
  | some resource => validateResource resource
  | none => .ok ()

def validRequired (required : F64) : Bool :=
  required.isFinite && !required.lt F64.zero

def validateLeaseAuthority (value : Lease) (g : Grant) : Result Unit := do
  validateScopes value.scopes
  failIf (!validRequired value.required) .invalidRecord
  failIf ((g.credentialKind == .browserBound && !value.browserContext) ||
    g.credentialKind == .oauthRefresh || !hasPurpose g value.purpose ||
    (!value.audience.isEmpty && value.audience != g.audience)) .grantNotReady
  failIf (!value.scopes.all g.scopes.contains) .grantNotReady
  validateOptionalResource value.resource

def validLimit (limit : Option F64) (remaining : F64) : Bool :=
  match limit with
  | some bound => bound.isFinite && !bound.lt remaining
  | none => true

def validateObservation (value : Observation) : Result Unit := do
  validate value
  requireId value.accountId
  validateResource value.resource
  failIf (!value.remaining.isFinite || value.remaining.lt F64.zero || decide (value.windowEnd <=
    value.windowStart) || decide (value.expiresAt <= value.observedAt)) .invalidRecord
  failIf (!validLimit value.limit value.remaining) .invalidRecord

end Omux.Domain
