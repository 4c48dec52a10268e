import Omux.Library.Float64
import Omux.Native.Reference

/-!
# Domain records

The credential-free account and routing model.  Identifiers and descriptors are byte
slices, timestamps are signed seconds and generations are unsigned counters.
-/

namespace Omux.Domain

open Library
open Native (NativeRef)

def schemaVersion : Nat := 1
def maxRecords : Nat := 1024
def maxTextBytes : Nat := 4096
def maxListItems : Nat := 64

/-- Largest value of the unsigned 64-bit counters. -/
def maxU64 : Nat := 2 ^ 64 - 1

def maxU32 : Nat := 2 ^ 32 - 1
def minI64 : Int := -2 ^ 63
def maxI64 : Int := 2 ^ 63 - 1

inductive DomainError where
  | invalidRecord | unsupportedSchema | tooManyRecords | notFound | sourceUnauthorized | duplicateId
  | generationConflict | noEligibleAccount | inFlight | grantNotReady | leaseExpired
  | ownershipRequired | nativeOwnerRequired | invalidNativeRef
deriving DecidableEq

abbrev Result := Except DomainError

def genericAccountType : Bytes :=
  [0x67, 0x65, 0x6E, 0x65, 0x72, 0x69, 0x63]

structure Identity where
  provider : Bytes
  issuer : Bytes
  subject : Bytes
  tenant : Bytes := []
  verified : Bool := false
deriving DecidableEq

inductive AccountLifecycle where
  | active | paused | draining
deriving DecidableEq

structure Account where
  id : Bytes
  identity : Identity
  label : Bytes := []
  accountType : Bytes := genericAccountType
  lifecycle : AccountLifecycle := .active
  sourceIds : List Bytes := []
deriving DecidableEq

inductive SourceKind where
  | nativeStore | oauth | browser | explicit
deriving DecidableEq

inductive SourceStatus where
  | connected | detached | disconnected
deriving DecidableEq

structure Source where
  id : Bytes
  provider : Bytes := []
  label : Bytes := []
  kind : SourceKind
  status : SourceStatus := .connected
  authorizedAt : Int := 0
  authorizedUntil : Option Int := none
deriving DecidableEq

structure Enrollment where
  accountId : Bytes
  sourceId : Bytes
  identity : Identity
  label : Bytes := []
  accountType : Bytes := genericAccountType

inductive EnrollmentStatus where
  | enrolled | existing | quarantined | tombstoned

structure EnrollmentResult where
  status : EnrollmentStatus
  accountId : Option Bytes := none

inductive Purpose where
  | request | accountRead | renewal
deriving DecidableEq

inductive CredentialKind where
  | oauthAccess | oauthRefresh | apiKey | cookieSession | browserBound
deriving DecidableEq

inductive RenewalOwnership where
  | external | adopted | omux
deriving DecidableEq

inductive GrantStatus where
  | ready | invalid | quarantined | refreshing
deriving DecidableEq

structure Grant where
  id : Bytes
  accountId : Bytes
  sourceId : Bytes
  credentialKind : CredentialKind
  ownership : RenewalOwnership := .external
  purposes : List Purpose
  audience : Bytes
  scopes : List Bytes := []
  generation : Nat := 1
  status : GrantStatus := .ready
  providerExpiresAt : Option Int := none
  custodyExpiresAt : Option Int := none
deriving DecidableEq

inductive MeasureUnit where
  | calls | bytes | seconds | uploads | tokens | custom
deriving DecidableEq

structure Resource where
  kind : Bytes
  target : Bytes := []
  unit : MeasureUnit := .calls
  unitName : Bytes := []
  scope : Bytes := []
deriving DecidableEq

inductive ObservationStatus where
  | ready | unavailable | unknown
deriving DecidableEq

inductive ObservationProvenance where
  | providerApi | nativeApplication | browserFetch | browserPage
  | userDeclared | fixture
deriving DecidableEq

structure Observation where
  accountId : Bytes
  resource : Resource
  bucketId : Bytes
  remaining : F64
  limit : Option F64 := none
  windowStart : Int
  windowEnd : Int
  observedAt : Int
  expiresAt : Int
  status : ObservationStatus := .ready
  provenance : ObservationProvenance
deriving DecidableEq

structure Demand where
  provider : Bytes
  issuer : Option Bytes := none
  audience : Bytes
  purpose : Purpose := .request
  scopes : List Bytes := []
  resource : Resource
  required : F64 := F64.one
  now : Int
  requiresCapacity : Bool := false
  allowBrowserBound : Bool := false
  allowedAccountIds : List Bytes := []

structure Selection where
  accountId : Bytes
  grantId : Bytes
  generation : Nat
  sticky : Bool := false
deriving DecidableEq

structure Binding where
  id : Bytes
  application : Bytes
  sessionId : Bytes
  nativeRef : Option NativeRef := none
  accountId : Bytes
  grantId : Bytes
  grantGeneration : Nat
  routeGeneration : Nat := 1
  inFlight : Nat := 0
  lastUsedRevision : Nat := 0
deriving DecidableEq

structure Lease where
  id : Bytes
  bindingId : Bytes
  nativeRef : Option NativeRef := none
  accountId : Bytes
  grantId : Bytes
  grantGeneration : Nat
  routeGeneration : Nat
  purpose : Purpose := .request
  audience : Bytes := []
  scopes : List Bytes := []
  resource : Option Resource := none
  required : F64 := F64.one
  requiresCapacity : Bool := false
  browserContext : Bool := false
  startedAt : Int
  expiresAt : Int
deriving DecidableEq

structure Tombstone where
  identity : Identity
  sourceId : Bytes
deriving DecidableEq

inductive QuarantineReason where
  | unverifiedIdentity | conflictingIdentity
deriving DecidableEq

structure QuarantinedImport where
  sourceId : Bytes
  candidateId : Bytes
  identity : Identity
  reason : QuarantineReason
deriving DecidableEq

inductive JobKind where
  | enrollment | repair | revocation | reconciliation
deriving DecidableEq

inductive JobStatus where
  | pending | running | completed | failed
deriving DecidableEq

structure Job where
  id : Bytes
  kind : JobKind
  accountId : Bytes := []
  status : JobStatus := .pending
  operationGeneration : Nat := 1
deriving DecidableEq

structure Reconciliation where
  grantId : Bytes
  expectedGeneration : Nat
  nextGeneration : Nat
  status : GrantStatus
  providerExpiresAt : Option Int := none
  custodyExpiresAt : Option Int := none

structure Snapshot where
  schemaVersion : Nat := 1
  revision : Nat := 0
  sources : List Source := []
  accounts : List Account := []
  grants : List Grant := []
  observations : List Observation := []
  bindings : List Binding := []
  leases : List Lease := []
  tombstones : List Tombstone := []
  quarantinedImports : List QuarantinedImport := []
  jobs : List Job := []

/-- Single-writer state; the caller serializes mutations. -/
structure State where
  revision : Nat := 0
  sources : List Source := []
  accounts : List Account := []
  grants : List Grant := []
  observations : List Observation := []
  bindings : List Binding := []
  leases : List Lease := []
  tombstones : List Tombstone := []
  quarantinedImports : List QuarantinedImport := []
  jobs : List Job := []
deriving DecidableEq

def State.init : State := {}

def State.snapshot (s : State) : Snapshot where
  revision := s.revision
  sources := s.sources
  accounts := s.accounts
  grants := s.grants
  observations := s.observations
  bindings := s.bindings
  leases := s.leases
  tombstones := s.tombstones
  quarantinedImports := s.quarantinedImports
  jobs := s.jobs

end Omux.Domain
