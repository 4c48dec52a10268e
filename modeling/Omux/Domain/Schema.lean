import Omux.Admission.Ledger
import Omux.Domain.Model
import Omux.Library.Schema

/-!
# Shapes of domain records

How the default serializer writes a snapshot of the domain.  One description of each
record serves the encoding and the reserve for its scalars.
-/

namespace Omux.Domain

open Library
open Admission (maximumSnapshotBytes)
open Native (NativeRef)

/-- The serializer's printer of doubles with its documented width. -/
structure FloatFormat where
  write : F64 -> Bytes
  width : Nat
  write_pos : forall x, 0 < (write x).length
  width_pos : 0 < width
  width_le : width <= maximumSnapshotBytes

/-- Whole numbers in decimal, as the serializer prints them up to `2 ^ 53`, and the largest
double as it prints that. -/
def FloatFormat.digits : FloatFormat where
  write x := if x = F64.largest then ascii "17976931348623157" ++ List.replicate 292 0x30
    else decimal x.whole
  width := 347
  write_pos x := by
    split
    · rw [List.length_append, List.length_replicate]
      omega
    · exact length_decimal_pos _
  width_pos := by decide
  width_le := by decide

/-!
## Scalars
-/

abbrev Scalar := Library.Scalar maximumSnapshotBytes

def u32 : Scalar Nat :=
  .unsigned (2 ^ 32 - 1) (by decide +kernel)

def u64 : Scalar Nat :=
  .unsigned maxU64 (by decide +kernel)

def i64 : Scalar Int :=
  .signed (2 ^ 63) (by decide) (by decide +kernel)

variable (format : FloatFormat)

def f64 : Scalar F64 :=
  .printed format.write format.width format.write_pos format.width_pos format.width_le

def boolean : Scalar Bool :=
  .boolean (by decide)

def optionalScalar {α : Type} (scalar : Scalar α) : Scalar (Option α) :=
  scalar.optional (by decide)

def AccountLifecycle.name : AccountLifecycle -> Bytes
  | .active => ascii "active"
  | .paused => ascii "paused"
  | .draining => ascii "draining"

def accountLifecycle : Scalar AccountLifecycle :=
  .enumeration AccountLifecycle.name [.active, .paused, .draining]

def SourceKind.name : SourceKind -> Bytes
  | .nativeStore => ascii "native_store"
  | .oauth => ascii "oauth"
  | .browser => ascii "browser"
  | .explicit => ascii "explicit"

def sourceKind : Scalar SourceKind :=
  .enumeration SourceKind.name [.nativeStore, .oauth, .browser, .explicit]

def SourceStatus.name : SourceStatus -> Bytes
  | .connected => ascii "connected"
  | .detached => ascii "detached"
  | .disconnected => ascii "disconnected"

def sourceStatus : Scalar SourceStatus :=
  .enumeration SourceStatus.name [.connected, .detached, .disconnected]

def Purpose.name : Purpose -> Bytes
  | .request => ascii "request"
  | .accountRead => ascii "account_read"
  | .renewal => ascii "renewal"

def purpose : Scalar Purpose :=
  .enumeration Purpose.name [.request, .accountRead, .renewal]

def CredentialKind.name : CredentialKind -> Bytes
  | .oauthAccess => ascii "oauth_access"
  | .oauthRefresh => ascii "oauth_refresh"
  | .apiKey => ascii "api_key"
  | .cookieSession => ascii "cookie_session"
  | .browserBound => ascii "browser_bound"

def credentialKind : Scalar CredentialKind :=
  .enumeration CredentialKind.name
    [.oauthAccess, .oauthRefresh, .apiKey, .cookieSession, .browserBound]

def RenewalOwnership.name : RenewalOwnership -> Bytes
  | .external => ascii "external"
  | .adopted => ascii "adopted"
  | .omux => ascii "omux"

def renewalOwnership : Scalar RenewalOwnership :=
  .enumeration RenewalOwnership.name [.external, .adopted, .omux]

def GrantStatus.name : GrantStatus -> Bytes
  | .ready => ascii "ready"
  | .invalid => ascii "invalid"
  | .quarantined => ascii "quarantined"
  | .refreshing => ascii "refreshing"

def grantStatus : Scalar GrantStatus :=
  .enumeration GrantStatus.name [.ready, .invalid, .quarantined, .refreshing]

def MeasureUnit.name : MeasureUnit -> Bytes
  | .calls => ascii "calls"
  | .bytes => ascii "bytes"
  | .seconds => ascii "seconds"
  | .uploads => ascii "uploads"
  | .tokens => ascii "tokens"
  | .custom => ascii "custom"

def measureUnit : Scalar MeasureUnit :=
  .enumeration MeasureUnit.name [.calls, .bytes, .seconds, .uploads, .tokens, .custom]

def ObservationStatus.name : ObservationStatus -> Bytes
  | .ready => ascii "ready"
  | .unavailable => ascii "unavailable"
  | .unknown => ascii "unknown"

def observationStatus : Scalar ObservationStatus :=
  .enumeration ObservationStatus.name [.ready, .unavailable, .unknown]

def ObservationProvenance.name : ObservationProvenance -> Bytes
  | .providerApi => ascii "provider_api"
  | .nativeApplication => ascii "native_application"
  | .browserFetch => ascii "browser_fetch"
  | .browserPage => ascii "browser_page"
  | .userDeclared => ascii "user_declared"
  | .fixture => ascii "fixture"

def observationProvenance : Scalar ObservationProvenance :=
  .enumeration ObservationProvenance.name
    [.providerApi, .nativeApplication, .browserFetch, .browserPage, .userDeclared, .fixture]

def QuarantineReason.name : QuarantineReason -> Bytes
  | .unverifiedIdentity => ascii "unverified_identity"
  | .conflictingIdentity => ascii "conflicting_identity"

def quarantineReason : Scalar QuarantineReason :=
  .enumeration QuarantineReason.name [.unverifiedIdentity, .conflictingIdentity]

def JobKind.name : JobKind -> Bytes
  | .enrollment => ascii "enrollment"
  | .repair => ascii "repair"
  | .revocation => ascii "revocation"
  | .reconciliation => ascii "reconciliation"

def jobKind : Scalar JobKind :=
  .enumeration JobKind.name [.enrollment, .repair, .revocation, .reconciliation]

def JobStatus.name : JobStatus -> Bytes
  | .pending => ascii "pending"
  | .running => ascii "running"
  | .completed => ascii "completed"
  | .failed => ascii "failed"

def jobStatus : Scalar JobStatus :=
  .enumeration JobStatus.name [.pending, .running, .completed, .failed]

/-!
## Records
-/

def field {α β : Type} (name : String) (get : α -> β) (shape : Shape β) : Bytes × Shape α :=
  (ascii name, shape.comap get)

def scalar {α β : Type} (name : String) (get : α -> β) (kind : Scalar β) : Bytes × Shape α :=
  field name get (.ofScalar kind)

def text {α : Type} (name : String) (get : α -> Bytes) : Bytes × Shape α :=
  field name get (.rigid jsonSlice)

def texts {α : Type} (name : String) (get : α -> List Bytes) : Bytes × Shape α :=
  field name get (.rigid (fun items => jsonArray (items.map jsonSlice)))

def purposesJson (purposes : List Purpose) : Bytes :=
  jsonArray (purposes.map (fun purpose => jsonString purpose.name))

def identityShape : Shape Identity :=
  .record
    [text "provider" Identity.provider, text "issuer" Identity.issuer,
      text "subject" Identity.subject, text "tenant" Identity.tenant,
      scalar "verified" Identity.verified boolean]

def accountShape : Shape Account :=
  .record
    [text "id" Account.id, field "identity" Account.identity identityShape,
      text "label" Account.label, text "account_type" Account.accountType,
      scalar "lifecycle" Account.lifecycle accountLifecycle, texts "source_ids" Account.sourceIds]

def sourceShape : Shape Source :=
  .record
    [text "id" Source.id, text "provider" Source.provider, text "label" Source.label,
      scalar "kind" Source.kind sourceKind, scalar "status" Source.status sourceStatus,
      scalar "authorized_at" Source.authorizedAt i64,
      scalar "authorized_until" Source.authorizedUntil (optionalScalar i64)]

def grantShape : Shape Grant :=
  .record
    [text "id" Grant.id, text "account_id" Grant.accountId, text "source_id" Grant.sourceId,
      scalar "credential_kind" Grant.credentialKind credentialKind,
      scalar "ownership" Grant.ownership renewalOwnership,
      field "purposes" Grant.purposes (.rigid purposesJson), text "audience" Grant.audience,
      texts "scopes" Grant.scopes, scalar "generation" Grant.generation u64,
      scalar "status" Grant.status grantStatus,
      scalar "provider_expires_at" Grant.providerExpiresAt (optionalScalar i64),
      scalar "custody_expires_at" Grant.custodyExpiresAt (optionalScalar i64)]

def resourceShape : Shape Resource :=
  .record
    [text "kind" Resource.kind, text "target" Resource.target,
      scalar "unit" Resource.unit measureUnit, text "unit_name" Resource.unitName,
      text "scope" Resource.scope]

def observationShape : Shape Observation :=
  .record
    [text "account_id" Observation.accountId, field "resource" Observation.resource resourceShape,
      text "bucket_id" Observation.bucketId,
      scalar "remaining" Observation.remaining (f64 format),
      scalar "limit" Observation.limit (optionalScalar (f64 format)),
      scalar "window_start" Observation.windowStart i64,
      scalar "window_end" Observation.windowEnd i64,
      scalar "observed_at" Observation.observedAt i64,
      scalar "expires_at" Observation.expiresAt i64,
      scalar "status" Observation.status observationStatus,
      scalar "provenance" Observation.provenance observationProvenance]

/-- The owner id is an array of bytes and so no scalar. -/
def nativeRefShape : Shape NativeRef :=
  .record
    [text "owner_id" (fun ref => ref.ownerId.toList),
      scalar "adapter_epoch" NativeRef.adapterEpoch u64,
      scalar "endpoint_generation" NativeRef.endpointGeneration u64,
      scalar "thread_instance_generation" NativeRef.threadInstanceGeneration u64,
      scalar "attachment_generation" NativeRef.attachmentGeneration u64]

def bindingShape : Shape Binding :=
  .record
    [text "id" Binding.id, text "application" Binding.application,
      text "session_id" Binding.sessionId,
      field "native_ref" Binding.nativeRef (.optional nativeRefShape),
      text "account_id" Binding.accountId, text "grant_id" Binding.grantId,
      scalar "grant_generation" Binding.grantGeneration u64,
      scalar "route_generation" Binding.routeGeneration u64,
      scalar "in_flight" Binding.inFlight u32,
      scalar "last_used_revision" Binding.lastUsedRevision u64]

def leaseShape : Shape Lease :=
  .record
    [text "id" Lease.id, text "binding_id" Lease.bindingId,
      field "native_ref" Lease.nativeRef (.optional nativeRefShape),
      text "account_id" Lease.accountId, text "grant_id" Lease.grantId,
      scalar "grant_generation" Lease.grantGeneration u64,
      scalar "route_generation" Lease.routeGeneration u64, scalar "purpose" Lease.purpose purpose,
      text "audience" Lease.audience, texts "scopes" Lease.scopes,
      field "resource" Lease.resource (.optional resourceShape),
      scalar "required" Lease.required (f64 format),
      scalar "requires_capacity" Lease.requiresCapacity boolean,
      scalar "browser_context" Lease.browserContext boolean,
      scalar "started_at" Lease.startedAt i64, scalar "expires_at" Lease.expiresAt i64]

def tombstoneShape : Shape Tombstone :=
  .record
    [field "identity" Tombstone.identity identityShape, text "source_id" Tombstone.sourceId]

def quarantinedImportShape : Shape QuarantinedImport :=
  .record
    [text "source_id" QuarantinedImport.sourceId,
      text "candidate_id" QuarantinedImport.candidateId,
      field "identity" QuarantinedImport.identity identityShape,
      scalar "reason" QuarantinedImport.reason quarantineReason]

def jobShape : Shape Job :=
  .record
    [text "id" Job.id, scalar "kind" Job.kind jobKind, text "account_id" Job.accountId,
      scalar "status" Job.status jobStatus,
      scalar "operation_generation" Job.operationGeneration u64]

/-!
## Snapshots
-/

def snapshotSections : List (Section Snapshot) :=
  [.number (ascii "schema_version") (.ofScalar u32) Snapshot.schemaVersion,
    .number (ascii "revision") (.ofScalar u64) Snapshot.revision,
    .records (ascii "sources") sourceShape Snapshot.sources,
    .records (ascii "accounts") accountShape Snapshot.accounts,
    .records (ascii "grants") grantShape Snapshot.grants,
    .records (ascii "observations") (observationShape format) Snapshot.observations,
    .records (ascii "bindings") bindingShape Snapshot.bindings,
    .records (ascii "leases") (leaseShape format) Snapshot.leases,
    .records (ascii "tombstones") tombstoneShape Snapshot.tombstones,
    .records (ascii "quarantined_imports") quarantinedImportShape
      Snapshot.quarantinedImports, .records (ascii "jobs") jobShape Snapshot.jobs]

def Snapshot.json (self : Snapshot) : Bytes :=
  jsonObject ((snapshotSections format).map (fun part => (part.name, part.json self)))

end Omux.Domain
