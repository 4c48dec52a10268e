import Omux.Envelope.Sections
import Omux.Native.Owner

/-!
# The envelope

One document holds everything that the engine commits.  The other ledgers enter it as
texts that the serializer has written.
-/

namespace Omux.Envelope

open Library
open Admission (Key Kind Counts CountField Credit)
open Domain (FloatFormat u32 u64 field scalar text)
open Native (NativeRef)

/-- A section that is only carried along, as its encoding. -/
structure Encoded where
  text : Bytes

structure Policy where
  stickyRoutes : Bool := true
  warmAlternatives : Bool := true

structure SourceDescription where
  sourceId : Bytes
  provider : Bytes
  label : Bytes := []
  path : Bytes := []

structure ImportSourceAuthority where
  sourceId : Bytes
  generation : Nat := 1

structure OutcomeIntent where
  key : Key
  ownerId : Bytes
  secondaryId : Bytes := []
  sourceId : Bytes := []
  sourceGeneration : Nat := 0
  provider : Bytes := []
  label : Bytes := []
  grantGeneration : Nat := 0
  planBytes : Nat
  planCounts : Counts := Counts.zero
  usedBytes : Nat := 0
  usedCounts : Counts := Counts.zero
  nativeRef : Option NativeRef := none

structure Persisted where
  schemaVersion : Nat := 1
  lifecycleMeasurements : Option LifecycleRecorder := none
  browserAttemptAuthority : Option Browser.Snapshot := none
  state : Domain.Snapshot := {}
  policy : Policy := {}
  installedIntegrations : List Bytes := []
  sourceDescriptions : List SourceDescription := []
  adapterEpochs : Vector Nat 4 := .replicate 4 1
  requestAuthority : Encoded
  mutationAuthority : Encoded
  snapshotAdmission : Admission.Snapshot := {}
  importSourceAuthority : List ImportSourceAuthority := []
  importForgetEpoch : Nat := 0
  outcomeIntents : List OutcomeIntent := []
  maintenanceGrowthBytes : Option Nat := none
  nativeOwnerAuthority : Native.Snapshot := {}
  nativeRegistry : Option Encoded := none
  measuredCodexRuntime : Option Encoded := none

/-!
## Shapes of keys, counts and intents
-/

def Kind.name : Kind -> Bytes
  | .mutation => ascii "mutation"
  | .request => ascii "request"
  | .importing => ascii "import"
  | .observation => ascii "observation"
  | .rotation => ascii "rotation"
  | .nativeRegistration => ascii "native_registration"
  | .nativeDetach => ascii "native_detach"

def kind : Domain.Scalar Kind :=
  .enumeration Kind.name
    [.mutation, .request, .importing, .observation, .rotation, .nativeRegistration, .nativeDetach]

def keyShape : Shape Key :=
  .record
    [scalar "kind" Key.kind kind, text "id" (fun key => key.id.toList),
      scalar "generation" Key.generation u64]

def CountField.name : CountField -> Bytes
  | .sources => ascii "sources"
  | .accounts => ascii "accounts"
  | .grants => ascii "grants"
  | .observations => ascii "observations"
  | .bindings => ascii "bindings"
  | .leases => ascii "leases"
  | .tombstones => ascii "tombstones"
  | .quarantinedImports => ascii "quarantined_imports"
  | .jobs => ascii "jobs"
  | .sourceDescriptions => ascii "source_descriptions"
  | .sourceLinks => ascii "source_links"
  | .nativeOwners => ascii "native_owners"
  | .nativeAuthorityRecords => ascii "native_authority_records"

def countMember (part : CountField) : Bytes × Shape Counts :=
  (CountField.name part, (Shape.ofScalar u64).comap (fun counts => counts part))

def countsShape : Shape Counts :=
  .record (CountField.all.map countMember)

def outcomeIntentShape : Shape OutcomeIntent :=
  .record
    [field "key" OutcomeIntent.key keyShape, text "owner_id" OutcomeIntent.ownerId,
      text "secondary_id" OutcomeIntent.secondaryId, text "source_id" OutcomeIntent.sourceId,
      scalar "source_generation" OutcomeIntent.sourceGeneration u64,
      text "provider" OutcomeIntent.provider, text "label" OutcomeIntent.label,
      scalar "grant_generation" OutcomeIntent.grantGeneration u64,
      scalar "plan_bytes" OutcomeIntent.planBytes u64,
      field "plan_counts" OutcomeIntent.planCounts countsShape,
      scalar "used_bytes" OutcomeIntent.usedBytes u64,
      field "used_counts" OutcomeIntent.usedCounts countsShape,
      field "native_ref" OutcomeIntent.nativeRef (.optional Domain.nativeRefShape)]

def importSourceAuthorityShape : Shape ImportSourceAuthority :=
  .record
    [text "source_id" ImportSourceAuthority.sourceId,
      scalar "generation" ImportSourceAuthority.generation u64]

/-!
## Encodings
-/

def Credit.json (credit : Credit) : Bytes :=
  jsonObject
    [(ascii "key", keyShape.json credit.key), (ascii "bytes", decimal credit.bytes),
      (ascii "counts", countsShape.json credit.counts), (ascii "state", credit.state.json)]

def admissionJson (saved : Admission.Snapshot) : Bytes :=
  jsonObject
    [(ascii "version", decimal saved.version),
      (ascii "credits", jsonArray (saved.credits.map Credit.json))]

def Policy.json (self : Policy) : Bytes :=
  jsonObject
    [(ascii "sticky_routes", jsonBool self.stickyRoutes),
      (ascii "warm_alternatives", jsonBool self.warmAlternatives)]

def SourceDescription.json (self : SourceDescription) : Bytes :=
  jsonObject
    [(ascii "source_id", jsonSlice self.sourceId), (ascii "provider", jsonSlice self.provider),
      (ascii "label", jsonSlice self.label), (ascii "path", jsonSlice self.path)]

namespace Persisted

def fields (format : FloatFormat) (self : Persisted) : List (Bytes × Bytes) :=
  [(ascii "schema_version", decimal self.schemaVersion), (ascii "lifecycle_measurements",
      jsonOption LifecycleRecorder.json self.lifecycleMeasurements),
    (ascii "browser_attempt_authority",
      jsonOption Browser.Snapshot.json self.browserAttemptAuthority),
    (ascii "state", self.state.json format), (ascii "policy", self.policy.json),
    (ascii "installed_integrations", jsonArray (self.installedIntegrations.map jsonSlice)),
    (ascii "source_descriptions", jsonArray (self.sourceDescriptions.map SourceDescription.json)),
    (ascii "adapter_epochs", jsonArray (self.adapterEpochs.toList.map decimal)),
    (ascii "request_authority", self.requestAuthority.text),
    (ascii "mutation_authority", self.mutationAuthority.text),
    (ascii "snapshot_admission", admissionJson self.snapshotAdmission),
    (ascii "import_source_authority",
      jsonArray (self.importSourceAuthority.map importSourceAuthorityShape.json)),
    (ascii "import_forget_epoch", decimal self.importForgetEpoch),
    (ascii "outcome_intents", jsonArray (self.outcomeIntents.map outcomeIntentShape.json)),
    (ascii "maintenance_growth_bytes", jsonOption decimal self.maintenanceGrowthBytes),
    (ascii "native_owner_authority", self.nativeOwnerAuthority.json),
    (ascii "native_registry", jsonOption Encoded.text self.nativeRegistry),
    (ascii "measured_codex_runtime", jsonOption Encoded.text self.measuredCodexRuntime)]

def json (format : FloatFormat) (self : Persisted) : Bytes :=
  jsonObject (self.fields format)

end Persisted
end Omux.Envelope
