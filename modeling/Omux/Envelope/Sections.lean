import Omux.Domain.Schema
import Omux.Library.Bounded

/-!
# Sections beside the domain

A recorder of lifecycle measurements is one fixed matrix of counters, so it has a longest
encoding; the refusals of browser enrollment are a list that only its own ledger bounds.
-/

namespace Omux.Envelope

open Library
open Domain (Scalar u64 i64 u32 boolean optionalScalar)
open Mutation (Digest)

/-!
## Lifecycle measurements
-/

inductive Os where
  | linux | macos | other | unknown
deriving DecidableEq

inductive Architecture where
  | x8664 | aarch64 | other | unknown
deriving DecidableEq

inductive Adapter where
  | none | codex | git | claude | unknown
deriving DecidableEq

inductive Evidence where
  | diagnostic | synthetic | nativeConformance | live
deriving DecidableEq

structure Stratum where
  os : Os := .unknown
  architecture : Architecture := .unknown
  adapter : Adapter := .none
  evidence : Evidence := .diagnostic

structure LifecycleTiming where
  latency : Vector UInt64 13 := Vector.replicate 13 0
  missingLatency : UInt64 := 0

structure LifecycleCell where
  count : UInt64 := 0
  causes : Vector UInt64 11 := Vector.replicate 11 0
  total : LifecycleTiming := {}
  localWork : LifecycleTiming := {}
  userProviderWait : LifecycleTiming := {}

structure LifecycleDay where
  utcDay : Option Int64 := none
  cells : Vector (Vector LifecycleCell 5) 6 := Vector.replicate 6 (Vector.replicate 5 {})

structure LifecycleRecorder where
  schemaVersion : UInt32 := 1
  startedAt : Int64
  lastRecordedAt : Int64
  stratum : Stratum
  days : Vector LifecycleDay 28 := Vector.replicate 28 {}
  clockAnomaly : Bool := false
  saturated : Bool := false

def maxLifecycleCheckpointBytes : Nat := 4 * 1024 * 1024

def Os.name : Os -> Bytes
  | .linux => ascii "linux"
  | .macos => ascii "macos"
  | .other => ascii "other"
  | .unknown => ascii "unknown"

def Architecture.name : Architecture -> Bytes
  | .x8664 => ascii "x86_64"
  | .aarch64 => ascii "aarch64"
  | .other => ascii "other"
  | .unknown => ascii "unknown"

def Adapter.name : Adapter -> Bytes
  | .none => ascii "none"
  | .codex => ascii "codex"
  | .git => ascii "git"
  | .claude => ascii "claude"
  | .unknown => ascii "unknown"

def Evidence.name : Evidence -> Bytes
  | .diagnostic => ascii "diagnostic"
  | .synthetic => ascii "synthetic"
  | .nativeConformance => ascii "native_conformance"
  | .live => ascii "live"

def os : Scalar Os :=
  .enumeration Os.name [.linux, .macos, .other, .unknown]

def architecture : Scalar Architecture :=
  .enumeration Architecture.name [.x8664, .aarch64, .other, .unknown]

def adapter : Scalar Adapter :=
  .enumeration Adapter.name [.none, .codex, .git, .claude, .unknown]

def evidence : Scalar Evidence :=
  .enumeration Evidence.name [.diagnostic, .synthetic, .nativeConformance, .live]

def counter : Bounded UInt64 :=
  .ofScalar u64 UInt64.toNat (fun n => decide_eq_true (Nat.le_pred_of_lt n.toNat_lt))

theorem i64_fits (n : Int64) : i64.fits n.toInt = true := by
  have hlow := n.le_toInt
  have hhigh := n.toInt_lt
  simp only [i64, Scalar.signed, bool_iff]
  omega

def timestamp : Bounded Int64 :=
  .ofScalar i64 Int64.toInt i64_fits

def optionalTimestamp : Bounded (Option Int64) :=
  .ofScalar (optionalScalar i64) (fun day => day.map Int64.toInt) (by
    intro day
    cases day with
    | none => rfl
    | some n => exact i64_fits n)

def member {α β : Type} (name : String) (get : α -> β) (part : Bounded β) : Bytes × Bounded α :=
  (ascii name, part.comap get)

def stratum : Bounded Stratum :=
  .record
    [(ascii "os", .ofScalar os Stratum.os (fun _ => rfl)),
      (ascii "architecture", .ofScalar architecture Stratum.architecture (fun _ => rfl)),
      (ascii "adapter", .ofScalar adapter Stratum.adapter (fun _ => rfl)),
      (ascii "evidence", .ofScalar evidence Stratum.evidence (fun _ => rfl))]

def lifecycleTiming : Bounded LifecycleTiming :=
  .record
    [member "latency" LifecycleTiming.latency (.array 13 counter),
      member "missing_latency" LifecycleTiming.missingLatency counter]

def lifecycleCell : Bounded LifecycleCell :=
  .record
    [member "count" LifecycleCell.count counter,
      member "causes" LifecycleCell.causes (.array 11 counter),
      member "total" LifecycleCell.total lifecycleTiming,
      member "local" LifecycleCell.localWork lifecycleTiming,
      member "user_provider_wait" LifecycleCell.userProviderWait lifecycleTiming]

def lifecycleDay : Bounded LifecycleDay :=
  .record
    [member "utc_day" LifecycleDay.utcDay optionalTimestamp,
      member "cells" LifecycleDay.cells (.array 6 (.array 5 lifecycleCell))]

def lifecycleRecorder : Bounded LifecycleRecorder :=
  .record
    [(ascii "schema_version", .ofScalar u32 (fun recorder => recorder.schemaVersion.toNat)
        (fun recorder => decide_eq_true (Nat.le_pred_of_lt recorder.schemaVersion.toNat_lt))),
      member "started_at" LifecycleRecorder.startedAt timestamp,
      member "last_recorded_at" LifecycleRecorder.lastRecordedAt timestamp,
      member "stratum" LifecycleRecorder.stratum stratum,
      member "days" LifecycleRecorder.days (.array 28 lifecycleDay),
      (ascii "clock_anomaly", .ofScalar boolean LifecycleRecorder.clockAnomaly
        (fun _ => rfl)),
      (ascii "saturated", .ofScalar boolean LifecycleRecorder.saturated (fun _ => rfl))]

def LifecycleRecorder.json (recorder : LifecycleRecorder) : Bytes :=
  lifecycleRecorder.json recorder

/-- The full matrix of saturated counters stays below its prepaid ceiling. -/
theorem LifecycleRecorder.length_json_le (recorder : LifecycleRecorder) :
    recorder.json.length <= maxLifecycleCheckpointBytes := by
  have hmost : lifecycleRecorder.most <= maxLifecycleCheckpointBytes := by decide +kernel
  exact (lifecycleRecorder.length_le recorder).trans hmost

/-!
## Refusals of browser enrollment
-/

namespace Browser

def maximumSnapshotBytes : Nat := 512 * 1024

def maxRecords : Nat := 256

inductive Refusal where
  | needsProviderAdapterProof
deriving DecidableEq

inductive Cause where
  | none | timeout | busy | custodyUnavailable | protocolMismatch | hostSleep
  | operatorShutdown | observationGap | other | localCapacity | resultBound
deriving DecidableEq

structure Record where
  contextKey : Digest
  id : Vector UInt8 64 := Vector.replicate 64 0
  idLen : UInt8
  intentFingerprint : Digest
  refusal : Refusal
  cause : Cause

structure Snapshot where
  version : Nat := 1
  records : List Record := []

def Refusal.name : Refusal -> Bytes
  | .needsProviderAdapterProof => ascii "needs_provider_adapter_proof"

def Cause.name : Cause -> Bytes
  | .none => ascii "none"
  | .timeout => ascii "timeout"
  | .busy => ascii "busy"
  | .custodyUnavailable => ascii "custody_unavailable"
  | .protocolMismatch => ascii "protocol_mismatch"
  | .hostSleep => ascii "host_sleep"
  | .operatorShutdown => ascii "operator_shutdown"
  | .observationGap => ascii "observation_gap"
  | .other => ascii "other"
  | .localCapacity => ascii "local_capacity"
  | .resultBound => ascii "result_bound"

def refusal : Scalar Refusal :=
  .enumeration Refusal.name [.needsProviderAdapterProof]

def cause : Scalar Cause :=
  .enumeration Cause.name [.none, .timeout, .busy, .custodyUnavailable, .protocolMismatch,
    .hostSleep, .operatorShutdown, .observationGap, .other, .localCapacity, .resultBound]

def bytes (n : Nat) : Bounded (Vector UInt8 n) where
  json value := jsonSlice value.toList
  most := 2 + 6 * n
  length_le value := by simpa using length_jsonSlice_le value.toList

def record : Bounded Record :=
  .record
    [member "context_key" Record.contextKey (bytes 32), member "id" Record.id (bytes 64),
      (ascii "id_len", .ofScalar u32 (fun self => self.idLen.toNat)
        (fun self => decide_eq_true (self.idLen.toNat_lt.le.trans (by decide)))),
      member "intent_fingerprint" Record.intentFingerprint (bytes 32),
      (ascii "refusal", .ofScalar refusal Record.refusal (fun _ => rfl)),
      (ascii "cause", .ofScalar cause Record.cause (fun _ => rfl))]

def Snapshot.json (self : Snapshot) : Bytes :=
  jsonObject
    [(ascii "version", decimal self.version),
      (ascii "records", jsonArray (self.records.map record.json))]

/-- A full table of the ledger stays within its limit. -/
theorem Snapshot.length_json_le {self : Snapshot} (hversion : self.version = 1)
    (hrecords : self.records.length <= maxRecords) : self.json.length <= maximumSnapshotBytes := by
  have hmost : record.most <= 1024 := by decide +kernel
  have hsum := sum_map_le (fun item => (record.length_le item).trans hmost) self.records
  have hnames : objectOverhead [ascii "version", ascii "records"] = 23 := by decide +kernel
  rw [Snapshot.json, hversion, length_jsonObject_names]
  simp only [List.map_cons, List.map_nil, List.sum_cons, List.sum_nil, hnames, length_jsonArray,
    List.map_map, List.length_map, Function.comp_def, maximumSnapshotBytes, maxRecords] at *
  have hone : (decimal 1).length = 1 := by decide
  omega

end Browser
end Omux.Envelope
