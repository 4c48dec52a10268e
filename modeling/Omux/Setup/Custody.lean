import Omux.Setup.Transaction

/-!
# Custody of the config

What the durable parts of a setup have to do with each other at any moment, and where
the recorded transaction leads.
-/

namespace Omux.Setup

open Library

/-!
## Where a disk stands and where its record leads
-/

structure Standing where
  files : Path -> Option File
  capability : Option Bytes
  phase : Option Phase

def Disk.record (disk : Disk) : Option Record :=
  disk.registry.bind (fun bytes => (decodedRecord bytes).toOption)

def Disk.standing (disk : Disk) : Standing :=
  { files := disk.files, capability := disk.capability,
    phase := disk.record.map (fun record => record.phase) }

def Phase.finished : Phase -> Phase
  | .pendingInstall => .installed
  | .pendingRemove => .removed
  | phase => phase

section

variable (platform : Platform)

def Phase.capability : Phase -> Option Bytes
  | .pendingInstall | .installed => some platform.capability.toList
  | .pendingRemove | .removed => none

def replacement (record : Record) (current : Snapshot) : Option File :=
  if record.afterExisted then
    some { regular := true, mode := record.afterMode,
           gid := current.gid.getD platform.group, bytes := record.after }
  else none

def finish (record : Record) (files : Path -> Option File) : Standing :=
  { files, capability := record.phase.capability platform,
    phase := some record.phase.finished }

def settleRecord (disk : Disk) (record : Record) : Standing :=
  match snapshot (disk.files record.configPath) with
  | .error _ => disk.standing
  | .ok current =>
    if record.isAfter current then finish platform record disk.files
    else if record.isBefore current then
      finish platform record (Function.update disk.files record.configPath
        (replacement platform record current))
    else disk.standing

/-- Where the recorded transaction ends when nothing interferes. -/
def settle (disk : Disk) : Standing :=
  match disk.record with
  | none => disk.standing
  | some record => if record.phase.pending then settleRecord platform disk record
      else disk.standing

end

/-!
## Invariants
-/

section

variable (platform : Platform)

def Fits (path : Path) : Prop :=
  forall operation, checkCompletion operation path = .ok ()

structure Record.Valid (record : Record) : Prop where
  encodable : record.Encodable
  capability : record.capability = platform.capability
  fits : Fits record.configPath
  after : record.afterExisted = false -> record.after = []

def CapabilityFits (capability : Option Bytes) : Option Phase -> Prop
  | none | some .removed => capability = none
  | some .installed => capability = some platform.capability.toList
  | some .pendingInstall | some .pendingRemove =>
    capability = none ∨ capability = some platform.capability.toList

/-- A temporary that a later attempt can take over. -/
structure Usable (record : Record) (file : File) : Prop where
  regular : file.regular = true
  mode : file.mode &&& 0o7022 = 0
  length : file.bytes.length <= maximumConfig
  group : record.beforeExisted = false -> file.gid = platform.group

structure Custody (loaded : Option Record) (disk : Disk) : Prop where
  registry : disk.registry = loaded.map Record.bytes
  valid : forall record, loaded = some record -> record.Valid platform
  capability : CapabilityFits platform disk.capability
    (loaded.map (fun record => record.phase))
  temporaries : forall path transaction file, disk.temporaries path transaction = some file ->
    exists record, loaded = some record ∧ record.phase.pending = true ∧
      path = record.configPath ∧ transaction = record.transaction ∧
      Usable platform record file

end

section

variable (files : Path -> Option File)

def replay : List Entry -> Path -> Option File
  | [] => files
  | .replaced record next :: older => Function.update (replay older) record.configPath next
  | .edited path file :: older => Function.update (replay older) path file
  | _ :: older => replay older

def lastSaved : List Entry -> Option Record
  | [] => none
  | .saved record :: _ => some record
  | _ :: older => lastSaved older

/-- The replacement leads from the recorded before state to the recorded after state. -/
def ExactReplacement (record : Record) (next : Option File) (older : List Entry) : Prop :=
  lastSaved older = some record ∧ record.phase.pending = true ∧
    (exists current, snapshot (replay files older record.configPath) = .ok current ∧
      record.isBefore current = true) ∧
    exists final, snapshot next = .ok final ∧ record.isAfter final = true

def AllExact : List Entry -> Prop
  | [] => True
  | .replaced record next :: older => ExactReplacement files record next older ∧ AllExact older
  | _ :: older => AllExact older

/-- The log tells what is on the disk. -/
structure History (loaded : Option Record) (disk : Disk) : Prop where
  saved : lastSaved disk.log = loaded
  replayed : disk.files = replay files disk.log
  exact : AllExact files disk.log

end

/-!
## Snapshots
-/

theorem validMode_bits {mode : Nat} (h : validMode mode = true) :
    mode &&& 0o7022 = 0 ∧ mode &&& 0o777 = mode := by
  have hall : forall mode : Fin 512, mode.val &&& 0o022 = 0 ->
      mode.val &&& 0o7022 = 0 ∧ mode.val &&& 0o777 = mode.val := by decide +kernel
  simp only [validMode, bool_iff] at h
  exact hall ⟨mode, by omega⟩ h.2

theorem snapshot_some {file : File} (hregular : file.regular = true)
    (hmode : file.mode &&& 0o7022 = 0) (hlength : file.bytes.length <= maximumConfig) :
    snapshot (some file) = .ok { existed := true, mode := file.mode &&& 0o777,
                                 gid := some file.gid, bytes := file.bytes } := by
  simp only [snapshot, validateFile, hregular, hmode, decide_eq_false (not_lt.mpr hlength)]
  rfl

theorem snapshot_inv {file : Option File} {current : Snapshot} (h : snapshot file = .ok current) :
    validMode current.mode = true ∧ current.bytes.length <= maximumConfig ∧
      (current.existed = false -> current.bytes = []) ∧
      (current.existed = false ↔ current.gid = none) := by
  cases file with
  | none =>
    rw [snapshot, pure_eq_ok] at h
    rw [<- h]
    exact ⟨by decide, Nat.zero_le _, fun _ => rfl, by simp⟩
  | some file =>
    simp only [snapshot, validateFile, ok_iff, bool_iff, not_lt] at h
    rcases h with ⟨_, ⟨_, hmode⟩, _, hlength, rfl⟩
    refine ⟨?_, hlength, nofun, by simp⟩
    have hbits : file.mode &&& 0o022 = 0 := by
      have hand := congrArg (fun bits => bits &&& 0o022) hmode
      simpa [Nat.and_assoc] using hand
    simp only [validMode, bool_iff]
    refine ⟨Nat.and_le_right, ?_⟩
    rw [Nat.and_assoc]
    exact hbits

theorem matchesState_inv {current : Snapshot} {existed : Bool} {mode : Nat} {bytes : Bytes}
    (h : current.matchesState existed mode bytes = true) :
    current.existed = existed ∧ current.bytes = bytes := by
  simp only [Snapshot.matchesState, bool_iff] at h
  exact ⟨h.1.1, h.2⟩

section

variable {platform : Platform} {record : Record}

theorem snapshot_replacement (hvalid : record.Valid platform) (current : Snapshot) :
    exists final, snapshot (replacement platform record current) = .ok final ∧
      record.isAfter final = true := by
  unfold replacement
  cases hafter : record.afterExisted with
  | false =>
    refine ⟨_, rfl, ?_⟩
    simp [Record.isAfter, Snapshot.matchesState, hafter, hvalid.after hafter]
  | true =>
    have hbits := validMode_bits hvalid.encodable.afterMode
    have hlength : record.after.length <= maximumConfig := by
      have hlens := hvalid.encodable.lengths
      simp only [Record.fields, fieldLimits, List.forall₂_cons] at hlens
      exact hlens.2.2.2.2.1
    refine ⟨_, snapshot_some rfl hbits.1 hlength, ?_⟩
    simp [Record.isAfter, Snapshot.matchesState, hafter, hbits.2]

theorem Usable.snapshot_ok {file : File} (h : Usable platform record file) :
    exists current, snapshot (some file) = .ok current ∧ current.existed = true :=
  ⟨_, snapshot_some h.regular h.mode h.length, rfl⟩

end

/-!
## What settles
-/

section

variable {platform : Platform} {loaded : Option Record} {record : Record} {disk : Disk}

theorem Custody.record_eq (h : Custody platform loaded disk) : disk.record = loaded := by
  cases loaded with
  | none =>
    rw [Disk.record, h.registry]
    rfl
  | some record =>
    have hdecoded := (h.valid record rfl).encodable.decodedRecord_bytes
    rw [Disk.record, h.registry, Option.map_some, Option.bind_some, hdecoded]
    rfl

theorem settle_eq_standing (hrecord : disk.record = loaded)
    (hidle : forall record, loaded = some record -> record.phase.pending = false) :
    settle platform disk = disk.standing := by
  unfold settle
  rw [hrecord]
  cases loaded with
  | none => rfl
  | some record => simp [hidle record rfl]

section

variable (hrecord : disk.record = some record)
include hrecord

theorem settle_pending (hpend : record.phase.pending = true) :
    settle platform disk = settleRecord platform disk record := by
  simp [settle, hrecord, hpend]

section

variable {current : Snapshot} (hpend : record.phase.pending = true)
    (hcurrent : snapshot (disk.files record.configPath) = .ok current)
include hpend hcurrent

theorem settle_after
    (hafter : record.isAfter current = true) :
    settle platform disk = finish platform record disk.files := by
  simp [settle_pending hrecord hpend, settleRecord, hcurrent, hafter]

theorem settle_before
    (hafter : record.isAfter current = false) (hbefore : record.isBefore current = true) :
    settle platform disk = finish platform record (Function.update disk.files
      record.configPath (replacement platform record current)) := by
  simp [settle_pending hrecord hpend, settleRecord, hcurrent, hafter, hbefore]

end

theorem settle_conflict {current : Snapshot}
    (hcurrent : snapshot (disk.files record.configPath) = .ok current)
    (hafter : record.isAfter current = false) (hbefore : record.isBefore current = false) :
    settle platform disk = disk.standing := by
  unfold settle
  rw [hrecord]
  simp [settleRecord, hcurrent, hafter, hbefore]

theorem settle_unreadable {err : SetupError}
    (hcurrent : snapshot (disk.files record.configPath) = .error err) :
    settle platform disk = disk.standing := by
  unfold settle
  rw [hrecord]
  simp [settleRecord, hcurrent]

end

end

end Omux.Setup
