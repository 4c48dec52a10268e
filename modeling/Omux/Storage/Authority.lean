import Omux.Library.Fence
import Omux.Storage.Envelope

/-!
# The recovery authority

A small authenticated file next to the database holds the checkpoint of the last
admitted mutation.  It is replaced before the database commits.
-/

namespace Omux.Storage

open Library

def maxInt64 : Nat := 2 ^ 63 - 1
def maxUInt64 : Nat := 2 ^ 64 - 1

structure Root where
  keyId : Bytes
  key : Block

structure Checkpoint where
  installation : Block
  sequence : Nat
  nonce : Block
  snapshotRevision : Nat
  snapshotDigest : Block

namespace Checkpoint

def fresh (installation nonce : Block) (revision : Nat) (digest : Block) : Result Checkpoint := do
  failIf (revision != 0) .invalidRecoveryTransition
  pure
    { installation := installation
      sequence := 0
      nonce := nonce
      snapshotRevision := revision
      snapshotDigest := digest }

def successor (self : Checkpoint) (nonce : Block) (revision : Nat) (digest : Block) :
    Result Checkpoint := do
  failIf (decide (revision < self.snapshotRevision) || decide (maxInt64 < revision))
    .invalidRecoveryTransition
  failIf (decide (maxUInt64 <= self.sequence)) .recoverySequenceExhausted
  pure
    { self with
      sequence := self.sequence + 1
      nonce := nonce
      snapshotRevision := revision
      snapshotDigest := digest }

def eql (self other : Checkpoint) : Bool :=
  self.sequence == other.sequence && self.snapshotRevision == other.snapshotRevision &&
    self.installation == other.installation && self.nonce == other.nonce &&
    self.snapshotDigest == other.snapshotDigest

def verify (self database : Checkpoint) : Result Unit := do
  failIf (self.installation != database.installation) .wrongRecoveryInstallation
  failIf (decide (database.sequence < self.sequence)) .recoveryRollbackDetected
  failIf (!self.eql database) .recoveryCheckpointMismatch

/-- The counters fit the eight bytes that the file has for each. -/
def Fits (self : Checkpoint) : Prop :=
  self.sequence <= maxInt64 ∧ self.snapshotRevision <= maxInt64

theorem eql_eq_true {self other : Checkpoint} : self.eql other = true ↔ self = other := by
  cases self
  cases other
  simp only [eql, bool_iff, mk.injEq]
  constructor
  · intro h
    rcases h with ⟨⟨⟨⟨hseq, hrev⟩, hinstallation⟩, hnonce⟩, hdigest⟩
    exact ⟨hinstallation, hseq, hnonce, hrev, hdigest⟩
  · intro h
    rcases h with ⟨hinstallation, hseq, hnonce, hrev, hdigest⟩
    exact ⟨⟨⟨⟨hseq, hrev⟩, hinstallation⟩, hnonce⟩, hdigest⟩

theorem verify_eq_ok {self database : Checkpoint} :
    self.verify database = .ok () ↔ self = database := by
  constructor
  · intro h
    simp only [verify, ok_iff, bool_iff] at h
    rcases h with ⟨_, _, _, _, heql⟩
    exact eql_eq_true.mp heql
  · intro h
    simp [verify, h, eql_eq_true.mpr, bind_ok]

theorem successor_inv {self next : Checkpoint} {nonce : Block} {revision : Nat}
    {digest : Block} (h : self.successor nonce revision digest = .ok next) :
    next.sequence = self.sequence + 1 ∧ next.snapshotRevision <= maxInt64 := by
  simp only [successor, ok_iff, bool_iff] at h
  rcases h with ⟨_, ⟨_, hrev⟩, _, _, rfl⟩
  exact ⟨rfl, Nat.le_of_not_lt hrev⟩

end Checkpoint

/-!
## The file
-/

def authorityMagic : Bytes := ascii "OMUXR002"
def legacyMagic : Bytes := ascii "OMUXR001"
def legacyRecordSize : Nat := 112
def payloadSize : Nat := 120
def recordSize : Nat := 152

section Codec

variable (platform : Platform)

def authenticate (root : Root) (payload : Bytes) : Block :=
  platform.hmacSha256 root.key
    (ascii "omux recovery authority v2\x00" ++ littleEndian 4 root.keyId.length ++
      root.keyId ++ payload)

def payloadFields (checkpoint : Checkpoint) : List Bytes :=
  [authorityMagic, checkpoint.installation.toList, littleEndian 8 checkpoint.sequence,
    checkpoint.nonce.toList, littleEndian 8 checkpoint.snapshotRevision,
    checkpoint.snapshotDigest.toList]

def encodeRecord (root : Root) (checkpoint : Checkpoint) : Bytes :=
  let payload := (payloadFields checkpoint).flatten
  payload ++ (authenticate platform root payload).toList

def decodeRecord (root : Root) (bytes : Bytes) : Result Checkpoint := do
  failIf (bytes.length != recordSize && bytes.length != legacyRecordSize)
    .invalidRecoveryAuthority
  failIf (bytes.length == legacyRecordSize && bytes.take 8 == legacyMagic)
    .recoveryMigrationRequired
  failIf (bytes.length != recordSize) .invalidRecoveryAuthority
  match splitFields [8, 32, 8, 32, 8, 32, 32] bytes with
  | [magic, installation, sequence, nonce, revision, digest, mac] => do
    failIf (magic != authorityMagic) .invalidRecoveryAuthority
    failIf (authenticate platform root (bytes.take payloadSize) != arrayOf 32 mac)
      .recoveryAuthenticationFailed
    failIf (decide (maxInt64 < fromLittleEndian revision)) .invalidRecoveryAuthority
    pure
      { installation := arrayOf 32 installation
        sequence := fromLittleEndian sequence
        nonce := arrayOf 32 nonce
        snapshotRevision := fromLittleEndian revision
        snapshotDigest := arrayOf 32 digest }
  | _ => .error .invalidRecoveryAuthority

end Codec

/-- How far a replacement of the file gets. -/
inductive Publish where
  | done
  | failed (renamed : Bool) (err : StoreError)

structure FileAuthority where
  root : Root
  poisoned : Bool := false

namespace FileAuthority

variable (platform : Platform)

variable (self : FileAuthority)

def read (file : Cell Bytes) : Result Checkpoint := do
  failIf self.poisoned .recoveryAuthorityPoisoned
  let bytes <- orFail file.visible .missingRecoveryAuthority
  decodeRecord platform self.root bytes

/-- A failure after the renaming leaves a replacement that may not be durable. -/
def publish (file : Cell Bytes) (checkpoint : Checkpoint)
    (outcome : Publish) : Cell Bytes × FileAuthority × Result Unit :=
  if self.poisoned then (file, self, .error .recoveryAuthorityPoisoned)
  else
    let bytes := encodeRecord platform self.root checkpoint
    match outcome with
    | .done => (file.publish bytes, self, .ok ())
    | .failed renamed err =>
      (if renamed then file.rename bytes else file, { self with poisoned := true }, .error err)

def initializeFile (file : Cell Bytes) (checkpoint : Checkpoint)
    (outcome : Publish) : Cell Bytes × FileAuthority × Result Unit :=
  if checkpoint.sequence != 0 || checkpoint.snapshotRevision != 0 then
    (file, self, .error .invalidRecoveryTransition)
  else
    match self.read platform file with
    | .error .missingRecoveryAuthority => self.publish platform file checkpoint outcome
    | .error err => (file, self, .error err)
    | .ok _ => (file, self, .error .recoveryAuthorityAlreadyInitialized)

def validTransition (expected next : Checkpoint) : Bool :=
  expected.installation == next.installation && expected.sequence != maxUInt64 &&
    next.sequence == expected.sequence + 1 && expected.nonce != next.nonce &&
    decide (expected.snapshotRevision <= next.snapshotRevision) &&
    decide (next.snapshotRevision <= maxInt64)

def reserve (file : Cell Bytes) (expected next : Checkpoint)
    (outcome : Publish) : Cell Bytes × FileAuthority × Result Unit :=
  let verified : Result Unit := do
    let found <- self.read platform file
    found.verify expected
    failIf (!validTransition expected next) .invalidRecoveryTransition
  match verified with
  | .error err => (file, self, .error err)
  | .ok _ => self.publish platform file next outcome

end FileAuthority

/-!
## What the file can hold
-/

variable {platform : Platform}

theorem splitFields_record (root : Root) (checkpoint : Checkpoint) :
    splitFields [8, 32, 8, 32, 8, 32, 32] (encodeRecord platform root checkpoint) =
      payloadFields checkpoint ++
        [(authenticate platform root (payloadFields checkpoint).flatten).toList] := by
  have hmagic : authorityMagic.length = 8 := by decide
  have hsplit := splitFields_flatten (payloadFields checkpoint ++
    [(authenticate platform root (payloadFields checkpoint).flatten).toList])
  simpa [payloadFields, hmagic, encodeRecord] using hsplit

/-- A record is only ever read as the checkpoint that was written. -/
theorem decodeRecord_encodeRecord {root root' : Root} {checkpoint found : Checkpoint}
    (hfits : checkpoint.Fits)
    (h : decodeRecord platform root' (encodeRecord platform root checkpoint) = .ok found) :
    found = checkpoint := by
  have hseq : checkpoint.sequence < 256 ^ 8 :=
    Nat.lt_of_le_of_lt hfits.left (by decide)
  have hrev : checkpoint.snapshotRevision < 256 ^ 8 :=
    Nat.lt_of_le_of_lt hfits.right (by decide)
  unfold decodeRecord at h
  rw [splitFields_record] at h
  simp only [payloadFields, List.cons_append, List.nil_append, ok_iff] at h
  rcases h with ⟨_, _, _, _, _, _, _, _, _, _, _, _, rfl⟩
  simp [arrayOf_toList, fromLittleEndian_littleEndian hseq, fromLittleEndian_littleEndian hrev]

/-- What an attempt to replace the file leaves. -/
inductive Publication (file : Cell Bytes) (bytes : Bytes) :
    Cell Bytes -> Result Unit -> Prop where
  | refused (err : StoreError) : Publication file bytes file (.error err)
  | renamed (err : StoreError) : Publication file bytes (file.rename bytes) (.error err)
  | published : Publication file bytes (file.publish bytes) (.ok ())

namespace FileAuthority

theorem publish_publication (self : FileAuthority) (file : Cell Bytes)
    (checkpoint : Checkpoint) (outcome : Publish) :
    Publication file (encodeRecord platform self.root checkpoint)
      (self.publish platform file checkpoint outcome).1
      (self.publish platform file checkpoint outcome).2.2 := by
  unfold publish
  split
  · exact .refused _
  · cases outcome with
    | done => exact .published
    | failed renamed err =>
      cases renamed with
      | true => exact .renamed err
      | false => exact .refused err

theorem read_inv {self : FileAuthority} {file : Cell Bytes} {found : Checkpoint}
    (h : self.read platform file = .ok found) : exists bytes, file.visible = some bytes ∧
      decodeRecord platform self.root bytes = .ok found := by
  simp only [read, ok_iff] at h
  rcases h with ⟨_, _, bytes, hbytes, hdecode⟩
  exact ⟨bytes, hbytes, hdecode⟩

theorem decodeRecord_ne_missing (root : Root) (bytes : Bytes) :
    decodeRecord platform root bytes ≠ .error .missingRecoveryAuthority := by
  intro h
  simp only [decodeRecord, bind_eq_error, failIf_eq_error] at h
  rcases h with h | ⟨_, _, h | ⟨_, _, h | ⟨_, _, h⟩⟩⟩
  · cases h.right
  · cases h.right
  · cases h.right
  · split at h
    · simp only [bind_eq_error, failIf_eq_error] at h
      rcases h with h | ⟨_, _, h | ⟨_, _, h | ⟨_, _, h⟩⟩⟩
      · cases h.right
      · cases h.right
      · cases h.right
      · cases h
    · cases h

theorem initializeFile_publication (self : FileAuthority) (file : Cell Bytes)
    (checkpoint : Checkpoint) (outcome : Publish) : (file.visible = none ∧ Publication file
      (encodeRecord platform self.root checkpoint) (self.initializeFile platform file checkpoint
      outcome).1 (self.initializeFile platform file checkpoint outcome).2.2) ∨
    ((self.initializeFile platform file checkpoint outcome).1 = file ∧
      exists err, (self.initializeFile platform file checkpoint outcome).2.2 = .error err) := by
  unfold initializeFile
  split
  · exact Or.inr ⟨rfl, _, rfl⟩
  · split
    · rename_i hread
      left
      refine ⟨?_, publish_publication self file checkpoint outcome⟩
      cases hvisible : file.visible with
      | none => rfl
      | some =>
        unfold read at hread
        rw [hvisible] at hread
        cases hpois : self.poisoned with
        | true => cases hpois ▸ hread
        | false =>
          rw [hpois] at hread
          exact absurd hread (decodeRecord_ne_missing _ _)
    · exact Or.inr ⟨rfl, _, rfl⟩
    · exact Or.inr ⟨rfl, _, rfl⟩

theorem reserve_publication (self : FileAuthority) (file : Cell Bytes)
    (expected next : Checkpoint) (outcome : Publish) : (self.read platform file = .ok expected ∧
      Publication file (encodeRecord platform self.root next) (self.reserve platform file expected
      next outcome).1 (self.reserve platform file expected next outcome).2.2) ∨
    ((self.reserve platform file expected next outcome).1 = file ∧
      exists err, (self.reserve platform file expected next outcome).2.2 = .error err) := by
  unfold reserve
  dsimp only
  split
  · exact Or.inr ⟨rfl, _, rfl⟩
  · rename_i hverif
    left
    refine ⟨?_, publish_publication self file next outcome⟩
    simp only [ok_iff] at hverif
    rcases hverif with ⟨found, hread, _, hverify, _⟩
    have hfound : found = expected := Checkpoint.verify_eq_ok.mp hverify
    rw [<- hfound]
    exact hread

end FileAuthority

end Omux.Storage
