import Omux.Library.Run
import Omux.Storage.Tables

/-!
# The store

Every transaction that changes a table writes a new checkpoint row, reserves it in the
authority, and commits.  SQLite calls, the replacement of the authority and the process
itself can fail at any point; the last argument of each operation says where.
-/

namespace Omux.Storage

open Library

/-!
## The disk
-/

/-- A database file; `schema` is missing while one of the tables is. -/
structure Database where
  userVersion : Nat
  schema : Option Tables

def Database.blank : Database := { userVersion := 0, schema := none }
def Database.current (tables : Tables) : Database :=
  { userVersion := 3, schema := some tables }

inductive Cause where
  | initialised
  | mutated (root : Root) (mutation : Mutation)

structure Committed where
  tables : Tables
  checkpoint : Checkpoint
  stamped : tables.checkpoint = some checkpoint
  cause : Cause

def Committed.database (self : Committed) : Database := .current self.tables

/-- The files, and the databases that were ever committed, the newest first. -/
structure Disk where
  database : Option Database := none
  authority : Cell Bytes := {}
  history : List Committed := []

namespace Disk

def tables (self : Disk) : Option Tables :=
  self.database.bind Database.schema

def writeCheckpoint (tables : Tables) (checkpoint : Checkpoint) : Tables :=
  { tables with checkpoint := some checkpoint }

def commit (self : Disk) (tables : Tables) (checkpoint : Checkpoint) (cause : Cause) : Disk :=
  { self with
    database := some (.current (writeCheckpoint tables checkpoint))
    history :=
      { tables := writeCheckpoint tables checkpoint
        checkpoint := checkpoint
        stamped := rfl
        cause } :: self.history }

def setAuthority (self : Disk) (file : Cell Bytes) : Disk :=
  { self with authority := file }

def setDatabase (self : Disk) (database : Option Database) : Disk :=
  { self with database }

end Disk

/-!
## Mutations
-/

/-- How a COMMIT ends; a failed one may have taken effect. -/
inductive CommitEnd where
  | done
  | failed (durable : Bool) (err : StoreError)

/-- Where a transaction fails, if it does. -/
structure Faults where
  interrupted : Option StoreError := none
  rollbackFails : Bool := false
  publish : Publish := .done
  commit : CommitEnd := .done

structure Store where
  root : Root
  authority : FileAuthority
  checkpoint : Checkpoint
  poisoned : Bool := false

namespace Store

variable (platform : Platform)

variable (self : Store)

def poison : Store :=
  { self with poisoned := true }

def rollback (faults : Faults) : Store :=
  if faults.rollbackFails then self.poison else self

def snapshotCommitment (tables : Tables) : Result (Nat × Block) := do
  let row <- orFail tables.snapshot .recordMissing
  failIf (decide (maximumSnapshotBytes < row.metadata.length)) .snapshotTooLarge
  pure (row.revision, platform.sha256 row.metadata)

def nextCheckpoint (tables : Tables) (nonce : Block) : Result Checkpoint := do
  let commitment <- snapshotCommitment platform tables
  let next <- self.checkpoint.successor nonce commitment.1 commitment.2
  failIf (decide (maxInt64 < next.sequence)) .recoverySequenceExhausted
  pure next

/-- The fence that every change of the tables crosses. -/
def finishMutation (disk : Disk) (tables : Tables) (cause : Cause)
    (nonce : Block) (faults : Faults) : Disk × Store × Result Unit :=
  match self.nextCheckpoint platform tables nonce with
  | .error err => (disk, self.rollback faults, .error err)
  | .ok next =>
    match self.authority.reserve platform disk.authority self.checkpoint next
      faults.publish with
    | (file, authority, .error err) =>
      (disk.setAuthority file, poison { self with authority }, .error err)
    | (file, authority, .ok _) =>
      let reserved := disk.setAuthority file
      match faults.commit with
      | .done =>
        (reserved.commit tables next cause,
          { self with authority, checkpoint := next }, .ok ())
      | .failed durable err =>
        (if durable then reserved.commit tables next cause else reserved,
          poison { self with authority }, .error err)

def transact (disk : Disk) (mutation : Mutation) (nonce : Block)
    (faults : Faults) : Disk × Store × Result Reply :=
  if self.poisoned then (disk, self, .error .databasePoisoned)
  else
    match mutation.prepare platform self.root with
    | .error err => (disk, self, .error err)
    | .ok prepared =>
      match faults.interrupted, disk.tables with
      | some err, _ => (disk, self.rollback faults, .error err)
      | none, none => (disk, self.rollback faults, .error .databaseFailure)
      | none, some tables =>
        match prepared.transact platform self.root tables with
        | .error err => (disk, self.rollback faults, .error err)
        | .ok (.unchanged reply) =>
          match faults.commit with
          | .done => (disk, self, .ok reply)
          | .failed _ err => (disk, self.rollback faults, .error err)
        | .ok (.changed next reply) =>
          let finished := self.finishMutation platform disk next
            (.mutated self.root mutation) nonce faults
          (finished.1, finished.2.1, finished.2.2.map (fun _ => reply))

end Store

/-!
## Opening
-/

abbrev Validator := Bytes -> Nat -> Result Unit

/-- The root, the actor's gate, and the random values that an opening may draw. -/
structure OpenRequest where
  root : Root
  validator : Option Validator := none
  installation : Block
  nonce : Block
  keyNonce : SealNonce
  recoveryNonce : Block

/-- `created`: whether a failed first opening leaves an empty file. -/
structure OpenFaults where
  opening : Faults := {}
  created : Bool := true
  recovery : Faults := {}

def emptyMetadata : Bytes := ascii "\x7b\x7d"

def keyCheckPlaintext : Bytes := ascii "omux database wrapping key version 1"

def keyCheckContext (root : Root) : Context :=
  { keyId := root.keyId
    accountId := ascii "omux-installation"
    grantId := ascii "wrapping-key-check"
    generation := 1
    purpose := ascii "key-check"
    scope := ascii "database-v1" }

namespace Store

variable (platform : Platform)

def verifyKey (root : Root) (tables : Tables) : Result Unit :=
  match tables.custody with
  | none => .error .missingKeyCheck
  | some row => do
    failIf (root.keyId != row.keyId) .wrongKeyIdentity
    match openEnvelope platform root.key (keyCheckContext root) row.keyCheck with
    | .error _ => .error .wrongKey
    | .ok secret => failIf (secret != keyCheckPlaintext) .wrongKey

def verifySnapshot (checkpoint : Checkpoint) (row : SnapshotRow) : Result Unit := do
  failIf (decide (maximumSnapshotBytes < row.metadata.length)) .snapshotTooLarge
  failIf (row.revision != checkpoint.snapshotRevision ||
    platform.sha256 row.metadata != checkpoint.snapshotDigest) .snapshotAuthenticationFailed

/-- Nothing but the first initialisation has empty metadata. -/
def untouched (tables : Tables) (checkpoint : Checkpoint) (revision : Nat) : Bool :=
  revision == 0 && tables.grants.rows.length + tables.operations.rows.length +
    tables.tombstones.rows.length + tables.generations.rows.length == 0 &&
    checkpoint.sequence == 0

def validateActorRecovery (tables : Tables) (checkpoint : Checkpoint)
    (row : SnapshotRow) : Result Unit := do
  let parsed <- orFail (platform.parseJson row.metadata) .invalidSnapshot
  if parsed.hasFields 0 then
    failIf (!untouched tables checkpoint row.revision) .snapshotAdmissionMigrationRequired
  else failIf (parsed.get (ascii "state")).isNone .snapshotAdmissionMigrationRequired
  failIf (tables.operations.count (fun row => row.state == .started) +
    tables.grants.count (fun row => row.state == .refreshing) != 0)
    .snapshotAdmissionMigrationRequired

def validateActor (validator : Option Validator) (tables : Tables)
    (checkpoint : Checkpoint) (row : SnapshotRow) : Result Unit :=
  match validator with
  | none => .ok ()
  | some validate => do
    validateActorRecovery platform tables checkpoint row
    validate row.metadata row.revision

variable (request : OpenRequest)

/-- The checks before the journal mode is touched. -/
def preflight (file : Cell Bytes) (tables : Tables) : Result Checkpoint := do
  verifyKey platform request.root tables
  let independent <- FileAuthority.read platform { root := request.root } file
  let checkpoint <- orFail tables.checkpoint .recordMissing
  independent.verify checkpoint
  let row <- orFail tables.snapshot .missingSnapshot
  validateMetadata platform row.metadata
  verifySnapshot platform checkpoint row
  validateActor platform request.validator tables checkpoint row
  pure checkpoint

/-- The same checks, repeated inside the exclusive transaction in another order. -/
def recheck (file : Cell Bytes) (tables : Tables) : Result Checkpoint := do
  verifyKey platform request.root tables
  let row <- orFail tables.snapshot .missingSnapshot
  validateMetadata platform row.metadata
  let independent <- FileAuthority.read platform { root := request.root } file
  let checkpoint <- orFail tables.checkpoint .recordMissing
  independent.verify checkpoint
  verifySnapshot platform checkpoint row
  validateActor platform request.validator tables checkpoint row
  pure checkpoint

def openExisting (file : Cell Bytes) (database : Database) : Result Store :=
  if database.userVersion == 2 then do
    let tables <- orFail database.schema .databaseFailure
    verifyKey platform request.root tables
    .error .recoveryMigrationRequired
  else if database.userVersion == 1 || database.userVersion == 0 then
    .error .recoveryMigrationRequired
  else if database.userVersion != 3 then .error .unsupportedSchema
  else do
    let tables <- orFail database.schema .missingSchema
    let _ <- preflight platform request file tables
    let checkpoint <- recheck platform request file tables
    pure { root := request.root, authority := { root := request.root }, checkpoint }

def freshTables : Result (Tables × Checkpoint) := do
  let keyCheck <- sealEnvelope platform request.root.key (keyCheckContext request.root)
    request.keyNonce keyCheckPlaintext
  let checkpoint <- Checkpoint.fresh request.installation request.nonce 0
    (platform.sha256 emptyMetadata)
  pure
    ({ custody := some { keyId := request.root.keyId, keyCheck }
       snapshot := some { revision := 0, metadata := emptyMetadata } }, checkpoint)

/-- First initialisation: the authority is reserved before the database commits. -/
def create (disk : Disk) (faults : Faults) : Disk × Result Store :=
  let created := disk.setDatabase (some .blank)
  match freshTables platform request with
  | .error err => (created, .error err)
  | .ok (tables, checkpoint) =>
    match FileAuthority.initializeFile platform { root := request.root } disk.authority
      checkpoint faults.publish with
    | (file, _, .error err) => (created.setAuthority file, .error err)
    | (file, authority, .ok _) =>
      let reserved := created.setAuthority file
      match faults.commit with
      | .done =>
        (reserved.commit tables checkpoint .initialised,
          .ok { root := request.root, authority, checkpoint })
      | .failed durable err =>
        (if durable then reserved.commit tables checkpoint .initialised
          else reserved, .error err)

def openDatabase (disk : Disk) (faults : OpenFaults) : Disk × Result Store :=
  if request.root.keyId.isEmpty || decide (128 < request.root.keyId.length) then
    (disk, .error .invalidKeyIdentity)
  else
    match disk.database, faults.opening.interrupted with
    | none, some err =>
      (if faults.created then disk.setDatabase (some .blank) else disk, .error err)
    | none, none => create platform request disk faults.opening
    | some _, some err => (disk, .error err)
    | some database, none => (disk, openExisting platform request disk.authority database)

/-- Pending rotations of the admitted database are given up before it is used. -/
def openRoot (disk : Disk) (faults : OpenFaults) : Disk × Result Store :=
  match openDatabase platform request disk faults with
  | (opened, .error err) => (opened, .error err)
  | (opened, .ok store) =>
    match store.transact platform opened .reconcilePendingRotations request.recoveryNonce
      faults.recovery with
    | (recovered, store, .ok _) => (recovered, .ok store)
    | (recovered, _, .error err) => (recovered, .error err)

end Store

/-!
## Runs
-/

/-- The machine: its disk and the store that a process holds open. -/
structure System where
  disk : Disk := {}
  store : Option Store := none

/-- `crash`: the process dies before the call returns.  While no store is open the
database may be replaced by one that was committed earlier, or deleted. -/
inductive Event where
  | openStore (request : OpenRequest) (faults : OpenFaults) (crash : Bool)
  | mutate (mutation : Mutation) (nonce : Block) (faults : Faults) (crash : Bool)
  | close
  | powerLoss (kept : Bool)
  | restoreDatabase (index : Nat)
  | deleteDatabase

namespace System

def installed : System := {}

def unlessCrashed {α : Type _} (crash : Bool) (value : α) : Option α :=
  if crash then none else some value

variable (platform : Platform)

def respond (self : System) : Event -> System × Option (Result Reply)
  | .openStore request faults crash =>
    match self.store with
    | some _ => (self, none)
    | none =>
      let opened := Store.openRoot platform request self.disk faults
      ({ disk := opened.1
         store := (unlessCrashed crash opened.2).bind Except.toOption }, none)
  | .mutate mutation nonce faults crash =>
    match self.store with
    | none => (self, none)
    | some store =>
      let finished := store.transact platform self.disk mutation nonce faults
      ({ disk := finished.1, store := unlessCrashed crash finished.2.1 },
        unlessCrashed crash finished.2.2)
  | .close => ({ self with store := none }, none)
  | .powerLoss kept =>
    ({ disk := self.disk.setAuthority (self.disk.authority.powerLoss kept)
       store := none }, none)
  | .restoreDatabase index =>
    match self.store, self.disk.history[index]? with
    | none, some entry => ({ self with disk := self.disk.setDatabase (some entry.database) }, none)
    | _, _ => (self, none)
  | .deleteDatabase =>
    match self.store with
    | none => ({ self with disk := self.disk.setDatabase none }, none)
    | some _ => (self, none)

def step (self : System) (event : Event) : System :=
  (self.respond platform event).1

/-- The tables that the operations of an open, usable store read. -/
def exposed (self : System) : Option Tables :=
  match self.store with
  | none => none
  | some store => if store.poisoned then none else self.disk.tables

end System

/-!
## What a transaction can do
-/

variable {platform : Platform}

/-- A mutation turns the tables into `outcome`. -/
def Mutation.Yields (platform : Platform) (root : Root) (tables : Tables)
    (mutation : Mutation) (outcome : Outcome) : Prop :=
  exists prepared, mutation.prepare platform root = .ok prepared ∧
    prepared.transact platform root tables = .ok outcome

/-- The transaction of `store` reached the reservation of `next`. -/
structure Reserving (platform : Platform) (disk : Disk) (store : Store)
    (mutation : Mutation) (nonce : Block) (tables : Tables) (reply : Reply)
    (next : Checkpoint) : Prop where
  usable : store.poisoned = false
  body : exists before, disk.tables = some before ∧
    mutation.Yields platform store.root before (.changed tables reply)
  next : store.nextCheckpoint platform tables nonce = .ok next

inductive Transacted (platform : Platform) (disk : Disk) (store : Store)
    (mutation : Mutation) (nonce : Block) : Disk -> Store -> Result Reply -> Prop where
  | refused {after : Store} (err : StoreError)
      (hafter : after = store ∨ after.poisoned = true) :
      Transacted platform disk store mutation nonce disk after (.error err)
  | answered {before : Tables} {reply : Reply} (husable : store.poisoned = false)
      (hbefore : disk.tables = some before)
      (hbody : mutation.Yields platform store.root before (.unchanged reply)) :
      Transacted platform disk store mutation nonce disk store (.ok reply)
  | reserved {file : Cell Bytes} {after : Store} {tables : Tables} {reply : Reply}
      {next : Checkpoint} (err : StoreError)
      (hreserving : Reserving platform disk store mutation nonce tables reply next)
      (hread : store.authority.read platform disk.authority = .ok store.checkpoint)
      (hfile : file = disk.authority.rename (encodeRecord platform store.authority.root next) ∨ file
        = disk.authority.publish (encodeRecord platform store.authority.root next))
      (hafter : after.poisoned = true) :
      Transacted platform disk store mutation nonce (disk.setAuthority file) after
        (.error err)
  | committed {after : Store} {tables : Tables} {reply : Reply} {next : Checkpoint}
      {result : Result Reply}
      (hreserving : Reserving platform disk store mutation nonce tables reply next)
      (hread : store.authority.read platform disk.authority = .ok store.checkpoint)
      (hafter : (after.poisoned = true ∧ exists err, result = .error err) ∨
        (after.poisoned = false ∧ after.checkpoint = next ∧ result = .ok reply)) :
      Transacted platform disk store mutation nonce
        ((disk.setAuthority (disk.authority.publish (encodeRecord platform store.authority.root
          next))).commit tables next (.mutated store.root mutation)) after result

theorem rollback_cases (store : Store) (faults : Faults) :
    store.rollback faults = store ∨ (store.rollback faults).poisoned = true := by
  unfold Store.rollback
  split
  · exact Or.inr rfl
  · exact Or.inl rfl

variable {disk : Disk} {store : Store} {mutation : Mutation} {nonce : Block}
  {tables : Tables} {reply : Reply} {faults : Faults}

/-- The end of a transaction that changed the tables. -/
theorem finishMutation_transacted (husable : store.poisoned = false)
    (hbody : exists before, disk.tables = some before ∧
      mutation.Yields platform store.root before (.changed tables reply)) :
    Transacted platform disk store mutation nonce
      (store.finishMutation platform disk tables (.mutated store.root mutation) nonce faults).1
      (store.finishMutation platform disk tables (.mutated store.root mutation) nonce faults).2.1
      ((store.finishMutation platform disk tables (.mutated store.root mutation) nonce
        faults).2.2.map (fun _ => reply)) := by
  unfold Store.finishMutation
  cases hnext : store.nextCheckpoint platform tables nonce with
  | error err => exact .refused err (rollback_cases store faults)
  | ok next =>
    have hresv : Reserving platform disk store mutation nonce tables reply next :=
      ⟨husable, hbody, hnext⟩
    have hpub := @FileAuthority.reserve_publication platform
      store.authority disk.authority store.checkpoint next faults.publish
    rcases hreserve : store.authority.reserve platform disk.authority store.checkpoint
      next faults.publish with ⟨_, _, _⟩
    rw [hreserve] at hpub
    dsimp only
    rw [hreserve]
    rcases hpub with ⟨hread, hpub⟩ | ⟨hfile, err, herr⟩
    · cases hpub with
      | refused err => exact .refused err (.inr rfl)
      | renamed err => exact .reserved err hresv hread (.inl rfl) rfl
      | published =>
        -- The reservation is durable; only the COMMIT is left.
        cases hcommit : faults.commit with
        | done => exact .committed hresv hread (.inr ⟨husable, rfl, rfl⟩)
        | failed durable err =>
          cases durable with
          | true => exact .committed hresv hread (.inl ⟨rfl, err, rfl⟩)
          | false => exact .reserved err hresv hread (.inr rfl) rfl
    · simp only at hfile herr
      rw [hfile, herr]
      exact .refused err (.inr rfl)

theorem transact_transacted (store : Store) (disk : Disk) (mutation : Mutation)
    (nonce : Block) (faults : Faults) : Transacted platform disk store mutation nonce
      (store.transact platform disk mutation nonce faults).1
      (store.transact platform disk mutation nonce faults).2.1
      (store.transact platform disk mutation nonce faults).2.2 := by
  unfold Store.transact
  split
  · exact .refused _ (.inl rfl)
  · rename_i husable
    have husable : store.poisoned = false := by simpa using husable
    split
    · exact .refused _ (.inl rfl)
    · rename_i prepared hprep
      split
      · exact .refused _ (rollback_cases store faults)
      · exact .refused _ (rollback_cases store faults)
      · rename_i before _ hbefore
        split
        · exact .refused _ (rollback_cases store faults)
        · rename_i reply hbody
          split
          · exact .answered husable hbefore ⟨prepared, hprep, hbody⟩
          · exact .refused _ (rollback_cases store faults)
        · rename_i next reply hbody
          exact finishMutation_transacted husable ⟨before, hbefore, prepared, hprep, hbody⟩

end Omux.Storage
