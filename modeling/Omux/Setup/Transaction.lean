import Omux.Setup.GitConfig
import Omux.Library.Task
import Omux.Library.Run
import Omux.Mutation.Witness
import Mathlib.Logic.Function.Basic

/-!
# Setup transactions

Install, remove and recover for the Git adapter.  Durable are the sealed registry, the
capability file, the config file and the temporary that becomes the config.  Every system
call may fail and the process may be cut off around it.  Other programs may edit a config
before any read of it, though not between the last comparison and the replacement.
-/

namespace Omux.Setup

open Library

/-!
## Files
-/

/-- What is at a path.  A regular file belongs to the user and has one link. -/
structure File where
  regular : Bool
  mode : Nat
  gid : Nat
  bytes : Bytes
deriving DecidableEq

structure Snapshot where
  existed : Bool
  mode : Nat
  gid : Option Nat
  bytes : Bytes

def Snapshot.matchesState (self : Snapshot) (existed : Bool) (mode : Nat) (bytes : Bytes) :
    Bool :=
  self.existed == existed && (!existed || self.mode == mode) && self.bytes == bytes

def Record.isBefore (record : Record) (current : Snapshot) : Bool :=
  current.matchesState record.beforeExisted record.beforeMode record.before

def Record.isAfter (record : Record) (current : Snapshot) : Bool :=
  current.matchesState record.afterExisted record.afterMode record.after

def validateFile (file : File) : Result Unit :=
  failIf (!file.regular || file.mode &&& 0o7022 != 0) .unsafeConfigFile

def snapshot : Option File -> Result Snapshot
  | none => pure { existed := false, mode := 0o600, gid := none, bytes := [] }
  | some file => do
    validateFile file
    failIf (decide (maximumConfig < file.bytes.length)) .configTooLarge
    pure { existed := true, mode := file.mode &&& 0o777,
           gid := some file.gid, bytes := file.bytes }

/-!
## The world
-/

/-- What never changes: the capability of the adapter, the group of new files and the
directory of the broker. -/
structure Platform where
  capability : Capability
  group : Nat
  stateDir : Path

inductive Fault where
  | none | failure | crash

structure Environment where
  fault : Nat -> Fault
  edits : Nat -> List (Path × Option File)
  random : Nat -> Vector UInt8 16

/-- Durable steps, and the edits of other programs. -/
inductive Entry where
  | saved (record : Record)
  | capabilityWritten | capabilityRevoked | temporaryWritten
  | replaced (record : Record) (next : Option File)
  | temporaryCleaned
  | edited (path : Path) (file : Option File)
deriving DecidableEq

/-- The registry is held as the plaintext under its seal; the log is newest first. -/
structure Disk where
  registry : Option Bytes
  capability : Option Bytes
  files : Path -> Option File
  temporaries : Path -> Transaction -> Option File
  log : List Entry

structure World where
  disk : Disk
  tick : Nat

abbrev Work := Task World SetupError

namespace Disk

variable (disk : Disk)

def noted (entry : Entry) : Disk :=
  { disk with log := entry :: disk.log }

def edit (path : Path) (file : Option File) : Disk :=
  { disk with files := Function.update disk.files path file }.noted (.edited path file)

def saveRecord (record : Record) (bytes : Bytes) : Disk :=
  { disk with registry := some bytes }.noted (.saved record)

def writeCapability (capability : Capability) : Disk :=
  { disk with capability := some capability.toList }.noted .capabilityWritten

def unlinkCapability : Disk :=
  { disk with capability := none }.noted .capabilityRevoked

def temporary (record : Record) : Option File :=
  disk.temporaries record.configPath record.transaction

def setTemporary (record : Record) (file : Option File) : Disk :=
  { disk with
    temporaries := Function.update disk.temporaries record.configPath
      (Function.update (disk.temporaries record.configPath) record.transaction file) }

def mapTemporary (record : Record) (f : File -> File) : Disk :=
  disk.setTemporary record ((disk.temporary record).map f)

def replace (record : Record) (next : Option File) : Disk :=
  { disk with files := Function.update disk.files record.configPath next }.noted
    (.replaced record next)

end Disk

def look {α : Type} (f : Disk -> α) : Work α :=
  Task.read (fun w => f w.disk)

def change (f : Disk -> Disk) : Work Unit :=
  Task.modify (fun w => { w with disk := f w.disk })

section

variable (platform : Platform) (env : Environment)

/-- A deadline, a cancellation, a failed system call or the end of the process. -/
def interrupt : Work Unit :=
  fun w =>
    match env.fault w.tick with
    | .none => (.done (), { w with tick := w.tick + 1 })
    | .failure => (.failed .system, { w with tick := w.tick + 1 })
    | .crash => (.killed, { w with tick := w.tick + 1 })

def otherPrograms : Work Unit :=
  Task.modify (fun w =>
    { w with
      disk := (env.edits w.tick).foldl (fun disk edit => disk.edit edit.1 edit.2) w.disk })

def readAt (path : Path) : Work Snapshot := do
  interrupt env
  otherPrograms env
  let file <- look (fun disk => disk.files path)
  Task.lift (snapshot file)

/-- A parent that does not exist has no file in it. -/
def openParent (path : Path) : Result Unit := do
  validateAbsolute path
  failIf (decide (4096 < path.length)) .unsafePath

def readConfig (path : Path) : Work Snapshot := do
  Task.lift (openParent path)
  readAt env path

/-!
## Registry and capability
-/

/-- A rename over the destination, of a private file under a random name. -/
def privateWrite (effect : Disk -> Disk) : Work Unit := do
  interrupt env
  change effect
  interrupt env

variable (record : Record)

def save : Work Unit := do
  interrupt env
  let bytes <- Task.lift (encodedRecord record)
  privateWrite env (fun disk => disk.saveRecord record bytes)

def load : Work (Option Record) := do
  interrupt env
  let current <- look (fun disk => disk.registry)
  match current with
  | none => pure none
  | some bytes => do
    let record <- Task.lift (decodedRecord bytes)
    pure (some record)

def ensureCapability (capability : Capability) : Work Unit := do
  interrupt env
  let current <- look (fun disk => disk.capability)
  match current with
  | some bytes => Task.failWhen (bytes != capability.toList) .capabilityConflict
  | none => privateWrite env (fun disk => disk.writeCapability capability)

def revokeCapability (capability : Capability) : Work Unit := do
  interrupt env
  let current <- look (fun disk => disk.capability)
  match current with
  | none => pure ()
  | some bytes => do
    Task.failWhen (bytes != capability.toList) .capabilityConflict
    interrupt env
    change Disk.unlinkCapability
    interrupt env

/-!
## The config file
-/

def cleanTemporary : Work Unit := do
  Task.lift (openParent record.configPath)
  interrupt env
  let file <- look (fun disk => disk.temporary record)
  let current <- Task.lift (snapshot file)
  if current.existed then do
    interrupt env
    change (fun disk => (disk.setTemporary record none).noted .temporaryCleaned)
    interrupt env
  else pure ()

/-- A crash can have left the temporary; it is validated before its mode is widened. -/
def openTemporary : Work Unit := do
  interrupt env
  let file <- look (fun disk => disk.temporary record)
  match file with
  | none =>
    change (fun disk => (disk.setTemporary record
      (some { regular := true, mode := 0o600, gid := platform.group, bytes := [] })).noted
      .temporaryWritten)
  | some file => do
    Task.lift (validateFile file)
    interrupt env
    change (fun disk =>
      (disk.mapTemporary record (fun file => { file with mode := 0o600 })).noted
        .temporaryWritten)

def truncateTemporary : Work Unit := do
  interrupt env
  change (fun disk =>
    disk.mapTemporary record (fun file => { file with mode := 0o600, bytes := [] }))

/-- Any number of bytes may be there when the writing stops. -/
def writeAll (record : Record) : Bytes -> Work Unit
  | [] => pure ()
  | byte :: rest => do
    interrupt env
    change (fun disk =>
      disk.mapTemporary record (fun file => { file with bytes := file.bytes ++ [byte] }))
    writeAll record rest

def setGroup (current : Snapshot) (file : File) : File :=
  match current.gid with
  | none => file
  | some group => { file with gid := group }

def compareAgain (current : Snapshot) : Work Unit := do
  let check <- readAt env record.configPath
  Task.failWhen (!record.isBefore check || check.gid != current.gid) .integrationConflict

def unlinkConfig (current : Snapshot) : Work Unit := do
  compareAgain env record current
  interrupt env
  change (fun disk => disk.replace record none)
  interrupt env

def renameConfig (current : Snapshot) : Work Unit := do
  openTemporary platform env record
  truncateTemporary env record
  writeAll env record record.after
  interrupt env
  compareAgain env record current
  interrupt env
  change (fun disk => disk.mapTemporary record (setGroup current))
  interrupt env
  change (fun disk =>
    disk.mapTemporary record (fun file => { file with mode := record.afterMode }))
  interrupt env
  change (fun disk => (disk.replace record (disk.temporary record)).setTemporary record none)
  interrupt env

def applyConfig : Work Unit := do
  interrupt env
  Task.lift (openParent record.configPath)
  let current <- readAt env record.configPath
  if record.isAfter current then pure ()
  else do
    Task.failWhen (!record.isBefore current) .integrationConflict
    if record.afterExisted then renameConfig platform env record current
    else unlinkConfig env record current

/-!
## Completion
-/

inductive Recovery where
  | none | installed | removed | conflict
deriving DecidableEq

def conclude (record final : Record) : Work Unit := do
  cleanTemporary env record
  save env { final with before := [], after := [] }

def complete : Work Recovery := do
  interrupt env
  let current <- readConfig env record.configPath
  if !record.isBefore current && !record.isAfter current then pure .conflict
  else
    match record.phase with
    | .pendingInstall =>
      if record.capability != platform.capability then pure .conflict
      else do
        ensureCapability env record.capability
        applyConfig platform env record
        conclude env record { record with phase := .installed }
        pure .installed
    | .pendingRemove =>
      if record.capability != platform.capability then pure .conflict
      else do
        applyConfig platform env record
        revokeCapability env record.capability
        conclude env record
          { record with phase := .removed, original := [], installed := [] }
        pure .removed
    | .installed => pure .installed
    | .removed => pure .removed

def verifyInstalled : Work Unit := do
  interrupt env
  let current <- readConfig env record.configPath
  Task.lift (failIf (!current.existed) .integrationConflict)
  let _ <- Task.lift (removeConfig current.bytes record.installed record.original)
  pure ()

def isConflict : SetupError -> Bool
  | .integrationConflict | .integrationModified | .notInstalled => true
  | _ => false

def isIntact : Work Bool :=
  Task.handle (do verifyInstalled env record; pure true)
    (fun err => if isConflict err then pure false else Task.fail err)

def recoverRecord : Work Recovery :=
  match record.phase with
  | .installed =>
    if record.capability != platform.capability then pure .conflict
    else do
      let intact <- isIntact env record
      if intact then do
        ensureCapability env record.capability
        pure .installed
      else pure .conflict
  | .removed => do
    revokeCapability env record.capability
    pure .removed
  | .pendingInstall | .pendingRemove => complete platform env record

def recover : Work Recovery := do
  interrupt env
  let loaded <- load env
  match loaded with
  | none => pure .none
  | some record => recoverRecord platform env record

/-!
## Requests
-/

/-- Where the caller wants the config. -/
structure Selection where
  home : Path
  xdgConfigHome : Option Path
  configPath : Option Path

inductive Operation where
  | install (selection : Selection)
  | remove

structure SetupOutcome where
  changed : Bool
  configPath : Path
  capabilityPath : Path
deriving DecidableEq

def outcome (changed : Bool) (configPath : Path) : SetupOutcome :=
  { changed, configPath,
    capabilityPath := platform.stateDir ++ ascii "/integrations/git.capability" }

def Operation.word : Operation -> Bytes
  | .install _ => ascii "installed"
  | .remove => ascii "removed"

def resultText (operation : Operation) (configPath : Path) (changed : Bool) : Bytes :=
  jsonObject [(operation.word, jsonBool true), (ascii "adapter", jsonString (ascii "git")),
    (ascii "config_path", jsonSlice configPath), (ascii "changed", jsonBool changed)]

def checkCompletion (operation : Operation) (configPath : Path) : Result Unit :=
  checkAll (fun changed =>
    failIf (decide (Mutation.maxResultBytes < (resultText operation configPath changed).length))
      .resultTooLarge) [false, true]

variable (selection : Selection)

def conventional : Path :=
  selection.home ++ ascii "/.gitconfig"

def alternative : Result Path :=
  match selection.xdgConfigHome with
  | some base => do
    validateAbsolute base
    pure (base ++ ascii "/git/config")
  | none => pure (selection.home ++ ascii "/.config/git/config")

def chooseConfig : Work Path := do
  interrupt env
  match selection.configPath with
  | some path => do
    Task.lift (validateAbsolute path)
    pure path
  | none => do
    Task.lift (validateAbsolute selection.home)
    let current <- readConfig env (conventional selection)
    if current.existed then pure (conventional selection)
    else do
      let xdg <- Task.lift (alternative selection)
      let alternate <- readConfig env xdg
      pure (if alternate.existed then xdg else conventional selection)

def chooseFitting : Work Path := do
  let path <- chooseConfig env selection
  Task.lift (checkCompletion (.install selection) path)
  pure path

def preflightChoice : Work Unit := do
  let _ <- chooseFitting env selection
  pure ()

def preflightInstall : Option Record -> Work Unit
  | none => preflightChoice env selection
  | some record =>
    match record.phase with
    | .removed => preflightChoice env selection
    | .pendingRemove => do
      Task.lift (checkCompletion (.install selection) record.configPath)
      preflightChoice env selection
    | .installed | .pendingInstall =>
      Task.lift (checkCompletion (.install selection) record.configPath)

def preflightRemove : Option Record -> Work Unit
  | none => Task.fail .notInstalled
  | some record => Task.lift (checkCompletion .remove record.configPath)

def preflightResult (operation : Operation) : Work Unit := do
  interrupt env
  let loaded <- load env
  match operation with
  | .install selection => preflightInstall env selection loaded
  | .remove => preflightRemove loaded

def completeOrFail : Work Unit := do
  let result <- complete platform env record
  Task.failWhen (result == .conflict) .integrationConflict

def transactionId : Work Transaction := do
  interrupt env
  let random <- Task.read (fun w => env.random w.tick)
  pure (arrayOf 32 (lowerHex random.toList))

def begin : Work SetupOutcome := do
  save env record
  completeOrFail platform env record
  pure (outcome platform true record.configPath)

def installRecord (before : Snapshot) (transaction : Transaction) (configPath : Path)
    (installed : Bytes) : Record :=
  { phase := .pendingInstall
    originalExisted := before.existed
    beforeExisted := before.existed
    afterExisted := true
    originalMode := before.mode
    beforeMode := before.mode
    afterMode := before.mode
    capability := platform.capability
    transaction := transaction
    configPath := configPath
    original := before.bytes
    installed := installed
    before := before.bytes
    after := installed }

def prepareInstall : Work (Path × Snapshot × Bytes) := do
  let configPath <- chooseFitting env selection
  let before <- readConfig env configPath
  let installed <- Task.lift (installConfig before.bytes (ascii "omux"))
  Task.lift (failIf (decide (maximumConfig < installed.length)) .configTooLarge)
  pure (configPath, before, installed)

def installNew : Work SetupOutcome := do
  let (configPath, before, installed) <- prepareInstall env selection
  let transaction <- transactionId env
  begin platform env (installRecord platform before transaction configPath installed)

def installOver (selection : Selection) : Work SetupOutcome :=
  match record.phase with
  | .installed => do
    Task.lift (checkCompletion (.install selection) record.configPath)
    Task.failWhen (record.capability != platform.capability) .capabilityGenerationMismatch
    Task.failWhen (selection.configPath.any (fun path => path != record.configPath))
      .integrationPathConflict
    verifyInstalled env record
    ensureCapability env record.capability
    pure (outcome platform false record.configPath)
  | .pendingInstall => do
    Task.lift (checkCompletion (.install selection) record.configPath)
    completeOrFail platform env record
    pure (outcome platform true record.configPath)
  | .pendingRemove => do
    Task.lift (checkCompletion (.install selection) record.configPath)
    completeOrFail platform env record
    installNew platform env selection
  | .removed => installNew platform env selection

def install : Work SetupOutcome := do
  preflightResult env (.install selection)
  Task.failWhen (!platform.capability.toList.all isHex) .invalidAdapterCapability
  let loaded <- load env
  match loaded with
  | none => installNew platform env selection
  | some record => installOver platform env record selection

def removeRecord (before : Snapshot) (transaction : Transaction) (restored : Bytes) : Record :=
  { record with
    phase := .pendingRemove
    transaction := transaction
    beforeExisted := before.existed
    beforeMode := before.mode
    before := before.bytes
    afterExisted := record.originalExisted || !restored.isEmpty
    afterMode := before.mode
    after := restored }

def prepareRemove : Work (Snapshot × Bytes) := do
  let before <- readConfig env record.configPath
  let restored <- Task.lift (removeConfig before.bytes record.installed record.original)
  pure (before, restored)

def removeNew : Work SetupOutcome := do
  let (before, restored) <- prepareRemove env record
  let transaction <- transactionId env
  begin platform env (removeRecord record before transaction restored)

def removeOver : Work SetupOutcome :=
  match record.phase with
  | .removed => do
    revokeCapability env record.capability
    pure (outcome platform false record.configPath)
  | .pendingRemove => do
    completeOrFail platform env record
    pure (outcome platform true record.configPath)
  | .pendingInstall => do
    completeOrFail platform env record
    removeNew platform env record
  | .installed => removeNew platform env record

def remove : Work SetupOutcome := do
  preflightResult env .remove
  let loaded <- load env
  match loaded with
  | none => Task.fail .notInstalled
  | some record => do
    Task.lift (checkCompletion .remove record.configPath)
    Task.failWhen (record.phase != .removed && record.capability != platform.capability)
      .capabilityGenerationMismatch
    removeOver platform env record

inductive Request where
  | install (selection : Selection)
  | remove | recover

inductive Answer where
  | installed (outcome : SetupOutcome)
  | removed (outcome : SetupOutcome)
  | recovered (recovery : Recovery)
deriving DecidableEq

def perform : Request -> Work Answer
  | .install selection => do
    let result <- install platform env selection
    pure (.installed result)
  | .remove => do
    let result <- remove platform env
    pure (.removed result)
  | .recover => do
    let result <- recover platform env
    pure (.recovered result)

end

/-!
## Runs
-/

inductive Event where
  | call (env : Environment) (request : Request)
  | edit (path : Path) (file : Option File)

def step (platform : Platform) (w : World) : Event -> World
  | .call env request => (perform platform env request w).2
  | .edit path file => { w with disk := w.disk.edit path file }

def start (files : Path -> Option File) : World :=
  { disk :=
      { registry := none
        capability := none
        files := files
        temporaries := fun _ _ => none
        log := [] }
    tick := 0 }

end Omux.Setup
