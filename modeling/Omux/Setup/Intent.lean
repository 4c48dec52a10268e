import Omux.Setup.Completion

/-!
# What a call is meant to do

The end of an uninterrupted install or remove, computed from the disk it starts on: the
pending transaction is settled first.  A recover begins nothing.
-/

namespace Omux.Setup

open Library

/-- An install over a pending removal has to pass its preflight before the removal is
completed. -/
def refusal (disk : Disk) (selection : Selection) : Result Unit :=
  if disk.record.any (fun record => record.phase == .pendingRemove) then do
    let _ <- choice disk.files selection
    pure ()
  else pure ()

section

variable (platform : Platform)

/-- The end of a transaction that finds the config as `current`. -/
def endOf (record : Record) (files : Path -> Option File) (current : Snapshot) : Standing :=
  finish platform record (if record.isAfter current then files else
    Function.update files record.configPath (replacement platform record current))

/-- The transaction a record is named after does not matter for its end. -/
def anyTransaction : Transaction := Vector.replicate 32 0x30

def newInstall (files : Path -> Option File) (selection : Selection) : Result Standing := do
  let (path, before, installed) <- preparedInstall files selection
  pure (endOf platform (installRecord platform before anyTransaction path installed) files before)

def intendedInstall (disk : Disk) (selection : Selection) : Result Standing := do
  refusal disk selection
  failIf (!platform.capability.toList.all isHex) .invalidAdapterCapability
  let there := settle platform disk
  failIf (there.phase.any (fun phase => phase != .removed)) .integrationConflict
  newInstall platform there.files selection

def newRemoval (files : Path -> Option File) (record : Record) : Result Standing := do
  let (before, restored) <- preparedRemove files record
  pure (endOf platform (removeRecord record before anyTransaction restored) files before)

def intendedRemoval (disk : Disk) : Result Standing := do
  let record <- orFail disk.record .notInstalled
  let there := settle platform disk
  failIf (there.phase != some .installed) .integrationConflict
  newRemoval platform there.files record

/-- Where a call ends that begins a transaction of its own. -/
def intended (disk : Disk) : Request -> Option Standing
  | .install selection => (intendedInstall platform disk selection).toOption
  | .remove => (intendedRemoval platform disk).toOption
  | .recover => none

end

theorem toOption_eq_none {α : Type} {result : Result α} (h : forall a, result ≠ .ok a) :
    result.toOption = none := by
  cases result with
  | ok a => exact absurd rfl (h a)
  | error => rfl

theorem intended_guarded (platform : Platform) (disk : Disk) (request : Request)
    (phase : Phase) (hphase : (settle platform disk).phase = some phase)
    (hpend : phase.pending = true) : intended platform disk request = none := by
  have hremoved : phase ≠ .removed := by
    intro h
    rw [h] at hpend
    cases hpend
  have hinst : phase ≠ .installed := by
    intro h
    rw [h] at hpend
    cases hpend
  cases request with
  | recover => rfl
  | install => exact toOption_eq_none (by simp [intendedInstall, bind_eq_ok, hphase, hremoved])
  | remove => exact toOption_eq_none (by simp [intendedRemoval, bind_eq_ok, hphase, hinst])

def courseOf (platform : Platform) (files : Path -> Option File) (env : Environment)
    (base : Disk) (request : Request) : Course :=
  { platform := platform
    files := files
    env := env
    base := base
    intent := intended platform base request
    refused := exists selection err, request = .install selection ∧
      refusal base selection = .error err
    guarded := intended_guarded platform base request }

end Omux.Setup
