import Omux.Library.Attempt
import Omux.Admission.Ledger
import Omux.Mutation.Ledger

/-!
# The engine and its mutations

One actor owns the state in memory and writes whole snapshots to the database.  An
external mutation is committed as started, with the credit and the intent of its outcome,
before its handler runs; a local one is staged, and is committed once with its result.
After a failure the engine reads the committed snapshot back, or is poisoned.
-/

namespace Omux.Actor

open Library
open Mutation (Digest Witness Platform)
open Admission (Counts Key)

/-- What an unfinished piece of work may still write, and what it has written. -/
structure OutcomeIntent where
  key : Key
  ownerId : Bytes
  provider : Bytes := []
  planBytes : Nat
  planCounts : Counts := Counts.zero
  usedBytes : Nat := 0
  usedCounts : Counts := Counts.zero

/-- The snapshot: `δ` is everything that the mutation path only carries along. -/
structure Persisted (δ : Type) where
  rest : δ
  mutationAuthority : Mutation.Snapshot := {}
  snapshotAdmission : Admission.Snapshot := {}
  outcomeIntents : List OutcomeIntent := []
  maintenanceGrowthBytes : Nat := 0

/-- The database: the last committed snapshot and all committed grant changes. -/
structure Disk (δ γ : Type) where
  revision : Nat := 0
  saved : Persisted δ
  changes : List γ := []

def Disk.commit {δ γ : Type} (disk : Disk δ γ) (saved : Persisted δ)
    (changes : List γ) : Disk δ γ :=
  { revision := disk.revision + 1
    saved := saved
    changes := disk.changes ++ changes }

/-- Whether the snapshot with all its reservations stays within the limits. -/
inductive Usage where
  | fits | exceeded | failed
deriving DecidableEq

/-- What depends on the rest of the snapshot and on its encoding. -/
structure Environment (δ : Type) where
  platform : Platform
  nonledgerBytes : Persisted δ -> Option Nat
  actualCounts : δ -> Counts
  maintenanceReservation : Persisted δ -> Option Nat
  snapshotUsage : Persisted δ -> Nat -> Usage
  validatePersistedAdmission : Persisted δ -> Nat -> Bool

structure Engine (δ γ : Type) where
  rest : δ
  mutations : Mutation.Ledger
  admission : Admission.Ledger
  outcomeIntents : List OutcomeIntent
  maintenanceGrowthBytes : Nat := 0
  revision : Nat
  committedNonledgerBytes : Nat := 0
  committedCounts : Counts := Counts.zero
  activeCredit : Option Key := none
  stagingMutation : Bool := false
  stagedChanges : List γ := []
  poisoned : Bool := false

structure Live (δ γ : Type) where
  engine : Engine δ γ
  disk : Disk δ γ

/-- How a commit ends; after an ambiguous one the caller sees a failure. -/
inductive Commit where
  | durable | refused | ambiguous

variable {δ γ : Type}

def Engine.persisted (e : Engine δ γ) : Persisted δ :=
  { rest := e.rest
    mutationAuthority := e.mutations.snapshot
    snapshotAdmission := e.admission.snapshot
    outcomeIntents := e.outcomeIntents
    maintenanceGrowthBytes := e.maintenanceGrowthBytes }

def creditKey (platform : Platform) (kind : Admission.Kind) (id : Bytes)
    (generation : Nat) : Key :=
  { kind, id := platform.sha256 id, generation }

def localMethods : List String :=
  ["policy.set", "account.pause", "account.resume", "account.drain",
    "account.forget", "operation.cancel"]

def externalMethods : List String :=
  ["setup.refresh", "source.connect", "source.disconnect", "source.reconcile",
    "enrollment.start", "repair.start", "integrations.install",
    "integrations.remove", "integrations.attach", "integrations.detach"]

def mutationKind (method : Bytes) : Option Mutation.Kind :=
  if localMethods.any (fun candidate => ascii candidate == method) then
    some .localAtomic
  else if externalMethods.any (fun candidate => ascii candidate == method) then
    some .external
  else none

/-!
## Writing and reading the snapshot
-/

namespace Live

def setEngine (s : Live δ γ) (engine : Engine δ γ) : Live δ γ :=
  { s with engine }

def poison : Action (Live δ γ) :=
  .modify fun s => s.setEngine { s.engine with poisoned := true }

def poisonAndFail : Action (Live δ γ) :=
  poison.andThen .fail

def setRest (rest : δ) : Action (Live δ γ) :=
  .modify fun s => s.setEngine { s.engine with rest }

def stage (changes : List γ) : Action (Live δ γ) :=
  .modify fun s => s.setEngine
    { s.engine with stagedChanges := s.engine.stagedChanges ++ changes }

def onMutations (operation : Mutation.Ledger -> Mutation.Result Mutation.Ledger) :
    Action (Live δ γ) :=
  .update fun s => (operation s.engine.mutations).toOption.map fun mutations =>
    s.setEngine { s.engine with mutations }

def onAdmission (operation : Admission.Ledger -> Admission.Result Admission.Ledger) :
    Action (Live δ γ) :=
  .update fun s => (operation s.engine.admission).toOption.map fun admission =>
    s.setEngine { s.engine with admission }

section Environment

variable (env : Environment δ)

def nonledgerBytes (s : Live δ γ) : Option Nat :=
  env.nonledgerBytes s.engine.persisted

def usage (s : Live δ γ) : Usage :=
  env.snapshotUsage s.engine.persisted s.engine.mutations.reservedSnapshotBytes

def reserveMaintenance : Action (Live δ γ) :=
  .withValue (fun s => env.maintenanceReservation s.engine.persisted) fun bytes =>
    .modify fun s => s.setEngine { s.engine with maintenanceGrowthBytes := bytes }

def checkUsage : Action (Live δ γ) :=
  .check fun s => s.usage env == .fits

def growth (s : Live δ γ) : Counts :=
  fun field => env.actualCounts s.engine.rest field - s.engine.committedCounts field

def debitIntent (key : Key) (bytes : Nat) : Action (Live δ γ) :=
  .update fun s =>
    match recordEntry OutcomeIntent.key s.engine.outcomeIntents key with
    | none => none
    | some (i, intent) =>
      if 2 ^ 64 <= intent.usedBytes + bytes then none
      else some (s.setEngine { s.engine with
        outcomeIntents := s.engine.outcomeIntents.set i
          { intent with
            usedBytes := intent.usedBytes + bytes
            usedCounts := fun field =>
              intent.usedCounts field + s.growth env field } })

/-- Only the owner of the active credit debits its committed growth. -/
def consumeGrowth (candidate : Nat) : Action (Live δ γ) :=
  fun s =>
    match s.engine.activeCredit with
    | none => (s, true)
    | some key =>
      if (s.engine.admission.lookup key).isNone then (s, true)
      else
        let bytes := candidate - s.engine.committedNonledgerBytes
        ((onAdmission fun l => l.consumeWithCounts key bytes (s.growth env)).andThen
          (debitIntent env key bytes)) s

/-- The transaction; a failure fences all further service. -/
def commitSnapshot (changes : List γ) (outcome : Commit) (bytes : Nat) : Action (Live δ γ) :=
  fun s =>
    if s.engine.revision != s.disk.revision then poisonAndFail s
    else
      match outcome with
      | .durable =>
        ({ engine := { s.engine with
             revision := s.disk.revision + 1
             committedNonledgerBytes := bytes
             committedCounts := env.actualCounts s.engine.rest }
           disk := s.disk.commit s.engine.persisted changes }, true)
      | .refused => poisonAndFail s
      | .ambiguous =>
        ({ engine := { s.engine with poisoned := true }
           disk := s.disk.commit s.engine.persisted changes }, false)

def write (changes : List γ) (outcome : Commit) : Action (Live δ γ) :=
  .withValue (nonledgerBytes env) fun candidate =>
    (consumeGrowth env candidate).andThen <|
    (reserveMaintenance env).andThen <|
    (checkUsage env).andThen <|
    .withValue (nonledgerBytes env) fun committed =>
      commitSnapshot env changes outcome committed

def persist (changes : List γ) (outcome : Commit) : Action (Live δ γ) :=
  fun s =>
    if s.engine.stagingMutation then stage changes s
    else write env changes outcome s

/-- The engine with every part replaced by its committed value. -/
def committedEngine (disk : Disk δ γ) (e : Engine δ γ) : Option (Engine δ γ) :=
  if !env.validatePersistedAdmission disk.saved disk.revision then none
  else
    match Mutation.Ledger.fromSnapshotAtRevision env.platform
        disk.saved.mutationAuthority disk.revision,
      Admission.Ledger.fromSnapshot disk.saved.snapshotAdmission with
    | .ok mutations, .ok admission =>
      some { e with
        rest := disk.saved.rest
        mutations := mutations
        admission := admission
        outcomeIntents := disk.saved.outcomeIntents
        revision := disk.revision }
    | _, _ => none

/-- `readable` says whether the rest of the saved snapshot could be restored. -/
def restoreCommitted (readable : Bool) : Action (Live δ γ) :=
  (Action.check fun _ => readable).andThen <|
  (Action.update fun s => (committedEngine env s.disk s.engine).map s.setEngine).andThen <|
  (reserveMaintenance env).andThen <|
  (checkUsage env).andThen <|
  .withValue (nonledgerBytes env) fun bytes =>
    .modify fun s => s.setEngine { s.engine with
      committedNonledgerBytes := bytes
      committedCounts := env.actualCounts s.engine.rest }

def restoreOrPoison (readable : Bool) : Action (Live δ γ) :=
  (restoreCommitted env readable).orElse poison

/-- Work that failed half-way stops the service; inspection keeps what is committed. -/
def fence (readable : Bool) : Action (Live δ γ) :=
  poison.andThen ((restoreCommitted env readable).orElse .skip)

end Environment

/-!
## Outcome reservations
-/

def reserveOutcome (input : OutcomeIntent) : Action (Live δ γ) :=
  .update fun s =>
    if Admission.maximumCredits <= s.engine.outcomeIntents.length then none
    else
      (s.engine.admission.reserveWithCounts input.key input.planBytes
        input.planCounts).toOption.map fun admission =>
          s.setEngine { s.engine with
            admission := admission
            outcomeIntents := s.engine.outcomeIntents ++ [input] }

def dropIntent (key : Key) : Action (Live δ γ) :=
  .update fun s =>
    (recordEntry OutcomeIntent.key s.engine.outcomeIntents key).map fun entry =>
      s.setEngine { s.engine with
        outcomeIntents := s.engine.outcomeIntents.eraseIdx entry.1 }

def releaseOutcome (key : Key) : Action (Live δ γ) :=
  (onAdmission fun l => l.release key).andThen (dropIntent key)

end Live

/-!
## Requests
-/

structure Request (δ : Type) where
  method : Bytes
  control : Bool := true
  operationId : Bytes
  expectedRevision : Nat
  fingerprint : Digest
  /-- The cached result of a replay could be parsed. -/
  parsed : Bool := true
  /-- The clock of the optional measurement could be started. -/
  sessionBegun : Bool := true
  preflight : Bool := true
  plan : Option (Nat × Counts)
  /-- The rest once the optional aggregate of a disconnect is prepared. -/
  activated : δ -> Option δ := some
  commit : Commit := .durable
  readable : Bool := true

structure Handling where
  operationId : Bytes
  method : Bytes
  expectedRevision : Nat
  kind : Mutation.Kind
  slot : Nat
  measured : Bool
deriving DecidableEq

def Handling.key (platform : Platform) (c : Handling) : Key :=
  creditKey platform .mutation c.operationId c.expectedRevision

def Request.key (platform : Platform) (r : Request δ) : Key :=
  creditKey platform .mutation r.operationId r.expectedRevision

inductive Phase where
  | idle
  | handling (c : Handling)
deriving DecidableEq

inductive Reply where
  | elsewhere | refused
  | replayed (bytes : Bytes)
  | entered
  | performed (ok : Bool)
  | completed | failed
  | started (ok : Bool)
deriving DecidableEq

def disconnects (method : Bytes) : Bool :=
  method == Mutation.Measured.method .lifecycle

namespace Live

section Environment

variable (env : Environment δ)

variable (r : Request δ)

/-- The optional measurement of a disconnect belongs to its record. -/
def reserveMeasurement (slot : Nat) : Action (Live δ γ) :=
  .onlyIf (fun _ => disconnects r.method) <|
    .withValue (fun s =>
      (s.engine.mutations.tryReserveLifecycleWitness env.platform slot).toOption)
      fun result =>
        (Action.modify fun s =>
          s.setEngine { s.engine with mutations := result.1 }).andThen
        (.check fun _ => !result.2 || r.sessionBegun)

def isMeasured (slot : Nat) (s : Live δ γ) : Bool :=
  (s.engine.mutations.records[slot]?).any fun record =>
    (record.slot .lifecycle).reserved

/-- A measurement that does not fit is given up before the effect. -/
def fitMeasurement (slot : Nat) : Action (Live δ γ) :=
  .onlyIf (isMeasured slot) <|
    (reserveMaintenance env).andThen <|
    .onlyIf (fun s => s.usage env != .fits) <|
      (Action.check fun s => s.usage env == .exceeded).andThen <|
      (onMutations fun l => l.abandonLifecycleWitness slot).andThen <|
      (reserveMaintenance env).andThen (checkUsage env)

/-- Everything before the handler of an external mutation: the started record and
the space of its outcome are committed together. -/
def prepareExternal (slot : Nat) : Action (Live δ γ) :=
  (reserveMeasurement env r slot).andThen <|
  (Action.check fun _ => r.preflight).andThen <|
  (Action.withValue (fun _ => r.plan) fun plan =>
    reserveOutcome
      { key := r.key env.platform, ownerId := r.operationId, provider := r.method
        planBytes := plan.1, planCounts := plan.2 }).andThen <|
  (fitMeasurement env slot).andThen <|
  (Action.onlyIf (fun _ => disconnects r.method) <|
    .withValue (fun s => r.activated s.engine.rest) setRest).andThen <|
  persist env [] r.commit

def handlingOf (kind : Mutation.Kind) (slot : Nat) (s : Live δ γ) : Handling :=
  { operationId := r.operationId, method := r.method
    expectedRevision := r.expectedRevision, kind, slot := slot
    measured := isMeasured slot s }

def reject (s : Live δ γ) : Live δ γ × Phase × Reply :=
  ((restoreOrPoison env r.readable s).1, .idle, .refused)

def enter (slot : Nat) (s : Live δ γ) : Mutation.Kind -> Live δ γ × Phase × Reply
  | .external =>
    match prepareExternal env r slot s with
    | (t, true) =>
      (t.setEngine { t.engine with activeCredit := some (r.key env.platform) },
        .handling (handlingOf r .external slot t), .entered)
    | (t, false) => reject env r t
  | .localAtomic =>
    (s.setEngine { s.engine with activeCredit := none, stagingMutation := true },
      .handling (handlingOf r .localAtomic slot s), .entered)

/-- The part of `authorizedRequest` before the handler. -/
def authorizedRequest (s : Live δ γ) : Live δ γ × Phase × Reply :=
  if r.method == ascii "setup.refresh" then (s, .idle, .elsewhere)
  else
    match mutationKind r.method with
    | none => (s, .idle, .elsewhere)
    | some kind =>
      if !r.control then reject env r s
      else
        match s.engine.mutations.begin r.operationId r.method r.fingerprint
            (some r.expectedRevision) s.engine.revision kind with
        | .error _ => reject env r s
        | .ok (_, .replay bytes) => if r.parsed then (s, .idle, .replayed bytes) else reject env r s
        | .ok (_, .indeterminate) => reject env r s
        | .ok (mutations, .execute slot) =>
          enter env r slot (s.setEngine { s.engine with mutations })
            kind

end Environment

end Live

/-!
## Handlers and their ends
-/

/-- What a handler, or other work of the actor, does to the engine. -/
inductive Act (δ γ : Type) where
  | work (rest : δ)
  | persist (changes : List γ) (commit : Commit)
  | reserveOutcome (input : OutcomeIntent)
  | releaseOutcome (key : Key)
  | markIndeterminate (key : Key)
  | restoreCommitted (readable : Bool)
  | fence (readable : Bool)

structure Finish (δ : Type) where
  cached : Bytes
  /-- The rest with the terminal transition of a disconnect recorded. -/
  recorded : δ -> Option δ := some
  commit : Commit := .durable
  captured : Option Witness := none
  witnessCommit : Commit := .durable
  witnessReadable : Bool := true

structure Failure where
  fenceReadable : Bool := true
  commit : Commit := .durable
  readable : Bool := true

namespace Live

section Environment

variable (env : Environment δ)

/-- Credits of mutations belong to their requests only. -/
def foreign (key : Key) : Bool :=
  key.kind != .mutation

def perform : Act δ γ -> Action (Live δ γ)
  | .work rest => setRest rest
  | .persist changes commit => persist env changes commit
  | .reserveOutcome input =>
    (Action.check fun _ => foreign input.key).andThen (reserveOutcome input)
  | .releaseOutcome key => (Action.check fun _ => foreign key).andThen (releaseOutcome key)
  | .markIndeterminate key =>
    (Action.check fun _ => foreign key).andThen
      (onAdmission fun l => l.markIndeterminate key)
  | .restoreCommitted readable => restoreCommitted env readable
  | .fence readable => fence env readable

def leaveStaging : Action (Live δ γ) :=
  .modify fun s => s.setEngine
    { s.engine with stagingMutation := false, stagedChanges := [] }

def clearCredit : Action (Live δ γ) :=
  .modify fun s => s.setEngine { s.engine with activeCredit := none }

def isSound (s : Live δ γ) : Bool :=
  !s.engine.poisoned

variable (c : Handling)

/-- After a failure the outcome of an external effect is uncertain. -/
def fenceOutcome (failure : Failure) : Action (Live δ γ) :=
  .onlyIf (fun s => c.kind == .external && s.isSound) <|
    (restoreOrPoison env failure.fenceReadable).andThen <|
    ((onMutations fun l => l.markIndeterminate c.slot).orElse poison).andThen <|
    (Action.onlyIf isSound <|
      (onAdmission fun l => l.markIndeterminate (c.key env.platform)).orElse
        poison).andThen <|
    .onlyIf isSound <| (persist env [] failure.commit).orElse poison

def failRequest (failure : Failure) : Action (Live δ γ) :=
  leaveStaging.andThen <|
  (fenceOutcome env c failure).andThen <|
  clearCredit.andThen (restoreOrPoison env failure.readable)

/-- From the result of the handler to the final commit. -/
def completeRequest (finish : Finish δ) : Action (Live δ γ) :=
  (onMutations fun l => l.complete c.slot finish.cached).andThen <|
  (Action.onlyIf (fun _ => c.kind == .external && disconnects c.method) <|
    .withValue (fun s => finish.recorded s.engine.rest) setRest).andThen <|
  (Action.onlyIf (fun _ => c.kind == .external) <| releaseOutcome (c.key env.platform)).andThen <|
  (Action.modify fun s => s.setEngine
    { s.engine with stagingMutation := false }).andThen <|
  fun s => persist env s.engine.stagedChanges finish.commit s

/-- Optional: no error here may touch the committed result. -/
def finishLifecycleWitness (finish : Finish δ) : Action (Live δ γ) :=
  match finish.captured with
  | none => (onMutations fun l => l.abandonLifecycleWitness c.slot).orElse poison
  | some fact =>
    (Action.withValue (fun s => some s.engine.revision) fun revision =>
      onMutations fun l =>
        l.setLifecycleWitnessOnce env.platform c.slot fact revision).branch
      ((persist env [] finish.witnessCommit).orElse (restoreOrPoison env finish.witnessReadable))
      ((onMutations fun l => l.abandonLifecycleWitness c.slot).orElse poison)

def succeedRequest (finish : Finish δ) : Action (Live δ γ) :=
  (Action.onlyIf (fun _ => c.measured) (finishLifecycleWitness env c finish)).andThen
    (leaveStaging.andThen clearCredit)

/-- The part of `authorizedRequest` after a handler that returned. -/
def returnHandler (finish : Finish δ) (failure : Failure)
    (s : Live δ γ) : Live δ γ × Phase × Reply :=
  match completeRequest env c finish s with
  | (t, true) => ((succeedRequest env c finish t).1, .idle, .completed)
  | (t, false) => ((failRequest env c failure t).1, .idle, .failed)

def background (credit : Option Key) (act : Act δ γ) : Action (Live δ γ) :=
  (Action.modify fun s => s.setEngine { s.engine with activeCredit := credit }).andThen <|
  (perform env act).branch clearCredit (clearCredit.andThen .fail)

end Environment

end Live

/-!
## Restart
-/

/-- What a start meets; `recovered` is the rest after its own recovery. -/
structure Boot (δ : Type) where
  readable : Bool := true
  recovered : δ -> δ := id
  commit : Commit := .durable

section Environment

variable (env : Environment δ)

def Engine.blank (rest : δ) : Engine δ γ :=
  { rest := rest
    mutations :=
      { capacity := Mutation.maxRecords
        witnessCeiling := Mutation.maximumSerializedBytes .lifecycle
        nativeWitnessCeiling := Mutation.maximumSerializedBytes .nativeRemoval }
    admission := Admission.Ledger.init
    outcomeIntents := []
    revision := 0 }

def Engine.recoverAfterRestart (e : Engine δ γ) (recovered : δ -> δ) : Engine δ γ :=
  { e with
    rest := recovered e.rest
    mutations := e.mutations.recoverAfterRestart
    admission := e.admission.recoverAfterRestart }

def Live.bootstrap (b : Boot δ) : Action (Live δ γ) :=
  (Action.check fun _ => b.readable).andThen <|
  (Action.update fun s => (Live.committedEngine env s.disk s.engine).map fun e =>
    s.setEngine (e.recoverAfterRestart b.recovered)).andThen <|
  (Live.reserveMaintenance env).andThen <|
  (Live.checkUsage env).andThen (Live.persist env [] b.commit)

/-!
## The system
-/

structure System (δ γ : Type) where
  disk : Disk δ γ
  process : Option (Engine δ γ × Phase) := none

inductive Event (δ γ : Type) where
  | request (r : Request δ)
  | act (a : Act δ γ)
  | returned (finish : Finish δ) (failure : Failure)
  | raised (failure : Failure)
  | background (credit : Option Key) (a : Act δ γ)
  | crash
  | boot (b : Boot δ)

namespace System

def settle (result : Live δ γ × Phase × Reply) : System δ γ × Reply :=
  ({ disk := result.1.disk, process := some (result.1.engine, result.2.1) }, result.2.2)

/-- A poisoned engine takes no request and does no work of its own. -/
def takes (e : Engine δ γ) (credit : Option Key) : Bool :=
  !e.poisoned && credit.all Live.foreign

/-- The system after an event, and what the caller is told. -/
def respond (s : System δ γ) : Event δ γ -> System δ γ × Reply
  | .request r =>
    match s.process with
    | some (e, .idle) =>
      if takes e none then settle (Live.authorizedRequest env r ⟨e, s.disk⟩)
      else (s, .refused)
    | _ => (s, .refused)
  | .act a =>
    match s.process with
    | some (e, .handling c) =>
      let result := Live.perform env a ⟨e, s.disk⟩
      settle (result.1, .handling c, .performed result.2)
    | _ => (s, .refused)
  | .returned finish failure =>
    match s.process with
    | some (e, .handling c) => settle (Live.returnHandler env c finish failure ⟨e, s.disk⟩)
    | _ => (s, .refused)
  | .raised failure =>
    match s.process with
    | some (e, .handling c) =>
      settle ((Live.failRequest env c failure ⟨e, s.disk⟩).1, .idle, .failed)
    | _ => (s, .refused)
  | .background credit a =>
    match s.process with
    | some (e, .idle) =>
      if takes e credit then
        let result := Live.background env credit a ⟨e, s.disk⟩
        settle (result.1, .idle, .performed result.2)
      else (s, .refused)
    | _ => (s, .refused)
  | .crash => ({ s with process := none }, .refused)
  | .boot b =>
    match s.process with
    | some _ => (s, .refused)
    | none =>
      match Live.bootstrap env b ⟨Engine.blank s.disk.saved.rest, s.disk⟩ with
      | (t, true) => settle (t, .idle, .started true)
      | (t, false) => ({ disk := t.disk }, .started false)

def step (s : System δ γ) (event : Event δ γ) : System δ γ :=
  (s.respond env event).1

def installed (rest : δ) : System δ γ :=
  { disk := { saved := { rest := rest } } }

end System

end Environment

end Omux.Actor
