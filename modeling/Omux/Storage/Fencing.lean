import Omux.Storage.Store

/-!
# Rolled-back databases

The authority file holds the checkpoint of the newest database that was committed, or of a
mutation that never committed.  An opening compares the two.
-/

namespace Omux.Storage

open Library

open Store (openRoot openDatabase)

variable {platform : Platform} {disk : Disk} {store : Store}

/-!
## The authority file and the history
-/

inductive Encodes (platform : Platform) : Option Bytes -> Option Checkpoint -> Prop where
  | absent : Encodes platform none none
  | record (root : Root) {checkpoint : Checkpoint} (hfits : checkpoint.Fits) :
      Encodes platform (some (encodeRecord platform root checkpoint)) (some checkpoint)

structure Written (platform : Platform) (file : Cell Bytes) (cell : Cell Checkpoint) :
    Prop where
  visible : Encodes platform file.visible cell.visible
  durable : Encodes platform file.durable cell.durable

/-- Nothing but the record of `checkpoint` is in the file, or would be after a power
loss. -/
def AuthorityHolds (platform : Platform) (file : Cell Bytes) (checkpoint : Checkpoint) : Prop :=
  Written platform file ⟨some checkpoint, some checkpoint⟩

structure Disk.Fenced (platform : Platform) (disk : Disk) : Prop where
  ordered : Descending (fun entry => entry.checkpoint.sequence) disk.history
  guarded : forall last rest, disk.history = last :: rest ->
    exists cell, Written platform disk.authority cell ∧
      Guard Checkpoint.sequence last.checkpoint cell
  found : forall database, disk.database = some database ->
    database = .blank ∨ exists entry, entry ∈ disk.history ∧ database = entry.database

def Disk.Current (disk : Disk) (store : Store) : Prop :=
  exists last rest, disk.history = last :: rest ∧ disk.database = some last.database ∧
    (store.poisoned = false -> store.checkpoint = last.checkpoint)

variable {next checkpoint : Checkpoint} {file : Cell Bytes} {tables : Tables}
  {cell : Cell Checkpoint} {authority : FileAuthority} {last : Committed} {rest : List Committed}
  {request : OpenRequest}

theorem written_rename (h : Written platform file cell) (root : Root) (hfits : next.Fits) :
    Written platform (file.rename (encodeRecord platform root next)) (cell.rename next) :=
  ⟨.record root hfits, h.durable⟩

theorem written_publish (file : Cell Bytes) (cell : Cell Checkpoint) (root : Root)
    (hfits : next.Fits) : Written platform (file.publish (encodeRecord platform root next))
      (cell.publish next) :=
  ⟨.record root hfits, .record root hfits⟩

theorem written_powerLoss (h : Written platform file cell) (kept : Bool) :
    Written platform (file.powerLoss kept) (cell.powerLoss kept) := by
  cases kept with
  | true => exact ⟨h.visible, h.visible⟩
  | false => exact ⟨h.durable, h.durable⟩

theorem visible_of_read {found : Checkpoint} (h : Written platform file cell)
    (hread : authority.read platform file = .ok found) : cell.visible = some found := by
  rcases FileAuthority.read_inv hread with ⟨_, hbytes, hdecode⟩
  have hencodes := h.visible
  rw [hbytes] at hencodes
  generalize hvisible : cell.visible = visible at hencodes
  cases hencodes with
  | record root hfits => rw [decodeRecord_encodeRecord hfits hdecode]

theorem visible_ne_none {last : Checkpoint} (h : Written platform file cell)
    (hguard : Guard Checkpoint.sequence last cell) : file.visible ≠ none := by
  intro hnone
  have hencodes := h.visible
  rw [hnone] at hencodes
  cases hguard with
  | settled | renamed _ | reserved _ => cases hencodes

/-!
## Transactions
-/

theorem nextCheckpoint_inv {nonce : Block}
    (h : store.nextCheckpoint platform tables nonce = .ok next) :
    next.sequence = store.checkpoint.sequence + 1 ∧ next.Fits := by
  simp only [Store.nextCheckpoint, ok_iff, bool_iff] at h
  rcases h with ⟨_, _, _, hsuccessor, _, hseq, rfl⟩
  have hinv := Checkpoint.successor_inv hsuccessor
  exact ⟨hinv.left, Nat.le_of_not_lt hseq, hinv.right⟩

theorem settled_of_read (hfenced : disk.Fenced platform) (hhist : disk.history = last :: rest)
    (hread : authority.read platform disk.authority = .ok last.checkpoint) :
    AuthorityHolds platform disk.authority last.checkpoint := by
  rcases hfenced.guarded last rest hhist with ⟨_, hwritten, hguard⟩
  have hcell := hguard.settled_of_le (visible_of_read hwritten hread) (le_rfl)
  rw [hcell] at hwritten
  exact hwritten

theorem fenced_reserved {root : Root} (hfenced : disk.Fenced platform)
    (hhist : disk.history = last :: rest)
    (hholds : AuthorityHolds platform disk.authority last.checkpoint)
    (hnext : next.sequence = last.checkpoint.sequence + 1) (hfits : next.Fits)
    (hfile : file = disk.authority.rename (encodeRecord platform root next) ∨
      file = disk.authority.publish (encodeRecord platform root next)) :
    (disk.setAuthority file).Fenced platform where
  ordered := hfenced.ordered
  found := hfenced.found
  guarded := by
    intro last' rest' hhist'
    have hsame : last :: rest = last' :: rest' := hhist.symm.trans hhist'
    cases hsame
    rcases hfile with rfl | rfl
    · exact ⟨_, written_rename hholds root hfits, .renamed hnext⟩
    · exact ⟨_, written_publish disk.authority ⟨none, none⟩ root hfits, .reserved hnext⟩

theorem fenced_commit (database : Option Database) {root : Root} {cause : Cause}
    (hfenced : disk.Fenced platform) (hnext : forall entry, entry ∈ disk.history ->
      entry.checkpoint.sequence < next.sequence) (hfits : next.Fits) :
    ((((disk.setDatabase database).setAuthority (disk.authority.publish (encodeRecord platform root
      next))).commit tables next cause).Fenced platform) where
  ordered := List.pairwise_cons.mpr ⟨hnext, hfenced.ordered⟩
  found := by
    intro found hfound
    cases hfound
    exact Or.inr ⟨_, List.mem_cons_self, rfl⟩
  guarded := by
    intro _ _ hhist
    cases hhist
    exact ⟨_, written_publish disk.authority ⟨none, none⟩ root hfits, .settled⟩

theorem current_commit (disk : Disk) {cause : Cause}
    (hckpt : store.poisoned = false -> store.checkpoint = next) :
    (disk.commit tables next cause).Current store :=
  ⟨_, _, rfl, rfl, hckpt⟩

theorem lt_of_last (hfenced : disk.Fenced platform) (hhist : disk.history = last :: rest)
    (hnext : next.sequence = last.checkpoint.sequence + 1) :
    forall entry, entry ∈ disk.history -> entry.checkpoint.sequence < next.sequence := by
  intro entry hentry
  have hord := hfenced.ordered
  rw [hhist] at hord hentry
  rw [hnext]
  rcases hord.le_head hentry with rfl | hlt
  · exact Nat.lt_succ_self _
  · exact Nat.lt_succ_of_lt hlt

theorem fenced_transacted {mutation : Mutation} {nonce : Block} {after : Disk}
    {store' : Store} {result : Result Reply} (hfenced : disk.Fenced platform)
    (hcur : disk.Current store)
    (h : Transacted platform disk store mutation nonce after store' result) :
    after.Fenced platform ∧ after.Current store' := by
  rcases hcur with ⟨last, rest, hhist, hdb, hckpt⟩
  cases h with
  | refused err hafter =>
    refine ⟨hfenced, last, rest, hhist, hdb, ?_⟩
    intro husable
    rcases hafter with hsame | hpois
    · rw [hsame] at husable ⊢
      exact hckpt husable
    · rw [hpois] at husable
      cases husable
  | answered => exact ⟨hfenced, last, rest, hhist, hdb, hckpt⟩
  | reserved err hresv hread hfile hafter =>
    have hlast := hckpt hresv.usable
    have hnext := nextCheckpoint_inv hresv.next
    rw [hlast] at hread hnext
    have hholds := settled_of_read hfenced hhist hread
    refine ⟨fenced_reserved hfenced hhist hholds hnext.left hnext.right hfile,
      last, rest, hhist, hdb, ?_⟩
    rw [hafter]
    nofun
  | committed hresv hread hafter =>
    have hlast := hckpt hresv.usable
    have hnext := nextCheckpoint_inv hresv.next
    rw [hlast] at hnext
    refine ⟨fenced_commit disk.database hfenced
      (lt_of_last hfenced hhist hnext.left) hnext.right, current_commit _ ?_⟩
    intro husable
    rcases hafter with hdoubt | hdone
    · rw [hdoubt.left] at husable
      cases husable
    · exact hdone.right.left

/-!
## Openings
-/

def Tables.Fresh (tables : Tables) : Prop :=
  tables.tombstones = .empty ∧ tables.grants = .empty ∧ tables.operations = .empty ∧
    tables.generations = .empty

/-- What the first part of an opening does, up to its first COMMIT. -/
inductive Opened (platform : Platform) (disk : Disk) : Disk -> Result Store -> Prop where
  | refused (err : StoreError) : Opened platform disk disk (.error err)
  | blank (err : StoreError) (hmissing : disk.database = none) :
      Opened platform disk (disk.setDatabase (some .blank)) (.error err)
  | initialising {file : Cell Bytes} (err : StoreError)
      (hmissing : disk.database = none) (habsent : disk.authority.visible = none) :
      Opened platform disk ((disk.setDatabase (some .blank)).setAuthority file)
        (.error err)
  | created {root : Root} {tables : Tables} {checkpoint : Checkpoint}
      {result : Result Store}
      (hmissing : disk.database = none) (habsent : disk.authority.visible = none)
      (hfits : checkpoint.Fits)
      (hfresh : (Disk.writeCheckpoint tables checkpoint).Fresh)
      (hresult : forall store, result = .ok store -> store.checkpoint = checkpoint) :
      Opened platform disk (((disk.setDatabase (some .blank)).setAuthority (disk.authority.publish
        (encodeRecord platform root checkpoint))).commit tables checkpoint .initialised) result
  | existing {authority : FileAuthority} {tables : Tables} {store : Store}
      (hdatabase : disk.database = some (.current tables))
      (hcheckpoint : tables.checkpoint = some store.checkpoint)
      (hread : authority.read platform disk.authority = .ok store.checkpoint) :
      Opened platform disk disk (.ok store)

theorem recheck_inv (h : Store.recheck platform request file tables = .ok checkpoint) :
    tables.checkpoint = some checkpoint ∧
      FileAuthority.read platform { root := request.root } file = .ok checkpoint := by
  simp only [Store.recheck, ok_iff] at h
  rcases h with ⟨_, _, _, _, _, _, independent, hread, found, hfound, _, hverify, _, _, _, _, rfl⟩
  have hsame : independent = found := Checkpoint.verify_eq_ok.mp hverify
  rw [hsame] at hread
  exact ⟨hfound, hread⟩

theorem openExisting_opened {database : Database} (hdb : disk.database = some database)
    (h : Store.openExisting platform request disk.authority database = .ok store) :
    Opened platform disk disk (.ok store) := by
  unfold Store.openExisting at h
  split at h
  · simp only [ok_iff] at h
    rcases h with ⟨_, _, _, _, h⟩
    cases h
  · split at h
    · cases h
    · split at h
      · cases h
      · rename_i hversion
        have hversion : database.userVersion = 3 := by simpa using hversion
        simp only [ok_iff] at h
        rcases h with ⟨_, htables, _, _, _, hrecheck, rfl⟩
        have hinv := recheck_inv hrecheck
        refine .existing ?_ hinv.left hinv.right
        rw [hdb]
        cases database
        cases hversion
        cases htables
        rfl

theorem freshTables_inv (h : Store.freshTables platform request = .ok (tables, checkpoint)) :
    checkpoint.Fits ∧ (Disk.writeCheckpoint tables checkpoint).Fresh := by
  simp only [Store.freshTables, Checkpoint.fresh, ok_iff, Prod.mk.injEq] at h
  rcases h with ⟨_, _, _, ⟨_, _, rfl⟩, rfl, rfl⟩
  exact ⟨⟨Nat.zero_le _, Nat.zero_le _⟩, rfl, rfl, rfl, rfl⟩

theorem create_opened (request : OpenRequest) (faults : Faults) (hmiss : disk.database = none) :
    Opened platform disk (Store.create platform request disk faults).1
      (Store.create platform request disk faults).2 := by
  unfold Store.create
  cases hfresh : Store.freshTables platform request with
  | error err => exact .blank err hmiss
  | ok fresh =>
    rcases fresh with ⟨_, checkpoint⟩
    have hinv := freshTables_inv hfresh
    have hpub := @FileAuthority.initializeFile_publication platform
      { root := request.root } disk.authority checkpoint faults.publish
    rcases hinit : FileAuthority.initializeFile platform { root := request.root }
      disk.authority checkpoint faults.publish with ⟨_, _, _⟩
    rw [hinit] at hpub
    dsimp only
    rw [hinit]
    rcases hpub with ⟨habsent, hpub⟩ | ⟨hfile, err, herr⟩
    · cases hpub with
      | refused err => exact .blank err hmiss
      | renamed err => exact .initialising err hmiss habsent
      | published =>
        cases hcommit : faults.commit with
        | done =>
          refine .created hmiss habsent hinv.left hinv.right ?_
          intro _ hstore
          cases hstore
          rfl
        | failed durable err =>
          cases durable with
          | true => exact .created hmiss habsent hinv.left hinv.right nofun
          | false => exact .initialising err hmiss habsent
    · simp only at hfile herr
      rw [hfile, herr]
      exact .blank err hmiss

theorem openDatabase_opened (request : OpenRequest) (disk : Disk) (faults : OpenFaults) :
    Opened platform disk (openDatabase platform request disk faults).1
      (openDatabase platform request disk faults).2 := by
  unfold openDatabase
  split
  · exact .refused _
  · split
    · rename_i hmiss _
      split
      · exact .blank _ hmiss
      · exact .refused _
    · rename_i hmiss _
      exact create_opened request faults.opening hmiss
    · exact .refused _
    · rename_i database hdb _
      cases hopened : Store.openExisting platform request disk.authority database with
      | error err => exact .refused err
      | ok => exact openExisting_opened hdb hopened

section

variable (hfenced : disk.Fenced platform)
include hfenced

/-- While the authority file exists, an opening only finds the newest database. -/
theorem newest_of_existing
    (hdb : disk.database = some (.current tables)) (hckpt : tables.checkpoint = some checkpoint)
    (hread : authority.read platform disk.authority = .ok checkpoint) :
    exists last rest, disk.history = last :: rest ∧
      disk.database = some last.database ∧ checkpoint = last.checkpoint ∧
      AuthorityHolds platform disk.authority last.checkpoint := by
  rcases hfenced.found _ hdb with hblank | ⟨entry, hentry, hsame⟩
  · cases hblank
  · have htables : tables = entry.tables := by
      cases hsame
      rfl
    have hstamp : checkpoint = entry.checkpoint := by
      have h := entry.stamped
      rw [<- htables, hckpt] at h
      exact Option.some.inj h
    cases hhist : disk.history with
    | nil => cases hhist ▸ hentry
    | cons last rest =>
      rcases hfenced.guarded last rest hhist with ⟨_, hwritten, hguard⟩
      have hord := hfenced.ordered
      rw [hhist] at hord hentry
      have hvisible := visible_of_read hwritten hread
      rw [hstamp] at hvisible
      have hlast := eq_last_of_guard Committed.checkpoint hord hguard hentry hvisible
      refine ⟨last, rest, rfl, ?_, ?_, ?_⟩
      · rw [hdb, hsame, hlast.left]
      · rw [hstamp, hlast.left]
      · rw [hlast.right] at hwritten
        exact hwritten

theorem history_of_absent
    (habsent : disk.authority.visible = none) : disk.history = [] := by
  cases hhist : disk.history with
  | nil => rfl
  | cons last rest =>
    rcases hfenced.guarded last rest hhist with ⟨_, hwritten, hguard⟩
    exact absurd habsent (visible_ne_none hwritten hguard)

theorem fenced_setDatabase {database : Option Database}
    (hfound : forall found, database = some found ->
      found = .blank ∨ exists entry, entry ∈ disk.history ∧ found = entry.database) :
    (disk.setDatabase database).Fenced platform :=
  ⟨hfenced.ordered, hfenced.guarded, hfound⟩

theorem fenced_opened {after : Disk} {result : Result Store}
    (h : Opened platform disk after result) :
    after.Fenced platform ∧ forall store, result = .ok store -> after.Current store := by
  have hblank : (disk.setDatabase (some .blank)).Fenced platform := by
    apply fenced_setDatabase hfenced
    intro _ hfound
    cases hfound
    exact Or.inl rfl
  cases h with
  | refused => exact ⟨hfenced, nofun⟩
  | blank => exact ⟨hblank, nofun⟩
  | initialising err _ habsent =>
    have hempty := history_of_absent hfenced habsent
    refine ⟨⟨hblank.ordered, ?_, hblank.found⟩, nofun⟩
    intro last rest hhist
    exact absurd (hempty.symm.trans hhist) (by simp)
  | created _ habsent hfits _ hresult =>
    have hempty := history_of_absent hfenced habsent
    refine ⟨fenced_commit (some .blank) hfenced ?_ hfits, ?_⟩
    · intro _
      rw [hempty]
      nofun
    · intro store hstore
      exact current_commit _ (fun _ => hresult store hstore)
  | existing hdb hckpt hread =>
    refine ⟨hfenced, ?_⟩
    intro store hstore
    cases hstore
    rcases newest_of_existing hfenced hdb hckpt hread with
      ⟨last, rest, hhist, hlast, hstamp, _⟩
    exact ⟨last, rest, hhist, hlast, fun _ => hstamp⟩

end

theorem openRoot_transacted (request : OpenRequest) (disk : Disk) (faults : OpenFaults) :
    ((openRoot platform request disk faults).1 = (openDatabase platform request disk
      faults).1 ∧ exists err, (openRoot platform request disk faults).2 = .error err ∧
      (openDatabase platform request disk faults).2 = .error err) ∨
    exists opened, (openDatabase platform request disk faults).2 = .ok opened ∧
      exists store result,
        Transacted platform (openDatabase platform request disk faults).1 opened
          .reconcilePendingRotations request.recoveryNonce
          (openRoot platform request disk faults).1 store result ∧
        (openRoot platform request disk faults).2 = result.map (fun _ => store) := by
  unfold openRoot
  rcases hopened : openDatabase platform request disk faults with ⟨opened, result⟩
  cases result with
  | error err => exact Or.inl ⟨rfl, err, rfl, rfl⟩
  | ok store =>
    right
    refine ⟨store, rfl, ?_⟩
    have htx := @transact_transacted platform store opened
      .reconcilePendingRotations request.recoveryNonce faults.recovery
    rcases hrec : store.transact platform opened .reconcilePendingRotations
      request.recoveryNonce faults.recovery with ⟨_, after, recovery⟩
    rw [hrec] at htx
    dsimp only
    rw [hrec]
    cases recovery with
    | error | ok => exact ⟨after, _, htx, rfl⟩

theorem fenced_openRoot (request : OpenRequest) (faults : OpenFaults)
    (hfenced : disk.Fenced platform) :
    (openRoot platform request disk faults).1.Fenced platform ∧
      forall store, (openRoot platform request disk faults).2 = .ok store ->
        (openRoot platform request disk faults).1.Current store := by
  have hopened := fenced_opened hfenced (@openDatabase_opened platform request disk faults)
  rcases @openRoot_transacted platform request disk faults with
    ⟨hdisk, _, herr, _⟩ | ⟨opened, hok, store, result, htx, hresult⟩
  · rw [hdisk, herr]
    exact ⟨hopened.left, nofun⟩
  · have hafter := fenced_transacted hopened.left (hopened.right opened hok) htx
    refine ⟨hafter.left, ?_⟩
    intro _ hstore'
    rw [hresult] at hstore'
    cases result with
    | error => cases hstore'
    | ok =>
      cases hstore'
      exact hafter.right

/-!
## Runs
-/

namespace System

structure Sound (platform : Platform) (system : System) : Prop where
  fenced : system.disk.Fenced platform
  current : forall store, system.store = some store -> system.disk.Current store

theorem sound_installed : Sound platform installed where
  fenced :=
    { ordered := List.Pairwise.nil
      guarded := by
        nofun
      found := by
        intro _ h
        cases h }
  current := by
    nofun

theorem sound_step (system : System) (event : Event) (h : Sound platform system) :
    Sound platform (system.step platform event) := by
  cases event with
  | openStore request faults crash =>
    cases hstore : system.store with
    | some => simpa only [step, respond, hstore] using h
    | none =>
      have hopened := fenced_openRoot request faults h.fenced
      simp only [step, respond, hstore]
      refine ⟨hopened.left, ?_⟩
      intro store hsome
      apply hopened.right store
      cases crash with
      | true => cases hsome
      | false =>
        cases hresult : (openRoot platform request system.disk faults).2 with
        | error => cases hresult ▸ hsome
        | ok =>
          rw [hresult] at hsome
          cases hsome
          rfl
  | mutate mutation nonce faults crash =>
    cases hstore : system.store with
    | none => simpa only [step, respond, hstore] using h
    | some store =>
      have hafter := fenced_transacted h.fenced (h.current store hstore)
        (transact_transacted store system.disk mutation nonce faults)
      simp only [step, respond, hstore]
      refine ⟨hafter.left, ?_⟩
      intro _ hsome
      cases crash with
      | true => cases hsome
      | false =>
        cases hsome
        exact hafter.right
  | close => exact ⟨h.fenced, nofun⟩
  | powerLoss kept =>
    refine ⟨⟨h.fenced.ordered, ?_, h.fenced.found⟩, nofun⟩
    intro last rest hhist
    rcases h.fenced.guarded last rest hhist with ⟨_, hwritten, hguard⟩
    exact ⟨_, written_powerLoss hwritten kept, hguard.powerLoss kept⟩
  | restoreDatabase index =>
    cases hstore : system.store with
    | some => simpa only [step, respond, hstore] using h
    | none =>
      cases hentry : system.disk.history[index]? with
      | none => simpa only [step, respond, hstore, hentry] using h
      | some entry =>
        simp only [step, respond, hstore, hentry]
        refine ⟨fenced_setDatabase h.fenced ?_, nofun⟩
        intro _ hfound
        cases hfound
        exact Or.inr ⟨entry, List.mem_of_getElem? hentry, rfl⟩
  | deleteDatabase =>
    cases hstore : system.store with
    | some => simpa only [step, respond, hstore] using h
    | none =>
      simp only [step, respond, hstore]
      refine ⟨fenced_setDatabase h.fenced ?_, nofun⟩
      nofun

theorem sound_run (events : List Event) : Sound platform (run (step platform) installed events) :=
  run_invariant sound_step sound_installed events

theorem exposed_last {system : System} {tables : Tables} (h : Sound platform system)
    (hexposed : system.exposed = some tables) :
    exists last rest, system.disk.history = last :: rest ∧ tables = last.tables := by
  unfold exposed at hexposed
  split at hexposed
  · cases hexposed
  · rename_i store hstore
    split at hexposed
    · cases hexposed
    · rcases h.current store hstore with ⟨last, rest, hhist, hdb, _⟩
      rw [Disk.tables, hdb] at hexposed
      cases hexposed
      exact ⟨last, rest, hhist, rfl⟩

/-- An opening beside an existing authority file finds the newest database, and the
file holds its checkpoint. -/
theorem openDatabase_newest {request : OpenRequest} {faults : OpenFaults}
    (hfenced : disk.Fenced platform) (hauth : disk.authority.visible ≠ none)
    (hopened : (openDatabase platform request disk faults).2 = .ok store) :
    (openDatabase platform request disk faults).1 = disk ∧
    exists last rest, disk.history = last :: rest ∧
      disk.database = some last.database ∧
      AuthorityHolds platform disk.authority last.checkpoint := by
  have hcases := @openDatabase_opened platform request disk faults
  generalize (openDatabase platform request disk faults).1 = after at hcases ⊢
  rw [hopened] at hcases
  cases hcases with
  | created _ habsent => exact absurd habsent hauth
  | existing hdb hckpt hread =>
    rcases newest_of_existing hfenced hdb hckpt hread with
      ⟨last, rest, hhist, hlast, _, hholds⟩
    exact ⟨rfl, last, rest, hhist, hlast, hholds⟩

theorem openDatabase_missing (request : OpenRequest) (faults : OpenFaults)
    (hmiss : disk.database = none) (hauth : disk.authority.visible ≠ none) :
    (exists err, (openDatabase platform request disk faults).2 = .error err) ∧
    ((openDatabase platform request disk faults).1 = disk ∨
      (openDatabase platform request disk faults).1 = disk.setDatabase (some .blank)) := by
  have hcases := @openDatabase_opened platform request disk faults
  generalize (openDatabase platform request disk faults).1 = after at hcases ⊢
  generalize (openDatabase platform request disk faults).2 = result at hcases ⊢
  cases hcases with
  | refused err => exact ⟨⟨err, rfl⟩, .inl rfl⟩
  | blank err _ => exact ⟨⟨err, rfl⟩, .inr rfl⟩
  | initialising _ _ habsent => exact absurd habsent hauth
  | created _ habsent => exact absurd habsent hauth
  | existing hdb _ _ =>
    rw [hmiss] at hdb
    cases hdb

/-- The pending rotations of the newest database were given up, if it had any. -/
def Recovered (platform : Platform) (last : Committed) (disk after : Disk) : Prop :=
  after = disk ∨
  exists entry tables reply, last.tables.reconcilePendingRotations = .ok (.changed tables reply) ∧
    entry.tables = Disk.writeCheckpoint tables entry.checkpoint ∧
    after.history = entry :: disk.history ∧ after.database = some entry.database ∧
    AuthorityHolds platform after.authority entry.checkpoint

theorem recovered_transacted {after : Disk} {opened : Store} {nonce : Block} {reply : Reply}
    {last : Committed} (hdb : disk.database = some last.database)
    (h : Transacted platform disk opened .reconcilePendingRotations nonce after store
      (.ok reply)) : Recovered platform last disk after := by
  generalize hresult : (Except.ok reply : Result Reply) = result at h
  cases h with
  | refused | reserved => cases hresult
  | answered => exact Or.inl rfl
  | committed hresv hread hafter =>
    rcases hresv.body with ⟨_, hbefore, _, hprep, hbody⟩
    rw [Disk.tables, hdb] at hbefore
    cases hbefore
    cases hprep
    have hnext := nextCheckpoint_inv hresv.next
    exact Or.inr ⟨_, _, _, hbody, rfl, rfl, rfl,
      written_publish disk.authority ⟨none, none⟩ _ hnext.right⟩

/-- A store only ever works on the last committed database.  An opening beside an
existing authority file admits that database and no other, and a database that was
deleted is not made again. -/
theorem rolled_back_never_opened (platform : Platform) (events : List Event) :
    (forall tables, (run (step platform) installed events).exposed = some tables ->
      exists last rest, (run (step platform) installed events).disk.history = last :: rest ∧
        tables = last.tables) ∧
    (forall request faults store,
      (run (step platform) installed events).disk.authority.visible ≠ none ->
      (openRoot platform request (run (step platform) installed events).disk faults).2 =
        .ok store ->
      exists last rest, (run (step platform) installed events).disk.history = last :: rest ∧
        (run (step platform) installed events).disk.database = some last.database ∧
        AuthorityHolds platform (run (step platform) installed events).disk.authority
          last.checkpoint ∧
        Recovered platform last (run (step platform) installed events).disk
          (openRoot platform request (run (step platform) installed events).disk faults).1) ∧
    (forall request faults, (run (step platform) installed events).disk.database = none ->
      (run (step platform) installed events).disk.authority.visible ≠ none ->
      (exists err, (openRoot platform request
        (run (step platform) installed events).disk faults).2 = .error err) ∧
      ((openRoot platform request (run (step platform) installed events).disk faults).1 =
          (run (step platform) installed events).disk ∨
        (openRoot platform request (run (step platform) installed events).disk faults).1 =
          (run (step platform) installed events).disk.setDatabase (some .blank))) := by
  have hsound := @sound_run platform events
  generalize run (step platform) installed events = system at hsound ⊢
  refine ⟨fun tables => exposed_last hsound, ?_, ?_⟩
  · intro request faults store hauth hopen
    rcases @openRoot_transacted platform request system.disk faults with
      ⟨_, err, herr, _⟩ | ⟨opened, hok, _, result, htx, hresult⟩
    · rw [herr] at hopen
      cases hopen
    · rcases openDatabase_newest hsound.fenced hauth hok with
        ⟨hsame, last, rest, hhist, hdb, hholds⟩
      refine ⟨last, rest, hhist, hdb, hholds, ?_⟩
      rw [hsame] at htx
      rw [hresult] at hopen
      cases result with
      | error err => cases hopen
      | ok _ => exact recovered_transacted hdb htx
  · intro request faults hmiss hauth
    rcases openDatabase_missing request faults hmiss hauth with ⟨⟨err, herr⟩, hdisk⟩
    rcases @openRoot_transacted platform request system.disk faults with
      ⟨hsame, _, hfailed, _⟩ | ⟨opened, hok, _⟩
    · refine ⟨⟨_, hfailed⟩, ?_⟩
      rw [hsame]
      exact hdisk
    · rw [herr] at hok
      cases hok

def plainAead : Aead where
  encrypt := fun _ _ _ plaintext => (plaintext, Vector.replicate 16 0)
  decrypt := fun _ _ _ ciphertext _ => some ciphertext
  length_encrypt := fun _ _ _ text => Eq.refl text.length

def plainPlatform : Platform where
  sha256 := fun _ => Vector.replicate 32 0
  hmacSha256 := fun _ _ => Vector.replicate 32 0
  parseJson := fun _ => some (.object [])
  aead := plainAead

def plainRequest : OpenRequest where
  root := { keyId := ascii "installation-v1", key := Vector.replicate 32 1 }
  installation := Vector.replicate 32 2
  nonce := Vector.replicate 32 3
  keyNonce := Vector.replicate 24 4
  recoveryNonce := Vector.replicate 32 5

def committedRun : List Event :=
  [.openStore plainRequest {} false,
    .mutate (.commit 0 emptyMetadata [.tombstoneAccount (ascii "a")])
      (Vector.replicate 32 6) {} false, .close]

abbrev committedDisk (later : List Event) : Disk :=
  (run (step plainPlatform) installed (committedRun ++ later)).disk

abbrev committedOpen (later : List Event) : Result Store :=
  (openRoot plainPlatform plainRequest (committedDisk later) {}).2

theorem rolled_back_never_opened_committedRun :
    (exists store last rest, committedOpen [] = .ok store ∧
      (committedDisk []).history = last :: rest ∧
      (committedDisk []).database = some last.database) ∧
    (exists err, committedOpen [.restoreDatabase 1] = .error err) ∧
    exists err, committedOpen [.deleteDatabase] = .error err := by
  have hspec := fun later => (rolled_back_never_opened plainPlatform (committedRun ++ later)).right
  refine ⟨?_, ?_, ((hspec _).right plainRequest {} (by decide +kernel) (by decide +kernel)).left⟩
  · cases hopen : committedOpen [] with
    | error _ =>
      have hok : (committedOpen []).toOption.isSome = true := by decide +kernel
      cases hopen ▸ hok
    | ok store =>
      rcases (hspec []).left plainRequest {} store (by decide +kernel) hopen with
        ⟨last, rest, hhist, hdb, _⟩
      exact ⟨store, last, rest, rfl, by rw [committedDisk, hhist], by rw [committedDisk, hdb]⟩
  · cases hopen : committedOpen [.restoreDatabase 1] with
    | error err => exact ⟨err, rfl⟩
    | ok store =>
      rcases (hspec _).left plainRequest {} store (by decide +kernel) hopen with
        ⟨_, _, hhist, hdb, _⟩
      have hold : (committedDisk [.restoreDatabase 1]).tables.map (·.tombstones.rows) ≠
          (committedDisk [.restoreDatabase 1]).history.head?.map (·.tables.tombstones.rows) := by
        decide +kernel
      exact absurd (by rw [committedDisk, Disk.tables, hhist, hdb]; rfl) hold

end System

end Omux.Storage
