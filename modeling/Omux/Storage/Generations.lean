import Omux.Storage.Issuance
import Mathlib.Data.List.Range

/-!
# Grant generations

For each grant the installed generations are consecutive, and the row of the grant, while
it exists, is the last of them.
-/

namespace Omux.Storage

open Library Tables List

/-!
## What was installed
-/

structure Install where
  key : Block
  nonce : SealNonce
  context : Context
  plaintext : Bytes

def GrantChange.installs (root : Root) : GrantChange -> List Install
  | .put grant nonce =>
    [{ key := root.key, nonce, context := grant.context,
       plaintext := grant.plaintext }]
  | .delete _ => []
  | .tombstoneAccount _ => []
  | .reenrollAccount _ => []

def Mutation.installs (root : Root) : Mutation -> List Install
  | .commit _ _ changes => changes.flatMap (GrantChange.installs root)
  | .beginRotation _ _ => []
  | .completeRotation _ _ _ successor plaintext nonce =>
    [{ key := root.key, nonce, context := successor, plaintext }]
  | .quarantineRotation _ => []
  | .reconcilePendingRotations => []

def Cause.installs : Cause -> List Install
  | .initialised => []
  | .mutated root mutation => mutation.installs root

def installs : List Committed -> List Install
  | [] => []
  | entry :: rest => installs rest ++ entry.cause.installs

def installedFor (grant : GrantKey) (log : List Install) : List Install :=
  log.filter (fun install => install.context.grant == grant)

theorem installedFor_append (grant : GrantKey) (log more : List Install) :
    installedFor grant (log ++ more) = installedFor grant log ++ installedFor grant more :=
  filter_append ..

/-- The log explains the tables. -/
structure Recorded (platform : Platform) (log : List Install) (tables : Tables) : Prop where
  generations : forall grant,
    (installedFor grant log).map (fun install => install.context.generation) =
      range' 1 (tables.watermark grant)
  rows : forall grant row, tables.grants.find grant = some row -> exists install,
    (installedFor grant log).getLast? = some install ∧
    install.context.generation = row.generation ∧
    sealEnvelope platform install.key install.context install.nonce install.plaintext =
      .ok row.ciphertext

variable {platform : Platform} {log : List Install} {tables next : Tables}

theorem recorded_fresh (h : tables.Fresh) : Recorded platform [] tables := by
  rcases h with ⟨_, hgrants, _, hgens⟩
  constructor
  · intro grant
    unfold Tables.watermark
    rw [hgens]
    rfl
  · intro grant _
    rw [hgrants]
    nofun

theorem recorded_kept (h : Recorded platform log tables)
    (hgens : next.generations = tables.generations)
    (hrows : forall grant row, next.grants.find grant = some row -> exists old,
      tables.grants.find grant = some old ∧ row.generation = old.generation ∧
      row.ciphertext = old.ciphertext) : Recorded platform log next := by
  constructor
  · intro grant
    rw [Tables.watermark, hgens]
    exact h.generations grant
  · intro grant row hrow
    rcases hrows grant row hrow with ⟨old, hold, hgen, hciphertext⟩
    rw [hgen, hciphertext]
    exact h.rows grant old hold

theorem recorded_same (h : Recorded platform log tables)
    (hsame : Tables.SameCustody tables next) : Recorded platform log next := by
  apply recorded_kept h hsame.generations
  intro _ row hrow
  rw [hsame.grants] at hrow
  exact ⟨row, hrow, rfl, rfl⟩

variable {root : Root} {ciphertext : Bytes} {context : Context} {reply : Reply}

section

variable (h : Recorded platform log tables)
include h

theorem recorded_install {install : Install} {row : GrantRow}
    (hgen : install.context.generation = tables.watermark install.context.grant + 1)
    (hseal : sealEnvelope platform install.key install.context install.nonce
      install.plaintext = .ok row.ciphertext)
    (hgens : next.generations = (tables.recordGeneration install.context).generations)
    (hfind : forall grant, next.grants.find grant =
      if install.context.grant = grant then some row else tables.grants.find grant)
    (hrow : row.generation = install.context.generation) :
    Recorded platform (log ++ [install]) next := by
  constructor
  · intro grant
    rw [Tables.watermark, hgens, <- Tables.watermark, watermark_record, installedFor_append,
      map_append, h.generations]
    by_cases hgrant : install.context.grant = grant
    · rw [if_pos hgrant, hgen, range'_concat]
      simp [installedFor, hgrant, hgen, Nat.add_comm]
    · simp [installedFor, hgrant]
  · intro grant found hfound
    rw [hfind] at hfound
    rw [installedFor_append]
    split at hfound
    · rename_i hgrant
      cases hfound
      exact ⟨install, by simp [installedFor, hgrant], hrow.symm, hseal⟩
    · rename_i hgrant
      have hnone : installedFor grant [install] = [] := by simp [installedFor, hgrant]
      rw [hnone, append_nil]
      exact h.rows grant found hfound

/-!
## Changes
-/

theorem recorded_dropGrants (selected : GrantKey -> Bool) :
    Recorded platform log (tables.dropGrants selected) :=
  recorded_kept h rfl (fun _ row hrow => ⟨row, (find_of_dropGrants hrow).left, rfl, rfl⟩)

theorem recorded_put {grant : GrantPut} {nonce : SealNonce}
    (hseal : sealEnvelope platform root.key grant.context nonce grant.plaintext =
      .ok ciphertext) (hput : tables.put grant ciphertext = .ok next) :
    Recorded platform (log ++ (GrantChange.put grant nonce).installs root) next := by
  rcases put_inv hput with ⟨_, hgen, _, rfl⟩
  exact recorded_install h hgen hseal rfl (Table.find_upsert _ (Tables.putRow grant _)) rfl

theorem recorded_change {change : GrantChange} {sealed : SealedChange}
    (hseal : sealChange platform root change = .ok sealed)
    (happly : tables.applyChange sealed = .ok next) :
    Recorded platform (log ++ change.installs root) next := by
  cases change with
  | put =>
    simp only [sealChange, ok_iff] at hseal
    rcases hseal with ⟨_, _, _, hciphertext, rfl⟩
    exact recorded_put h hciphertext happly
  | delete =>
    cases hseal
    cases happly
    rw [GrantChange.installs, append_nil]
    exact recorded_dropGrants h _
  | tombstoneAccount =>
    cases hseal
    simp only [Tables.applyChange, Tables.tombstoneAccount, ok_iff] at happly
    rcases happly with ⟨_, _, hnext⟩
    rw [<- hnext, GrantChange.installs, append_nil]
    apply recorded_dropGrants
    exact ⟨h.generations, h.rows⟩
  | reenrollAccount =>
    cases hseal
    simp only [Tables.applyChange, Tables.reenrollAccount, ok_iff] at happly
    rcases happly with ⟨_, _, hnext⟩
    rw [<- hnext, GrantChange.installs, append_nil]
    exact ⟨h.generations, h.rows⟩

theorem recorded_changes {changes : List GrantChange} {sealed : List SealedChange}
    (hseal : sealChanges platform root changes = .ok sealed)
    (happly : sealed.foldlM Tables.applyChange tables = .ok next) :
    Recorded platform (log ++ changes.flatMap (GrantChange.installs root)) next := by
  induction changes generalizing sealed tables log with
  | nil =>
    cases hseal
    cases happly
    rw [flatMap_nil, append_nil]
    exact h
  | cons _ _ ih =>
    simp only [sealChanges, ok_iff] at hseal
    rcases hseal with ⟨_, hfirst, _, hothers, rfl⟩
    rw [foldlM_cons, bind_eq_ok] at happly
    rcases happly with ⟨_, hmiddle, happly⟩
    rw [flatMap_cons, <- append_assoc]
    exact ih (recorded_change h hfirst hmiddle) hothers happly

theorem recorded_quarantine {grants : GrantRow -> Bool} {operations : OperationRow -> Bool} :
    Recorded platform log
      ((tables.quarantineGrants grants).quarantineOperations operations) := by
  refine recorded_kept h rfl ?_
  intro grant row hrow
  have hrow : (tables.quarantineGrants grants).grants.find grant = some row := hrow
  rw [find_quarantineGrants, Option.map_eq_some_iff] at hrow
  rcases hrow with ⟨old, hold, rfl⟩
  refine ⟨old, hold, ?_⟩
  split <;> exact ⟨rfl, rfl⟩

theorem recorded_startRotation {operationId : Bytes}
    (hstart : tables.startRotation context operationId = .ok (.changed next reply)) :
    Recorded platform log next := by
  rcases startRotation_inv hstart with ⟨ready, _, hsame, hready, _, hfind, _, hgens, _⟩
  apply recorded_same (recorded_kept h hgens ?_) hsame
  intro _ row hrow
  rw [hfind] at hrow
  split at hrow
  · rename_i hgrant
    cases hrow
    exact ⟨ready, hgrant ▸ hready, rfl, rfl⟩
  · exact ⟨row, hrow, rfl, rfl⟩

end

theorem recorded_completeRotation {operationId json plaintext : Bytes} {expected : Nat}
    {successor : Context} {nonce : SealNonce} (hc : tables.Consistent)
    (h : Recorded platform log tables)
    (hseal : sealEnvelope platform root.key successor nonce plaintext = .ok ciphertext)
    (hcomp : tables.completeRotation operationId expected json successor ciphertext =
      .ok (.changed next reply)) :
    Recorded platform (log ++ (Mutation.completeRotation operationId expected json successor
      plaintext nonce).installs root) next := by
  rcases completeRotation_inv hcomp with ⟨_, _, _, _, _, hgrant, hgen, hrow, hawaiting, rfl⟩
  have hsuccessor : successor.generation = tables.watermark successor.grant + 1 := by
    rw [hgen, watermark_of_find hc hrow, (awaiting_inv hawaiting).right]
  exact recorded_install h hsuccessor hseal rfl (find_grants_install hrow hgrant hawaiting) rfl

theorem recorded_yields {mutation : Mutation} (hc : tables.Consistent)
    (h : Recorded platform log tables)
    (hbody : mutation.Yields platform root tables (.changed next reply)) :
    Recorded platform (log ++ mutation.installs root) next := by
  rcases hbody with ⟨prepared, hprep, hbody⟩
  cases mutation with
  | commit expected json changes =>
    simp only [Mutation.prepare, ok_iff] at hprep
    rcases hprep with ⟨_, _, _, hsealed, heq⟩
    cases heq
    rcases commit_inv hbody with ⟨changed, revision, hchanged, rfl⟩
    exact recorded_same (recorded_changes h hsealed hchanged)
      (same_updateSnapshot changed revision json)
  | beginRotation =>
    have hbegin := beginRotation_inv (yields_begin ⟨prepared, hprep, hbody⟩)
    rw [Mutation.installs, append_nil]
    exact recorded_startRotation h hbegin.right.right
  | completeRotation =>
    simp only [Mutation.prepare, ok_iff] at hprep
    rcases hprep with ⟨_, _, _, _, _, hciphertext, heq⟩
    cases heq
    exact recorded_completeRotation hc h hciphertext hbody
  | quarantineRotation | reconcilePendingRotations =>
    cases hprep
    rw [Mutation.installs, append_nil]
    exact recorded_same (recorded_quarantine h) (quarantine_inv hbody)

theorem recorded_lineage {last : Committed} {rest : List Committed}
    (h : Lineage platform (last :: rest)) :
    Recorded platform (installs (last :: rest)) last.tables := by
  generalize hhist : last :: rest = history at h
  induction h generalizing last rest with
  | nil => cases hhist
  | initialised hfresh hcause =>
    cases hhist
    rw [installs, hcause]
    exact recorded_fresh hfresh
  | mutated hbefore hbody htables hcause ih =>
    cases hhist
    have hcons := consistent_lineage hbefore _ mem_cons_self
    rw [installs, hcause, htables]
    exact recorded_same (recorded_yields hcons (ih rfl) hbody) (same_writeCheckpoint _ _)

/-!
## Reading a grant
-/

theorem loadGrant_inv {secret : Bytes} (h : tables.loadGrant platform root context = .ok secret) :
    exists row, tables.grants.find context.grant = some row ∧
      row.generation = context.generation ∧ row.state = .ready ∧
      openEnvelope platform root.key context row.ciphertext = .ok secret := by
  simp only [Tables.loadGrant, ok_iff, bool_iff] at h
  rcases h with ⟨_, _, _, _, row, hrow, _, hgen, _, _, _, hready, hopen⟩
  exact ⟨row, hrow, hgen, hready, hopen⟩

theorem loadGrant_last {secret : Bytes} (hrecorded : Recorded platform log tables)
    (h : tables.loadGrant platform root context = .ok secret) :
    exists install row, (installedFor context.grant log).getLast? = some install ∧
      install.context.generation = context.generation ∧
      tables.grants.find context.grant = some row ∧ row.state = .ready ∧
      (install.key = root.key -> platform.aead.Correct install.key install.nonce ->
        secret = install.plaintext) := by
  rcases loadGrant_inv h with ⟨row, hrow, hgen, hready, hopen⟩
  rcases hrecorded.rows context.grant row hrow with ⟨install, hlast, hsame, hseal⟩
  refine ⟨install, row, hlast, hsame.trans hgen, hrow, hready, fun hkey hcorrect => ?_⟩
  exact openEnvelope_sealed hcorrect hseal (hkey ▸ hopen)

namespace System

/-- A mutation that was answered is the next entry of the history, unless it had
nothing to change. -/
theorem answered_recorded {system : System} {mutation : Mutation} {nonce : Block}
    {faults : Faults} {crash : Bool} {reply : Reply}
    (h : (system.respond platform (.mutate mutation nonce faults crash)).2 = some (.ok reply)) :
    exists store before, system.store = some store ∧ system.disk.tables = some before ∧
      (installs (system.step platform (.mutate mutation nonce faults crash)).disk.history =
          installs system.disk.history ++ mutation.installs store.root ∨
        mutation.Yields platform store.root before (.unchanged reply)) := by
  cases hstore : system.store with
  | none =>
    simp only [respond, hstore] at h
    cases h
  | some store =>
    have hanswer : (store.transact platform system.disk mutation nonce faults).2.2 =
        .ok reply := by
      simp only [respond, hstore, unlessCrashed] at h
      split at h
      · cases h
      · exact Option.some.inj h
    have htx := @transact_transacted platform store system.disk mutation nonce faults
    simp only [step, respond, hstore]
    rw [hanswer] at htx
    generalize (store.transact platform system.disk mutation nonce faults).1 = disk,
      (store.transact platform system.disk mutation nonce faults).2.1 = after
      at htx
    cases htx with
    | answered _ hbefore hbody => exact ⟨store, _, rfl, hbefore, .inr hbody⟩
    | committed hresv _ _ =>
      rcases hresv.body with ⟨before, hbefore, _⟩
      exact ⟨store, before, rfl, hbefore, .inl rfl⟩

/-- In every run the generations of a grant that were ever installed are `1, 2, 3, …`,
its row holds the last of them, and the secret read back under the key that sealed it is the
one installed with it. -/
theorem grant_generations_never_reused (platform : Platform) (events : List Event) :
    (forall last rest, (run (step platform) installed events).disk.history = last :: rest ->
      (forall grant, (installedFor grant (installs (last :: rest))).map
          (fun install => install.context.generation) =
            range' 1 (last.tables.watermark grant)) ∧
      (forall grant row, last.tables.grants.find grant = some row -> exists recorded,
        last.tables.generations.find grant = some recorded ∧ recorded.generation = row.generation) ∧
      (forall root context secret, last.tables.loadGrant platform root context = .ok secret ->
        exists install row,
          (installedFor context.grant (installs (last :: rest))).getLast? = some install ∧
          install.context.generation = context.generation ∧
          last.tables.grants.find context.grant = some row ∧ row.state = .ready ∧
          (install.key = root.key -> platform.aead.Correct install.key install.nonce ->
            secret = install.plaintext))) ∧
    (forall tables, (run (step platform) installed events).exposed = some tables ->
      exists last rest, (run (step platform) installed events).disk.history = last :: rest ∧
        tables = last.tables) ∧
    (forall mutation nonce faults crash reply,
      ((run (step platform) installed events).respond platform
        (.mutate mutation nonce faults crash)).2 = some (.ok reply) ->
      exists store before, (run (step platform) installed events).store = some store ∧
        (run (step platform) installed events).disk.tables = some before ∧
        (installs (run (step platform) installed
            (events ++ [.mutate mutation nonce faults crash])).disk.history =
          installs (run (step platform) installed events).disk.history ++
            mutation.installs store.root ∨
        mutation.Yields platform store.root before (.unchanged reply))) := by
  have htraced := @traced_run platform events
  refine ⟨?_, fun tables => exposed_last htraced.sound, ?_⟩
  · intro last rest hhist
    have hlineage := htraced.lineage
    rw [hhist] at hlineage
    have hrecorded := recorded_lineage hlineage
    have hcons := consistent_lineage hlineage last mem_cons_self
    refine ⟨hrecorded.generations, hcons.watermarked, ?_⟩
    intro root context secret hload
    exact loadGrant_last hrecorded hload
  · intro mutation nonce faults crash reply hanswer
    rw [run_append]
    exact answered_recorded hanswer

/-- The grant of `rotatedRun`, deleted and put again. -/
def reinstalledRun : List Event :=
  [.openStore plainRequest {} false, .mutate (.commit 0 emptyMetadata
      [.put { context := plainContext, plaintext := ascii "token", renewalOwner := .omux }
        (Vector.replicate 24 7), .delete plainContext.grant]) (Vector.replicate 32 8) {} false,
    .mutate (.commit 1 emptyMetadata
      [.put { context := { plainContext with generation := 2 }, plaintext := ascii "other",
              renewalOwner := .omux } (Vector.replicate 24 9)])
      (Vector.replicate 32 10) {} false]

theorem grant_generations_never_reused_reinstalledRun :
    exists last rest secret install,
      (run (step plainPlatform) installed reinstalledRun).disk.history = last :: rest ∧
      (installedFor plainContext.grant (installs (last :: rest))).map
        (fun install => install.context.generation) = [1, 2] ∧
      last.tables.loadGrant plainPlatform plainRequest.root
        { plainContext with generation := 2 } = .ok secret ∧
      (installedFor plainContext.grant (installs (last :: rest))).getLast? = some install ∧
      install.context.generation = 2 ∧ secret = install.plaintext := by
  have hloaded : ((run (step plainPlatform) installed reinstalledRun).disk.history.head?.any
      (fun last => last.tables.watermark plainContext.grant == 2 &&
        (last.tables.loadGrant plainPlatform plainRequest.root
          { plainContext with generation := 2 }).toOption.isSome)) = true := by
    decide +kernel
  have hkeys : forall install, install ∈ installs
      (run (step plainPlatform) installed reinstalledRun).disk.history ->
        install.key = plainRequest.root.key := by
    decide +kernel
  have hgens := (grant_generations_never_reused plainPlatform reinstalledRun).left
  generalize (run (step plainPlatform) installed reinstalledRun).disk.history = history at *
  rcases history with _ | ⟨last, rest⟩
  · cases hloaded
  rcases hgens last rest rfl with ⟨hinst, _, hload⟩
  simp only [head?_cons, Option.any_some, bool_iff] at hloaded
  rcases hloaded with ⟨hwatermark, hloaded⟩
  cases hsecret : last.tables.loadGrant plainPlatform plainRequest.root
      { plainContext with generation := 2 } with
  | error =>
    rw [hsecret] at hloaded
    cases hloaded
  | ok secret =>
    rcases hload _ _ _ hsecret with ⟨install, _, hlast, hgen, _, _, hplain⟩
    refine ⟨last, rest, secret, install, rfl, ?_, hsecret, hlast, hgen, ?_⟩
    · rw [hinst, hwatermark]
      rfl
    · refine hplain (hkeys install (mem_of_mem_filter (mem_of_getLast? hlast))) ?_
      intro _ _ _ _ hopened
      exact (Option.some.inj hopened).symm

end System

end Omux.Storage
