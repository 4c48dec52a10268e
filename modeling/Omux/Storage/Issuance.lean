import Omux.Storage.Rotation

/-!
# Permission to contact the issuer

The answer of `beginRotation` that permits the use of a rotating token is given with a new
operation row.  While it stays the grant is not ready in that generation again.
-/

namespace Omux.Storage

open Library Tables Table List

variable {platform : Platform}

theorem consistent_lineage {history : List Committed} (h : Lineage platform history) :
    forall entry, entry ∈ history -> entry.tables.Consistent := by
  induction h with
  | nil => nofun
  | initialised hfresh _ =>
    intro entry hentry
    rw [mem_singleton.mp hentry]
    exact consistent_fresh hfresh
  | mutated _ hbody htables _ ih =>
    intro entry hentry
    rcases mem_cons.mp hentry with heq | hold
    · rw [heq, htables]
      exact consistent_of_same (consistent_yields (ih _ mem_cons_self) hbody).left
        (same_writeCheckpoint _ _)
    · exact ih entry hold

/-- Whatever fails and whatever is restored, the history only grows, each database comes from
the one before it by one mutation, and the rotations of each agree with its grants. -/
theorem commits_consistent_and_kept (platform : Platform) (events later : List Event) :
    let system := run (System.step platform) System.installed events
    Lineage platform system.disk.history ∧
      (forall entry, entry ∈ system.disk.history -> entry.tables.Consistent) ∧
      system.disk.history <:+ (run (System.step platform) system later).disk.history := by
  have htraced : System.Traced platform _ := System.traced_run events
  exact ⟨htraced.lineage, consistent_lineage htraced.lineage, System.history_suffix htraced later⟩

theorem extends_lineage {last : Committed} {rest : List Committed}
    (h : Lineage platform (last :: rest)) :
    forall entry, entry ∈ last :: rest -> entry.tables.Extends last.tables := by
  generalize hhist : last :: rest = history at h
  induction h generalizing last rest with
  | nil => cases hhist
  | initialised =>
    cases hhist
    intro entry hentry
    rw [mem_singleton.mp hentry]
    exact extends_refl _
  | mutated hbefore hbody htables _ ih =>
    cases hhist
    intro entry hentry
    rcases mem_cons.mp hentry with rfl | hold
    · exact extends_refl _
    · have hcons := consistent_lineage hbefore _ mem_cons_self
      apply extends_trans (ih rfl entry hold)
      rw [htables]
      exact extends_trans (consistent_yields hcons hbody).right
        (extends_of_same (same_writeCheckpoint _ _))

/-- There is an operation for this generation of the grant. -/
def Tables.Spent (tables : Tables) (grant : GrantKey) (generation : Nat) : Prop :=
  exists id op, tables.operations.find id = some op ∧
    op.grant = grant ∧ op.generation = generation

variable {tables : Tables} {context : Context} {operationId : Bytes}

theorem spent_extends {next : Tables} {grant : GrantKey} {generation : Nat}
    (hextends : tables.Extends next) (h : tables.Spent grant generation) :
    next.Spent grant generation := by
  rcases h with ⟨id, op, hfind, hgrant, hgen⟩
  rcases hextends id op hfind with ⟨found, hfound, hgrant', hgen', _⟩
  exact ⟨id, found, hfound, hgrant'.trans hgrant, hgen'.trans hgen⟩

theorem spent_of_start {next : Tables} {reply : Reply} (hc : tables.Consistent)
    (h : tables.startRotation context operationId = .ok (.changed next reply)) :
    ¬ tables.Spent context.grant context.generation ∧
      next.Spent context.grant context.generation := by
  rcases startRotation_inv h with ⟨row, _, hsame, hrow, hrenewable, _, hops, _, _⟩
  simp only [Tables.renewable, bool_iff] at hrenewable
  constructor
  · intro hspent
    rcases hspent with ⟨id, op, hfind, hgrant, hgen⟩
    have hnot := (hc.spent id op hfind).right
    rw [hgrant, hgen] at hnot
    exact hnot row hrow hrenewable.left.left.right hrenewable.right
  · refine ⟨operationId,
      { operationId := operationId
        grant := context.grant
        generation := context.generation
        state := .started }, ?_, rfl, rfl⟩
    rw [hsame.operations, hops, find_upsert]
    exact if_pos rfl

theorem unchanged_begin {root : Root} {rotation : RotationBegin}
    (h : tables.beginRotation platform root context operationId =
      .ok (.unchanged (.begun rotation))) : rotation.mayIssue = false := by
  unfold Tables.beginRotation at h
  split at h
  · simp only [ok_iff] at h
    rcases h with ⟨_, _, heq⟩
    cases heq
    rfl
  · simp only [Tables.startRotation, ok_iff] at h
    rcases h with ⟨_, _, _, _, _, _, _, _, heq⟩
    cases heq

theorem yields_begin {root : Root} {outcome : Outcome}
    (h : (Mutation.beginRotation context operationId).Yields platform root tables outcome) :
    tables.beginRotation platform root context operationId = .ok outcome := by
  rcases h with ⟨_, hprep, hbody⟩
  simp only [Mutation.prepare, ok_iff] at hprep
  rcases hprep with ⟨_, _, _, _, rfl⟩
  exact hbody

namespace System

variable (platform) in
/-- One if the event answers that this generation of the grant may be used. -/
def issued (grant : GrantKey) (generation : Nat) (system : System) (event : Event) : Nat :=
  match event, (system.respond platform event).2 with
  | .mutate (.beginRotation context _) _ _ _, some (.ok (.begun rotation)) =>
    if rotation.mayIssue && context.grant == grant && context.generation == generation
    then 1 else 0
  | _, _ => 0

def Spent (system : System) (grant : GrantKey) (generation : Nat) : Prop :=
  exists last rest, system.disk.history = last :: rest ∧
    last.tables.Spent grant generation

variable {system : System}

theorem spent_step {grant : GrantKey} {generation : Nat} (event : Event)
    (htraced : Traced platform system) (h : system.Spent grant generation) :
    (system.step platform event).Spent grant generation := by
  rcases h with ⟨last, _, hhist, hspent⟩
  have hstep := lineage_step system event htraced
  cases hnext : (system.step platform event).disk.history with
  | nil =>
    rw [hnext, hhist] at hstep
    exact absurd hstep.right (by simp)
  | cons last' rest' =>
    rw [hnext, hhist] at hstep
    have hmem : last ∈ last' :: rest' := hstep.right.mem mem_cons_self
    exact ⟨last', rest', hnext, spent_extends (extends_lineage hstep.left last hmem) hspent⟩

/-- The permission is given for a generation that had no operation, and gives it one. -/
theorem issued_step {grant : GrantKey} {generation : Nat} {event : Event}
    (htraced : Traced platform system) (h : issued platform grant generation system event ≠ 0) :
    issued platform grant generation system event = 1 ∧
      ¬ system.Spent grant generation ∧
      (system.step platform event).Spent grant generation := by
  unfold issued at h ⊢
  split at h
  · rename_i context operationId nonce faults crash rotation hreply
    split at h
    · rename_i hcond
      rw [if_pos hcond]
      simp only [bool_iff] at hcond
      rcases hcond with ⟨⟨hissue, hgrant⟩, hgen⟩
      subst hgrant hgen
      refine ⟨rfl, ?_⟩
      cases hstore : system.store with
      | none =>
        simp only [respond, hstore] at hreply
        cases hreply
      | some store =>
        have hlineage := htraced.lineage
        rcases htraced.sound.current store hstore with ⟨last, _, hhist, hdb, _⟩
        have htx := @transact_transacted platform store system.disk
          (.beginRotation context operationId) nonce faults
        simp only [step, respond, hstore] at hreply ⊢
        cases crash with
        | true => cases hreply
        | false =>
          have hresult : (store.transact platform system.disk
              (.beginRotation context operationId) nonce faults).2.2 = .ok (.begun rotation) :=
            Option.some.inj hreply
          rw [hresult] at htx
          generalize hafter : (store.transact platform system.disk
            (.beginRotation context operationId) nonce faults).1 = after at htx ⊢
          generalize (store.transact platform system.disk
            (.beginRotation context operationId) nonce faults).2.1 = store' at htx ⊢
          cases htx with
          | answered _ _ hbody =>
            have hkept := unchanged_begin (yields_begin hbody)
            rw [hissue] at hkept
            cases hkept
          | committed hresv _ _ =>
            rcases hresv.body with ⟨_, hbefore, hbody⟩
            rw [Disk.tables, hdb] at hbefore
            cases hbefore
            rw [hhist] at hlineage
            have hcons := consistent_lineage hlineage last mem_cons_self
            have hstart := beginRotation_inv (yields_begin hbody)
            have hspent := spent_of_start hcons hstart.right.right
            constructor
            · intro hbad
              rcases hbad with ⟨_, _, hhist', hspent'⟩
              rw [hhist] at hhist'
              cases hhist'
              exact hspent.left hspent'
            · exact ⟨_, _, rfl, hspent.right⟩
    · exact absurd rfl h
  · exact absurd rfl h

open Classical in
/-- One as soon as the generation has an operation. -/
noncomputable def spentCount (grant : GrantKey) (generation : Nat) (system : System) : Nat :=
  if system.Spent grant generation then 1 else 0

theorem issued_le_spentCount (grant : GrantKey) (generation : Nat) (event : Event)
    (htraced : Traced platform system) :
    spentCount grant generation system + issued platform grant generation system event <=
      spentCount grant generation (system.step platform event) := by
  unfold spentCount
  by_cases hissued : issued platform grant generation system event = 0
  · rw [hissued]
    by_cases hspent : system.Spent grant generation
    · rw [if_pos hspent, if_pos (spent_step event htraced hspent)]
    · rw [if_neg hspent]
      exact Nat.zero_le _
  · rcases issued_step htraced hissued with ⟨hone, hbefore, hafter⟩
    rw [hone, if_neg hbefore, if_pos hafter]

/-- Every refreshing row has its one started operation, and conversely. -/
def Paired (tables : Tables) : Prop :=
  (forall grant row, tables.grants.find grant = some row -> (row.state = .refreshing ↔ ∃! op,
    op ∈ tables.operations.rows ∧ op.state = .started ∧ op.grant = grant ∧
    op.generation = row.generation)) ∧
  (forall op, op ∈ tables.operations.rows -> op.state = .started -> exists row,
    tables.grants.find op.grant = some row ∧ row.generation = op.generation ∧
    row.state = .refreshing)

theorem paired_of_consistent {tables : Tables} (h : tables.Consistent) : Paired tables := by
  have hfind : forall op, op ∈ tables.operations.rows ->
      tables.operations.find op.operationId = some op := by
    intro op hmem
    exact find_eq_some.mpr ⟨hmem, rfl⟩
  constructor
  · intro grant row hrow
    constructor
    · intro hrefreshing
      rcases h.refreshingBacked grant row hrow hrefreshing with
        ⟨_, op, hop, hstart, hgrant, hgen⟩
      have hmem := (find_eq_some.mp hop).left
      refine ⟨op, ⟨hmem, hstart, hgrant, hgen⟩, ?_⟩
      intro other hother
      rcases hother with ⟨hmem', hstart', hgrant', _⟩
      have hids := h.startedOnce other.operationId op.operationId other op
        (hfind other hmem') (hfind op hmem) hstart' hstart
        (hgrant'.trans hgrant.symm)
      have hsame := hfind other hmem'
      rw [hids, hfind op hmem] at hsame
      exact (Option.some.inj hsame).symm
    · intro hexists
      rcases hexists with ⟨op, ⟨hmem, hstart, hgrant, _⟩, _⟩
      apply refreshing_of_started h (hfind op hmem) hstart
      rw [hgrant]
      exact hrow
  · intro op hmem hstart
    exact h.startedBacked op.operationId op (hfind op hmem) hstart

/-- Over every run: a generation is handed to its issuer at most once, and every
committed database pairs its rotations.  What a store reads is the last committed
database, and an operation that ended is in every later one. -/
theorem rotating_token_issued_once (platform : Platform) (events : List Event) :
    (forall grant generation,
      tally (step platform) (issued platform grant generation) installed events <= 1) ∧
    (forall entry, entry ∈ (run (step platform) installed events).disk.history ->
      Paired entry.tables ∧
      forall grant, entry.tables.isTombstoned grant.accountId = true ->
        entry.tables.grants.find grant = none) ∧
    (forall tables, (run (step platform) installed events).exposed = some tables ->
      exists last rest, (run (step platform) installed events).disk.history = last :: rest ∧
        tables = last.tables) ∧
    (forall later entry last rest, entry ∈ (run (step platform) installed events).disk.history ->
      (run (step platform) installed (events ++ later)).disk.history = last :: rest ->
      forall op, op ∈ entry.tables.operations.rows ->
        op.state ≠ .started -> op ∈ last.tables.operations.rows) := by
  have htraced := @traced_run platform events
  refine ⟨?_, ?_, fun tables => exposed_last htraced.sound, ?_⟩
  · intro grant generation
    have hcount := le_measure_run traced_step
      (fun _ event h => issued_le_spentCount grant generation event h)
      (@traced_installed platform) events
    have hle : spentCount grant generation (run (step platform) installed events) <= 1 := by
      unfold spentCount
      split <;> decide
    exact (Nat.le_add_left _ _).trans (hcount.trans hle)
  · intro entry hentry
    have hcons := consistent_lineage htraced.lineage entry hentry
    exact ⟨paired_of_consistent hcons, hcons.forgotten⟩
  · intro later entry last rest hentry hlater op hmem hended
    have hsuffix := history_suffix htraced later
    have hlineage := (@traced_run platform (events ++ later)).lineage
    rw [run_append] at hlater hlineage
    rw [hlater] at hsuffix hlineage
    have hextends := extends_lineage hlineage entry (hsuffix.mem hentry)
    rcases hextends op.operationId op (find_eq_some.mpr ⟨hmem, rfl⟩) with ⟨_, hfound, _, _, hsame⟩
    rw [hsame hended] at hfound
    exact (find_eq_some.mp hfound).left

def plainContext : Context where
  keyId := ascii "installation-v1"
  accountId := ascii "account-1"
  grantId := ascii "grant-1"
  generation := 1
  purpose := ascii "request"
  scope := ascii "read"

/-- A grant is put, its rotation begins, and the same operation begins again. -/
def rotatedRun : List Event :=
  [.openStore plainRequest {} false, .mutate (.commit 0 emptyMetadata
      [.put { context := plainContext, plaintext := ascii "token", renewalOwner := .omux }
        (Vector.replicate 24 7)]) (Vector.replicate 32 8) {} false,
    .mutate (.beginRotation plainContext (ascii "op-1")) (Vector.replicate 32 9) {} false,
    .mutate (.beginRotation plainContext (ascii "op-1")) (Vector.replicate 32 10) {} false]

theorem rotating_token_issued_once_rotatedRun :
    tally (step plainPlatform) (issued plainPlatform plainContext.grant 1) installed
      rotatedRun = 1 ∧
    forall entry, entry ∈ (run (step plainPlatform) installed rotatedRun).disk.history ->
      Paired entry.tables := by
  constructor
  · decide +kernel
  · intro entry hentry
    exact ((rotating_token_issued_once plainPlatform rotatedRun).right.left entry hentry).left

end System

end Omux.Storage
