import Omux.Storage.Lineage

/-!
# Rotations

A grant row is being refreshed exactly while one started operation names it.  The
invariant is about the lookups of the tables, one lemma per kind of change.
-/

namespace Omux.Storage

open Library Tables Table

namespace Tables

/-- The last generation that was ever installed for a grant. -/
def watermark (tables : Tables) (grant : GrantKey) : Nat :=
  match tables.generations.find grant with
  | none => 0
  | some row => row.generation

structure Consistent (tables : Tables) : Prop where
  startedBacked : forall id op, tables.operations.find id = some op ->
    op.state = .started -> exists row, tables.grants.find op.grant = some row ∧
      row.generation = op.generation ∧ row.state = .refreshing
  refreshingBacked : forall grant row, tables.grants.find grant = some row ->
    row.state = .refreshing -> exists id op,
      tables.operations.find id = some op ∧ op.state = .started ∧
      op.grant = grant ∧ op.generation = row.generation
  startedOnce : forall id id' op op', tables.operations.find id = some op ->
    tables.operations.find id' = some op' ->
    op.state = .started -> op'.state = .started ->
    op.grant = op'.grant -> id = id'
  forgotten : forall grant, tables.isTombstoned grant.accountId = true ->
    tables.grants.find grant = none
  watermarked : forall grant row, tables.grants.find grant = some row ->
    exists recorded, tables.generations.find grant = some recorded ∧
      recorded.generation = row.generation
  spent : forall id op, tables.operations.find id = some op ->
    op.generation <= tables.watermark op.grant ∧
    forall row, tables.grants.find op.grant = some row ->
      row.generation = op.generation -> row.state ≠ .ready

/-- Operations are never removed, and one that ended stays as it is. -/
def Extends (tables next : Tables) : Prop :=
  forall id op, tables.operations.find id = some op ->
    exists op', next.operations.find id = some op' ∧
      op'.grant = op.grant ∧
      op'.generation = op.generation ∧
      (op.state ≠ .started -> op' = op)

variable {tables next : Tables}

theorem extends_refl (tables : Tables) : tables.Extends tables := by
  intro _ op hfind
  exact ⟨op, hfind, rfl, rfl, fun _ => rfl⟩

theorem extends_trans {last : Tables} (h : tables.Extends next)
    (h' : next.Extends last) : tables.Extends last := by
  intro id op hfind
  rcases h id op hfind with ⟨middle, hmiddle, hgrant, hgen, hended⟩
  rcases h' id middle hmiddle with ⟨final, hfinal, hgrant', hgen', hended'⟩
  refine ⟨final, hfinal, hgrant'.trans hgrant, hgen'.trans hgen, ?_⟩
  intro hstate
  have hsame := hended hstate
  rw [hsame] at hended'
  exact hended' hstate

/-- Only the snapshot and the checkpoint rows differ. -/
structure SameCustody (tables next : Tables) : Prop where
  tombstones : next.tombstones = tables.tombstones
  grants : next.grants = tables.grants
  operations : next.operations = tables.operations
  generations : next.generations = tables.generations

theorem consistent_of_same (h : tables.Consistent) (hsame : SameCustody tables next) :
    next.Consistent := by
  rcases hsame with ⟨htombs, hgrants, hops, hgenerations⟩
  cases tables
  cases next
  simp only at htombs hgrants hops hgenerations
  subst htombs hgrants hops hgenerations
  exact { h with }

theorem extends_of_same (hsame : SameCustody tables next) : tables.Extends next := by
  intro _ op hfind
  rw [<- hsame.operations] at hfind
  exact ⟨op, hfind, rfl, rfl, fun _ => rfl⟩

variable {ciphertext json operationId id : Bytes} {op : OperationRow} {row : GrantRow}
  {expected : Nat} {successor context : Context} {grant : GrantKey}
  {selected : OperationRow -> Bool}

theorem watermark_of_find (h : tables.Consistent) (hrow : tables.grants.find grant = some row) :
    tables.watermark grant = row.generation := by
  rcases h.watermarked grant row hrow with ⟨_, hrecorded, hgen⟩
  unfold watermark
  rw [hrecorded]
  exact hgen

/-- A started operation pins its grant: no other state is possible for the row. -/
theorem refreshing_of_started (h : tables.Consistent)
    (hfind : tables.operations.find id = some op) (hstart : op.state = .started)
    (hrow : tables.grants.find op.grant = some row) : row.state = .refreshing := by
  rcases h.startedBacked id op hfind hstart with ⟨_, hfound, _, hstate⟩
  rw [hrow] at hfound
  cases hfound
  exact hstate

/-!
## Puts
-/

theorem nextGeneration_eq {generation : Nat} (h : tables.nextGeneration grant = .ok generation) :
    generation = tables.watermark grant + 1 := by
  cases hfind : tables.generations.find grant with
  | none =>
    rw [nextGeneration, hfind] at h
    rw [watermark, hfind]
    cases h
    rfl
  | some =>
    rw [nextGeneration, hfind] at h
    simp only [ok_iff] at h
    rcases h with ⟨_, _, hgen⟩
    rw [watermark, hfind]
    exact hgen.symm

theorem put_inv {grant : GrantPut} (h : tables.put grant ciphertext = .ok next) :
    tables.isTombstoned grant.context.accountId = false ∧
    grant.context.generation = tables.watermark grant.context.grant + 1 ∧
    (forall row, tables.grants.find grant.context.grant = some row -> row.state ≠ .refreshing) ∧
    next = { tables with grants := tables.grants.upsert (putRow grant ciphertext) }.recordGeneration
      grant.context := by
  simp only [put, ok_iff, bool_iff] at h
  rcases h with ⟨_, htombstoned, _, hgen, _, hsame, _, hpredecessor, hnext⟩
  refine ⟨htombstoned, ?_, ?_, hnext.symm⟩
  · rw [hsame]
    exact nextGeneration_eq hgen
  · intro row hrow
    rw [hrow] at hpredecessor
    simp only [checkPredecessor, ok_iff, bool_iff] at hpredecessor
    rcases hpredecessor with ⟨_, _, hstate⟩
    exact hstate

theorem find_generations_record (context : Context) (grant : GrantKey) :
    (tables.recordGeneration context).generations.find grant = if context.grant = grant then
        some { grant := context.grant, generation := context.generation }
      else tables.generations.find grant :=
  find_upsert _ _ _

theorem watermark_record (context : Context) (grant : GrantKey) :
    (tables.recordGeneration context).watermark grant =
      if context.grant = grant then context.generation else tables.watermark grant := by
  unfold watermark
  rw [find_generations_record]
  by_cases hgrant : context.grant = grant
  · rw [if_pos hgrant, if_pos hgrant]
  · rw [if_neg hgrant, if_neg hgrant]

section

variable (hc : tables.Consistent)
  (hfind : forall key, next.grants.find key =
    if context.grant = key then some row else tables.grants.find key)
  (hgenerations : next.generations = (tables.recordGeneration context).generations)
  (hrow : row.generation = context.generation)
include hc hfind hgenerations hrow

theorem watermarked_record (grant : GrantKey) (found : GrantRow)
    (hfound : next.grants.find grant = some found) : exists recorded,
      next.generations.find grant = some recorded ∧ recorded.generation = found.generation := by
  rw [hfind] at hfound
  rw [hgenerations, find_generations_record]
  split at hfound
  · rename_i heq
    cases hfound
    exact ⟨_, if_pos heq, hrow.symm⟩
  · rename_i hne
    rw [if_neg hne]
    exact hc.watermarked grant found hfound

/-- A row of a newer generation is not the one an operation was started on. -/
theorem spent_record (hnewer : tables.watermark context.grant < context.generation)
    (hop : tables.operations.find id = some op) :
    op.generation <= next.watermark op.grant ∧
      forall found, next.grants.find op.grant = some found ->
        found.generation = op.generation -> found.state ≠ .ready := by
  have hold := hc.spent id op hop
  rw [watermark, hgenerations, <- watermark, watermark_record, hfind]
  by_cases hkey : context.grant = op.grant
  · rw [hkey] at hnewer
    rw [if_pos hkey, if_pos hkey]
    refine ⟨hold.left.trans hnewer.le, ?_⟩
    intro found hfound _
    cases hfound
    omega
  · rw [if_neg hkey, if_neg hkey]
    exact hold

end

theorem forgotten_replace {old new : GrantRow} (hc : tables.Consistent)
    (hold : tables.grants.find context.grant = some old)
    (hfind : forall key, next.grants.find key =
      if context.grant = key then some new else tables.grants.find key)
    (htombs : next.tombstones = tables.tombstones) (grant : GrantKey)
    (hgrant : next.isTombstoned grant.accountId = true) : next.grants.find grant = none := by
  rw [isTombstoned, htombs] at hgrant
  have hnone := hc.forgotten grant hgrant
  rw [hfind, if_neg]
  · exact hnone
  · rintro rfl
    cases hnone.symm.trans hold

theorem consistent_put {grant : GrantPut} (hc : tables.Consistent)
    (h : tables.put grant ciphertext = .ok next) : next.Consistent := by
  rcases put_inv h with ⟨htombstoned, hgen, hidle, rfl⟩
  have hfind := tables.grants.find_upsert (putRow grant ciphertext)
  refine ⟨?_, ?_, hc.startedOnce, ?_, watermarked_record hc hfind rfl rfl,
    fun _ _ hop => spent_record hc hfind rfl rfl (Nat.lt_of_succ_le hgen.ge) hop⟩
  · intro id op hop hstart
    rcases hc.startedBacked id op hop hstart with ⟨row, hrow, hrest⟩
    refine ⟨row, (hfind _).trans ((if_neg ?_).trans hrow), hrest⟩
    intro heq
    rw [<- heq] at hrow
    exact hidle row hrow hrest.right
  · intro key row hrow hrefreshing
    rw [recordGeneration, hfind] at hrow
    split at hrow
    · cases hrow
      cases hrefreshing
    · exact hc.refreshingBacked key row hrow hrefreshing
  · intro key hkey
    refine (hfind key).trans ((if_neg ?_).trans (hc.forgotten key hkey))
    rintro rfl
    cases htombstoned.symm.trans hkey

/-!
## Deletions and tombstones
-/

theorem find_quarantineOperations (selected : OperationRow -> Bool) (id : Bytes) :
    (tables.quarantineOperations selected).operations.find id =
      (tables.operations.find id).map (fun row =>
        if selected row && row.state == .started then { row with state := .quarantined }
        else row) :=
  find_update _ _ _ (by intro _; rfl) _

theorem started_of_quarantine
    (hfind : (tables.quarantineOperations selected).operations.find id = some op)
    (hstart : op.state = .started) :
    tables.operations.find id = some op ∧ selected op = false := by
  rw [find_quarantineOperations, Option.map_eq_some_iff] at hfind
  rcases hfind with ⟨old, hold, heq⟩
  split at heq
  · rw [<- heq] at hstart
    cases hstart
  · rename_i hcond
    subst heq
    refine ⟨hold, ?_⟩
    cases hsel : selected old with
    | false => rfl
    | true => simp [hsel, hstart] at hcond

theorem find_of_quarantine
    (hfind : (tables.quarantineOperations selected).operations.find id = some op) :
    exists old, tables.operations.find id = some old ∧
      op.grant = old.grant ∧ op.generation = old.generation := by
  rw [find_quarantineOperations, Option.map_eq_some_iff] at hfind
  rcases hfind with ⟨old, hold, rfl⟩
  refine ⟨old, hold, ?_⟩
  split <;> exact ⟨rfl, rfl⟩

theorem quarantine_of_unselected (hfind : tables.operations.find id = some op)
    (hsel : selected op = false) :
    (tables.quarantineOperations selected).operations.find id = some op := by
  rw [find_quarantineOperations, hfind]
  simp [hsel]

theorem extends_quarantineOperations (selected : OperationRow -> Bool) :
    tables.Extends (tables.quarantineOperations selected) := by
  intro _ _ hfind
  refine ⟨_, by rw [find_quarantineOperations, hfind]; rfl, ?_, ?_, ?_⟩
  · dsimp only
    split <;> rfl
  · dsimp only
    split <;> rfl
  · intro hended
    dsimp only
    rw [if_neg (by simp [hended])]

theorem find_dropGrants (selected : GrantKey -> Bool) (grant : GrantKey) :
    (tables.dropGrants selected).grants.find grant =
      (tables.grants.find grant).filter (fun row => !selected row.grant) :=
  find_delete _ _ _

theorem find_of_dropGrants {selected : GrantKey -> Bool}
    (h : (tables.dropGrants selected).grants.find grant = some row) :
    tables.grants.find grant = some row ∧ selected grant = false := by
  rw [find_dropGrants, Option.filter_eq_some_iff] at h
  have hkey := key_of_find h.left
  refine ⟨h.left, ?_⟩
  rw [<- hkey]
  simpa using h.right

theorem dropGrants_of_unselected {selected : GrantKey -> Bool}
    (h : tables.grants.find grant = some row) (hsel : selected grant = false) :
    (tables.dropGrants selected).grants.find grant = some row := by
  have hkey := key_of_find h
  rw [find_dropGrants, h, Option.filter_some, if_pos]
  rw [hkey, hsel]
  rfl

theorem consistent_dropGrants (hc : tables.Consistent) (selected : GrantKey -> Bool) :
    (tables.dropGrants selected).Consistent := by
  constructor
  · intro id op hfind hstart
    rcases started_of_quarantine hfind hstart with ⟨hold, hsel⟩
    rcases hc.startedBacked id op hold hstart with ⟨row, hrow, hrest⟩
    exact ⟨row, dropGrants_of_unselected hrow hsel, hrest⟩
  · intro grant row hrow hrefreshing
    rcases find_of_dropGrants hrow with ⟨hold, hsel⟩
    rcases hc.refreshingBacked grant row hold hrefreshing with
      ⟨id, op, hfind, hstart, hgrant, hgen⟩
    refine ⟨id, op, quarantine_of_unselected hfind ?_, hstart, hgrant, hgen⟩
    rw [hgrant]
    exact hsel
  · intro id id' op op' hfind hfind' hstart hstart' hgrant
    exact hc.startedOnce id id' op op' (started_of_quarantine hfind hstart).left
      (started_of_quarantine hfind' hstart').left hstart hstart' hgrant
  · intro grant hgrant
    rw [find_dropGrants, hc.forgotten grant hgrant]
    rfl
  · intro grant row hrow
    exact hc.watermarked grant row (find_of_dropGrants hrow).left
  · intro id op hfind
    rcases find_of_quarantine hfind with ⟨old, hold, hgrant, hgen⟩
    have hspent := hc.spent id old hold
    rw [hgrant, hgen]
    refine ⟨hspent.left, ?_⟩
    intro row hrow
    exact hspent.right row (find_of_dropGrants hrow).left

theorem isTombstoned_upsert (accountId other : Bytes) :
    isTombstoned { tables with tombstones := tables.tombstones.upsert accountId } other =
      (accountId == other || tables.isTombstoned other) := by
  unfold isTombstoned
  rw [find_upsert]
  by_cases heq : accountId = other <;> simp [heq]

theorem consistent_tombstone {accountId : Bytes} (hc : tables.Consistent)
    (h : tables.tombstoneAccount accountId = .ok next) : next.Consistent := by
  simp only [tombstoneAccount, ok_iff] at h
  rcases h with ⟨_, _, rfl⟩
  have hdropped := consistent_dropGrants hc (fun key => key.accountId == accountId)
  refine { hdropped with forgotten := ?_ }
  intro grant hgrant
  have hgrant : isTombstoned { tables with
      tombstones := tables.tombstones.upsert accountId } grant.accountId = true := hgrant
  rw [isTombstoned_upsert, Bool.or_eq_true] at hgrant
  rcases hgrant with hsame | hold
  · have hsel : (grant.accountId == accountId) = true := by
      rw [beq_iff_eq] at hsame ⊢
      exact hsame.symm
    cases hrow : Table.find (dropGrants { tables with
      tombstones := tables.tombstones.upsert accountId }
      (fun key => key.accountId == accountId)).grants grant with
    | none => rfl
    | some =>
      have hunsel : (grant.accountId == accountId) = false :=
        (find_of_dropGrants hrow).right
      rw [hsel] at hunsel
      cases hunsel
  · exact hdropped.forgotten grant hold

theorem consistent_reenroll {accountId : Bytes} (hc : tables.Consistent)
    (h : tables.reenrollAccount accountId = .ok next) : next.Consistent := by
  simp only [reenrollAccount, ok_iff] at h
  rcases h with ⟨_, _, rfl⟩
  refine { hc with forgotten := ?_ }
  intro grant hgrant
  apply hc.forgotten grant
  unfold isTombstoned at hgrant ⊢
  rw [find_delete] at hgrant
  cases hfind : tables.tombstones.find grant.accountId with
  | none => cases hfind ▸ hgrant
  | some => rfl

theorem consistent_applyChange {change : SealedChange} (hc : tables.Consistent)
    (h : tables.applyChange change = .ok next) : next.Consistent := by
  cases change with
  | put => exact consistent_put hc h
  | delete =>
    cases h
    exact consistent_dropGrants hc _
  | tombstoneAccount => exact consistent_tombstone hc h
  | reenrollAccount => exact consistent_reenroll hc h

theorem extends_applyChange {change : SealedChange}
    (h : tables.applyChange change = .ok next) : tables.Extends next := by
  cases change with
  | put =>
    rcases put_inv h with ⟨_, _, _, hnext⟩
    rw [hnext]
    exact extends_refl tables
  | delete =>
    cases h
    exact extends_quarantineOperations _
  | tombstoneAccount =>
    simp only [applyChange, tombstoneAccount, ok_iff] at h
    rcases h with ⟨_, _, hnext⟩
    rw [<- hnext]
    exact extends_quarantineOperations _
  | reenrollAccount =>
    simp only [applyChange, reenrollAccount, ok_iff] at h
    rcases h with ⟨_, _, hnext⟩
    rw [<- hnext]
    exact extends_refl tables

theorem same_updateSnapshot (tables : Tables) (revision : Nat) (json : Bytes) :
    SameCustody tables (tables.updateSnapshot revision json) :=
  ⟨rfl, rfl, rfl, rfl⟩

theorem bumpRevision_inv (h : tables.bumpRevision = .ok next) : SameCustody tables next := by
  simp only [bumpRevision, ok_iff] at h
  rcases h with ⟨_, _, _, _, rfl⟩
  exact ⟨rfl, rfl, rfl, rfl⟩

theorem commit_inv {changes : List SealedChange}
    (h : tables.commit expected json changes = .ok (.changed next reply)) :
    exists changed revision, changes.foldlM applyChange tables = .ok changed ∧
      next = changed.updateSnapshot revision json := by
  simp only [commit, ok_iff] at h
  rcases h with ⟨revision, _, changed, hchanged, heq⟩
  cases heq
  exact ⟨changed, revision, hchanged, rfl⟩

theorem consistent_commit {changes : List SealedChange} (hc : tables.Consistent)
    (h : tables.commit expected json changes = .ok (.changed next reply)) :
    next.Consistent ∧ tables.Extends next := by
  rcases commit_inv h with ⟨changed, revision, hchanged, rfl⟩
  have hfold := foldlM_invariant (P := fun later => later.Consistent ∧ tables.Extends later) (by
      intro _ _ _ _ hbefore hafter
      exact ⟨consistent_applyChange hbefore.left hafter,
        extends_trans hbefore.right (extends_applyChange hafter)⟩)
    ⟨hc, extends_refl tables⟩ hchanged
  have hsame := same_updateSnapshot changed revision json
  exact ⟨consistent_of_same hfold.left hsame, extends_trans hfold.right (extends_of_same hsame)⟩

/-!
## Beginning a rotation
-/

theorem renewable_inv (h : renewable context row = true) :
    row.grant = context.grant ∧ row.generation = context.generation ∧ row.state = .ready := by
  simp only [renewable, bool_iff] at h
  exact ⟨h.left.left.left, h.left.left.right, h.right⟩

theorem startRotation_inv
    (h : tables.startRotation context operationId = .ok (.changed next reply)) :
    exists row started, SameCustody started next ∧
      tables.grants.find context.grant = some row ∧ renewable context row = true ∧
      (forall grant, started.grants.find grant = if context.grant = grant then
        some { row with state := .refreshing } else tables.grants.find grant) ∧
      started.operations = tables.operations.upsert
        { operationId := operationId
          grant := context.grant
          generation := context.generation
          state := .started } ∧
      started.generations = tables.generations ∧
      started.tombstones = tables.tombstones := by
  simp only [startRotation, ok_iff, bool_iff] at h
  rcases h with ⟨_, hcount, _, hinsert, _, hbumped, heq⟩
  cases heq
  have hone : forall row, renewable context row = true -> row.grant = context.grant :=
    fun _ hrow => (renewable_inv hrow).left
  rcases find_of_count hone hcount with ⟨row, hrow, hrenewable⟩
  exact ⟨row, _, bumpRevision_inv hbumped, hrow, hrenewable,
    find_update_one hone hrow hrenewable (by intro _; rfl), (insert_inv hinsert).right, rfl, rfl⟩

theorem consistent_startRotation (hc : tables.Consistent)
    (hfresh : tables.operations.find operationId = none)
    (h : tables.startRotation context operationId = .ok (.changed next reply)) :
    next.Consistent := by
  rcases startRotation_inv h with ⟨ready, started, hsame, hready, hrenewable,
    hfind, hops, hgenerations, htombs⟩
  apply consistent_of_same ?_ hsame
  rcases renewable_inv hrenewable with ⟨_, hgen, hstate⟩
  have hop := find_upsert tables.operations
    { operationId, grant := context.grant, generation := context.generation, state := .started }
  rw [<- hops] at hop
  -- No other op is started on the grant: its row was ready.
  have hfree : forall id op, tables.operations.find id = some op ->
      op.state = .started -> op.grant ≠ context.grant := by
    intro id op hold hstart hgrant
    rw [<- hgrant] at hready
    cases hstate.symm.trans (refreshing_of_started hc hold hstart hready)
  refine ⟨?_, ?_, ?_, forgotten_replace hc hready hfind htombs, ?_, ?_⟩
  · intro id op hid hstart
    rw [hop] at hid
    split at hid
    · cases hid
      exact ⟨_, (hfind _).trans (if_pos rfl), hgen, rfl⟩
    · rcases hc.startedBacked id op hid hstart with ⟨row, hrow, hrest⟩
      refine ⟨row, ?_, hrest⟩
      rw [hfind, if_neg (Ne.symm (hfree id op hid hstart))]
      exact hrow
  · intro grant row hrow hrefreshing
    rw [hfind] at hrow
    split at hrow
    · rename_i hgrant
      cases hrow
      exact ⟨operationId, _, (hop _).trans (if_pos rfl), rfl, hgrant, hgen.symm⟩
    · rcases hc.refreshingBacked grant row hrow hrefreshing with
        ⟨id, op, hold, hrest⟩
      have hne : operationId ≠ id := by
        intro heq
        rw [<- heq, hfresh] at hold
        cases hold
      exact ⟨id, op, (hop id).trans ((if_neg hne).trans hold), hrest⟩
  · intro id id' op op' hid hid' hstart hstart' hgrant
    rw [hop] at hid hid'
    split at hid
    · rename_i heq
      split at hid'
      · rename_i heq'
        rw [<- heq, <- heq']
      · cases hid
        exact absurd hgrant.symm (hfree id' op' hid' hstart')
    · split at hid'
      · cases hid'
        exact absurd hgrant (hfree id op hid hstart)
      · exact hc.startedOnce id id' op op' hid hid' hstart hstart' hgrant
  · intro grant row hrow
    rw [hgenerations]
    rw [hfind] at hrow
    split at hrow
    · rename_i hgrant
      cases hrow
      exact hc.watermarked grant ready (hgrant ▸ hready)
    · exact hc.watermarked grant row hrow
  · intro id op hid
    rw [hop] at hid
    rw [watermark, hgenerations, <- watermark, hfind]
    split at hid
    · cases hid
      rw [watermark_of_find hc hready, hgen, if_pos rfl]
      refine ⟨le_rfl, ?_⟩
      intro row hrow _
      cases hrow
      intro hstate
      cases hstate
    · have hspent := hc.spent id op hid
      refine ⟨hspent.left, ?_⟩
      intro row hrow hgen
      split at hrow
      · cases hrow
        intro hstate
        cases hstate
      · exact hspent.right row hrow hgen

theorem extends_startRotation (hfresh : tables.operations.find operationId = none)
    (h : tables.startRotation context operationId = .ok (.changed next reply)) :
    tables.Extends next := by
  rcases startRotation_inv h with ⟨_, _, hsame, _, _, _, hops, _, _⟩
  intro id op hfind
  refine ⟨op, ?_, rfl, rfl, fun _ => rfl⟩
  have hne : operationId ≠ id := by
    intro heq
    rw [<- heq, hfresh] at hfind
    cases hfind
  rw [hsame.operations, hops, find_upsert, if_neg hne]
  exact hfind

/-!
## Completing a rotation
-/

theorem awaiting_inv (h : awaiting op row = true) :
    row.grant = op.grant ∧ row.generation = op.generation := by
  simp only [awaiting, bool_iff] at h
  exact h.left.left

theorem completeRotation_inv
    (h : tables.completeRotation operationId expected json successor ciphertext =
      .ok (.changed next reply)) :
    exists op row revision, tables.operations.find operationId = some op ∧
      op.state = .started ∧ op.grant = successor.grant ∧
      successor.generation = op.generation + 1 ∧
      tables.grants.find successor.grant = some row ∧ awaiting op row = true ∧
      next = tables.installSuccessor op revision json successor ciphertext := by
  simp only [completeRotation, ok_iff, bool_iff] at h
  rcases h with ⟨op, hfind, _, ⟨⟨hgrant, _⟩, hgen⟩, h⟩
  cases hstate : op.state with
  | completed =>
    rw [hstate] at h
    simp only [ok_iff] at h
    rcases h with ⟨_, _, heq⟩
    cases heq
  | quarantined =>
    rw [hstate] at h
    cases h
  | started =>
    rw [hstate] at h
    simp only [ok_iff, bool_iff] at h
    rcases h with ⟨revision, _, _, hcount, heq⟩
    cases heq
    rcases find_of_count (fun _ hrow => (awaiting_inv hrow).left.trans hgrant) hcount with
      ⟨row, hrow, hawaiting⟩
    exact ⟨op, row, revision, hfind, hstate, hgrant, hgen, hrow, hawaiting, rfl⟩

def successorRow (row : GrantRow) (successor : Context) (ciphertext : Bytes) : GrantRow :=
  { row with
    generation := successor.generation
    purpose := successor.purpose
    scope := successor.scope
    ciphertext := ciphertext
    state := .ready }

theorem find_grants_install {revision : Nat} (hrow : tables.grants.find successor.grant = some row)
    (hgrant : op.grant = successor.grant) (hawaiting : awaiting op row = true) (grant : GrantKey) :
    (tables.installSuccessor op revision json successor ciphertext).grants.find
        grant = if successor.grant = grant then some (successorRow row successor ciphertext)
      else tables.grants.find grant :=
  find_update_one (fun _ hrow => (awaiting_inv hrow).left.trans hgrant) hrow hawaiting
    (by intro _; rfl) grant

theorem find_operations_install {revision : Nat} (id : Bytes) :
    (tables.installSuccessor op revision json successor ciphertext).operations.find
        id = (tables.operations.find id).map (fun row =>
        if row.operationId == op.operationId && row.state == .started then
          { row with state := .completed, committedRevision := some revision }
        else row) :=
  find_update _ _ _ (by intro _; rfl) _

theorem consistent_completeRotation (hc : tables.Consistent)
    (h : tables.completeRotation operationId expected json successor ciphertext =
      .ok (.changed next reply)) : next.Consistent := by
  rcases completeRotation_inv h with ⟨op, row, revision, hfind, hstart, hgrant,
    hgen, hrow, hawaiting, rfl⟩
  have hid : op.operationId = operationId := key_of_find hfind
  have hnewer : tables.watermark successor.grant < successor.generation := by
    rw [watermark_of_find hc hrow, (awaiting_inv hawaiting).right, hgen]
    exact Nat.lt_succ_self _
  -- The operations that are still started are the others, on other grants.
  have hothers : forall id other,
      (tables.installSuccessor op revision json successor ciphertext).operations.find
        id = some other -> other.state = .started ->
      tables.operations.find id = some other ∧ other.grant ≠ successor.grant := by
    intro id other hother hstate
    rw [find_operations_install, Option.map_eq_some_iff] at hother
    rcases hother with ⟨old, hold, heq⟩
    split at heq
    · rw [<- heq] at hstate
      cases hstate
    · rename_i hcond
      subst heq
      refine ⟨hold, ?_⟩
      intro hsame
      have hids := hc.startedOnce id operationId old op hold hfind hstate hstart
        (hsame.trans hgrant.symm)
      have holdId : old.operationId = op.operationId := by rw [key_of_find hold, hids, hid]
      simp [holdId, hstate] at hcond
  have hgrants := @find_grants_install tables ciphertext json op row successor revision
    hrow hgrant hawaiting
  refine ⟨?_, ?_, ?_, forgotten_replace hc hrow hgrants rfl,
    watermarked_record hc hgrants rfl rfl, ?_⟩
  · intro id other hother hstate
    rcases hothers id other hother hstate with ⟨hold, hne⟩
    rcases hc.startedBacked id other hold hstate with ⟨found, hfound, hrest⟩
    refine ⟨found, ?_, hrest⟩
    rw [hgrants, if_neg (Ne.symm hne)]
    exact hfound
  · intro grant found hfound hrefreshing
    rw [hgrants] at hfound
    split at hfound
    · cases hfound
      cases hrefreshing
    · rename_i hne
      rcases hc.refreshingBacked grant found hfound hrefreshing with
        ⟨id, other, hother, hstate, hsame, hrest⟩
      refine ⟨id, other, ?_, hstate, hsame, hrest⟩
      rw [find_operations_install, hother, Option.map_some, if_neg]
      intro hcond
      simp only [bool_iff] at hcond
      have hids : id = operationId := by rw [<- key_of_find hother, hcond.left, hid]
      rw [hids, hfind] at hother
      cases hother
      exact hne (hgrant.symm.trans hsame)
  · intro id id' other other' hother hother' hstate hstate' hsame
    exact hc.startedOnce id id' other other' (hothers id other hother hstate).left
      (hothers id' other' hother' hstate').left hstate hstate' hsame
  · intro id other hother
    rw [find_operations_install, Option.map_eq_some_iff] at hother
    rcases hother with ⟨old, hold, heq⟩
    have hkept : other.grant = old.grant ∧ other.generation = old.generation := by
      rw [<- heq]
      split <;> exact ⟨rfl, rfl⟩
    rw [hkept.left, hkept.right]
    exact spent_record hc hgrants rfl rfl hnewer hold

theorem extends_completeRotation
    (h : tables.completeRotation operationId expected json successor ciphertext =
      .ok (.changed next reply)) : tables.Extends next := by
  rcases completeRotation_inv h with ⟨_, _, _, _, _, _, _, _, _, rfl⟩
  intro _ _ hother
  refine ⟨_, by rw [find_operations_install, hother]; rfl, ?_, ?_, ?_⟩
  · dsimp only
    split <;> rfl
  · dsimp only
    split <;> rfl
  · intro hended
    dsimp only
    rw [if_neg (by simp [hended])]

/-!
## Giving rotations up
-/

theorem quarantine_inv {grants : GrantRow -> Bool} {operations : OperationRow -> Bool}
    {answer : Reply} (h : tables.quarantine grants operations answer = .ok (.changed next reply))
    : SameCustody ((tables.quarantineGrants grants).quarantineOperations operations) next := by
  unfold quarantine at h
  split at h
  · simp only [ok_iff] at h
    rcases h with ⟨_, hbumped, heq⟩
    cases heq
    exact bumpRevision_inv hbumped
  · cases h

theorem find_quarantineGrants (selected : GrantRow -> Bool) (grant : GrantKey) :
    (tables.quarantineGrants selected).grants.find grant =
      (tables.grants.find grant).map (fun row =>
        if row.state == .refreshing && selected row then { row with state := .quarantined }
        else row) :=
  find_update _ _ _ (by intro _; rfl) _

theorem extends_quarantine (grants : GrantRow -> Bool) (operations : OperationRow -> Bool) :
    tables.Extends ((tables.quarantineGrants grants).quarantineOperations operations) :=
  @extends_quarantineOperations (tables.quarantineGrants grants) operations

/-- Rows and operations that belong together are selected together. -/
theorem consistent_quarantine {grants : GrantRow -> Bool}
    {operations : OperationRow -> Bool} (hc : tables.Consistent)
    (hagree : forall id op row, tables.operations.find id = some op ->
      op.state = .started -> tables.grants.find op.grant = some row ->
      row.generation = op.generation -> grants row = operations op) :
    ((tables.quarantineGrants grants).quarantineOperations operations).Consistent := by
  have hkept : forall grant row, Table.find
      ((tables.quarantineGrants grants).quarantineOperations operations).grants grant =
        some row -> exists old, tables.grants.find grant = some old ∧
      row.generation = old.generation ∧
      (row.state ≠ .quarantined -> row = old ∧
        (row.state = .refreshing -> grants row = false)) := by
    intro grant row hrow
    have hrow : (tables.quarantineGrants grants).grants.find grant = some row := hrow
    rw [find_quarantineGrants, Option.map_eq_some_iff] at hrow
    rcases hrow with ⟨old, hold, heq⟩
    refine ⟨old, hold, ?_⟩
    split at heq
    · rw [<- heq]
      exact ⟨rfl, fun hstate => absurd rfl hstate⟩
    · rename_i hcond
      subst heq
      refine ⟨rfl, fun _ => ⟨rfl, ?_⟩⟩
      intro hstate
      cases hsel : grants old with
      | false => rfl
      | true => simp [hsel, hstate] at hcond
  constructor
  · intro id op hfind hstate
    rcases started_of_quarantine hfind hstate with ⟨hold, hsel⟩
    rcases hc.startedBacked id op hold hstate with ⟨row, hrow, hgen, hrefreshing⟩
    refine ⟨row, ?_, hgen, hrefreshing⟩
    show (tables.quarantineGrants grants).grants.find op.grant = some row
    rw [find_quarantineGrants, hrow, Option.map_some, if_neg]
    rw [hagree id op row hold hstate hrow hgen, hsel]
    simp
  · intro grant row hrow hrefreshing
    rcases hkept grant row hrow with ⟨old, hold, _, hsame⟩
    have hne : row.state ≠ .quarantined := by
      rw [hrefreshing]
      decide
    rcases hsame hne with ⟨heq, hunsel⟩
    subst heq
    rcases hc.refreshingBacked grant row hold hrefreshing with
      ⟨id, op, hfind, hstate, hgrant, hgen⟩
    refine ⟨id, op, ?_, hstate, hgrant, hgen⟩
    apply quarantine_of_unselected
    · exact hfind
    · rw [<- hagree id op row hfind hstate (hgrant ▸ hold) hgen.symm]
      exact hunsel hrefreshing
  · intro id id' op op' hfind hfind' hstate hstate' hgrant
    exact hc.startedOnce id id' op op' (started_of_quarantine hfind hstate).left
      (started_of_quarantine hfind' hstate').left hstate hstate' hgrant
  · intro grant hgrant
    show (tables.quarantineGrants grants).grants.find grant = none
    rw [find_quarantineGrants, hc.forgotten grant hgrant]
    rfl
  · intro grant row hrow
    rcases hkept grant row hrow with ⟨old, hold, hgen, _⟩
    rw [hgen]
    exact hc.watermarked grant old hold
  · intro id op hfind
    rcases find_of_quarantine hfind with ⟨old, hold, hgrant, hgen⟩
    have hspent := hc.spent id old hold
    rw [hgrant, hgen]
    refine ⟨hspent.left, ?_⟩
    intro row hrow hsame hready
    rcases hkept _ row hrow with ⟨_, holdRow, _, hunchanged⟩
    have hne : row.state ≠ .quarantined := by
      rw [hready]
      decide
    rw [<- (hunchanged hne).left] at holdRow
    exact hspent.right row holdRow hsame hready

theorem agree_startedFor (hc : tables.Consistent) :
    forall id op row, tables.operations.find id = some op ->
      op.state = .started -> tables.grants.find op.grant = some row ->
      row.generation = op.generation ->
      startedFor (tables.operations.find operationId) row =
        (op.operationId == operationId) := by
  intro id op row hfind hstate hrow hgen
  have hid : op.operationId = id := key_of_find hfind
  have hkey : row.grant = op.grant := key_of_find hrow
  by_cases heq : id = operationId
  · rw [<- heq, hfind]
    simp [startedFor, hstate, hkey, hgen, hid]
  · rw [hid, beq_eq_false_iff_ne.mpr heq]
    cases hother : tables.operations.find operationId with
    | none => rfl
    | some other =>
      by_contra hsel
      simp only [startedFor, Option.any_some, Bool.not_eq_false, bool_iff] at hsel
      exact heq (hc.startedOnce id operationId op other hfind hother hstate
        hsel.left.left (hkey.symm.trans hsel.left.right.symm))

end Tables

/-!
## Mutations
-/

variable {platform : Platform} {root : Root} {mutation : Mutation} {reply : Reply}

variable {tables : Tables}

theorem beginRotation_inv {next : Tables} {context : Context} {operationId : Bytes}
    (h : tables.beginRotation platform root context operationId = .ok (.changed next reply)) :
    tables.operations.find operationId = none ∧
      (exists secret, tables.loadGrant platform root context = .ok secret) ∧
      tables.startRotation context operationId = .ok (.changed next reply) := by
  unfold Tables.beginRotation at h
  split at h
  · simp only [ok_iff] at h
    rcases h with ⟨_, _, heq⟩
    cases heq
  · rename_i hnone
    simp only [ok_iff] at h
    rcases h with ⟨secret, hsecret, hstart⟩
    exact ⟨hnone, ⟨secret, hsecret⟩, hstart⟩

theorem consistent_yields {next : Tables} (hc : tables.Consistent)
    (h : mutation.Yields platform root tables (.changed next reply)) :
    next.Consistent ∧ tables.Extends next := by
  rcases h with ⟨prepared, _, hbody⟩
  cases prepared with
  | commit => exact consistent_commit hc hbody
  | beginRotation =>
    rcases beginRotation_inv hbody with ⟨hnone, _, hstart⟩
    exact ⟨consistent_startRotation hc hnone hstart, extends_startRotation hnone hstart⟩
  | completeRotation => exact ⟨consistent_completeRotation hc hbody, extends_completeRotation hbody⟩
  | quarantineRotation =>
    have hsame := quarantine_inv hbody
    exact ⟨consistent_of_same (consistent_quarantine hc (agree_startedFor hc))
      hsame, extends_trans (extends_quarantine _ _) (extends_of_same hsame)⟩
  | reconcilePendingRotations =>
    have hsame := quarantine_inv hbody
    exact ⟨consistent_of_same (consistent_quarantine hc (fun _ _ _ _ _ _ _ => rfl)) hsame,
      extends_trans (extends_quarantine _ _) (extends_of_same hsame)⟩

theorem same_writeCheckpoint (tables : Tables) (checkpoint : Checkpoint) :
    Tables.SameCustody tables (Disk.writeCheckpoint tables checkpoint) :=
  ⟨rfl, rfl, rfl, rfl⟩

theorem consistent_fresh (h : tables.Fresh) : tables.Consistent := by
  rcases h with ⟨_, hgrants, hops, _⟩
  constructor
  · intro id op
    rw [hops]
    nofun
  · intro grant row
    rw [hgrants]
    nofun
  · intro id _ op _
    rw [hops]
    nofun
  · intro grant _
    rw [hgrants]
    rfl
  · intro grant row
    rw [hgrants]
    nofun
  · intro id op
    rw [hops]
    nofun

end Omux.Storage
