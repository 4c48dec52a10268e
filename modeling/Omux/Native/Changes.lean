import Omux.Library.Archive
import Omux.Native.Owner

/-!
# What an operation changes

Every accepted operation of the native ledger either changes rows in place or adds one
row.  The inductive types below say which changes there are and what was checked for
each.
-/

namespace Omux.Native

open Library List Attachment

/-!
## Attachments
-/

/-- The registration of the row was sent and not answered. -/
def Attachment.AwaitsRegistration (row : Attachment) : Prop :=
  row.phase = .pendingRegistration ∨
    (row.phase = .unresolved ∧ row.unresolvedFrom = .registration)

def Attachment.AwaitsDetach (row : Attachment) : Prop :=
  row.phase = .pendingDetach ∨ (row.phase = .unresolved ∧ row.unresolvedFrom = .detachment)

def Attachment.MayDetach (row : Attachment) : Prop :=
  row.phase = .attached ∨ (row.phase = .unresolved ∧ row.unresolvedFrom = .attachment)

open Ledger (Op)

/-- How one operation moves an attachment. -/
inductive Attachment.Moves (op : Op) (row : Attachment) : Attachment -> Prop where
  | same : Attachment.Moves op row row
  | attached (h : row.AwaitsRegistration) :
      Attachment.Moves op row { row with phase := .attached, unresolvedFrom := .attachment }
  | detaching (operation : OperationId) (hvalid : validateOperation operation = .ok ())
      (h : row.MayDetach) :
      Attachment.Moves op row
        { row with detachOperation := some operation, phase := .pendingDetach,
                   unresolvedFrom := .detachment }
  | noEffect (hop : op = .completeRegistrationNoEffect row.reference
        row.registrationOperation) (h : row.AwaitsRegistration) :
      Attachment.Moves op row
        { row with phase := .retired, retirement := .verifiedRegistrationNoEffect }
  | detached (operation : OperationId) (hstored : row.detachOperation = some operation)
      (hop : op = .completeDetach row.reference operation) (h : row.AwaitsDetach) :
      Attachment.Moves op row { row with phase := .retired, retirement := .verifiedDetach }
  | unresolved : Attachment.Moves op row row.markUnresolved

namespace Attachment

variable {row next : Attachment} {operation : OperationId}

theorem completeRegistration_inv (op : Op)
    (h : row.completeRegistration operation = .ok next) : Moves op row next := by
  simp only [completeRegistration, ok_iff] at h
  rcases h with ⟨_, _, h⟩
  split at h
  · rw [<- pure_eq_ok.mp h]
    exact .same
  · simp only [ok_iff, Bool.and_eq_false_iff, bool_iff] at h
    rcases h with ⟨_, hphase, rfl⟩
    exact .attached hphase

theorem beginDetach_inv (op : Op) (hvalid : validateOperation operation = .ok ())
    (h : row.beginDetach operation = .ok next) : Moves op row next := by
  simp only [beginDetach, ok_iff, Bool.and_eq_false_iff, bool_iff] at h
  rcases h with ⟨_, _, _, hphase, rfl⟩
  exact .detaching operation hvalid hphase

theorem completeRegistrationNoEffect_inv
    (h : row.completeRegistrationNoEffect operation = .ok next) :
    Moves (.completeRegistrationNoEffect row.reference operation) row next := by
  simp only [completeRegistrationNoEffect, ok_iff, bool_iff] at h
  rcases h with ⟨_, hop, h⟩
  split at h
  · rw [<- pure_eq_ok.mp h]
    exact .same
  · simp only [ok_iff, Bool.and_eq_false_iff, bool_iff] at h
    rcases h with ⟨_, hphase, rfl⟩
    exact .noEffect (by rw [hop]) hphase

theorem completeDetach_inv (h : row.completeDetach operation = .ok next) :
    Moves (.completeDetach row.reference operation) row next := by
  simp only [completeDetach, ok_iff, bool_iff] at h
  rcases h with ⟨_, hstored, _, hop, h⟩
  split at h
  · rw [<- pure_eq_ok.mp h]
    exact .same
  · simp only [ok_iff, Bool.and_eq_false_iff, bool_iff] at h
    rcases h with ⟨_, hphase, rfl⟩
    rw [hop] at hstored
    exact .detached operation hstored rfl hphase

end Attachment

/-!
## Ledgers
-/

namespace Ledger

structure OwnerAdmitted (ledger : Ledger) (input : Owner) : Prop where
  valid : validateOwner input = .ok ()
  phase : input.phase = .opened
  fresh : forall owner, owner ∈ ledger.owners -> owner.key ≠ input.key
  unfenced : ledger.applicationRemoval input.application input.adapterEpoch = none
  live : forall owner, owner ∈ ledger.owners -> owner.id = input.id ->
    owner.phase = .retired
  newer : forall owner, owner ∈ ledger.owners ->
    owner.adapterEpoch = input.adapterEpoch -> owner.application = input.application ->
    owner.witness = input.witness -> owner.nativeNonce = input.nativeNonce ->
    owner.endpointGeneration < input.endpointGeneration
  room : ledger.owners.length < maximumOwners

structure AttachmentAdmitted (ledger : Ledger) (input : Attachment) : Prop where
  valid : validateAttachment input = .ok ()
  phase : input.phase = .pendingRegistration
  owned : exists owner, ledger.lookupOwnerForRef input.reference = some owner ∧
    owner.phase = .opened ∧
    ledger.applicationRemoval owner.application owner.adapterEpoch = none
  fresh : forall row, row ∈ ledger.attachments -> row.reference ≠ input.reference
  instances : forall row, row ∈ ledger.attachments ->
    row.reference.ownerKey = input.reference.ownerKey ->
    row.reference.threadInstanceGeneration = input.reference.threadInstanceGeneration ->
    row.threadId = input.threadId ∧
    row.reference.attachmentGeneration < input.reference.attachmentGeneration
  live : forall row, row ∈ ledger.attachments ->
    row.reference.ownerKey = input.reference.ownerKey -> row.threadId = input.threadId ->
    row.phase = .retired
  newer : (exists row, row ∈ ledger.attachments ∧ row.reference.ownerKey = input.reference.ownerKey
      ∧ row.reference.threadInstanceGeneration = input.reference.threadInstanceGeneration) ∨
    forall row, row ∈ ledger.attachments ->
      row.reference.ownerKey = input.reference.ownerKey ->
      row.reference.threadInstanceGeneration < input.reference.threadInstanceGeneration
  room : ledger.attachments.length + ledger.removals.length < maximumAttachments

structure RemovalAdmitted (ledger : Ledger) (fence : Removal) : Prop where
  phase : fence.phase = .pending
  valid : validateRemoval fence = .ok ()
  fresh : ledger.applicationRemoval fence.application fence.adapterEpoch = none
  room : ledger.attachments.length + ledger.removals.length < maximumAttachments
  agree : forall owner, owner ∈ ledger.owners ->
    owner.belongs fence.application fence.adapterEpoch = true -> owner.phase ≠ .retired ->
    owner.removalOperation = none ∨ owner.removalOperation = some fence.operation

/-- What an accepted operation turns a ledger into. -/
inductive Changes (ledger : Ledger) (op : Op) : Ledger -> Prop where
  | same : Changes ledger op ledger
  | owner (input : Owner) (h : OwnerAdmitted ledger input) :
      Changes ledger op { ledger with owners := ledger.owners ++ [input] }
  | attachment (input : Attachment) (hop : op = .admitAttachment input)
      (h : AttachmentAdmitted ledger input) :
      Changes ledger op { ledger with attachments := ledger.attachments ++ [input] }
  | moved {i : Nat} {row next : Attachment} (hrow : ledger.attachments[i]? = some row)
      (h : row.Moves op next) :
      Changes ledger op { ledger with attachments := ledger.attachments.set i next }
  | recovered : Changes ledger op ledger.recoverAfterRestart
  | closing {i : Nat} {owner : Owner} {operation : OperationId}
      (howner : ledger.owners[i]? = some owner)
      (hvalid : validateOperation operation = .ok ())
      (hnone : owner.removalOperation = none) :
      Changes ledger op { ledger with owners := ledger.owners.set i (owner.close operation) }
  | fenced {fence : Removal} (h : RemovalAdmitted ledger fence) :
      Changes ledger op
        { ledger with
          removals := ledger.removals ++ [fence]
          owners := ledger.owners.map
            (closeOwner fence.application fence.adapterEpoch fence.operation) }
  | ended {i : Nat} {fence : Removal} (hfence : ledger.removals[i]? = some fence)
      (hretired : forall owner, owner ∈ ledger.owners -> owner.belongs fence.application
        fence.adapterEpoch = true -> owner.phase = .retired) :
      Changes ledger op { ledger with removals := ledger.removals.set i fence.retire }
  | retired {i : Nat} {owner : Owner} (howner : ledger.owners[i]? = some owner)
      (hclosing : owner.removalOperation.isSome = true)
      (hrows : forall row, row ∈ ledger.attachments ->
        row.reference.ownerKey = owner.key -> row.phase = .retired) :
      Changes ledger op { ledger with owners := ledger.owners.set i owner.retire }

variable {ledger next : Ledger}

theorem checkOwner_inv {input owner : Owner} (h : checkOwner input owner = .ok ()) :
    (owner.id = input.id -> owner.phase = .retired) ∧
    (owner.adapterEpoch = input.adapterEpoch -> owner.application = input.application ->
      owner.witness = input.witness -> owner.nativeNonce = input.nativeNonce ->
      owner.endpointGeneration < input.endpointGeneration) := by
  simp only [checkOwner, ok_iff, Bool.and_eq_false_iff, bool_iff, sameOriginal, Nat.not_le] at h
  rcases h with ⟨_, hlive, hnewer⟩
  constructor
  · intro hid
    exact hlive.resolve_left (fun hne => hne hid)
  · intro hepoch happ hwitness hnonce
    rcases hnewer with (((hne | hne) | hne) | hne) | hlt
    · exact absurd hepoch hne
    · exact absurd happ hne
    · exact absurd hwitness hne
    · exact absurd hnonce hne
    · exact hlt

theorem admitOwner_inv {input : Owner} (h : ledger.admitOwner input = .ok next) :
    OwnerAdmitted ledger input ∧
      next = { ledger with owners := ledger.owners ++ [input] } := by
  simp only [admitOwner, ok_iff, bool_iff, Nat.not_le, isSome_eq_false, lookupOwnerKey,
    recordAt_eq_none] at h
  rcases h with ⟨_, hvalid, _, ⟨hphase, _⟩, _, hfresh, _, hunfenced, _, hchecks, _, hroom, hnext⟩
  have hchecks := fun owner howner => checkOwner_inv (checkAll_eq_ok.mp hchecks owner howner)
  exact ⟨⟨hvalid, hphase, hfresh, hunfenced, fun owner howner => (hchecks owner howner).left,
    fun owner howner => (hchecks owner howner).right, hroom⟩, hnext.symm⟩

/-!
## The scan of an admission
-/

/-- What one row of the ledger must be for an attachment to enter. -/
structure Passes (input row : Attachment) : Prop where
  fresh : row.reference ≠ input.reference
  instances : row.reference.ownerKey = input.reference.ownerKey ->
    row.reference.threadInstanceGeneration = input.reference.threadInstanceGeneration ->
    row.threadId = input.threadId ∧
    row.reference.attachmentGeneration < input.reference.attachmentGeneration
  live : row.reference.ownerKey = input.reference.ownerKey ->
    row.threadId = input.threadId -> row.phase = .retired

variable {op : Op} {operation : OperationId} {application : Bytes} {epoch : Nat}
  {input : Attachment}

theorem scanAttachment_inv {row : Attachment} {seen seen' : Seen}
    (h : scanAttachment input seen row = .ok seen') : Passes input row ∧
      seen' = if row.reference.ownerKey = input.reference.ownerKey then
        { knownInstance := seen.knownInstance || (row.reference.threadInstanceGeneration ==
              input.reference.threadInstanceGeneration)
          greatestInstance :=
            max seen.greatestInstance row.reference.threadInstanceGeneration }
        else seen := by
  simp only [scanAttachment, ok_iff] at h
  rcases h with ⟨_, hfresh, _, hthread, _, hgen, _, hlive, hseen⟩
  simp only [Bool.and_eq_false_iff, bool_iff, Nat.not_le] at hfresh hthread hgen hlive
  refine ⟨⟨hfresh, ?_, ?_⟩, ?_⟩
  · intro howner hinst
    have hsame : row.threadId = input.threadId := by
      rcases hthread with (hne | hne) | hsame
      · exact absurd howner hne
      · exact absurd hinst hne
      · exact hsame
    refine ⟨hsame, ?_⟩
    rcases hgen with ((hne | hne) | hne) | hlt
    · exact absurd howner hne
    · exact absurd hsame hne
    · exact absurd hinst hne
    · exact hlt
  · intro howner hthread'
    rcases hlive with (hne | hne) | hlive
    · exact absurd howner hne
    · exact absurd hthread' hne
    · exact hlive
  · rw [<- hseen]
    by_cases howner : row.reference.ownerKey = input.reference.ownerKey <;> simp

/-- What the scan has seen of the rows of the owner. -/
structure Saw (input : Attachment) (rows : List Attachment) (seen : Seen) : Prop where
  known : seen.knownInstance = true -> exists row, row ∈ rows ∧
    row.reference.ownerKey = input.reference.ownerKey ∧
    row.reference.threadInstanceGeneration = input.reference.threadInstanceGeneration
  greatest : forall row, row ∈ rows ->
    row.reference.ownerKey = input.reference.ownerKey ->
    row.reference.threadInstanceGeneration <= seen.greatestInstance

theorem scan_inv {rows done : List Attachment} {seen seen' : Seen} (hsaw : Saw input done seen)
    (h : rows.foldlM (scanAttachment input) seen = .ok seen') :
    (forall row, row ∈ rows -> Passes input row) ∧ Saw input (done ++ rows) seen' := by
  induction rows generalizing done seen with
  | nil =>
    cases h
    rw [append_nil]
    exact ⟨fun row hrow => absurd hrow not_mem_nil, hsaw⟩
  | cons row _ ih =>
    rw [foldlM_cons, bind_eq_ok] at h
    rcases h with ⟨middle, hmiddle, h⟩
    rcases scanAttachment_inv hmiddle with ⟨hpasses, hseen⟩
    have hsaw' : Saw input (done ++ [row]) middle := by
      rw [hseen]
      split_ifs with howner
      · constructor
        · intro hknown
          rcases Bool.or_eq_true_iff.mp hknown with hbefore | hnow
          · rcases hsaw.known hbefore with ⟨old, hold, hfound⟩
            exact ⟨old, mem_append_left _ hold, hfound⟩
          · exact ⟨row, by simp, howner, by simpa using hnow⟩
        · exact forall_mem_concat (fun old hbefore howner' =>
            Nat.le_trans (hsaw.greatest old hbefore howner') (Nat.le_max_left _ _))
            (fun _ => Nat.le_max_right _ _)
      · constructor
        · intro hknown
          rcases hsaw.known hknown with ⟨old, hold, hfound⟩
          exact ⟨old, mem_append_left _ hold, hfound⟩
        · exact forall_mem_concat hsaw.greatest (fun howner' => absurd howner' howner)
    rcases ih hsaw' h with ⟨hrest, hall⟩
    rw [append_assoc] at hall
    exact ⟨forall_mem_cons.mpr ⟨hpasses, hrest⟩, hall⟩

theorem admitAttachment_inv (h : ledger.admitAttachment input = .ok next) :
    AttachmentAdmitted ledger input ∧
      next = { ledger with attachments := ledger.attachments ++ [input] } := by
  simp only [admitAttachment, ownerOf, ok_iff, bool_iff, Nat.not_le, isSome_eq_false] at h
  rcases h with ⟨_, hvalid, _, ⟨⟨hphase, _⟩, _⟩, owner, howner, _, ⟨hopen, hunfenced⟩, _, _,
    _, hscan, _, hinst, _, hroom, hnext⟩
  have hempty : Saw input [] {} := by
    constructor
    · nofun
    · nofun
  rcases scan_inv hempty hscan with ⟨hpasses, hsaw⟩
  refine ⟨⟨hvalid, hphase, ⟨owner, howner, hopen, hunfenced⟩,
    fun row hrow => (hpasses row hrow).fresh, fun row hrow => (hpasses row hrow).instances,
    fun row hrow => (hpasses row hrow).live, ?_, hroom⟩, hnext.symm⟩
  simp only [Bool.and_eq_false_iff, bool_iff, Nat.not_le] at hinst
  rcases hinst with hknown | hgreater
  · exact Or.inl (hsaw.known hknown)
  · exact Or.inr (fun row hrow hsame =>
      Nat.lt_of_le_of_lt (hsaw.greatest row hrow hsame) hgreater)

/-!
## The other operations
-/

theorem onAttachment_changes {reference : NativeRef} {change : Attachment -> Result Attachment}
    (h : ledger.onAttachment reference change = .ok next)
    (hmoves : forall row row', row.reference = reference -> change row = .ok row' ->
      row.Moves op row') : Changes ledger op next := by
  simp only [onAttachment, attachmentIndex, ok_iff] at h
  rcases h with ⟨⟨i, row⟩, hentry, row', hrow, rfl⟩
  rcases recordEntry_eq_some hentry with ⟨hget, hkey⟩
  exact .moved hget (hmoves row row' hkey hrow)

theorem beginRemovalForOwner_changes {key : OwnerKey}
    (h : ledger.beginRemovalForOwner key operation = .ok next) : Changes ledger op next := by
  simp only [beginRemovalForOwner, qualifiedOwnerIndex, ok_iff] at h
  rcases h with ⟨_, hvalid, ⟨i, owner⟩, hentry, h⟩
  cases hop : owner.removalOperation with
  | some =>
    simp only [hop, ok_iff] at h
    rcases h with ⟨_, _, rfl⟩
    exact .same
  | none =>
    simp only [hop, ok_iff] at h
    rw [<- h]
    exact .closing (recordEntry_eq_some hentry).left hvalid hop

theorem retireOwnerForOwner_changes {key : OwnerKey}
    (h : ledger.retireOwnerForOwner key operation = .ok next) : Changes ledger op next := by
  simp only [retireOwnerForOwner, qualifiedOwnerIndex, ok_iff, any_eq_false, bool_iff, not_and,
    not_not] at h
  rcases h with ⟨⟨i, _⟩, hentry, _, hexp, _, _, _, hrows, rfl⟩
  rcases recordEntry_eq_some hentry with ⟨hget, hkey⟩
  refine .retired hget (Option.isSome_of_mem hexp) ?_
  intro row hrow howner
  exact hrows row hrow (howner.trans hkey)

theorem applicationRemoval_eq_none :
    ledger.applicationRemoval application epoch = none ↔ forall row, row ∈ ledger.removals ->
        ¬(row.adapterEpoch = epoch ∧ row.application = application) := by
  simp [applicationRemoval]

theorem applicationRemoval_eq_some {fence : Removal}
    (h : ledger.applicationRemoval application epoch = some fence) :
    fence ∈ ledger.removals ∧ fence.adapterEpoch = epoch ∧
      fence.application = application := by
  have hfound := List.find?_some h
  simp only [bool_iff] at hfound
  exact ⟨mem_of_find?_eq_some h, hfound⟩

theorem beginApplicationRemoval_changes
    (h : ledger.beginApplicationRemoval application epoch operation = .ok next) :
    Changes ledger op next := by
  simp only [beginApplicationRemoval, ok_iff] at h
  rcases h with ⟨_, hvalid, h⟩
  cases hfence : ledger.applicationRemoval application epoch with
  | some =>
    simp only [hfence, ok_iff] at h
    rcases h with ⟨_, _, hnext⟩
    rw [<- hnext]
    exact .same
  | none =>
    simp only [hfence, ok_iff, bool_iff, Nat.not_le] at h
    rcases h with ⟨_, hroom, _, hchecks, hnext⟩
    rw [<- hnext]
    refine .fenced ⟨rfl, hvalid, hfence, hroom, ?_⟩
    intro owner howner hbel hphase
    have hcheck := checkAll_eq_ok.mp hchecks owner howner
    simp only [checkFenced, ok_iff, hbel, Bool.and_eq_false_iff, bool_iff,
      isSome_eq_false] at hcheck
    rcases hcheck with ((hfalse | hret) | hnone) | hsome
    · cases hfalse
    · exact absurd hret hphase
    · exact Or.inl hnone
    · exact Or.inr hsome

theorem removalReady_inv (h : ledger.removalReady application epoch operation = true) :
    (exists fence, ledger.applicationRemoval application epoch = some fence ∧
      fence.operation = operation) ∧
    forall owner, owner ∈ ledger.owners -> owner.belongs application epoch = true ->
      owner.phase = .retired := by
  unfold removalReady at h
  split at h
  · cases h
  · rename_i fence hfence
    simp only [bool_iff, all_eq_true, Bool.or_eq_true] at h
    refine ⟨⟨fence, hfence, h.left⟩, ?_⟩
    intro owner howner hbel
    rcases h.right owner howner with hfalse | hret
    · rw [hbel] at hfalse
      cases hfalse
    · exact hret

theorem completeApplicationRemoval_inv
    (h : ledger.completeApplicationRemoval application epoch operation = .ok next) :
    ledger.removalReady application epoch operation = true ∧
      exists (i : Nat) (fence : Removal), ledger.removals[i]? = some fence ∧
        fence.adapterEpoch = epoch ∧ fence.application = application ∧
        next = { ledger with removals := ledger.removals.set i fence.retire } := by
  simp only [completeApplicationRemoval, ok_iff, bool_iff] at h
  rcases h with ⟨_, hready, ⟨i, fence⟩, hentry, hnext⟩
  rcases firstEntry_eq_some hentry with ⟨hget, hmatch⟩
  simp only [bool_iff] at hmatch
  exact ⟨hready, i, fence, hget, hmatch.left, hmatch.right, hnext.symm⟩

/-!
## Restoring

Whatever the rows are checked for, a restored ledger has exactly the saved rows.
-/

theorem restoreOwners_inv {rows : List Owner} (h : rows.foldlM restoreOwner ledger = .ok next) :
    next = { ledger with owners := ledger.owners ++ rows } := by
  induction rows generalizing ledger with
  | nil =>
    cases h
    rw [append_nil]
  | cons _ _ ih =>
    rw [foldlM_cons, bind_eq_ok] at h
    rcases h with ⟨_, hmiddle, h⟩
    simp only [restoreOwner, ok_iff] at hmiddle
    rcases hmiddle with ⟨_, _, _, _, _, _, _, _, hmiddle⟩
    rw [ih h, <- hmiddle, append_assoc]
    rfl

theorem restoreAttachments_inv {rows : List Attachment}
    (h : rows.foldlM restoreAttachment ledger = .ok next) :
    next = { ledger with attachments := ledger.attachments ++ rows } := by
  induction rows generalizing ledger with
  | nil =>
    cases h
    rw [append_nil]
  | cons _ _ ih =>
    rw [foldlM_cons, bind_eq_ok] at h
    rcases h with ⟨_, hmiddle, h⟩
    simp only [restoreAttachment, ok_iff] at hmiddle
    rcases hmiddle with ⟨_, _, _, _, _, _, _, _, _, _, _, _, _, _, hmiddle⟩
    rw [ih h, <- hmiddle, append_assoc]
    rfl

theorem restoreRemovals_inv {rows : List Removal}
    (h : rows.foldlM restoreRemoval ledger = .ok next) :
    next = { ledger with removals := ledger.removals ++ rows } := by
  induction rows generalizing ledger with
  | nil =>
    cases h
    rw [append_nil]
  | cons _ _ ih =>
    rw [foldlM_cons, bind_eq_ok] at h
    rcases h with ⟨_, hmiddle, h⟩
    simp only [restoreRemoval, ok_iff] at hmiddle
    rcases hmiddle with ⟨_, _, _, _, _, _, hmiddle⟩
    rw [ih h, <- hmiddle, append_assoc]
    rfl

theorem fromSnapshot_inv (h : fromSnapshot ledger.snapshot = .ok next) : next = ledger := by
  simp only [fromSnapshot, ok_iff] at h
  rcases h with ⟨_, _, _, howned, _, hattached, _, hrest, _, _, hnext⟩
  rw [<- hnext, restoreRemovals_inv hrest, restoreAttachments_inv hattached,
    restoreOwners_inv howned]
  rfl

/-!
## Every operation
-/

theorem attempt_changes (h : ledger.attempt op = .ok next) : Changes ledger op next := by
  cases op with
  | admitOwner input =>
    rcases admitOwner_inv h with ⟨hadm, hnext⟩
    rw [hnext]
    exact .owner input hadm
  | admitAttachment input =>
    rcases admitAttachment_inv h with ⟨hadm, hnext⟩
    rw [hnext]
    exact .attachment input rfl hadm
  | completeRegistration =>
    exact onAttachment_changes h (fun row row' _ hrow =>
      completeRegistration_inv _ hrow)
  | completeRegistrationNoEffect =>
    apply onAttachment_changes h
    intro row row' href hrow
    rw [<- href]
    exact completeRegistrationNoEffect_inv hrow
  | beginDetach =>
    simp only [attempt, beginDetach, ok_iff] at h
    rcases h with ⟨_, hvalid, h⟩
    exact onAttachment_changes h (fun row row' _ hrow =>
      beginDetach_inv _ hvalid hrow)
  | completeDetach =>
    apply onAttachment_changes h
    intro row row' href hrow
    rw [<- href]
    exact completeDetach_inv hrow
  | markUnresolved =>
    simp only [attempt] at h
    apply onAttachment_changes h
    intro row row' _ hrow
    rw [<- pure_eq_ok.mp hrow]
    exact .unresolved
  | recoverAfterRestart =>
    rw [<- pure_eq_ok.mp h]
    exact .recovered
  | beginRemoval =>
    simp only [attempt, beginRemoval, ok_iff] at h
    rcases h with ⟨_, _, h⟩
    exact beginRemovalForOwner_changes h
  | beginRemovalForRef | beginRemovalForOwner => exact beginRemovalForOwner_changes h
  | beginApplicationRemoval => exact beginApplicationRemoval_changes h
  | completeApplicationRemoval =>
    rcases completeApplicationRemoval_inv h with ⟨hready, i, _, hfence, rfl, rfl, hnext⟩
    rw [hnext]
    apply Changes.ended hfence
    exact (removalReady_inv hready).right
  | retireOwner =>
    simp only [attempt, retireOwner, ok_iff] at h
    rcases h with ⟨_, _, h⟩
    exact retireOwnerForOwner_changes h
  | retireOwnerForRef | retireOwnerForOwner => exact retireOwnerForOwner_changes h
  | restore =>
    rw [fromSnapshot_inv h]
    exact .same

theorem step_changes (ledger : Ledger) (op : Op) : Changes ledger op (ledger.step op) := by
  unfold step
  split
  · rename_i next h
    exact attempt_changes h
  · exact .same

end Ledger

end Omux.Native
