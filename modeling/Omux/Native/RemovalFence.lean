import Omux.Native.RoundTrip

/-!
# The removal fence

Once the removal of an application at one epoch has begun, nothing of it is admitted
again, and it ends only when every row under it is retired.
-/

namespace Omux.Native

open Library Attachment List

/-- A fence keeps what it fences and by which operation. -/
structure Removal.Advances (old new : Removal) : Prop where
  application : new.application = old.application
  epoch : new.adapterEpoch = old.adapterEpoch
  operation : new.operation = old.operation

theorem Removal.advances_refl (row : Removal) : Removal.Advances row row :=
  ⟨rfl, rfl, rfl⟩

theorem Removal.advances_trans {first second third : Removal}
    (h : Removal.Advances first second) (h' : Removal.Advances second third) :
    Removal.Advances first third :=
  ⟨h'.application.trans h.application, h'.epoch.trans h.epoch, h'.operation.trans h.operation⟩

namespace Ledger

variable {ledger next : Ledger} {op : Op}

/-!
## Later ledgers
-/

structure Later (before after : Ledger) : Prop where
  owners : Evolves Owner.Advances before.owners after.owners
  attachments : Evolves Attachment.Advances before.attachments after.attachments
  removals : Evolves Removal.Advances before.removals after.removals

theorem later_refl (ledger : Ledger) : Later ledger ledger :=
  ⟨evolves_refl Owner.advances_refl _, evolves_refl advances_refl _,
    evolves_refl Removal.advances_refl _⟩

theorem later_trans {first second third : Ledger} (h : Later first second)
    (h' : Later second third) : Later first third :=
  ⟨evolves_trans (@Owner.advances_trans) h.owners h'.owners,
    evolves_trans (@advances_trans) h.attachments h'.attachments,
    evolves_trans (@Removal.advances_trans) h.removals h'.removals⟩

theorem later_owners {owners : List Owner} (h : Forall₂ Owner.Advances ledger.owners owners) :
    Later ledger { ledger with owners } :=
  ⟨evolves_of_forall₂ h, (later_refl ledger).attachments, (later_refl ledger).removals⟩

theorem later_attachments {rows : List Attachment}
    (h : Forall₂ Attachment.Advances ledger.attachments rows) :
    Later ledger { ledger with attachments := rows } :=
  ⟨(later_refl ledger).owners, evolves_of_forall₂ h, (later_refl ledger).removals⟩

theorem later_changes (h : Valid ledger) (hchanges : Changes ledger op next) :
    Later ledger next := by
  have hsame := later_refl ledger
  cases hchanges with
  | same => exact hsame
  | owner => exact ⟨evolves_append Owner.advances_refl _ _, hsame.attachments, hsame.removals⟩
  | attachment => exact ⟨hsame.owners, evolves_append advances_refl _ _, hsame.removals⟩
  | moved hrow hmoves =>
    exact later_attachments (forall₂_set advances_refl hrow (advances_moves hmoves))
  | recovered =>
    exact later_attachments (forall₂_map (fun row _ =>
      advances_moves (@Attachment.Moves.unresolved op row)))
  | @closing i owner operation howner hvalid hnone =>
    have hopen := (Owner.removal_of_valid (h.owners owner (mem_of_getElem? howner))).mpr hnone
    have hlive : owner.phase ≠ .retired := by
      rw [hopen]
      decide
    exact later_owners (forall₂_set Owner.advances_refl howner
      (Owner.advances_close hvalid hlive (.inl hnone)))
  | fenced hnew =>
    refine ⟨?_, hsame.attachments, evolves_append Removal.advances_refl _ _⟩
    exact evolves_of_forall₂ (forall₂_map (fun owner howner =>
      advances_closeOwner hnew.valid (hnew.agree owner howner)))
  | ended hfence _ =>
    exact ⟨hsame.owners, hsame.attachments, evolves_of_forall₂
      (forall₂_set Removal.advances_refl hfence ⟨rfl, rfl, rfl⟩)⟩
  | retired howner hclosing _ =>
    exact later_owners (forall₂_set Owner.advances_refl howner (Owner.advances_retire hclosing))

theorem later_step (h : Valid ledger) (op : Op) : Later ledger (ledger.step op) :=
  later_changes h (step_changes ledger op)

theorem valid_step (h : Valid ledger) (op : Op) : Valid (ledger.step op) :=
  valid_changes h (step_changes ledger op)

theorem later_run (h : Valid ledger) (ops : List Op) :
    Valid (run step ledger ops) ∧ Later ledger (run step ledger ops) := by
  induction ops generalizing ledger with
  | nil => exact ⟨h, later_refl ledger⟩
  | cons op _ ih =>
    rcases ih (valid_step h op) with ⟨hvalid, hlater⟩
    exact ⟨hvalid, later_trans (later_step h op) hlater⟩

/-!
## The fence
-/

def Fenced (ledger : Ledger) (application : Bytes) (epoch : Nat) (operation : OperationId) :
    Prop :=
  exists fence, ledger.applicationRemoval application epoch = some fence ∧
    fence.operation = operation

variable {application : Bytes} {epoch : Nat} {operation : OperationId}

theorem fenced_of_mem (h : Valid ledger) {fence : Removal} (hfence : fence ∈ ledger.removals)
    (hepoch : fence.adapterEpoch = epoch) (happ : fence.application = application) :
    ledger.applicationRemoval application epoch = some fence := by
  cases hfound : ledger.applicationRemoval application epoch with
  | none => exact absurd ⟨hepoch, happ⟩ (applicationRemoval_eq_none.mp hfound fence hfence)
  | some found =>
    rcases applicationRemoval_eq_some hfound with ⟨hmem, rfl, rfl⟩
    have hsame : (found.application, found.adapterEpoch) =
        (fence.application, fence.adapterEpoch) := by
      rw [happ, hepoch]
    rw [inj_on_of_nodup_map h.fences hmem hfence hsame]

theorem fenced_later (hfenced : Fenced ledger application epoch operation)
    (hvalid : Valid next) (hlater : Later ledger next) :
    Fenced next application epoch operation := by
  rcases hfenced with ⟨_, hfound, rfl⟩
  rcases applicationRemoval_eq_some hfound with ⟨hmem, rfl, rfl⟩
  rcases exists_of_evolves hlater.removals hmem with ⟨fence', hmem', hadv⟩
  refine ⟨fence', fenced_of_mem hvalid hmem' ?_ ?_, ?_⟩
  · rw [hadv.epoch]
  · rw [hadv.application]
  · rw [hadv.operation]

theorem fenced_begin (h : ledger.beginApplicationRemoval application epoch operation = .ok next) :
    Fenced next application epoch operation := by
  simp only [beginApplicationRemoval, ok_iff] at h
  rcases h with ⟨_, _, h⟩
  cases hfence : ledger.applicationRemoval application epoch with
  | some old =>
    simp only [hfence, ok_iff, bool_iff] at h
    rcases h with ⟨_, hop, hnext⟩
    rw [<- hnext]
    exact ⟨old, hfence, hop⟩
  | none =>
    simp only [hfence, ok_iff] at h
    rcases h with ⟨_, _, _, _, hnext⟩
    rw [<- hnext]
    refine ⟨{ application, adapterEpoch := epoch, operation },
      ?_, rfl⟩
    unfold applicationRemoval at hfence ⊢
    rw [find?_append, hfence]
    simp

/-- Neither an owner nor an attachment enters behind the fence, and no other operation is
taken for it. -/
structure Shut (ledger : Ledger) (application : Bytes) (epoch : Nat)
    (operation : OperationId) : Prop where
  owners : forall input next, input.belongs application epoch = true ->
    ledger.admitOwner input ≠ .ok next
  attachments : forall input owner next, ledger.lookupOwnerForRef input.reference = some owner ->
    owner.belongs application epoch = true -> ledger.admitAttachment input ≠ .ok next
  begins : forall other next, other ≠ operation ->
    ledger.beginApplicationRemoval application epoch other ≠ .ok next
  completes : forall other next, other ≠ operation ->
    ledger.completeApplicationRemoval application epoch other ≠ .ok next
  closes : forall owner other next, owner ∈ ledger.owners ->
    owner.belongs application epoch = true -> owner.phase ≠ .retired ->
    other ≠ operation -> ledger.beginRemovalForOwner owner.key other ≠ .ok next
  retires : forall owner other next, owner ∈ ledger.owners ->
    owner.belongs application epoch = true -> owner.phase ≠ .retired ->
    other ≠ operation -> ledger.retireOwnerForOwner owner.key other ≠ .ok next

theorem belongs_eq_true {owner : Owner} : owner.belongs application epoch = true ↔
      owner.adapterEpoch = epoch ∧ owner.application = application := by
  simp [Owner.belongs]

theorem shut_of_fenced (h : Valid ledger) (hfenced : Fenced ledger application epoch operation) :
    Shut ledger application epoch operation := by
  rcases hfenced with ⟨fence, hfound, hop⟩
  rcases applicationRemoval_eq_some hfound with ⟨hmem, hepoch, happ⟩
  -- The operation of a live owner behind the fence is the operation of the fence.
  have hclosed : forall owner, owner ∈ ledger.owners ->
      owner.belongs application epoch = true -> owner.phase ≠ .retired ->
      forall i found, recordEntry Owner.key ledger.owners owner.key = some (i, found) ->
        found.removalOperation = some operation := by
    intro owner howner hbel hlive
    rw [<- hepoch, <- happ] at hbel
    have hstored := (h.fenced fence hmem owner howner hbel hlive).left
    rcases recordEntry_of_mem h.ownerKeys howner rfl with ⟨i, hentry⟩
    intro j found hfound'
    rw [hentry] at hfound'
    cases hfound'
    rw [hstored, hop]
  constructor
  · intro input next hbel hadmit
    rcases belongs_eq_true.mp hbel with ⟨rfl, rfl⟩
    have hnone := (admitOwner_inv hadmit).left.unfenced
    rw [hfound] at hnone
    cases hnone
  · intro input owner next hlookup hbel hadmit
    rcases belongs_eq_true.mp hbel with ⟨howner, rfl⟩
    rcases (admitAttachment_inv hadmit).left.owned with ⟨found, hlookup', _, hnone⟩
    rw [hlookup] at hlookup'
    cases hlookup'
    rw [howner, hfound] at hnone
    cases hnone
  · intro other next hother hbegin
    simp only [beginApplicationRemoval, hfound, ok_iff, bool_iff] at hbegin
    rcases hbegin with ⟨_, _, _, hsame, _⟩
    exact hother (hsame.symm.trans hop)
  · intro other next hother hcomp
    rcases completeApplicationRemoval_inv hcomp with ⟨hready, _⟩
    rcases (removalReady_inv hready).left with ⟨_, hfound', hsame⟩
    rw [hfound] at hfound'
    cases hfound'
    exact hother (hsame.symm.trans hop)
  · intro owner other next howner hbel hlive hother hbegin
    simp only [beginRemovalForOwner, qualifiedOwnerIndex, ok_iff] at hbegin
    rcases hbegin with ⟨_, _, ⟨i, found⟩, hentry, hbegin⟩
    have hstored := hclosed owner howner hbel hlive i found hentry
    simp only [hstored, ok_iff, bool_iff] at hbegin
    rcases hbegin with ⟨_, hsame, _⟩
    exact hother hsame.symm
  · intro owner other next howner hbel hlive hother hretire
    simp only [retireOwnerForOwner, qualifiedOwnerIndex, ok_iff, bool_iff] at hretire
    rcases hretire with ⟨⟨i, found⟩, hentry, _, hexp, _, hsame, _⟩
    have hstored := hclosed owner howner hbel hlive i found hentry
    rw [hexp] at hstored
    cases hstored
    exact hother hsame.symm

/-!
## What was ever admitted
-/

def admitted (ledger : Ledger) (op : Op) : List Attachment :=
  match op, ledger.attempt op with
  | .admitAttachment input, .ok _ => [input]
  | _, _ => []

def admissions : Ledger -> List Op -> List Attachment
  | _, [] => []
  | ledger, op :: rest => ledger.admitted op ++ admissions (ledger.step op) rest

def identity (row : Attachment) : NativeRef × Bytes × OperationId :=
  (row.reference, row.threadId, row.registrationOperation)

theorem identity_of_advances {old new : Attachment} (h : Attachment.Advances old new) :
    identity new = identity old := by
  unfold identity
  rw [h.reference, h.thread, h.registration]

theorem identities_attempt (h : ledger.attempt op = .ok next) : next.attachments.map identity =
      ledger.attachments.map identity ++ (ledger.admitted op).map identity := by
  have hnone : (forall input, op ≠ .admitAttachment input) -> ledger.admitted op = [] := by
    intro hother
    unfold admitted
    split
    · rename_i input _ _
      exact absurd rfl (hother input)
    · rfl
  by_cases hadmits : exists input, op = .admitAttachment input
  · rcases hadmits with ⟨input, hop⟩
    subst hop
    have hadm : ledger.admitted (.admitAttachment input) = [input] := by
      unfold admitted
      rw [h]
    rw [hadm, (admitAttachment_inv h).right]
    exact map_append
  · have hother : forall input, op ≠ .admitAttachment input := by
      intro input hop
      exact hadmits ⟨input, hop⟩
    rw [hnone hother, map_nil, append_nil]
    have hchanges := attempt_changes h
    cases hchanges with
    | same | owner | closing | fenced | ended | retired => rfl
    | attachment input hop _ => exact absurd hop (hother input)
    | moved hrow hmoves =>
      exact map_eq_of_forall₂ (fun _ _ hadv => identity_of_advances hadv)
        (forall₂_set advances_refl hrow (advances_moves hmoves))
    | recovered =>
      exact map_eq_of_forall₂ (fun _ _ hadv => identity_of_advances hadv) (forall₂_map (fun row _ =>
          advances_moves (@Attachment.Moves.unresolved op row)))

theorem identities_step (ledger : Ledger) (op : Op) : (ledger.step op).attachments.map identity =
      ledger.attachments.map identity ++ (ledger.admitted op).map identity := by
  unfold step
  cases h : ledger.attempt op with
  | ok => exact identities_attempt h
  | error =>
    have hnone : ledger.admitted op = [] := by
      unfold admitted
      rw [h]
      cases op <;> rfl
    rw [hnone, map_nil, append_nil]

theorem identities_run (ledger : Ledger) (ops : List Op) :
    (run step ledger ops).attachments.map identity =
      ledger.attachments.map identity ++ (admissions ledger ops).map identity := by
  induction ops generalizing ledger with
  | nil => simp [admissions]
  | cons _ _ ih =>
    rw [run_cons, ih, identities_step, admissions, map_append, append_assoc]

/-!
## Retirement
-/

theorem retired_changes {i : Nat} {row row' : Attachment} (hchanges : Changes ledger op next)
    (hrow : ledger.attachments[i]? = some row) (hlive : row.phase ≠ .retired)
    (hrow' : next.attachments[i]? = some row') (hret : row'.phase = .retired) :
    op = .completeRegistrationNoEffect row.reference row.registrationOperation ∨
      exists operation, row.detachOperation = some operation ∧
        op = .completeDetach row.reference operation := by
  have hkept : next.attachments[i]? = some row -> False := by
    intro hsame
    rw [hsame] at hrow'
    cases hrow'
    exact hlive hret
  cases hchanges with
  | same | owner | closing | fenced | ended | retired => exact (hkept hrow).elim
  | attachment =>
    rcases List.getElem?_eq_some_iff.mp hrow with ⟨hi, _⟩
    exact (hkept (by rw [<- hrow]; exact getElem?_append_left hi)).elim
  | @moved j old new hold hmoves =>
    by_cases hij : j = i
    · subst hij
      rcases List.getElem?_eq_some_iff.mp hrow with ⟨hi, _⟩
      rw [hrow] at hold
      cases hold
      have hnew : (ledger.attachments.set j new)[j]? = some new :=
        getElem?_set_self hi
      rw [hnew] at hrow'
      cases hrow'
      exact retired_moves hmoves hlive hret
    · exact (hkept (by rw [<- hrow]; exact getElem?_set_ne hij)).elim
  | recovered =>
    have hmapped : (ledger.attachments.map Attachment.markUnresolved)[i]? =
        some row.markUnresolved := by
      rw [getElem?_map, hrow]
      rfl
    have hsame : some row.markUnresolved = some row' := hmapped.symm.trans hrow'
    cases hsame
    exact retired_moves (@Attachment.Moves.unresolved op row) hlive hret

/-- A row that an operation adds is not retired. -/
theorem added_changes {i : Nat} {row : Attachment} (hchanges : Changes ledger op next)
    (hnone : ledger.attachments[i]? = none) (hrow : next.attachments[i]? = some row) :
    row.phase = .pendingRegistration := by
  have hlength := getElem?_eq_none_iff.mp hnone
  have hsame : next.attachments.length = ledger.attachments.length -> False := by
    rcases List.getElem?_eq_some_iff.mp hrow with ⟨_, _⟩
    omega
  cases hchanges with
  | same | owner | closing | fenced | ended | retired => exact (hsame rfl).elim
  | attachment input _ hinput =>
    have hadded : (ledger.attachments ++ [input])[i]? =
        [input][i - ledger.attachments.length]? := getElem?_append_right hlength
    have hmem := mem_of_getElem? (hadded.symm.trans hrow)
    rw [mem_singleton.mp hmem]
    exact hinput.phase
  | moved => exact (hsame length_set).elim
  | recovered => exact (hsame (length_map _)).elim

/-!
## The guarantee
-/

/-- Everything that was ever admitted for the application at the epoch is retired. -/
structure AllRetired (ledger : Ledger) (log : List Attachment) (application : Bytes)
    (epoch : Nat) : Prop where
  owners : forall owner, owner ∈ ledger.owners ->
    owner.belongs application epoch = true -> owner.phase = .retired
  attachments : forall owner, owner ∈ ledger.owners ->
    owner.belongs application epoch = true -> forall input, input ∈ log ->
    input.reference.ownerKey = owner.key -> exists row, row ∈ ledger.attachments ∧
      row.reference = input.reference ∧ row.threadId = input.threadId ∧
      row.phase = .retired

theorem allRetired_of_complete (ops : List Op)
    (h : (run step init ops).completeApplicationRemoval application epoch operation = .ok next) :
    AllRetired (run step init ops) (admissions init ops) application epoch := by
  have howners := (removalReady_inv (completeApplicationRemoval_inv h).left).right
  refine ⟨howners, ?_⟩
  intro owner howner hbel input hinput hkey
  have hlogged : identity input ∈ (run step init ops).attachments.map identity := by
    rw [identities_run]
    exact mem_append_right _ (mem_map_of_mem hinput)
  rcases mem_map.mp hlogged with ⟨row, hrow, hsame⟩
  simp only [identity, Prod.mk.injEq] at hsame
  refine ⟨row, hrow, hsame.left, hsame.right.left, ?_⟩
  apply settled_of_valid (valid_run ops) howner (howners owner howner hbel) hrow
  rw [hsame.left]
  exact hkey

/-- In every run: a removal that has begun stays shut; it is completed only when all its
rows are retired; retired rows stay as they are; an owner id and a thread have at most one
live row; and a row is retired only by the operation stored in it. -/
theorem native_removal_fence (ops : List Op) :
    (forall application epoch operation fenced later,
      (run step init ops).beginApplicationRemoval application epoch operation = .ok fenced ->
      Shut (run step fenced later) application epoch operation) ∧
    (forall application epoch operation next,
      (run step init ops).completeApplicationRemoval application epoch operation = .ok next ->
      AllRetired (run step init ops) (admissions init ops) application epoch) ∧
    (forall (i : Nat) later,
      (forall owner, (run step init ops).owners[i]? = some owner -> owner.phase = .retired ->
        (run step init (ops ++ later)).owners[i]? = some owner) ∧
      (forall row, (run step init ops).attachments[i]? = some row -> row.phase = .retired ->
        (run step init (ops ++ later)).attachments[i]? = some row)) ∧
    (forall (i j : Nat) a b, i ≠ j -> (run step init ops).owners[i]? = some a ->
      (run step init ops).owners[j]? = some b -> a.id = b.id ->
      a.phase = .retired ∨ b.phase = .retired) ∧
    (forall (i j : Nat) a b, i ≠ j -> (run step init ops).attachments[i]? = some a ->
      (run step init ops).attachments[j]? = some b ->
      a.reference.ownerKey = b.reference.ownerKey -> a.threadId = b.threadId ->
      a.phase = .retired ∨ b.phase = .retired) ∧
    (forall op (i : Nat) row,
      (run step init (ops ++ [op])).attachments[i]? = some row -> row.phase = .retired ->
      exists old, (run step init ops).attachments[i]? = some old ∧
        (old.phase = .retired ∨
          op = .completeRegistrationNoEffect old.reference old.registrationOperation ∨
          exists operation, old.detachOperation = some operation ∧
            op = .completeDetach old.reference operation)) := by
  have hvalid := valid_run ops
  refine ⟨?_, ?_, ?_, ?_, ?_, ?_⟩
  · intro application epoch operation fenced later hbegin
    have hfenced := valid_changes hvalid
      (@beginApplicationRemoval_changes _ _ .restore _ _ _ hbegin)
    rcases later_run hfenced later with ⟨hafter, hlater⟩
    exact shut_of_fenced hafter (fenced_later (fenced_begin hbegin) hafter hlater)
  · intro application epoch operation next hcomp
    exact allRetired_of_complete ops hcomp
  · intro i later
    rw [run_append]
    have hlater := (later_run hvalid later).right
    constructor
    · intro owner howner hret
      rcases hlater.owners i owner howner with ⟨_, howner', hadv⟩
      rw [hadv.settled hret] at howner'
      exact howner'
    · intro row hrow hret
      rcases hlater.attachments i row hrow with ⟨_, hrow', hadv⟩
      rw [hadv.settled hret] at hrow'
      exact hrow'
  · intro i j a b hij ha hb hid
    exact hvalid.ownersLive a (mem_of_getElem? ha) b (mem_of_getElem? hb)
      (key_ne_of_index_ne hvalid.ownerKeys hb ha hij) hid
  · intro i j a b hij ha hb howner hthread
    exact hvalid.attachmentsLive a (mem_of_getElem? ha) b (mem_of_getElem? hb)
      (key_ne_of_index_ne hvalid.references hb ha hij) howner hthread
  · intro op i row hrow hret
    rw [run_append] at hrow
    have hchanges := step_changes (run step init ops) op
    cases hold : (run step init ops).attachments[i]? with
    | none =>
      rw [added_changes hchanges hold hrow] at hret
      cases hret
    | some old =>
      refine ⟨old, rfl, ?_⟩
      by_cases hphase : old.phase = .retired
      · exact Or.inl hphase
      · exact Or.inr (retired_changes hchanges hold hphase hrow hret)

/-- The run before its last operation. -/
theorem native_removal_fence_removedRun :
    Succeeds ((run step init removedRun.dropLast).completeApplicationRemoval
      (ascii "codex") 1 (Vector.replicate 64 0x62)) ∧
    AllRetired (run step init removedRun.dropLast) (admissions init removedRun.dropLast)
      (ascii "codex") 1 := by
  have hready : ((run step init removedRun.dropLast).completeApplicationRemoval
      (ascii "codex") 1 (Vector.replicate 64 0x62)).toOption.isSome = true := by
    decide +kernel
  cases hcomp : (run step init removedRun.dropLast).completeApplicationRemoval
      (ascii "codex") 1 (Vector.replicate 64 0x62) with
  | error _ => cases hcomp ▸ hready
  | ok next =>
    refine ⟨⟨next, rfl⟩, ?_⟩
    exact (native_removal_fence removedRun.dropLast).right.left _ _ _ next hcomp

end Ledger

end Omux.Native
