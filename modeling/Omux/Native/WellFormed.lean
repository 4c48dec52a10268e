import Omux.Native.Changes

/-!
# Well-formed native ledgers

The checks that a restore makes of every row, and of every row against the rows before
it, hold in each reachable ledger.
-/

namespace Omux.Native

open Library List Attachment
open Ledger (Op)

/-!
## Rows that advance
-/

/-- An owner row keeps who it is, and the operation that ends it. -/
structure Owner.Advances (old new : Owner) : Prop where
  frame : new = { old with phase := new.phase, removalOperation := new.removalOperation }
  settled : old.phase = .retired -> new = old
  operation : forall operation, old.removalOperation = some operation ->
    new.removalOperation = some operation
  valid : validateOwner old = .ok () -> validateOwner new = .ok ()

namespace Owner

variable {old new owner : Owner} {operation : OperationId}

theorem advances_refl (owner : Owner) : Advances owner owner :=
  ⟨rfl, fun _ => rfl, fun _ h => h, fun h => h⟩

theorem advances_trans {third : Owner} (h : Advances old new) (h' : Advances new third) :
    Advances old third := by
  refine ⟨?_, ?_, fun op hop => h'.operation op (h.operation op hop),
    fun hvalid => h'.valid (h.valid hvalid)⟩
  · rw [h'.frame, h.frame]
  · intro hret
    have hsame := h.settled hret
    rw [hsame] at h'
    exact h'.settled hret

theorem key_of_advances (h : Advances old new) : new.key = old.key := by
  rw [h.frame]
  rfl

theorem belongs_of_advances (h : Advances old new) (application : Bytes) (epoch : Nat) :
    new.belongs application epoch = old.belongs application epoch := by
  rw [h.frame]
  rfl

theorem removal_of_valid (h : validateOwner owner = .ok ()) :
    owner.phase = .opened ↔ owner.removalOperation = none := by
  simp only [validateOwner, ok_iff, bool_iff] at h
  rcases h with ⟨_, _, _, _, _, _, _, _, _, _, _, _, hphase⟩
  rw [<- Option.isNone_iff_eq_none, <- hphase, beq_iff_eq]

theorem advances_close (hvalid : validateOperation operation = .ok ())
    (hphase : owner.phase ≠ .retired)
    (hnone : owner.removalOperation = none ∨ owner.removalOperation = some operation) :
    Advances owner (owner.close operation) := by
  refine ⟨rfl, fun hret => absurd hret hphase, ?_, ?_⟩
  · intro _ hop
    rcases hnone with hnone | hsome
    · rw [hnone] at hop
      cases hop
    · rw [<- hop, hsome]
      rfl
  · intro h
    simp only [validateOwner, ok_iff] at h ⊢
    rcases h with ⟨_, h1, _, h2, _, h3, _, h4, _, h5, _, _, _⟩
    exact ⟨(), h1, (), h2, (), h3, (), h4, (), h5, (), hvalid, rfl⟩

theorem advances_retire (hclosing : owner.removalOperation.isSome = true) :
    Advances owner owner.retire := by
  refine ⟨rfl, ?_, fun _ hop => hop, ?_⟩
  · intro hret
    unfold retire
    rw [<- hret]
  · intro h
    simp only [validateOwner, ok_iff] at h ⊢
    rcases h with ⟨_, h1, _, h2, _, h3, _, h4, _, h5, _, h6, _⟩
    refine ⟨(), h1, (), h2, (), h3, (), h4, (), h5, (), h6, ?_⟩
    have hnone : owner.removalOperation.isNone = false := by
      rw [Option.isNone_eq_false_iff]
      exact hclosing
    show ((OwnerPhase.retired == .opened) != owner.removalOperation.isNone) = false
    rw [hnone]
    rfl

end Owner

/-- An attachment row keeps who it is, and stays as it is once it is retired. -/
structure Attachment.Advances (old new : Attachment) : Prop where
  reference : new.reference = old.reference
  thread : new.threadId = old.threadId
  registration : new.registrationOperation = old.registrationOperation
  settled : old.phase = .retired -> new = old
  valid : validateAttachment old = .ok () -> validateAttachment new = .ok ()

namespace Attachment

variable {row next : Attachment} {op : Op}

theorem advances_refl (row : Attachment) : Advances row row :=
  ⟨rfl, rfl, rfl, fun _ => rfl, fun h => h⟩

theorem advances_trans {old new third : Attachment} (h : Advances old new)
    (h' : Advances new third) : Advances old third := by
  refine ⟨h'.reference.trans h.reference, h'.thread.trans h.thread,
    h'.registration.trans h.registration, ?_, fun hvalid => h'.valid (h.valid hvalid)⟩
  intro hret
  have hsame := h.settled hret
  rw [hsame] at h'
  exact h'.settled hret

/-- The checks of a row that an operation can touch. -/
structure Coherent (row : Attachment) : Prop where
  detach : validateOptionalOperation row.detachOperation = .ok ()
  retirement : row.phase = .retired ↔ row.retirement ≠ .none
  consistent : row.isConsistent = true

theorem coherent_of_valid (h : validateAttachment row = .ok ()) : row.Coherent := by
  simp only [validateAttachment, ok_iff, bool_iff] at h
  rcases h with ⟨_, _, _, _, _, _, _, hdetach, _, hret, hcons⟩
  refine ⟨hdetach, ?_, hcons⟩
  rw [<- beq_iff_eq, hret, bne_iff_ne]

theorem valid_of_coherent (h : validateAttachment row = .ok ())
    (href : next.reference = row.reference) (hthread : next.threadId = row.threadId)
    (hregistration : next.registrationOperation = row.registrationOperation)
    (hnext : next.Coherent) : validateAttachment next = .ok () := by
  simp only [validateAttachment, ok_iff] at h ⊢
  rcases h with ⟨_, h1, _, h2, _, h3, _, _, _, _, _⟩
  rw [href, hthread, hregistration]
  refine ⟨(), h1, (), h2, (), h3, (), hnext.detach, (), ?_, ?_⟩
  · rw [bne_eq_false_iff_eq, Bool.eq_iff_iff, beq_iff_eq, bne_iff_ne]
    exact hnext.retirement
  · rw [hnext.consistent]
    rfl

theorem registration_of_awaits (h : row.Coherent) (hawaits : row.AwaitsRegistration) :
    row.detachOperation = none ∧ row.unresolvedFrom = .registration ∧
      row.retirement = .none := by
  have hcons := h.consistent
  have hret := h.retirement
  unfold isConsistent at hcons
  rcases hawaits with hphase | ⟨hphase, hfrom⟩
  · rw [hphase] at hcons hret
    simp only [bool_iff, Option.isNone_iff_eq_none] at hcons
    exact ⟨hcons.left, hcons.right, by simpa using hret⟩
  · rw [hphase] at hcons hret
    rw [hfrom] at hcons
    refine ⟨?_, hfrom, by simpa using hret⟩
    cases hdetach : row.detachOperation with
    | none => rfl
    | some => cases hdetach ▸ hcons

theorem detachment_of_awaits (h : row.Coherent) (hawaits : row.AwaitsDetach) :
    row.unresolvedFrom = .detachment := by
  have hcons := h.consistent
  unfold isConsistent at hcons
  rcases hawaits with hphase | ⟨_, hfrom⟩
  · rw [hphase] at hcons
    simp only [bool_iff] at hcons
    exact hcons.right
  · exact hfrom

theorem coherent_markUnresolved (h : row.Coherent) : row.markUnresolved.Coherent := by
  have hcons := h.consistent
  have hret := h.retirement
  unfold isConsistent at hcons
  unfold markUnresolved
  cases hphase : row.phase with
  | unresolved | retired => exact h
  | pendingRegistration | attached =>
    rw [hphase] at hcons hret
    simp only [bool_iff, Option.isNone_iff_eq_none] at hcons
    refine ⟨h.detach, by simpa using hret, ?_⟩
    simp [isConsistent, hcons.left]
  | pendingDetach =>
    rw [hphase] at hcons hret
    simp only [bool_iff] at hcons
    refine ⟨h.detach, by simpa using hret, ?_⟩
    simp [isConsistent, hcons.left]

theorem coherent_moves (h : row.Coherent) (hmoves : row.Moves op next) : next.Coherent := by
  cases hmoves with
  | same => exact h
  | attached hawaits =>
    rcases registration_of_awaits h hawaits with ⟨hdetach, _, hnone⟩
    exact ⟨h.detach, by simp [hnone], by simp [isConsistent, hdetach]⟩
  | detaching operation hvalid hmay =>
    have hnone : row.retirement = .none := by
      have hret := h.retirement
      rcases hmay with hphase | ⟨hphase, _⟩ <;> simpa [hphase] using hret
    exact ⟨hvalid, by simp [hnone], by simp [isConsistent]⟩
  | noEffect _ hawaits =>
    rcases registration_of_awaits h hawaits with ⟨hdetach, hfrom, _⟩
    exact ⟨h.detach, by simp, by simp [isConsistent, hdetach, hfrom]⟩
  | detached operation hstored _ hawaits =>
    have hfrom := detachment_of_awaits h hawaits
    exact ⟨h.detach, by simp, by simp [isConsistent, hstored, hfrom]⟩
  | unresolved => exact coherent_markUnresolved h

theorem frame_moves (hmoves : row.Moves op next) :
    next.reference = row.reference ∧ next.threadId = row.threadId ∧
      next.registrationOperation = row.registrationOperation ∧
      (row.phase = .retired -> next = row) := by
  cases hmoves with
  | same => exact ⟨rfl, rfl, rfl, fun _ => rfl⟩
  | attached hawaits | noEffect _ hawaits =>
    refine ⟨rfl, rfl, rfl, ?_⟩
    intro hret
    rcases hawaits with hphase | ⟨hphase, _⟩
    · rw [hret] at hphase
      cases hphase
    · rw [hret] at hphase
      cases hphase
  | detaching operation _ hawaits | detached operation _ _ hawaits =>
    refine ⟨rfl, rfl, rfl, ?_⟩
    intro hret
    rcases hawaits with hphase | ⟨hphase, _⟩
    · rw [hret] at hphase
      cases hphase
    · rw [hret] at hphase
      cases hphase
  | unresolved =>
    unfold markUnresolved
    cases hphase : row.phase with
    | retired | unresolved => exact ⟨rfl, rfl, rfl, fun _ => rfl⟩
    | pendingRegistration | attached | pendingDetach =>
      refine ⟨rfl, rfl, rfl, ?_⟩
      nofun

theorem advances_moves (hmoves : row.Moves op next) : Advances row next := by
  rcases frame_moves hmoves with ⟨href, hthread, hregistration, hsettled⟩
  refine ⟨href, hthread, hregistration, hsettled, ?_⟩
  intro hvalid
  exact valid_of_coherent hvalid href hthread hregistration
    (coherent_moves (coherent_of_valid hvalid) hmoves)

theorem retired_moves (hmoves : row.Moves op next) (hlive : row.phase ≠ .retired)
    (hret : next.phase = .retired) :
    op = .completeRegistrationNoEffect row.reference row.registrationOperation ∨
      exists operation, row.detachOperation = some operation ∧
        op = .completeDetach row.reference operation := by
  cases hmoves with
  | same => exact absurd hret hlive
  | attached | detaching => cases hret
  | noEffect hop _ => exact Or.inl hop
  | detached operation hstored hop _ => exact Or.inr ⟨operation, hstored, hop⟩
  | unresolved =>
    unfold markUnresolved at hret
    cases hphase : row.phase with
    | retired => exact absurd hphase hlive
    | unresolved | pendingRegistration | attached | pendingDetach => simp [hphase] at hret

end Attachment

/-!
## The invariant
-/

namespace Ledger

/-- Two owners of one incarnation of an application. -/
def SameOrigin (a b : Owner) : Prop :=
  a.adapterEpoch = b.adapterEpoch ∧ a.endpointGeneration = b.endpointGeneration ∧
    a.application = b.application ∧ a.witness = b.witness ∧ a.nativeNonce = b.nativeNonce

structure Valid (ledger : Ledger) : Prop where
  owners : forall owner, owner ∈ ledger.owners -> validateOwner owner = .ok ()
  ownerKeys : (ledger.owners.map Owner.key).Nodup
  ownersLive : forall a, a ∈ ledger.owners -> forall b, b ∈ ledger.owners ->
    a.key ≠ b.key -> a.id = b.id -> a.phase = .retired ∨ b.phase = .retired
  origins : forall a, a ∈ ledger.owners -> forall b, b ∈ ledger.owners ->
    a.key ≠ b.key -> ¬SameOrigin a b
  ownersFit : ledger.owners.length <= maximumOwners
  attachments : forall row, row ∈ ledger.attachments -> validateAttachment row = .ok ()
  references : (ledger.attachments.map Attachment.reference).Nodup
  owned : forall row, row ∈ ledger.attachments -> exists owner, owner ∈ ledger.owners ∧
    owner.key = row.reference.ownerKey ∧ (owner.phase = .retired -> row.phase = .retired)
  threads : forall a, a ∈ ledger.attachments -> forall b, b ∈ ledger.attachments ->
    a.reference.ownerKey = b.reference.ownerKey ->
    a.reference.threadInstanceGeneration = b.reference.threadInstanceGeneration ->
    a.threadId = b.threadId
  attachmentsLive : forall a, a ∈ ledger.attachments -> forall b, b ∈ ledger.attachments ->
    a.reference ≠ b.reference -> a.reference.ownerKey = b.reference.ownerKey ->
    a.threadId = b.threadId -> a.phase = .retired ∨ b.phase = .retired
  recordsFit : ledger.attachments.length + ledger.removals.length <= maximumAttachments
  removals : forall row, row ∈ ledger.removals -> validateRemoval row = .ok ()
  fences : (ledger.removals.map (fun row => (row.application, row.adapterEpoch))).Nodup
  fenced : forall row, row ∈ ledger.removals -> forall owner, owner ∈ ledger.owners ->
    owner.belongs row.application row.adapterEpoch = true -> owner.phase ≠ .retired ->
    owner.removalOperation = some row.operation ∧ row.phase = .pending

variable {ledger next : Ledger} {op : Op}

theorem valid_init : Valid init := by
  constructor <;> simp [init]

section

variable (h : Valid ledger)
include h

/-- Attachments move in place. -/
theorem valid_attachments {rows : List Attachment}
    (hrows : List.Forall₂ Attachment.Advances ledger.attachments rows) :
    Valid { ledger with attachments := rows } := by
  have hreferences : rows.map Attachment.reference =
      ledger.attachments.map Attachment.reference :=
    map_eq_of_forall₂ (fun _ _ hadv => hadv.reference) hrows
  have hlength : ledger.attachments.length = rows.length := hrows.length_eq
  refine { h with
    attachments := ?_, references := ?_, owned := ?_, threads := ?_,
    attachmentsLive := ?_, recordsFit := ?_ }
  · exact forall_mem_of_forall₂ (fun _ _ hadv => hadv.valid) hrows h.attachments
  · rw [hreferences]
    exact h.references
  · intro _ hrow
    rcases exists_of_forall₂ hrows hrow with ⟨old, hold, hadv⟩
    rcases h.owned old hold with ⟨owner, howner, hkey, hret⟩
    refine ⟨owner, howner, ?_, ?_⟩
    · rw [hadv.reference]
      exact hkey
    · intro hphase
      have hsettled := hret hphase
      rw [hadv.settled hsettled]
      exact hsettled
  · intro a ha b hb howner hinst
    rcases exists_of_forall₂ hrows ha with ⟨a', ha', hadvA⟩
    rcases exists_of_forall₂ hrows hb with ⟨b', hb', hadvB⟩
    rw [hadvA.reference, hadvB.reference] at howner hinst
    rw [hadvA.thread, hadvB.thread]
    exact h.threads a' ha' b' hb' howner hinst
  · intro a ha b hb hne howner hthread
    rcases exists_of_forall₂ hrows ha with ⟨a', ha', hadvA⟩
    rcases exists_of_forall₂ hrows hb with ⟨b', hb', hadvB⟩
    rw [hadvA.reference, hadvB.reference] at hne howner
    rw [hadvA.thread, hadvB.thread] at hthread
    rcases h.attachmentsLive a' ha' b' hb' hne howner hthread with hret | hret
    · exact Or.inl (by rw [hadvA.settled hret]; exact hret)
    · exact Or.inr (by rw [hadvB.settled hret]; exact hret)
  · rw [<- hlength]
    exact h.recordsFit

/-- Owners move in place; one that becomes retired has no live attachment, and the fences
still agree with the owners. -/
theorem valid_owners {owners : List Owner}
    (howners : List.Forall₂ Owner.Advances ledger.owners owners)
    (hret : forall owner, owner ∈ owners -> owner.phase = .retired -> forall row, row ∈
      ledger.attachments -> row.reference.ownerKey = owner.key -> row.phase = .retired)
    (hfenced : forall row, row ∈ ledger.removals -> forall owner, owner ∈ owners ->
      owner.belongs row.application row.adapterEpoch = true -> owner.phase ≠ .retired ->
      owner.removalOperation = some row.operation ∧ row.phase = .pending) :
    Valid { ledger with owners } := by
  have hkeys : owners.map Owner.key = ledger.owners.map Owner.key :=
    map_eq_of_forall₂ (fun _ _ hadv => Owner.key_of_advances hadv) howners
  have hlength : ledger.owners.length = owners.length := howners.length_eq
  refine { h with
    owners := ?_, ownerKeys := ?_, ownersLive := ?_, origins := ?_, ownersFit := ?_,
    owned := ?_, fenced := hfenced }
  · exact forall_mem_of_forall₂ (fun _ _ hadv => hadv.valid) howners h.owners
  · rw [hkeys]
    exact h.ownerKeys
  · intro a ha b hb hne hid
    rcases exists_of_forall₂ howners ha with ⟨a', ha', hadvA⟩
    rcases exists_of_forall₂ howners hb with ⟨b', hb', hadvB⟩
    rw [Owner.key_of_advances hadvA, Owner.key_of_advances hadvB] at hne
    have hid' : a'.id = b'.id := by
      rw [hadvA.frame, hadvB.frame] at hid
      exact hid
    rcases h.ownersLive a' ha' b' hb' hne hid' with hphase | hphase
    · exact Or.inl (by rw [hadvA.settled hphase]; exact hphase)
    · exact Or.inr (by rw [hadvB.settled hphase]; exact hphase)
  · intro a ha b hb hne hsame
    rcases exists_of_forall₂ howners ha with ⟨a', ha', hadvA⟩
    rcases exists_of_forall₂ howners hb with ⟨b', hb', hadvB⟩
    rw [Owner.key_of_advances hadvA, Owner.key_of_advances hadvB] at hne
    rw [hadvA.frame, hadvB.frame] at hsame
    exact h.origins a' ha' b' hb' hne hsame
  · rw [<- hlength]
    exact h.ownersFit
  · intro row hrow
    rcases h.owned row hrow with ⟨_, hold, hkey, _⟩
    rcases exists_of_evolves (evolves_of_forall₂ howners) hold with ⟨owner, howner, hadv⟩
    refine ⟨owner, howner, ?_, ?_⟩
    · rw [Owner.key_of_advances hadv]
      exact hkey
    · intro hphase
      apply hret owner howner hphase row hrow
      rw [Owner.key_of_advances hadv]
      exact hkey.symm

theorem settled_of_valid {owner : Owner} (howner : owner ∈ ledger.owners)
    (hphase : owner.phase = .retired) {row : Attachment} (hrow : row ∈ ledger.attachments)
    (hkey : row.reference.ownerKey = owner.key) : row.phase = .retired := by
  rcases h.owned row hrow with ⟨found, hfound, hfoundKey, hret⟩
  have hsame : found = owner :=
    inj_on_of_nodup_map h.ownerKeys hfound howner (hfoundKey.trans hkey)
  exact hret (by rw [hsame]; exact hphase)

theorem valid_closing {i : Nat} {owner : Owner} {operation : OperationId}
    (howner : ledger.owners[i]? = some owner) (hvalid : validateOperation operation = .ok ())
    (hnone : owner.removalOperation = none) :
    Valid { ledger with owners := ledger.owners.set i (owner.close operation) } := by
  have hmem := mem_of_getElem? howner
  have hopen : owner.phase = .opened :=
    (Owner.removal_of_valid (h.owners owner hmem)).mpr hnone
  have hlive : owner.phase ≠ .retired := by
    rw [hopen]
    decide
  apply valid_owners h
  · exact forall₂_set Owner.advances_refl howner (Owner.advances_close hvalid hlive (.inl hnone))
  · exact forall_mem_set (fun _ hold hphase _ => settled_of_valid h hold hphase) nofun
  · intro fence hfence
    apply forall_mem_set (h.fenced fence hfence)
    -- A fence would have closed the owner already.
    intro hbel _
    have hclosed := (h.fenced fence hfence owner hmem hbel hlive).left
    rw [hnone] at hclosed
    cases hclosed

theorem valid_retired {i : Nat} {owner : Owner}
    (howner : ledger.owners[i]? = some owner) (hclosing : owner.removalOperation.isSome = true)
    (hrows : forall row, row ∈ ledger.attachments ->
      row.reference.ownerKey = owner.key -> row.phase = .retired) :
    Valid { ledger with owners := ledger.owners.set i owner.retire } := by
  apply valid_owners h
  · exact forall₂_set Owner.advances_refl howner (Owner.advances_retire hclosing)
  · exact forall_mem_set (fun _ hold hphase _ => settled_of_valid h hold hphase) (fun _ => hrows)
  · intro fence hfence
    exact forall_mem_set (h.fenced fence hfence) (fun _ hphase => absurd rfl hphase)

end

variable {fence : Removal}

theorem advances_closeOwner {owner : Owner} (hvalid : validateRemoval fence = .ok ())
    (hagree : owner.belongs fence.application fence.adapterEpoch = true -> owner.phase ≠ .retired ->
      owner.removalOperation = none ∨ owner.removalOperation = some fence.operation) :
    Owner.Advances owner
      (closeOwner fence.application fence.adapterEpoch fence.operation owner) := by
  simp only [validateRemoval, ok_iff] at hvalid
  rcases hvalid with ⟨_, _, _, _, hop⟩
  unfold closeOwner
  split
  · rename_i hcond
    simp only [bool_iff] at hcond
    exact Owner.advances_close hop hcond.right (hagree hcond.left hcond.right)
  · exact Owner.advances_refl owner

theorem valid_fenced (h : Valid ledger) (hnew : RemovalAdmitted ledger fence) :
    Valid { ledger with
      removals := ledger.removals ++ [fence]
      owners := ledger.owners.map
        (closeOwner fence.application fence.adapterEpoch fence.operation) } := by
  have hadvances : List.Forall₂ Owner.Advances ledger.owners (ledger.owners.map
      (closeOwner fence.application fence.adapterEpoch fence.operation)) :=
    forall₂_map (fun owner howner => advances_closeOwner hnew.valid (hnew.agree owner howner))
  have hclosed : Valid { ledger with
      owners := ledger.owners.map
        (closeOwner fence.application fence.adapterEpoch fence.operation) } := by
    apply valid_owners h hadvances
    · intro owner howner hret row hrow hkey
      rcases mem_map.mp howner with ⟨old, hold, heq⟩
      unfold closeOwner at heq
      split at heq
      · rw [<- heq] at hret
        cases hret
      · rw [<- heq] at hret hkey
        exact settled_of_valid h hold hret hrow hkey
    · intro row hrow owner howner hbel hlive
      rcases exists_of_forall₂ hadvances howner with ⟨old, hold, hadv⟩
      rw [Owner.belongs_of_advances hadv] at hbel
      have hold' : old.phase ≠ .retired := by
        intro hret
        rw [hadv.settled hret] at hlive
        exact hlive hret
      rcases h.fenced row hrow old hold hbel hold' with ⟨hop, hpend⟩
      exact ⟨hadv.operation _ hop, hpend⟩
  refine { hclosed with recordsFit := ?_, removals := ?_, fences := ?_, fenced := ?_ }
  · rw [length_append]
    exact hnew.room
  · exact forall_mem_concat h.removals hnew.valid
  · apply nodup_map_concat h.fences
    intro row hrow heq
    rw [Prod.mk.injEq] at heq
    exact applicationRemoval_eq_none.mp hnew.fresh row hrow ⟨heq.right, heq.left⟩
  · apply forall_mem_concat hclosed.fenced
    intro owner howner hbel hlive
    refine ⟨?_, hnew.phase⟩
    rcases mem_map.mp howner with ⟨old, _, heq⟩
    unfold closeOwner at heq
    split at heq
    · rw [<- heq]
      rfl
    · rename_i hcond
      rw [<- heq] at hbel hlive
      simp [hbel, hlive] at hcond

theorem valid_ended {i : Nat} (h : Valid ledger)
    (hfence : ledger.removals[i]? = some fence) (hret : forall owner, owner ∈ ledger.owners ->
      owner.belongs fence.application fence.adapterEpoch = true -> owner.phase = .retired) :
    Valid { ledger with removals := ledger.removals.set i fence.retire } := by
  have hmem := mem_of_getElem? hfence
  refine { h with recordsFit := ?_, removals := ?_, fences := ?_, fenced := ?_ }
  · rw [length_set]
    exact h.recordsFit
  · exact forall_mem_set h.removals (h.removals fence hmem)
  · have hsame : (fun row : Removal => (row.application, row.adapterEpoch)) fence.retire =
        (fun row : Removal => (row.application, row.adapterEpoch)) fence := rfl
    rw [map_set_of_eq hfence hsame]
    exact h.fences
  · apply forall_mem_set h.fenced
    intro owner howner hbel hlive
    exact absurd (hret owner howner hbel) hlive

/-!
## Admission
-/

theorem valid_admitOwner {input : Owner} (h : Valid ledger) (hinput : OwnerAdmitted ledger input) :
    Valid { ledger with owners := ledger.owners ++ [input] } := by
  refine { h with
    owners := ?_, ownerKeys := ?_, ownersLive := ?_, origins := ?_, ownersFit := ?_,
    owned := ?_, fenced := ?_ }
  · exact forall_mem_concat h.owners hinput.valid
  · exact nodup_map_concat h.ownerKeys hinput.fresh
  · refine forall_mem_concat (fun a ha => forall_mem_concat (h.ownersLive a ha) ?_)
      (forall_mem_concat ?_ (fun hne => absurd rfl hne))
    · exact fun _ hid => Or.inl (hinput.live a ha hid)
    · exact fun b hb _ hid => Or.inr (hinput.live b hb hid.symm)
  · have hnew : forall owner, owner ∈ ledger.owners -> ¬SameOrigin owner input := by
      intro owner howner hsame
      rcases hsame with ⟨hepoch, hgen, happ, hwitness, hnonce⟩
      have hlt := hinput.newer owner howner hepoch happ hwitness hnonce
      rw [hgen] at hlt
      exact Nat.lt_irrefl _ hlt
    refine forall_mem_concat (fun a ha => forall_mem_concat (h.origins a ha) ?_)
      (forall_mem_concat ?_ (fun hne => absurd rfl hne))
    · exact fun _ hsame => hnew a ha hsame
    · intro b hb _ hsame
      rcases hsame with ⟨h1, h2, h3, h4, h5⟩
      exact hnew b hb ⟨h1.symm, h2.symm, h3.symm, h4.symm, h5.symm⟩
  · rw [length_append]
    exact hinput.room
  · intro row hrow
    rcases h.owned row hrow with ⟨owner, howner, hfound⟩
    exact ⟨owner, mem_append_left _ howner, hfound⟩
  · intro row hrow
    apply forall_mem_concat (h.fenced row hrow)
    intro hbel
    simp only [Owner.belongs, bool_iff] at hbel
    exact absurd ⟨hbel.left.symm, hbel.right.symm⟩
      (applicationRemoval_eq_none.mp hinput.unfenced row hrow)

theorem valid_admitAttachment {input : Attachment} (h : Valid ledger)
    (hinput : AttachmentAdmitted ledger input) :
    Valid { ledger with attachments := ledger.attachments ++ [input] } := by
  refine { h with
    attachments := ?_, references := ?_, owned := ?_, threads := ?_,
    attachmentsLive := ?_, recordsFit := ?_ }
  · exact forall_mem_concat h.attachments hinput.valid
  · exact nodup_map_concat h.references hinput.fresh
  · apply forall_mem_concat h.owned
    rcases hinput.owned with ⟨owner, hlookup, hopen, _⟩
    rcases recordAt_eq_some hlookup with ⟨howner, hkey⟩
    refine ⟨owner, howner, hkey, ?_⟩
    rw [hopen]
    nofun
  · refine forall_mem_concat (fun a ha => forall_mem_concat (h.threads a ha) ?_)
      (forall_mem_concat ?_ (fun _ _ => rfl))
    · exact fun howner hinst => (hinput.instances a ha howner hinst).left
    · exact fun b hb howner hinst =>
        (hinput.instances b hb howner.symm hinst.symm).left.symm
  · refine forall_mem_concat (fun a ha => forall_mem_concat (h.attachmentsLive a ha) ?_)
      (forall_mem_concat ?_ (fun hne => absurd rfl hne))
    · exact fun _ howner hthread => Or.inl (hinput.live a ha howner hthread)
    · exact fun b hb _ howner hthread => Or.inr (hinput.live b hb howner.symm hthread.symm)
  · rw [length_append, Nat.add_right_comm]
    exact hinput.room

/-!
## Every step
-/

theorem valid_changes (h : Valid ledger) (hchanges : Changes ledger op next) : Valid next := by
  cases hchanges with
  | same => exact h
  | owner input hinput => exact valid_admitOwner h hinput
  | attachment input _ hinput => exact valid_admitAttachment h hinput
  | moved hrow hmoves =>
    exact valid_attachments h (forall₂_set advances_refl hrow (advances_moves hmoves))
  | recovered =>
    exact valid_attachments h (forall₂_map (fun row _ =>
      advances_moves (@Attachment.Moves.unresolved op row)))
  | closing howner hvalid hnone => exact valid_closing h howner hvalid hnone
  | fenced hnew => exact valid_fenced h hnew
  | ended hfence hret => exact valid_ended h hfence hret
  | retired howner hclosing hrows => exact valid_retired h howner hclosing hrows

theorem valid_run (ops : List Op) : Valid (run step init ops) :=
  run_invariant (fun ledger op h => valid_changes h (step_changes ledger op)) valid_init ops

/-- A thread of an owner has at most one attachment that is not retired, and its owner is not
retired either. -/
theorem one_live_attachment (ops : List Op) :
    let ledger := run step init ops
    (forall a b, a ∈ ledger.attachments -> b ∈ ledger.attachments ->
      a.reference.ownerKey = b.reference.ownerKey -> a.threadId = b.threadId ->
      a.phase ≠ .retired -> b.phase ≠ .retired -> a = b) ∧
    forall row, row ∈ ledger.attachments -> row.phase ≠ .retired -> exists owner,
      owner ∈ ledger.owners ∧ owner.key = row.reference.ownerKey ∧ owner.phase ≠ .retired := by
  have h := valid_run ops
  constructor
  · intro a b ha hb howner hthread hlive hlive'
    by_cases hsame : a.reference = b.reference
    · exact inj_on_of_nodup_map h.references ha hb hsame
    · rcases h.attachmentsLive a ha b hb hsame howner hthread with hret | hret
      · exact absurd hret hlive
      · exact absurd hret hlive'
  · intro row hrow hlive
    rcases h.owned row hrow with ⟨owner, howner, hkey, hret⟩
    exact ⟨owner, howner, hkey, fun hphase => hlive (hret hphase)⟩

end Ledger

end Omux.Native
