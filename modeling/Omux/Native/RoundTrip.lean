import Omux.Native.WellFormed

/-!
# Restoring a native ledger

A restore checks every saved row again, against the rows restored before it.  On the
snapshot of a reachable ledger no check refuses.
-/

namespace Omux.Native

open Library List

namespace Ledger

theorem reference_ext {a b : NativeRef} (howner : a.ownerKey = b.ownerKey)
    (hinst : a.threadInstanceGeneration = b.threadInstanceGeneration)
    (hattachment : a.attachmentGeneration = b.attachmentGeneration) : a = b := by
  cases a
  simp only [NativeRef.ownerKey] at howner
  simp_all

section

variable {ledger : Ledger} (h : Valid ledger)
include h

theorem restoreOwners :
    ledger.owners.foldlM restoreOwner init = .ok { owners := ledger.owners } := by
  refine foldlM_replay_eq (fun before => ({ owners := before } : Ledger)) ?_
  intro before owner _ hsplit
  have hmem := mem_of_split hsplit
  have hfresh := key_ne_of_split hsplit h.ownerKeys
  simp only [restoreOwner, ok_iff]
  refine ⟨(), h.owners owner hmem, (), ?_, (), ?_, (), ?_, trivial⟩
  · exact isSome_eq_false.mpr (recordAt_eq_none.mpr hfresh)
  · rw [any_eq_false]
    intro old hold hbad
    simp only [bool_iff] at hbad
    rcases hbad with ⟨⟨hid, hlive⟩, hlive'⟩
    rcases h.ownersLive old (mem_of_before hsplit hold) owner hmem (hfresh old hold) hid with
      hret | hret
    · exact hlive hret
    · exact hlive' hret
  · rw [any_eq_false]
    intro old hold hbad
    simp only [sameIncarnation, sameOriginal, bool_iff] at hbad
    rcases hbad with ⟨⟨⟨⟨hepoch, hgen⟩, happ⟩, hwitness⟩, hnonce⟩
    exact h.origins old (mem_of_before hsplit hold) owner hmem (hfresh old hold)
      ⟨hepoch, hgen, happ, hwitness, hnonce⟩

theorem lookupOwnerForRef_of_valid {row : Attachment}
    (hrow : row ∈ ledger.attachments) :
    exists owner, ledger.lookupOwnerForRef row.reference = some owner ∧
      owner.adapterEpoch = row.reference.adapterEpoch ∧
      owner.endpointGeneration = row.reference.endpointGeneration ∧
      (owner.phase = .retired -> row.phase = .retired) := by
  rcases h.owned row hrow with ⟨owner, howner, hkey, hret⟩
  refine ⟨owner, recordAt_of_mem h.ownerKeys howner hkey, ?_, ?_, hret⟩
  · exact congrArg OwnerKey.adapterEpoch hkey
  · exact congrArg OwnerKey.endpointGeneration hkey

theorem restoreAttachments :
    ledger.attachments.foldlM restoreAttachment { owners := ledger.owners } =
      .ok { owners := ledger.owners, attachments := ledger.attachments } := by
  refine foldlM_replay_eq (fun before =>
    ({ owners := ledger.owners, attachments := before } : Ledger)) ?_
  intro before row _ hsplit
  have hmem := mem_of_split hsplit
  have hfresh := key_ne_of_split hsplit h.references
  rcases lookupOwnerForRef_of_valid h hmem with ⟨owner, hlookup, hepoch, hgen, hret⟩
  simp only [restoreAttachment, ownerOf, ok_iff]
  refine ⟨(), h.attachments row hmem, owner, hlookup, (), ?_, (), ?_, (), ?_, (), ?_, (),
    ?_, trivial⟩
  · rw [hepoch, hgen, bne_self_eq_false, bne_self_eq_false, Bool.false_or,
      Bool.false_or, Bool.and_eq_false_iff, bne_eq_false_iff_eq, beq_eq_false_iff_ne]
    by_cases hphase : owner.phase = .retired
    · exact Or.inr (hret hphase)
    · exact Or.inl hphase
  · exact isSome_eq_false.mpr (recordAt_eq_none.mpr hfresh)
  · rw [any_eq_false]
    intro old hold hbad
    simp only [bool_iff] at hbad
    rcases hbad with ⟨⟨⟨howner, _⟩, hinst⟩, hattachment⟩
    exact hfresh old hold (reference_ext howner hinst hattachment)
  · rw [any_eq_false]
    intro old hold hbad
    simp only [bool_iff] at hbad
    rcases hbad with ⟨⟨howner, hinst⟩, hthread⟩
    exact hthread (h.threads old (mem_of_before hsplit hold) row hmem howner hinst)
  · rw [any_eq_false]
    intro old hold hbad
    simp only [bool_iff] at hbad
    rcases hbad with ⟨⟨⟨howner, hthread⟩, hlive⟩, hlive'⟩
    rcases h.attachmentsLive old (mem_of_before hsplit hold) row hmem (hfresh old hold) howner
      hthread with hret | hret
    · exact hlive hret
    · exact hlive' hret

theorem restoreRemovals : ledger.removals.foldlM restoreRemoval
        { owners := ledger.owners, attachments := ledger.attachments } = .ok ledger := by
  refine foldlM_replay_eq (fun before =>
    { ledger with removals := before }) ?_
  intro before fence _ hsplit
  have hmem := mem_of_split hsplit
  have hfresh := key_ne_of_split hsplit h.fences
  simp only [restoreRemoval, ok_iff]
  refine ⟨(), h.removals fence hmem, (), ?_, (), checkAll_eq_ok.mpr ?_, trivial⟩
  · rw [isSome_eq_false, applicationRemoval_eq_none]
    intro row hrow hsame
    exact hfresh row hrow (Prod.ext hsame.right hsame.left)
  · intro owner howner
    unfold checkRestoredFence
    split
    · rfl
    · rename_i hcond
      simp only [Bool.or_eq_true, bool_iff, not_or, Bool.not_eq_false] at hcond
      rcases hcond with ⟨hbel, hlive⟩
      rcases h.fenced fence hmem owner howner hbel hlive with ⟨hop, hpend⟩
      have hclosed : owner.phase ≠ .opened := by
        intro hopen
        rw [(Owner.removal_of_valid (h.owners owner howner)).mp hopen] at hop
        cases hop
      simp only [ok_iff]
      refine ⟨fence.operation, hop, ?_⟩
      rw [hpend, bne_self_eq_false, beq_eq_false_iff_ne.mpr hclosed]
      rfl

theorem fromSnapshot_of_valid {bytes : Nat}
    (hfits : ledger.reservedSnapshotBytes = .ok bytes) :
    fromSnapshot ledger.snapshot = .ok ledger := by
  simp only [fromSnapshot, snapshot, ok_iff]
  refine ⟨(), ?_, _, restoreOwners h, _, restoreAttachments h, ledger, restoreRemovals h,
    bytes, hfits, rfl⟩
  have howners := h.ownersFit
  have hrecs := h.recordsFit
  rw [Bool.or_eq_false_iff, Bool.or_eq_false_iff]
  refine ⟨⟨decide_eq_false ?_, decide_eq_false ?_⟩, decide_eq_false ?_⟩
  · exact Nat.not_lt.mpr howners
  · omega
  · omega

end

/-- Whatever the operations of a run were, accepted or refused, a ledger that fits the
snapshot limit is restored with the same rows in the same order. -/
theorem native_ledger_restored (ops : List Op) (bytes : Nat)
    (hfits : (run step init ops).reservedSnapshotBytes = .ok bytes) :
    exists restored, fromSnapshot (run step init ops).snapshot = .ok restored ∧
      restored.owners = (run step init ops).owners ∧
      restored.attachments = (run step init ops).attachments ∧
      restored.removals = (run step init ops).removals :=
  ⟨_, fromSnapshot_of_valid (valid_run ops) hfits, rfl, rfl, rfl⟩

def sampleOwner : Owner where
  id := Vector.replicate 32 1
  application := ascii "codex"
  adapterEpoch := 1
  endpointGeneration := 1
  witness :=
    { profile := .linuxPidfs64V1, bootId := Vector.replicate 16 2, pidfsDevice := 0,
      pidfsInode := 3, userNamespace := { device := 0, inode := 4 },
      pidNamespace := { device := 0, inode := 5 }, uid := 0, gid := 0 }
  nativeNonce := Vector.replicate 32 6
  endpointPath := ascii "/run/owner.sock"

def sampleAttachment (instanceGeneration attachmentGeneration : Nat) (operation : UInt8) :
    Attachment where
  reference :=
    { ownerId := Vector.replicate 32 1, adapterEpoch := 1, endpointGeneration := 1,
      threadInstanceGeneration := instanceGeneration,
      attachmentGeneration }
  threadId := ascii "thread"
  registrationOperation := Vector.replicate 64 operation

/-- An attachment is registered and taken off again, then the application is removed. -/
def removedRun : List Op :=
  [.admitOwner sampleOwner, .admitAttachment (sampleAttachment 1 1 0x61), .recoverAfterRestart,
    .completeRegistration (sampleAttachment 1 1 0x61).reference (Vector.replicate 64 0x61),
    .beginApplicationRemoval (ascii "codex") 1 (Vector.replicate 64 0x62),
    .beginDetach (sampleAttachment 1 1 0x61).reference (Vector.replicate 64 0x63),
    .completeDetach (sampleAttachment 1 1 0x61).reference (Vector.replicate 64 0x63),
    .retireOwnerForOwner sampleOwner.key (Vector.replicate 64 0x62),
    .completeApplicationRemoval (ascii "codex") 1 (Vector.replicate 64 0x62)]

theorem native_ledger_restored_removedRun :
    (run step init removedRun).removals.map Removal.phase = [.retired] ∧
    exists restored, fromSnapshot (run step init removedRun).snapshot = .ok restored ∧
      restored.owners = (run step init removedRun).owners ∧
      restored.attachments = (run step init removedRun).attachments ∧
      restored.removals = (run step init removedRun).removals := by
  refine ⟨by decide +kernel, ?_⟩
  exact native_ledger_restored removedRun 1685 (by decide +kernel)

end Ledger

end Omux.Native
