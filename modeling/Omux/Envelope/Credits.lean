import Omux.Envelope.Check

/-!
# The books of the admission ledger

The ledger keeps running totals of what its credits promise.  They are the sums over the
credits in every run, so that nothing underflows and a restore finds them again.
-/

namespace Omux.Envelope

open Library List
open Admission (Counts Credit Key Ledger countLimit maximumCredits maximumSnapshotBytes
  validateKey)

inductive CreditOp where
  | reserve (key : Key) (bytes : Nat) (counts : Counts)
  | consume (key : Key) (bytes : Nat) (counts : Counts)
  | release (key : Key)
  | markIndeterminate (key : Key)
  | recoverAfterRestart | restore

namespace CreditOp

def attempt (l : Ledger) : CreditOp -> Admission.Result Ledger
  | reserve key bytes counts => l.reserveWithCounts key bytes counts
  | consume key bytes counts => l.consumeWithCounts key bytes counts
  | release key => l.release key
  | markIndeterminate key => l.markIndeterminate key
  | recoverAfterRestart => .ok l.recoverAfterRestart
  | restore => Ledger.fromSnapshot l.snapshot

def step (l : Ledger) (op : CreditOp) : Ledger :=
  (attempt l op).toOption.getD l

end CreditOp

structure Balanced (l : Ledger) : Prop where
  keys : (l.credits.map Credit.key).Nodup
  valid : forall credit, credit ∈ l.credits -> validateKey credit.key = .ok ()
  room : l.credits.length <= maximumCredits
  bytes : l.futureBytes = bytesHeld l.credits
  counts : l.futureCounts = countsHeld l.credits
  bytesFit : l.futureBytes <= maximumSnapshotBytes
  countsFit : forall part, l.futureCounts part <= countLimit part

variable {l next : Ledger} {key : Key}

theorem distinctKeys_of_nodup {credits : List Credit} (h : (credits.map Credit.key).Nodup) :
    Ledger.distinctKeys credits = true := by
  induction credits with
  | nil => rfl
  | cons credit rest ih =>
    rw [map_cons, nodup_cons] at h
    simp only [Ledger.distinctKeys, ih h.right, Bool.and_true, Bool.not_eq_true', any_eq_false,
      beq_iff_eq]
    intro other hother heq
    exact h.left (mem_map.mpr ⟨other, hother, heq⟩)

theorem fromSnapshot_of_balanced (h : Balanced l) : Ledger.fromSnapshot l.snapshot = .ok l := by
  have htotals := (@totals_eq_ok l.snapshot _).mpr ⟨rfl, h.room, h.valid, h.bytes ▸ h.bytesFit,
    fun part => (congrFun h.counts part).ge.trans (h.countsFit part), rfl⟩
  rw [Ledger.fromSnapshot, htotals, bind_ok]
  simp only [Ledger.snapshot, distinctKeys_of_nodup h.keys, <- h.bytes, <- h.counts]
  rfl

theorem balanced_reserve {bytes : Nat} {counts : Counts} (hl : Balanced l)
    (h : l.reserveWithCounts key bytes counts = .ok next) : Balanced next := by
  simp only [Ledger.reserveWithCounts, ok_iff] at h
  rcases h with ⟨_, hkey, _, _, h⟩
  cases hfound : l.lookup key with
  | some =>
    rw [hfound] at h
    cases h
  | none =>
    simp only [hfound, ok_iff, addCounts_eq_ok, bool_iff] at h
    rcases h with ⟨_, ⟨_, _⟩, _, ⟨hfit, rfl⟩, rfl⟩
    have hheld := hl.bytes
    have hlength := hl.room
    have hlimit := hl.bytesFit
    refine ⟨nodup_map_concat hl.keys (recordAt_eq_none.mp hfound),
      forall_mem_concat hl.valid hkey, ?_, ?_, ?_, ?_, hfit⟩
    · rw [length_append, length_singleton]
      omega
    · simp [bytesHeld, hheld]
    · funext part
      simp [countsHeld, hl.counts]
    · change l.futureBytes + bytes <= maximumSnapshotBytes
      omega

/-- A credit replaced by one of the same key that promises no more. -/
theorem balanced_set {i : Nat} {old new : Credit} (hl : Balanced l)
    (hget : l.credits[i]? = some old) (hkey : new.key = old.key) (hbytes : new.bytes <= old.bytes)
    (hcounts : forall part, new.counts part <= old.counts part) :
    Balanced ⟨l.credits.set i new, l.futureBytes - (old.bytes - new.bytes),
      fun part => l.futureCounts part - (old.counts part - new.counts part)⟩ := by
  refine ⟨nodup_map_set hl.keys hget hkey, forall_mem_set hl.valid
    (hkey ▸ hl.valid old (mem_of_getElem? hget)), length_set.le.trans hl.room, ?_, ?_,
    (Nat.sub_le _ _).trans hl.bytesFit, fun part => (Nat.sub_le _ _).trans (hl.countsFit part)⟩
  · have hsum := @sum_map_set _ _ _ _ Credit.bytes new hget
    simp only [hl.bytes, bytesHeld] at hsum ⊢
    omega
  · funext part
    have hsum := @sum_map_set _ _ _ _ (fun credit => credit.counts part) new hget
    have hpart := hcounts part
    simp only [hl.counts, countsHeld] at hsum ⊢
    omega

theorem balanced_consume {bytes : Nat} {counts : Counts} (hl : Balanced l)
    (h : l.consumeWithCounts key bytes counts = .ok next) : Balanced next := by
  simp only [Ledger.consumeWithCounts, ok_iff, any_eq_false, bool_iff, not_lt] at h
  rcases h with ⟨⟨i, credit⟩, hindex, _, hbytes, _, hcounts, rfl⟩
  have hset := balanced_set hl (recordEntry_eq_some hindex).1
    (Eq.refl (credit.debit bytes counts).key) (Nat.sub_le _ _) (fun _ => Nat.sub_le _ _)
  simpa only [Credit.debit, Nat.sub_sub_self hbytes,
    Nat.sub_sub_self (hcounts _ (mem_countFields _))] using hset

theorem sum_map_eraseIdx {credits : List Credit} {i : Nat} {credit : Credit} (f : Credit -> Nat)
    (h : credits[i]? = some credit) :
    f credit + ((credits.eraseIdx i).map f).sum = (credits.map f).sum := by
  rcases List.getElem?_eq_some_iff.mp h with ⟨hlt, rfl⟩
  exact ((getElem_cons_eraseIdx_perm hlt).map f).sum_eq

theorem balanced_release (hl : Balanced l) (h : l.release key = .ok next) : Balanced next := by
  simp only [Ledger.release, ok_iff] at h
  rcases h with ⟨⟨i, credit⟩, hindex, rfl⟩
  have hget := (recordEntry_eq_some hindex).1
  refine ⟨nodup_map_eraseIdx hl.keys, fun other hother => hl.valid other
    (mem_of_mem_eraseIdx hother), (length_eraseIdx_le _ _).trans hl.room, ?_, ?_,
    (Nat.sub_le _ _).trans hl.bytesFit, fun part => (Nat.sub_le _ _).trans (hl.countsFit part)⟩
  · have hsum := sum_map_eraseIdx Credit.bytes hget
    simp only [hl.bytes, bytesHeld]
    omega
  · funext part
    have hsum := sum_map_eraseIdx (fun credit => credit.counts part) hget
    simp only [hl.counts, countsHeld]
    omega

theorem balanced_recover (hl : Balanced l) : Balanced l.recoverAfterRestart := by
  rcases hl with ⟨_, _, _, _, _, _, _⟩
  constructor <;>
    simp_all [Ledger.recoverAfterRestart, Credit.unsettle, Function.comp_def, bytesHeld,
      countsHeld, funext_iff]

theorem balanced_attempt {op : CreditOp} (hl : Balanced l) (h : op.attempt l = .ok next) :
    Balanced next := by
  cases op with
  | reserve => exact balanced_reserve hl h
  | consume => exact balanced_consume hl h
  | release => exact balanced_release hl h
  | markIndeterminate =>
    simp only [CreditOp.attempt, Ledger.markIndeterminate, ok_iff] at h
    rcases h with ⟨⟨i, credit⟩, hindex, rfl⟩
    have hset := balanced_set hl (recordEntry_eq_some hindex).1 (Eq.refl credit.unsettle.key)
      le_rfl (fun _ => le_rfl)
    simpa [Credit.unsettle] using hset
  | recoverAfterRestart =>
    cases h
    exact balanced_recover hl
  | restore =>
    rw [CreditOp.attempt, fromSnapshot_of_balanced hl] at h
    cases h
    exact hl

/-- The running totals are the sums over the credits, within every limit, and a restore of the
snapshot returns the same ledger. -/
theorem books_balance (ops : List CreditOp) :
    Balanced (run CreditOp.step Ledger.init ops) ∧
      Ledger.fromSnapshot (run CreditOp.step Ledger.init ops).snapshot =
        .ok (run CreditOp.step Ledger.init ops) := by
  have hrun : Balanced (run CreditOp.step Ledger.init ops) := by
    refine run_invariant ?_ ?_ ops
    · intro l op hl
      rw [CreditOp.step]
      cases h : op.attempt l with
      | error => exact hl
      | ok => exact balanced_attempt hl h
    · constructor <;> simp [Ledger.init, bytesHeld, Counts.zero, countsHeld, funext_iff]
  exact ⟨hrun, fromSnapshot_of_balanced hrun⟩

end Omux.Envelope
