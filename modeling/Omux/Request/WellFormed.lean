import Omux.Request.Invariant

/-!
# Well-formed request ledgers

Keys, lease handles and issue sequences are unique over the whole ledger, every
alternate follows a safe rejection, and the reserved bytes are the sum over the
records.
-/

namespace Omux.Request

open Library List

def intentBytes (intent : Intent) : Nat :=
  match intentReservation intent with
  | .ok bytes => bytes
  | .error _ => 0

def attemptBytes (attempt : Attempt) : Nat :=
  attemptOverhead + stringReservation attempt.accountId

def Record.reservation (item : Record) : Nat :=
  intentBytes item.intent + (item.attempts.map attemptBytes).sum

open Record (attempts key reservation handles)

structure AttemptOk (attempt : Attempt) : Prop where
  handle : attempt.leaseHandle.length = 64 ∧ attempt.leaseHandle.all isHex = true
  account : attempt.accountId ≠ [] ∧ attempt.accountId.length <= 4096
  sequence : attempt.issuedSequence ≠ 0
  valid : validateAttempt attempt = .ok ()

structure AlternateOk (first alternate : Attempt) : Prop where
  attempt : AttemptOk alternate
  rejected : first.state = .rejected
  account : first.accountId ≠ alternate.accountId
  later : first.issuedSequence < alternate.issuedSequence

structure RecordOk (item : Record) : Prop where
  intent : validateIntent item.intent = .ok ()
  reserves : intentReservation item.intent = .ok (intentBytes item.intent)
  first : AttemptOk item.first
  alternate : forall attempt, item.alternate = some attempt ->
    AlternateOk item.first attempt

structure Valid (l : Ledger) : Prop where
  capacity : l.capacity <= maximumCapacity
  bounded : l.records.length <= l.capacity
  keys : (l.records.map key).Nodup
  handles : (l.records.flatMap handles).Nodup
  sequences : (l.records.flatMap Record.sequences).Nodup
  latest : forall n, n ∈ l.records.flatMap Record.sequences -> n <= l.lastSequence
  reached : l.lastSequence = 0 ∨
    l.lastSequence ∈ l.records.flatMap Record.sequences
  each : forall item, item ∈ l.records -> RecordOk item
  reserved : l.reservedSnapshotBytes = snapshotOverhead + (l.records.map reservation).sum
  fits : l.reservedSnapshotBytes <= maximumSnapshotBytes

theorem valid_init (capacity : Nat) : Valid (Ledger.init capacity) where
  capacity := Nat.min_le_right _ _
  bounded := Nat.zero_le _
  keys := by simp [Ledger.init]
  handles := by simp [Ledger.init]
  sequences := by simp [Ledger.init]
  latest := by simp [Ledger.init]
  reached := .inl rfl
  each := by simp [Ledger.init]
  reserved := by simp [Ledger.init]
  fits := by simp [Ledger.init, snapshotOverhead, maximumSnapshotBytes]

/-!
## Advances
-/

theorem attemptOk_of_advances {old new : Attempt} (h : Advances old new)
    (hok : AttemptOk old) : AttemptOk new := by
  refine ⟨?_, ?_, ?_, h.valid hok.valid⟩
  · rw [h.handle]
    exact hok.handle
  · rw [h.account]
    exact hok.account
  · rw [h.sequence]
    exact hok.sequence

theorem recordOk_of_advances {old new : Record} (h : RecordAdvances old new)
    (hok : RecordOk old) : RecordOk new := by
  refine ⟨?_, ?_, attemptOk_of_advances h.first hok.first, ?_⟩
  · rw [h.intent]
    exact hok.intent
  · rw [h.intent]
    exact hok.reserves
  · intro _ hatt
    have halt := h.alternate
    rw [hatt] at halt
    cases hold : old.alternate with
    | none => cases hold ▸ halt
    | some before =>
      rw [hold] at halt
      cases halt with
      | some hadv =>
        have hbefore := hok.alternate before hold
        have hsame := h.first.rejected hbefore.rejected
        rw [hsame]
        refine ⟨attemptOk_of_advances hadv hbefore.attempt, hbefore.rejected, ?_, ?_⟩
        · rw [hadv.account]
          exact hbefore.account
        · rw [hadv.sequence]
          exact hbefore.later

theorem reservation_of_advances {old new : Record} (h : RecordAdvances old new) :
    new.reservation = old.reservation := by
  have hbytes : new.attempts.map attemptBytes = old.attempts.map attemptBytes := by
    apply map_attempts_of_advances ?_ h
    intro a b hab
    rw [attemptBytes, attemptBytes, hab.account]
  rw [reservation, reservation, h.intent, hbytes]

theorem flatMap_eq_of_map_eq {α β : Type} {f : α -> List β} {old new : List α}
    (h : new.map f = old.map f) : new.flatMap f = old.flatMap f := by
  rw [flatMap_def, flatMap_def, h]

theorem valid_of_advances {l : Ledger} {records : List Record} (hl : Valid l)
    (h : List.Forall₂ RecordAdvances l.records records) : Valid { l with records } := by
  have hkeys : records.map key = l.records.map key := by
    apply map_eq_of_forall₂ ?_ h
    intro a b hab
    rw [key, key, hab.intent]
  have hhandles := flatMap_eq_of_map_eq
    (map_eq_of_forall₂ (fun _ _ hab => handles_of_advances hab) h)
  have hsequences := flatMap_eq_of_map_eq
    (map_eq_of_forall₂ (fun _ _ hab => sequences_of_advances hab) h)
  have hresv := map_eq_of_forall₂ (fun _ _ hab => reservation_of_advances hab) h
  refine ⟨hl.capacity, ?_, ?_, ?_, ?_, ?_, ?_, ?_, ?_, hl.fits⟩
  · rw [<- h.length_eq]
    exact hl.bounded
  · rw [hkeys]
    exact hl.keys
  · rw [hhandles]
    exact hl.handles
  · rw [hsequences]
    exact hl.sequences
  · rw [hsequences]
    exact hl.latest
  · rw [hsequences]
    exact hl.reached
  · exact forall_mem_of_forall₂ (fun _ _ hab hok => recordOk_of_advances hab hok) h hl.each
  · rw [hresv]
    exact hl.reserved

namespace Ledger

variable {l next : Ledger}

/-!
## Issues
-/

variable {intent : Intent} {leaseHandle accountId : Bytes} {expiresAt : Int}

theorem attemptOk_issued (h : IssueChecks l intent leaseHandle accountId) (expiresAt : Int) :
    AttemptOk (l.issuedAttempt leaseHandle accountId expiresAt) :=
  ⟨h.handle, h.account, Nat.succ_ne_zero _, rfl⟩

theorem next_sequence_fresh (hl : Valid l) :
    l.lastSequence + 1 ∉ l.records.flatMap Record.sequences := by
  intro hmem
  have hle := hl.latest _ hmem
  omega

theorem reserve_fits {additional : Nat} (hl : Valid l)
    (h : additional <= l.remainingSnapshotBytes) :
    l.reservedSnapshotBytes + additional <= maximumSnapshotBytes := by
  have hfits := hl.fits
  unfold remainingSnapshotBytes at h
  omega

theorem valid_issuesFirst (hl : Valid l) (hchecks : IssueChecks l intent leaseHandle accountId)
    (h : IssuesFirst l intent leaseHandle accountId expiresAt next) : Valid next := by
  rcases h.reserves with ⟨bytes, hbytes, hfits, rfl⟩
  have hintentBytes : intentBytes intent = bytes := by rw [intentBytes, hbytes]
  have hok : RecordOk
      { intent := intent
        first := l.issuedAttempt leaseHandle accountId expiresAt } := by
    refine ⟨hchecks.intent, by rw [hintentBytes]; exact hbytes,
      attemptOk_issued hchecks expiresAt, ?_⟩
    nofun
  refine ⟨hl.capacity, ?_, ?_, ?_, ?_, ?_, ?_, ?_, ?_, reserve_fits hl hfits⟩
  · exact length_concat_le h.room
  · exact nodup_map_concat hl.keys (recordAt_eq_none.mp h.unknown)
  · apply nodup_flatMap_concat hl.handles (by simp [handles, attempts])
    intro handle hhandle
    have hsame : handle = leaseHandle := by simpa [handles, attempts, issuedAttempt] using hhandle
    rw [hsame]
    exact hchecks.fresh
  · apply nodup_flatMap_concat hl.sequences (by simp [Record.sequences, attempts])
    intro n hn
    have hsame : n = l.lastSequence + 1 := by
      simpa [Record.sequences, attempts, issuedAttempt] using hn
    rw [hsame]
    exact next_sequence_fresh hl
  · intro n hn
    rw [flatMap_append, mem_append] at hn
    rcases hn with hold | hnew
    · exact Nat.le_succ_of_le (hl.latest n hold)
    · have hsame : n = l.lastSequence + 1 := by
        simpa [Record.sequences, attempts, issuedAttempt] using hnew
      exact Nat.le_of_eq hsame
  · simp [Record.sequences, attempts, issuedAttempt]
  · exact forall_mem_concat hl.each hok
  · rw [hl.reserved]
    simp [reservation, attempts, attemptBytes, issuedAttempt]
    omega

theorem valid_issuesAlternate {i : Nat} {held : Record} (hl : Valid l)
    (hchecks : IssueChecks l intent leaseHandle accountId)
    (h : IssuesAlternate l intent leaseHandle accountId expiresAt next i held) : Valid next := by
  rcases firstEntry_split h.entry with ⟨before, after, hsplit, hlen, _, _⟩
  rcases recordEntry_eq_some h.entry with ⟨hget, _⟩
  have hheld := hl.each held (recordEntry_mem h.entry)
  have hlater : held.first.issuedSequence < l.lastSequence + 1 := by
    apply Nat.lt_succ_of_le
    apply hl.latest
    apply mem_flatMap.mpr
    exact ⟨held, recordEntry_mem h.entry, by simp [Record.sequences, attempts]⟩
  obtain ⟨item, hitem⟩ : exists item : Record, item = { held with
    alternate := some (l.issuedAttempt leaseHandle accountId expiresAt) } := ⟨_, rfl⟩
  have hok : RecordOk item := by
    rw [hitem]
    refine { hheld with alternate := ?_ }
    intro _ hatt
    cases hatt
    exact ⟨attemptOk_issued hchecks expiresAt, h.rejected, h.account, hlater⟩
  have hsequences : item.sequences = held.sequences ++ [l.lastSequence + 1] := by
    simp [hitem, Record.sequences, attempts, h.unused, issuedAttempt]
  have hset : l.records.set i item = before ++ item :: after := by
    rw [hsplit, <- hlen, set_at_split]
  rw [h.result, <- hitem]
  refine ⟨hl.capacity, ?_, ?_, ?_, ?_, ?_, ?_, ?_, ?_, reserve_fits hl h.fits⟩
  · rw [length_set]
    exact hl.bounded
  · rw [map_set_of_eq hget (by rw [hitem, key, key])]
    exact hl.keys
  · rw [hset]
    have hhandles := hl.handles
    have hfresh := hchecks.fresh
    rw [hsplit] at hhandles hfresh
    apply nodup_flatMap_insert hhandles ?_ hfresh
    simp [hitem, handles, attempts, h.unused, issuedAttempt]
  · rw [hset]
    have hold := hl.sequences
    have hfresh := next_sequence_fresh hl
    rw [hsplit] at hold hfresh
    exact nodup_flatMap_insert hold hsequences hfresh
  · rw [hset]
    have hlatest := hl.latest
    rw [hsplit] at hlatest
    intro n hn
    simp only [flatMap_append, flatMap_cons, hsequences, mem_append, mem_singleton] at hn hlatest
    rcases hn with hbefore | hmiddle | hafter
    · exact Nat.le_succ_of_le (hlatest n (.inl hbefore))
    · rcases hmiddle with hheldSequence | hnew
      · exact Nat.le_succ_of_le (hlatest n (.inr (.inl hheldSequence)))
      · exact Nat.le_of_eq hnew
    · exact Nat.le_succ_of_le (hlatest n (.inr (.inr hafter)))
  · apply Or.inr
    rw [hset]
    simp only [flatMap_append, flatMap_cons, hsequences, mem_append, mem_singleton]
    exact Or.inr (.inl (.inr trivial))
  · exact forall_mem_set hl.each hok
  · have hresv := hl.reserved
    rw [hsplit] at hresv
    rw [hset]
    simp only [map_append, sum_append] at hresv ⊢
    simp only [hitem, reservation, attempts, h.unused, Option.toList_none,
      Option.toList_some, map_cons, sum_cons] at hresv ⊢
    simp only [attemptBytes, issuedAttempt] at hresv ⊢
    omega

theorem valid_issue {number : Nat} (hl : Valid l)
    (h : l.issue intent leaseHandle accountId expiresAt = .ok (next, number)) : Valid next := by
  rcases issue_inv h with ⟨hchecks, hfirst | halt⟩
  · exact valid_issuesFirst hl hchecks hfirst.right
  · rcases halt with ⟨_, i, _, halt⟩
    exact valid_issuesAlternate hl hchecks halt

end Ledger

end Omux.Request
