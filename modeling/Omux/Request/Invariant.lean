import Omux.Library.Archive
import Omux.Request.Ledger

/-!
# The invariant of the request ledger

A report or a restart only advances attempts; an issue adds one attempt.  What
each of the two can do is said once, and the invariant follows from that.
-/

namespace Omux.Request

open Library

/-!
## Advancing attempts
-/

def Status.isSpent : Status -> Bool
  | .accepted | .completed | .abandoned | .unknown => true
  | .issued | .rejected => false

/-- The later value of an attempt that was reported on or recovered. -/
structure Advances (old new : Attempt) : Prop where
  handle : new.leaseHandle = old.leaseHandle
  account : new.accountId = old.accountId
  expiry : new.expiresAt = old.expiresAt
  sequence : new.issuedSequence = old.issuedSequence
  valid : validateAttempt old = .ok () -> validateAttempt new = .ok ()
  rejected : old.state = .rejected -> new = old
  spent : old.state.isSpent = true -> new.state.isSpent = true
  held : forall event report, heldReport old event = some report ->
    heldReport new event = some report

theorem advances_refl (attempt : Attempt) : Advances attempt attempt :=
  ⟨rfl, rfl, rfl, rfl, fun h => h, fun _ => rfl, fun h => h, fun _ _ h => h⟩

theorem advances_trans {a b c : Attempt} (hab : Advances a b)
    (hbc : Advances b c) : Advances a c := by
  refine ⟨by rw [hbc.handle, hab.handle], by rw [hbc.account, hab.account],
    by rw [hbc.expiry, hab.expiry], by rw [hbc.sequence, hab.sequence],
    fun h => hbc.valid (hab.valid h), ?_, fun h => hbc.spent (hab.spent h),
    fun event report h => hbc.held event report (hab.held event report h)⟩
  intro hstate
  have hb := hab.rejected hstate
  rw [hb] at hbc
  rw [hbc.rejected hstate]

theorem validateAttempt_eq_ok {value : Attempt} : validateAttempt value = .ok () ↔
      value.acceptedReport.any (fun report => report.event != .accepted) = false ∧
        value.terminalReport.any (fun report => report.event == .accepted ||
          (report.event == .rejected && !safeRejection report)) = false ∧
        reportsMatchState value = true := by
  simp only [validateAttempt, ok_iff, bool_iff]
  constructor
  · intro h
    rcases h with ⟨_, hacc, _, hterm, hstate⟩
    exact ⟨hacc, hterm, hstate⟩
  · intro h
    rcases h with ⟨hacc, hterm, hstate⟩
    exact ⟨(), hacc, (), hterm, hstate⟩

variable {old new : Record} {evidence : Report}

theorem transition_stores {old new : Attempt} (h : transition old evidence = .ok new) :
    exists state, new = if evidence.event = .accepted then
        { old with acceptedReport := some evidence, state }
      else { old with terminalReport := some evidence, state } := by
  unfold transition at h
  split at h
  all_goals
    rename_i hevent
    simp only [ok_iff] at h
    rcases h with ⟨_, _, hnew⟩
    exact ⟨new.state, by rw [<- hnew, hevent]; rfl⟩

theorem transition_advances {old new : Attempt} (hnone : heldReport old evidence.event = none)
    (h : transition old evidence = .ok new) : Advances old new := by
  have hheld : forall event report, heldReport old event = some report ->
      heldReport new event = some report := by
    rcases transition_stores h with ⟨_, hnew⟩
    intro event report _
    cases event <;> cases hevent : evidence.event <;> simp_all [heldReport]
  unfold transition at h
  cases hevent : evidence.event with
  | accepted =>
    simp only [hevent, ok_iff, bool_iff] at h
    rcases h with ⟨_, hstate, hnew⟩
    rw [<- hnew] at hheld ⊢
    refine ⟨rfl, rfl, rfl, rfl, ?_, by simp [hstate], by simp [Status.isSpent], hheld⟩
    rw [validateAttempt_eq_ok, validateAttempt_eq_ok]
    simp only [reportsMatchState, hstate, bool_iff, Option.isNone_iff_eq_none]
    intro hvalid
    simp [hevent, hvalid.right.right.right]
  | completed =>
    simp only [hevent, ok_iff] at h
    rcases h with ⟨_, hstate, hnew⟩
    rw [<- hnew] at hheld ⊢
    have hcases : old.state = .accepted ∨
        (old.state = .unknown ∧ old.acceptedReport.isSome = true) := by
      cases hold : old.state <;> simp_all
    refine ⟨rfl, rfl, rfl, rfl, ?_, ?_, by simp [Status.isSpent], hheld⟩
    · rw [validateAttempt_eq_ok, validateAttempt_eq_ok]
      intro hvalid
      refine ⟨hvalid.left, by simp [hevent], ?_⟩
      rcases hcases with hacc | hunknown
      · have hmatch := hvalid.right.right
        simp only [reportsMatchState, hacc, bool_iff] at hmatch
        simp [reportsMatchState, hmatch.left, hevent]
      · simp [reportsMatchState, hunknown.right, hevent]
    · intro hrej
      simp [hrej] at hcases
  | abandoned =>
    simp only [hevent, ok_iff] at h
    rcases h with ⟨_, hstate, hnew⟩
    rw [<- hnew] at hheld ⊢
    refine ⟨rfl, rfl, rfl, rfl, ?_, ?_, by simp [Status.isSpent], hheld⟩
    · rw [validateAttempt_eq_ok, validateAttempt_eq_ok]
      intro hvalid
      exact ⟨hvalid.left, by simp [hevent], by simp [reportsMatchState, hevent]⟩
    · intro hrej
      simp [hrej] at hstate
  | rejected =>
    simp only [hevent, ok_iff, bool_iff] at h
    rcases h with ⟨_, ⟨hstate, hsafe⟩, hnew⟩
    rw [<- hnew] at hheld ⊢
    refine ⟨rfl, rfl, rfl, rfl, ?_, by simp [hstate], by simp [hstate, Status.isSpent], hheld⟩
    rw [validateAttempt_eq_ok, validateAttempt_eq_ok]
    intro hvalid
    have hmatch := hvalid.right.right
    simp only [reportsMatchState, hstate, bool_iff] at hmatch
    exact ⟨hvalid.left, by simp [hevent, hsafe], by simp [reportsMatchState, hmatch.left, hevent]⟩

theorem applyReport_advances {old new : Attempt} {fresh : Bool}
    (h : applyReport old evidence = .ok (new, fresh)) : Advances old new := by
  unfold applyReport at h
  split at h
  · split at h
    · rw [<- (Prod.mk.inj (Except.ok.inj h)).left]
      exact advances_refl old
    · cases h
  · rename_i hnone
    simp only [ok_iff, Prod.mk.injEq] at h
    rcases h with ⟨_, hnext, rfl, _⟩
    exact transition_advances hnone hnext

theorem recoverAttempt_advances (old : Attempt) : Advances old (recoverAttempt old) := by
  unfold recoverAttempt
  split
  · rename_i hstate
    simp only [Bool.or_eq_true, bool_iff] at hstate
    refine ⟨rfl, rfl, rfl, rfl, ?_, ?_, by simp [Status.isSpent], fun _ _ h => h⟩
    · rw [validateAttempt_eq_ok, validateAttempt_eq_ok]
      intro hvalid
      refine ⟨hvalid.left, hvalid.right.left, ?_⟩
      have hmatch := hvalid.right.right
      rcases hstate with hissued | hacc
      · simp only [reportsMatchState, hissued, bool_iff] at hmatch
        exact hmatch.right
      · simp only [reportsMatchState, hacc, bool_iff] at hmatch
        exact hmatch.right
    · intro hrej
      simp [hrej] at hstate
  · exact advances_refl old

/-!
## Advancing records
-/

structure RecordAdvances (old new : Record) : Prop where
  intent : new.intent = old.intent
  first : Advances old.first new.first
  alternate : Option.Rel Advances old.alternate new.alternate

theorem option_rel_refl : forall alternate : Option Attempt,
    Option.Rel Advances alternate alternate
  | none => .none
  | some attempt => .some (advances_refl attempt)

theorem recordAdvances_refl (item : Record) : RecordAdvances item item :=
  ⟨rfl, advances_refl item.first, option_rel_refl item.alternate⟩

theorem map_attempts_of_advances {β : Type} {f : Attempt -> β}
    (hf : forall old new, Advances old new -> f new = f old) (h : RecordAdvances old new) :
    new.attempts.map f = old.attempts.map f := by
  rcases old with ⟨_, _, _⟩
  rcases new with ⟨_, _, _⟩
  have hfirst := hf _ _ h.first
  cases h.alternate with
  | none => simpa [Record.attempts] using hfirst
  | some halt => simpa [Record.attempts, hf _ _ halt] using hfirst

theorem handles_of_advances (h : RecordAdvances old new) : new.handles = old.handles :=
  map_attempts_of_advances (fun _ _ hab => hab.handle) h

theorem sequences_of_advances (h : RecordAdvances old new) : new.sequences = old.sequences :=
  map_attempts_of_advances (fun _ _ hab => hab.sequence) h

theorem recoverRecord_advances (item : Record) :
    RecordAdvances item (Ledger.recoverRecord item) := by
  refine ⟨rfl, recoverAttempt_advances item.first, ?_⟩
  unfold Ledger.recoverRecord
  cases item.alternate with
  | none => exact .none
  | some alternate => exact .some (recoverAttempt_advances alternate)

theorem reportRecord_advances {item next : Record} {leaseHandle : Bytes} {fresh : Bool}
    (h : Ledger.reportRecord item leaseHandle evidence = .ok (next, fresh)) :
    RecordAdvances item next := by
  unfold Ledger.reportRecord at h
  split at h
  · simp only [ok_iff, Prod.mk.injEq] at h
    rcases h with ⟨⟨_, _⟩, hfirst, hnext, _⟩
    rw [<- hnext]
    exact ⟨rfl, applyReport_advances hfirst, option_rel_refl _⟩
  · split at h
    · cases h
    · rename_i alternate halt
      simp only [ok_iff, Prod.mk.injEq] at h
      rcases h with ⟨⟨_, _⟩, hatt, hnext, _⟩
      rw [<- hnext]
      refine ⟨rfl, advances_refl _, ?_⟩
      rw [halt]
      exact .some (applyReport_advances hatt)

namespace Ledger

variable {l next : Ledger}

variable {leaseHandle : Bytes} {fresh : Bool}

/-- Every report, and every restart, advances the records in place. -/
theorem applyReportForHandle_inv
    (h : l.applyReportForHandle leaseHandle evidence = .ok (next, fresh)) :
    exists records, List.Forall₂ RecordAdvances l.records records ∧
      next = { l with records } := by
  simp only [applyReportForHandle, ok_iff, Prod.mk.injEq] at h
  rcases h with ⟨⟨i, _⟩, hentry, ⟨_, _⟩, hreport, hnext, _⟩
  exact ⟨_, forall₂_set recordAdvances_refl (firstEntry_eq_some hentry).left
    (reportRecord_advances hreport), hnext.symm⟩

theorem report_inv (h : l.report leaseHandle evidence = .ok (next, fresh)) :
    exists records, List.Forall₂ RecordAdvances l.records records ∧
      next = { l with records } := by
  simp only [report, ok_iff] at h
  rcases h with ⟨_, _, h⟩
  exact applyReportForHandle_inv h

theorem reportForOwner_inv {application : Bytes} {ref : Native.NativeRef}
    (h : l.reportForOwner application leaseHandle ref evidence = .ok (next, fresh)) :
    exists records, List.Forall₂ RecordAdvances l.records records ∧
      next = { l with records } := by
  simp only [reportForOwner, ok_iff] at h
  rcases h with ⟨_, _, h⟩
  exact applyReportForHandle_inv h

theorem recoverAfterRestart_inv (l : Ledger) :
    exists records, List.Forall₂ RecordAdvances l.records records ∧
      l.recoverAfterRestart = { l with records } :=
  ⟨_, forall₂_map (fun item _ => recoverRecord_advances item), rfl⟩

/-!
## Issuing
-/

def issuedAttempt (l : Ledger) (leaseHandle accountId : Bytes) (expiresAt : Int) : Attempt :=
  { leaseHandle, accountId, expiresAt,
    issuedSequence := l.lastSequence + 1 }

/-- What an issue checks of its handle and account. -/
structure IssueChecks (l : Ledger) (intent : Intent)
    (leaseHandle accountId : Bytes) : Prop where
  intent : validateIntent intent = .ok ()
  sequence : l.lastSequence ≠ maximumSequence
  handle : leaseHandle.length = 64 ∧ leaseHandle.all isHex = true
  account : accountId ≠ [] ∧ accountId.length <= 4096
  fresh : leaseHandle ∉ l.records.flatMap Record.handles

structure IssuesFirst (l : Ledger) (intent : Intent)
    (leaseHandle accountId : Bytes) (expiresAt : Int) (next : Ledger) : Prop where
  unknown : l.record intent.key = none
  room : l.records.length < l.capacity
  reserves : exists bytes, intentReservation intent = .ok bytes ∧
    attemptOverhead + stringReservation accountId + bytes <= l.remainingSnapshotBytes ∧
    next = { l with
      records := l.records ++
        [{ intent := intent
           first := l.issuedAttempt leaseHandle accountId expiresAt }]
      lastSequence := l.lastSequence + 1
      reservedSnapshotBytes := l.reservedSnapshotBytes +
        (attemptOverhead + stringReservation accountId + bytes) }

structure IssuesAlternate (l : Ledger) (intent : Intent)
    (leaseHandle accountId : Bytes) (expiresAt : Int) (next : Ledger)
    (i : Nat) (held : Record) : Prop where
  entry : recordEntry Record.key l.records intent.key = some (i, held)
  nativeRef : held.intent.nativeRef = intent.nativeRef
  binding : held.intent.bindingId = intent.bindingId
  fingerprint : held.intent.demandFingerprint = intent.demandFingerprint
  unused : held.alternate = none
  rejected : held.first.state = .rejected
  account : held.first.accountId ≠ accountId
  fits : attemptOverhead + stringReservation accountId <= l.remainingSnapshotBytes
  result : next = { l with
    records := l.records.set i { held with
      alternate := some (l.issuedAttempt leaseHandle accountId expiresAt) }
    lastSequence := l.lastSequence + 1
    reservedSnapshotBytes := l.reservedSnapshotBytes +
      (attemptOverhead + stringReservation accountId) }

theorem checkIntent_inv {intent : Intent} {number : Nat} (h : l.checkIntent intent = .ok number) :
    validateIntent intent = .ok () ∧
      ((number = 1 ∧ l.record intent.key = none ∧
          l.records.length < l.capacity) ∨
        (number = 2 ∧ exists i held,
          recordEntry Record.key l.records intent.key = some (i, held) ∧
          held.intent.nativeRef = intent.nativeRef ∧
          held.intent.bindingId = intent.bindingId ∧
          held.intent.demandFingerprint = intent.demandFingerprint ∧
          held.alternate = none ∧ held.first.state = .rejected)) := by
  simp only [checkIntent, ok_iff] at h
  rcases h with ⟨_, hvalid, h⟩
  refine ⟨hvalid, ?_⟩
  cases hentry : recordEntry Record.key l.records intent.key with
  | none =>
    have hnone : l.record intent.key = none := by
      simp [record, recordAt, hentry]
    simp only [hnone, ok_iff, bool_iff, Nat.not_le] at h
    rcases h with ⟨_, hroom, hnumber⟩
    exact Or.inl ⟨hnumber.symm, hnone, hroom⟩
  | some entry =>
    rcases entry with ⟨i, held⟩
    have hsome : l.record intent.key = some held := by
      simp [record, recordAt, hentry]
    simp only [hsome, ok_iff, bool_iff, Native.sameNativeRef_eq_true, isSome_eq_false] at h
    rcases h with ⟨_, href, _, ⟨hbind, hprint⟩, _, ⟨hunused, hrej⟩, hnumber⟩
    exact Or.inr ⟨hnumber.symm, i, held, rfl, href, hbind, hprint, hunused, hrej⟩

theorem not_usesHandle {records : List Record}
    (h : records.any (Record.usesHandle leaseHandle) = false) :
    leaseHandle ∉ records.flatMap Record.handles := by
  rw [List.any_eq_false] at h
  intro hmem
  rcases List.mem_flatMap.mp hmem with ⟨item, hitem, hhandle⟩
  apply h item hitem
  simpa [Record.usesHandle] using hhandle

theorem issue_inv {intent : Intent} {accountId : Bytes} {expiresAt : Int} {number : Nat}
    (h : l.issue intent leaseHandle accountId expiresAt = .ok (next, number)) :
    IssueChecks l intent leaseHandle accountId ∧
      ((number = 1 ∧ IssuesFirst l intent leaseHandle accountId expiresAt next) ∨
        (number = 2 ∧ exists i held,
          IssuesAlternate l intent leaseHandle accountId expiresAt next i held)) := by
  simp only [issue, checkReservation, ok_iff, bool_iff, Nat.not_lt, List.isEmpty_eq_false_iff] at h
  rcases h with ⟨_, hintent, _, hseq, _, ⟨⟨hlength, hnonempty⟩, hbounded⟩,
    _, hhex, _, ⟨additional, hadd, hfits⟩, _, hadd', _, hfresh, h⟩
  rw [hadd] at hadd'
  cases hadd'
  rcases checkIntent_inv hintent with ⟨hvalid, hcase⟩
  refine ⟨⟨hvalid, hseq, ⟨hlength, hhex⟩, ⟨hnonempty, hbounded⟩, not_usesHandle hfresh⟩, ?_⟩
  rcases hcase with hfirst | halt
  · rcases hfirst with ⟨rfl, hunknown, hroom⟩
    simp only [additionalBytes, ok_iff, BEq.rfl, if_true] at hadd
    rcases hadd with ⟨bytes, hbytes, hsum⟩
    rw [if_neg (by decide), Except.ok.injEq, Prod.mk.injEq] at h
    rw [<- hsum] at h hfits
    exact Or.inl ⟨h.right.symm, hunknown, hroom, bytes, hbytes, hfits, h.left.symm⟩
  · rcases halt with ⟨rfl, i, held, hentry, href, hbind, hprint, hunused, hrej⟩
    have hsum : additional = attemptOverhead + stringReservation accountId := by
      simpa [bind_ok] using (Except.ok.inj hadd).symm
    simp only [if_true, hentry, ok_iff, Option.some.injEq, bool_iff, Prod.mk.injEq] at h
    rcases h with ⟨_, rfl, _, hacct, hnext, hnumber⟩
    rw [hsum] at hfits hnext
    exact Or.inr ⟨hnumber.symm, i, held, hentry, href, hbind, hprint,
      hunused, hrej, hacct, hfits, hnext.symm⟩

end Ledger

end Omux.Request
