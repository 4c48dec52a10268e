import Omux.Request.RoundTrip

/-!
# Native work is never replayed unsafely

Over any run a work key gets at most two attempts.  The second one follows a safe
rejection of the first, and no attempt follows work that was or may have been accepted.
-/

namespace Omux.Request

open Library List

/-!
## Records only grow
-/

/-- The later value of a record: advanced attempts, perhaps an alternate. -/
structure RecordGrows (old new : Record) : Prop where
  intent : new.intent = old.intent
  first : Advances old.first new.first
  alternate : forall attempt, old.alternate = some attempt ->
    exists later, new.alternate = some later ∧ Advances attempt later

theorem recordGrows_refl (item : Record) : RecordGrows item item :=
  ⟨rfl, advances_refl _, fun attempt h => ⟨attempt, h, advances_refl _⟩⟩

theorem recordGrows_trans {a b c : Record} (hab : RecordGrows a b)
    (hbc : RecordGrows b c) : RecordGrows a c := by
  refine ⟨by rw [hbc.intent, hab.intent], advances_trans hab.first hbc.first, ?_⟩
  intro attempt hatt
  rcases hab.alternate attempt hatt with ⟨middle, hmiddle, hfirst⟩
  rcases hbc.alternate middle hmiddle with ⟨later, hlater, hsecond⟩
  exact ⟨later, hlater, advances_trans hfirst hsecond⟩

theorem recordGrows_of_advances {old new : Record} (h : RecordAdvances old new) :
    RecordGrows old new := by
  refine ⟨h.intent, h.first, ?_⟩
  intro _ hatt
  have halt := h.alternate
  rw [hatt] at halt
  cases hnew : new.alternate with
  | none => cases hnew ▸ halt
  | some later =>
    rw [hnew] at halt
    cases halt with
    | some hadv => exact ⟨later, rfl, hadv⟩

def Record.isSpent (item : Record) : Bool :=
  item.attempts.any (fun attempt => attempt.state.isSpent)

theorem isSpent_of_grows {old new : Record} (h : RecordGrows old new)
    (hspent : old.isSpent = true) : new.isSpent = true := by
  rw [Record.isSpent, any_eq_true] at hspent ⊢
  rcases hspent with ⟨attempt, hmem, hstate⟩
  rcases mem_cons.mp hmem with hfirst | halt
  · rw [hfirst] at hstate
    exact ⟨new.first, by simp [Record.attempts], h.first.spent hstate⟩
  · rcases h.alternate attempt (Option.mem_toList.mp halt) with
      ⟨later, hlater, hadv⟩
    exact ⟨later, by simp [Record.attempts, hlater], hadv.spent hstate⟩

namespace Ledger

variable {l next : Ledger}

def attemptsFor (l : Ledger) (key : Key) : Nat :=
  match l.record key with
  | none => 0
  | some held => held.attempts.length

/-!
## What a step does to the record of a key
-/

variable {held : Record} {key : Key} {intent : Intent} {leaseHandle accountId : Bytes}
  {expiresAt : Int} {records : List Record}

theorem record_advances (key : Key) (h : List.Forall₂ RecordAdvances l.records records) :
    Option.Rel RecordAdvances (l.record key) (Ledger.record { l with records } key) := by
  unfold record
  generalize l.records = old at h
  induction h with
  | nil => exact .none
  | @cons x y xs ys hhead htail ih =>
    have hkey : y.key = x.key := by rw [Record.key, Record.key, hhead.intent]
    rw [recordAt_cons, recordAt_cons, hkey]
    split_ifs with hfound
    · exact .some hhead
    · exact ih

theorem attemptsFor_advances (key : Key) (h : List.Forall₂ RecordAdvances l.records records) :
    attemptsFor { l with records } key = l.attemptsFor key := by
  have hrel := record_advances key h
  unfold attemptsFor
  cases hold : l.record key with
  | none =>
    rw [hold] at hrel
    cases hnew : Ledger.record { l with records } key with
    | none => rfl
    | some => cases hnew ▸ hrel
  | some =>
    rw [hold] at hrel
    cases hnew : Ledger.record { l with records } key with
    | none => cases hnew ▸ hrel
    | some =>
      rw [hnew] at hrel
      cases hrel with
      | some hadv =>
        have hlength := congrArg List.length (handles_of_advances hadv)
        rw [Record.handles, Record.handles, length_map, length_map] at hlength
        exact hlength

theorem record_grows_advances (h : List.Forall₂ RecordAdvances l.records records)
    (hheld : l.record key = some held) :
    exists later, Ledger.record { l with records } key = some later ∧
      RecordGrows held later := by
  have hrel := record_advances key h
  rw [hheld] at hrel
  cases hnew : Ledger.record { l with records } key with
  | none => cases hnew ▸ hrel
  | some later =>
    rw [hnew] at hrel
    cases hrel with
    | some hadv => exact ⟨later, rfl, recordGrows_of_advances hadv⟩

theorem record_issuesFirst (h : IssuesFirst l intent leaseHandle accountId expiresAt next)
    (key : Key) : next.record key = (l.record key).or
      (if intent.key = key then
        some { intent := intent
               first := l.issuedAttempt leaseHandle accountId expiresAt }
      else none) := by
  rcases h.reserves with ⟨_, _, _, rfl⟩
  exact recordAt_concat l.records _ key

theorem record_issuesAlternate {i : Nat}
    (h : IssuesAlternate l intent leaseHandle accountId expiresAt next i held) (key : Key) :
    next.record key = if key = intent.key then
        some { held with
          alternate := some (l.issuedAttempt leaseHandle accountId expiresAt) }
      else l.record key := by
  rw [h.result]
  exact recordAt_set h.entry (recordEntry_eq_some h.entry).right

theorem record_of_entry {i : Nat} (h : recordEntry Record.key l.records key = some (i, held)) :
    l.record key = some held := by
  simp [record, recordAt, h]

theorem attemptsFor_issue {number : Nat} (key : Key)
    (h : l.issue intent leaseHandle accountId expiresAt = .ok (next, number)) :
    next.attemptsFor key = l.attemptsFor key + if intent.key = key then 1 else 0 := by
  rcases issue_inv h with ⟨_, hfirst | halt⟩
  · have hrecord := record_issuesFirst hfirst.right key
    unfold attemptsFor
    rw [hrecord]
    by_cases hkey : intent.key = key
    · have hunknown := hfirst.right.unknown
      rw [hkey] at hunknown
      simp [hkey, hunknown, Record.attempts]
    · simp [hkey]
  · rcases halt with ⟨_, i, _, halt⟩
    have hrecord := record_issuesAlternate halt key
    unfold attemptsFor
    rw [hrecord]
    by_cases hkey : intent.key = key
    · have hheld := record_of_entry halt.entry
      rw [hkey] at hheld
      simp [hkey, hheld, Record.attempts, halt.unused]
    · simp [hkey, Ne.symm hkey]

theorem record_grows_issue {number : Nat}
    (h : l.issue intent leaseHandle accountId expiresAt = .ok (next, number))
    (hheld : l.record key = some held) :
    exists later, next.record key = some later ∧ RecordGrows held later := by
  rcases issue_inv h with ⟨_, hfirst | halt⟩
  · refine ⟨held, ?_, recordGrows_refl held⟩
    rw [record_issuesFirst hfirst.right key, hheld, Option.some_or]
  · rcases halt with ⟨_, i, _, halt⟩
    rw [record_issuesAlternate halt key]
    by_cases hkey : key = intent.key
    · have hfound := record_of_entry halt.entry
      rw [<- hkey, hheld, Option.some.injEq] at hfound
      rw [if_pos hkey, hfound]
      refine ⟨_, rfl, rfl, advances_refl _, ?_⟩
      intro _
      rw [halt.unused]
      nofun
    · rw [if_neg hkey]
      exact ⟨held, hheld, recordGrows_refl held⟩

/-!
## Steps and runs
-/

theorem attemptsFor_step (key : Key) (l : Ledger) (op : Op) (hl : Valid l) :
    (l.step op).attemptsFor key = l.attemptsFor key + issuedFor key l op := by
  unfold step
  cases h : l.attempt op with
  | ok =>
    rcases attempt_cases hl h with hissue | hother
    · rcases hissue with ⟨intent, leaseHandle, accountId, expiresAt, _, hop, hok⟩
      simp only [hop, issuedFor, hok]
      exact attemptsFor_issue key hok
    · rcases hother with ⟨hnone, _, _, hadv, _, rfl⟩
      rw [hnone key]
      exact attemptsFor_advances key hadv
  | error =>
    cases op with
    | issue intent leaseHandle accountId expiresAt =>
      simp only [attempt] at h
      cases hissue : l.issue intent leaseHandle accountId expiresAt with
      | ok =>
        rw [hissue] at h
        cases h
      | error => simp [issuedFor, hissue]
    | report | reportForOwner | recoverAfterRestart | restore => rfl

theorem record_grows_step (op : Op) (hl : Valid l) (hheld : l.record key = some held) :
    exists later, (l.step op).record key = some later ∧ RecordGrows held later := by
  unfold step
  cases h : l.attempt op with
  | ok =>
    rcases attempt_cases hl h with hissue | hother
    · rcases hissue with ⟨_, _, _, _, _, _, hok⟩
      exact record_grows_issue hok hheld
    · rcases hother with ⟨_, _, _, hadv, _, rfl⟩
      exact record_grows_advances hadv hheld
  | error => exact ⟨held, hheld, recordGrows_refl held⟩

theorem record_grows_run (ops : List Op) (hl : Valid l) (hheld : l.record key = some held) :
    exists later, (run step l ops).record key = some later ∧
      RecordGrows held later := by
  induction ops generalizing l held with
  | nil => exact ⟨held, hheld, recordGrows_refl held⟩
  | cons op _ ih =>
    rcases record_grows_step op hl hheld with ⟨_, hmiddle, hfirst⟩
    rcases ih (valid_step op hl) hmiddle with ⟨later, hlater, hsecond⟩
    exact ⟨later, hlater, recordGrows_trans hfirst hsecond⟩

theorem attemptsFor_le_two (l : Ledger) (key : Key) : l.attemptsFor key <= 2 := by
  unfold attemptsFor
  split
  · exact Nat.zero_le _
  · rename_i held _
    cases halt : held.alternate <;> simp [Record.attempts]

theorem tally_issuedFor (capacity : Nat) (ops : List Op) (key : Key) :
    tally step (issuedFor key) (init capacity) ops =
      (run step (init capacity) ops).attemptsFor key := by
  have hmeasure := measure_run (m := fun mid => attemptsFor mid key)
    (fun mid op hmid => valid_step op hmid) (attemptsFor_step key)
    (valid_init capacity) ops
  have hinit : (init capacity).attemptsFor key = 0 := rfl
  rw [hmeasure, hinit, Nat.zero_add]

theorem rejected_report {attempt : Attempt} (hok : AttemptOk attempt)
    (hrej : attempt.state = .rejected) :
    exists report, attempt.terminalReport = some report ∧
      safeRejection report = true := by
  rcases validateAttempt_eq_ok.mp hok.valid with ⟨_, hterm, hmatch⟩
  simp only [reportsMatchState, hrej, bool_iff] at hmatch
  cases hreport : attempt.terminalReport with
  | none => simp [hreport] at hmatch
  | some =>
    rw [hreport] at hmatch hterm
    simp only [Option.any_some, bool_iff] at hmatch
    simpa [hmatch.right] using hterm

theorem issue_refused_of_spent {result : Ledger × Nat} (hheld : l.record intent.key = some held)
    (hspent : held.isSpent = true) :
    l.issue intent leaseHandle accountId expiresAt ≠ .ok result := by
  intro h
  rcases issue_inv h with ⟨_, hfirst | halt⟩
  · rw [hfirst.right.unknown] at hheld
    cases hheld
  · rcases halt with ⟨_, i, _, halt⟩
    rw [record_of_entry halt.entry, Option.some.injEq] at hheld
    rw [<- hheld] at hspent
    simp [Record.isSpent, Record.attempts, halt.unused, halt.rejected, Status.isSpent] at hspent

/--
Over a whole run from an empty ledger: at most two attempts for a work key; a
second one only while the first is safely rejected, for another account and the
same binding, demand and native reference; none for work that was ever accepted,
completed, abandoned or unknown; and no record disappears.
-/
theorem native_work_never_replayed (capacity : Nat) (ops : List Op) :
    (forall key, tally step (issuedFor key) (init capacity) ops <= 2) ∧
    (forall intent leaseHandle accountId expiresAt result,
      (run step (init capacity) ops).issue intent leaseHandle accountId expiresAt = .ok result ->
      tally step (issuedFor intent.key) (init capacity) ops = 0 ∨
      (tally step (issuedFor intent.key) (init capacity) ops = 1 ∧
        exists held report, (run step (init capacity) ops).record intent.key = some held ∧
          held.first.state = .rejected ∧ held.first.terminalReport = some report ∧
          safeRejection report = true ∧ held.first.accountId ≠ accountId ∧
          held.intent.bindingId = intent.bindingId ∧
          held.intent.demandFingerprint = intent.demandFingerprint ∧
          held.intent.nativeRef = intent.nativeRef)) ∧
    (forall earlier later, ops = earlier ++ later ->
      forall key held, (run step (init capacity) earlier).record key = some held ->
        (exists held', (run step (init capacity) ops).record key = some held' ∧
          held'.intent = held.intent ∧ held'.first.leaseHandle = held.first.leaseHandle ∧
          held'.first.accountId = held.first.accountId) ∧
        (held.isSpent = true ->
          forall intent leaseHandle accountId expiresAt result, intent.key = key ->
            (run step (init capacity) ops).issue intent leaseHandle accountId expiresAt ≠
              .ok result)) := by
  have hvalid : forall run', Valid (run step (init capacity) run') := by
    intro run'
    exact valid_of_reachable ⟨capacity, run', rfl⟩
  refine ⟨?_, ?_, ?_⟩
  · intro key
    rw [tally_issuedFor]
    exact attemptsFor_le_two _ key
  · intro intent leaseHandle accountId expiresAt result hissue
    rw [tally_issuedFor, attemptsFor]
    rcases issue_inv hissue with ⟨_, hfirst | halt⟩
    · rw [hfirst.right.unknown]
      exact Or.inl rfl
    · rcases halt with ⟨_, i, held, halt⟩
      have hheld := record_of_entry halt.entry
      have hok := (hvalid ops).each held (recordEntry_mem halt.entry)
      rcases rejected_report hok.first halt.rejected with
        ⟨report, hreport, hsafe⟩
      rw [hheld]
      refine Or.inr ⟨?_, held, report, rfl, halt.rejected, hreport, hsafe,
        halt.account, halt.binding, halt.fingerprint, halt.nativeRef⟩
      simp [Record.attempts, halt.unused]
  · intro earlier later hsplit key held hheld
    rcases record_grows_run later (hvalid earlier) hheld with
      ⟨held', hheld', hgrows⟩
    rw [<- run_append, <- hsplit] at hheld'
    refine ⟨⟨held', hheld', hgrows.intent, hgrows.first.handle, hgrows.first.account⟩, ?_⟩
    intro hspent intent leaseHandle accountId expiresAt result hkey
    rw [<- hkey] at hheld'
    exact issue_refused_of_spent hheld' (isSpent_of_grows hgrows hspent)

/-- The alternate of the sample run is its second and last attempt. -/
theorem native_work_alternateRun : tally step
        (issuedFor sampleIntent.key)
        (init 8) alternateRun = 2 ∧
      (forall key, tally step (issuedFor key) (init 8) alternateRun <= 2) :=
  ⟨by decide +kernel, (native_work_never_replayed 8 alternateRun).left⟩

end Ledger

end Omux.Request
