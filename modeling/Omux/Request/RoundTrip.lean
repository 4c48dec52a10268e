import Omux.Request.WellFormed

/-!
# Restoring a request ledger

`fromSnapshot` issues every saved attempt again and then writes the saved state over it.
On the snapshot of a well-formed ledger every fence of `issue` holds at every step.
-/

namespace Omux.Request

open Library List Record

namespace Ledger

/-!
## Issuing again
-/

theorem not_any_usesHandle {leaseHandle : Bytes} {records : List Record}
    (h : leaseHandle ∉ records.flatMap handles) : records.any (usesHandle leaseHandle) = false := by
  rw [any_eq_false]
  intro item hitem huses
  apply h
  exact mem_flatMap.mpr ⟨item, hitem, by simpa [usesHandle] using huses⟩

variable {l acc : Ledger} {capacity : Nat} {intent : Intent} {before : List Record}
  {item : Record}

theorem issue_passed {leaseHandle accountId : Bytes} {expiresAt : Int} {number additional : Nat}
    (h : IssueChecks l intent leaseHandle accountId) (hintent : l.checkIntent intent = .ok number)
    (hadd : additionalBytes intent number (stringReservation accountId) = .ok additional)
    (hfits : additional <= l.remainingSnapshotBytes) :
    l.issue intent leaseHandle accountId expiresAt = if number == 2 then do
        let (i, item) <- orFail (recordEntry key l.records intent.key) .unreachable
        failIf (item.first.accountId == accountId) .rejectedAccount
        .ok ({ l with
          records := l.records.set i { item with
            alternate := some (l.issuedAttempt leaseHandle accountId expiresAt) }
          lastSequence := l.lastSequence + 1
          reservedSnapshotBytes := l.reservedSnapshotBytes + additional }, number)
      else
        .ok ({ l with
          records := l.records ++
            [{ intent, first := l.issuedAttempt leaseHandle accountId expiresAt }]
          lastSequence := l.lastSequence + 1
          reservedSnapshotBytes := l.reservedSnapshotBytes + additional }, number) := by
  have hempty : accountId.isEmpty = false := by simpa using h.account.left
  simp only [issue, checkReservation, hintent, bind_ok, hadd, not_any_usesHandle h.fresh,
    h.handle.left, h.handle.right, hempty, decide_eq_false (Nat.not_lt.mpr h.account.right),
    decide_eq_false (Nat.not_lt.mpr hfits), beq_eq_false_iff_ne.mpr h.sequence]
  rfl

theorem issue_first {attempt : Attempt} {bytes : Nat} (hintent : validateIntent intent = .ok ())
    (hunknown : l.record intent.key = none) (hroom : l.records.length < l.capacity)
    (hseq : l.lastSequence ≠ maximumSequence) (hok : AttemptOk attempt)
    (hbytes : intentReservation intent = .ok bytes)
    (hfits : attemptBytes attempt + bytes <= l.remainingSnapshotBytes)
    (hfresh : attempt.leaseHandle ∉ l.records.flatMap handles) :
    l.issue intent attempt.leaseHandle attempt.accountId attempt.expiresAt = .ok ({ l with
        records := l.records ++
          [{ intent := intent
             first := l.issuedAttempt attempt.leaseHandle attempt.accountId
               attempt.expiresAt }]
        lastSequence := l.lastSequence + 1
        reservedSnapshotBytes :=
          l.reservedSnapshotBytes + (attemptBytes attempt + bytes) }, 1) := by
  have hcheck : l.checkIntent intent = .ok 1 := by
    simp [checkIntent, hintent, hunknown, Nat.not_le.mpr hroom, bind_ok]
  have hadd : additionalBytes intent 1
      (stringReservation attempt.accountId) = .ok (attemptBytes attempt + bytes) := by
    simp [additionalBytes, hbytes, bind_ok, attemptBytes]
  rw [issue_passed ⟨hintent, hseq, hok.handle, hok.account, hfresh⟩ hcheck hadd hfits]
  rfl

theorem issue_alternate {attempt : Attempt} {i : Nat} {held : Record}
    (hintent : validateIntent intent = .ok ())
    (hentry : recordEntry key l.records intent.key = some (i, held))
    (hsame : held.intent = intent) (hunused : held.alternate = none)
    (hrej : held.first.state = .rejected) (hacct : held.first.accountId ≠ attempt.accountId)
    (hseq : l.lastSequence ≠ maximumSequence) (hok : AttemptOk attempt)
    (hfits : attemptBytes attempt <= l.remainingSnapshotBytes)
    (hfresh : attempt.leaseHandle ∉ l.records.flatMap handles) :
    l.issue intent attempt.leaseHandle attempt.accountId attempt.expiresAt = .ok ({ l with
        records := l.records.set i { held with
          alternate := some (l.issuedAttempt attempt.leaseHandle
            attempt.accountId attempt.expiresAt) }
        lastSequence := l.lastSequence + 1
        reservedSnapshotBytes :=
          l.reservedSnapshotBytes + attemptBytes attempt }, 2) := by
  have hrecord : l.record intent.key = some held := by simp [record, recordAt, hentry]
  have href : Native.sameNativeRef intent.nativeRef intent.nativeRef = true :=
    Native.sameNativeRef_eq_true.mpr rfl
  have hcheck : l.checkIntent intent = .ok 2 := by
    simp [checkIntent, hintent, hrecord, hsame, href, hunused, hrej, bind_ok]
  have hadd : additionalBytes intent 2
      (stringReservation attempt.accountId) = .ok (attemptBytes attempt) := by
    simp [additionalBytes, bind_ok, attemptBytes]
  rw [issue_passed ⟨hintent, hseq, hok.handle, hok.account, hfresh⟩ hcheck hadd hfits]
  simp [hentry, bind_ok, beq_eq_false_iff_ne.mpr hacct]

theorem restoreAttempt_issued (l : Ledger) (saved : Attempt) : restoreAttempt saved
      (l.issuedAttempt saved.leaseHandle saved.accountId saved.expiresAt) = saved := rfl

/-!
## One record
-/

/-- What the restored ledger holds after the records `before`. -/
structure Restored (capacity : Nat) (before : List Record) (acc : Ledger) :
    Prop where
  capacity : acc.capacity = min capacity maximumCapacity
  records : acc.records = before
  reserved : acc.reservedSnapshotBytes = snapshotOverhead + (before.map reservation).sum
  sequence : acc.lastSequence <= 2 * before.length

/-- The first attempt of the next record is back, with its saved state. -/
theorem restoreFirst_ok (hok : RecordOk item) (hacc : Restored capacity before acc)
    (hunknown : acc.record item.intent.key = none)
    (hroom : before.length < min capacity maximumCapacity)
    (hseq : acc.lastSequence ≠ maximumSequence)
    (hfits : attemptBytes item.first + intentBytes item.intent <= acc.remainingSnapshotBytes)
    (hfresh : item.first.leaseHandle ∉ before.flatMap handles) :
    acc.restoreFirst item = .ok { acc with
      records := before ++ [{ intent := item.intent, first := item.first }]
      lastSequence := acc.lastSequence + 1
      reservedSnapshotBytes := acc.reservedSnapshotBytes +
        (attemptBytes item.first + intentBytes item.intent) } := by
  have hrecs := hacc.records
  have hissue := issue_first hok.intent hunknown
    (by rw [hrecs, hacc.capacity]; exact hroom) hseq hok.first
    hok.reserves hfits (by rw [hrecs]; exact hfresh)
  simp [restoreFirst, hunknown, bind_ok,
    hissue, hok.first.valid, updateLast, hrecs, modifyLast_concat, restoreAttempt_issued]

/-- The alternate joins the record that was restored last. -/
theorem restoreAlternate_ok {first alternate : Attempt} (hintent : validateIntent intent = .ok ())
    (hok : AlternateOk first alternate)
    (hrecs : acc.records = before ++ [{ intent := intent, first }])
    (hnone : recordEntry key before intent.key = none)
    (hseq : acc.lastSequence ≠ maximumSequence)
    (hfits : attemptBytes alternate <= acc.remainingSnapshotBytes)
    (hfresh : alternate.leaseHandle ∉ acc.records.flatMap handles) :
    acc.restoreAlternate intent alternate = .ok { acc with
      records := before ++ [{ intent, first, alternate := some alternate }]
      lastSequence := acc.lastSequence + 1
      reservedSnapshotBytes :=
        acc.reservedSnapshotBytes + attemptBytes alternate } := by
  have hentry : recordEntry key acc.records intent.key =
      some (before.length, { intent := intent, first }) := by
    rw [hrecs]
    apply firstEntry_append_of_none
    · intro other hother
      simpa using recordEntry_eq_none.mp hnone other hother
    · simp [key]
  have hissue := issue_alternate hintent hentry rfl rfl hok.rejected hok.account
    hseq hok.attempt hfits hfresh
  simp [restoreAlternate, hissue, bind_ok, hok.attempt.valid, updateLast,
    hrecs, modifyLast_concat, restoreAttempt_issued]

theorem restoreRecord_step {after : List Record} (hl : Valid l)
    (hcap : l.records.length <= min capacity maximumCapacity)
    (hsplit : l.records = before ++ item :: after) (hacc : Restored capacity before acc) :
    exists next, acc.restoreRecord item = .ok next ∧
      Restored capacity (before ++ [item]) next := by
  have hok := hl.each item (by simp [hsplit])
  have hroom : before.length < min capacity maximumCapacity := by
    rw [hsplit, length_append, length_cons] at hcap
    omega
  have hcount : acc.lastSequence + 2 <= maximumSequence := by
    have hseq := hacc.sequence
    have hmaximum : min capacity maximumCapacity <= 4096 := Nat.min_le_right _ _
    have hwide : 2 * 4096 + 2 <= maximumSequence := by decide
    omega
  have hremaining : snapshotOverhead + (before.map reservation).sum +
      item.reservation <= maximumSnapshotBytes := by
    have hfits := hl.fits
    rw [hl.reserved, hsplit, map_append, map_cons, sum_append, sum_cons] at hfits
    omega
  have hnone : recordEntry key before item.intent.key = none := by
    have hkeys := hl.keys
    rw [hsplit] at hkeys
    exact recordEntry_eq_none.mpr (key_ne_of_split rfl hkeys)
  have hunknown : acc.record item.intent.key = none := by
    simp [record, recordAt, hacc.records, hnone]
  have hhandles := hl.handles
  rw [hsplit] at hhandles
  have hfresh := not_mem_flatMap_of_nodup_split hhandles
  have hresv := hacc.reserved
  have hseq := hacc.sequence
  have hfirstHandle : item.first.leaseHandle ∉ before.flatMap handles :=
    hfresh _ (by simp [handles, attempts])
  have hbytes : attemptBytes item.first + intentBytes item.intent <= item.reservation := by
    rw [reservation, attempts, map_cons, sum_cons]
    omega
  have hfirst := restoreFirst_ok hok hacc hunknown hroom (by omega)
    (by rw [remainingSnapshotBytes]; omega) hfirstHandle
  rw [restoreRecord, hfirst]
  rcases item with ⟨intent, first, alternate⟩
  cases alternate with
  | none =>
    refine ⟨_, rfl, hacc.capacity, rfl, ?_, ?_⟩
    · simp only [map_append, sum_append, map_cons, map_nil,
        sum_cons, sum_nil, reservation, attempts, Option.toList_none]
      omega
    · simp only [length_append, length_singleton]
      omega
  | some alternate =>
    have hother : alternate.leaseHandle ∉ List.flatMap handles
        (before ++ [{ intent := intent, first }]) := by
      rw [flatMap_append, mem_append]
      intro hmem
      rcases hmem with hbefore | hown
      · exact hfresh _ (by simp [handles, attempts]) hbefore
      · rw [flatMap_append, nodup_append, flatMap_cons, nodup_append] at hhandles
        have hpair := hhandles.right.left.left
        simp [handles, attempts] at hpair hown
        exact hpair hown.symm
    have hrest : reservation
        { intent, first, alternate := some alternate } =
        attemptBytes first + intentBytes intent + attemptBytes alternate := by
      simp only [reservation, attempts, Option.toList_some, map_cons, map_nil, sum_cons, sum_nil]
      omega
    refine ⟨_, restoreAlternate_ok hok.intent (hok.alternate alternate rfl) rfl
      hnone ?_ ?_ hother, hacc.capacity, rfl, ?_, ?_⟩
    · simp only
      omega
    · simp only [remainingSnapshotBytes]
      omega
    · simp only [map_append, sum_append, map_cons, map_nil, sum_cons, sum_nil]
      omega
    · simp only [length_append, length_singleton]
      omega

/-!
## The whole snapshot
-/

theorem validateSequence_ok {previous : List Record} {n : Nat} {isAlternate : Bool}
    (hnonzero : n ≠ 0) (hfresh : n ∉ previous.flatMap sequences)
    (hown : isAlternate = true -> item.first.issuedSequence ≠ n) :
    validateSequence previous item n isAlternate = .ok () := by
  have hprevious : previous.any (fun other => other.sequences.contains n) = false := by
    rw [any_eq_false]
    intro other hother hcontains
    apply hfresh
    exact mem_flatMap.mpr ⟨other, hother, by simpa using hcontains⟩
  have hlast : (isAlternate && item.first.issuedSequence == n) = false := by
    cases isAlternate with
    | false => rfl
    | true => simpa using hown rfl
  simp only [validateSequence, hprevious, hlast, beq_eq_false_iff_ne.mpr hnonzero,
    failIf_false, bind_ok]

/-- The scan succeeds and returns the highest sequence. -/
theorem scanSequences_ok {previous todo : List Record} {maximum latest : Nat}
    (hdist : ((previous ++ todo).flatMap sequences).Nodup)
    (hok : forall item, item ∈ todo -> RecordOk item)
    (hbound : forall n, n ∈ todo.flatMap sequences -> n <= latest)
    (hreached : latest = maximum ∨ latest ∈ todo.flatMap sequences)
    (hmaximum : maximum <= latest) : scanSequences previous todo maximum = .ok latest := by
  induction todo generalizing previous maximum with
  | nil =>
    have hsame : latest = maximum := by simpa using hreached
    rw [scanSequences, hsame]
  | cons item rest ih =>
    have hitem := hok item (by simp)
    have hfresh := not_mem_flatMap_of_nodup_split hdist
    have hfirstBound := hbound item.first.issuedSequence (by simp [sequences, attempts])
    have hfirst : validateSequence previous item item.first.issuedSequence false = .ok () := by
      apply validateSequence_ok hitem.first.sequence
      · exact hfresh _ (by simp [sequences, attempts])
      · intro h
        cases h
    have hnext : ((previous ++ [item] ++ rest).flatMap sequences).Nodup := by simpa using hdist
    have hrestOk : forall other, other ∈ rest -> RecordOk other := by
      intro other hother
      exact hok other (by simp [hother])
    have hrestBound : forall n, n ∈ rest.flatMap sequences -> n <= latest := by
      intro n hn
      exact hbound n (by rw [flatMap_cons]; exact mem_append_right _ hn)
    rw [flatMap_cons, mem_append] at hreached
    cases halt : item.alternate with
    | none =>
      simp only [scanSequences, hfirst, halt]
      apply ih hnext hrestOk hrestBound
      · rcases hreached with hsame | hown | hrest
        · exact Or.inl (by omega)
        · simp [sequences, attempts, halt] at hown
          exact Or.inl (by omega)
        · exact Or.inr hrest
      · omega
    | some alternate =>
      have hsecond := hitem.alternate alternate halt
      have hlater := hsecond.later
      have hbound' := hbound alternate.issuedSequence (by simp [sequences, attempts, halt])
      have hvalid : validateSequence previous item alternate.issuedSequence true = .ok () := by
        apply validateSequence_ok hsecond.attempt.sequence
        · exact hfresh _ (by simp [sequences, attempts, halt])
        · omega
      simp only [scanSequences, hfirst, halt, hvalid, decide_eq_false (Nat.not_le.mpr hlater)]
      apply ih hnext hrestOk hrestBound
      · rcases hreached with hsame | hown | hrest
        · exact Or.inl (by omega)
        · simp [sequences, attempts, halt] at hown
          exact Or.inl (by omega)
        · exact Or.inr hrest
      · omega

theorem fromSnapshot_of_valid (hl : Valid l)
    (hcap : l.records.length <= min capacity maximumCapacity) :
    fromSnapshot capacity l.snapshot =
      .ok { l with capacity := min capacity maximumCapacity } := by
  have hscan : scanSequences [] l.records 0 = .ok l.lastSequence :=
    scanSequences_ok hl.sequences hl.each hl.latest hl.reached (Nat.zero_le _)
  have hempty : Restored capacity [] (init capacity) :=
    ⟨rfl, rfl, rfl, Nat.zero_le _⟩
  rcases foldlM_replay restoreRecord (Restored capacity) l.records hempty
    (fun _ _ _ _ hsplit hacc =>
      restoreRecord_step hl hcap hsplit hacc) with ⟨final, hfold, hfinal⟩
  have hlength : decide ((init capacity).capacity < l.records.length) = false :=
    decide_eq_false (Nat.not_lt.mpr hcap)
  have hsame : { final with lastSequence := l.lastSequence } =
      { l with capacity := min capacity maximumCapacity } := by
    rw [<- hfinal.capacity, hl.reserved, <- hfinal.reserved, hfinal.records]
  simp only [fromSnapshot, ok_iff]
  exact ⟨(), hlength, _, hscan, _, hfold, by rw [hsame]⟩

theorem fromSnapshot_inv {next : Ledger} (hl : Valid l)
    (h : fromSnapshot capacity l.snapshot = .ok next) :
    l.records.length <= min capacity maximumCapacity ∧
      next = { l with capacity := min capacity maximumCapacity } := by
  have hcap : l.records.length <= min capacity maximumCapacity := by
    simp only [fromSnapshot, ok_iff, bool_iff, Nat.not_lt] at h
    exact h.choose_spec.left
  rw [fromSnapshot_of_valid hl hcap] at h
  exact ⟨hcap, (Except.ok.inj h).symm⟩

/-!
## Reachable ledgers
-/

/-- Whether the operation issues an attempt for the work key. -/
def issuedFor (key : Key) (l : Ledger) : Op -> Nat
  | .issue intent leaseHandle accountId expiresAt =>
    match l.issue intent leaseHandle accountId expiresAt with
    | .ok _ => if intent.key = key then 1 else 0
    | .error _ => 0
  | _ => 0

/-- Every step other than an issue advances the records or only the capacity. -/
theorem attempt_cases {next : Ledger} {op : Op} (hl : Valid l) (h : l.attempt op = .ok next) :
    (exists intent leaseHandle accountId expiresAt number, op = .issue intent leaseHandle accountId
      expiresAt ∧ l.issue intent leaseHandle accountId expiresAt = .ok (next, number)) ∨
      ((forall key, issuedFor key l op = 0) ∧
        exists records capacity, List.Forall₂ RecordAdvances l.records records ∧
          (l.records.length <= capacity ∧ capacity <= maximumCapacity) ∧
          next = { l with records, capacity }) := by
  have hroom : l.records.length <= l.capacity ∧ l.capacity <= maximumCapacity :=
    ⟨hl.bounded, hl.capacity⟩
  cases op with
  | issue intent leaseHandle accountId expiresAt =>
    rcases map_fst_eq_ok.mp h with ⟨number, hok⟩
    exact Or.inl ⟨intent, leaseHandle, accountId, expiresAt, number, rfl, hok⟩
  | report =>
    rcases map_fst_eq_ok.mp h with ⟨_, hok⟩
    rcases report_inv hok with ⟨records, hadv, hnext⟩
    exact Or.inr ⟨fun _ => rfl, records, l.capacity, hadv, hroom, hnext⟩
  | reportForOwner =>
    rcases map_fst_eq_ok.mp h with ⟨_, hok⟩
    rcases reportForOwner_inv hok with ⟨records, hadv, hnext⟩
    exact Or.inr ⟨fun _ => rfl, records, l.capacity, hadv, hroom, hnext⟩
  | recoverAfterRestart =>
    rcases recoverAfterRestart_inv l with ⟨records, hadv, hnext⟩
    refine Or.inr ⟨fun _ => rfl, records, l.capacity, hadv, hroom, ?_⟩
    rw [<- Except.ok.inj h, hnext]
  | restore =>
    rcases fromSnapshot_inv hl h with ⟨hcap, hnext⟩
    exact Or.inr ⟨fun _ => rfl, l.records, _, forall₂_same.mpr (fun r _ => recordAdvances_refl r),
      ⟨hcap, Nat.min_le_right _ _⟩, hnext⟩

theorem valid_attempt {next : Ledger} {op : Op} (hl : Valid l) (h : l.attempt op = .ok next) :
    Valid next := by
  rcases attempt_cases hl h with hissue | hother
  · rcases hissue with ⟨_, _, _, _, _, _, hok⟩
    exact valid_issue hl hok
  · rcases hother with ⟨_, _, capacity, hadv, ⟨hbounded, hcap⟩, rfl⟩
    rw [hadv.length_eq] at hbounded
    exact { valid_of_advances hl hadv with capacity := hcap, bounded := hbounded }

theorem valid_step (op : Op) (hl : Valid l) : Valid (l.step op) := by
  unfold step
  cases h : l.attempt op with
  | ok => exact valid_attempt hl h
  | error => exact hl

theorem valid_of_reachable (h : l.Reachable) : Valid l := by
  rcases h with ⟨capacity, hreach⟩
  exact reachable_invariant (fun _ op hmid => valid_step op hmid) (valid_init capacity) hreach

/-- A reachable ledger comes back from its own snapshot. -/
theorem fromSnapshot_snapshot (capacity : Nat) (l : Ledger) (h : l.Reachable)
    (hcap : l.capacity = min capacity maximumCapacity) :
    fromSnapshot capacity l.snapshot = .ok l ∧
      (l.records.flatMap sequences).Nodup ∧
      forall item, item ∈ l.records ->
        forall alternate, item.alternate = some alternate ->
          item.first.issuedSequence < alternate.issuedSequence := by
  have hl := valid_of_reachable h
  have hbounded := hl.bounded
  refine ⟨?_, hl.sequences, ?_⟩
  · rw [hcap] at hbounded
    rw [fromSnapshot_of_valid hl hbounded, <- hcap]
  · intro item hitem alternate halt
    exact ((hl.each item hitem).alternate alternate halt).later

def sampleIntent : Intent where
  key := { application := [97], sessionId := [98], requestId := [99] }
  bindingId := [100]
  demandFingerprint := List.replicate 64 0x30

def alternateRun : List Op :=
  [.issue sampleIntent (List.replicate 64 0x31) [101] 60,
    .report (List.replicate 64 0x31)
      { event := .rejected, preAcceptance := true, responseStarted := false, status := 429 },
    .issue sampleIntent (List.replicate 64 0x32) [102] 60, .recoverAfterRestart]

theorem fromSnapshot_alternateRun : (run step (init 8) alternateRun).lastSequence = 2 ∧
      fromSnapshot 8 (run step (init 8) alternateRun).snapshot =
        .ok (run step (init 8) alternateRun) :=
  ⟨by decide +kernel, (fromSnapshot_snapshot 8 _ ⟨8, alternateRun, rfl⟩ (by decide +kernel)).left⟩

end Ledger

end Omux.Request
