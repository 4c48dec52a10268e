import Omux.Mutation.WellFormed

/-!
# Restoring a mutation ledger

At a revision that no stored measurement is ahead of, every check of
`fromSnapshotAtRevision` holds on the snapshot of a well-formed ledger.
-/

namespace Omux.Mutation

open Library List

namespace Ledger

variable {platform : Platform} {l next : Ledger}

/-- The revision is not below that of any stored measurement. -/
def Covered (l : Ledger) (revision : Nat) : Prop :=
  forall record, record ∈ l.records -> forall measured fact,
    (record.slot measured).fact = some fact -> fact.outcomeRevision <= revision

variable {revision reserved : Nat} {record : Record} {previous : List Record}

section

variable (h : RecordOk platform record)
include h

theorem checkReserved_of_ok (measured : Measured) :
    checkReserved platform measured record = .ok () := by
  unfold checkReserved
  cases hresv : (record.slot measured).reserved with
  | false => rfl
  | true =>
    rcases (h.slots measured).reserved hresv with ⟨hanchor, hnone⟩
    rcases (anchorOf_isOk platform).mpr hanchor with ⟨_, hok⟩
    simp [hok, hnone, bind_ok]

theorem checkFact_of_ok (measured : Measured)
    (hrev : forall fact, (record.slot measured).fact = some fact ->
      fact.outcomeRevision <= revision) : checkFact platform measured record revision = .ok () := by
  unfold checkFact
  cases hfact : (record.slot measured).fact with
  | none => rfl
  | some fact =>
    exact (validateForRecord_eq_ok platform).mpr
      ⟨((h.slots measured).fact fact hfact).left, hrev fact hfact⟩

theorem slot_empty_of_other {measured other : Measured} (hne : other ≠ measured)
    (hanchor : anchorable measured record = true) :
    (record.slot other).fact = none ∧ (record.slot other).reserved = false := by
  constructor
  · cases hfact : (record.slot other).fact with
    | none => rfl
    | some fact =>
      have hother := anchorable_of_matches platform ((h.slots other).fact fact hfact).left
      exact absurd (anchorable_unique hother hanchor) hne
  · cases hresv : (record.slot other).reserved with
    | false => rfl
    | true =>
      have hother := ((h.slots other).reserved hresv).left
      exact absurd (anchorable_unique hother hanchor) hne

theorem checkRecord_of_ok
    (hrev : forall measured fact, (record.slot measured).fact = some fact ->
      fact.outcomeRevision <= revision)
    (hfits : reserved + recordBytes record <= maximumSnapshotBytes)
    (hfresh : forall other, other ∈ previous -> other.idBytes ≠ record.idBytes) :
    checkRecord platform revision previous reserved record =
      .ok (reserved + recordBytes record) := by
  have hlens : (decide (maxIdBytes < record.idLen) ||
      decide (maxMethodBytes < record.methodLen) || decide (maxResultBytes < record.resultLen) ||
      record.resultLen != record.result.length) = false := by
    simp [h.id.left, h.method.left, h.result.left, h.result.left ▸ h.result.right]
  have htexts : (!validId record.idBytes || !validMethod record.methodBytes) = false := by
    simp [h.id.right, h.method.right]
  have hunfinished : (record.state != .completed && record.resultLen != 0) = false := by
    by_cases hstate : record.state = .completed
    · simp [hstate]
    · simp [h.unfinished hstate]
  have hexclusive : (record.nativeRemovalWitness.reserved &&
      (record.lifecycleWitness.fact.isSome || record.lifecycleWitness.reserved)) = false := by
    cases hresv : record.nativeRemovalWitness.reserved with
    | false => rfl
    | true =>
      have hanchor := ((h.slots .nativeRemoval).reserved hresv).left
      have hne : Measured.lifecycle ≠ .nativeRemoval := by decide
      have hempty := slot_empty_of_other h hne hanchor
      simp only [Record.slot] at hempty
      simp [hempty.left, hempty.right]
  have hunique : (previous.any (fun other => other.idBytes == record.idBytes)) = false := by
    rw [any_eq_false]
    intro other hother
    simpa using hfresh other hother
  have hroom : decide (maximumSnapshotBytes - reserved < recordBytes record) = false := by
    apply decide_eq_false
    omega
  simp [checkRecord, hlens, htexts, hunfinished, hexclusive, bind_ok, checkReserved_of_ok h,
    checkFact_of_ok h _ (hrev _), recordReservation_of_ok platform h, hroom, hunique]

theorem checkRecord_inv {total : Nat}
    (hcheck : checkRecord platform revision previous reserved record = .ok total) :
    total = reserved + recordBytes record := by
  simp only [checkRecord, ok_iff, recordReservation_of_ok platform h] at hcheck
  rcases hcheck with ⟨_, _, _, _, _, _, _, _, _, _, _, _, _, _, _, _, _, rfl, _, _, _, _, htotal⟩
  rw [<- htotal]

end

theorem checkRecords_of_ok {records : List Record}
    (heach : forall record, record ∈ records -> RecordOk platform record)
    (hrev : forall record, record ∈ records -> forall measured fact,
      (record.slot measured).fact = some fact -> fact.outcomeRevision <= revision)
    (hfits : reserved + (records.map recordBytes).sum <= maximumSnapshotBytes)
    (hids : ((previous ++ records).map Record.idBytes).Nodup) :
    checkRecords platform revision previous reserved records =
      .ok (reserved + (records.map recordBytes).sum) := by
  induction records generalizing previous reserved with
  | nil => rfl
  | cons record rest ih =>
    simp only [map_cons, sum_cons] at hfits
    have hassoc : (previous ++ [record]) ++ rest = previous ++ record :: rest := by simp
    have hroom : reserved + recordBytes record <= maximumSnapshotBytes := by omega
    have hrest : reserved + recordBytes record + (rest.map recordBytes).sum <=
        maximumSnapshotBytes := by
      omega
    have hhead := checkRecord_of_ok (heach record (by simp))
      (hrev record (by simp)) hroom (key_ne_of_split rfl hids)
    rw [<- hassoc] at hids
    have htail := ih (fun x hx => heach x (by simp [hx]))
      (fun x hx => hrev x (by simp [hx])) hrest hids
    rw [checkRecords, hhead, bind_ok, htail, map_cons, sum_cons, Nat.add_assoc]

theorem checkRecords_inv {records : List Record} {total : Nat}
    (heach : forall record, record ∈ records -> RecordOk platform record)
    (h : checkRecords platform revision previous reserved records = .ok total) :
    total = reserved + (records.map recordBytes).sum := by
  induction records generalizing previous reserved with
  | nil =>
    cases h
    rfl
  | cons record _ ih =>
    rw [checkRecords, bind_eq_ok] at h
    rcases h with ⟨_, hmiddle, hrest⟩
    have hhead := checkRecord_inv (heach record (by simp)) hmiddle
    have htail := ih (fun x hx => heach x (by simp [hx])) hrest
    rw [htail, hhead, map_cons, sum_cons, Nat.add_assoc]

section

variable (hl : Valid platform l)
include hl

theorem init_of_valid : init l.capacity = .ok
      { capacity := l.capacity
        witnessCeiling := l.witnessCeiling
        nativeWitnessCeiling := l.nativeWitnessCeiling } := by
  have hguard : (l.capacity == 0 || decide (maxRecords < l.capacity)) = false := by
    have hpos := hl.capacity.left
    have hmax := hl.capacity.right
    simp
    omega
  rw [init, hguard, failIf_false, bind_ok, hl.ceilings.left, hl.ceilings.right]

/-- The saved ledger comes back when no measurement is from the future. -/
theorem fromSnapshotAtRevision_of_valid (hcovered : l.Covered revision) :
    fromSnapshotAtRevision platform l.snapshot revision = .ok l := by
  have hguard : (l.snapshot.version != 1 || l.snapshot.capacity == 0 ||
      decide (maxRecords < l.snapshot.capacity) ||
      decide (l.snapshot.capacity < l.snapshot.count) ||
      l.snapshot.count != l.snapshot.records.length) = false := by
    have hpos := hl.capacity.left
    have hmax := hl.capacity.right
    have hbounded := hl.bounded
    simp [snapshot, Nat.ne_of_gt hpos]
    exact ⟨decide_eq_false (not_lt.mpr hmax), decide_eq_false (not_lt.mpr hbounded)⟩
  have hfits : snapshotOverhead + (l.records.map recordBytes).sum <= maximumSnapshotBytes := by
    rw [<- hl.reserved]
    exact hl.fits
  have hids : (([] ++ l.records).map Record.idBytes).Nodup := by simpa using hl.ids
  have hrecs := checkRecords_of_ok hl.each hcovered hfits hids
  rw [<- hl.reserved] at hrecs
  have hinit := init_of_valid hl
  simp only [fromSnapshotAtRevision, hguard, failIf_false]
  simp [snapshot, hrecs, hinit, bind_ok]

/-- Whatever is restored is the saved ledger. -/
theorem fromSnapshotAtRevision_inv
    (h : fromSnapshotAtRevision platform l.snapshot revision = .ok next) : next = l := by
  simp only [fromSnapshotAtRevision, ok_iff, snapshot, init_of_valid hl] at h
  rcases h with ⟨_, _, _, hresv, _, rfl, hnext⟩
  rw [checkRecords_inv hl.each hresv, <- hl.reserved] at hnext
  exact hnext.symm

theorem restart_inv (h : l.restart platform revision = .ok next) :
    next = l.recoverAfterRestart := by
  simp only [restart, ok_iff] at h
  rcases h with ⟨_, hrest, rfl⟩
  rw [fromSnapshotAtRevision_inv hl hrest]

/-!
## Every reachable ledger is well formed
-/

theorem valid_attempt {op : Op} (h : l.attempt platform op = .ok next) : Valid platform next := by
  cases op with
  | begin =>
    rcases map_fst_eq_ok.mp h with ⟨_, hbegin⟩
    rcases begin_inv hbegin with ⟨_, _, hknown | hnew⟩
    · rcases hknown with ⟨_, _, _, rfl, _⟩
      exact hl
    · exact valid_starts hl hnew.right.right
  | complete =>
    rcases complete_updates hl h with ⟨old, _, hupd⟩
    exact valid_updates hl hupd
  | markIndeterminate =>
    rcases markIndeterminate_updates hl h with ⟨old, _, hupd⟩
    exact valid_updates hl hupd
  | tryReserveWitness =>
    rcases map_fst_eq_ok.mp h with ⟨_, hresv⟩
    rcases tryReserveWitness_updates hl hresv with rfl | hchanged
    · exact hl
    · rcases hchanged with ⟨_, _, hupd⟩
      exact valid_updates hl hupd
  | abandonWitness =>
    rcases abandonWitness_updates hl h with ⟨_, _, hupd⟩
    exact valid_updates hl hupd
  | setWitnessOnce =>
    rcases setWitnessOnce_updates hl h with ⟨_, _, hupd⟩
    exact valid_updates hl hupd
  | restart =>
    rw [restart_inv hl h]
    exact valid_recover hl

end

theorem valid_step (op : Op) (hl : Valid platform l) : Valid platform (l.step platform op) := by
  unfold step
  cases h : l.attempt platform op with
  | ok => exact valid_attempt hl h
  | error => exact hl

theorem valid_run (hl : Valid platform l) (ops : List Op) :
    Valid platform (run (step platform) l ops) :=
  run_invariant (fun _ op ht => valid_step op ht) hl ops

end Ledger

end Omux.Mutation
