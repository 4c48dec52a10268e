import Mathlib.Data.List.Pairwise
import Omux.Request.NoReplay

/-!
# Reports

A report reaches the one attempt that has its handle.  The preflights return what the
mutations would return, and what was acknowledged once stays acknowledged.
-/

namespace Omux.Request

open Library List
open Native (NativeRef)

/-!
## The attempt of a handle
-/

/-- The record after a report to its attempt with the handle. -/
def Record.replace (item : Record) (leaseHandle : Bytes) (attempt : Attempt) : Record :=
  if item.first.leaseHandle == leaseHandle then { item with first := attempt }
  else { item with alternate := some attempt }

variable {item : Record} {attempt : Attempt} {evidence : Report}

theorem mem_replace (item : Record) (leaseHandle : Bytes) (attempt : Attempt) :
    attempt ∈ (item.replace leaseHandle attempt).attempts := by
  unfold Record.replace
  split <;> simp [Record.attempts]

theorem intent_replace (item : Record) (leaseHandle : Bytes) (attempt : Attempt) :
    (item.replace leaseHandle attempt).intent = item.intent := by
  unfold Record.replace
  split <;> rfl

section

variable (hnd : item.handles.Nodup) (h : attempt ∈ item.attempts)
include hnd h

theorem first_or_alternate :
    attempt = item.first ∨
      (item.alternate = some attempt ∧ item.first.leaseHandle ≠ attempt.leaseHandle) := by
  rcases mem_cons.mp h with hfirst | halt
  · exact Or.inl hfirst
  · have hsome := Option.mem_toList.mp halt
    exact Or.inr ⟨hsome, by simpa [Record.handles, Record.attempts, hsome] using hnd⟩

theorem replace_self : item.replace attempt.leaseHandle attempt = item := by
  rcases first_or_alternate hnd h with hfirst | ⟨hsome, hne⟩
  · simp [Record.replace, hfirst]
  · simp [Record.replace, hne, <- hsome]

theorem reportRecord_eq :
    Ledger.reportRecord item attempt.leaseHandle evidence =
      (applyReport attempt evidence).map (fun result =>
        (item.replace attempt.leaseHandle result.1, result.2)) := by
  rcases first_or_alternate hnd h with hfirst | ⟨hsome, hne⟩
  · simp only [Ledger.reportRecord, Record.replace, hfirst, BEq.rfl]
    cases applyReport item.first evidence <;> rfl
  · simp only [Ledger.reportRecord, Record.replace, hsome, beq_eq_false_iff_ne.mpr hne]
    cases applyReport attempt evidence <;> rfl

end

theorem applyReport_held {new : Attempt} {fresh : Bool}
    (h : applyReport attempt evidence = .ok (new, fresh)) :
    heldReport new evidence.event = some evidence := by
  unfold applyReport at h
  split at h
  · rename_i held hheld
    split at h
    · rename_i hsame
      rw [<- (Prod.mk.inj (Except.ok.inj h)).left, hheld, eq_of_beq hsame]
    · cases h
  · simp only [ok_iff, Prod.mk.injEq] at h
    rcases h with ⟨_, hnext, rfl, _⟩
    rcases transition_stores hnext with ⟨_, rfl⟩
    cases hevent : evidence.event <;> simp [heldReport]

namespace Ledger

variable {l next : Ledger} {leaseHandle application : Bytes}

/-- The attempt that has the handle, and its record. -/
structure Holds (l : Ledger) (leaseHandle : Bytes) (item : Record) (attempt : Attempt) :
    Prop where
  record : item ∈ l.records
  attempts : attempt ∈ item.attempts
  handle : attempt.leaseHandle = leaseHandle

theorem holds_of_usesHandle (hitem : item ∈ l.records) (h : item.usesHandle leaseHandle = true) :
    exists attempt, l.Holds leaseHandle item attempt := by
  rcases mem_map.mp (contains_iff_mem.mp h) with ⟨attempt, hatt, hhandle⟩
  exact ⟨attempt, hitem, hatt, hhandle⟩

section Found

variable (hl : Valid l) (h : l.Holds leaseHandle item attempt)

include h in
theorem Holds.usesHandle : item.usesHandle leaseHandle = true :=
  contains_iff_mem.mpr (mem_map.mpr ⟨attempt, h.attempts, h.handle⟩)

include hl h

theorem Holds.handles_nodup : item.handles.Nodup :=
  (nodup_flatMap.mp hl.handles).left item h.record

theorem Holds.unique {other : Record} (hother : other ∈ l.records)
    (huses : other.usesHandle leaseHandle = true) : other = item := by
  by_contra hne
  have hsymm : Std.Symm (Function.onFun List.Disjoint Record.handles) :=
    ⟨fun _ _ hxy _ hy hx => hxy hx hy⟩
  have hdisjoint := (nodup_flatMap.mp hl.handles).right.forall hother h.record hne
  exact hdisjoint (contains_iff_mem.mp huses) (contains_iff_mem.mp h.usesHandle)

theorem Holds.find_attempt :
    item.attempts.find? (fun other => other.leaseHandle == leaseHandle) = some attempt := by
  refine find?_eq_of_unique h.attempts (by simp [h.handle]) ?_
  intro other hother hsame
  refine inj_on_of_nodup_map (Holds.handles_nodup hl h) hother h.attempts ?_
  rw [eq_of_beq hsame, h.handle]

theorem applyReportForHandle_eq (evidence : Report) : exists i, l.records[i]? = some item ∧
      l.applyReportForHandle leaseHandle evidence =
        (applyReport attempt evidence).map (fun result =>
          ({ l with records := l.records.set i (item.replace leaseHandle result.1) },
            result.2)) := by
  rcases firstEntry_of_unique h.record h.usesHandle (fun _ => h.unique hl) with ⟨i, hentry⟩
  refine ⟨i, (firstEntry_eq_some hentry).left, ?_⟩
  have hreport : Ledger.reportRecord item attempt.leaseHandle evidence = _ :=
    reportRecord_eq (h.handles_nodup hl) h.attempts
  rw [h.handle] at hreport
  simp only [applyReportForHandle, hentry, orFail_some, bind_ok, hreport]
  cases applyReport attempt evidence <;> rfl

theorem intentForHandle_eq (happ : item.intent.key.application = application) :
    l.intentForHandle application leaseHandle = some item.intent := by
  have hfind : l.records.find? (fun other => other.intent.key.application == application &&
      other.usesHandle leaseHandle) = some item := by
    refine find?_eq_of_unique h.record (by simp [happ, h.usesHandle]) ?_
    intro other hother hsame
    exact h.unique hl hother (Bool.and_eq_true_iff.mp hsame).right
  rw [intentForHandle, hfind, Option.map_some]

theorem attemptForHandle_eq (happ : item.intent.key.application = application) :
    l.attemptForHandle application leaseHandle = some attempt := by
  have hfound := h.find_attempt hl
  cases hfind : l.attemptForHandle application leaseHandle with
  | none =>
    have hnone := List.findSome?_eq_none_iff.mp hfind item h.record
    simp [happ, hfound] at hnone
  | some other =>
    rcases exists_of_findSome?_eq_some hfind with ⟨owner, howner, hother⟩
    split at hother
    · have huses : owner.usesHandle leaseHandle = true := by
        rw [Record.usesHandle, contains_iff_mem, Record.handles, mem_map]
        exact ⟨other, mem_of_find?_eq_some hother, by simpa using List.find?_some hother⟩
      rw [h.unique hl howner huses, hfound] at hother
      rw [hother]
    · cases hother

theorem any_attributed :
    l.records.any (fun other => other.usesHandle leaseHandle && other.intent.nativeRef.isSome) =
      item.intent.nativeRef.isSome := by
  rw [Bool.eq_iff_iff, any_eq_true]
  constructor
  · intro hany
    rcases hany with ⟨other, hother, hboth⟩
    rw [Bool.and_eq_true] at hboth
    rw [<- h.unique hl hother hboth.left]
    exact hboth.right
  · intro hsome
    exact ⟨item, h.record, by rw [h.usesHandle, hsome]; rfl⟩

/-!
## Preflights
-/

section

variable (happ : item.intent.key.application = application)
include happ

theorem checkHeld_eq
    (evidence : Report) : l.checkHeld application leaseHandle evidence =
      (l.applyReportForHandle leaseHandle evidence).map Prod.snd := by
  rcases applyReportForHandle_eq hl h evidence with ⟨i, _, hreport⟩
  rw [checkHeld, attemptForHandle_eq hl h happ, hreport, orFail_some, bind_ok]
  cases applyReport attempt evidence <;> rfl

theorem checkReport_eq
    (evidence : Report) : l.checkReport application leaseHandle evidence =
      (l.report leaseHandle evidence).map Prod.snd := by
  rw [checkReport, intentForHandle_eq hl h happ, report, any_attributed hl h,
    checkHeld_eq hl h happ, orFail_some, bind_ok]
  cases item.intent.nativeRef.isSome <;> rfl

theorem checkReportForOwner_eq
    (ref : NativeRef) (evidence : Report) :
    l.checkReportForOwner application leaseHandle ref evidence =
      (l.reportForOwner application leaseHandle ref evidence).map Prod.snd := by
  rw [checkReportForOwner, reportForOwner, checkHeld_eq hl h happ]
  cases l.checkOwner application leaseHandle ref <;> rfl

end

end Found

/-- The handle was issued under the application. -/
def IssuedUnder (l : Ledger) (application leaseHandle : Bytes) : Prop :=
  exists item, item ∈ l.records ∧ item.intent.key.application = application ∧
    item.usesHandle leaseHandle = true

theorem stringReservation_le (value : Bytes) : stringReservation value <= 2 + 6 * value.length := by
  refine reservedLength_le (fun _ => ?_) value
  unfold decimalWidth
  split
  · exact Nat.le_refl 3
  · split <;> decide

theorem checkReservation_mono {intent : Intent} {number accountBytes : Nat}
    (hbytes : accountBytes <= maximumAccountJsonBytes)
    (h : l.checkReservation intent number maximumAccountJsonBytes = .ok ()) :
    exists additional, additionalBytes intent number accountBytes = .ok additional ∧
      additional <= l.remainingSnapshotBytes := by
  simp only [checkReservation, ok_iff, bool_iff] at h
  rcases h with ⟨_, hreq, _⟩
  cases hone : number == 1
  all_goals
    simp only [additionalBytes, hone, Bool.false_eq_true, if_true, if_false, ok_iff] at hreq ⊢
    rcases hreq with ⟨intentBytes, hintent, _⟩
    exact ⟨_, ⟨intentBytes, hintent, rfl⟩, by omega⟩

theorem issue_of_checkIssue {intent : Intent} {number : Nat} {accountId : Bytes}
    (hcheck : l.checkIssue intent = .ok number)
    (hhandle : leaseHandle.length = 64 ∧ leaseHandle.all isHex = true)
    (hfresh : leaseHandle ∉ l.records.flatMap Record.handles)
    (hacct : accountId ≠ [] ∧ accountId.length <= 4096)
    (hother : l.rejectedAccount intent ≠ .ok (some accountId))
    (hseq : l.lastSequence < maximumSequence) (expiresAt : Int) :
    exists next, l.issue intent leaseHandle accountId expiresAt = .ok (next, number) := by
  have hpreflight := hcheck
  simp only [checkIssue, ok_iff] at hpreflight
  rcases hpreflight with ⟨_, hintent, _, hresv, rfl⟩
  have hbytes : stringReservation accountId <= maximumAccountJsonBytes := by
    have hle := stringReservation_le accountId
    unfold maximumAccountJsonBytes
    omega
  rcases checkReservation_mono hbytes hresv with ⟨_, hadd, hfits⟩
  rcases checkIntent_inv hintent with ⟨hvalid, hcases⟩
  rw [issue_passed ⟨hvalid, Nat.ne_of_lt hseq, hhandle, hacct, hfresh⟩ hintent hadd hfits]
  rcases hcases with ⟨rfl, _⟩ | ⟨htwo, i, held, hentry, _⟩
  · exact ⟨_, rfl⟩
  · rw [rejectedAccount, hcheck, record_of_entry hentry] at hother
    have hdifferent : held.first.accountId ≠ accountId := by
      intro hsame
      exact hother (by rw [<- hsame]; rfl)
    simp only [htwo, hentry, orFail_some, bind_ok, beq_eq_false_iff_ne.mpr hdifferent]
    exact ⟨_, rfl⟩

/--
Sufficiency and exactness of the preflights: an issue with a fresh handle and any legal
account that is not the rejected one returns what `checkIssue` returned, and the report
preflights return what the reports would return for a handle of the application.
-/
theorem preflights_agree (l : Ledger) (hl : l.Reachable) :
    (forall intent number, l.checkIssue intent = .ok number ->
      forall leaseHandle accountId expiresAt,
        leaseHandle.length = 64 ∧ leaseHandle.all isHex = true ->
        leaseHandle ∉ l.records.flatMap Record.handles ->
        accountId ≠ [] ∧ accountId.length <= 4096 ->
        l.rejectedAccount intent ≠ .ok (some accountId) -> l.lastSequence < maximumSequence ->
        exists next, l.issue intent leaseHandle accountId expiresAt = .ok (next, number)) ∧
    (forall application leaseHandle, l.IssuedUnder application leaseHandle ->
      forall evidence, l.checkReport application leaseHandle evidence =
          (l.report leaseHandle evidence).map Prod.snd ∧
        forall ref, l.checkReportForOwner application leaseHandle ref evidence =
          (l.reportForOwner application leaseHandle ref evidence).map Prod.snd) := by
  have hvalid := valid_of_reachable hl
  constructor
  · intro intent number hcheck leaseHandle accountId expiresAt hhandle hfresh hacct hother hseq
    exact issue_of_checkIssue hcheck hhandle hfresh hacct hother hseq expiresAt
  · intro application leaseHandle hissued evidence
    rcases hissued with ⟨_, hitem, happ, huses⟩
    rcases holds_of_usesHandle hitem huses with ⟨_, hholds⟩
    exact ⟨checkReport_eq hvalid hholds happ evidence,
      fun ref => checkReportForOwner_eq hvalid hholds happ ref evidence⟩

/-- Work whose first attempt was rejected may have its alternate; a late report is
answered as its preflight says. -/
theorem preflights_agree_alternateRun :
    let l := run step (init 8) (alternateRun.take 2)
    let late : Report := { event := .accepted, status := 200 }
    (exists next, l.issue sampleIntent (List.replicate 64 0x32) [102] 60 = .ok (next, 2)) ∧
    l.checkReport [97] (List.replicate 64 0x31) late =
      (l.report (List.replicate 64 0x31) late).map Prod.snd := by
  have hagree := preflights_agree _ ⟨8, alternateRun.take 2, rfl⟩
  exact ⟨hagree.left _ 2 (by decide +kernel) _ _ 60 (by decide +kernel) (by decide +kernel)
    (by decide) (by decide +kernel) (by decide +kernel),
    (hagree.right _ _ ⟨_, List.mem_cons_self, rfl, rfl⟩ _).left⟩

/-!
## Acknowledged reports
-/

def reportAs (l : Ledger) (owner : Option (Bytes × NativeRef)) (leaseHandle : Bytes)
    (evidence : Report) : Result (Ledger × Bool) :=
  match owner with
  | none => l.report leaseHandle evidence
  | some (application, ref) => l.reportForOwner application leaseHandle ref evidence

def RightOwner (intent : Intent) : Option (Bytes × NativeRef) -> Prop
  | none => intent.nativeRef = none
  | some (application, ref) => intent.key.application = application ∧ ref.isValid = true ∧
      intent.nativeRef = some ref

/-- Another owner under the application of the work, or none for attributed work. -/
def WrongOwner (intent : Intent) : Option (Bytes × NativeRef) -> Prop
  | none => intent.nativeRef ≠ none
  | some (application, ref) => intent.key.application = application ∧ ref.isValid = true ∧
      intent.nativeRef ≠ some ref

section Owners

variable {owner : Option (Bytes × NativeRef)} (hl : Valid l)
  (h : l.Holds leaseHandle item attempt)

include hl h

theorem checkOwner_eq {ref : NativeRef} (happ : item.intent.key.application = application)
    (href : ref.isValid = true) : l.checkOwner application leaseHandle ref =
      if item.intent.nativeRef = some ref then .ok () else .error .nativeOwnerMismatch := by
  simp only [checkOwner, NativeRef.validate, href, intentForHandle_eq hl h happ,
    orFail_some, bind_ok]
  cases item.intent.nativeRef with
  | none => rfl
  | some original => by_cases hsame : original = ref <;> simp [bind_ok, failIf]

theorem reportAs_right (howner : RightOwner item.intent owner) (evidence : Report) :
    l.reportAs owner leaseHandle evidence = l.applyReportForHandle leaseHandle evidence := by
  match owner, howner with
  | none, hnone =>
    rw [reportAs, report, any_attributed hl h, (show _ = none from hnone)]
    rfl
  | some (application, ref), ⟨happ, href, hsome⟩ =>
    rw [reportAs, reportForOwner, checkOwner_eq hl h happ href, if_pos hsome, bind_ok]

theorem reportAs_wrong (howner : WrongOwner item.intent owner) (evidence : Report) :
    l.reportAs owner leaseHandle evidence = .error .nativeOwnerMismatch := by
  match owner, howner with
  | none, hsome =>
    rw [reportAs, report, any_attributed hl h, Option.isSome_iff_ne_none.mpr hsome]
    rfl
  | some (application, ref), ⟨happ, href, hother⟩ =>
    rw [reportAs, reportForOwner, checkOwner_eq hl h happ href, if_neg hother]
    rfl

theorem rightOwner_of_reportAs {result : Ledger × Bool}
    (hreport : l.reportAs owner leaseHandle evidence = .ok result) :
    RightOwner item.intent owner := by
  match owner, hreport with
  | none, hreport =>
    simp only [reportAs, report, any_attributed hl h, ok_iff, isSome_eq_false] at hreport
    exact hreport.choose_spec.left
  | some (application, ref), hreport =>
    simp only [reportAs, reportForOwner, checkOwner, NativeRef.validate, ok_iff,
      bool_iff] at hreport
    rcases hreport with ⟨_, ⟨_, href, _, hintent, _, horiginal, hsame⟩, _⟩
    rcases Option.map_eq_some_iff.mp hintent with ⟨_, hfind, hother⟩
    have hboth := List.find?_some hfind
    rw [Bool.and_eq_true, beq_iff_eq] at hboth
    have hitem := h.unique hl (mem_of_find?_eq_some hfind) hboth.right
    rw [<- hitem]
    exact ⟨hboth.left, href, by rw [hother, horiginal, hsame]⟩

/-- What the attempt acknowledged is acknowledged again, and nothing else of its class is. -/
theorem report_again (hheld : heldReport attempt evidence.event = some evidence) :
    l.applyReportForHandle leaseHandle evidence = .ok (l, false) ∧
      forall other, (other.event = .accepted ↔ evidence.event = .accepted) -> other ≠ evidence ->
        l.applyReportForHandle leaseHandle other = .error .reportMismatch := by
  constructor
  · rcases applyReportForHandle_eq hl h evidence with ⟨i, hget, hreport⟩
    have hself := replace_self (h.handles_nodup hl) h.attempts
    rw [h.handle] at hself
    rcases List.getElem?_eq_some_iff.mp hget with ⟨_, hitem⟩
    have hset : l.records.set i item = l.records := by rw [<- hitem, set_getElem_self]
    simp [hreport, applyReport, hheld, Except.map, hself, hset]
  · intro other hclass hne
    rcases applyReportForHandle_eq hl h other with ⟨i, _, hreport⟩
    have hsame : heldReport attempt other.event = some evidence := by
      rw [<- hheld]
      simp [heldReport, hclass]
    rw [hreport, applyReport, hsame]
    simp [Except.map, Ne.symm hne]

/-- The attempt of a handle stays the attempt of the handle. -/
theorem holds_run (ops : List Op) :
    exists item' attempt', (run step l ops).Holds leaseHandle item' attempt' ∧
      item'.intent = item.intent ∧ Advances attempt attempt' := by
  rcases record_grows_run ops hl (recordAt_of_mem hl.keys h.record rfl) with
    ⟨later, hlater, hgrows⟩
  have hrecord := (recordAt_eq_some hlater).left
  rcases first_or_alternate (h.handles_nodup hl) h.attempts with rfl | ⟨hsome, _⟩
  · have hadv := hgrows.first
    exact ⟨later, later.first, ⟨hrecord, by simp [Record.attempts],
      by rw [hadv.handle, h.handle]⟩, hgrows.intent, hadv⟩
  · rcases hgrows.alternate attempt hsome with ⟨attempt', hatt, hadv⟩
    exact ⟨later, attempt', ⟨hrecord, by simp [Record.attempts, hatt],
      by rw [hadv.handle, h.handle]⟩, hgrows.intent, hadv⟩

end Owners

theorem applyReportForHandle_of_reportAs {owner : Option (Bytes × NativeRef)}
    {result : Ledger × Bool} (h : l.reportAs owner leaseHandle evidence = .ok result) :
    l.applyReportForHandle leaseHandle evidence = .ok result := by
  match owner, h with
  | none, h =>
    simp only [reportAs, report, ok_iff] at h
    exact h.choose_spec.right
  | some (application, ref), h =>
    simp only [reportAs, reportForOwner, ok_iff] at h
    exact h.choose_spec.right

theorem applyReportForHandle_ok {fresh : Bool} (hl : Valid l)
    (h : l.applyReportForHandle leaseHandle evidence = .ok (next, fresh)) :
    exists i item attempt new, l.records[i]? = some item ∧ l.Holds leaseHandle item attempt ∧
      applyReport attempt evidence = .ok (new, fresh) ∧
      next = { l with records := l.records.set i (item.replace leaseHandle new) } := by
  have hentry := h
  simp only [applyReportForHandle, ok_iff] at hentry
  rcases hentry with ⟨⟨_, item⟩, hentry, _⟩
  rcases firstEntry_eq_some hentry with ⟨hget, huses⟩
  rcases holds_of_usesHandle (mem_of_getElem? hget) huses with ⟨attempt, hholds⟩
  rcases applyReportForHandle_eq hl hholds evidence with ⟨i, hi, hreport⟩
  rw [h] at hreport
  cases happlied : applyReport attempt evidence with
  | error => cases happlied ▸ hreport
  | ok =>
    rw [happlied] at hreport
    cases Except.ok.inj hreport
    exact ⟨i, item, attempt, _, hi, hholds, happlied, rfl⟩

/-- After an acknowledgment the attempt holds the report, and the owner is the right one. -/
theorem holds_reported {owner : Option (Bytes × NativeRef)} {fresh : Bool} (hl : Valid l)
    (h : l.reportAs owner leaseHandle evidence = .ok (next, fresh)) :
    Valid next ∧ exists item attempt, next.Holds leaseHandle item attempt ∧
      RightOwner item.intent owner ∧ heldReport attempt evidence.event = some evidence := by
  have happly := applyReportForHandle_of_reportAs h
  rcases applyReportForHandle_inv happly with ⟨_, hadv, hrecs⟩
  rcases applyReportForHandle_ok hl happly with
    ⟨i, item, attempt, new, hi, hholds, happlied, hnext⟩
  refine ⟨hrecs ▸ valid_of_advances hl hadv, item.replace leaseHandle new, new,
    ⟨?_, mem_replace _ _ _, ?_⟩, ?_, applyReport_held happlied⟩
  · rw [hnext]
    exact mem_set_self hi
  · rw [(applyReport_advances happlied).handle, hholds.handle]
  · rw [intent_replace]
    exact rightOwner_of_reportAs hl hholds h

/--
Once a report was acknowledged, at every later time the same report returns false and
changes nothing, every other report of its class is refused, and no attempt ever loses or
changes a report that it holds.
-/
theorem reports_acknowledged_for_good (capacity : Nat) (ops later : List Op) :
    (forall owner leaseHandle evidence next fresh,
      (run step (init capacity) ops).reportAs owner leaseHandle evidence = .ok (next, fresh) ->
      (run step next later).reportAs owner leaseHandle evidence =
        .ok (run step next later, false) ∧
      forall other, (other.event = .accepted ↔ evidence.event = .accepted) ->
        other ≠ evidence ->
        (run step next later).reportAs owner leaseHandle other = .error .reportMismatch ∧
        forall item claimed, item ∈ (run step next later).records ->
          item.usesHandle leaseHandle = true -> WrongOwner item.intent claimed ->
          (run step next later).reportAs claimed leaseHandle other =
            .error .nativeOwnerMismatch) ∧
    (forall item attempt, item ∈ (run step (init capacity) ops).records ->
      attempt ∈ item.attempts ->
      exists item' attempt', item' ∈ (run step (init capacity) (ops ++ later)).records ∧
        attempt' ∈ item'.attempts ∧ item'.intent = item.intent ∧
        attempt'.leaseHandle = attempt.leaseHandle ∧
        forall event report, heldReport attempt event = some report ->
          heldReport attempt' event = some report) := by
  have hl : Valid (run step (init capacity) ops) :=
    valid_of_reachable ⟨capacity, ops, rfl⟩
  constructor
  · intro owner leaseHandle evidence next fresh h
    rcases holds_reported hl h with ⟨hnext, item, attempt, hholds, howner, hheld⟩
    rcases holds_run hnext hholds later with ⟨item', attempt', hholds', hintent, hadv⟩
    have hvalid : Valid (run step next later) :=
      run_invariant (fun _ op hmid => valid_step op hmid) hnext later
    rcases report_again hvalid hholds' (hadv.held _ _ hheld) with ⟨hagain, hothers⟩
    rw [<- hintent] at howner
    refine ⟨by rw [reportAs_right hvalid hholds' howner, hagain], ?_⟩
    intro other hclass hne
    refine ⟨by rw [reportAs_right hvalid hholds' howner, hothers other hclass hne], ?_⟩
    intro held claimed hmem huses hclaimed
    rw [hholds'.unique hvalid hmem huses] at hclaimed
    exact reportAs_wrong hvalid hholds' hclaimed other
  · intro item attempt hitem hatt
    rcases holds_run hl ⟨hitem, hatt, rfl⟩ later with
      ⟨item', attempt', hholds, hintent, hadv⟩
    rw [run_append]
    exact ⟨item', attempt', hholds.record, hholds.attempts, hintent, hholds.handle, hadv.held⟩

/-- The rejection of the sample run is acknowledged again after the alternate was issued. -/
theorem reports_acknowledged_alternateRun :
    exists next, (run step (init 8) (alternateRun.take 1)).reportAs none (List.replicate 64 0x31)
        { event := .rejected, preAcceptance := true, responseStarted := false, status := 429 } =
          .ok (next, true) ∧
      (run step next (alternateRun.drop 2)).reportAs none (List.replicate 64 0x31)
        { event := .rejected, preAcceptance := true, responseStarted := false, status := 429 } =
          .ok (run step next (alternateRun.drop 2), false) :=
  ⟨run step (init 8) (alternateRun.take 2), by decide +kernel,
    ((reports_acknowledged_for_good 8 (alternateRun.take 1) (alternateRun.drop 2)).left none _ _ _
      true (by decide +kernel)).left⟩

end Ledger

end Omux.Request
