import Omux.Library.Widths
import Omux.Request.Issues
import Omux.Request.Reports

/-!
# The encoded snapshot

An issue reserves what its record can ever take: the texts that never change at their
own length, the states, reports and numbers at their greatest.
-/

namespace Omux.Request

open Library List
open Native (NativeRef)

def Event.name : Event -> Bytes
  | .accepted => ascii "accepted"
  | .completed => ascii "completed"
  | .rejected => ascii "rejected"
  | .abandoned => ascii "abandoned"

def Status.name : Status -> Bytes
  | .issued => ascii "issued"
  | .accepted => ascii "accepted"
  | .completed => ascii "completed"
  | .rejected => ascii "rejected"
  | .abandoned => ascii "abandoned"
  | .unknown => ascii "unknown"

def Report.fields (report : Report) : List (Bytes × Bytes) :=
  [(ascii "event", jsonString report.event.name),
    (ascii "pre_acceptance", jsonBool report.preAcceptance),
    (ascii "response_started", jsonBool report.responseStarted),
    (ascii "status", decimal report.status)]

def Report.json (report : Report) : Bytes := jsonObject report.fields

def Attempt.fields (attempt : Attempt) : List (Bytes × Bytes) :=
  [(ascii "lease_handle", jsonSlice attempt.leaseHandle),
    (ascii "account_id", jsonSlice attempt.accountId),
    (ascii "expires_at", decimalInt attempt.expiresAt),
    (ascii "issued_sequence", decimal attempt.issuedSequence),
    (ascii "state", jsonString attempt.state.name),
    (ascii "accepted_report", jsonOption Report.json attempt.acceptedReport),
    (ascii "terminal_report", jsonOption Report.json attempt.terminalReport)]

def Attempt.json (attempt : Attempt) : Bytes := jsonObject attempt.fields

def Key.fields (key : Key) : List (Bytes × Bytes) :=
  [(ascii "application", jsonSlice key.application),
    (ascii "session_id", jsonSlice key.sessionId), (ascii "request_id", jsonSlice key.requestId)]

def Intent.fields (intent : Intent) : List (Bytes × Bytes) :=
  [(ascii "key", jsonObject intent.key.fields), (ascii "binding_id", jsonSlice intent.bindingId),
    (ascii "demand_fingerprint", jsonSlice intent.demandFingerprint),
    (ascii "native_ref", jsonOption NativeRef.json intent.nativeRef)]

def Record.fields (item : Record) : List (Bytes × Bytes) :=
  [(ascii "intent", jsonObject item.intent.fields), (ascii "first", item.first.json),
    (ascii "alternate", jsonOption Attempt.json item.alternate)]

def Record.json (item : Record) : Bytes := jsonObject item.fields

def Snapshot.json (saved : Snapshot) : Bytes :=
  jsonObject [(ascii "records", jsonArray (saved.records.map Record.json))]

/-!
## Widths
-/

theorem length_jsonSlice_le_stringReservation (value : Bytes) :
    (jsonSlice value).length <= stringReservation value :=
  length_jsonSlice_le_reserved (fun byte => of_decide_eq_true (forall_byte
    (p := fun byte => decide ((decimal byte.toNat).length <= decimalWidth byte))
    (by decide +kernel) byte)) value

theorem length_jsonBool_le (value : Bool) : (jsonBool value).length <= 5 := by
  cases value <;> decide

theorem Report.length_json_le {report : Report} (h : report.status < 2 ^ 16) :
    report.json.length <= 84 := by
  have hnames : objectOverhead (report.fields.map Prod.fst) = 58 := rfl
  have hevent : (jsonString report.event.name).length <= 11 := by cases report.event <;> decide
  have hstatus : (decimal report.status).length <= 5 :=
    (length_decimal_le_iff (by decide)).mpr (Nat.lt_trans h (by decide))
  have hpre := length_jsonBool_le report.preAcceptance
  have hstart := length_jsonBool_le report.responseStarted
  rw [Report.json, length_jsonObject_names, hnames]
  simp only [Report.fields, map_cons, map_nil, sum_cons, sum_nil]
  omega

/-- The fields of an attempt are values of their machine types. -/
structure Sized (attempt : Attempt) : Prop where
  expiry : -(2 ^ 63) <= attempt.expiresAt ∧ attempt.expiresAt < 2 ^ 63
  sequence : attempt.issuedSequence <= maximumSequence
  reports : forall event report, heldReport attempt event = some report -> report.status < 2 ^ 16

theorem length_jsonOption_le {α : Type} (encode : α -> Bytes) (value : Option α) {bound : Nat}
    (hbound : 4 <= bound) (h : forall a, value = some a -> (encode a).length <= bound) :
    (jsonOption encode value).length <= bound := by
  cases value with
  | none => exact hbound
  | some a => exact h a rfl

theorem Attempt.length_json_lt {attempt : Attempt} (hok : AttemptOk attempt)
    (hsized : Sized attempt) : attempt.json.length < attemptBytes attempt := by
  have hnames : objectOverhead (attempt.fields.map Prod.fst) = 111 := rfl
  have hhandle : (jsonSlice attempt.leaseHandle).length = 66 := by
    rw [length_jsonSlice_plain (all_isPlain (by decide +kernel) hok.handle.right), hok.handle.left]
  have hacct := length_jsonSlice_le_stringReservation attempt.accountId
  have hexpiry : (decimalInt attempt.expiresAt).length <= 1 + (decimal (2 ^ 63)).length :=
    length_decimalInt_le hsized.expiry.left (Int.le_of_lt hsized.expiry.right)
  have hwidth : (decimal (2 ^ 63)).length = 19 := by decide +kernel
  have hseq : (decimal attempt.issuedSequence).length <= 20 :=
    (length_decimal_le_iff (by decide)).mpr (Nat.lt_of_le_of_lt hsized.sequence (by decide))
  have hstate : (jsonString attempt.state.name).length <= 11 := by cases attempt.state <;> decide
  have hacc := length_jsonOption_le Report.json attempt.acceptedReport
    (by decide) (fun report h => Report.length_json_le (hsized.reports .accepted report h))
  have hterm := length_jsonOption_le Report.json attempt.terminalReport
    (by decide) (fun report h => Report.length_json_le (hsized.reports .completed report h))
  have hoverhead : attemptOverhead = 512 := rfl
  rw [Attempt.json, length_jsonObject_names, hnames, attemptBytes]
  simp only [Attempt.fields, map_cons, map_nil, sum_cons, sum_nil]
  omega

theorem Intent.length_json_le {intent : Intent} {bytes : Nat}
    (h : intentReservation intent = .ok bytes) :
    (jsonObject intent.fields).length + 154 <= bytes := by
  have hnames : objectOverhead (intent.fields.map Prod.fst) = 58 := rfl
  have hkey : objectOverhead (intent.key.fields.map Prod.fst) = 44 := rfl
  have happ := length_jsonSlice_le_stringReservation intent.key.application
  have hsession := length_jsonSlice_le_stringReservation intent.key.sessionId
  have hreq := length_jsonSlice_le_stringReservation intent.key.requestId
  have hbind := length_jsonSlice_le_stringReservation intent.bindingId
  have hdemand := length_jsonSlice_le_stringReservation intent.demandFingerprint
  simp only [intentReservation, countWithin, ok_iff, Option.ite_none_right_eq_some,
    Option.some.injEq, recordOverhead] at h
  rw [length_jsonObject_names, hnames]
  simp only [Intent.fields, map_cons]
  rw [length_jsonObject_names, hkey]
  simp only [Key.fields, map_cons, map_nil, sum_cons, sum_nil]
  omega

theorem Record.length_json_lt {item : Record} (hok : RecordOk item)
    (hsized : forall attempt, attempt ∈ item.attempts -> Sized attempt) :
    item.json.length < item.reservation := by
  have hnames : objectOverhead (item.fields.map Prod.fst) = 33 := rfl
  have hintent := Intent.length_json_le hok.reserves
  have hfirst := Attempt.length_json_lt hok.first (hsized _ (by simp [Record.attempts]))
  have halt : (jsonOption Attempt.json item.alternate).length <=
      4 + (item.alternate.toList.map attemptBytes).sum := by
    cases halt : item.alternate with
    | none => decide
    | some alternate =>
      have hsecond := Attempt.length_json_lt (hok.alternate alternate halt).attempt
        (hsized _ (by simp [Record.attempts, halt]))
      simp only [jsonOption, Option.toList_some, map_cons, sum_cons]
      omega
  rw [Record.json, length_jsonObject_names, hnames, Record.reservation, Record.attempts]
  simp only [Record.fields, map_cons, map_nil, sum_cons, sum_nil]
  omega

namespace Ledger

variable {l next : Ledger}

def AllSized (l : Ledger) : Prop :=
  forall attempt, attempt ∈ l.records.flatMap Record.attempts -> Sized attempt

theorem length_snapshot_le (hl : Valid l) (hsized : l.AllSized) :
    l.snapshot.json.length <= l.reservedSnapshotBytes := by
  have hsum : (l.records.map (fun item => item.json.length)).sum + l.records.length <=
      (l.records.map Record.reservation).sum := by
    have hle := sum_le_sum (l := l.records) (f := fun item => item.json.length + 1)
      (g := Record.reservation) (fun item hitem =>
        Record.length_json_lt (hl.each item hitem) (fun attempt hatt =>
          hsized attempt (mem_flatMap.mpr ⟨item, hitem, hatt⟩)))
    rw [sum_map_add, map_const', sum_replicate_nat, Nat.mul_one] at hle
    exact hle
  have hnames : objectOverhead [ascii "records"] = 12 := by decide
  rw [hl.reserved, Snapshot.json, length_jsonObject_names]
  simp only [map_cons, map_nil, sum_cons, sum_nil,
    length_jsonArray, map_map, length_map, Function.comp_def, snapshot, snapshotOverhead]
  omega

/-!
## Machine values
-/

/-- The arguments are values of their machine types. -/
def Op.Typed : Op -> Prop
  | .issue _ _ _ expiresAt => -(2 ^ 63) <= expiresAt ∧ expiresAt < 2 ^ 63
  | .report _ evidence | .reportForOwner _ _ _ evidence => evidence.status < 2 ^ 16
  | .recoverAfterRestart | .restore _ => True

theorem applyReport_sized {old new : Attempt} {evidence : Report} {fresh : Bool}
    (hold : Sized old) (hevidence : evidence.status < 2 ^ 16)
    (h : applyReport old evidence = .ok (new, fresh)) : Sized new := by
  have hadv := applyReport_advances h
  refine ⟨by rw [hadv.expiry]; exact hold.expiry, by rw [hadv.sequence]; exact hold.sequence, ?_⟩
  unfold applyReport at h
  split at h
  · split at h
    · cases h
      exact hold.reports
    · cases h
  · simp only [ok_iff] at h
    rcases h with ⟨_, hnext, _, _⟩
    rcases transition_stores hnext with ⟨_, _⟩
    intro event report _
    have hheld := hold.reports event report
    grind [heldReport]

theorem mem_of_mem_replace {item : Record} {leaseHandle : Bytes} {attempt new : Attempt}
    (h : attempt ∈ (item.replace leaseHandle new).attempts) :
    attempt = new ∨ attempt ∈ item.attempts := by
  unfold Record.replace at h
  split at h
  · exact (mem_cons.mp h).imp_right (mem_cons_of_mem _)
  · rcases mem_cons.mp h with hfirst | hnew
    · exact Or.inr (by rw [hfirst]; exact mem_cons_self)
    · exact Or.inl (mem_singleton.mp hnew)

theorem sized_report {leaseHandle : Bytes} {evidence : Report} {fresh : Bool} (hl : Valid l)
    (hsized : l.AllSized) (hevidence : evidence.status < 2 ^ 16)
    (h : l.applyReportForHandle leaseHandle evidence = .ok (next, fresh)) : next.AllSized := by
  rcases applyReportForHandle_ok hl h with ⟨i, item, old, _, _, hholds, happlied, rfl⟩
  have hitem : forall attempt, attempt ∈ item.attempts -> Sized attempt := fun attempt hmem =>
    hsized attempt (mem_flatMap.mpr ⟨item, hholds.record, hmem⟩)
  have hnew := applyReport_sized (hitem old hholds.attempts) hevidence happlied
  intro attempt hatt
  rcases mem_flatMap.mp hatt with ⟨other, hother, hmem⟩
  rcases mem_or_eq_of_mem_set hother with hkept | hrepl
  · exact hsized attempt (mem_flatMap.mpr ⟨other, hkept, hmem⟩)
  · rw [hrepl] at hmem
    rcases mem_of_mem_replace hmem with heq | hmem
    · rwa [heq]
    · exact hitem attempt hmem

theorem sized_issue {intent : Intent} {leaseHandle accountId : Bytes} {expiresAt : Int}
    {number : Nat} (hl : Valid l) (hsized : l.AllSized)
    (hexpiry : -(2 ^ 63) <= expiresAt ∧ expiresAt < 2 ^ 63)
    (h : l.issue intent leaseHandle accountId expiresAt = .ok (next, number)) : next.AllSized := by
  have hlast : l.lastSequence + 1 <= maximumSequence := by
    have hne := (issue_inv h).left.sequence
    rcases hl.reached with hzero | hmem
    · rw [hzero]
      decide
    · rcases mem_flatMap.mp hmem with ⟨item, hitem, hmem⟩
      rcases mem_map.mp hmem with ⟨attempt, hatt, _⟩
      have hle := (hsized attempt (mem_flatMap.mpr ⟨item, hitem, hatt⟩)).sequence
      omega
  rcases issue_split [] [] h with ⟨_, _, item, _, hold, hnext, _, hatts⟩
  intro attempt hatt
  simp only [AllSized, hold, flatMap_append, mem_append] at hsized
  simp only [hnext, flatMap_append, flatMap_cons, mem_append, hatts, mem_singleton] at hatt
  rcases hatt with hbefore | (hheld | hnew) | hafter
  · exact hsized attempt (.inl hbefore)
  · exact hsized attempt (.inr (.inl hheld))
  · rw [hnew]
    exact ⟨hexpiry, hlast, by simp [heldReport, issuedAttempt]⟩
  · exact hsized attempt (.inr (.inr hafter))

theorem sized_recover (hsized : l.AllSized) : l.recoverAfterRestart.AllSized := by
  intro _ hatt
  rcases mem_flatMap.mp hatt with ⟨_, hrecord, hmem⟩
  rcases mem_map.mp hrecord with ⟨item, hitem, rfl⟩
  have hatts : (recoverRecord item).attempts = item.attempts.map recoverAttempt := by
    cases halt : item.alternate <;> simp [recoverRecord, Record.attempts, halt]
  rw [hatts] at hmem
  rcases mem_map.mp hmem with ⟨old, hold, rfl⟩
  have hsized := hsized old (mem_flatMap.mpr ⟨item, hitem, hold⟩)
  rw [recoverAttempt]
  split
  · exact { hsized with }
  · exact hsized

theorem sized_step {op : Op} (hl : Valid l) (hsized : l.AllSized) (hop : op.Typed) :
    (l.step op).AllSized := by
  unfold step
  cases h : l.attempt op with
  | error => exact hsized
  | ok =>
    cases op with
    | issue =>
      rcases map_fst_eq_ok.mp h with ⟨_, hok⟩
      exact sized_issue hl hsized hop hok
    | report leaseHandle evidence =>
      rcases map_fst_eq_ok.mp h with ⟨_, hok⟩
      have hreport : l.reportAs none leaseHandle evidence = _ := hok
      exact sized_report hl hsized hop (applyReportForHandle_of_reportAs hreport)
    | reportForOwner application leaseHandle ref evidence =>
      rcases map_fst_eq_ok.mp h with ⟨_, hok⟩
      have hreport : l.reportAs (some (application, ref)) leaseHandle evidence = _ := hok
      exact sized_report hl hsized hop (applyReportForHandle_of_reportAs hreport)
    | recoverAfterRestart =>
      cases h
      exact sized_recover hsized
    | restore =>
      rw [(fromSnapshot_inv hl h).right]
      exact hsized

/-- Reached by operations whose arguments are values of their machine types. -/
def ReachableTyped (l : Ledger) : Prop :=
  exists capacity ops, (forall op, op ∈ ops -> Op.Typed op) ∧ l = run step (init capacity) ops

theorem snapshot_fits_partition (l : Ledger) (h : l.ReachableTyped) :
    l.snapshot.json.length <= l.reservedSnapshotBytes ∧
      l.reservedSnapshotBytes <= 4 * 1024 * 1024 ∧
      (forall leaseHandle evidence next fresh, l.report leaseHandle evidence = .ok (next, fresh) ->
        next.reservedSnapshotBytes = l.reservedSnapshotBytes) ∧
      (forall application leaseHandle ref evidence next fresh, l.reportForOwner application
        leaseHandle ref evidence = .ok (next, fresh) -> next.reservedSnapshotBytes =
        l.reservedSnapshotBytes) ∧
      l.recoverAfterRestart.reservedSnapshotBytes = l.reservedSnapshotBytes := by
  rcases h with ⟨capacity, ops, htyped, hrun⟩
  have hboth : Valid l ∧ l.AllSized := by
    rw [hrun]
    exact List.foldlRecOn (motive := fun mid => Valid mid ∧ mid.AllSized) ops step
      ⟨valid_init capacity, by intro attempt hatt; cases hatt⟩
      (fun mid hmid op hop =>
        ⟨valid_step op hmid.left, sized_step hmid.left hmid.right (htyped op hop)⟩)
  refine ⟨length_snapshot_le hboth.left hboth.right, hboth.left.fits, ?_, ?_, rfl⟩
  · intro leaseHandle evidence next fresh hreport
    rcases report_inv hreport with ⟨records, _, hnext⟩
    rw [hnext]
  · intro application leaseHandle ref evidence next fresh hreport
    rcases reportForOwner_inv hreport with ⟨records, _, hnext⟩
    rw [hnext]

theorem snapshot_fits_alternateRun : (run step (init 8) alternateRun).snapshot.json.length <=
        (run step (init 8) alternateRun).reservedSnapshotBytes ∧
      (run step (init 8) alternateRun).records.length = 1 :=
  ⟨(snapshot_fits_partition _ ⟨8, alternateRun, by simp [alternateRun, Op.Typed], rfl⟩).left,
    by decide +kernel⟩

end Ledger

end Omux.Request
