import Mathlib.Data.List.MinMax
import Omux.Request.NoReplay

/-!
# The latest issue of a binding

An alternate is issued after younger records, so the order of the records is not the
order of the issues; the sequence numbers are.
-/

namespace Omux.Request

open Library List

def Attempt.issue (attempt : Attempt) : Nat × Bytes :=
  (attempt.issuedSequence, attempt.leaseHandle)

def Intent.belongsTo (application bindingId : Bytes) (intent : Intent) : Bool :=
  intent.key.application == application && intent.bindingId == bindingId

namespace Ledger

def issuesFor (application bindingId : Bytes) (records : List Record) : List (Nat × Bytes) :=
  (records.filter (fun item => item.intent.belongsTo application bindingId)).flatMap
    (fun item => item.attempts.map Attempt.issue)

variable {application bindingId : Bytes}

theorem foldl_laterAttempt (attempts : List Attempt) (latest : Option Attempt) :
    (attempts.foldl laterAttempt latest).map Attempt.issue =
      (attempts.map Attempt.issue).foldl (List.argAux (fun b c => c.1 < b.1))
        (latest.map Attempt.issue) := by
  rw [foldl_map]
  refine (foldl_hom (Option.map Attempt.issue) (fun latest attempt => ?_)).symm
  cases latest with
  | none => rfl
  | some held =>
    by_cases h : held.issuedSequence < attempt.issuedSequence
      <;> simp [laterAttempt, List.argAux, Attempt.issue, h]

theorem latestHandleForBinding_eq (l : Ledger) (application bindingId : Bytes) :
    l.latestHandleForBinding application bindingId =
      ((issuesFor application bindingId l.records).argmax Prod.fst).map Prod.snd := by
  have hrecs : forall (records : List Record) (latest : Option Attempt),
      (records.foldl (fun latest item =>
        if item.intent.belongsTo application bindingId then
          item.attempts.foldl laterAttempt latest
        else latest) latest).map Attempt.issue =
      (issuesFor application bindingId records).foldl (List.argAux (fun b c => c.1 < b.1))
        (latest.map Attempt.issue) := by
    intro records
    induction records with
    | nil => exact fun _ => rfl
    | cons item _ ih =>
      intro latest
      rw [foldl_cons, ih, issuesFor, issuesFor, filter_cons]
      split
      · rw [flatMap_cons, foldl_append, foldl_laterAttempt]
      · rfl
  have hmax : (issuesFor application bindingId l.records).argmax Prod.fst = _ :=
    (hrecs l.records none).symm
  rw [hmax, Option.map_map]
  rfl

theorem sequence_of_issue {issue : Nat × Bytes} {records : List Record}
    (h : issue ∈ issuesFor application bindingId records) :
    issue.1 ∈ records.flatMap Record.sequences := by
  rcases mem_flatMap.mp h with ⟨item, hitem, hissue⟩
  rcases mem_map.mp hissue with ⟨_, hatt, rfl⟩
  exact mem_flatMap.mpr ⟨item, mem_of_mem_filter hitem, mem_map_of_mem hatt⟩

theorem issuesFor_advances {old new : List Record} (h : List.Forall₂ RecordAdvances old new) :
    issuesFor application bindingId new = issuesFor application bindingId old := by
  induction h with
  | nil => rfl
  | cons hhead _ ih =>
    have hissues := map_attempts_of_advances (f := Attempt.issue)
      (fun _ _ h => by rw [Attempt.issue, h.sequence, h.handle, Attempt.issue]) hhead
    simp only [issuesFor, filter_cons, hhead.intent] at ih ⊢
    split
    · rw [flatMap_cons, flatMap_cons, hissues, ih]
    · exact ih

/-- The newest issue is the latest wherever its record is. -/
theorem argmax_newest {older younger : List (Nat × Bytes)} {new : Nat × Bytes}
    (h : forall issue, issue ∈ older ++ younger -> issue.1 < new.1) :
    (older ++ new :: younger).argmax Prod.fst = some new := by
  cases hmax : (older ++ new :: younger).argmax Prod.fst with
  | none => simp at hmax
  | some found =>
    have hle := not_lt_of_mem_argmax (a := new) (by simp) hmax
    have hmem := argmax_mem hmax
    rw [mem_append, mem_cons, or_left_comm] at hmem
    rcases hmem with hsame | hother
    · rw [hsame]
    · exact absurd (h found (mem_append.mpr hother)) hle

variable {l next : Ledger} {intent : Intent} {leaseHandle accountId : Bytes} {expiresAt : Int}
  {number : Nat}

/-- An issue adds its attempt to a record that has nothing yet, or to its first attempt. -/
theorem issue_split (application bindingId : Bytes)
    (h : l.issue intent leaseHandle accountId expiresAt = .ok (next, number)) :
    exists before old item after, l.records = before ++ (old ++ after) ∧
      next.records = before ++ item :: after ∧
      (forall other, other ∈ item :: old -> other.intent.belongsTo application bindingId =
        intent.belongsTo application bindingId) ∧
      item.attempts = old.flatMap Record.attempts ++
        [l.issuedAttempt leaseHandle accountId expiresAt] := by
  rcases issue_inv h with ⟨_, hfirst | halt⟩
  · rcases hfirst.right.reserves with ⟨_, _, _, hnext⟩
    refine ⟨l.records, [], _, [], by simp, by rw [hnext], ?_, rfl⟩
    intro other hother
    rw [mem_singleton.mp hother]
  · rcases halt with ⟨_, i, held, hissues⟩
    rcases firstEntry_split hissues.entry with ⟨before, after, hsplit, hlen, _, _⟩
    rcases recordEntry_eq_some hissues.entry with ⟨_, hkey⟩
    have hsame : held.intent.belongsTo application bindingId =
        intent.belongsTo application bindingId := by
      rw [Intent.belongsTo, Intent.belongsTo, hissues.binding, <- hkey, Record.key]
    refine ⟨before, [held], _, after, hsplit,
      by rw [hissues.result, hsplit, <- hlen, set_at_split], ?_, ?_⟩
    · intro other hother
      rcases mem_pair.mp hother with hitem | hheld
      · rw [hitem, hsame]
      · rw [hheld, hsame]
    · simp [Record.attempts, hissues.unused]

def issued (l : Ledger) : Op -> List (Intent × Bytes)
  | .issue intent leaseHandle accountId expiresAt =>
    match l.issue intent leaseHandle accountId expiresAt with
    | .ok _ => [(intent, leaseHandle)]
    | .error _ => []
  | _ => []

def lastIssued (application bindingId : Bytes) (issues : List (Intent × Bytes)) : Option Bytes :=
  (issues.filter (fun issue => issue.1.belongsTo application bindingId)).getLast?.map Prod.snd

theorem latest_issue (hl : Valid l) {issues : List (Intent × Bytes)}
    (hlast : l.latestHandleForBinding application bindingId =
      lastIssued application bindingId issues)
    (h : l.issue intent leaseHandle accountId expiresAt = .ok (next, number)) :
    next.latestHandleForBinding application bindingId =
      lastIssued application bindingId (issues ++ [(intent, leaseHandle)]) := by
  rcases issue_split application bindingId h with
    ⟨before, old, item, after, hold, hnext, hsame, hatts⟩
  have hitem := hsame item mem_cons_self
  rw [latestHandleForBinding_eq] at hlast ⊢
  rw [lastIssued]
  cases hmatch : intent.belongsTo application bindingId with
  | true =>
    rw [hmatch] at hsame hitem
    have hfilter : old.filter (fun other => other.intent.belongsTo application bindingId) = old :=
      filter_eq_self.mpr (fun other hother => hsame other (mem_cons_of_mem item hother))
    have hissues : issuesFor application bindingId next.records =
        (issuesFor application bindingId before ++ issuesFor application bindingId old) ++
          (l.issuedAttempt leaseHandle accountId expiresAt).issue ::
            issuesFor application bindingId after := by
      simp [hnext, issuesFor, hitem, hfilter, hatts, map_flatMap]
    rw [hissues, argmax_newest]
    · simp [hmatch, Attempt.issue, issuedAttempt]
    · intro _ hissue
      apply Nat.lt_succ_of_le
      apply hl.latest
      apply sequence_of_issue
      simpa [hold, issuesFor] using hissue
  | false =>
    rw [hmatch] at hsame hitem
    have hfilter : old.filter (fun other => other.intent.belongsTo application bindingId) = [] :=
      filter_eq_nil_iff.mpr (fun other hother =>
        by simp [hsame other (mem_cons_of_mem item hother)])
    have hissues : issuesFor application bindingId next.records =
        issuesFor application bindingId l.records := by
      simp [hnext, hold, issuesFor, hitem, hfilter]
    rw [hissues, hlast]
    simp [lastIssued, hmatch]

theorem issued_eq_nil {op : Op} (h : forall key, issuedFor key l op = 0) : issued l op = [] := by
  unfold issued
  split
  · rename_i intent leaseHandle accountId expiresAt
    split
    · rename_i hissue
      have hone := h intent.key
      simp [issuedFor, hissue] at hone
    · rfl
  · rfl

theorem latest_step (hl : Valid l) {issues : List (Intent × Bytes)}
    (hlast : l.latestHandleForBinding application bindingId =
      lastIssued application bindingId issues) (op : Op) :
    (l.step op).latestHandleForBinding application bindingId =
      lastIssued application bindingId (issues ++ issued l op) := by
  unfold step
  cases h : l.attempt op with
  | ok =>
    rcases attempt_cases hl h with hissue | hother
    · rcases hissue with ⟨_, _, _, _, _, rfl, hok⟩
      rw [issued, hok]
      exact latest_issue hl hlast hok
    · rcases hother with ⟨hnone, _, _, hadv, _, rfl⟩
      rw [issued_eq_nil hnone, append_nil, <- hlast]
      rw [latestHandleForBinding_eq, latestHandleForBinding_eq, issuesFor_advances hadv]
  | error _ =>
    have hnone : issued l op = [] := by
      unfold issued
      split
      · split
        · rename_i hissue
          rw [attempt, hissue] at h
          cases h
        · rfl
      · rfl
    rw [hnone, append_nil]
    exact hlast

theorem latest_handle_is_last_issued (capacity : Nat) (ops : List Op)
    (application bindingId : Bytes) :
    (run step (init capacity) ops).latestHandleForBinding application bindingId =
        lastIssued application bindingId (log step issued (init capacity) ops) ∧
      ((run step (init capacity) ops).latestHandleForBinding application bindingId = none ↔
        forall issue, issue ∈ log step issued (init capacity) ops ->
          issue.1.belongsTo application bindingId = false) := by
  have hrun : Valid (run step (init capacity) ops) ∧
      (run step (init capacity) ops).latestHandleForBinding application bindingId =
        lastIssued application bindingId ([] ++ log step issued (init capacity) ops) :=
    log_invariant (P := fun mid issues => Valid mid ∧
        mid.latestHandleForBinding application bindingId = lastIssued application bindingId issues)
      (fun mid issues op hmid => ⟨valid_step op hmid.left, latest_step hmid.left hmid.right op⟩)
      ⟨valid_init capacity, rfl⟩ ops
  rw [hrun.right]
  simp [lastIssued]

end Ledger

end Omux.Request
