import Omux.Domain.LeaseAccounting

/-!
# Jobs move forward

A stored job is started and ended.  Only an ended job is opened again, in the next
operation generation.
-/

namespace Omux.Domain

open Library

/-- A job ends in one of two ways, neither after the other. -/
def JobStatus.rank : JobStatus -> Nat
  | .pending => 0
  | .running => 1
  | .completed | .failed => 2

/-- The generations are compared first, within a generation the phases. -/
def Job.NotAfter (job later : Job) : Prop :=
  job.operationGeneration < later.operationGeneration ∨
    (job.operationGeneration = later.operationGeneration ∧ job.status.rank <= later.status.rank)

/-- The same job, at a later time. -/
structure Job.Leads (job later : Job) : Prop where
  notAfter : job.NotAfter later
  ended : State.jobEnded job = true -> later.operationGeneration = job.operationGeneration ->
    later = job

variable {job middle later : Job}

theorem Job.Leads.trans (h : job.Leads middle) (h' : middle.Leads later) : job.Leads later := by
  have hfirst := h.notAfter
  have hsecond := h'.notAfter
  unfold Job.NotAfter at hfirst hsecond
  constructor
  · unfold Job.NotAfter
    omega
  · intro hended hsame
    have hmiddle := h.ended hended (by omega)
    rw [hmiddle] at h'
    exact h'.ended hended hsame

namespace State

variable {s next : State} {op : Op} {id : Bytes} {input : Job}

theorem leads_of_moves (h : JobMoves op job later) : job.Leads later := by
  cases h with
  | keep => exact ⟨.inr ⟨rfl, le_rfl⟩, fun _ _ => rfl⟩
  | put hopen hforward =>
    refine ⟨.inr ⟨rfl, ?_⟩, fun hended => by simp [hopen] at hended⟩
    revert hopen hforward
    unfold jobEnded
    cases job.status <;> rename_i input <;> cases input.status <;> decide
  | start hpend =>
    refine ⟨.inr ⟨rfl, ?_⟩, fun hended => by simp [jobEnded, hpend] at hended⟩
    rw [hpend]
    exact Nat.zero_le _
  | reopen => exact ⟨.inl (Nat.lt_succ_self _), fun _ hsame => absurd hsame (Nat.succ_ne_self _)⟩

section

variable (hjob : recordAt Job.id s.jobs id = some job)
  (hlater : recordAt Job.id next.jobs id = some later)
include hjob hlater

theorem moves_of_same (hjobs : next.jobs = s.jobs) : JobMoves op job later := by
  rw [hjobs, hjob] at hlater
  cases hlater
  exact .keep _ _

theorem moves_of_change (hchange : JobChange s input next)
    (hmoves : forall i known, recordEntry Job.id s.jobs input.id = some (i, known) ->
      s.MovesJob op i known next) : JobMoves op job later := by
  rcases hchange with hsame | ⟨i, known, _, hentry, _⟩ | ⟨_, _, _, _, _, _, rfl⟩
  · exact moves_of_same hjob hlater (by rw [hsame])
  · rcases hmoves i known hentry with hsame | ⟨_, hmoved, rfl⟩
    · exact moves_of_same hjob hlater (by rw [hsame])
    · have hid := (update_of_moves hmoved).1.trans (recordEntry_eq_some hentry).2
      simp only [changed, recordAt_set hentry hid] at hlater
      split at hlater
      · rename_i hkey
        rw [hkey, recordAt, hentry] at hjob
        cases hjob
        cases hlater
        exact hmoved
      · rw [hjob] at hlater
        cases hlater
        exact .keep _ _
  · simp only [changed, recordAt_concat, hjob, Option.some_or] at hlater
    cases hlater
    exact .keep _ _

theorem attempt_moves (hs : WellFormed s) (h : s.attempt op = .ok next) :
    JobMoves op job later := by
  cases op with
  | putJob =>
    rcases map_fst_eq_ok.mp h with ⟨_, hok⟩
    exact moves_of_change hjob hlater (putJob_inv hok) (fun _ _ => putJob_moves hok)
  | reopenJob =>
    rcases map_fst_eq_ok.mp h with ⟨_, hok⟩
    exact moves_of_change hjob hlater (reopenJob_inv hok) (fun _ _ => reopenJob_moves hok)
  | forget =>
    rcases forget_inv h with ⟨_, _, _, _, _, rfl⟩
    rcases recordAt_eq_some hlater with ⟨hmem, hid⟩
    rw [recordAt_of_mem hs.jobs.distinct (List.mem_filter.mp hmem).1 hid] at hjob
    cases hjob
    exact .keep _ _
  | _ =>
    have hjobs := congrArg State.jobs (attempt_frame h)
    exact moves_of_same hjob hlater hjobs

end

theorem step_moves (hs : WellFormed s) (hjob : recordAt Job.id s.jobs id = some job)
    (hlater : recordAt Job.id (s.step op).jobs id = some later) : JobMoves op job later := by
  unfold step at hlater
  split at hlater
  · rename_i hok
    exact attempt_moves hjob hlater hs hok
  · exact moves_of_same hjob hlater rfl

theorem run_leads {ops : List Op} (hs : WellFormed s)
    (hthere : AllSteps step (fun t _ => (recordAt Job.id t.jobs id).isSome) s ops)
    (hjob : recordAt Job.id s.jobs id = some job)
    (hlater : recordAt Job.id (run step s ops).jobs id = some later) : job.Leads later := by
  induction ops generalizing s job with
  | nil =>
    rw [run_nil, hjob] at hlater
    cases hlater
    exact leads_of_moves (.keep (.detachSource id) _)
  | cons op rest ih =>
    have hnext : (recordAt Job.id (s.step op).jobs id).isSome := by
      cases rest with
      | nil =>
        rw [run_cons, run_nil] at hlater
        rw [hlater]
        rfl
      | cons => exact hthere.2.1
    rcases Option.isSome_iff_exists.mp hnext with ⟨_, hmiddle⟩
    exact (leads_of_moves (step_moves hs hjob hmiddle)).trans
      (ih (wellFormed_step op hs) hthere.2 hmiddle hlater)

/-- While it exists a job leads to its later states, and one operation at a time. -/
theorem jobs_move_forward (s : State) (hs : s.Reachable) (id : Bytes) (job later : Job)
    (hjob : recordAt Job.id s.jobs id = some job) :
    (forall ops, AllSteps step (fun t _ => (recordAt Job.id t.jobs id).isSome) s ops ->
      recordAt Job.id (run step s ops).jobs id = some later ->
      job.NotAfter later ∧ (jobEnded job = true ->
        later.operationGeneration = job.operationGeneration -> later = job)) ∧
    (forall op, recordAt Job.id (s.step op).jobs id = some later ->
      later.operationGeneration ≠ job.operationGeneration ->
      later.operationGeneration = job.operationGeneration + 1 ∧ jobEnded job = true ∧
        exists input, op = .reopenJob input) ∧
    forall input, recordAt Job.id (s.step (.putJob input)).jobs id = some later ->
      jobEnded job = true -> later = job := by
  have hwf := wellFormed_of_reachable hs
  refine ⟨?_, ?_, ?_⟩
  · intro ops hthere hlater
    have hleads := run_leads hwf hthere hjob hlater
    exact ⟨hleads.notAfter, hleads.ended⟩
  · intro op hlater hchanged
    cases step_moves hwf hjob hlater with
    | keep | put | start => exact absurd rfl hchanged
    | reopen hended => exact ⟨rfl, hended, _, rfl⟩
  · intro input hlater hended
    cases step_moves hwf hjob hlater with
    | keep => rfl
    | put hopen => simp [hopen] at hended

def endedJob : Job where
  id := [106]
  kind := .repair
  status := .completed

theorem jobs_move_forward_reopened : exists later,
    recordAt Job.id ((run step State.init [.putJob endedJob]).step
      (.reopenJob { endedJob with status := .running })).jobs [106] = some later ∧
    later.operationGeneration = 2 ∧ endedJob.NotAfter later := by
  have hjob : recordAt Job.id (run step State.init [.putJob endedJob]).jobs [106] =
      some endedJob := by
    decide +kernel
  refine ⟨{ endedJob with status := .running, operationGeneration := 2 }, by decide +kernel,
    rfl, ?_⟩
  rcases jobs_move_forward _ ⟨_, rfl⟩ [106] _ _ hjob with ⟨hrun, _⟩
  exact (hrun [.reopenJob { endedJob with status := .running }] (by decide +kernel)
    (by decide +kernel)).1

end State

end Omux.Domain
