import Omux.Library.Ring

/-!
# The native work supervisor

Native requests are run by two worker threads, one for each lane.  Every definition below
that reads or writes the supervisor is one critical section of its mutex.
-/

namespace Omux.Native

open Library List

def workCapacity : Nat := 8

inductive Lane where
  | announcement | continuation
deriving DecidableEq

/-- A job as the worker sees it; `context` is the task that the job runs. -/
structure Job (κ : Type) where
  lane : Lane
  context : κ

inductive Refusal where
  | serviceStopping | nativeWorkCapacity

structure Supervisor (κ : Type) where
  queue : Cells (Job κ) workCapacity
  queueLen : Nat
  completed : Ring (Job κ) workCapacity
  outstanding : Nat
  ready : Nat
  stopping : Bool

variable {κ : Type}

def Job.inLane (lane : Lane) (job : Job κ) : Bool :=
  job.lane = lane

def ofLane (lane : Lane) (jobs : List (Job κ)) : List (Job κ) :=
  jobs.filter (Job.inLane lane)

/-- What a worker that holds the mutex decides. -/
inductive Selection (κ : Type) where
  | run (job : Job κ) (canceledBeforeIo : Bool)
  | wait | leave

namespace Supervisor

def create : Supervisor κ where
  queue := Vector.replicate workCapacity none
  queueLen := 0
  completed := Ring.empty
  outstanding := 0
  ready := 0
  stopping := false

variable (s : Supervisor κ)

def enqueue (job : Job κ) : Except Fault (Except Refusal (Supervisor κ)) :=
  if s.stopping then .ok (.error .serviceStopping)
  else if s.outstanding = workCapacity then .ok (.error .nativeWorkCapacity)
  else do
    let queue <- s.queue.store s.queueLen (some job)
    pure (.ok { s with
      queue := queue
      queueLen := s.queueLen + 1
      outstanding := s.outstanding + 1 })

def hasCompleted : Bool :=
  s.ready != 0

def takeCompleted : Except Fault (Option (Job κ) × Supervisor κ) :=
  if s.completed.length = 0 then .ok (none, s)
  else do
    let (job, completed) <- s.completed.pop
    let outstanding <- decrement s.outstanding
    pure (some job, { s with
      completed := completed
      outstanding := outstanding
      ready := completed.length })

def stop : Supervisor κ :=
  { s with stopping := true }

/-- The first half of a worker's turn: scan the queue and take out a job. -/
def select (lane : Lane) : Except Fault (Selection κ × Supervisor κ) := do
  -- the slice `queue[0..queue_len]`
  failIf (workCapacity < s.queueLen) Fault.indexOutOfRange
  match <- s.queue.scan (Job.inLane lane) 0 s.queueLen with
  | none => pure (if s.stopping then .leave else .wait, s)
  | some index =>
    let job <- unwrap (<- s.queue.load index)
    let (queue, queueLen) <- s.queue.removeAt s.queueLen index
    pure (.run job s.stopping, { s with queue, queueLen })

/-- The second half: the job has run, its result goes into the ring. -/
def complete (job : Job κ) : Except Fault (Supervisor κ) := do
  failIf (workCapacity <= s.completed.length) Fault.assertionFailed
  let completed <- s.completed.push job
  pure { s with completed, ready := completed.length }

end Supervisor

/-!
## The jobs a supervisor holds
-/

/-- The contents of the queue and of the ring, with `running` jobs at the workers. -/
structure Supervisor.Holds (s : Supervisor κ) (queued : List (Job κ)) (running : Nat)
    (completed : List (Job κ)) : Prop where
  queue : Packs s.queue queued
  queueLen : s.queueLen = queued.length
  ring : s.completed.Holds completed
  outstanding : s.outstanding = queued.length + running + completed.length
  bound : s.outstanding <= workCapacity
  ready : s.ready = completed.length

theorem workCapacity_pos : 0 < workCapacity := by
  decide

namespace Supervisor

theorem holds_create : (create : Supervisor κ).Holds [] 0 [] := by
  constructor
  · exact packs_empty
  · rfl
  · exact Ring.holds_empty workCapacity_pos
  · rfl
  · exact Nat.zero_le _
  · rfl

namespace Holds

variable {s : Supervisor κ} {queued completed : List (Job κ)} {running : Nat}

theorem hasCompleted_iff (h : s.Holds queued running completed) :
    s.hasCompleted = true ↔ completed ≠ [] := by
  simp [hasCompleted, h.ready]

theorem enqueue (h : s.Holds queued running completed) (job : Job κ) :
    exists answer, s.enqueue job = .ok answer ∧
      match answer with
      | .error .serviceStopping => s.stopping = true
      | .error .nativeWorkCapacity => s.stopping = false ∧ s.outstanding = workCapacity
      | .ok s' => s.stopping = false ∧ s'.stopping = false ∧
          s.outstanding < workCapacity ∧ s'.Holds (queued ++ [job]) running completed := by
  by_cases hstop : s.stopping = true
  · refine ⟨.error .serviceStopping, ?_, hstop⟩
    rw [Supervisor.enqueue, if_pos hstop]
  · have hrunning : s.stopping = false := Bool.eq_false_of_not_eq_true hstop
    by_cases hfull : s.outstanding = workCapacity
    · refine ⟨.error .nativeWorkCapacity, ?_, hrunning, hfull⟩
      rw [Supervisor.enqueue, if_neg hstop, if_pos hfull]
    · have hbound := h.bound
      have hsum := h.outstanding
      have hroom : queued.length < workCapacity := by omega
      refine ⟨.ok { s with
        queue := s.queue.set queued.length (some job) hroom
        queueLen := s.queueLen + 1
        outstanding := s.outstanding + 1 }, ?_, hrunning, hrunning, by omega, ?_⟩
      · rw [Supervisor.enqueue, if_neg hstop, if_neg hfull, h.queueLen,
          Cells.store_ok s.queue hroom]
        rfl
      · constructor
        · exact h.queue.append hroom job
        · simp [h.queueLen]
        · exact h.ring
        · simp only [length_append, length_singleton]
          omega
        · change s.outstanding + 1 <= workCapacity
          omega
        · exact h.ready

theorem takeCompleted_nil (h : s.Holds queued running []) : s.takeCompleted = .ok (none, s) := by
  have hlength : s.completed.length = 0 := h.ring.length
  rw [Supervisor.takeCompleted, if_pos hlength]

theorem takeCompleted_cons {job : Job κ} (h : s.Holds queued running (job :: completed)) :
    exists s', s.takeCompleted = .ok (some job, s') ∧ s'.stopping = s.stopping ∧
      s'.Holds queued running completed := by
  have hlength : s.completed.length = completed.length + 1 := h.ring.length
  have hsum := h.outstanding
  have hbound := h.bound
  rw [length_cons] at hsum
  rcases h.ring.pop with ⟨ring, hpop, hring⟩
  refine ⟨{ s with
    completed := ring
    outstanding := s.outstanding - 1
    ready := ring.length }, ?_, rfl, ?_⟩
  · rw [Supervisor.takeCompleted, if_neg (by omega), hpop]
    simp only [decrement_of_pos (show 0 < s.outstanding by omega)]
    rfl
  · constructor
    · exact h.queue
    · exact h.queueLen
    · exact hring
    · change s.outstanding - 1 = _
      omega
    · change s.outstanding - 1 <= _
      omega
    · exact hring.length

section

variable (h : s.Holds queued running completed)
include h

theorem stop : s.stop.Holds queued running completed :=
  { h with }

theorem scan_guard :
    failIf (decide (workCapacity < s.queueLen)) Fault.indexOutOfRange = .ok () := by
  have hfits := h.queue.fits
  rw [failIf_eq_ok, decide_eq_false_iff_not, h.queueLen]
  omega

theorem scan_eq (lane : Lane) :
    s.queue.scan (Job.inLane lane) 0 s.queueLen = .ok (queued.findIdx? (Job.inLane lane)) := by
  rw [h.queue.scan_eq (Job.inLane lane) (by rw [Nat.zero_add, h.queueLen])]
  simp

theorem select_nil {lane : Lane} (hnone : ofLane lane queued = []) :
    s.select lane = .ok (if s.stopping then .leave else .wait, s) := by
  have hscan : queued.findIdx? (Job.inLane lane) = none := by
    rw [ofLane, filter_eq_nil_iff] at hnone
    rw [findIdx?_eq_none_iff]
    intro job hjob
    simpa using hnone job hjob
  rw [select, h.scan_guard, h.scan_eq, hscan]
  rfl

/-- Otherwise it takes the first job of its lane and leaves the other lane alone. -/
theorem select_cons {lane : Lane} {job : Job κ} {rest : List (Job κ)}
    (hjobs : ofLane lane queued = job :: rest) :
    exists s' left, s.select lane = .ok (.run job s.stopping, s') ∧
      s'.stopping = s.stopping ∧ s'.Holds left (running + 1) completed ∧
      ofLane lane left = rest ∧ job.lane = lane ∧
      forall other, other ≠ lane -> ofLane other left = ofLane other queued := by
  cases hscan : queued.findIdx? (Job.inLane lane) with
  | none =>
    rw [ofLane, filter_eq_nil_of_findIdx? hscan] at hjobs
    cases hjobs
  | some index =>
    rcases filter_eraseIdx_findIdx? hscan with ⟨found, hfound, hlane, hfilter, hothers⟩
    rw [ofLane, hfilter, List.cons.injEq] at hjobs
    rcases hjobs with ⟨rfl, hrest⟩
    have hindex : index < queued.length := (List.getElem?_eq_some_iff.mp hfound).1
    have hfits := h.queue.fits
    have hsum := h.outstanding
    rcases h.queue.removeAt hindex with ⟨cells, hremove, hcells⟩
    refine ⟨{ s with queue := cells, queueLen := queued.length - 1 },
      queued.eraseIdx index, ?_, rfl, ?_, hrest, by simpa [Job.inLane] using hlane, ?_⟩
    · rw [select, h.scan_guard, bind_ok, h.scan_eq, bind_ok, hscan]
      simp only [h.queue.load_eq (Nat.lt_of_lt_of_le hindex hfits), hfound, h.queueLen, hremove]
      rfl
    · refine { h with queue := ?_, queueLen := ?_, outstanding := ?_ }
      · exact hcells
      · exact (length_eraseIdx_of_lt hindex).symm
      · rw [length_eraseIdx_of_lt hindex]
        change s.outstanding = _
        omega
    · intro other hother
      apply hothers
      have hfoundLane : found.lane = lane := by simpa [Job.inLane] using hlane
      simp only [Job.inLane, hfoundLane, bool_iff]
      exact fun hcontra => hother hcontra.symm

end

/-- The ring has room for every running job, so the assertion holds. -/
theorem complete (h : s.Holds queued (running + 1) completed) (job : Job κ) :
    exists s', s.complete job = .ok s' ∧ s'.stopping = s.stopping ∧
      s'.Holds queued running (completed ++ [job]) := by
  have hsum := h.outstanding
  have hbound := h.bound
  have hroom : completed.length < workCapacity := by omega
  have hguard : decide (workCapacity <= s.completed.length) = false := by
    rw [decide_eq_false_iff_not, h.ring.length]
    omega
  rcases h.ring.push hroom job with ⟨ring, hpush, hring⟩
  refine ⟨{ s with completed := ring, ready := ring.length }, ?_, rfl, ?_⟩
  · rw [Supervisor.complete, hguard, hpush]
    rfl
  · refine { h with ring := ?_, outstanding := ?_, ready := ?_ }
    · exact hring
    · rw [length_append, length_singleton]
      change s.outstanding = _
      omega
    · exact hring.length

end Holds
end Supervisor
end Omux.Native
