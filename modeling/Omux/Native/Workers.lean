import Mathlib.Logic.Function.Basic
import Omux.Native.Supervisor

/-!
# The two lane workers

A worker polls the queue under the mutex, waits for a broadcast when it finds nothing,
runs a job outside the mutex and returns once the supervisor is stopping and its lane is
empty.  Any caller may enqueue, take a completed job or stop between two critical
sections.  The lists `accepted`, `started`, `finished` and `taken` record what happened.
-/

namespace Omux.Native

open Library List

variable {κ : Type}

inductive Phase (κ : Type) where
  | polling | waiting
  | running (job : Job κ) (canceledBeforeIo : Bool)
  | returned

def Phase.jobs : Phase κ -> List (Job κ)
  | .running job _ => [job]
  | .polling | .waiting | .returned => []

def Phase.woken : Phase κ -> Phase κ
  | .waiting => .polling
  | other => other

structure Workers (κ : Type) where
  supervisor : Supervisor κ
  phase : Lane -> Phase κ
  accepted : List (Job κ)
  started : List (Job κ)
  finished : List (Job κ)
  taken : List (Job κ)

inductive WorkEvent (κ : Type) where
  | enqueue (job : Job κ)
  | takeCompleted | stop
  /-- The next critical section of the worker, if it has one. -/
  | worker (lane : Lane)
  /-- A wait may end without a broadcast. -/
  | wake (lane : Lane)

def WorkEvent.drives (lane : Lane) : WorkEvent κ -> Bool
  | .worker other => other = lane
  | _ => false

namespace Workers

def create : Workers κ where
  supervisor := .create
  phase := fun _ => .polling
  accepted := []
  started := []
  finished := []
  taken := []

variable (w : Workers κ)

def broadcast : Workers κ :=
  { w with phase := fun lane => (w.phase lane).woken }

def setPhase (lane : Lane) (phase : Phase κ) : Workers κ :=
  { w with phase := Function.update w.phase lane phase }

def poll (lane : Lane) : Except Fault (Workers κ) := do
  let (selection, supervisor) <- w.supervisor.select lane
  let w := { w with supervisor }
  match selection with
  | .run job canceled =>
    pure { w.setPhase lane (.running job canceled) with started := w.started ++ [job] }
  | .wait => pure (w.setPhase lane .waiting)
  | .leave => pure (w.setPhase lane .returned)

def finish (lane : Lane) (job : Job κ) : Except Fault (Workers κ) := do
  let supervisor <- w.supervisor.complete job
  pure { w.setPhase lane .polling with
    supervisor := supervisor
    finished := w.finished ++ [job] }

def step : WorkEvent κ -> Except Fault (Workers κ)
  | .enqueue job => do
    match <- w.supervisor.enqueue job with
    | .error _ => pure w
    | .ok supervisor =>
      pure (broadcast { w with
        supervisor := supervisor
        accepted := w.accepted ++ [job] })
  | .takeCompleted => do
    let (job, supervisor) <- w.supervisor.takeCompleted
    pure { w with supervisor, taken := w.taken ++ job.toList }
  | .stop => pure (broadcast { w with supervisor := w.supervisor.stop })
  | .worker lane =>
    match w.phase lane with
    | .polling => w.poll lane
    | .running job _ => w.finish lane job
    | .waiting | .returned => pure w
  | .wake lane => pure (w.setPhase lane (w.phase lane).woken)

def execute (events : List (WorkEvent κ)) : Except Fault (Workers κ) :=
  events.foldlM step w

def active : Nat :=
  (w.phase .announcement).jobs.length + (w.phase .continuation).jobs.length

end Workers

/-!
## The invariant
-/

/-- Where every accepted job is; `queued` and `completed` are what the supervisor holds. -/
structure Workers.Accounted (w : Workers κ) (queued completed : List (Job κ)) : Prop where
  holds : w.supervisor.Holds queued w.active completed
  order : forall lane, ofLane lane w.accepted = ofLane lane w.started ++ ofLane lane queued
  runs : forall lane, ofLane lane w.started = ofLane lane w.finished ++ (w.phase lane).jobs
  finished : w.finished = w.taken ++ completed
  own : forall lane job, job ∈ (w.phase lane).jobs -> job.lane = lane
  /-- No lost wake-up: a worker waits only while there is nothing for it to do. -/
  waiting : forall lane, w.phase lane = .waiting ->
    ofLane lane queued = [] ∧ w.supervisor.stopping = false
  returned : forall lane, w.phase lane = .returned ->
    ofLane lane queued = [] ∧ w.supervisor.stopping = true

theorem jobs_woken (phase : Phase κ) : phase.woken.jobs = phase.jobs := by
  cases phase <;> rfl

theorem woken_ne_waiting (phase : Phase κ) : phase.woken ≠ .waiting := by
  cases phase <;> simp [Phase.woken]

theorem woken_eq_returned {phase : Phase κ} : phase.woken = .returned ↔ phase = .returned := by
  cases phase <;> simp [Phase.woken]

theorem drives_of_ne {lane other : Lane} (h : other ≠ lane) :
    (WorkEvent.worker lane : WorkEvent κ).drives other = false :=
  decide_eq_false h.symm

theorem ofLane_append (lane : Lane) (xs ys : List (Job κ)) :
    ofLane lane (xs ++ ys) = ofLane lane xs ++ ofLane lane ys :=
  filter_append ..

theorem ofLane_singleton (lane : Lane) (job : Job κ) :
    ofLane lane [job] = if job.lane = lane then [job] else [] := by
  by_cases h : job.lane = lane <;> simp [ofLane, Job.inLane, h]

namespace Workers

variable {w : Workers κ} {queued completed : List (Job κ)} {lane : Lane}

theorem active_broadcast (w : Workers κ) : w.broadcast.active = w.active := by
  simp [active, broadcast, jobs_woken]

theorem phase_setPhase (w : Workers κ) (lane : Lane) (phase : Phase κ) (other : Lane) :
    (w.setPhase lane phase).phase other = if other = lane then phase else w.phase other :=
  Function.update_apply ..

theorem phase_of_setPhase {other : Lane} {phase found : Phase κ}
    (h : (w.setPhase lane phase).phase other = found) (hne : phase ≠ found) :
    other ≠ lane ∧ w.phase other = found := by
  rw [phase_setPhase] at h
  split at h
  · exact absurd h hne
  · exact ⟨by assumption, h⟩

theorem jobs_setPhase {phase : Phase κ}
    (hbefore : (w.phase lane).jobs = []) (hafter : phase.jobs = []) (other : Lane) :
    ((w.setPhase lane phase).phase other).jobs = (w.phase other).jobs := by
  rw [phase_setPhase]
  split
  · rename_i hsame
    rw [hafter, hsame, hbefore]
  · rfl

theorem active_setPhase (w : Workers κ) (lane : Lane) (phase : Phase κ) :
    (w.setPhase lane phase).active + (w.phase lane).jobs.length =
      w.active + phase.jobs.length := by
  cases lane <;> simp [active, phase_setPhase] <;> omega

theorem accounted_create : (create : Workers κ).Accounted [] [] := by
  constructor
  · exact Supervisor.holds_create
  · intro lane
    rfl
  · intro lane
    rfl
  · rfl
  · nofun
  · nofun
  · nofun

/-!
## What one event does

`owed lane target` counts the steps that the worker of a lane still needs until
the first `target` accepted jobs of the lane have run.
-/

def owed (w : Workers κ) (lane : Lane) (target : Nat) : Nat :=
  2 * (target - (ofLane lane w.finished).length) - (w.phase lane).jobs.length

structure Follows (w : Workers κ) (event : WorkEvent κ) (next : Workers κ) : Prop where
  accepted : w.accepted <+: next.accepted
  owed : forall lane target, target <= (ofLane lane w.accepted).length ->
    next.owed lane target <= w.owed lane target - (if event.drives lane then 1 else 0)

variable {next : Workers κ}

theorem owed_congr (hfin : ofLane lane next.finished = ofLane lane w.finished)
    (hjobs : (next.phase lane).jobs = (w.phase lane).jobs) (target : Nat) :
    next.owed lane target = w.owed lane target := by
  rw [owed, owed, hfin, hjobs]

theorem owed_of_idle (h : w.Accounted queued completed) (hqueued : ofLane lane queued = [])
    (hjobs : (w.phase lane).jobs = []) {target : Nat}
    (htarget : target <= (ofLane lane w.accepted).length) : w.owed lane target = 0 := by
  rw [h.order, h.runs, hqueued, hjobs, append_nil, append_nil] at htarget
  rw [owed]
  omega

theorem follows_of_same {event : WorkEvent κ}
    (hacc : w.accepted <+: next.accepted) (hfin : next.finished = w.finished)
    (hjobs : forall lane, (next.phase lane).jobs = (w.phase lane).jobs)
    (hdrives : forall lane, event.drives lane = false) : w.Follows event next := by
  constructor
  · exact hacc
  · intro lane _ _
    rw [owed_congr (by rw [hfin]) (hjobs lane), hdrives lane]
    exact le_rfl

namespace Accounted

section

variable (h : w.Accounted queued completed)
include h

theorem broadcast : w.broadcast.Accounted queued completed := by
  constructor
  · rw [active_broadcast]
    exact h.holds
  · exact h.order
  · intro lane
    rw [show (w.broadcast.phase lane) = (w.phase lane).woken from rfl, jobs_woken]
    exact h.runs lane
  · exact h.finished
  · intro lane job hjob
    rw [show (w.broadcast.phase lane) = (w.phase lane).woken from rfl, jobs_woken] at hjob
    exact h.own lane job hjob
  · intro lane hwait
    exact absurd hwait (woken_ne_waiting _)
  · intro lane hleft
    exact h.returned lane (woken_eq_returned.mp hleft)

theorem enqueue (job : Job κ) : exists next queued' completed', w.step (.enqueue job) = .ok next ∧
      next.Accounted queued' completed' ∧ w.Follows (.enqueue job) next := by
  rcases h.holds.enqueue job with ⟨answer, hanswer, hcase⟩
  cases answer with
  | error =>
    refine ⟨w, queued, completed, ?_, h, ?_⟩
    · rw [step, hanswer]
      rfl
    · exact follows_of_same prefix_rfl rfl (fun _ => rfl) (fun _ => rfl)
  | ok supervisor =>
    rcases hcase with ⟨hopen, _, _, hholds⟩
    -- the broadcast is what makes the waiting worker look at the new job
    refine ⟨Workers.broadcast { w with
      supervisor := supervisor
      accepted := w.accepted ++ [job] }, queued ++ [job], completed, ?_, ?_, ?_⟩
    · rw [step, hanswer]
      rfl
    · constructor
      · rw [active_broadcast]
        exact hholds
      · intro lane
        change ofLane lane (w.accepted ++ [job]) = _
        rw [ofLane_append, ofLane_append, h.order, append_assoc]
        rfl
      · intro lane
        change _ = _ ++ (w.phase lane).woken.jobs
        rw [jobs_woken]
        exact h.runs lane
      · exact h.finished
      · intro lane other hother
        change other ∈ (w.phase lane).woken.jobs at hother
        rw [jobs_woken] at hother
        exact h.own lane other hother
      · intro lane hwait
        exact absurd hwait (woken_ne_waiting _)
      · intro lane hleft
        have hstopped := (h.returned lane (woken_eq_returned.mp hleft)).2
        rw [hopen] at hstopped
        cases hstopped
    · exact follows_of_same (prefix_append ..) rfl (fun lane => jobs_woken _) (fun _ => rfl)

theorem takeCompleted : exists next queued' completed', w.step .takeCompleted = .ok next ∧
      next.Accounted queued' completed' ∧ w.Follows .takeCompleted next := by
  cases completed with
  | nil =>
    refine ⟨w, queued, [], ?_, h, ?_⟩
    · rw [step, h.holds.takeCompleted_nil, bind_ok]
      simp only [Option.toList_none, append_nil]
      rfl
    · exact follows_of_same prefix_rfl rfl (fun _ => rfl) (fun _ => rfl)
  | cons job rest =>
    rcases h.holds.takeCompleted_cons with ⟨supervisor, htake, hstopping, hholds⟩
    refine ⟨{ w with supervisor, taken := w.taken ++ [job] },
      queued, rest, ?_, ?_, ?_⟩
    · rw [step, htake]
      rfl
    · constructor
      · exact hholds
      · exact h.order
      · exact h.runs
      · rw [h.finished, append_assoc]
        rfl
      · exact h.own
      · intro lane hwait
        rw [hstopping]
        exact h.waiting lane hwait
      · intro lane hleft
        rw [hstopping]
        exact h.returned lane hleft
    · exact follows_of_same prefix_rfl rfl (fun _ => rfl) (fun _ => rfl)

theorem stop : (Workers.broadcast { w with supervisor := w.supervisor.stop }).Accounted
      queued completed := by
  constructor
  · rw [active_broadcast]
    exact h.holds.stop
  · exact h.order
  · exact h.broadcast.runs
  · exact h.finished
  · exact h.broadcast.own
  · intro lane hwait
    exact absurd hwait (woken_ne_waiting _)
  · intro lane hleft
    exact ⟨(h.returned lane (woken_eq_returned.mp hleft)).1, rfl⟩

theorem setPhase {phase : Phase κ} (hbefore : (w.phase lane).jobs = []) (hafter : phase.jobs = [])
    (hwait : phase = .waiting -> ofLane lane queued = [] ∧ w.supervisor.stopping = false)
    (hleft : phase = .returned -> ofLane lane queued = [] ∧ w.supervisor.stopping = true) :
    (w.setPhase lane phase).Accounted queued completed := by
  have hjobs := jobs_setPhase hbefore hafter
  have hactive : (w.setPhase lane phase).active = w.active := by rw [active, active, hjobs, hjobs]
  constructor
  · rw [hactive]
    exact h.holds
  · exact h.order
  · intro other
    rw [hjobs]
    exact h.runs other
  · exact h.finished
  · intro other job hjob
    rw [hjobs] at hjob
    exact h.own other job hjob
  · intro other hphase
    rw [phase_setPhase] at hphase
    split_ifs at hphase with hsame
    · rw [hsame]
      exact hwait hphase
    · exact h.waiting other hphase
  · intro other hphase
    rw [phase_setPhase] at hphase
    split_ifs at hphase with hsame
    · rw [hsame]
      exact hleft hphase
    · exact h.returned other hphase

theorem wake (lane : Lane) : (w.setPhase lane (w.phase lane).woken).Accounted queued completed := by
  cases hphase : w.phase lane with
  | polling | waiting =>
    apply h.setPhase
    · rw [hphase]
      rfl
    · rfl
    · nofun
    · nofun
  | running job canceled =>
    have hsame : w.setPhase lane (.running job canceled) = w := by
      rw [Workers.setPhase, <- hphase, Function.update_eq_self]
    change (w.setPhase lane (.running job canceled)).Accounted queued completed
    rw [hsame]
    exact h
  | returned =>
    apply h.setPhase
    · rw [hphase]
      rfl
    · rfl
    · nofun
    · intro _
      exact h.returned lane hphase

theorem follows_of_idle (hacc : next.accepted = w.accepted) (hfin : next.finished = w.finished)
    (hjobs : forall other, (next.phase other).jobs = (w.phase other).jobs)
    (hqueued : ofLane lane queued = []) (hidle : (w.phase lane).jobs = []) :
    w.Follows (.worker lane) next := by
  constructor
  · exact hacc ▸ prefix_rfl
  · intro other _ htarget
    rw [owed_congr (by rw [hfin]) (hjobs other)]
    by_cases hsame : other = lane
    · rw [hsame] at htarget ⊢
      rw [owed_of_idle h hqueued hidle htarget]
      exact Nat.zero_le _
    · rw [drives_of_ne hsame]
      exact le_rfl

theorem poll_nil (hphase : w.phase lane = .polling) (hnone : ofLane lane queued = []) :
    exists next, w.poll lane = .ok next ∧ next.Accounted queued completed ∧
      w.Follows (.worker lane) next := by
  have hidle : (w.phase lane).jobs = [] := by
    rw [hphase]
    rfl
  cases hstop : w.supervisor.stopping with
  | true =>
    refine ⟨w.setPhase lane .returned, ?_, ?_, ?_⟩
    · rw [poll, h.holds.select_nil hnone, hstop]
      rfl
    · apply h.setPhase hidle rfl
      · nofun
      · intro _
        exact ⟨hnone, hstop⟩
    · exact h.follows_of_idle rfl rfl (jobs_setPhase hidle rfl) hnone hidle
  | false =>
    refine ⟨w.setPhase lane .waiting, ?_, ?_, ?_⟩
    · rw [poll, h.holds.select_nil hnone, hstop]
      rfl
    · apply h.setPhase hidle rfl
      · intro _
        exact ⟨hnone, hstop⟩
      · nofun
    · exact h.follows_of_idle rfl rfl (jobs_setPhase hidle rfl) hnone hidle

theorem poll_cons {job : Job κ} {rest : List (Job κ)}
    (hphase : w.phase lane = .polling) (hjobs : ofLane lane queued = job :: rest) :
    exists next left, w.poll lane = .ok next ∧ next.Accounted left completed ∧
      w.Follows (.worker lane) next := by
  have hidle : (w.phase lane).jobs = [] := by
    rw [hphase]
    rfl
  rcases h.holds.select_cons hjobs with
    ⟨supervisor, left, hselect, hstopping, hholds, rfl, rfl, hothers⟩
  let next : Workers κ :=
    { w.setPhase job.lane (.running job w.supervisor.stopping) with
      supervisor := supervisor
      started := w.started ++ [job] }
  have hactive : next.active = w.active + 1 := by
    have hset := active_setPhase w job.lane (.running job w.supervisor.stopping)
    rw [hidle] at hset
    exact hset
  have hother : forall other, other ≠ job.lane -> next.phase other = w.phase other := by
    intro other hne
    rw [phase_setPhase, if_neg hne]
  have hself : next.phase job.lane = .running job w.supervisor.stopping := by
    rw [phase_setPhase, if_pos rfl]
  refine ⟨next, left, ?_, ?_, ?_⟩
  · rw [poll, hselect]
    rfl
  · constructor
    · rw [hactive]
      exact hholds
    · intro other
      rw [ofLane_append, ofLane_singleton]
      by_cases hsame : other = job.lane
      · rw [hsame, if_pos rfl, append_assoc]
        have horder := h.order job.lane
        rw [hjobs] at horder
        exact horder
      · rw [if_neg (Ne.symm hsame), append_nil, hothers other hsame]
        exact h.order other
    · intro other
      rw [ofLane_append, ofLane_singleton, h.runs]
      by_cases hsame : other = job.lane
      · rw [hsame, if_pos rfl, hself, hidle, append_nil]
        rfl
      · rw [if_neg (Ne.symm hsame), hother other hsame, append_nil]
        rfl
    · exact h.finished
    · intro other found hfound
      by_cases hsame : other = job.lane
      · rw [hsame, hself] at hfound
        rw [mem_singleton.mp hfound, hsame]
      · rw [hother other hsame] at hfound
        exact h.own other found hfound
    · intro other hwait
      rcases phase_of_setPhase hwait (by simp) with ⟨hne, hold⟩
      rw [hothers other hne, hstopping]
      exact h.waiting other hold
    · intro other hreturned
      rcases phase_of_setPhase hreturned (by simp) with ⟨hne, hold⟩
      rw [hothers other hne, hstopping]
      exact h.returned other hold
  · constructor
    · exact prefix_rfl
    · intro other _ _
      by_cases hsame : other = job.lane
      · -- the job moves from the queue to the worker: one of its two steps is done
        subst hsame
        rw [owed, owed, hidle]
        simp [WorkEvent.drives, Phase.jobs, next, Workers.setPhase]
      · have hfin : ofLane other next.finished = ofLane other w.finished := rfl
        rw [owed_congr hfin (by rw [hother other hsame]), drives_of_ne hsame]
        exact le_rfl

theorem finish {job : Job κ} {canceled : Bool}
    (hphase : w.phase lane = .running job canceled) : exists next, w.finish lane job = .ok next ∧
      next.Accounted queued (completed ++ [job]) ∧ w.Follows (.worker lane) next := by
  have hrunning : (w.phase lane).jobs = [job] := by
    rw [hphase]
    rfl
  rcases h.own lane job (by simp [hrunning]) with rfl
  have hactive : w.active = (w.setPhase job.lane .polling).active + 1 := by
    have hset := active_setPhase w job.lane .polling
    rw [hrunning] at hset
    exact hset.symm
  have hholds := h.holds
  rw [hactive] at hholds
  rcases hholds.complete job with ⟨supervisor, hcomp, hstopping, hholds'⟩
  let next : Workers κ :=
    { w.setPhase job.lane .polling with
      supervisor := supervisor
      finished := w.finished ++ [job] }
  have hother : forall other, other ≠ job.lane -> next.phase other = w.phase other := by
    intro other hne
    rw [phase_setPhase, if_neg hne]
  have hself : next.phase job.lane = .polling := by rw [phase_setPhase, if_pos rfl]
  refine ⟨next, ?_, ?_, ?_⟩
  · rw [Workers.finish, hcomp]
    rfl
  · constructor
    · exact hholds'
    · exact h.order
    · intro other
      change ofLane other w.started = ofLane other (w.finished ++ [job]) ++ _
      rw [ofLane_append, ofLane_singleton, h.runs]
      by_cases hsame : other = job.lane
      · rw [hsame, if_pos rfl, hself, hrunning]
        simp [Phase.jobs]
      · rw [if_neg (Ne.symm hsame), hother other hsame, append_nil]
    · change w.finished ++ [job] = w.taken ++ (completed ++ [job])
      rw [h.finished, append_assoc]
    · intro other found hfound
      by_cases hsame : other = job.lane
      · rw [hsame, hself] at hfound
        cases hfound
      · rw [hother other hsame] at hfound
        exact h.own other found hfound
    · intro other hwait
      rw [hstopping]
      exact h.waiting other (phase_of_setPhase hwait (by simp)).2
    · intro other hreturned
      rw [hstopping]
      exact h.returned other (phase_of_setPhase hreturned (by simp)).2
  · constructor
    · exact prefix_rfl
    · intro other _ _
      have hgrow : ofLane other next.finished =
          ofLane other w.finished ++ ofLane other [job] := ofLane_append ..
      by_cases hsame : other = job.lane
      · subst hsame
        rw [owed, owed, hrunning, hgrow, ofLane_singleton, if_pos rfl]
        simp only [WorkEvent.drives, length_append, length_singleton, decide_true, if_true]
        omega
      · rw [ofLane_singleton, if_neg (Ne.symm hsame), append_nil] at hgrow
        rw [owed_congr hgrow (by rw [hother other hsame]), drives_of_ne hsame]
        exact le_rfl

theorem worker (lane : Lane) : exists next queued' completed', w.step (.worker lane) = .ok next ∧
      next.Accounted queued' completed' ∧ w.Follows (.worker lane) next := by
  cases hphase : w.phase lane with
  | polling =>
    have hstep : w.step (.worker lane) = w.poll lane := by simp [step, hphase]
    rw [hstep]
    cases hjobs : ofLane lane queued with
    | nil =>
      rcases h.poll_nil hphase hjobs with ⟨next, hpoll, hnext, hfol⟩
      exact ⟨next, queued, completed, hpoll, hnext, hfol⟩
    | cons =>
      rcases h.poll_cons hphase hjobs with ⟨next, left, hpoll, hnext, hfol⟩
      exact ⟨next, left, completed, hpoll, hnext, hfol⟩
  | running job canceled =>
    have hstep : w.step (.worker lane) = w.finish lane job := by simp [step, hphase]
    rw [hstep]
    rcases h.finish hphase with ⟨next, hfinish, hnext, hfol⟩
    exact ⟨next, queued, completed ++ [job], hfinish, hnext, hfol⟩
  | waiting =>
    have hidle : (w.phase lane).jobs = [] := by
      rw [hphase]
      rfl
    refine ⟨w, queued, completed, ?_, h, ?_⟩
    · simp only [step, hphase]
      rfl
    · exact h.follows_of_idle rfl rfl (fun _ => rfl) (h.waiting lane hphase).1 hidle
  | returned =>
    have hidle : (w.phase lane).jobs = [] := by
      rw [hphase]
      rfl
    refine ⟨w, queued, completed, ?_, h, ?_⟩
    · simp only [step, hphase]
      rfl
    · exact h.follows_of_idle rfl rfl (fun _ => rfl) (h.returned lane hphase).1 hidle

theorem step (event : WorkEvent κ) : exists next queued' completed', w.step event = .ok next ∧
      next.Accounted queued' completed' ∧ w.Follows event next := by
  cases event with
  | enqueue job => exact h.enqueue job
  | takeCompleted => exact h.takeCompleted
  | stop =>
    refine ⟨_, queued, completed, rfl, h.stop, ?_⟩
    exact follows_of_same prefix_rfl rfl (fun lane => jobs_woken _) (fun _ => rfl)
  | worker lane => exact h.worker lane
  | wake lane =>
    refine ⟨_, queued, completed, rfl, h.wake lane, ?_⟩
    have hjobs : forall other, ((w.setPhase lane (w.phase lane).woken).phase other).jobs =
          (w.phase other).jobs := by
      intro other
      rw [phase_setPhase]
      by_cases hsame : other = lane
      · rw [if_pos hsame, jobs_woken, hsame]
      · rw [if_neg hsame]
    exact follows_of_same prefix_rfl rfl hjobs (fun _ => rfl)

end

end Accounted

/-!
## Runs
-/

theorem execute_cons (w : Workers κ) (event : WorkEvent κ) (rest : List (WorkEvent κ)) :
    w.execute (event :: rest) = (w.step event >>= fun next => next.execute rest) :=
  foldlM_cons ..

/-- No run faults, and each step of a lane's worker pays off what the lane owes. -/
theorem Accounted.execute (h : w.Accounted queued completed) (events : List (WorkEvent κ)) :
    exists last queued' completed', w.execute events = .ok last ∧
      last.Accounted queued' completed' ∧ w.accepted <+: last.accepted ∧
      forall lane target, target <= (ofLane lane w.accepted).length ->
        last.owed lane target <=
          w.owed lane target - (events.filter (WorkEvent.drives lane)).length := by
  induction events generalizing w queued completed with
  | nil =>
    refine ⟨w, queued, completed, rfl, h, prefix_rfl, ?_⟩
    intro lane target _
    exact le_rfl
  | cons event _ ih =>
    rcases h.step event with ⟨next, queued', completed', hstep, hnext, hfol⟩
    rcases ih hnext with ⟨last, queued'', completed'', hrest, hlast, hacc, howed⟩
    refine ⟨last, queued'', completed'', ?_, hlast, hfol.accepted.trans hacc, ?_⟩
    · rw [execute_cons, hstep]
      exact hrest
    · intro lane target htarget
      have hgrows : (ofLane lane w.accepted).length <= (ofLane lane next.accepted).length :=
        (hfol.accepted.filter _).length_le
      have htail := howed lane target (htarget.trans hgrows)
      have hhead := hfol.owed lane target htarget
      rw [filter_cons]
      split_ifs at hhead ⊢ with hdrives
      · rw [length_cons]
        omega
      · omega

/-- Enough steps of a lane's worker run every job that the lane had accepted. -/
theorem Accounted.runs_all (h : w.Accounted queued completed) {events : List (WorkEvent κ)}
    (hsteps : 2 * (ofLane lane w.accepted).length <=
      (events.filter (WorkEvent.drives lane)).length) :
    exists last, w.execute events = .ok last ∧
      ofLane lane w.accepted <+: ofLane lane last.finished := by
  rcases h.execute events with ⟨last, _, _, hrun, hlast, hacc, howed⟩
  refine ⟨last, hrun, ?_⟩
  have hbound := howed lane (ofLane lane w.accepted).length (le_rfl)
  have hfin : ofLane lane last.finished <+: ofLane lane last.accepted := by
    rw [hlast.order, hlast.runs, append_assoc]
    exact prefix_append ..
  have hjobs : ((last.phase lane).jobs).length <= 1 := by
    cases last.phase lane <;> simp [Phase.jobs]
  have hlength : (ofLane lane w.accepted).length <= (ofLane lane last.finished).length := by
    simp only [owed] at hbound
    omega
  exact prefix_of_prefix_length_le (hacc.filter _) hfin hlength

/-- Once both workers have returned, the jobs not yet taken are those in the ring. -/
theorem Accounted.perm_of_returned (h : w.Accounted queued completed)
    (hreturned : forall lane, w.phase lane = .returned) :
    queued = [] ∧ w.accepted.Perm (w.taken ++ completed) := by
  have hempty : forall lane, ofLane lane queued = [] := by
    intro lane
    exact (h.returned lane (hreturned lane)).1
  have hlanes : forall lane, ofLane lane w.accepted = ofLane lane w.finished := by
    intro lane
    rw [h.order, h.runs, hempty, hreturned]
    simp [Phase.jobs]
  constructor
  · rw [eq_nil_iff_forall_not_mem]
    intro job hjob
    have hmem : job ∈ ofLane job.lane queued := by simp [ofLane, Job.inLane, hjob]
    rw [hempty] at hmem
    cases hmem
  · have hsplit : forall jobs : List (Job κ),
        (ofLane .announcement jobs ++ ofLane .continuation jobs).Perm jobs := by
      intro jobs
      have hnot : Job.inLane .continuation = fun job : Job κ => !Job.inLane .announcement job := by
        funext job
        cases hlane : job.lane <;> simp [Job.inLane, hlane]
      rw [ofLane, ofLane, hnot]
      exact filter_append_perm _ jobs
    have hfin := hsplit w.finished
    rw [<- hlanes, <- hlanes, h.finished] at hfin
    exact (hsplit w.accepted).symm.trans hfin

/-- In every run no access faults and no assertion fails, every accepted job is in
exactly one place, the jobs of a lane run once each and in the order they were
accepted, and nothing is stranded when both workers have returned. -/
theorem native_jobs_neither_lost_nor_duplicated (events : List (WorkEvent κ)) :
    exists w queued completed, (create : Workers κ).execute events = .ok w ∧
      Packs w.supervisor.queue queued ∧ w.supervisor.queueLen = queued.length ∧
      w.supervisor.completed.Holds completed ∧
      w.supervisor.outstanding = queued.length + w.active + completed.length ∧
      w.supervisor.outstanding <= workCapacity ∧
      (w.supervisor.hasCompleted = true ↔ completed ≠ []) ∧
      (forall lane, ofLane lane w.accepted = ofLane lane w.started ++ ofLane lane queued ∧
        ofLane lane w.started = ofLane lane w.finished ++ (w.phase lane).jobs) ∧
      w.finished = w.taken ++ completed ∧
      (forall lane more, 2 * (ofLane lane w.accepted).length <= (more.filter (WorkEvent.drives
        lane)).length -> exists last, w.execute more = .ok last ∧ ofLane lane w.accepted <+: ofLane
        lane last.finished) ∧
      ((forall lane, w.phase lane = .returned) ->
        queued = [] ∧ w.accepted.Perm (w.taken ++ completed)) := by
  rcases accounted_create.execute events with ⟨w, queued, completed, hrun, h, _, _⟩
  refine ⟨w, queued, completed, hrun, h.holds.queue, h.holds.queueLen, h.holds.ring,
    h.holds.outstanding, h.holds.bound, h.holds.hasCompleted_iff, ?_, h.finished, ?_, ?_⟩
  · intro lane
    exact ⟨h.order lane, h.runs lane⟩
  · intro lane more hsteps
    exact h.runs_all hsteps
  · exact h.perm_of_returned

end Workers
end Omux.Native
