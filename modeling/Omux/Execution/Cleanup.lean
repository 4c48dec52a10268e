import Omux.Library.Dialogue
import Mathlib.Algebra.Order.Ring.Rat
import Mathlib.Tactic.Linarith

/-!
# Cleanup of an owned workload

`cleanup_owned` retries a readback of the unit until its caller accepts it, stops the unit
once and waits for the original cgroup to be empty, all within one absolute deadline.
-/

namespace Omux.Execution

open Library Dialogue List

inductive Observed where
  | empty | absent | changed | unproved | other
deriving DecidableEq

inductive Call (ρ : Type) where
  | clock | observe
  | readback (timeout deadline : ℚ)
  | authorize (actual : ρ)
  | stop (timeout deadline : ℚ)
  | pause (seconds : ℚ)

variable {ρ : Type}

/-- `none` is an exception that the call's handler catches; `authorize` answers `false` for
`False` and `true` for any other value. -/
@[reducible] def Call.Answer : Call ρ -> Type
  | .clock => ℚ
  | .observe => Option Observed
  | .readback _ _ => Option ρ
  | .authorize _ => Option Bool
  | .stop _ _ => Option Unit
  | .pause _ => Unit

def Call.isReadback : Call ρ -> Bool
  | .readback _ _ => true
  | _ => false

def Call.isStop : Call ρ -> Bool
  | .stop _ _ => true
  | _ => false

abbrev Log (ρ : Type) := List (Sigma (Call.Answer (ρ := ρ)))

inductive CleanupState where
  | unproved | empty | originalChanged | originalUnproved | deadlineExhausted
deriving DecidableEq

inductive StopState where
  | notRequested | unresolved | succeeded
deriving DecidableEq

inductive Ownership where
  | unproved | verified | refused
deriving DecidableEq

structure Summary where
  state : CleanupState := .unproved
  stop : StopState := .notRequested
  ownership : Ownership := .unproved
  readbackAttempts : Nat := 0
deriving DecidableEq

abbrev Program (ρ : Type) := Dialogue (Call.Answer (ρ := ρ)) Summary

def cleanupReadSeconds : ℚ := 2

def controllerTimeout : ℚ := 15

/-- The keyword arguments, the calls as one answering function; the clock never goes back. -/
structure Callbacks (ρ : Type) where
  deadline : ℚ
  answer : (q : Call ρ) -> Log ρ -> q.Answer
  ordered : forall log now, ⟨.clock, now⟩ ∈ log -> now <= answer .clock log

namespace Callbacks

section

variable (c : Callbacks ρ)

/-- An observation, and `next` unless it is terminal. -/
def observed (summary : Summary) (next : Program ρ) : Program ρ :=
  .call .observe (fun seen => .call .clock (fun now =>
    if c.deadline <= now then
      .done { summary with state := .deadlineExhausted }
    else
      match seen.getD .unproved with
      | .empty | .absent => .done { summary with state := .empty }
      | .changed => .done { summary with state := .originalChanged }
      | .unproved => .done { summary with state := .originalUnproved }
      | .other => next))

def paused (next : Program ρ) : Program ρ :=
  .call .clock (fun now =>
    if 0 < c.deadline - now then .call (.pause (min (1 / 10) (c.deadline - now))) (fun _ => next)
    else next)

/-- The second loop. -/
def awaitEmpty (summary : Summary) (fuel : Nat) : Program ρ :=
  .call .clock (fun now =>
    if now < c.deadline then
      match fuel with
      | 0 => .cut
      | fuel + 1 => c.observed summary (c.paused (awaitEmpty summary fuel))
    else
      .done { summary with state := .deadlineExhausted })

/-- The rest of a round of the first loop after its readback was accepted; `leave` goes to
the second loop and does not come back. -/
def stopOwned (summary : Summary) (leave : Summary -> Program ρ) : Program ρ :=
  .call .clock (fun now =>
    if c.deadline <= now then leave summary
    else c.observed summary (.call .clock (fun now =>
      -- Leave room for an independent empty observation after an uncertain stop.
      if c.deadline - now <= 1 / 10 then leave summary
      else .call (.stop (min controllerTimeout (c.deadline - now - 1 / 10)) c.deadline) (fun
        | some _ => leave { summary with stop := .succeeded }
        | none => leave { summary with stop := .unresolved }))))

/-- The first loop; `rounds` bounds the rounds that are followed. -/
def cleanupLoop (leave : Summary -> Program ρ) (rounds : Nat) (summary : Summary) : Program ρ :=
  .call .clock (fun now =>
    if now < c.deadline ∧ summary.readbackAttempts < 8 then
      match rounds with
      | 0 => .cut
      | rounds + 1 => c.observed summary (.call .clock (fun now =>
        if c.deadline - now <= 0 then leave summary
        else
          let summary := { summary with readbackAttempts := summary.readbackAttempts + 1 }
          .call (.readback (min cleanupReadSeconds (c.deadline - now)) c.deadline) (fun
            | none => c.paused (cleanupLoop leave rounds summary)
            | some actual => .call .clock (fun now =>
              if c.deadline <= now then leave summary
              else .call (.authorize actual) (fun
                | none => leave { summary with ownership := .refused }
                | some false => cleanupLoop leave rounds summary
                | some true => c.stopOwned { summary with ownership := .verified } leave)))))
    else leave summary)

def cleanupOwned (fuel : Nat) : Program ρ :=
  c.cleanupLoop (fun summary => c.awaitEmpty summary fuel) fuel {}

/-!
## What a run may do
-/

/-- The last event is a reading of the clock, and none has reached the deadline. -/
def Early (log : Log ρ) : Prop :=
  exists now older, log = ⟨.clock, now⟩ :: older ∧ forall t, ⟨.clock, t⟩ ∈ log -> t < c.deadline

def NoStop (log : Log ρ) : Prop :=
  forall e, e ∈ log -> e.1.isStop = false

def readbacks (log : Log ρ) : Nat :=
  log.countP (fun e => e.1.isReadback)

/-- The latest readback was accepted, and the workload was there when it was observed later. -/
def Verified (log : Log ρ) : Prop :=
  exists later actual between timeout earlier,
    log = later ++ ⟨.authorize actual, some true⟩ ::
      (between ++ ⟨.readback timeout c.deadline, some actual⟩ :: earlier) ∧
    (forall e, e ∈ later ++ between -> e.1.isReadback = false) ∧
    ⟨.observe, some .other⟩ ∈ later

/-- What has happened before a call. -/
def Permitted : Call ρ -> Log ρ -> Prop
  | .clock, _ => True
  | .readback _ _, log => c.Early log ∧ NoStop log ∧ readbacks log < 8
  | .stop _ _, log => c.Early log ∧ NoStop log ∧ c.Verified log
  | _, log => c.Early log

def Owned (summary : Summary) (log : Log ρ) : Prop :=
  summary.ownership = .verified -> exists actual, ⟨.authorize actual, some true⟩ ∈ log

/-- Between two calls; a stop is possible only when `stopped`. -/
structure Ongoing (stopped : Bool) (summary : Summary) (log : Log ρ) : Prop where
  conforms : Conforms c.Permitted log
  attempts : readbacks log = summary.readbackAttempts
  owned : Owned summary log
  idle : stopped = false -> NoStop log

/-- The clock had not reached the deadline after an observation of an empty cgroup. -/
def SeenEmpty (log : Log ρ) : Prop :=
  exists newer now state older,
    log = newer ++ ⟨.clock, now⟩ :: ⟨.observe, some state⟩ :: older ∧ now < c.deadline ∧
    (state = .empty ∨ state = .absent)

/-- A run that was not followed to its end has time left. -/
def Ends (next : Program ρ) (log : Log ρ) : Prop :=
  Conforms c.Permitted (next.run c.answer log).2 ∧
    match next.run c.answer log with
    | (some summary, log) => Owned summary log ∧ (summary.state = .empty -> c.SeenEmpty log)
    | (none, log) => c.Early log

end

variable {c : Callbacks ρ} {stopped : Bool} {summary : Summary} {log : Log ρ} {next : Program ρ}

theorem call_ends {q : Call ρ} {next : q.Answer -> Program ρ}
    (h : forall a, c.Ends (next a) (⟨q, a⟩ :: log)) : c.Ends (.call q next) log :=
  h _

namespace Ongoing

variable (h : c.Ongoing stopped summary log)
include h

theorem push {q : Call ρ} (hq : c.Permitted q log) (hreadback : q.isReadback = false)
    (hstop : stopped = false -> q.isStop = false) (a : q.Answer) :
    c.Ongoing stopped summary (⟨q, a⟩ :: log) where
  conforms := ⟨hq, h.conforms⟩
  attempts := by simpa [readbacks, countP_cons, hreadback] using h.attempts
  owned howned := (h.owned howned).imp (fun _ hmem => mem_cons_of_mem _ hmem)
  idle hidle := forall_mem_cons.mpr ⟨hstop hidle, h.idle hidle⟩

theorem left : c.Ongoing true summary log :=
  { h with idle := nofun }

theorem ends {state : CleanupState} (hstate : state ≠ .empty) :
    c.Ends (.done { summary with state }) log :=
  ⟨h.conforms, h.owned, fun hempty => absurd hempty hstate⟩

/-- A reading before the deadline is early, since no earlier one is greater. -/
theorem clock_ends {next : ℚ -> Program ρ}
    (hnext : forall now, c.Ongoing stopped summary (⟨.clock, now⟩ :: log) ->
      (now < c.deadline -> c.Early (⟨.clock, now⟩ :: log)) ->
      c.Ends (next now) (⟨.clock, now⟩ :: log)) : c.Ends (.call .clock next) log := by
  refine hnext _ (h.push (q := .clock) trivial rfl (fun _ => rfl) _)
    (fun htime => ⟨_, _, rfl, fun t ht => ?_⟩)
  rcases mem_cons.mp ht with hsame | hmem
  · cases hsame
    exact htime
  · exact (c.ordered log t hmem).trans_lt htime

theorem observed_ends (hearly : c.Early log)
    (hnext : forall now,
      c.Ongoing stopped summary (⟨.clock, now⟩ :: ⟨.observe, some .other⟩ :: log) ->
      c.Ends next (⟨.clock, now⟩ :: ⟨.observe, some .other⟩ :: log)) :
    c.Ends (c.observed summary next) log := by
  refine call_ends (fun seen => (h.push (q := .observe) hearly rfl (fun _ => rfl) seen).clock_ends
    (fun now hnow _ => ?_))
  split_ifs with hlate
  · exact hnow.ends (by simp)
  cases seen with
  | none => exact hnow.ends (by simp)
  | some state =>
    cases state with
    | empty | absent =>
      exact ⟨hnow.conforms, hnow.owned, fun _ => ⟨[], now, _, log, rfl, not_le.mp hlate, by simp⟩⟩
    | changed | unproved => exact hnow.ends (by simp)
    | other => exact hnext now hnow

theorem paused_ends (hnext : forall log, c.Ongoing stopped summary log -> c.Ends next log) :
    c.Ends (c.paused next) log := by
  refine h.clock_ends (fun _ hnow hearly => ?_)
  split_ifs with hleft
  · refine call_ends (fun a => hnext _ (hnow.push (q := .pause _) ?_ rfl (fun _ => rfl) a))
    exact hearly (sub_pos.mp hleft)
  · exact hnext _ hnow

end Ongoing

theorem awaitEmpty_ends (fuel : Nat) (h : c.Ongoing true summary log) :
    c.Ends (c.awaitEmpty summary fuel) log := by
  induction fuel generalizing log with
  | zero =>
    refine h.clock_ends (fun now hnow hearly => ?_)
    split_ifs with htime
    · exact ⟨hnow.conforms, hearly htime⟩
    · exact hnow.ends (by simp)
  | succ fuel ih =>
    refine h.clock_ends (fun now hnow hearly => ?_)
    split_ifs with htime
    · exact hnow.observed_ends (hearly htime) (fun _ hseen => hseen.paused_ends (fun _ => ih))
    · exact hnow.ends (by simp)

section

variable {leave : Summary -> Program ρ}
  (hleave : forall summary log, c.Ongoing true summary log -> c.Ends (leave summary) log)
include hleave

theorem stopOwned_ends {actual : ρ} {timeout before : ℚ} {older : Log ρ}
    (hlog : log = ⟨.authorize actual, some true⟩ :: ⟨.clock, before⟩ ::
      ⟨.readback timeout c.deadline, some actual⟩ :: older)
    (h : c.Ongoing false summary log) : c.Ends (c.stopOwned summary leave) log := by
  refine h.clock_ends (fun now hnow hearly => ?_)
  split_ifs with hlate
  · exact hleave _ _ hnow.left
  refine hnow.observed_ends (hearly (not_le.mp hlate))
    (fun later hseen => hseen.clock_ends (fun last hlast hearly => ?_))
  split_ifs with hleft
  · exact hleave _ _ hlast.left
  refine call_ends (fun stopped => ?_)
  have hverif : c.Verified (⟨.clock, last⟩ :: ⟨.clock, later⟩ ::
      ⟨.observe, some .other⟩ :: ⟨.clock, now⟩ :: log) :=
    ⟨[_, _, _, _], actual, [_], timeout, older, by rw [hlog]; rfl, by simp [Call.isReadback],
      by simp⟩
  have hcalled := hlast.left.push (q := .stop _ c.deadline)
    ⟨hearly (by linarith), hlast.idle rfl, hverif⟩ rfl nofun stopped
  cases stopped with
  | some | none => exact hleave _ _ { hcalled with idle := nofun }

theorem cleanupLoop_ends (rounds : Nat) (h : c.Ongoing false summary log) :
    c.Ends (c.cleanupLoop leave rounds summary) log := by
  induction rounds generalizing summary log with
  | zero =>
    refine h.clock_ends (fun now hnow hearly => ?_)
    split_ifs with hgo
    · exact ⟨hnow.conforms, hearly hgo.1⟩
    · exact hleave _ _ hnow.left
  | succ rounds ih =>
    refine h.clock_ends (fun now hnow hearly => ?_)
    split_ifs with hgo
    · refine hnow.observed_ends (hearly hgo.1)
        (fun _ hseen => hseen.clock_ends (fun _ hlast hearly => ?_))
      split_ifs with hleft
      · exact hleave _ _ hlast.left
      refine call_ends (fun read => ?_)
      have hread : c.Ongoing false
          { summary with readbackAttempts := summary.readbackAttempts + 1 } (⟨_, read⟩ :: _) :=
        { conforms :=
            ⟨⟨hearly (by linarith), hlast.idle rfl, hlast.attempts ▸ hgo.2⟩, hlast.conforms⟩
          attempts := by simpa [readbacks, countP_cons, Call.isReadback] using h.attempts
          owned := fun howned => (hlast.owned howned).imp (fun _ hmem => mem_cons_of_mem _ hmem)
          idle := fun _ => forall_mem_cons.mpr ⟨rfl, hlast.idle rfl⟩ }
      cases read with
      | none => exact hread.paused_ends (fun _ => ih)
      | some actual =>
        refine hread.clock_ends (fun _ htime hearly => ?_)
        split_ifs with hlate
        · exact hleave _ _ htime.left
        refine call_ends (fun accepted => ?_)
        have hcalled := htime.push (q := .authorize actual) (hearly (not_le.mp hlate)) rfl
          (fun _ => rfl) accepted
        cases accepted with
        | none => exact hleave _ _ ⟨hcalled.conforms, hcalled.attempts, nofun, nofun⟩
        | some accepted =>
          cases accepted with
          | false => exact ih hcalled
          | true =>
            exact stopOwned_ends hleave rfl
              { hcalled with owned := fun _ => ⟨actual, mem_cons_self⟩ }
    · exact hleave _ _ hnow.left

end

theorem readbacks_le (h : Conforms c.Permitted log) : readbacks log <= 8 := by
  induction log with
  | nil => simp [readbacks]
  | cons e log ih =>
    rcases e with ⟨q, a⟩
    cases q with
    | readback =>
      rw [readbacks, countP_cons_of_pos rfl]
      exact h.1.2.2
    | _ => exact ih h.2

theorem cleanup_stops_once_and_verified (c : Callbacks ρ) (fuel : Nat) :
    exists result log, (c.cleanupOwned fuel).run c.answer [] = (result, log) ∧
      (forall newer timeout limit stopped older,
        log = newer ++ ⟨.stop timeout limit, stopped⟩ :: older ->
          c.Early older ∧ c.Verified older ∧ NoStop older ∧
          forall e, e ∈ newer -> e.1.isStop = false ∧ e.1.isReadback = false) ∧
      readbacks log <= 8 ∧
      (forall newer now older, log = newer ++ ⟨.clock, now⟩ :: older -> c.deadline <= now ->
        result ≠ none ∧ forall e, e ∈ newer -> e.1 = .clock) ∧
      forall summary, result = some summary ->
        (summary.state = .empty -> c.SeenEmpty log) ∧
        (summary.ownership = .verified -> exists actual, ⟨.authorize actual, some true⟩ ∈ log) := by
  have hrun : c.Ends (c.cleanupOwned fuel) [] :=
    cleanupLoop_ends (fun _ _ => awaitEmpty_ends fuel) fuel ⟨trivial, rfl, nofun, fun _ => nofun⟩
  unfold Ends at hrun
  generalize (c.cleanupOwned fuel).run c.answer [] = run at hrun ⊢
  rcases run with ⟨result, log⟩
  rcases hrun with ⟨hconforms, hend⟩
  refine ⟨result, log, rfl, ?_, readbacks_le hconforms, ?_, ?_⟩
  · rintro newer timeout limit stopped older rfl
    rcases hconforms.split with ⟨hearly, hidle, hverif⟩
    refine ⟨hearly, hverif, hidle, fun e he => ?_⟩
    rcases hconforms.later he with ⟨before, hmem, hperm⟩
    rcases e with ⟨q, a⟩
    cases q with
    | stop | readback => cases hperm.2.1 _ hmem
    | _ => exact ⟨rfl, rfl⟩
  · rintro newer now older rfl hreached
    have hlate : forall before : Log ρ, ⟨.clock, now⟩ ∈ before -> ¬ c.Early before := by
      rintro before hmem ⟨_, _, _, hearly⟩
      exact absurd (hearly now hmem) (not_lt.mpr hreached)
    constructor
    · rintro rfl
      exact hlate _ (mem_append_right _ mem_cons_self) hend
    · intro e he
      rcases hconforms.later he with ⟨before, hmem, hperm⟩
      rcases e with ⟨q, a⟩
      cases q with
      | clock => rfl
      | readback | stop => exact absurd hperm.1 (hlate before hmem)
      | _ => exact absurd hperm (hlate before hmem)
  · rintro summary rfl
    exact ⟨hend.2, hend.1⟩

/-!
### A unit that is stopped

The first readback shows a worker that is still being dispatched, so another is asked for.
-/

def Call.seconds : Sigma (Call.Answer (ρ := Unit)) -> ℚ
  | ⟨.clock, now⟩ => now
  | _ => 0

/-- A second after the latest reading. -/
def tick (log : Log Unit) : ℚ :=
  (log.map Call.seconds).foldr max 0 + 1

theorem lt_tick {log : Log Unit} {now : ℚ} (h : ⟨.clock, now⟩ ∈ log) : now < tick log := by
  induction log with
  | nil => cases h
  | cons e log ih =>
    rw [tick, map_cons, foldr_cons]
    rcases mem_cons.mp h with rfl | hmem
    · exact (le_max_left _ _).trans_lt (lt_add_one _)
    · exact (ih hmem).trans_le (add_le_add_left (le_max_right _ _) 1)

def dispatched : Callbacks Unit where
  deadline := 30
  answer
    | .clock, log => tick log
    | .observe, log => some (if log.any (fun e => e.1.isStop) then .empty else .other)
    | .readback _ _, _ => some ()
    | .authorize _, log => some (decide (1 < readbacks log))
    | .stop _ _, _ => some ()
    | .pause _, _ => ()
  ordered _ _ h := (lt_tick h).le

theorem cleanup_stops_once_and_verified_dispatched :
    exists log newer timeout limit stopped older,
      (dispatched.cleanupOwned 3).run dispatched.answer [] =
        (some { state := .empty, stop := .succeeded, ownership := .verified,
                readbackAttempts := 2 }, log) ∧
      log = newer ++ ⟨.stop timeout limit, stopped⟩ :: older ∧
      dispatched.Verified older ∧ NoStop older ∧ dispatched.SeenEmpty log ∧
      forall e, e ∈ newer -> e.1.isStop = false := by
  rcases cleanup_stops_once_and_verified dispatched 3 with
    ⟨result, log, hrun, hstops, _, _, hends⟩
  have hresult : ((dispatched.cleanupOwned 3).run dispatched.answer []).1 =
      some { state := .empty, stop := .succeeded, ownership := .verified,
             readbackAttempts := 2 } := by
    decide +kernel
  have hstopped : ((dispatched.cleanupOwned 3).run dispatched.answer []).2.any
      (fun e => e.1.isStop) = true := by
    decide +kernel
  rw [hrun] at hresult hstopped
  subst hresult
  rcases any_eq_true.mp hstopped with ⟨⟨call, answered⟩, hmem, hcall⟩
  cases call with
  | stop timeout limit =>
    rcases append_of_mem hmem with ⟨newer, older, rfl⟩
    rcases hstops newer timeout limit answered older rfl with ⟨_, hverif, hidle, hnewer⟩
    exact ⟨_, newer, timeout, limit, answered, older, hrun, rfl, hverif, hidle,
      (hends _ rfl).left rfl, fun e he => (hnewer e he).left⟩
  | _ => cases hcall

end Callbacks

end Omux.Execution
