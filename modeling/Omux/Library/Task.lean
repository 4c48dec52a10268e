import Mathlib.Data.List.Basic
import Mathlib.Order.Defs.Unbundled

/-!
# Tasks that may be cut off

A task works on a state, may fail with an error that a handler can catch, and may be
cut off between two of its steps: then no handler runs either.  There is one rule for
each way to put tasks together.
-/

namespace Omux.Library

inductive Outcome (ε α : Type) where
  | done (value : α)
  | failed (error : ε)
  | killed
deriving DecidableEq

def Task (σ ε α : Type) := σ -> Outcome ε α × σ

variable {σ ε α β : Type}

namespace Task

def bind (task : Task σ ε α) (next : α -> Task σ ε β) : Task σ ε β :=
  fun s =>
    match task s with
    | (.done a, t) => next a t
    | (.failed err, t) => (.failed err, t)
    | (.killed, t) => (.killed, t)

instance : Monad (Task σ ε) where
  pure a := fun s => (.done a, s)
  bind := bind

theorem bind_assoc {γ : Type} (task : Task σ ε α) (next : α -> Task σ ε β)
    (last : β -> Task σ ε γ) :
    ((task >>= next) >>= last) = (task >>= fun a => next a >>= last) := by
  funext s
  change (task.bind next).bind last s = task.bind (fun a => (next a).bind last) s
  unfold bind
  rcases task s with ⟨outcome, t⟩
  cases outcome <;> rfl

def fail (err : ε) : Task σ ε α :=
  fun s => (.failed err, s)

def kill : Task σ ε α :=
  fun s => (.killed, s)

def read (f : σ -> α) : Task σ ε α :=
  fun s => (.done (f s), s)

def modify (f : σ -> σ) : Task σ ε Unit :=
  fun s => (.done (), f s)

def failWhen (cond : Bool) (err : ε) : Task σ ε Unit :=
  if cond then fail err else pure ()

def orFail (value : Option α) (err : ε) : Task σ ε α :=
  match value with
  | some a => pure a
  | none => fail err

def lift (result : Except ε α) : Task σ ε α :=
  match result with
  | .ok a => pure a
  | .error err => fail err

def handle (task : Task σ ε α) (handler : ε -> Task σ ε α) : Task σ ε α :=
  fun s =>
    match task s with
    | (.done a, t) => (.done a, t)
    | (.failed err, t) => handler err t
    | (.killed, t) => (.killed, t)

def always (task : Task σ ε α) (cleanup : σ -> σ) : Task σ ε α :=
  fun s =>
    match task s with
    | (.done a, t) => (.done a, cleanup t)
    | (.failed err, t) => (.failed err, cleanup t)
    | (.killed, t) => (.killed, t)

/-- Go on after a failure and return it. -/
def collect (task : Task σ ε Unit) : Task σ ε (Option ε) :=
  handle (do task; pure none) (fun err => pure (some err))

/-- Run the body for each element until `more` says no; return the first failure that
was collected. -/
def collectEach (more : Task σ ε Bool) (body : β -> Task σ ε (Option ε)) :
    List β -> Task σ ε (Option ε)
  | [] => pure none
  | x :: rest => do
    if <- more then
      let first <- body x
      let later <- collectEach more body rest
      pure (first.or later)
    else
      pure none

def forEach (body : β -> Task σ ε Unit) : List β -> Task σ ε Unit
  | [] => pure ()
  | x :: rest => do
    body x
    forEach body rest

/-!
## Tasks that come to their end
-/

variable {s t : σ} {a : α} {task : Task σ ε α}

theorem pure_eq_done {b : α} : (pure a : Task σ ε α) s = (.done b, t) ↔ b = a ∧ t = s := by
  change (Outcome.done a, s) = (.done b, t) ↔ b = a ∧ t = s
  simp [eq_comm]

theorem bind_eq_done {g : α -> Task σ ε β} {b : β} :
    (f >>= g) s = (.done b, t) ↔ exists a mid, f s = (.done a, mid) ∧ g a mid = (.done b, t) := by
  change f.bind g s = (.done b, t) ↔ _
  unfold bind
  rcases f s with ⟨outcome, mid⟩
  cases outcome <;> simp

theorem bind_apply {g : α -> Task σ ε β} : (f >>= g) s = match f s with
    | (.done a, mid) => g a mid
    | (.failed err, mid) => (.failed err, mid)
    | (.killed, mid) => (.killed, mid) := rfl

theorem failWhen_eq_done {cond : Bool} {err : ε} {u : Unit} :
    (failWhen cond err : Task σ ε Unit) s = (.done u, t) ↔ cond = false ∧ t = s := by
  cases cond with
  | false => simp [failWhen, pure_eq_done]
  | true => simp [failWhen, fail]

theorem orFail_eq_done {value : Option α} {err : ε} :
    (orFail value err : Task σ ε α) s = (.done a, t) ↔ value = some a ∧ t = s := by
  cases value with
  | none => simp [orFail, fail]
  | some => simp [orFail, pure_eq_done, eq_comm]

theorem always_eq_done {cleanup : σ -> σ} :
    task.always cleanup s = (.done a, t) ↔
      exists mid, task s = (.done a, mid) ∧ t = cleanup mid := by
  unfold always
  rcases task s with ⟨outcome, mid⟩
  cases outcome <;> simp [eq_comm]

end Task

/-!
## Triples
-/

/-- From `P`, the task ends in `Q`, fails in `E` or is cut off in `K`. -/
def Meets (P : σ -> Prop) (task : Task σ ε α) (Q : α -> σ -> Prop) (E : ε -> σ -> Prop)
    (K : σ -> Prop) : Prop :=
  forall s, P s ->
    match task s with
    | (.done a, t) => Q a t
    | (.failed err, t) => E err t
    | (.killed, t) => K t

variable {P P' : σ -> Prop} {Q Q' : α -> σ -> Prop} {R : β -> σ -> Prop}
  {E F : ε -> σ -> Prop} {K K' : σ -> Prop}

variable {task : Task σ ε α} {err : ε}

theorem Meets.weaken (h : Meets P task Q E K) (hpre : forall s, P' s -> P s)
    (hdone : forall a s, Q a s -> Q' a s) (hfailed : forall err s, E err s -> F err s)
    (hkilled : forall s, K s -> K' s) : Meets P' task Q' F K' := by
  intro s hs
  have hrun := h s (hpre s hs)
  revert hrun
  rcases task s with ⟨outcome, t⟩
  cases outcome with
  | done a => exact hdone a t
  | failed err => exact hfailed err t
  | killed => exact hkilled t

theorem Meets.post (h : Meets P task Q E K) (hdone : forall a s, Q a s -> Q' a s)
    (hfailed : forall err s, E err s -> F err s) (hkilled : forall s, K s -> K' s) :
    Meets P task Q' F K' :=
  h.weaken (fun _ hs => hs) hdone hfailed hkilled

theorem Meets.pre (h : Meets P task Q E K) (hpre : forall s, P' s -> P s) : Meets P' task Q E K :=
  h.weaken hpre (fun _ _ hs => hs) (fun _ _ hs => hs) (fun _ hs => hs)

theorem meets_pure {a : α} (h : forall s, P s -> Q a s) : Meets P (pure a : Task σ ε α) Q E K := by
  intro s hs
  exact h s hs

theorem meets_fail (h : forall s, P s -> E err s) : Meets P (Task.fail err : Task σ ε α) Q E K := by
  intro s hs
  exact h s hs

theorem meets_kill (h : forall s, P s -> K s) : Meets P (Task.kill : Task σ ε α) Q E K := by
  intro s hs
  exact h s hs

theorem meets_read {f : σ -> α} (h : forall s, P s -> Q (f s) s) :
    Meets P (Task.read f : Task σ ε α) Q E K := by
  intro s hs
  exact h s hs

theorem meets_modify {f : σ -> σ} {Q : Unit -> σ -> Prop} (h : forall s, P s -> Q () (f s)) :
    Meets P (Task.modify f : Task σ ε Unit) Q E K := by
  intro s hs
  exact h s hs

theorem meets_bind {next : α -> Task σ ε β} (htask : Meets P task Q E K)
    (hnext : forall a, Meets (Q a) (next a) R E K) : Meets P (task >>= next) R E K := by
  intro s hs
  have hrun := htask s hs
  change match Task.bind task next s with
    | (.done a, t) => R a t
    | (.failed err, t) => E err t
    | (.killed, t) => K t
  unfold Task.bind
  revert hrun
  rcases task s with ⟨outcome, t⟩
  cases outcome with
  | done a => exact hnext a t
  | failed | killed => exact id

theorem meets_failWhen {cond : Bool} {Q : Unit -> σ -> Prop}
    (hpass : forall s, cond = false -> P s -> Q () s) (hfail : forall s, P s -> E err s) :
    Meets P (Task.failWhen cond err : Task σ ε Unit) Q E K := by
  cases cond with
  | false => exact meets_pure (fun s hs => hpass s rfl hs)
  | true => exact meets_fail hfail

theorem meets_orFail {value : Option α} (hsome : forall s a, value = some a -> P s -> Q a s)
    (hnone : forall s, P s -> E err s) : Meets P (Task.orFail value err : Task σ ε α) Q E K := by
  cases value with
  | none => exact meets_fail hnone
  | some a => exact meets_pure (fun s hs => hsome s a rfl hs)

theorem meets_lift {result : Except ε α} (hok : forall s a, result = .ok a -> P s -> Q a s)
    (herror : forall s err, result = .error err -> P s -> E err s) :
    Meets P (Task.lift result : Task σ ε α) Q E K := by
  cases result with
  | ok a => exact meets_pure (fun s hs => hok s a rfl hs)
  | error err => exact meets_fail (fun s hs => herror s err rfl hs)

theorem meets_handle {handler : ε -> Task σ ε α} (htask : Meets P task Q F K)
    (hhandler : forall err, Meets (F err) (handler err) Q E K) :
    Meets P (task.handle handler) Q E K := by
  intro s hs
  have hrun := htask s hs
  unfold Task.handle
  revert hrun
  rcases task s with ⟨outcome, t⟩
  cases outcome with
  | done | killed => exact id
  | failed err => exact hhandler err t

theorem meets_always {cleanup : σ -> σ}
    (htask : Meets P task (fun a s => Q a (cleanup s)) (fun err s => E err (cleanup s)) K) :
    Meets P (task.always cleanup) Q E K := by
  intro s hs
  have hrun := htask s hs
  unfold Task.always
  revert hrun
  rcases task s with ⟨outcome, t⟩
  cases outcome <;> exact id

theorem meets_collect {task : Task σ ε Unit} {Q : σ -> Prop}
    (htask : Meets P task (fun _ => Q) (fun _ => Q) K) : Meets P task.collect (fun _ => Q) E K := by
  apply meets_handle (F := fun _ => Q)
  · exact meets_bind htask (fun _ => meets_pure (fun _ hs => hs))
  · intro _
    exact meets_pure (fun _ hs => hs)

theorem meets_at (h : Meets P task Q E K) {s : σ} (hs : P s) : Meets (fun t => t = s) task Q E K :=
  h.pre (fun t ht => by rw [ht]; exact hs)

theorem Meets.run (h : Meets P task Q E K) {s : σ} (hs : P s) :
    Meets (fun t => t = s) task (fun a t => Q a t ∧ task s = (.done a, t)) E K := by
  intro t ht
  have hrun := h s hs
  rw [ht]
  revert hrun
  rcases task s with ⟨outcome, t⟩
  cases outcome with
  | done => exact fun hdone => ⟨hdone, rfl⟩
  | failed | killed => exact id

/-- The task ends with this value and in this state, unless it is cut off. -/
def Passes (task : Task σ ε α) (s : σ) (a : α) (t : σ) : Prop :=
  Meets (fun u => u = s) task (fun b u => b = a ∧ u = t) (fun _ _ => False) (fun _ => True)

theorem passes_bind {next : α -> Task σ ε β} {s t : σ} {a : α} (htask : Passes task s a t)
    (hnext : Meets (fun u => u = t) (next a) R E (fun _ => True)) :
    Meets (fun u => u = s) (task >>= next) R E (fun _ => True) := by
  refine meets_bind (htask.post (fun _ _ h => h) (fun _ _ h => h.elim) (fun _ h => h))
    (fun b u hu => ?_)
  rcases hu with ⟨rfl, rfl⟩
  exact hnext u rfl

theorem passes_pure {s : σ} {a : α} : Passes (pure a : Task σ ε α) s a s :=
  meets_pure (fun _ h => ⟨rfl, h⟩)

theorem passes_failWhen {s : σ} {cond : Bool} (h : cond = false) :
    Passes (Task.failWhen cond err : Task σ ε Unit) s () s := by
  rw [h]
  exact passes_pure

theorem passes_read {s : σ} {f : σ -> α} : Passes (Task.read f : Task σ ε α) s (f s) s :=
  meets_read (fun _ h => ⟨by rw [h], h⟩)

/-- The rule of a loop; `I` may use the elements that are still to come. -/
theorem meets_collectEach {more : Task σ ε Bool} {body : β -> Task σ ε (Option ε)}
    {I : List β -> σ -> Prop} {Q : σ -> Prop}
    (hmore : forall xs, Meets (I xs) more (fun _ => I xs) E K)
    (hbody : forall x rest, Meets (I (x :: rest)) (body x) (fun _ => I rest) E K)
    (hend : forall xs s, I xs s -> Q s)
    (xs : List β) : Meets (I xs) (Task.collectEach more body xs) (fun _ => Q) E K := by
  induction xs with
  | nil => exact meets_pure (hend [])
  | cons x rest ih =>
    refine meets_bind (hmore (x :: rest)) (fun goOn => ?_)
    cases goOn with
    | true =>
      refine meets_bind (hbody x rest) (fun _ => ?_)
      exact meets_bind ih (fun _ => meets_pure (fun _ hs => hs))
    | false => exact meets_pure (hend (x :: rest))

theorem meets_forEach {body : β -> Task σ ε Unit} {I : List β -> σ -> Prop}
    (hbody : forall x rest, Meets (I (x :: rest)) (body x) (fun _ => I rest) E K)
    (xs : List β) : Meets (I xs) (Task.forEach body xs) (fun _ => I []) E K := by
  induction xs with
  | nil => exact meets_pure (fun _ hs => hs)
  | cons x rest ih => exact meets_bind (hbody x rest) (fun _ => ih)

end Omux.Library
