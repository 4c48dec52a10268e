import Mathlib.Data.List.Basic

/-!
# Runs of a step function

A run is the left fold of the inputs.  An invariant that every step keeps holds in every
reachable state; when only some steps keep it, it holds along every run whose steps all
meet the condition.
-/

namespace Omux.Library

variable {σ ι : Type _}

def run (step : σ -> ι -> σ) (s : σ) (inputs : List ι) : σ :=
  inputs.foldl step s

/-- Every step of the run meets the condition in the state it starts from. -/
def AllSteps (step : σ -> ι -> σ) (ok : σ -> ι -> Prop) : σ -> List ι -> Prop
  | _, [] => True
  | s, x :: rest => ok s x ∧ AllSteps step ok (step s x) rest

instance decidableAllSteps (step : σ -> ι -> σ) (ok : σ -> ι -> Prop)
    [forall s x, Decidable (ok s x)] :
    forall (s : σ) (inputs : List ι), Decidable (AllSteps step ok s inputs)
  | _, [] => inferInstanceAs (Decidable True)
  | s, x :: rest =>
    have := decidableAllSteps step ok (step s x) rest
    inferInstanceAs (Decidable (ok s x ∧ AllSteps step ok (step s x) rest))

def Reachable (step : σ -> ι -> σ) (init s : σ) : Prop :=
  exists inputs, s = run step init inputs

@[simp] theorem run_nil (step : σ -> ι -> σ) (s : σ) : run step s [] = s := rfl

@[simp] theorem run_cons (step : σ -> ι -> σ) (s : σ) (x : ι) (rest : List ι) :
    run step s (x :: rest) = run step (step s x) rest := rfl

theorem run_append (step : σ -> ι -> σ) (s : σ) (xs ys : List ι) :
    run step s (xs ++ ys) = run step (run step s xs) ys := by
  simp [run]

theorem allSteps_concat {step : σ -> ι -> σ} {ok : σ -> ι -> Prop} {s : σ}
    {inputs : List ι} {x : ι} : AllSteps step ok s (inputs ++ [x]) ↔
      AllSteps step ok s inputs ∧ ok (run step s inputs) x := by
  induction inputs generalizing s with
  | nil => simp [AllSteps]
  | cons y _ ih => simp [AllSteps, ih, and_assoc]

theorem run_invariant_of {step : σ -> ι -> σ} {ok : σ -> ι -> Prop}
    {P : σ -> Prop} {s : σ} {inputs : List ι} (hstep : forall t x, ok t x -> P t -> P (step t x))
    (hok : AllSteps step ok s inputs) (hs : P s) : P (run step s inputs) := by
  induction inputs generalizing s with
  | nil => exact hs
  | cons x _ ih =>
    rcases hok with ⟨hx, hrest⟩
    exact ih hrest (hstep s x hx hs)

section

variable {step : σ -> ι -> σ} {P : σ -> Prop} {s : σ} (hstep : forall t x, P t -> P (step t x))
include hstep

theorem run_invariant (hs : P s) (inputs : List ι) : P (run step s inputs) := by
  induction inputs generalizing s with
  | nil => exact hs
  | cons x _ ih => exact ih (hstep s x hs)

theorem reachable_invariant {init : σ} (hinit : P init) (h : Reachable step init s) : P s := by
  rcases h with ⟨inputs, rfl⟩
  exact run_invariant hstep hinit inputs

/-!
## Counting over a run
-/

/-- Sum over the steps of a run of what each step contributes. -/
def tally (step : σ -> ι -> σ) (count : σ -> ι -> Nat) : σ -> List ι -> Nat
  | _, [] => 0
  | s, x :: rest => count s x + tally step count (step s x) rest

variable {count : σ -> ι -> Nat} {m : σ -> Nat}

theorem measure_run (hcount : forall t x, P t -> m (step t x) = m t + count t x) (hs : P s)
    (inputs : List ι) : m (run step s inputs) = m s + tally step count s inputs := by
  induction inputs generalizing s with
  | nil => rfl
  | cons x _ ih => rw [run_cons, ih (hstep s x hs), hcount s x hs, tally, Nat.add_assoc]

theorem le_measure_run (hcount : forall t x, P t -> m t + count t x <= m (step t x)) (hs : P s)
    (inputs : List ι) : m s + tally step count s inputs <= m (run step s inputs) := by
  induction inputs generalizing s with
  | nil => exact Nat.le_refl _
  | cons x _ ih =>
    have hrest := ih (hstep s x hs)
    have hhead := hcount s x hs
    rw [tally, <- Nat.add_assoc]
    exact Nat.le_trans (Nat.add_le_add_right hhead _) hrest

end

/-!
## What a run emits
-/

/-- What the steps of a run emit, the oldest first. -/
def log {ε : Type _} (step : σ -> ι -> σ) (emit : σ -> ι -> List ε) : σ -> List ι -> List ε
  | _, [] => []
  | s, x :: rest => emit s x ++ log step emit (step s x) rest

theorem log_invariant {ε : Type _} {step : σ -> ι -> σ} {emit : σ -> ι -> List ε}
    {P : σ -> List ε -> Prop}
    (hstep : forall t done x, P t done -> P (step t x) (done ++ emit t x)) {s : σ}
    {done : List ε} (hs : P s done) (inputs : List ι) :
    P (run step s inputs) (done ++ log step emit s inputs) := by
  induction inputs generalizing s done with
  | nil => rwa [log, List.append_nil]
  | cons x _ ih =>
    rw [log, <- List.append_assoc]
    exact ih (hstep s done x hs)

end Omux.Library
