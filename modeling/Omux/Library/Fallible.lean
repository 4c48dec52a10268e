import Mathlib.Data.List.Basic
import Mathlib.Data.List.Induction

/-!
# Fallible computations

Checked operations return `Except`: a guard that refuses with a given error, inversion of
a successful bind, and the fold that replays a list of records into an accumulator.
-/

namespace Omux.Library

open List

def failIf {ε : Type _} (cond : Bool) (err : ε) : Except ε Unit :=
  if cond then .error err else .ok ()

def orFail {ε α : Type _} (value : Option α) (err : ε) : Except ε α :=
  match value with
  | some x => .ok x
  | none => .error err

/-- Check every element from left to right, stopping at the first refusal. -/
def checkAll {ε α : Type _} (check : α -> Except ε Unit) : List α -> Except ε Unit
  | [] => .ok ()
  | x :: rest => do
    check x
    checkAll check rest

def Succeeds {ε α : Type _} (x : Except ε α) : Prop :=
  exists a, x = .ok a

instance {ε α : Type _} (x : Except ε α) : Decidable (Succeeds x) :=
  match x with
  | .ok a => .isTrue ⟨a, rfl⟩
  | .error _ => .isFalse (fun h => by
    rcases h with ⟨a, ha⟩
    cases ha)

variable {ε α β σ : Type _} {x : Except ε α} {a : α} {err : ε} {s : σ}

theorem forall_some {P : α -> Prop} (h : P a) : forall b, some a = some b -> P b := by
  intro b hb
  cases hb
  exact h

theorem toOption_eq_some {a : α} : x.toOption = some a ↔ x = .ok a := by
  cases x <;> simp [Except.toOption]

theorem eq_ok_getD (h : Succeeds x) (other : α) : x = .ok (x.toOption.getD other) := by
  rcases h with ⟨a, rfl⟩
  rfl

/-!
## Inversion
-/

theorem bind_eq_ok {f : α -> Except ε β} {r : β} :
    (x >>= f) = .ok r ↔ exists a, x = .ok a ∧ f a = .ok r := by
  cases x with
  | error =>
    constructor
    · nofun
    · intro h
      rcases h with ⟨a, ha, _⟩
      cases ha
  | ok a =>
    constructor
    · intro h
      exact ⟨a, rfl, h⟩
    · intro h
      rcases h with ⟨b, hb, hf⟩
      cases hb
      exact hf

theorem mapError_eq_ok {ε' : Type _} {f : ε -> ε'} : x.mapError f = .ok a ↔ x = .ok a := by
  cases x with
  | error | ok => simp [Except.mapError]

theorem bind_ok (a : α) (f : α -> Except ε β) : ((Except.ok a : Except ε α) >>= f) = f a := rfl

theorem bind_error (err : ε) (f : α -> Except ε β) :
    ((Except.error err : Except ε α) >>= f) = .error err := rfl

theorem bind_eq_error {f : α -> Except ε β} :
    (x >>= f) = .error err ↔ x = .error err ∨ exists a, x = .ok a ∧ f a = .error err := by
  cases x with
  | error => simp [bind_error]
  | ok => simp [bind_ok]

@[simp] theorem failIf_eq_error {cond : Bool} {err' : ε} :
    failIf cond err = .error err' ↔ cond = true ∧ err = err' := by
  cases cond <;> simp [failIf]

@[simp] theorem failIf_eq_ok {cond : Bool} {u : Unit} : failIf cond err = .ok u ↔ cond = false := by
  cases cond <;> simp [failIf]

@[simp] theorem failIf_false (err : ε) : failIf false err = .ok () := rfl

@[simp] theorem failIf_true (err : ε) : failIf true err = .error err := rfl

@[simp] theorem orFail_eq_ok {value : Option α} : orFail value err = .ok a ↔ value = some a := by
  cases value <;> simp [orFail]

@[simp] theorem orFail_some (a : α) (err : ε) : orFail (some a) err = .ok a := rfl

theorem pure_eq_ok {b : α} : (pure a : Except ε α) = .ok b ↔ a = b := by
  constructor
  · intro h
    cases h
    rfl
  · intro h
    rw [h]
    rfl

/-- The simp set that reads a successful computation step by step. -/
theorem ok_iff {ε : Type} :
    (forall (α β : Type) (x : Except ε α) (f : α -> Except ε β) b,
      (x >>= f) = .ok b ↔ exists a, x = .ok a ∧ f a = .ok b) ∧
    (forall (α : Type) (a b : α), (pure a : Except ε α) = .ok b ↔ a = b) ∧
    (forall (α : Type) (a b : α), (.ok a : Except ε α) = .ok b ↔ a = b) ∧
    (forall (α : Type) x err (a : α), orFail x err = (.ok a : Except ε α) ↔ x = some a) ∧
    forall cond err u, failIf cond err = (.ok u : Except ε Unit) ↔ cond = false := by
  simp [bind_eq_ok, pure_eq_ok]

theorem isSome_eq_false {o : Option α} : o.isSome = false ↔ o = none := by simp

/-- The simp set that reads a Boolean check as a proposition. -/
theorem bool_iff :
    (forall a b : Bool, (a && b) = true ↔ a = true ∧ b = true) ∧
    (forall a b : Bool, (a || b) = false ↔ a = false ∧ b = false) ∧
    (forall a : Bool, ((!a) = true ↔ a = false) ∧ ((!a) = false ↔ a = true)) ∧
    (forall (p : Prop) [Decidable p], (decide p = true ↔ p) ∧ (decide p = false ↔ ¬p)) ∧
    forall (α : Type) [BEq α] [LawfulBEq α] (a b : α),
      ((a == b) = true ↔ a = b) ∧ ((a == b) = false ↔ a ≠ b) ∧
      ((a != b) = true ↔ a ≠ b) ∧ ((a != b) = false ↔ a = b) := by
  refine ⟨by simp, by simp, by simp, by simp, ?_⟩
  intros
  simp

theorem map_fst_eq_ok {x : Except ε (α × β)} :
    x.map Prod.fst = .ok a ↔ exists b, x = .ok (a, b) := by
  cases x with
  | error => simp [Except.map]
  | ok pair =>
    rcases pair with ⟨_, _⟩
    simp [Except.map]

theorem checkAll_eq_ok {check : α -> Except ε Unit} {xs : List α} :
    checkAll check xs = .ok () ↔ forall x, x ∈ xs -> check x = .ok () := by
  induction xs with
  | nil => simp [checkAll]
  | cons x _ ih =>
    simp only [checkAll, bind_eq_ok, ih, mem_cons, forall_eq_or_imp]
    constructor
    · intro h
      rcases h with ⟨_, hx, hrest⟩
      exact ⟨hx, hrest⟩
    · intro h
      exact ⟨(), h.left, h.right⟩

/-!
## Replay of a list

`R before acc` says what the accumulator holds after the records `before` were
replayed.  When each single record can be replayed and moves the relation on by
that record, the whole fold succeeds and ends in the relation for the whole list.
-/

theorem foldlM_replay (f : σ -> α -> Except ε σ) (R : List α -> σ -> Prop) (todo : List α)
    (hs : R [] s) (hstep : forall before x after acc, todo = before ++ x :: after -> R before acc ->
      exists next, f acc x = .ok next ∧ R (before ++ [x]) next) :
    exists t, List.foldlM f s todo = .ok t ∧ R todo t := by
  induction todo using List.reverseRecOn with
  | nil => exact ⟨s, rfl, hs⟩
  | append_singleton before x ih =>
    have hbefore : forall earlier y after acc, before = earlier ++ y :: after -> R earlier acc ->
        exists next, f acc y = .ok next ∧ R (earlier ++ [y]) next := by
      intro earlier y after acc hsplit
      exact hstep earlier y (after ++ [x]) acc (by simp [hsplit])
    rcases ih hbefore with ⟨mid, hfold, hmid⟩
    rcases hstep before x [] mid rfl hmid with ⟨t, hx, ht⟩
    refine ⟨t, ?_, ht⟩
    rw [List.foldlM_append, hfold, bind_ok, foldlM_cons, hx, bind_ok, foldlM_nil]
    rfl

/-- Every record is appended to the table that is restored. -/
theorem foldlM_replay_eq {f : σ -> α -> Except ε σ} (table : List α -> σ) {todo : List α}
    (hstep : forall before x after, todo = before ++ x :: after ->
      f (table before) x = .ok (table (before ++ [x]))) :
    List.foldlM f (table []) todo = .ok (table todo) := by
  have hreplay := foldlM_replay f (fun before acc => acc = table before) todo rfl
    (fun before x after acc hsplit hacc =>
      ⟨_, (congrArg (f · x) hacc).trans (hstep before x after hsplit), rfl⟩)
  rcases hreplay with ⟨t, hfold, rfl⟩
  rw [hfold]

/-- The same where each record also counts a revision. -/
theorem foldlM_replay_counted {f : σ -> α -> Except ε σ} (table : Nat -> List α -> σ)
    {todo : List α} (hstep : forall n before x after, todo = before ++ x :: after ->
      exists n', f (table n before) x = .ok (table n' (before ++ [x]))) (n : Nat) :
    exists n', List.foldlM f (table n []) todo = .ok (table n' todo) := by
  have hreplay := foldlM_replay f (fun before acc => exists n, acc = table n before) todo
    ⟨n, rfl⟩ (fun before x after acc hsplit hacc => by
      rcases hacc with ⟨n, hacc⟩
      rcases hstep n before x after hsplit with ⟨n', hnext⟩
      exact ⟨_, by rw [hacc, hnext], n', rfl⟩)
  rcases hreplay with ⟨t, hfold, n', ht⟩
  exact ⟨n', by rw [hfold, ht]⟩

/-- An invariant kept by each successful step is kept by a successful fold. -/
theorem foldlM_invariant {f : σ -> α -> Except ε σ} {P : σ -> Prop} {todo : List α} {t : σ}
    (hstep : forall a b x, x ∈ todo -> P a -> f a x = .ok b -> P b) (hs : P s)
    (h : List.foldlM f s todo = .ok t) : P t := by
  induction todo generalizing s with
  | nil =>
    simp only [foldlM_nil, pure_eq_ok] at h
    rw [<- h]
    exact hs
  | cons x _ ih =>
    rw [foldlM_cons, bind_eq_ok] at h
    rcases h with ⟨mid, hmid, hrest⟩
    refine ih ?_ (hstep s mid x (by simp) hs hmid) hrest
    intro a b y hy ha hab
    exact hstep a b y (by simp [hy]) ha hab

/-!
## Agreement

Two computations that agree may each refuse, but they have at most one result.
-/

def Agrees (x y : Except ε α) : Prop :=
  forall a b, x = .ok a -> y = .ok b -> a = b

theorem agrees_refl (x : Except ε α) : Agrees x x := by
  intro a b ha hb
  rw [ha] at hb
  exact Except.ok.inj hb

theorem agrees_bind {y : Except ε α} {f g : α -> Except ε β} (h : Agrees x y)
    (hnext : forall a, Agrees (f a) (g a)) : Agrees (x >>= f) (y >>= g) := by
  intro a b ha hb
  rcases bind_eq_ok.mp ha with ⟨c, hc, hf⟩
  rcases bind_eq_ok.mp hb with ⟨d, hd, hg⟩
  rw [<- h c d hc hd] at hg
  exact hnext c a b hf hg

theorem agrees_foldlM {f g : σ -> α -> Except ε σ}
    (h : forall t a, Agrees (f t a) (g t a)) (xs : List α) :
    Agrees (xs.foldlM f s) (xs.foldlM g s) := by
  induction xs generalizing s with
  | nil => exact agrees_refl _
  | cons a _ ih => exact agrees_bind (h s a) (fun t => ih)

end Omux.Library
