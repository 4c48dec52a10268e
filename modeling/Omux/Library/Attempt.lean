import Mathlib.Logic.Basic

/-!
# Actions that may stop half-way

An action changes a state and may stop with a failure; what it changed until then
stays.  There is one rule for each way to combine actions.
-/

namespace Omux.Library

variable {σ α : Type _}

def Action (σ : Type _) := σ -> σ × Bool

namespace Action

def skip : Action σ :=
  fun s => (s, true)

def fail : Action σ :=
  fun s => (s, false)

def modify (f : σ -> σ) : Action σ :=
  fun s => (f s, true)

/-- Change the state, or fail and leave it as it is. -/
def update (f : σ -> Option σ) : Action σ :=
  fun s =>
    match f s with
    | some t => (t, true)
    | none => (s, false)

def check (p : σ -> Bool) : Action σ :=
  fun s => (s, p s)

/-- Go on with a value of the state, or fail when there is none. -/
def withValue (f : σ -> Option α) (next : α -> Action σ) : Action σ :=
  fun s =>
    match f s with
    | some a => next a s
    | none => (s, false)

/-- Go on in one way after success and in another after a failure. -/
def branch (first second handler : Action σ) : Action σ :=
  fun s =>
    match first s with
    | (t, true) => second t
    | (t, false) => handler t

def andThen (first second : Action σ) : Action σ :=
  first.branch second fail

/-- Run the handler after a failure and go on as if nothing had happened. -/
def orElse (first handler : Action σ) : Action σ :=
  first.branch skip handler

/-- Run the action only in some states. -/
def onlyIf (p : σ -> Bool) (action : Action σ) : Action σ :=
  fun s => if p s then action s else (s, true)

end Action

/-!
## Triples
-/

/-- From `P`, success ends in `Q` and failure in `R`. -/
def Holds (P : σ -> Prop) (action : Action σ) (Q R : σ -> Prop) : Prop :=
  forall s, P s ->
    ((action s).2 = true -> Q (action s).1) ∧ ((action s).2 = false -> R (action s).1)

variable {P P' M N Q Q' R R' : σ -> Prop}

variable {action first second handler : Action σ} {p : σ -> Bool}

section

variable (h : Holds P action Q R)
include h

theorem holds_weaken (hpre : forall s, P' s -> P s)
    (hok : forall s, Q s -> Q' s) (hfail : forall s, R s -> R' s) : Holds P' action Q' R' := by
  intro s hs
  rcases h s (hpre s hs) with ⟨hsuccess, hfailure⟩
  exact ⟨fun hflag => hok _ (hsuccess hflag), fun hflag => hfail _ (hfailure hflag)⟩

theorem Holds.pre (hpre : forall s, P' s -> P s) : Holds P' action Q R :=
  holds_weaken h hpre (fun _ hs => hs) (fun _ hs => hs)

theorem Holds.succeeds (hok : forall s, Q s -> Q' s) : Holds P action Q' R :=
  holds_weaken h (fun _ hs => hs) hok (fun _ hs => hs)

theorem Holds.fails (hfail : forall s, R s -> R' s) : Holds P action Q R' :=
  holds_weaken h (fun _ hs => hs) (fun _ hs => hs) hfail

end

theorem Holds.ends (h : Holds P action Q Q) (hend : forall s, Q s -> Q' s) : Holds P action Q' Q' :=
  holds_weaken h (fun _ hs => hs) hend hend

theorem Holds.result {s : σ} (h : Holds P action Q Q) (hs : P s) : Q (action s).1 := by
  cases hflag : (action s).2 with
  | true => exact (h s hs).left hflag
  | false => exact (h s hs).right hflag

theorem holds_or (hleft : Holds P action Q R) (hright : Holds P' action Q R) :
    Holds (fun s => P s ∨ P' s) action Q R := by
  intro s hs
  cases hs with
  | inl hs => exact hleft s hs
  | inr hs => exact hright s hs

theorem holds_and (hleft : Holds P action Q R) (hright : Holds P' action Q' R') :
    Holds (fun s => P s ∧ P' s) action (fun s => Q s ∧ Q' s) (fun s => R s ∧ R' s) := by
  intro s hs
  have hl := hleft s hs.left
  have hr := hright s hs.right
  exact ⟨fun hflag => ⟨hl.left hflag, hr.left hflag⟩, fun hflag => ⟨hl.right hflag, hr.right hflag⟩⟩

theorem holds_pure {p : Prop} (h : p -> Holds P action Q R) :
    Holds (fun s => P s ∧ p) action Q R := by
  intro s hs
  exact h hs.right s hs.left

theorem holds_skip (h : forall s, P s -> Q s) : Holds P Action.skip Q R := by
  intro s hs
  exact ⟨fun _ => h s hs, nofun⟩

theorem holds_fail (h : forall s, P s -> R s) : Holds P Action.fail Q R := by
  intro s hs
  exact ⟨fun hflag => by (cases hflag), fun _ => h s hs⟩

theorem holds_modify {f : σ -> σ} (h : forall s, P s -> Q (f s)) :
    Holds P (Action.modify f) Q R := by
  intro s hs
  exact ⟨fun _ => h s hs, nofun⟩

theorem holds_update {f : σ -> Option σ} (hok : forall s t, P s -> f s = some t -> Q t)
    (hfail : forall s, P s -> f s = none -> R s) : Holds P (Action.update f) Q R := by
  intro s hs
  unfold Action.update
  cases hf : f s with
  | some t => exact ⟨fun _ => hok s t hs hf, nofun⟩
  | none => exact ⟨fun hflag => by (cases hflag), fun _ => hfail s hs hf⟩

theorem holds_check (hok : forall s, P s -> Q s) (hfail : forall s, P s -> R s) :
    Holds P (Action.check p) Q R := by
  intro s hs
  exact ⟨fun _ => hok s hs, fun _ => hfail s hs⟩

theorem holds_withValue {f : σ -> Option α} {next : α -> Action σ}
    (hok : forall a, Holds P (next a) Q R) (hfail : forall s, P s -> R s) :
    Holds P (Action.withValue f next) Q R := by
  intro s hs
  unfold Action.withValue
  cases hf : f s with
  | some a => exact hok a s hs
  | none => exact ⟨fun hflag => by (cases hflag), fun _ => hfail s hs⟩

theorem holds_branch (hfirst : Holds P first M N) (hsecond : Holds M second Q R)
    (hhandler : Holds N handler Q R) : Holds P (first.branch second handler) Q R := by
  intro s hs
  have h := hfirst s hs
  unfold Action.branch
  rcases hrun : first s with ⟨t, flag⟩
  rw [hrun] at h
  cases flag with
  | true => exact hsecond t (h.left rfl)
  | false => exact hhandler t (h.right rfl)

theorem holds_andThen (hfirst : Holds P first M R) (hsecond : Holds M second Q R) :
    Holds P (first.andThen second) Q R :=
  holds_branch hfirst hsecond (holds_fail fun _ hs => hs)

theorem holds_orElse (hfirst : Holds P first Q M) (hhandler : Holds M handler Q R) :
    Holds P (first.orElse handler) Q R :=
  holds_branch hfirst (holds_skip fun _ hs => hs) hhandler

theorem holds_onlyIf (haction : Holds (fun s => P s ∧ p s = true) action Q R)
    (hskip : forall s, P s -> p s = false -> Q s) : Holds P (Action.onlyIf p action) Q R := by
  intro s hs
  unfold Action.onlyIf
  cases hp : p s with
  | true => exact haction s ⟨hs, hp⟩
  | false => exact ⟨fun _ => hskip s hs hp, fun hflag => by (cases hflag)⟩

/-!
## Actions that never stop
-/

theorem orElse_total (h : forall s, (handler s).2 = true) (s : σ) :
    ((first.orElse handler) s).2 = true := by
  unfold Action.orElse Action.branch
  rcases first s with ⟨t, flag⟩
  cases flag with
  | true => rfl
  | false => exact h t

theorem onlyIf_total (h : forall s, (action s).2 = true) (s : σ) :
    ((Action.onlyIf p action) s).2 = true := by
  unfold Action.onlyIf
  split
  · exact h s
  · rfl

theorem holds_total_andThen (htotal : forall s, (first s).2 = true) (hfirst : Holds P first M M)
    (hsecond : Holds M second Q R) : Holds P (first.andThen second) Q R := by
  apply holds_andThen (M := M) _ hsecond
  intro s hs
  refine ⟨(hfirst s hs).left, fun hflag => ?_⟩
  rw [htotal s] at hflag
  cases hflag

end Omux.Library
