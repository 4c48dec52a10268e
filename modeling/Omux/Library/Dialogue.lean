import Mathlib.Data.List.Basic

/-!
# Programs that call out

A program makes calls and goes on with their answers; `cut` is a program that was not
followed to its end.  A run leaves its calls and their answers, newest first.
-/

namespace Omux.Library

variable {κ α : Type} {A : κ -> Type}

inductive Dialogue (A : κ -> Type) (α : Type) where
  | done (a : α)
  | cut
  | call (q : κ) (next : A q -> Dialogue A α)

namespace Dialogue

/-- The answers may depend on all that happened before. -/
def run (answer : (q : κ) -> List (Sigma A) -> A q) :
    Dialogue A α -> List (Sigma A) -> Option α × List (Sigma A)
  | .done a, log => (some a, log)
  | .cut, log => (none, log)
  | .call q next, log => (next (answer q log)).run answer (⟨q, answer q log⟩ :: log)

variable {permitted : κ -> List (Sigma A) -> Prop}

/-- Every call was permitted by what had happened before it. -/
def Conforms (permitted : κ -> List (Sigma A) -> Prop) : List (Sigma A) -> Prop
  | [] => True
  | e :: log => permitted e.1 log ∧ Conforms permitted log

variable {e e' : Sigma A} {newer older : List (Sigma A)}

theorem Conforms.split (h : Conforms permitted (newer ++ e :: older)) : permitted e.1 older := by
  induction newer with
  | nil => exact h.1
  | cons _ _ ih => exact ih h.2

theorem Conforms.later (h : Conforms permitted (newer ++ e :: older)) (hmem : e' ∈ newer) :
    exists before, e ∈ before ∧ permitted e'.1 before := by
  rcases List.append_of_mem hmem with ⟨_, _, rfl⟩
  rw [List.append_assoc, List.cons_append] at h
  exact ⟨_, List.mem_append_right _ List.mem_cons_self, h.split⟩

end Dialogue

end Omux.Library
