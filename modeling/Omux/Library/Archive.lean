import Mathlib.Data.List.Forall2

/-!
# Append-only tables

The rows of some tables are never removed.  An operation changes rows in place along
a relation `R`, or adds rows at the end.
-/

namespace Omux.Library

open List

variable {α β : Type _} {R : α -> α -> Prop}

/-!
## Rows that change in place
-/

theorem forall₂_set (hrefl : forall x, R x x) {rows : List α} {i : Nat} {x y : α}
    (hx : rows[i]? = some x) (h : R x y) : List.Forall₂ R rows (rows.set i y) := by
  induction rows generalizing i with
  | nil => cases hx
  | cons row rest ih =>
    cases i with
    | zero =>
      have hsame : row = x := by simpa using hx
      rw [hsame]
      exact .cons h (forall₂_same.mpr (fun x _ => hrefl x))
    | succ => exact .cons (hrefl row) (ih (by simpa using hx))

theorem forall₂_map {f : α -> α} {rows : List α} (hf : forall x, x ∈ rows -> R x (f x)) :
    List.Forall₂ R rows (rows.map f) := by
  rw [forall₂_map_right_iff, forall₂_same]
  exact hf

variable {old new : List α}

theorem map_eq_of_forall₂ {f : α -> β} (hf : forall x y, R x y -> f y = f x)
    (h : List.Forall₂ R old new) : new.map f = old.map f := by
  induction h with
  | nil => rfl
  | cons hhead _ ih => rw [map_cons, map_cons, ih, hf _ _ hhead]

theorem exists_of_forall₂ (h : List.Forall₂ R old new) {y : α}
    (hy : y ∈ new) : exists x, x ∈ old ∧ R x y := by
  induction h with
  | nil => cases hy
  | @cons a b _ _ hhead _ ih =>
    rcases mem_cons.mp hy with rfl | hrest
    · exact ⟨a, mem_cons_self, hhead⟩
    · rcases ih hrest with ⟨x, hx, hR⟩
      exact ⟨x, mem_cons_of_mem a hx, hR⟩

theorem forall_mem_of_forall₂ {P : α -> Prop} (hstep : forall a b, R a b -> P a -> P b)
    (h : List.Forall₂ R old new) (hold : forall x, x ∈ old -> P x) : forall x, x ∈ new -> P x := by
  intro y hy
  rcases exists_of_forall₂ h hy with ⟨x, hx, hR⟩
  exact hstep x y hR (hold x hx)

/-!
## Tables that grow
-/

/-- Every old row is still at its place, changed along `R`. -/
def Evolves (R : α -> α -> Prop) (old new : List α) : Prop :=
  forall (i : Nat) x, old[i]? = some x -> exists y, new[i]? = some y ∧ R x y

theorem evolves_of_forall₂ (h : List.Forall₂ R old new) : Evolves R old new := by
  induction h with
  | nil => nofun
  | @cons a b _ _ hhead _ ih =>
    intro i x hx
    cases i with
    | zero =>
      have hsame : a = x := by simpa using hx
      rw [<- hsame]
      exact ⟨b, rfl, hhead⟩
    | succ i => exact ih i x hx

theorem evolves_append (hrefl : forall x, R x x) (rows more : List α) :
    Evolves R rows (rows ++ more) := by
  intro i x hx
  rcases List.getElem?_eq_some_iff.mp hx with ⟨hi, _⟩
  exact ⟨x, by rw [List.getElem?_append_left hi, hx], hrefl x⟩

theorem evolves_refl (hrefl : forall x, R x x) (rows : List α) : Evolves R rows rows :=
  fun _ x hx => ⟨x, hx, hrefl x⟩

theorem evolves_trans (htrans : forall x y z, R x y -> R y z -> R x z)
    {first second third : List α} (h : Evolves R first second)
    (h' : Evolves R second third) : Evolves R first third := by
  intro i x hx
  rcases h i x hx with ⟨y, hy, hxy⟩
  rcases h' i y hy with ⟨z, hz, hyz⟩
  exact ⟨z, hz, htrans x y z hxy hyz⟩

theorem exists_of_evolves (h : Evolves R old new) {x : α}
    (hx : x ∈ old) : exists y, y ∈ new ∧ R x y := by
  rcases List.getElem?_of_mem hx with ⟨i, hi⟩
  rcases h i x hi with ⟨y, hy, hR⟩
  exact ⟨y, mem_of_getElem? hy, hR⟩

end Omux.Library
