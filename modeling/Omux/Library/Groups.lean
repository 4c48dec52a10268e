import Mathlib.Algebra.BigOperators.Group.Finset.Basic
import Mathlib.Data.Finset.Lattice.Fold
import Mathlib.Algebra.BigOperators.WithTop

/-!
# Groups of a list

A scan that measures a group of equal keys at its first member, from there on, adds up
the measures of all groups.
-/

namespace Omux.Library

section

open List

variable {ι κ M : Type} [DecidableEq κ] [AddCommMonoid M]

def scanGroups (key : ι -> κ) (measure : List ι -> M) : List ι -> M -> List ι -> M
  | _, total, [] => total
  | before, total, x :: rest =>
    scanGroups key measure (before ++ [x])
      (if before.any (fun y => key y = key x) then total
      else total + measure (x :: rest.filter (fun y => key y = key x))) rest

/-- The keys that the rest of the scan meets for the first time. -/
def newKeys (key : ι -> κ) (before rest : List ι) : Finset κ :=
  (rest.map key).toFinset \ (before.map key).toFinset

theorem scanGroups_eq (key : ι -> κ) (measure : List ι -> M) (before : List ι) (total : M)
    (rest : List ι) : scanGroups key measure before total rest = total +
      ∑ k ∈ newKeys key before rest, measure (rest.filter (fun y => key y = k)) := by
  induction rest generalizing before total with
  | nil => simp [scanGroups, newKeys]
  | cons x rest ih =>
    have hlater : ∑ k ∈ newKeys key (before ++ [x]) rest,
          measure (rest.filter (fun y => key y = k)) = ∑ k ∈ newKeys key (before ++ [x]) rest,
          measure ((x :: rest).filter (fun y => key y = k)) := by
      refine Finset.sum_congr rfl (fun k hk => ?_)
      have hne : ¬ key x = k := by
        intro heq
        simp [newKeys, heq] at hk
      rw [filter_cons, decide_eq_false hne, if_neg Bool.false_ne_true]
    rw [scanGroups, ih, hlater]
    by_cases hseen : key x ∈ before.map key
    · have hany : before.any (fun y => key y = key x) = true := by simpa [any_eq_true] using hseen
      have hkeys : newKeys key (before ++ [x]) rest = newKeys key before (x :: rest) := by
        ext k
        by_cases hk : k = key x
        · rw [hk]
          simp [newKeys, mem_map.mp hseen]
        · simp [newKeys, hk]
      rw [if_pos hany, hkeys]
    · have hany : ¬ before.any (fun y => key y = key x) = true := by simpa [any_eq_true] using hseen
      have hkeys : newKeys key before (x :: rest) =
          insert (key x) (newKeys key (before ++ [x]) rest) := by
        ext k
        by_cases hk : k = key x
        · rw [hk]
          simpa [newKeys] using hseen
        · simp [newKeys, hk]
      have hnew : key x ∉ newKeys key (before ++ [x]) rest := by simp [newKeys]
      rw [if_neg hany, hkeys, Finset.sum_insert hnew, filter_cons,
        decide_eq_true rfl, if_pos rfl, add_assoc]

end

/-!
## The least member
-/

section

variable {α : Type} [LinearOrder α] [Zero α]

def least (values : Multiset α) : α :=
  (values.map WithTop.some).inf.untopD 0

theorem foldl_min_eq_least (first : α) (rest : List α) :
    rest.foldl min first = least (↑(first :: rest) : Multiset α) := by
  have hfold : forall first : α, ((rest.foldl min first : α) : WithTop α) =
      ((↑(first :: rest) : Multiset α).map WithTop.some).inf := by
    induction rest with
    | nil => simp
    | cons _ rest ih =>
      intro first
      rw [List.foldl_cons, ih]
      simp [<- min_assoc]
  rw [least, <- hfold first]
  rfl

end

end Omux.Library
