import Mathlib.Data.Nat.ModEq
import Omux.Library.Fallible

/-!
# Fixed arrays of optional cells

A checked build stops at an index outside an array, at an unwrapped null, at an
unsigned subtraction below zero and at a failed assertion; here these are faults.  A list
is kept in an array packed from the first cell on, or as a ring behind a moving head.
-/

namespace Omux.Library

inductive Fault where
  | indexOutOfRange | nullUnwrapped | underflow | assertionFailed

abbrev Cells (α : Type _) (n : Nat) := Vector (Option α) n

variable {α : Type _} {n : Nat}

namespace Cells

def load (cells : Cells α n) (i : Nat) : Except Fault (Option α) :=
  orFail cells[i]? .indexOutOfRange

def store (cells : Cells α n) (i : Nat) (value : Option α) : Except Fault (Cells α n) :=
  if h : i < n then .ok (cells.set i value h) else .error .indexOutOfRange

end Cells

def unwrap (value : Option α) : Except Fault α :=
  orFail value .nullUnwrapped

def decrement (k : Nat) : Except Fault Nat := do
  failIf (k = 0) Fault.underflow
  pure (k - 1)

theorem decrement_of_pos {k : Nat} (h : 0 < k) : decrement k = .ok (k - 1) := by
  have hk : decide (k = 0) = false := by
    simp
    omega
  rw [decrement, hk]
  rfl

namespace Cells

theorem store_ok (cells : Cells α n) {i : Nat} (h : i < n) (value : Option α) :
    cells.store i value = .ok (cells.set i value h) := by
  rw [store, dif_pos h]

end Cells

/-!
## Packed lists
-/

/-- The cells hold exactly the list, from the first cell on. -/
structure Packs (cells : Cells α n) (xs : List α) : Prop where
  fits : xs.length <= n
  cells : forall i, i < n -> cells[i]? = some xs[i]?

namespace Cells

/-- The first of the next `count` cells from `i` on that meets the test. -/
def scan (cells : Cells α n) (test : α -> Bool) : Nat -> Nat -> Except Fault (Option Nat)
  | _, 0 => .ok none
  | i, count + 1 => do
    let x <- unwrap (<- cells.load i)
    if test x then .ok (some i) else cells.scan test (i + 1) count

/-- The loop that moves the cells behind `index` one to the front. -/
def shift (cells : Cells α n) (index count : Nat) : Except Fault (Cells α n) :=
  (List.range' index count).foldlM (fun cells position => do
    let value <- cells.load (position + 1)
    cells.store position value) cells

def removeAt (cells : Cells α n) (length index : Nat) : Except Fault (Cells α n × Nat) := do
  let last <- decrement length
  failIf (last < index) Fault.underflow
  let cells <- cells.shift index (last - index)
  let cells <- cells.store last none
  pure (cells, last)

end Cells

theorem packs_empty : Packs (Vector.replicate n none : Cells α n) [] := by
  constructor
  · exact Nat.zero_le n
  · intro i hi
    simp [hi]

theorem getElem?_concat_of_ne {xs : List α} {i : Nat} (h : xs.length ≠ i) (x : α) :
    (xs ++ [x])[i]? = xs[i]? := by
  rcases Nat.lt_or_gt_of_ne h with hlt | hgt
  · rw [List.getElem?_eq_none (by rwa [List.length_append]), List.getElem?_eq_none (by omega)]
  · rw [List.getElem?_append_left hgt]

namespace Packs

variable {cells : Cells α n} {xs : List α}

theorem load_eq (h : Packs cells xs) {i : Nat} (hi : i < n) : cells.load i = .ok xs[i]? := by
  rw [Cells.load, h.cells i hi, orFail_some]

theorem append (h : Packs cells xs) (hlt : xs.length < n) (x : α) :
    Packs (cells.set xs.length (some x) hlt) (xs ++ [x]) := by
  constructor
  · rw [List.length_append]
    exact hlt
  · intro i hi
    rw [Vector.getElem?_set, h.cells i hi]
    by_cases heq : xs.length = i
    · subst heq
      simp
    · rw [if_neg heq, getElem?_concat_of_ne heq]

theorem scan_eq (h : Packs cells xs) (test : α -> Bool) {i count : Nat}
    (hcount : i + count = xs.length) :
    cells.scan test i count = .ok (((xs.drop i).findIdx? test).map (· + i)) := by
  induction count generalizing i with
  | zero =>
    rw [List.drop_eq_nil_of_le (by omega)]
    rfl
  | succ count ih =>
    have hi : i < xs.length := by omega
    have hx : xs[i]? = some xs[i] := List.getElem?_eq_getElem hi
    rw [Cells.scan, h.load_eq (Nat.lt_of_lt_of_le hi h.fits), bind_ok, hx, unwrap,
      orFail_some, bind_ok, List.drop_eq_getElem_cons hi, List.findIdx?_cons]
    by_cases htest : test xs[i]
    · simp [htest]
    · rw [if_neg htest, if_neg htest, ih (by omega), Option.map_map]
      congr 2
      funext k
      simp only [Function.comp]
      omega

end Packs

namespace Cells

theorem shift_spec (cells : Cells α n) {index count : Nat} (h : index + count < n) :
    exists moved, cells.shift index count = .ok moved ∧
      forall i, i < n -> moved[i]? =
        if index <= i ∧ i < index + count then cells[i + 1]? else cells[i]? := by
  induction count generalizing cells index with
  | zero =>
    refine ⟨cells, rfl, ?_⟩
    intro i _
    rw [if_neg (by omega)]
  | succ count ih =>
    have hindex : index < n := by omega
    have hload : cells.load (index + 1) = .ok cells[index + 1] := by
      rw [load, Vector.getElem?_eq_getElem (by omega), orFail_some]
    have hrest : index + 1 + count < n := by omega
    rcases ih (cells.set index cells[index + 1] hindex) hrest with
      ⟨moved, hmoved, hcells⟩
    refine ⟨moved, ?_, ?_⟩
    · rw [shift, List.range'_succ, List.foldlM_cons, hload, bind_ok, store_ok cells hindex]
      exact hmoved
    · intro i hi
      rw [hcells i hi, Vector.getElem?_set, Vector.getElem?_set]
      by_cases heq : index = i
      · subst heq
        have hnext : index + 1 < n := by omega
        rw [if_neg (by omega), if_pos rfl, if_pos (by omega), Vector.getElem?_eq_getElem hnext]
      · rw [if_neg heq]
        by_cases hin : index + 1 <= i ∧ i < index + 1 + count
        · rw [if_pos hin, if_neg (by omega), if_pos (by omega)]
        · rw [if_neg hin, if_neg (by omega)]

end Cells

theorem Packs.removeAt {cells : Cells α n} {xs : List α} (h : Packs cells xs)
    {index : Nat} (hindex : index < xs.length) :
    exists rest, cells.removeAt xs.length index = .ok (rest, xs.length - 1) ∧
      Packs rest (xs.eraseIdx index) := by
  have hfits := h.fits
  have hlast : xs.length - 1 < n := by omega
  have hguard : decide (xs.length - 1 < index) = false := by
    simp
    omega
  have hmove : index + (xs.length - 1 - index) < n := by omega
  rcases cells.shift_spec hmove with ⟨moved, hmoved, hcells⟩
  refine ⟨moved.set (xs.length - 1) none hlast, ?_, ?_⟩
  · rw [Cells.removeAt, decrement_of_pos (by omega), bind_ok, hguard, failIf_false, bind_ok,
      hmoved, bind_ok, Cells.store_ok moved hlast]
    rfl
  · constructor
    · rw [List.length_eraseIdx_of_lt hindex]
      omega
    · intro i hi
      rw [Vector.getElem?_set, List.getElem?_eraseIdx]
      by_cases heq : xs.length - 1 = i
      · rw [if_pos heq, if_neg (by omega), List.getElem?_eq_none (by omega)]
      · rw [if_neg heq, hcells i hi]
        by_cases hin : index <= i ∧ i < index + (xs.length - 1 - index)
        · rw [if_pos hin, if_neg (by omega), h.cells (i + 1) (by omega)]
        · rw [if_neg hin, h.cells i hi]
          by_cases hbefore : i < index
          · rw [if_pos hbefore]
          · rw [if_neg hbefore, List.getElem?_eq_none (by omega), List.getElem?_eq_none (by omega)]

/-!
## Rings
-/

structure Ring (α : Type _) (n : Nat) where
  cells : Cells α n
  head : Nat
  length : Nat

namespace Ring

def empty : Ring α n where
  cells := Vector.replicate n none
  head := 0
  length := 0

def push (r : Ring α n) (x : α) : Except Fault (Ring α n) := do
  let cells <- r.cells.store ((r.head + r.length) % n) (some x)
  pure { r with cells, length := r.length + 1 }

def pop (r : Ring α n) : Except Fault (α × Ring α n) := do
  let x <- unwrap (<- r.cells.load r.head)
  let cells <- r.cells.store r.head none
  let length <- decrement r.length
  pure (x, { cells, head := (r.head + 1) % n, length })

/-- The ring holds exactly the list, oldest first; every other cell is free. -/
structure Holds (r : Ring α n) (xs : List α) : Prop where
  head : r.head < n
  length : r.length = xs.length
  fits : xs.length <= n
  cells : forall i, i < n -> r.cells[(r.head + i) % n]? = some xs[i]?

theorem holds_empty (hn : 0 < n) : (empty : Ring α n).Holds [] := by
  constructor
  · exact hn
  · rfl
  · exact Nat.zero_le n
  · intro i _
    simp [empty, Nat.mod_lt i hn]

theorem cell_injective {head i j : Nat} (hi : i < n) (hj : j < n)
    (h : (head + i) % n = (head + j) % n) : i = j := by
  have hmod : i % n = j % n := Nat.ModEq.add_left_cancel' head h
  rwa [Nat.mod_eq_of_lt hi, Nat.mod_eq_of_lt hj] at hmod

theorem Holds.push {r : Ring α n} {xs : List α} (h : r.Holds xs) (hlt : xs.length < n)
    (x : α) : exists r', r.push x = .ok r' ∧ r'.Holds (xs ++ [x]) := by
  have hn : 0 < n := by omega
  have hcell : (r.head + r.length) % n < n := Nat.mod_lt _ hn
  refine ⟨{ r with
    cells := r.cells.set ((r.head + r.length) % n) (some x) hcell,
    length := r.length + 1 }, ?_, ?_⟩
  · rw [Ring.push, Cells.store_ok r.cells hcell]
    rfl
  · constructor
    · exact h.head
    · simp [h.length]
    · rw [List.length_append]
      exact hlt
    · intro i hi
      change (r.cells.set ((r.head + r.length) % n) (some x) hcell)[(r.head + i) % n]? = _
      rw [Vector.getElem?_set, h.cells i hi, h.length]
      by_cases heq : xs.length = i
      · subst heq
        simp
      · have hne : (r.head + xs.length) % n ≠ (r.head + i) % n := by
          intro hsame
          exact heq (cell_injective hlt hi hsame)
        rw [if_neg hne, getElem?_concat_of_ne heq]

theorem Holds.pop {r : Ring α n} {x : α} {xs : List α} (h : r.Holds (x :: xs)) :
    exists r', r.pop = .ok (x, r') ∧ r'.Holds xs := by
  have hhead := h.head
  have hfits : xs.length + 1 <= n := h.fits
  have hn : 0 < n := by omega
  have hfirst : r.cells[r.head]? = some (some x) := by
    have hcell := h.cells 0 hn
    rw [Nat.add_zero, Nat.mod_eq_of_lt hhead] at hcell
    exact hcell
  refine ⟨{
    cells := r.cells.set r.head none hhead
    head := (r.head + 1) % n
    length := r.length - 1 }, ?_, ?_⟩
  · have hlength : 0 < r.length := by
      rw [h.length]
      exact Nat.succ_pos _
    rw [Ring.pop, Cells.load, hfirst, Cells.store_ok r.cells hhead, decrement_of_pos hlength]
    rfl
  · constructor
    · exact Nat.mod_lt _ hn
    · simp [h.length]
    · exact Nat.le_of_succ_le hfits
    · intro i _
      rw [Nat.mod_add_mod, Nat.add_assoc, Nat.add_comm 1 i, Vector.getElem?_set]
      by_cases hlast : i + 1 = n
      · -- the freed cell is the last place behind the new head
        rw [hlast, Nat.add_mod_right, Nat.mod_eq_of_lt hhead, if_pos rfl,
          List.getElem?_eq_none (by omega)]
      · have hi' : i + 1 < n := by omega
        have hne : r.head ≠ (r.head + (i + 1)) % n := by
          intro hsame
          have hzero : (r.head + 0) % n = (r.head + (i + 1)) % n := by
            rw [Nat.add_zero, Nat.mod_eq_of_lt hhead]
            exact hsame
          exact Nat.succ_ne_zero i (cell_injective hn hi' hzero).symm
        rw [if_neg hne, h.cells (i + 1) hi']
        rfl

end Ring

/-!
## Removing the first element that meets a test
-/

theorem filter_eraseIdx_findIdx? {test : α -> Bool} {xs : List α} {i : Nat}
    (h : xs.findIdx? test = some i) : exists x, xs[i]? = some x ∧ test x = true ∧
      xs.filter test = x :: (xs.eraseIdx i).filter test ∧
      forall other : α -> Bool, other x = false ->
        (xs.eraseIdx i).filter other = xs.filter other := by
  induction xs generalizing i with
  | nil => cases h
  | cons y _ ih =>
    rw [List.findIdx?_cons] at h
    split_ifs at h with htest
    · cases h
      refine ⟨y, rfl, htest, by simp [htest], ?_⟩
      intro other hother
      simp [hother]
    · rw [Option.map_eq_some_iff] at h
      rcases h with ⟨j, hj, rfl⟩
      rcases ih hj with ⟨x, hx, hpass, hfilter, hother⟩
      refine ⟨x, by simpa using hx, hpass, by simp [htest, hfilter], ?_⟩
      intro other hfalse
      simp [List.filter_cons, hother other hfalse]

theorem filter_eq_nil_of_findIdx? {test : α -> Bool} {xs : List α}
    (h : xs.findIdx? test = none) : xs.filter test = [] := by
  rw [List.findIdx?_eq_none_iff] at h
  rw [List.filter_eq_nil_iff]
  intro x hx
  simp [h x hx]

end Omux.Library
