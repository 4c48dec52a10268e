import Omux.Library.Text
import Mathlib.Algebra.Order.Group.Nat

/-!
# Fixed binary layouts

A record on disk is the concatenation of fields of known widths.  Numbers are
stored least significant byte first.  Splitting a record at the widths of its
fields gives the fields back.
-/

namespace Omux.Library

/-!
## Little-endian numbers
-/

def littleEndian : Nat -> Nat -> Bytes
  | 0, _ => []
  | width + 1, n => UInt8.ofNat (n % 256) :: littleEndian width (n / 256)

def fromLittleEndian : Bytes -> Nat
  | [] => 0
  | byte :: rest => byte.toNat + 256 * fromLittleEndian rest

@[simp] theorem length_littleEndian (width n : Nat) : (littleEndian width n).length = width := by
  induction width generalizing n with
  | zero => rfl
  | succ width ih => simp [littleEndian, ih]

theorem fromLittleEndian_littleEndian {width n : Nat} (h : n < 256 ^ width) :
    fromLittleEndian (littleEndian width n) = n := by
  induction width generalizing n with
  | zero =>
    have hn : n = 0 := by simpa using h
    rw [hn]
    rfl
  | succ width ih =>
    have hrest : n / 256 < 256 ^ width := by
      rw [Nat.div_lt_iff_lt_mul (by decide)]
      exact h
    have hbyte : (UInt8.ofNat (n % 256)).toNat = n % 256 := by
      exact Nat.mod_eq_of_lt (Nat.mod_lt n (by decide))
    rw [littleEndian, fromLittleEndian, ih hrest, hbyte]
    exact Nat.mod_add_div n 256

theorem littleEndian_fromLittleEndian (bytes : Bytes) :
    littleEndian bytes.length (fromLittleEndian bytes) = bytes := by
  induction bytes with
  | nil => rfl
  | cons byte rest ih =>
    have hbyte := byte.toNat_lt
    rw [List.length_cons, littleEndian, fromLittleEndian, Nat.add_mul_mod_self_left,
      Nat.add_mul_div_left _ _ (by decide), Nat.div_eq_of_lt hbyte, Nat.zero_add, ih,
      Nat.mod_eq_of_lt hbyte, UInt8.ofNat_toNat]

theorem littleEndian_inj {width m n : Nat} (hm : m < 256 ^ width) (hn : n < 256 ^ width)
    (h : littleEndian width m = littleEndian width n) : m = n := by
  rw [<- fromLittleEndian_littleEndian hm, h, fromLittleEndian_littleEndian hn]

/-!
## Fields behind their length
-/

def prefixed (width : Nat) (field : Bytes) : Bytes :=
  littleEndian width field.length ++ field

theorem prefixed_append_inj {width : Nat} {x y s t : Bytes} (hx : x.length < 256 ^ width)
    (hy : y.length < 256 ^ width) (h : prefixed width x ++ s = prefixed width y ++ t) :
    x = y ∧ s = t := by
  rw [prefixed, prefixed, List.append_assoc, List.append_assoc] at h
  rcases List.append_inj h (by simp) with ⟨hlength, hrest⟩
  exact List.append_inj hrest (littleEndian_inj hx hy hlength)

theorem flatMap_prefixed_inj {width : Nat} {xs ys : List Bytes} {s t : Bytes}
    (hlength : xs.length = ys.length) (hxs : forall x, x ∈ xs -> x.length < 256 ^ width)
    (hys : forall y, y ∈ ys -> y.length < 256 ^ width)
    (h : xs.flatMap (prefixed width) ++ s = ys.flatMap (prefixed width) ++ t) :
    xs = ys ∧ s = t := by
  induction xs generalizing ys with
  | nil =>
    rw [List.length_eq_zero_iff.mp hlength.symm] at h ⊢
    exact ⟨rfl, h⟩
  | cons x xs ih =>
    cases ys with
    | nil => cases hlength
    | cons =>
      rw [List.forall_mem_cons] at hxs hys
      rw [List.flatMap_cons, List.flatMap_cons, List.append_assoc, List.append_assoc] at h
      rcases prefixed_append_inj hxs.1 hys.1 h with ⟨hfirst, hrest⟩
      rcases ih (Nat.succ.inj hlength) hxs.2 hys.2 hrest with ⟨hothers, htail⟩
      exact ⟨by rw [hfirst, hothers], htail⟩

/-!
## Arrays
-/

def arrayOf (width : Nat) (bytes : Bytes) : Vector UInt8 width :=
  Vector.ofFn (fun i => bytes.getD i.val 0)

theorem arrayOf_toList {width : Nat} (array : Vector UInt8 width) :
    arrayOf width array.toList = array := by
  simp [arrayOf]

theorem toList_arrayOf {width : Nat} {bytes : Bytes} (h : bytes.length = width) :
    (arrayOf width bytes).toList = bytes := by
  apply List.ext_getElem
  · rw [Vector.length_toList, h]
  · intro i _ hi'
    simp [arrayOf, hi']

/-!
## Fields
-/

def splitFields : List Nat -> Bytes -> List Bytes
  | [], _ => []
  | width :: rest, bytes => bytes.take width :: splitFields rest (bytes.drop width)

theorem splitFields_flatten_append (fields : List Bytes) (rest : Bytes) :
    splitFields (fields.map List.length) (fields.flatten ++ rest) = fields := by
  induction fields with
  | nil => rfl
  | cons _ fields ih => simp [splitFields, ih]

theorem splitFields_flatten (fields : List Bytes) :
    splitFields (fields.map List.length) fields.flatten = fields := by
  simpa using splitFields_flatten_append fields []

theorem flatten_splitFields (widths : List Nat) (bytes : Bytes) :
    (splitFields widths bytes).flatten = bytes.take widths.sum := by
  induction widths generalizing bytes with
  | nil => rfl
  | cons _ _ ih => rw [splitFields, List.flatten_cons, ih, List.sum_cons, List.take_add]

theorem length_splitFields {widths : List Nat} {bytes : Bytes} (h : widths.sum <= bytes.length) :
    (splitFields widths bytes).map List.length = widths := by
  induction widths generalizing bytes with
  | nil => rfl
  | cons width rest ih =>
    rw [List.sum_cons] at h
    rw [splitFields, List.map_cons, List.length_take_of_le (by omega),
      ih (by rw [List.length_drop]; omega)]

example : splitFields [2, 1] [1, 2, 3] = [[1, 2], [3]] := by decide

/-- The bytes from a cursor on, if they lie inside. -/
def sliceAt (bytes : Bytes) (cursor width : Nat) : Option Bytes :=
  if cursor + width <= bytes.length then some ((bytes.drop cursor).take width) else none

def slicesAt (bytes : Bytes) : Nat -> List Nat -> Option (List Bytes)
  | _, [] => some []
  | cursor, width :: rest => do
    let field <- sliceAt bytes cursor width
    let fields <- slicesAt bytes (cursor + width) rest
    some (field :: fields)

theorem slicesAt_eq {bytes : Bytes} {cursor : Nat} {widths : List Nat}
    (h : cursor + widths.sum <= bytes.length) :
    slicesAt bytes cursor widths = some (splitFields widths (bytes.drop cursor)) := by
  induction widths generalizing cursor with
  | nil => rfl
  | cons width rest ih =>
    rw [List.sum_cons] at h
    rw [slicesAt, sliceAt, if_pos (by omega), ih (by omega), splitFields, List.drop_drop]
    rfl

end Omux.Library
