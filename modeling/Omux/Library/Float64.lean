import Mathlib.Data.BitVec
import Mathlib.Data.Nat.Log

/-!
# IEEE binary64 comparisons

Apart from NaN, the sign and the remaining 63 bits, read as an integer, order the doubles
as their values do.  A natural number is converted to the nearest double.
-/

namespace Omux.Library

structure F64 where
  bits : BitVec 64
deriving DecidableEq

namespace F64

def magnitude (x : F64) : Nat :=
  x.bits.toNat % 2 ^ 63

def isNegative (x : F64) : Bool :=
  x.bits.msb

def infinityMagnitude : Nat := 0x7FF0000000000000

def isNan (x : F64) : Bool :=
  infinityMagnitude < x.magnitude

def isFinite (x : F64) : Bool :=
  x.magnitude < infinityMagnitude

def key (x : F64) : Int :=
  if x.isNegative then -(x.magnitude : Int) else (x.magnitude : Int)

def lt (x y : F64) : Bool :=
  !x.isNan && !y.isNan && decide (x.key < y.key)

def le (x y : F64) : Bool :=
  !x.isNan && !y.isNan && decide (x.key <= y.key)

def eq (x y : F64) : Bool :=
  !x.isNan && !y.isNan && decide (x.key = y.key)

def zero : F64 := { bits := 0 }

def one : F64 := { bits := 0x3FF0000000000000 }

def largest : F64 := { bits := 0x7FEFFFFFFFFFFFFF }

/-- The quotient by a power of two, rounded to the nearest, ties to even. -/
def roundEven (n shift : Nat) : Nat :=
  let quotient := n / 2 ^ shift
  let rest := n % 2 ^ shift
  if 2 ^ shift < 2 * rest ∨ (2 ^ shift = 2 * rest ∧ quotient % 2 = 1) then quotient + 1
  else quotient

/-- The double nearest to a natural number in range; a carry of the rounding runs
over into the exponent. -/
def ofNat (n : Nat) : F64 :=
  if n = 0 then zero
  else
    let exponent := n.log2
    let significand :=
      if exponent <= 52 then n * 2 ^ (52 - exponent) else roundEven n (exponent - 52)
    { bits := BitVec.ofNat 64 ((exponent + 1022) * 2 ^ 52 + significand) }

example : ofNat 1 = one := by decide
example : ofNat (2 ^ 64 - 1) = ofNat (2 ^ 64) := by decide +kernel

/-!
## Whole numbers
-/

/-- The whole part of a finite double that is not negative. -/
def whole (x : F64) : Nat :=
  (2 ^ 52 + x.magnitude % 2 ^ 52) * 2 ^ (x.magnitude / 2 ^ 52) / 2 ^ 1075

theorem scaled_le {m e top shift : Nat} (hm : m <= 2 ^ 53) (he : 53 + e <= shift + top) :
    m * 2 ^ e / 2 ^ shift <= 2 ^ top := by
  refine Nat.div_le_of_le_mul ?_
  calc m * 2 ^ e
      <= 2 ^ 53 * 2 ^ e := Nat.mul_le_mul_right _ hm
    _ = 2 ^ (53 + e) := (pow_add 2 53 e).symm
    _ <= 2 ^ (shift + top) := Nat.pow_le_pow_right (by decide) he
    _ = 2 ^ shift * 2 ^ top := pow_add 2 shift top

theorem whole_le {x : F64} (h : x.magnitude < infinityMagnitude) : x.whole <= 2 ^ 1024 := by
  unfold infinityMagnitude at h
  exact scaled_le (by omega) (by omega)

theorem roundEven_le (n shift : Nat) : roundEven n shift <= n / 2 ^ shift + 1 := by
  unfold roundEven
  dsimp only
  split <;> omega

def significand (n : Nat) : Nat :=
  if n.log2 <= 52 then n * 2 ^ (52 - n.log2) else roundEven n (n.log2 - 52)

theorem significand_le (n : Nat) : significand n <= 2 ^ 53 := by
  have hhigh := Nat.lt_log2_self (n := n)
  unfold significand
  split_ifs with hsmall
  · calc n * 2 ^ (52 - n.log2)
        <= 2 ^ (n.log2 + 1) * 2 ^ (52 - n.log2) := Nat.mul_le_mul_right _ hhigh.le
      _ = 2 ^ 53 := by rw [<- pow_add]; congr 1; omega
  · have hquotient : n / 2 ^ (n.log2 - 52) < 2 ^ 53 := by
      rw [Nat.div_lt_iff_lt_mul (Nat.two_pow_pos _), <- pow_add]
      convert hhigh using 2
      omega
    exact (roundEven_le n _).trans hquotient

theorem magnitude_ofNat_lt {n : Nat} (hn : n <= 2 ^ 64) :
    (ofNat n).magnitude < infinityMagnitude := by
  by_cases hzero : n = 0
  · rw [hzero]
    decide
  have hlog : n.log2 < 65 := (Nat.log2_lt hzero).mpr (by omega)
  have hsig := significand_le n
  rw [ofNat, if_neg hzero]
  change (BitVec.ofNat 64 ((n.log2 + 1022) * 2 ^ 52 + significand n)).toNat % 2 ^ 63 < _
  rw [BitVec.toNat_ofNat]
  unfold infinityMagnitude
  omega

end F64

end Omux.Library
