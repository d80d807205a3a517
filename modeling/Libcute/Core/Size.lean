import Mathlib.Data.Nat.Basic
import Mathlib.Data.Nat.Log
import Mathlib.Algebra.Order.Ring.Nat
import Mathlib.Tactic.Ring

/-!
# `size_t` arithmetic

Sizes and addresses are natural numbers below `2 ^ 64`, and the operators
of the source reduce their results modulo `2 ^ 64`.  Where a sum of the code
may wrap, the model writes `sizeAdd`, `sizeSub` and `sizeMul`; the lemmas
below remove the reduction where the exact result is known to fit.

The module also models the two size helpers that the allocators and the
containers share: `CU_ALIGN_UP` from `macro.h` and `cu_next_pow2` from
`utility.h`.
-/

namespace Libcute.Core.Size

/-- The number of values of a `size_t` on the 64-bit target. -/
def sizeLimit : Nat := 2 ^ 64

def sizeAdd (left right : Nat) : Nat := (left + right) % sizeLimit

def sizeSub (left right : Nat) : Nat :=
  (left + (sizeLimit - right % sizeLimit)) % sizeLimit

def sizeMul (left right : Nat) : Nat := left * right % sizeLimit

/-- Bitwise complement of a `size_t`. -/
def sizeNot (value : Nat) : Nat := sizeLimit - 1 - value

theorem sizeAdd_eq {left right : Nat}
    (fits : left + right < sizeLimit) :
    sizeAdd left right = left + right :=
  Nat.mod_eq_of_lt fits

theorem sizeMul_eq {left right : Nat}
    (fits : left * right < sizeLimit) :
    sizeMul left right = left * right :=
  Nat.mod_eq_of_lt fits

theorem sizeSub_eq {left right : Nat}
    (ordered : right ≤ left) (fits : left < sizeLimit) :
    sizeSub left right = left - right := by
  unfold sizeSub
  rw [Nat.mod_eq_of_lt (lt_of_le_of_lt ordered fits)]
  have sum :
      left + (sizeLimit - right) = left - right + sizeLimit := by
    omega
  rw [sum, Nat.add_mod_right, Nat.mod_eq_of_lt (by omega)]

theorem sizeAdd_lt (left right : Nat) :
    sizeAdd left right < sizeLimit :=
  Nat.mod_lt _ (by decide)

theorem sizeMul_lt (left right : Nat) :
    sizeMul left right < sizeLimit :=
  Nat.mod_lt _ (by decide)

/-! ## `CU_ALIGN_UP` -/

/-- `((x) + (align) - 1) & ~((align) - 1)` -/
def alignUp (value align : Nat) : Nat :=
  sizeSub (sizeAdd value align) 1 &&& sizeNot (sizeSub align 1)

/-- Clearing the bits of `mask` subtracts what `mask` selects. -/
theorem and_sizeNot_add_and
    {value mask : Nat}
    (valueFits : value < sizeLimit) (maskFits : mask < sizeLimit) :
    (value &&& sizeNot mask) + (value &&& mask) = value := by
  let bits : BitVec 64 := BitVec.ofNat 64 value
  let cleared : BitVec 64 := BitVec.ofNat 64 mask
  have bitsNat : bits.toNat = value := Nat.mod_eq_of_lt valueFits
  have clearedNat : cleared.toNat = mask := Nat.mod_eq_of_lt maskFits
  have separate : (bits &&& ~~~cleared) &&& (bits &&& cleared) = 0#64 := by
    ext index inside
    simp only [BitVec.getElem_and, BitVec.getElem_not,
      BitVec.getElem_zero]
    cases bits[index] <;> cases cleared[index] <;> rfl
  have joined : (bits &&& ~~~cleared) ||| (bits &&& cleared) = bits := by
    ext index inside
    simp only [BitVec.getElem_or, BitVec.getElem_and, BitVec.getElem_not]
    cases bits[index] <;> cases cleared[index] <;> rfl
  have sum := BitVec.toNat_add_of_and_eq_zero separate
  rw [BitVec.add_eq_or_of_and_eq_zero _ _ separate, joined] at sum
  simp only [BitVec.toNat_and, BitVec.toNat_not, bitsNat, clearedNat] at sum
  exact sum.symm

/-- Without wraparound the macro clears the low bits of the padded value. -/
theorem alignUp_eq
    {value align : Nat}
    (positive : 0 < align)
    (fits : value + (align - 1) < sizeLimit) :
    alignUp value align =
      (value + (align - 1)) &&& sizeNot (align - 1) := by
  have mask : sizeSub align 1 = align - 1 := by
    by_cases small : align < sizeLimit
    · exact sizeSub_eq positive small
    · have whole : align = sizeLimit := by omega
      rw [whole]
      decide
  have padded : sizeSub (sizeAdd value align) 1 = value + (align - 1) := by
    by_cases wraps : value + align < sizeLimit
    · rw [sizeAdd_eq wraps, sizeSub_eq (by omega) wraps]
      omega
    · have exactly : value + align = sizeLimit := by omega
      have top : value + (align - 1) = sizeLimit - 1 := by omega
      rw [top, sizeAdd, exactly]
      decide
  rw [alignUp, mask, padded]

/--
The aligned value for any alignment, a power of two or not: it is not below
the value and less than one alignment above it.
-/
theorem alignUp_bounds
    {value align : Nat}
    (positive : 0 < align)
    (fits : value + (align - 1) < sizeLimit) :
    value ≤ alignUp value align ∧
      alignUp value align ≤ value + (align - 1) := by
  have split :
      ((value + (align - 1)) &&& sizeNot (align - 1)) +
          ((value + (align - 1)) &&& (align - 1)) =
        value + (align - 1) :=
    and_sizeNot_add_and fits (by omega)
  have low : (value + (align - 1)) &&& (align - 1) ≤ align - 1 :=
    Nat.and_le_right
  rw [alignUp_eq positive fits]
  omega

/-- For a power of two the aligned value is a multiple of it. -/
theorem alignUp_dvd
    {value align : Nat}
    (powerOfTwo : ∃ exponent, align = 2 ^ exponent)
    (fits : value + (align - 1) < sizeLimit) :
    align ∣ alignUp value align := by
  rcases powerOfTwo with ⟨exponent, rfl⟩
  have positive : 0 < 2 ^ exponent := Nat.two_pow_pos exponent
  have split :
      ((value + (2 ^ exponent - 1)) &&& sizeNot (2 ^ exponent - 1)) +
          ((value + (2 ^ exponent - 1)) &&& (2 ^ exponent - 1)) =
        value + (2 ^ exponent - 1) :=
    and_sizeNot_add_and fits (by omega)
  rw [Nat.and_two_pow_sub_one_eq_mod] at split
  have aligned :
      (value + (2 ^ exponent - 1)) &&& sizeNot (2 ^ exponent - 1) =
        (value + (2 ^ exponent - 1)) -
          (value + (2 ^ exponent - 1)) % 2 ^ exponent := by
    omega
  rw [alignUp_eq positive fits, aligned]
  exact Nat.dvd_sub_mod _

/-- The macro yields a multiple of the power of two also when a sum wraps. -/
theorem alignUp_dvd_of_wrap
    {exponent : Nat} (value : Nat) (bounded : exponent < 64) :
    2 ^ exponent ∣ alignUp value (2 ^ exponent) := by
  have positive : 0 < 2 ^ exponent := Nat.two_pow_pos exponent
  have small : 2 ^ exponent < sizeLimit :=
    Nat.pow_lt_pow_right (by decide) bounded
  have mask : sizeSub (2 ^ exponent) 1 = 2 ^ exponent - 1 :=
    sizeSub_eq positive small
  unfold alignUp
  rw [mask]
  generalize padded : sizeSub (sizeAdd value (2 ^ exponent)) 1 = sum
  have fits : sum < sizeLimit := by
    rw [← padded]
    exact Nat.mod_lt _ (by decide)
  have split := and_sizeNot_add_and fits
    (show 2 ^ exponent - 1 < sizeLimit by omega)
  rw [Nat.and_two_pow_sub_one_eq_mod] at split
  have aligned : (sum &&& sizeNot (2 ^ exponent - 1)) =
      sum - sum % 2 ^ exponent := by
    omega
  rw [aligned]
  exact Nat.dvd_sub_mod _

/-! ## `cu_next_pow2` -/

/-- One step of the smear: set every bit `shift` places below a set bit. -/
def smear (value shift : Nat) : Nat := value ||| value >>> shift

/-- The least power of two that is not below `value`. -/
def nextPow2 (value : Nat) : Nat :=
  if value ≤ 1 then
    1
  else
    let value := sizeSub value 1
    let value := smear value 1
    let value := smear value 2
    let value := smear value 4
    let value := smear value 8
    let value := smear value 16
    let value := smear value 32
    sizeAdd value 1

/--
Of a number whose leading bit is `top`, the bits from the leading one down
to `depth` places below it are set.
-/
def Smeared (top depth value : Nat) : Prop :=
  (∀ index, index ≤ top → top < index + depth →
    value.testBit index = true) ∧
  ∀ index, top < index → value.testBit index = false

theorem Smeared.step {top depth value : Nat}
    (smeared : Smeared top depth value) :
    Smeared top (depth + depth) (smear value depth) := by
  constructor
  · intro index low near
    rw [smear, Nat.testBit_or, Nat.testBit_shiftRight, Bool.or_eq_true]
    by_cases close : top < index + depth
    · exact Or.inl (smeared.1 index low close)
    · exact Or.inr (smeared.1 (depth + index) (by omega) (by omega))
  · intro index high
    rw [smear, Nat.testBit_or, Nat.testBit_shiftRight,
      smeared.2 index high, smeared.2 (depth + index) (by omega)]
    rfl

theorem smeared_of_log {value : Nat} (positive : value ≠ 0) :
    Smeared (Nat.log 2 value) 1 value := by
  constructor
  · intro index low near
    have leading : index = Nat.log 2 value := by omega
    subst leading
    rw [Nat.testBit_eq_decide_div_mod_eq]
    have lower := Nat.pow_log_le_self 2 positive
    have upper := Nat.lt_pow_succ_log_self (b := 2) (by decide) value
    have quotient : value / 2 ^ Nat.log 2 value = 1 := by
      rw [pow_succ] at upper
      exact Nat.div_eq_of_lt_le (by omega) (by omega)
    simp [quotient]
  · intro index high
    apply Nat.testBit_lt_two_pow
    exact Nat.lt_pow_of_log_lt (by decide) high

theorem eq_of_smeared {top depth value : Nat}
    (smeared : Smeared top depth value) (deep : top < depth) :
    value = 2 ^ (top + 1) - 1 := by
  apply Nat.eq_of_testBit_eq
  intro index
  rw [Nat.testBit_two_pow_sub_one]
  by_cases low : index ≤ top
  · simp [smeared.1 index low (by omega), Nat.lt_succ_of_le low]
  · rw [smeared.2 index (by omega)]
    simp only [Bool.false_eq, decide_eq_false_iff_not]
    omega

theorem clog_eq_log_pred {value : Nat} (large : 2 ≤ value) :
    Nat.clog 2 value = Nat.log 2 (value - 1) + 1 := by
  apply le_antisymm
  · rw [Nat.clog_le_iff_le_pow (by decide)]
    have upper := Nat.lt_pow_succ_log_self (b := 2) (by decide) (value - 1)
    omega
  · rw [Nat.succ_le_iff, Nat.lt_clog_iff_pow_lt (by decide)]
    have lower := Nat.pow_log_le_self 2 (x := value - 1) (by omega)
    omega

/--
The result is the power of two with the ceiling exponent, reduced to 64
bits: above `2 ^ 63` it is zero.
-/
theorem nextPow2_eq_mod {value : Nat} (fits : value < sizeLimit) :
    nextPow2 value = 2 ^ Nat.clog 2 value % sizeLimit := by
  by_cases small : value ≤ 1
  · simp only [nextPow2, small, if_true, Nat.clog_of_right_le_one small,
      pow_zero]
    decide
  · have previous : value - 1 ≠ 0 := by omega
    have topBound : Nat.log 2 (value - 1) < 64 :=
      Nat.log_lt_of_lt_pow previous (by unfold sizeLimit at fits; omega)
    have filled :=
      eq_of_smeared
        (smeared_of_log previous).step.step.step.step.step.step
        (by omega)
    have nonzero := Nat.two_pow_pos (Nat.log 2 (value - 1) + 1)
    simp only [nextPow2, small, if_false,
      sizeSub_eq (Nat.le_of_not_le small) fits, filled,
      clog_eq_log_pred (Nat.lt_of_not_le small), sizeAdd]
    rw [Nat.sub_add_cancel nonzero]

/-- Up to `2 ^ 63` the result is the exact power of two. -/
theorem nextPow2_eq {value : Nat} (bounded : value ≤ 2 ^ 63) :
    nextPow2 value = 2 ^ Nat.clog 2 value := by
  have exponent : Nat.clog 2 value ≤ 63 :=
    Nat.clog_le_of_le_pow bounded
  have small : 2 ^ Nat.clog 2 value ≤ 2 ^ 63 :=
    Nat.pow_le_pow_right (by decide) exponent
  rw [nextPow2_eq_mod (by unfold sizeLimit; omega)]
  exact Nat.mod_eq_of_lt (by unfold sizeLimit; omega)

theorem le_nextPow2 {value : Nat} (bounded : value ≤ 2 ^ 63) :
    value ≤ nextPow2 value := by
  rw [nextPow2_eq bounded]
  exact Nat.le_pow_clog (by decide) value

end Libcute.Core.Size
