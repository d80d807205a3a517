import Mathlib.Data.Nat.Digits.Lemmas
import Libcute.Core.Size
import Libcute.Text.Format

/-!
# Numerals

The text that `format_number` writes for a number: its digits in the base,
the first one first, behind a sign if there is one.
-/

namespace Libcute.Text.Format

open Libcute.Core.Size

variable {base num : Nat} {uppercase : Bool} {text : List UInt8}

/-- The character for a digit. -/
def digitChar (uppercase : Bool) (digit : Nat) : UInt8 :=
  (digits uppercase).getD digit 0

theorem digitChar_written
    {digit : Nat} (small : digit < 16) (uppercase : Bool) :
    (digits uppercase)[digit]? = some (digitChar uppercase digit) ∧
      digitChar uppercase digit ≠ 0 := by
  have all : ∀ digit : Fin 16, ∀ uppercase,
      (digits uppercase)[digit.val]? = some (digitChar uppercase digit) ∧
        digitChar uppercase digit ≠ 0 := by
    decide
  exact all ⟨digit, small⟩ uppercase

/-- The digits of a number, the first one first. -/
def leading (base num : Nat) : List Nat :=
  if num = 0 then [0] else (Nat.digits base num).reverse

/-- The text of a number. -/
def numeral (base : Nat) (uppercase : Bool) (num : Nat) : List UInt8 :=
  (leading base num).map (digitChar uppercase)

theorem leading_ne_nil (base num : Nat) : leading base num ≠ [] := by
  unfold leading
  split_ifs with zero
  · exact List.cons_ne_nil _ _
  · rw [Ne, List.reverse_eq_nil_iff, Nat.digits_eq_nil_iff_eq_zero]
    exact zero

theorem leading_lt (two : 2 ≤ base) :
    ∀ digit ∈ leading base num, digit < base := by
  unfold leading
  intro digit member
  split_ifs at member with zero
  · rw [List.mem_singleton.mp member]
    omega
  · exact Nat.digits_lt_base two (List.mem_reverse.mp member)

/-- The loop writes the digits of a number, if there is room for them. -/
theorem digitLoop_eq
    (two : 2 ≤ base) (small : base ≤ 16) (uppercase : Bool) {room : Nat}
    (enough : (Nat.digits base num).length ≤ room) :
    digitLoop base uppercase room num =
      some ((Nat.digits base num).map (digitChar uppercase)) := by
  induction room generalizing num with
  | zero =>
      have none : Nat.digits base num = [] :=
        List.length_eq_zero_iff.mp (Nat.le_zero.mp enough)
      rw [Nat.digits_eq_nil_iff_eq_zero] at none
      subst none
      rw [Nat.digits_zero]
      rfl
  | succ room induction =>
      cases num with
      | zero =>
          rw [Nat.digits_zero]
          rfl
      | succ num =>
          have digits := Nat.digits_def' two (Nat.succ_pos num)
          have digit : (num + 1) % base < 16 :=
            (Nat.mod_lt _ (by omega)).trans_le small
          rw [digits, List.length_cons] at enough
          unfold digitLoop
          rw [(digitChar_written digit uppercase).1,
            induction (Nat.le_of_succ_le_succ enough), digits]
          rfl

/-- A number of 64 bits has at most 20 digits. -/
theorem leading_length
    (ten : 10 ≤ base) (fits : num < sizeLimit) :
    (leading base num).length ≤ 20 := by
  have wide : 10 ^ 20 ≤ base ^ 20 := Nat.pow_le_pow_left ten 20
  unfold sizeLimit at fits
  unfold leading
  split_ifs with zero
  · exact (by decide : 1 ≤ 20)
  · rw [List.length_reverse, Nat.digits_length_le_iff (by omega)]
    omega

/-- The text of a number with its sign. -/
def signed (negative : Bool) (text : List UInt8) : List UInt8 :=
  if negative then ascii '-' :: text else text

theorem formatNumber_eq
    (ten : 10 ≤ base) (small : base ≤ 16) (fits : num < sizeLimit)
    (isSigned isNegative uppercase : Bool) :
    formatNumber 64 num isSigned isNegative base uppercase =
      some (signed (isSigned && isNegative) (numeral base uppercase num),
        (signed (isSigned && isNegative)
          (numeral base uppercase num)).length) := by
  have short := leading_length ten fits
  have temp : (if num = 0 then some [ascii '0']
      else digitLoop base uppercase 64 num) =
        some (numeral base uppercase num).reverse := by
    unfold numeral leading at *
    split_ifs with zero
    · cases uppercase <;> rfl
    · rw [if_neg zero, List.length_reverse] at short
      rw [digitLoop_eq (by omega) small uppercase (by omega),
        List.map_reverse, List.reverse_reverse]
  have counted : (numeral base uppercase num).length =
      (leading base num).length := List.length_map _
  unfold formatNumber signed
  rw [if_neg (by decide)]
  dsimp only
  rw [temp]
  dsimp only [Option.bind_some]
  cases isSigned && isNegative with
  | true =>
      have long : ((numeral base uppercase num).reverse ++
          [ascii '-']).length = (numeral base uppercase num).length + 1 := by
        rw [List.length_append, List.length_reverse, List.length_singleton]
      rw [if_pos rfl, if_pos rfl, if_neg (by omega), List.reverse_append,
        List.reverse_reverse, List.reverse_singleton, List.singleton_append,
        long, List.take_of_length_le (by rw [List.length_cons]; omega),
        List.length_cons]
  | false =>
      rw [if_neg Bool.false_ne_true, if_neg Bool.false_ne_true,
        if_neg (by rw [List.length_reverse]; omega), List.reverse_reverse,
        List.length_reverse, List.take_of_length_le (by omega)]

theorem numeral_nonzero (two : 2 ≤ base) (small : base ≤ 16) :
    ∀ c ∈ numeral base uppercase num, c ≠ 0 := by
  intro c member
  rcases List.mem_map.mp member with ⟨digit, among, rfl⟩
  exact (digitChar_written ((leading_lt two digit among).trans_le small)
    uppercase).2

theorem signed_nonzero
    (nonzero : ∀ c ∈ text, c ≠ 0) (negative : Bool) :
    ∀ c ∈ signed negative text, c ≠ 0 := by
  unfold signed
  split_ifs
  · exact List.forall_mem_cons.mpr ⟨by decide, nonzero⟩
  · exact nonzero

end Libcute.Text.Format
