import Mathlib.Data.Finite.Defs
import Mathlib.Data.Fintype.EquivFin
import Libcute.Library.ByteWords

/-!
# Mixing words into a state

A hash function takes in the words of a message one after the other.  Where
every word permutes the states, and where in every state different words lead
to different states, a message can be told from each one that differs from it
in a single word: `Mixes.foldl_tells`.  The operations that such functions are
made of are permutations of the bit vectors.
-/

namespace Libcute.Library.Mixing

open Libcute.Library.ByteWords

variable {State Word : Type} {absorb : State → Word → State}

/-! ## Absorbing -/

/-- No step forgets the state or the word. -/
structure Mixes (absorb : State → Word → State) : Prop where
  keeps : ∀ word, Function.Injective (absorb · word)
  tells : ∀ state, Function.Injective (absorb state)

/-- Words keep apart what is apart. -/
theorem Mixes.foldl_keeps (mixes : Mixes absorb) (words : List Word) :
    Function.Injective fun state => words.foldl absorb state := by
  induction words with
  | nil => exact fun _ _ same => same
  | cons word words induction =>
      intro left right same
      exact mixes.keeps word (induction same)

/-- A word can be told from the state behind it. -/
theorem Mixes.foldl_tells
    (mixes : Mixes absorb) (front back : List Word) (state : State) :
    Function.Injective fun word =>
      (front ++ word :: back).foldl absorb state := by
  intro word word' same
  dsimp only at same
  rw [List.foldl_append, List.foldl_append, List.foldl_cons,
    List.foldl_cons] at same
  exact mixes.tells _ (mixes.foldl_keeps back same)

theorem range_split {count place : Nat} (inside : place < count) :
    List.range count =
      List.range place ++
        place :: List.range' (place + 1) (count - place - 1) := by
  have parts : count = place + (count - place - 1 + 1) := by omega
  rw [List.range_eq_range', List.range_eq_range']
  conv_lhs => rw [parts]
  rw [← List.range'_append_1, Nat.zero_add, List.range'_succ]

/-- The same for the words of a function that are read at places in turn. -/
theorem Mixes.foldl_range
    (mixes : Mixes absorb) {left right : Nat → Word} {count place : Nat}
    (inside : place < count) (state : State)
    (alike : ∀ i < count, i ≠ place → left i = right i) :
    ((List.range count).map left).foldl absorb state =
        ((List.range count).map right).foldl absorb state ↔
      left place = right place := by
  have before : (List.range place).map left =
      (List.range place).map right := by
    apply List.map_congr_left
    intro i among
    have low := List.mem_range.mp among
    exact alike i (low.trans inside) low.ne
  have after : (List.range' (place + 1) (count - place - 1)).map left =
      (List.range' (place + 1) (count - place - 1)).map right := by
    apply List.map_congr_left
    intro i among
    rw [List.mem_range'_1] at among
    exact alike i (by omega) (by omega)
  rw [range_split inside, List.map_append, List.map_append, List.map_cons,
    List.map_cons, before, after]
  exact (mixes.foldl_tells _ _ state).eq_iff

/-! ## Bit vectors -/

variable {w : Nat}

theorem xor_injective (value : BitVec w) :
    Function.Injective (value ^^^ ·) :=
  fun _ _ same => (BitVec.xor_right_inj value).mp same

/-- A number that is its own shift is zero. -/
theorem xorShift_injective {count : Nat} (positive : 0 < count) :
    Function.Injective fun value : BitVec w => value ^^^ value >>> count := by
  intro left right same
  have shifts : (left ^^^ right) >>> count = left ^^^ right := by
    rw [BitVec.ushiftRight_xor_distrib]
    dsimp only at same
    have moved : left ^^^ (left ^^^ left >>> count) ^^^ right >>> count =
        left ^^^ (right ^^^ right >>> count) ^^^ right >>> count := by
      rw [same]
    rw [← BitVec.xor_assoc, BitVec.xor_self, BitVec.zero_xor] at moved
    rw [moved, BitVec.xor_assoc, BitVec.xor_assoc, BitVec.xor_self,
      BitVec.xor_zero]
  have number : (left ^^^ right).toNat / 2 ^ count =
      (left ^^^ right).toNat := by
    rw [← Nat.shiftRight_eq_div_pow, ← BitVec.toNat_ushiftRight, shifts]
  have zero : (left ^^^ right).toNat = 0 := by
    by_contra large
    have less := Nat.div_lt_self (Nat.pos_of_ne_zero large)
      (Nat.one_lt_two_pow positive.ne')
    omega
  apply (BitVec.xor_left_inj right).mp
  rw [BitVec.xor_self]
  exact BitVec.eq_of_toNat_eq zero

theorem mul_injective {factor inverse : BitVec w}
    (inverts : factor * inverse = 1#w) :
    Function.Injective fun value : BitVec w => value * factor := by
  intro left right same
  have moved := congrArg (· * inverse) same
  dsimp only at moved
  rwa [BitVec.mul_assoc, BitVec.mul_assoc, inverts, BitVec.mul_one,
    BitVec.mul_one] at moved

theorem rotateLeft_injective {count : Nat} (inside : count < w) :
    Function.Injective fun value : BitVec w => value.rotateLeft count := by
  intro left right same
  apply BitVec.eq_of_getLsbD_eq
  intro i below
  have bits := fun j => congrArg (fun value => value.getLsbD j) same
  dsimp only at bits
  by_cases low : i < w - count
  · have bit := bits (count + i)
    rw [BitVec.getLsbD_rotateLeft_of_le inside,
      BitVec.getLsbD_rotateLeft_of_le inside,
      decide_eq_false (by omega), decide_eq_true (by omega)] at bit
    simpa using bit
  · have bit := bits (i - (w - count))
    rw [BitVec.getLsbD_rotateLeft_of_le inside,
      BitVec.getLsbD_rotateLeft_of_le inside,
      decide_eq_true (show i - (w - count) < count by omega)] at bit
    have back : w - count + (i - (w - count)) = i := by omega
    simpa [back] using bit

/-- A permutation of the bit vectors takes every value. -/
theorem bijective_of_injective {function : BitVec w → BitVec w}
    (injective : Function.Injective function) :
    Function.Bijective function := by
  have finite : Finite (BitVec w) :=
    Finite.of_injective BitVec.toFin fun _ _ same => BitVec.eq_of_toFin_eq same
  exact Finite.injective_iff_bijective.mp injective

/-! ## Bytes of a word -/

variable {left right : List UInt8} {size i : Nat}

theorem littleEndian_lt (bytes : List UInt8) :
    littleEndian bytes < 256 ^ bytes.length := by
  induction bytes with
  | nil => exact Nat.one_pos
  | cons byte bytes induction =>
      have small := byte.toNat_lt
      rw [littleEndian_cons, List.length_cons, pow_succ]
      omega

theorem littleEndian_injective (long : left.length = right.length)
    (same : littleEndian left = littleEndian right) : left = right := by
  induction left generalizing right with
  | nil => exact (List.length_eq_zero_iff.mp long.symm).symm
  | cons byte left induction =>
      rcases right with _ | ⟨other, right⟩
      · cases long
      have small := byte.toNat_lt
      have small' := other.toNat_lt
      rw [littleEndian_cons, littleEndian_cons] at same
      have first : byte = other := UInt8.toNat_inj.mp (by omega)
      rw [first, induction (Nat.succ.inj long) (by omega)]

theorem message_congr {bytes bytes' : Nat → UInt8} {len : Nat}
    (same : ∀ i < len, bytes' i = bytes i) :
    message bytes' len = message bytes len :=
  List.map_congr_left fun i among => same i (List.mem_range.mp among)

/-- The input with a word in place of the one that starts at `size * i`. -/
def withWord (bytes : Nat → UInt8) (size i word : Nat) : Nat → UInt8 :=
  fun place =>
    if place / size = i then
      UInt8.ofNat (word / 256 ^ (place % size))
    else
      bytes place

theorem littleEndian_digits (word count : Nat) :
    littleEndian ((List.range count).map fun j =>
      UInt8.ofNat (word / 256 ^ j)) = word % 256 ^ count := by
  induction count with
  | zero => rw [pow_zero, Nat.mod_one]; rfl
  | succ count induction =>
      rw [List.range_succ, List.map_append, littleEndian_append, induction,
        List.length_map, List.length_range, List.map_singleton,
        littleEndian_cons, Nat.mod_pow_succ]
      have digit : (UInt8.ofNat (word / 256 ^ count)).toNat =
          word / 256 ^ count % 256 := UInt8.toNat_ofNat'
      rw [digit]
      rfl

theorem littleEndian_withWord (bytes : Nat → UInt8) (word : Nat)
    (positive : 0 < size) :
    littleEndian ((List.range' (size * i) size).map
      (withWord bytes size i word)) = word % 256 ^ size := by
  rw [← littleEndian_digits, List.range'_eq_map_range, List.map_map]
  congr 1
  apply List.map_congr_left
  intro j among
  have below := List.mem_range.mp among
  dsimp only [Function.comp, withWord]
  rw [Nat.mul_add_div positive, Nat.div_eq_of_lt below, Nat.add_zero,
    if_pos rfl, Nat.mul_add_mod, Nat.mod_eq_of_lt below]

end Libcute.Library.Mixing
