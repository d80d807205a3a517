import Libcute.Core.Size
import Libcute.Library.BitArray
import Libcute.Library.IndexSets

/-!
# Bit sets

The macros of `bitset.h` declare a set of a fixed size: an array of bytes
inside the structure.  The masks are of type `unsigned int`; a byte is
widened before an operator is applied and narrowed when it is stored.

The number of bytes is a constant expression of type `size_t`.  It wraps for
the last seven sizes, and C has no array of length zero.
-/

namespace Libcute.Collection.Bitset

open Libcute.Core.Size
open Libcute.Library
open Libcute.Library.IndexSets

/-- `((SIZE) + 7) / 8` -/
def byteCount (size : Nat) : Nat := sizeAdd size 7 / 8

/-- The array of the structure has a length that C allows. -/
def Declarable (size : Nat) : Prop := 0 < byteCount size

/-- `NAME##_BitSet` -/
structure BitSet (size : Nat) where
  bits : List (BitVec 8)
  declared : bits.length = byteCount size

/-- `1u << (index % 8)` -/
def mask (index : Nat) : BitVec 32 := 1#32 <<< (index % 8)

/-- `bits |= mask` for a byte -/
def setBit (index : Nat) (byte : BitVec 8) : BitVec 8 :=
  (byte.setWidth 32 ||| mask index).setWidth 8

/-- `bits &= (uint8_t)~mask` for a byte -/
def clearBit (index : Nat) (byte : BitVec 8) : BitVec 8 :=
  (byte.setWidth 32 &&& ((~~~mask index).setWidth 8).setWidth 32).setWidth 8

namespace BitSet

variable {size : Nat}

/-- `NAME##_BitSet_create` -/
def create (size : Nat) : BitSet size where
  bits := List.replicate (byteCount size) 0
  declared := List.length_replicate

/-- `NAME##_BitSet_set` -/
def set (bitset : BitSet size) (index : Nat) : BitSet size :=
  if index < size then
    { bits := bitset.bits.modify (index / 8) (setBit index)
      declared := (List.length_modify _ _ _).trans bitset.declared }
  else
    bitset

/-- `NAME##_BitSet_clear` -/
def clear (bitset : BitSet size) (index : Nat) : BitSet size :=
  if index < size then
    { bits := bitset.bits.modify (index / 8) (clearBit index)
      declared := (List.length_modify _ _ _).trans bitset.declared }
  else
    bitset

/-- `NAME##_BitSet_get` -/
def get (bitset : BitSet size) (index : Nat) : Bool :=
  decide (index < size) &&
    ((bitset.bits.getD (index / 8) 0).setWidth 32 &&& mask index) != 0

/-- `NAME##_BitSet_clear_all`, over `sizeof(set->bits)` bytes. -/
def clearAll (bitset : BitSet size) : BitSet size where
  bits := BitArray.clearFrom bitset.bits (byteCount size) 0
  declared := (BitArray.length_clearFrom _ _ _).trans bitset.declared

/-- One operation on the set. -/
def perform (bitset : BitSet size) : Operation → BitSet size
  | .set index => bitset.set index
  | .clear index => bitset.clear index
  | .clearAll => bitset.clearAll

/-- A sequence of operations on the set. -/
def run (bitset : BitSet size) (operations : List Operation) : BitSet size :=
  operations.foldl perform bitset

/-- The bytes that getting, setting or clearing an index accesses. -/
def accessed (_bitset : BitSet size) (index : Nat) : List Nat :=
  if index < size then [index / 8] else []

/-- All accesses are to bytes of the array. -/
structure Inside (bitset : BitSet size) : Prop where
  one : ∀ index, ∀ position ∈ bitset.accessed index,
    position < bitset.bits.length
  /-- The loop of `NAME##_BitSet_clear_all`. -/
  all : ∀ position < byteCount size, position < bitset.bits.length

end BitSet

/-! ## Bytes -/

theorem mask_eq (index : Nat) : mask index = BitVec.twoPow 32 (index % 8) :=
  (BitVec.twoPow_eq 32 (index % 8)).symm

theorem setWidth_mask (index : Nat) :
    (mask index).setWidth 8 = BitVec.twoPow 8 (index % 8) := by
  rw [mask_eq]
  apply BitVec.eq_of_getLsbD_eq
  intro position inside
  simp only [BitVec.getLsbD_setWidth, BitVec.getLsbD_twoPow, inside,
    decide_true, Bool.true_and]
  congr 1
  simp only [decide_eq_decide]
  omega

theorem setBit_eq (index : Nat) (byte : BitVec 8) :
    setBit index byte = byte ||| BitVec.twoPow 8 (index % 8) := by
  unfold setBit
  rw [BitVec.setWidth_or, BitVec.setWidth_setWidth_of_le _ (by decide),
    BitVec.setWidth_eq, setWidth_mask]

theorem clearBit_eq (index : Nat) (byte : BitVec 8) :
    clearBit index byte = byte &&& ~~~BitVec.twoPow 8 (index % 8) := by
  unfold clearBit
  rw [BitVec.setWidth_and, BitVec.setWidth_setWidth_of_le _ (by decide),
    BitVec.setWidth_eq, BitVec.setWidth_setWidth_of_le _ (by decide),
    BitVec.setWidth_eq, BitVec.setWidth_not (by decide), setWidth_mask]

theorem and_mask_ne_zero (byte : BitVec 8) (index : Nat) :
    (byte.setWidth 32 &&& mask index != 0) = byte.getLsbD (index % 8) := by
  have inside : index % 8 < 32 := by omega
  rw [mask_eq, BitArray.and_twoPow_ne_zero _ inside, BitVec.getLsbD_setWidth]
  simp [inside]

theorem writes_setBit (index : Nat) :
    BitArray.Writes (setBit index) (index % 8) true := by
  rw [funext (setBit_eq index)]
  exact BitArray.writes_or_twoPow _

theorem writes_clearBit (index : Nat) :
    BitArray.Writes (clearBit index) (index % 8) false := by
  rw [funext (clearBit_eq index)]
  exact BitArray.writes_and_not_twoPow _

theorem byteCount_eq {size : Nat} (fits : size + 7 < sizeLimit) :
    byteCount size = (size + 7) / 8 := by
  unfold byteCount
  rw [sizeAdd_eq fits]

/-- C has the array unless the number of bytes wraps. -/
theorem declarable_iff {size : Nat} (word : size < sizeLimit) :
    Declarable size ↔ 1 ≤ size ∧ size + 7 < sizeLimit := by
  unfold Declarable
  by_cases fits : size + 7 < sizeLimit
  · rw [byteCount_eq fits]
    omega
  · unfold byteCount sizeAdd
    unfold sizeLimit at *
    omega

namespace BitSet

variable {size index : Nat} {bitset : BitSet size}

/-! ## Answers -/

theorem get_eq (bitset : BitSet size) (index : Nat) :
    bitset.get index = BitArray.lookup bitset.bits size index := by
  unfold get
  rw [and_mask_ne_zero]
  rfl

theorem set_bits (bitset : BitSet size) (index : Nat) :
    (bitset.set index).bits =
      BitArray.write bitset.bits size index (setBit index) := by
  unfold set BitArray.write
  split_ifs <;> rfl

theorem clear_bits (bitset : BitSet size) (index : Nat) :
    (bitset.clear index).bits =
      BitArray.write bitset.bits size index (clearBit index) := by
  unfold clear BitArray.write
  split_ifs <;> rfl

/-- The byte of an index is one of the array. -/
theorem byte_inside (bitset : BitSet size) (declarable : Declarable size)
    (word : size < sizeLimit) (inside : index < size) :
    index / 8 < bitset.bits.length := by
  have fits := ((declarable_iff word).mp declarable).2
  rw [bitset.declared, byteCount_eq fits]
  omega

theorem inside (bitset : BitSet size) (declarable : Declarable size)
    (word : size < sizeLimit) : bitset.Inside where
  one := by
    intro index position member
    unfold accessed at member
    split_ifs at member with below
    · rw [List.mem_singleton.mp member]
      exact bitset.byte_inside declarable word below
    · cases member
  all position below := bitset.declared ▸ below

theorem create_get (size index : Nat) : (create size).get index = false := by
  rw [get_eq]
  exact BitArray.lookup_replicate (byteCount size) size index

theorem get_set (bitset : BitSet size) (declarable : Declarable size)
    (word : size < sizeLimit) (index other : Nat) :
    (bitset.set index).get other =
      (bitset.get other || decide (other = index ∧ index < size)) := by
  rw [get_eq, get_eq, set_bits]
  exact BitArray.lookup_set (by decide)
    (bitset.byte_inside declarable word) (writes_setBit index) other

theorem get_clear (bitset : BitSet size) (declarable : Declarable size)
    (word : size < sizeLimit) (index other : Nat) :
    (bitset.clear index).get other =
      (bitset.get other && decide (other ≠ index)) := by
  rw [get_eq, get_eq, clear_bits]
  exact BitArray.lookup_clear (by decide)
    (bitset.byte_inside declarable word) (writes_clearBit index) other

theorem get_clearAll (bitset : BitSet size) (index : Nat) :
    bitset.clearAll.get index = false := by
  have cleared : bitset.clearAll.bits =
      List.replicate bitset.bits.length 0 :=
    BitArray.clearFrom_all bitset.declared.le
  rw [get_eq, cleared, BitArray.lookup_replicate]

/-- One operation on the bytes is one on the set of indices. -/
theorem simulates (declarable : Declarable size) (word : size < sizeLimit) :
    Simulates size (@get size) perform fun _ => True where
  kept := fun _ _ _ => trivial
  answers := by
    intro bitset operation index _
    cases operation with
    | set own => exact bitset.get_set declarable word own index
    | clear own => exact bitset.get_clear declarable word own index
    | clearAll => exact bitset.get_clearAll index

/-- After every run the bytes hold the set of indices. -/
theorem represents (declarable : Declarable size) (word : size < sizeLimit) :
    Represents size fun operations => ((create size).run operations).get :=
  (simulates declarable word).represents trivial (create_get size)

end BitSet

end Libcute.Collection.Bitset
