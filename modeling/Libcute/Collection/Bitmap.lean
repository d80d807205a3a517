import Mathlib.Data.Finset.Card
import Mathlib.Data.Finset.Range
import Libcute.Library.BitArray
import Libcute.Memory.HostedRegions

/-!
# Bitmaps

`cu_Bitmap` from `bitmap.c`: an array of 64-bit words together with the
number of bits it stands for.  Reading and writing a bit outside that number
has no effect.

`indices` is the set the bitmap denotes; `set` and `clear` insert into it
and erase from it.
-/

namespace Libcute.Collection.Bitmap

open Libcute.Core.Interface
open Libcute.Core.Size
open Libcute.Library
open Libcute.Library.ByteMemory
open Libcute.Memory.BackingAllocator
open Libcute.Memory.HostedRegions

/-- `cu_Bitmap`.  `addr` is the address of the words. -/
structure Bits where
  addr : Nat
  bits : List (BitVec 64)
  bitCount : Nat
deriving DecidableEq, Repr

/-- The number of words for `bitCount` bits. -/
def wordCount (bitCount : Nat) : Nat :=
  sizeSub (sizeAdd bitCount 64) 1 / 64

/-- A bitmap whose words at `addr` have been zeroed. -/
def zeroed (addr bitCount : Nat) : Bits :=
  ⟨addr, List.replicate (wordCount bitCount) 0, bitCount⟩

/-- `cu_Bitmap_create` -/
def bitmapCreate (backing : Backing) (bitCount : Nat) :
    Option Bits × Backing :=
  if bitCount = 0 then
    (none, backing)
  else
    let size := sizeMul (wordCount bitCount) 8
    match backing.alloc (Layout.create size 8) with
    | (.error _, backing) => (none, backing)
    | (.ok mem, backing) => (some (zeroed mem.ptr bitCount), backing)

theorem bitmapCreate_log (backing : Backing) (bitCount : Nat) :
    backing.log <:+ (bitmapCreate backing bitCount).2.log := by
  unfold bitmapCreate
  by_cases empty : bitCount = 0
  · simp only [empty, if_true]
    exact List.suffix_refl _
  · rcases backing.alloc_log
        (Layout.create (sizeMul (wordCount bitCount) 8) 8) with
      ⟨answer, asked⟩
    have longer : backing.log <:+
        (backing.alloc
          (Layout.create (sizeMul (wordCount bitCount) 8) 8)).2.log := by
      rw [asked]
      exact List.suffix_cons _ _
    rw [if_neg empty]
    dsimp only
    generalize backing.alloc
      (Layout.create (sizeMul (wordCount bitCount) 8) 8) = result at longer ⊢
    rcases result with ⟨error | mem, after⟩
    · exact longer
    · exact longer

/-- The bytes of the words. -/
def Bits.region (bitmap : Bits) : Slice :=
  ⟨bitmap.addr, wordCount bitmap.bitCount * 8⟩

/-- `cu_Bitmap_destroy` -/
def bitmapDestroy (backing : Backing) (bitmap : Bits) : Backing :=
  if bitmap.addr = 0 then
    backing
  else
    backing.free ⟨bitmap.addr, sizeMul (wordCount bitmap.bitCount) 8⟩

/-- `(size_t)1 << bitOffset` -/
def mask (index : Nat) : BitVec 64 := 1#64 <<< (index % 64)

/-- `cu_Bitmap_get` -/
def Bits.get (bitmap : Bits) (index : Nat) : Bool :=
  if bitmap.bitCount ≤ index then
    false
  else
    (bitmap.bits.getD (index / 64) 0 &&& mask index) != 0

/-- `cu_Bitmap_set` -/
def Bits.set (bitmap : Bits) (index : Nat) : Bits :=
  if bitmap.bitCount ≤ index then
    bitmap
  else
    { bitmap with
      bits := bitmap.bits.modify (index / 64) (· ||| mask index) }

/-- `cu_Bitmap_clear` -/
def Bits.clear (bitmap : Bits) (index : Nat) : Bits :=
  if bitmap.bitCount ≤ index then
    bitmap
  else
    { bitmap with
      bits := bitmap.bits.modify (index / 64) (· &&& ~~~mask index) }

/-- The words cover all bits. -/
def Bits.Covered (bitmap : Bits) : Prop :=
  bitmap.bitCount ≤ 64 * bitmap.bits.length

variable {bitmap : Bits} {index other : Nat}

theorem mask_eq (index : Nat) : mask index = BitVec.twoPow 64 (index % 64) :=
  (BitVec.twoPow_eq 64 (index % 64)).symm

theorem and_mask_ne_zero (word : BitVec 64) (index : Nat) :
    (word &&& mask index != 0) = word.getLsbD (index % 64) := by
  rw [mask_eq, BitArray.and_twoPow_ne_zero _ (Nat.mod_lt _ (by decide))]

theorem writes_or_mask (index : Nat) :
    BitArray.Writes (· ||| mask index) (index % 64) true := by
  rw [mask_eq]
  exact BitArray.writes_or_twoPow _

theorem writes_and_not_mask (index : Nat) :
    BitArray.Writes (· &&& ~~~mask index) (index % 64) false := by
  rw [mask_eq]
  exact BitArray.writes_and_not_twoPow _

/-- A bit of the bitmap is a bit of one of its words. -/
theorem Bits.get_eq (bitmap : Bits) (index : Nat) :
    bitmap.get index =
      BitArray.lookup bitmap.bits bitmap.bitCount index := by
  unfold Bits.get BitArray.lookup
  split_ifs with outside
  · simp [outside]
  · rw [and_mask_ne_zero, decide_eq_true (Nat.lt_of_not_le outside)]
    rfl

theorem Bits.get_of_le (outside : bitmap.bitCount ≤ index) :
    bitmap.get index = false := by
  rw [Bits.get, if_pos outside]

@[simp]
theorem Bits.set_bitCount :
    (bitmap.set index).bitCount = bitmap.bitCount := by
  unfold Bits.set
  split_ifs <;> rfl

@[simp]
theorem Bits.clear_bitCount :
    (bitmap.clear index).bitCount = bitmap.bitCount := by
  unfold Bits.clear
  split_ifs <;> rfl

theorem Bits.set_bits (bitmap : Bits) (index : Nat) :
    (bitmap.set index).bits =
      BitArray.write bitmap.bits bitmap.bitCount index
        (· ||| mask index) := by
  unfold Bits.set BitArray.write
  split_ifs with outside below below
  · omega
  · rfl
  · rfl
  · omega

theorem Bits.clear_bits (bitmap : Bits) (index : Nat) :
    (bitmap.clear index).bits =
      BitArray.write bitmap.bits bitmap.bitCount index
        (· &&& ~~~mask index) := by
  unfold Bits.clear BitArray.write
  split_ifs with outside below below
  · omega
  · rfl
  · rfl
  · omega

@[simp]
theorem Bits.set_addr : (bitmap.set index).addr = bitmap.addr := by
  unfold Bits.set
  split_ifs <;> rfl

@[simp]
theorem Bits.clear_addr : (bitmap.clear index).addr = bitmap.addr := by
  unfold Bits.clear
  split_ifs <;> rfl

theorem Bits.Covered.set (covered : bitmap.Covered) (index : Nat) :
    (bitmap.set index).Covered := by
  unfold Bits.Covered
  rw [Bits.set_bits, Bits.set_bitCount, BitArray.length_write]
  exact covered

theorem Bits.Covered.clear (covered : bitmap.Covered) (index : Nat) :
    (bitmap.clear index).Covered := by
  unfold Bits.Covered
  rw [Bits.clear_bits, Bits.clear_bitCount, BitArray.length_write]
  exact covered

/-- The word of an index is one of the array. -/
theorem Bits.Covered.word_inside (covered : bitmap.Covered)
    (inside : index < bitmap.bitCount) : index / 64 < bitmap.bits.length := by
  unfold Bits.Covered at covered
  omega

theorem Bits.get_set
    (covered : bitmap.Covered) (index other : Nat) :
    (bitmap.set index).get other =
      (bitmap.get other || decide (other = index ∧
        index < bitmap.bitCount)) := by
  rw [Bits.get_eq, Bits.get_eq, Bits.set_bits, Bits.set_bitCount]
  exact BitArray.lookup_set (by decide) covered.word_inside
    (writes_or_mask index) other

theorem Bits.get_clear
    (covered : bitmap.Covered) (index other : Nat) :
    (bitmap.clear index).get other =
      (bitmap.get other && decide (other ≠ index)) := by
  rw [Bits.get_eq, Bits.get_eq, Bits.clear_bits, Bits.clear_bitCount]
  exact BitArray.lookup_clear (by decide) covered.word_inside
    (writes_and_not_mask index) other

/-- Clearing a bit of a word in which it is clear changes nothing. -/
theorem and_not_mask {word : BitVec 64}
    (clear : (word &&& mask index != 0) = false) :
    word &&& ~~~mask index = word := by
  rw [and_mask_ne_zero] at clear
  apply BitVec.eq_of_getLsbD_eq
  intro offset inside
  have written := writes_and_not_mask index word offset inside
  dsimp only at written
  rw [written]
  split_ifs with here
  · rw [here, clear]
  · rfl

theorem Bits.clear_eq_self (clear : bitmap.get index = false) :
    bitmap.clear index = bitmap := by
  unfold Bits.clear
  unfold Bits.get at clear
  split_ifs at clear ⊢ with outside
  · rfl
  · have words : bitmap.bits.modify (index / 64) (· &&& ~~~mask index) =
        bitmap.bits := by
      apply List.ext_getElem?
      intro position
      rw [List.getElem?_modify]
      split_ifs with here
      · subst here
        rw [List.getD_eq_getElem?_getD] at clear
        cases found : bitmap.bits[index / 64]? with
        | none => rfl
        | some word =>
            rw [found, Option.getD_some] at clear
            exact congrArg some (and_not_mask clear)
      · exact Option.map_id'
    rw [words]

/-! ## The set of a bitmap -/

/-- The indices of the set bits. -/
def Bits.indices (bitmap : Bits) : Finset Nat :=
  (Finset.range bitmap.bitCount).filter fun index => bitmap.get index

theorem Bits.mem_indices :
    index ∈ bitmap.indices ↔ bitmap.get index = true := by
  constructor
  · intro member
    exact (Finset.mem_filter.mp member).2
  · intro set
    refine Finset.mem_filter.mpr ⟨?_, set⟩
    by_contra outside
    rw [Finset.mem_range, not_lt] at outside
    rw [Bits.get_of_le outside] at set
    cases set

theorem Bits.indices_subset :
    bitmap.indices ⊆ Finset.range bitmap.bitCount :=
  Finset.filter_subset _ _

theorem Bits.indices_set
    (covered : bitmap.Covered) (inside : index < bitmap.bitCount) :
    (bitmap.set index).indices = insert index bitmap.indices := by
  ext other
  rw [Bits.mem_indices, Bits.get_set covered, Finset.mem_insert,
    Bits.mem_indices]
  simp [inside, or_comm]

theorem Bits.indices_clear (covered : bitmap.Covered) (index : Nat) :
    (bitmap.clear index).indices = bitmap.indices.erase index := by
  ext other
  rw [Bits.mem_indices, Bits.get_clear covered, Finset.mem_erase,
    Bits.mem_indices]
  simp [and_comm]

/-- The number of clear bits. -/
def Bits.clearCount (bitmap : Bits) : Nat :=
  ((Finset.range bitmap.bitCount).filter fun index =>
    bitmap.get index = false).card

theorem Bits.clearCount_add_card :
    bitmap.clearCount + bitmap.indices.card = bitmap.bitCount := by
  have split := Finset.card_filter_add_card_filter_not
    (s := Finset.range bitmap.bitCount)
    (p := fun index => bitmap.get index = false)
  rw [Finset.card_range] at split
  rw [← split, Bits.clearCount, Bits.indices]
  congr 2
  ext index
  simp

/-! ## A new bitmap -/

theorem wordCount_eq {bitCount : Nat}
    (fits : bitCount + 64 < sizeLimit) :
    wordCount bitCount = (bitCount + 63) / 64 := by
  unfold wordCount
  rw [sizeAdd_eq fits, sizeSub_eq (by omega) (by omega)]
  rfl

theorem zeroed_covered {bitCount : Nat} (addr : Nat)
    (fits : bitCount + 64 < sizeLimit) :
    (zeroed addr bitCount).Covered := by
  simp only [Bits.Covered, zeroed, List.length_replicate,
    wordCount_eq fits]
  omega

theorem zeroed_get (addr bitCount index : Nat) :
    (zeroed addr bitCount).get index = false := by
  rw [Bits.get_eq]
  exact BitArray.lookup_replicate (wordCount bitCount) bitCount index

theorem zeroed_indices (addr bitCount : Nat) :
    (zeroed addr bitCount).indices = ∅ := by
  ext index
  simp [Bits.mem_indices, zeroed_get]

/-- `cu_Bitmap_create` fails, or hosts the words of an all-clear bitmap. -/
theorem bitmapCreate_cases
    {regions : List Slice} {backing : Backing} {bitCount : Nat}
    (hosted : Hosted regions backing)
    (positive : 0 < bitCount) (fits : bitCount + 64 < sizeLimit) :
    (∃ after, bitmapCreate backing bitCount = (none, after) ∧
      Settled backing after) ∨
    ∃ bitmap after,
      bitmapCreate backing bitCount = (some bitmap, after) ∧
      bitmap = zeroed bitmap.addr bitCount ∧
      (∀ home ∈ backing.blocks,
        SameBytes backing.memory after.memory home.ptr home.length) ∧
      Hosted (bitmap.region :: regions) after := by
  have words := wordCount_eq fits
  have size : sizeMul (wordCount bitCount) 8 = wordCount bitCount * 8 := by
    apply sizeMul_eq
    omega
  have request : Layout.create (sizeMul (wordCount bitCount) 8) 8 =
      ⟨wordCount bitCount * 8, 8⟩ := by
    rw [size]
    exact Layout.create_of_pos (by omega) (by decide)
  have nonzero : bitCount ≠ 0 := Nat.pos_iff_ne_zero.mp positive
  simp only [bitmapCreate, nonzero, if_false, request]
  rcases hosted.alloc ⟨wordCount bitCount * 8, 8⟩ with
    ⟨error, after, answer, settled⟩ |
    ⟨block, after, answer, large, blocks, kept, hostedAfter⟩
  · left
    simp only [answer]
    exact ⟨after, rfl, settled⟩
  · right
    simp only [answer]
    exact ⟨_, after, rfl, rfl, kept, hostedAfter _ large⟩

end Libcute.Collection.Bitmap
