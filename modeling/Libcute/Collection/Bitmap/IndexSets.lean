import Libcute.Collection.Bitmap
import Libcute.Collection.Bitset
import Libcute.Memory.Grants

/-!
# Bitmaps and bit sets hold sets of indices

`cu_Bitmap` keeps its bits in words of a block, and a bit set in bytes of its
own.  After every sequence of operations, with indices in and out of range,
both hold the set of indices that the operations leave, and no access is
outside of the storage.

The number of words is a sum that wraps for the last 63 bit counts.  There
are no words then, and the request for them is refused.
-/

namespace Libcute.Collection.Bitmap

open Libcute.Collection.Bitset
open Libcute.Core.Interface
open Libcute.Core.Size
open Libcute.Library
open Libcute.Library.IndexSets
open Libcute.Memory

/-- `cu_Bitmap_create` with any allocator, and the block it was given. -/
def create {State : Type}
    (allocFn : State → Layout → Except IoError Slice × State)
    (state : State) (bitCount : Nat) : Option (Bits × Slice) × State :=
  if bitCount = 0 then
    (none, state)
  else
    let size := sizeMul (wordCount bitCount) 8
    match allocFn state (Layout.create size 8) with
    | (.error _, state) => (none, state)
    | (.ok mem, state) => (some (zeroed mem.ptr bitCount, mem), state)

/-- `cu_Bitmap_clear_all` -/
def Bits.clearAll (bitmap : Bits) : Bits :=
  { bitmap with
    bits := BitArray.clearFrom bitmap.bits (wordCount bitmap.bitCount) 0 }

/-- One operation on the bitmap. -/
def Bits.perform (bitmap : Bits) : Operation → Bits
  | .set index => bitmap.set index
  | .clear index => bitmap.clear index
  | .clearAll => bitmap.clearAll

/-- A sequence of operations on the bitmap. -/
def Bits.run (bitmap : Bits) (operations : List Operation) : Bits :=
  operations.foldl Bits.perform bitmap

/-- The words that getting, setting or clearing an index accesses. -/
def Bits.accessed (bitmap : Bits) (index : Nat) : List Nat :=
  if bitmap.bitCount ≤ index then [] else [index / 64]

/-- All accesses are to words of the block. -/
structure Bits.Inside (bitmap : Bits) (block : Slice) : Prop where
  one : ∀ index, ∀ position ∈ bitmap.accessed index,
    8 * position + 8 ≤ block.length
  /-- The loops of `cu_Bitmap_create` and `cu_Bitmap_clear_all`. -/
  all : ∀ position < wordCount bitmap.bitCount,
    8 * position + 8 ≤ block.length

/-- The bitmap has its bits and its words. -/
structure Bits.Sized (bitCount : Nat) (bitmap : Bits) : Prop where
  count : bitmap.bitCount = bitCount
  words : bitmap.bits.length = wordCount bitCount

variable {State : Type}
  {allocFn : State → Layout → Except IoError Slice × State}
  {state after : State} {bitmap : Bits} {block : Slice} {bitCount : Nat}

/-! ## The number of words -/

/-- The words cover the bits, or there are none. -/
theorem wordCount_cases (word : bitCount < sizeLimit) :
    wordCount bitCount = (bitCount + 63) / 64 ∧ bitCount + 63 < sizeLimit ∨
      wordCount bitCount = 0 ∧ sizeLimit ≤ bitCount + 63 := by
  unfold wordCount sizeSub sizeAdd
  unfold sizeLimit at *
  omega

theorem create_eq (backing : BackingAllocator.Backing) (bitCount : Nat) :
    bitmapCreate backing bitCount =
      ((create (fun backing layout => backing.alloc layout) backing
        bitCount).1.map Prod.fst,
        (create (fun backing layout => backing.alloc layout) backing
          bitCount).2) := by
  unfold bitmapCreate create
  by_cases empty : bitCount = 0
  · rw [if_pos empty, if_pos empty]
    rfl
  · rw [if_neg empty, if_neg empty]
    dsimp only
    generalize backing.alloc
      (Layout.create (sizeMul (wordCount bitCount) 8) 8) = result
    rcases result with ⟨error | mem, after⟩ <;> rfl

/-- A bitmap that is made has words for its bits in the block. -/
theorem create_spec (grants : Grants allocFn) (word : bitCount < sizeLimit)
    (made : create allocFn state bitCount = (some (bitmap, block), after)) :
    bitmap = zeroed block.ptr bitCount ∧ 0 < bitCount ∧
      bitCount + 63 < sizeLimit ∧ wordCount bitCount = (bitCount + 63) / 64 ∧
      8 * wordCount bitCount ≤ block.length := by
  unfold create at made
  by_cases empty : bitCount = 0
  · rw [if_pos empty] at made
    cases made
  · rw [if_neg empty] at made
    dsimp only at made
    rcases wordCount_cases word with ⟨words, fits⟩ | ⟨none, _⟩
    · have size : sizeMul (wordCount bitCount) 8 = wordCount bitCount * 8 :=
        sizeMul_eq (by omega)
      rw [size, Layout.create_of_pos (by omega) (by decide)] at made
      generalize answer : allocFn state ⟨wordCount bitCount * 8, 8⟩ = result
        at made
      rcases result with ⟨error | mem, final⟩
      · cases made
      · cases made
        have enough : wordCount bitCount * 8 ≤ block.length :=
          grants.enough _ _ _ _ answer
        exact ⟨rfl, Nat.pos_of_ne_zero empty, fits, words, by omega⟩
    · have request : Layout.create (sizeMul (wordCount bitCount) 8) 8 =
          ⟨0, 0⟩ := by
        rw [none]
        rfl
      rw [request] at made
      rcases grants.refused state ⟨0, 0⟩ rfl with ⟨error, final, refused⟩
      rw [refused] at made
      cases made

/-! ## Operations -/

theorem Bits.Sized.covered (sized : bitmap.Sized bitCount)
    (words : bitCount ≤ 64 * wordCount bitCount) : bitmap.Covered := by
  unfold Bits.Covered
  rw [sized.count, sized.words]
  exact words

theorem Bits.Sized.set (sized : bitmap.Sized bitCount) (index : Nat) :
    (bitmap.set index).Sized bitCount where
  count := Bits.set_bitCount.trans sized.count
  words := by
    rw [Bits.set_bits, BitArray.length_write]
    exact sized.words

theorem Bits.Sized.clear (sized : bitmap.Sized bitCount) (index : Nat) :
    (bitmap.clear index).Sized bitCount where
  count := Bits.clear_bitCount.trans sized.count
  words := by
    rw [Bits.clear_bits, BitArray.length_write]
    exact sized.words

-- for all words, as the number of them is not to be computed
theorem Bits.clearAll_bitCount (bitmap : Bits) :
    bitmap.clearAll.bitCount = bitmap.bitCount := by
  have keeps : ∀ words,
      ({ bitmap with bits := words } : Bits).bitCount = bitmap.bitCount :=
    fun _ => rfl
  exact keeps _

theorem Bits.Sized.clearAll (sized : bitmap.Sized bitCount) :
    bitmap.clearAll.Sized bitCount where
  count := bitmap.clearAll_bitCount.trans sized.count
  words := (BitArray.length_clearFrom _ _ _).trans sized.words

theorem Bits.Sized.perform (sized : bitmap.Sized bitCount)
    (operation : Operation) : (bitmap.perform operation).Sized bitCount := by
  cases operation with
  | set index => exact sized.set index
  | clear index => exact sized.clear index
  | clearAll => exact sized.clearAll

theorem Bits.Sized.get_clearAll (sized : bitmap.Sized bitCount)
    (index : Nat) : bitmap.clearAll.get index = false := by
  have cleared : bitmap.clearAll.bits =
      List.replicate bitmap.bits.length 0 := by
    apply BitArray.clearFrom_all
    rw [sized.count, sized.words]
  rw [Bits.get_eq, cleared, BitArray.lookup_replicate]

/-- One operation on the words is one on the set of indices. -/
theorem simulates (words : bitCount ≤ 64 * wordCount bitCount) :
    Simulates bitCount Bits.get Bits.perform (Bits.Sized bitCount) where
  kept _ operation sized := sized.perform operation
  answers := by
    intro bitmap operation index sized
    have covered := sized.covered words
    cases operation with
    | set own =>
        have answer := Bits.get_set covered own index
        rw [sized.count] at answer
        exact answer
    | clear own => exact Bits.get_clear covered own index
    | clearAll => exact sized.get_clearAll index

theorem Bits.Sized.inside (sized : bitmap.Sized bitCount)
    (words : wordCount bitCount = (bitCount + 63) / 64)
    (enough : 8 * wordCount bitCount ≤ block.length) :
    bitmap.Inside block where
  one := by
    intro index position member
    unfold Bits.accessed at member
    rw [sized.count] at member
    split_ifs at member with beyond
    · cases member
    · rw [List.mem_singleton.mp member]
      omega
  all := by
    rw [sized.count]
    intro position below
    omega

theorem Bits.Sized.run (sized : bitmap.Sized bitCount)
    (words : bitCount ≤ 64 * wordCount bitCount)
    (operations : List Operation) :
    (bitmap.run operations).Sized bitCount :=
  (simulates words).valid_run sized operations

/-! ## Runs -/

/--
After every sequence of operations a bitmap of any bit count that could be
made answers as the set of indices does, within its block, and so does a bit
set of any size that C has, within its bytes.  The two give the same answers.
-/
theorem bitmap_bitset_agree
    (grants : Grants allocFn) (word : bitCount < sizeLimit) :
    (∀ state bitmap block after,
      create allocFn state bitCount = (some (bitmap, block), after) →
        Represents bitCount (fun operations =>
          (bitmap.run operations).get) ∧
        (∀ operations, (bitmap.run operations).Inside block) ∧
        ∀ operations index, (bitmap.run operations).get index =
          ((BitSet.create bitCount).run operations).get index) ∧
      (Declarable bitCount →
        Represents bitCount (fun operations =>
          ((BitSet.create bitCount).run operations).get) ∧
        ∀ operations,
          ((BitSet.create bitCount).run operations).Inside) := by
  constructor
  · intro state bitmap block after made
    rcases create_spec grants word made with
      ⟨same, positive, fits, words, enough⟩
    have cover : bitCount ≤ 64 * wordCount bitCount := by omega
    have sized : bitmap.Sized bitCount := by
      rw [same]
      exact ⟨rfl, List.length_replicate⟩
    have cleared : ∀ index, bitmap.get index = false := by
      rw [same]
      exact zeroed_get block.ptr bitCount
    have represents := (simulates cover).represents sized cleared
    have declarable : Declarable bitCount :=
      (declarable_iff word).mpr ⟨positive, by omega⟩
    exact ⟨represents,
      fun operations => (sized.run cover operations).inside words enough,
      represents.agree (BitSet.represents declarable word)⟩
  · intro declarable
    exact ⟨BitSet.represents declarable word,
      fun _ => BitSet.inside _ declarable word⟩

/-- A buffer with room for the words of 70 bits. -/
def seventyBits : FixedAllocator.Fixed := ⟨⟨4096, 64⟩, 0, fun _ => 0⟩

theorem bitmap_bitset_agree_seventyBits :
    Represents 70 (fun operations =>
        ((zeroed 4104 70).run operations).get) ∧
      ((zeroed 4104 70).run [.set 69, .clearAll, .set 70]).Inside
        ⟨4104, 16⟩ ∧
      Represents 70 (fun operations =>
        ((BitSet.create 70).run operations).get) := by
  have agree := bitmap_bitset_agree fixed_grants
    (by decide : 70 < sizeLimit)
  have made : create FixedAllocator.fixedAllocator.allocFn seventyBits 70 =
      (some (zeroed 4104 70, ⟨4104, 16⟩),
        (create FixedAllocator.fixedAllocator.allocFn seventyBits 70).2) :=
    Prod.ext (by decide +kernel) rfl
  rcases agree.1 _ _ _ _ made with ⟨represents, inside, _⟩
  exact ⟨represents, inside _, (agree.2 (by unfold Declarable; decide)).1⟩

end Libcute.Collection.Bitmap
