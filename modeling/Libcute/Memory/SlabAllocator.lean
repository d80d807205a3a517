import Mathlib.Order.Interval.Finset.Nat
import Libcute.Collection.Bitmap
import Libcute.Core.NoStd
import Libcute.Library.KeyedList
import Libcute.Library.SlotOwnership
import Libcute.Memory.Client
import Libcute.Memory.HostedRegions

/-!
# The slab allocator

`slab.c` divides each slab into slots of `slabSize` bytes and gives every
block a run of consecutive slots.  A bitmap and a counter in the slab record
which slots are in use, and the header in front of the block records the
slab and the run.

The blocks own the slots of their runs in the sense of `SlotOwnership`, with
the bitmap of a slab as its occupied set.  `slab_run_safe` is the main
result, over every run and every behaviour of the backing allocator.
-/

namespace Libcute.Memory.SlabAllocator

open Libcute.Collection.Bitmap
open Libcute.Core.Interface
open Libcute.Core.NoStd
open Libcute.Core.Size
open Libcute.Library
open Libcute.Library.ByteMemory
open Libcute.Library.SlotOwnership
open Libcute.Library.Transition
open Libcute.Memory.BackingAllocator
open Libcute.Memory.Client
open Libcute.Memory.HostedRegions

/-- `struct cu_SlabAllocator_Slab` at address `addr`. -/
structure Slab where
  addr : Nat
  used : Bits
  slabCount : Nat
  freeCount : Nat

/-- `sizeof(struct cu_SlabAllocator_Slab)` -/
def slabHeaderSize : Nat := 80

/-- `sizeof(struct cu_SlabAllocator_Header)` -/
def headerSize : Nat := 24

/-- `alignof(cu_max_align_t)` -/
def maxAlign : Nat := 16

/-- `CU_SLAB_DEFAULT_SIZE` -/
def defaultSize : Nat := 4096

/-- `cu_slab_data` -/
def slabData (addr : Nat) : Nat := addr + slabHeaderSize

/--
`cu_SlabAllocator`.  The slabs are listed from `slabs` along the `next`
links.
-/
structure SlabPool where
  backing : Backing
  slabs : List Slab
  slabSize : Nat

/-- `hdr->slab` of the header in front of the block at `ptr`. -/
def headerSlab (memory : Memory) (ptr : Nat) : Nat :=
  loadBytes memory (ptr - 24) 8

/-- `hdr->index` of the header in front of the block at `ptr`. -/
def headerIndex (memory : Memory) (ptr : Nat) : Nat :=
  loadBytes memory (ptr - 16) 8

/-- `hdr->count` of the header in front of the block at `ptr`. -/
def headerCount (memory : Memory) (ptr : Nat) : Nat :=
  loadBytes memory (ptr - 8) 8

/-- Write a header in front of the block at `ptr`. -/
def storeHeader (memory : Memory) (ptr slab index count : Nat) : Memory :=
  storeBytes
    (storeBytes
      (storeBytes memory (ptr - 24) slab 8)
      (ptr - 16) index 8)
    (ptr - 8) count 8

/-- `CU_DIV_CEIL` -/
def divCeil (value unit : Nat) : Nat :=
  sizeSub (sizeAdd value unit) 1 / unit

/-- The loop of `cu_find_run` from slot `index` on. -/
def findRunFrom (used : Bits) (need : Nat) :
    (remaining index run : Nat) → Option Nat
  | 0, _, _ => none
  | remaining + 1, index, run =>
      let run := if used.get index then 0 else run + 1
      if run = need then
        some (index + 1 - need)
      else
        findRunFrom used need remaining (index + 1) run

/-- `cu_find_run` -/
def findRun (slab : Slab) (need : Nat) : Option Nat :=
  findRunFrom slab.used need slab.slabCount 0 0

/-- Set `need` bits from `index` on. -/
def setRun (used : Bits) (index : Nat) : Nat → Bits
  | 0 => used
  | need + 1 => (setRun used index need).set (index + need)

/-- Clear `need` bits from `index` on. -/
def clearRun (used : Bits) (index : Nat) : Nat → Bits
  | 0 => used
  | need + 1 => (clearRun used index need).clear (index + need)

/-- `cu_create_slab` -/
def createSlab (pool : SlabPool) (count : Nat) :
    Option Slab × SlabPool :=
  let total := sizeAdd slabHeaderSize (sizeMul count pool.slabSize)
  match pool.backing.alloc (Layout.create total maxAlign) with
  | (.error _, backing) => (none, { pool with backing })
  | (.ok mem, backing) =>
      match bitmapCreate backing count with
      | (none, backing) =>
          (none, { pool with backing := backing.free mem })
      | (some used, backing) =>
          (some ⟨mem.ptr, used, count, count⟩, { pool with backing })

/-- The alignment a request is placed with. -/
def requestAlign (layout : Layout) : Nat :=
  if layout.alignment = 0 then 1 else layout.alignment

/-- `needed` of `cu_slab_alloc` -/
def neededFor (layout : Layout) : Nat :=
  sizeAdd (sizeAdd (sizeSub (requestAlign layout) 1) layout.elemSize)
    headerSize

/-- `need` of `cu_slab_alloc`, the number of slots of a request. -/
def SlabPool.needFor (pool : SlabPool) (layout : Layout) : Nat :=
  divCeil (neededFor layout) pool.slabSize

/-- The number of slots of a slab created for a request. -/
def SlabPool.newSlabCount (pool : SlabPool) (layout : Layout) : Nat :=
  max (pool.needFor layout)
    (if defaultSize / pool.slabSize = 0 then 1
      else defaultSize / pool.slabSize)

/-- The first slab with a free run, and the run. -/
def SlabPool.findSlab (pool : SlabPool) (need : Nat) :
    Option (Slab × Nat) :=
  pool.slabs.findSome? fun slab =>
    if need ≤ slab.freeCount then
      (findRun slab need).map fun index => (slab, index)
    else
      none

/-- Change the slab at an address. -/
def SlabPool.updateSlab (pool : SlabPool) (addr : Nat)
    (change : Slab → Slab) : SlabPool :=
  { pool with
    slabs := KeyedList.update Slab.addr pool.slabs addr change }

/-- Take the slots `[index, index + need)` of a slab. -/
def Slab.take (index need : Nat) (slab : Slab) : Slab :=
  { slab with
    used := setRun slab.used index need
    freeCount := sizeSub slab.freeCount need }

/-- Give the slots `[index, index + need)` of a slab back. -/
def Slab.give (index need : Nat) (slab : Slab) : Slab :=
  { slab with
    used := clearRun slab.used index need
    freeCount := sizeAdd slab.freeCount need }

/-- The address of the block placed in the slots from `index` on. -/
def SlabPool.userAddr (pool : SlabPool) (slab : Slab) (index : Nat)
    (layout : Layout) : Nat :=
  let data := slabData slab.addr
  let start := sizeMul index pool.slabSize
  let userPos :=
    sizeSub (alignUp (data + start + headerSize) (requestAlign layout)) data
  data + userPos

/-- The second half of `cu_slab_alloc`: take the slots, write the header. -/
def SlabPool.placed (pool : SlabPool) (slab : Slab) (index : Nat)
    (layout : Layout) : SlabPool :=
  let need := pool.needFor layout
  let ptr := pool.userAddr slab index layout
  { backing :=
      { pool.backing with
        memory :=
          storeHeader pool.backing.memory ptr slab.addr index need }
    slabs := (pool.updateSlab slab.addr (Slab.take index need)).slabs
    slabSize := pool.slabSize }

/-- The block of a request in a run, and the state with it. -/
def SlabPool.place (pool : SlabPool) (slab : Slab) (index : Nat)
    (layout : Layout) : Except IoError Slice × SlabPool :=
  (.ok ⟨pool.userAddr slab index layout, layout.elemSize⟩,
    pool.placed slab index layout)

/-- `cu_slab_alloc` -/
def slabAlloc (pool : SlabPool) (layout : Layout) :
    Except IoError Slice × SlabPool :=
  if layout.elemSize = 0 then
    (.error .invalidInput, pool)
  else if pool.slabSize < requestAlign layout then
    (.error .invalidInput, pool)
  else
    match pool.findSlab (pool.needFor layout) with
    | some (slab, index) => pool.place slab index layout
    | none =>
        match createSlab pool (pool.newSlabCount layout) with
        | (none, pool) => (.error .outOfMemory, pool)
        | (some slab, pool) =>
            let pool := { pool with slabs := slab :: pool.slabs }
            pool.place slab 0 layout

/-- `prefix`: the bytes of the run in front of the block. -/
def SlabPool.prefixOf (pool : SlabPool) (mem : Slice) : Nat :=
  let memory := pool.backing.memory
  let base :=
    slabData (headerSlab memory mem.ptr) +
      sizeMul (headerIndex memory mem.ptr) pool.slabSize
  mem.ptr - base

/-- `current`: the bytes from the start of the block to the end of its run. -/
def SlabPool.currentOf (pool : SlabPool) (mem : Slice) : Nat :=
  sizeSub
    (sizeMul (headerCount pool.backing.memory mem.ptr) pool.slabSize)
    (pool.prefixOf mem)

/-- `cu_slab_free` -/
def slabFree (pool : SlabPool) (mem : Slice) : SlabPool :=
  if mem.ptr = 0 then
    pool
  else
    let memory := pool.backing.memory
    pool.updateSlab (headerSlab memory mem.ptr)
      (Slab.give (headerIndex memory mem.ptr)
        (headerCount memory mem.ptr))

/-- Allocate, copy and free, when a block does not fit its run any more. -/
def slabMove (pool : SlabPool) (old : Slice) (layout : Layout) :
    Except IoError Slice × SlabPool :=
  match slabAlloc pool layout with
  | (.error error, pool) => (.error error, pool)
  | (.ok new, pool) =>
      let copy := min old.length layout.elemSize
      let pool :=
        { pool with
          backing :=
            { pool.backing with
              memory :=
                smemcpy pool.backing.memory ⟨new.ptr, copy⟩
                  ⟨old.ptr, copy⟩ } }
      (.ok new, slabFree pool old)

/-- `cu_slab_grow` -/
def slabGrow (pool : SlabPool) (old : Slice) (layout : Layout) :
    Except IoError Slice × SlabPool :=
  if old.ptr = 0 then
    slabAlloc pool layout
  else if layout.elemSize ≤ pool.currentOf old then
    (.ok ⟨old.ptr, layout.elemSize⟩, pool)
  else
    slabMove pool old layout

/-- The slots a shrunk block still needs. -/
def SlabPool.keepFor (pool : SlabPool) (old : Slice) (layout : Layout) :
    Nat :=
  divCeil (sizeAdd (pool.prefixOf old) layout.elemSize) pool.slabSize

/-- Give the slots behind the first `need` of a block back. -/
def SlabPool.cut (pool : SlabPool) (old : Slice) (need : Nat) : SlabPool :=
  let memory := pool.backing.memory
  let index := headerIndex memory old.ptr
  let count := headerCount memory old.ptr
  let pool :=
    pool.updateSlab (headerSlab memory old.ptr)
      (Slab.give (index + need) (count - need))
  { pool with
    backing :=
      { pool.backing with
        memory := storeBytes memory (old.ptr - 8) need 8 } }

/-- `cu_slab_shrink` -/
def slabShrink (pool : SlabPool) (old : Slice) (layout : Layout) :
    Except IoError Slice × SlabPool :=
  if old.ptr = 0 then
    (.error .invalidInput, pool)
  else if layout.elemSize ≤ pool.currentOf old then
    let need := pool.keepFor old layout
    (.ok ⟨old.ptr, layout.elemSize⟩,
      if need < headerCount pool.backing.memory old.ptr then
        pool.cut old need
      else
        pool)
  else
    slabMove pool old layout

/-- The callbacks of `cu_Allocator_SlabAllocator`. -/
def slabAllocator : Allocator SlabPool where
  allocFn := slabAlloc
  growFn := slabGrow
  shrinkFn := slabShrink
  freeFn := slabFree
  memory pool := pool.backing.memory
  setMemory pool memory :=
    { pool with backing := { pool.backing with memory } }

/-- `cu_Allocator_SlabAllocator`: a pool without slabs. -/
def slabCreate (backing : Backing) (slabSize : Nat) : World SlabPool :=
  ⟨⟨backing, [], if slabSize = 0 then defaultSize else slabSize⟩, []⟩

/--
No sum that `cu_slab_alloc` computes for the request wraps; empty requests
and alignments above the slot size are refused before any sum.
-/
def SlabPool.SumsFit (pool : SlabPool) (layout : Layout) : Prop :=
  layout.elemSize ≠ 0 → requestAlign layout ≤ pool.slabSize →
    requestAlign layout - 1 + layout.elemSize + headerSize +
        pool.slabSize < sizeLimit ∧
      slabHeaderSize + pool.newSlabCount layout * pool.slabSize <
        sizeLimit

/-- The alignment of the request is a power of two. -/
def PowerOfTwo (layout : Layout) : Prop :=
  ∃ exponent, requestAlign layout = 2 ^ exponent

/--
A well-behaved client only touches live blocks, asks for alignments that are
powers of two, and makes no request whose size sums wrap.
-/
def Permitted (world : World SlabPool) : Call → Prop
  | .alloc layout =>
      PowerOfTwo layout ∧ world.state.SumsFit layout
  | .grow old layout =>
      old ∈ world.live ∧ PowerOfTwo layout ∧
        (world.state.currentOf old < layout.elemSize →
          world.state.SumsFit layout)
  | .shrink old layout =>
      old ∈ world.live ∧ PowerOfTwo layout ∧
        (world.state.currentOf old < layout.elemSize →
          world.state.SumsFit layout) ∧
        (layout.elemSize ≤ world.state.currentOf old →
          world.state.prefixOf old + layout.elemSize +
            world.state.slabSize < sizeLimit)
  | .free mem => mem ∈ world.live
  | .write block _ => block ∈ world.live

/-! ## Runs of slots -/

/-- The slots `[index, index + count)`. -/
def slots (index count : Nat) : Finset Nat :=
  Finset.Ico index (index + count)

theorem mem_slots {index count slot : Nat} :
    slot ∈ slots index count ↔ index ≤ slot ∧ slot < index + count :=
  Finset.mem_Ico

theorem card_slots (index count : Nat) : (slots index count).card = count := by
  unfold slots
  rw [Nat.card_Ico, Nat.add_sub_cancel_left]

/--
A run found by the loop is inside the slab and free.  The loop keeps the
`run` slots before `index` free.
-/
theorem findRunFrom_spec
    {used : Bits} {need remaining index run found : Nat}
    (positive : 0 < need)
    (short : run < need) (started : run ≤ index)
    (free : ∀ slot, index - run ≤ slot → slot < index →
      used.get slot = false)
    (answer : findRunFrom used need remaining index run = some found) :
    found + need ≤ index + remaining ∧
      ∀ slot ∈ slots found need, used.get slot = false := by
  induction remaining generalizing index run with
  | zero => cases answer
  | succ remaining hypothesis =>
      rw [findRunFrom] at answer
      by_cases taken : used.get index = true
      · have different : ¬ 0 = need := by omega
        simp only [taken, if_true, different, if_false] at answer
        have rest := hypothesis positive (Nat.zero_le _)
          (fun slot low high => by omega) answer
        exact ⟨by omega, rest.2⟩
      · have vacant : used.get index = false := by simpa using taken
        have longer : ∀ slot, index - run ≤ slot → slot < index + 1 →
            used.get slot = false := by
          intro slot low high
          by_cases last : slot = index
          · rw [last]
            exact vacant
          · exact free slot low (by omega)
        simp only [vacant, Bool.false_eq_true, if_false] at answer
        by_cases complete : run + 1 = need
        · simp only [complete, if_true, Option.some.injEq] at answer
          refine ⟨by omega, ?_⟩
          intro slot member
          rw [mem_slots] at member
          exact longer slot (by omega) (by omega)
        · simp only [complete, if_false] at answer
          have rest := hypothesis (by omega) (by omega)
            (fun slot low high => longer slot (by omega) high) answer
          exact ⟨by omega, rest.2⟩

section Loops

variable {used : Bits} {index : Nat}

@[simp]
theorem setRun_bitCount (used : Bits) (index need : Nat) :
    (setRun used index need).bitCount = used.bitCount := by
  induction need with
  | zero => rfl
  | succ need hypothesis => simp [setRun, hypothesis]

@[simp]
theorem clearRun_bitCount (used : Bits) (index need : Nat) :
    (clearRun used index need).bitCount = used.bitCount := by
  induction need with
  | zero => rfl
  | succ need hypothesis => simp [clearRun, hypothesis]

theorem setRun_covered (covered : used.Covered) (index need : Nat) :
    (setRun used index need).Covered := by
  induction need with
  | zero => exact covered
  | succ need hypothesis => exact hypothesis.set _

theorem clearRun_covered (covered : used.Covered) (index need : Nat) :
    (clearRun used index need).Covered := by
  induction need with
  | zero => exact covered
  | succ need hypothesis => exact hypothesis.clear _

/-- The loop of `cu_slab_alloc` adds the run to the bitmap. -/
theorem setRun_indices {need : Nat}
    (covered : used.Covered) (inside : index + need ≤ used.bitCount) :
    (setRun used index need).indices =
      used.indices ∪ slots index need := by
  induction need with
  | zero => simp [setRun, slots]
  | succ need hypothesis =>
      rw [setRun, Bits.indices_set (setRun_covered covered _ _)
        (by rw [setRun_bitCount]; omega), hypothesis (by omega)]
      ext slot
      simp only [Finset.mem_insert, Finset.mem_union, mem_slots]
      constructor
      · rintro (rfl | member | run)
        · exact Or.inr ⟨by omega, by omega⟩
        · exact Or.inl member
        · exact Or.inr ⟨run.1, by omega⟩
      · rintro (member | run)
        · exact Or.inr (Or.inl member)
        · by_cases last : slot = index + need
          · exact Or.inl last
          · exact Or.inr (Or.inr ⟨run.1, by omega⟩)

/-- The loops of `cu_slab_free` and `cu_slab_shrink` remove the run. -/
theorem clearRun_indices (covered : used.Covered) (index need : Nat) :
    (clearRun used index need).indices =
      used.indices \ slots index need := by
  induction need with
  | zero => simp [clearRun, slots]
  | succ need hypothesis =>
      rw [clearRun, Bits.indices_clear (clearRun_covered covered _ _),
        hypothesis]
      ext slot
      simp only [Finset.mem_erase, Finset.mem_sdiff, mem_slots]
      constructor
      · rintro ⟨last, member, outside⟩
        exact ⟨member, fun run => outside ⟨run.1, by omega⟩⟩
      · rintro ⟨member, outside⟩
        refine ⟨?_, member, fun run => outside ⟨run.1, by omega⟩⟩
        rintro rfl
        exact outside ⟨by omega, by omega⟩

end Loops

/-! ## One slab -/

/-- The counter of a slab agrees with its bitmap. -/
structure SlabOk (slab : Slab) : Prop where
  covered : slab.used.Covered
  bitCount : slab.used.bitCount = slab.slabCount
  freeCount : slab.freeCount = slab.used.clearCount
  bounded : slab.slabCount < sizeLimit

section Slab

variable {slab : Slab} {index need : Nat}

theorem SlabOk.freeCount_add_card (ok : SlabOk slab) :
    slab.freeCount + slab.used.indices.card = slab.slabCount := by
  rw [ok.freeCount, Bits.clearCount_add_card, ok.bitCount]

theorem SlabOk.take
    (ok : SlabOk slab)
    (inside : index + need ≤ slab.slabCount)
    (free : Disjoint (slots index need) slab.used.indices) :
    SlabOk (slab.take index need) ∧
      (slab.take index need).used.indices =
        slab.used.indices ∪ slots index need := by
  have indices : (slab.take index need).used.indices =
      slab.used.indices ∪ slots index need :=
    setRun_indices ok.covered (by rw [ok.bitCount]; exact inside)
  refine ⟨⟨?_, ?_, ?_, ok.bounded⟩, indices⟩
  · exact setRun_covered ok.covered _ _
  · exact (setRun_bitCount _ _ _).trans ok.bitCount
  · have before := ok.freeCount_add_card
    have after := (slab.take index need).used.clearCount_add_card
    have counted : (slab.take index need).used.bitCount =
        slab.slabCount :=
      (setRun_bitCount _ _ _).trans ok.bitCount
    have total : (slab.used.indices ∪ slots index need).card ≤
        slab.slabCount := by
      rw [← indices, ← counted]
      exact Nat.le.intro ((Nat.add_comm _ _).trans after)
    rw [indices, counted] at after
    rw [Finset.card_union_of_disjoint free.symm, card_slots]
      at after total
    have exact_ : sizeSub slab.freeCount need = slab.freeCount - need :=
      sizeSub_eq (by omega)
        (lt_of_le_of_lt (by omega) ok.bounded)
    simp only [Slab.take] at after ⊢
    rw [exact_]
    omega

theorem SlabOk.give
    (ok : SlabOk slab)
    (taken : slots index need ⊆ slab.used.indices) :
    SlabOk (slab.give index need) ∧
      (slab.give index need).used.indices =
        slab.used.indices \ slots index need := by
  have indices : (slab.give index need).used.indices =
      slab.used.indices \ slots index need :=
    clearRun_indices ok.covered _ _
  refine ⟨⟨?_, ?_, ?_, ok.bounded⟩, indices⟩
  · exact clearRun_covered ok.covered _ _
  · exact (clearRun_bitCount _ _ _).trans ok.bitCount
  · have before := ok.freeCount_add_card
    have after := (slab.give index need).used.clearCount_add_card
    have counted : (slab.give index need).used.bitCount =
        slab.slabCount :=
      (clearRun_bitCount _ _ _).trans ok.bitCount
    have fewer := Finset.card_le_card taken
    rw [indices, counted, Finset.card_sdiff_of_subset taken, card_slots]
      at after
    rw [card_slots] at fewer
    have exact_ : sizeAdd slab.freeCount need = slab.freeCount + need :=
      sizeAdd_eq (lt_of_le_of_lt (by omega) ok.bounded)
    simp only [Slab.give] at after ⊢
    rw [exact_]
    omega

end Slab

/-! ## The invariant -/

/-- What never changes about a slab: its address and its slots. -/
def Slab.shape (slab : Slab) : Nat × Nat := (slab.addr, slab.slabCount)

/-- The backing block of a slab with a given shape. -/
def shapeRegion (slabSize : Nat) (shape : Nat × Nat) : Slice :=
  ⟨shape.1, slabHeaderSize + shape.2 * slabSize⟩

/-- The backing blocks of the slabs. -/
def SlabPool.regions (pool : SlabPool) : List Slice :=
  (pool.slabs.map Slab.shape).map (shapeRegion pool.slabSize)

/-- The slabs are hosted by the backing allocator and count their slots. -/
structure SlabsOk (pool : SlabPool) : Prop where
  positive : 0 < pool.slabSize
  hosted : Hosted pool.regions pool.backing
  each : ∀ slab ∈ pool.slabs, SlabOk slab

/-- A block owns the slots of the run in its header. -/
def ownerIn (memory : Memory) : Ownership Nat Slice Nat where
  home block := headerSlab memory block.ptr
  slots block :=
    slots (headerIndex memory block.ptr) (headerCount memory block.ptr)

/-- The set bits of the slab at an address. -/
def occupiedIn (slabList : List Slab) (addr : Nat) : Finset Nat :=
  match KeyedList.find Slab.addr slabList addr with
  | some slab => slab.used.indices
  | none => ∅

/-- The header and the block lie inside the run the header records. -/
def InRun (pool : SlabPool) (block : Slice) : Prop :=
  let memory := pool.backing.memory
  let data := slabData (headerSlab memory block.ptr)
  let index := headerIndex memory block.ptr
  let count := headerCount memory block.ptr
  data + index * pool.slabSize + headerSize ≤ block.ptr ∧
    block.finish ≤ data + (index + count) * pool.slabSize

/-- The run of a block lies inside its slab. -/
def InSlab (pool : SlabPool) (block : Slice) : Prop :=
  let memory := pool.backing.memory
  ∃ count,
    (headerSlab memory block.ptr, count) ∈ pool.slabs.map Slab.shape ∧
      headerIndex memory block.ptr + headerCount memory block.ptr ≤ count

/-- The live blocks lie in their runs and own the set bits. -/
structure Holds (pool : SlabPool) (live : List Slice) : Prop where
  inSlab : ∀ block ∈ live, InSlab pool block
  inRun : ∀ block ∈ live, InRun pool block
  exact : Exact (ownerIn pool.backing.memory) (occupiedIn pool.slabs) live

structure Invariant (world : World SlabPool) : Prop where
  slabs : SlabsOk world.state
  holds : Holds world.state world.live

variable {pool : SlabPool} {live : List Slice} {block : Slice}
  {slab other : Slab} {layout : Layout} {index need : Nat}

theorem SlabPool.region_mem (member : slab ∈ pool.slabs) :
    shapeRegion pool.slabSize slab.shape ∈ pool.regions :=
  List.mem_map_of_mem (List.mem_map_of_mem member)

/-- Slabs are identified by their addresses. -/
theorem SlabsOk.unique (ok : SlabsOk pool) :
    KeyedList.Unique Slab.addr pool.slabs := by
  have separate := ok.hosted.separate
  unfold SlabPool.regions at separate
  rw [List.pairwise_map, List.pairwise_map] at separate
  exact List.pairwise_map.mpr (separate.imp Separate.ptr_ne)

/-- The data of a slab does not wrap around the address space. -/
theorem SlabsOk.fits (ok : SlabsOk pool) (member : slab ∈ pool.slabs) :
    slabData slab.addr + slab.slabCount * pool.slabSize < sizeLimit := by
  have valid := (ok.hosted.valid _ (SlabPool.region_mem member)).2
  simp only [shapeRegion, Slab.shape, span] at valid
  unfold slabData
  omega

theorem occupiedIn_of_mem (ok : SlabsOk pool) (member : slab ∈ pool.slabs) :
    occupiedIn pool.slabs slab.addr = slab.used.indices := by
  unfold occupiedIn
  rw [KeyedList.find_of_mem ok.unique member]

/-- The invariant of the slabs does not read the memory. -/
theorem SlabsOk.withMemory (ok : SlabsOk pool) (memory : Memory) :
    SlabsOk { pool with backing := { pool.backing with memory } } where
  positive := ok.positive
  hosted := ok.hosted.congr rfl
  each := ok.each

/-- A run of slots inside a larger one, in bytes. -/
theorem run_bytes (data unit : Nat) {index count limit : Nat}
    (inside : index + count ≤ limit) :
    data + (index + count) * unit ≤ data + limit * unit := by
  have scaled := Nat.mul_le_mul_right unit inside
  omega

/-- Ranges inside disjoint runs of slots are apart. -/
theorem apart_of_slots
    {data unit index count start length : Nat}
    {index' count' start' length' : Nat}
    (disjoint : Disjoint (slots index count) (slots index' count'))
    (low : data + index * unit ≤ start)
    (high : start + length ≤ data + (index + count) * unit)
    (low' : data + index' * unit ≤ start')
    (high' : start' + length' ≤ data + (index' + count') * unit)
    (positive : 0 < length) (positive' : 0 < length') :
    Apart start length start' length' := by
  have nonempty : 0 < count := by
    by_contra empty
    have zero : count = 0 := by omega
    subst zero
    rw [Nat.add_zero] at high
    omega
  have nonempty' : 0 < count' := by
    by_contra empty
    have zero : count' = 0 := by omega
    subst zero
    rw [Nat.add_zero] at high'
    omega
  have ordered : index + count ≤ index' ∨ index' + count' ≤ index := by
    by_contra overlap
    have first : max index index' ∈ slots index count := by
      rw [mem_slots]
      omega
    have second : max index index' ∈ slots index' count' := by
      rw [mem_slots]
      omega
    exact Finset.disjoint_left.mp disjoint first second
  unfold Apart
  rcases ordered with before | after
  · have scaled := Nat.mul_le_mul_right unit before
    omega
  · have scaled := Nat.mul_le_mul_right unit after
    omega

/-- The slab of a held block, and the bounds of the block in it. -/
theorem Holds.home
    (holds : Holds pool live) (member : block ∈ live) :
    ∃ slab ∈ pool.slabs,
      slab.addr = headerSlab pool.backing.memory block.ptr ∧
      headerIndex pool.backing.memory block.ptr +
          headerCount pool.backing.memory block.ptr ≤ slab.slabCount := by
  rcases holds.inSlab block member with ⟨count, shape, inside⟩
  rcases List.mem_map.mp shape with ⟨slab, slabMember, same⟩
  simp only [Slab.shape, Prod.mk.injEq] at same
  exact ⟨slab, slabMember, same.1, by omega⟩

/-- A range in free slots is apart from every held block. -/
theorem Holds.apart_free
    (holds : Holds pool live) (ok : SlabsOk pool)
    (member : block ∈ live) (slabMember : slab ∈ pool.slabs)
    {start length : Nat}
    (free : Disjoint (slots index need) slab.used.indices)
    (inside : index + need ≤ slab.slabCount)
    (low : slabData slab.addr + index * pool.slabSize ≤ start)
    (high : start + length ≤
      slabData slab.addr + (index + need) * pool.slabSize)
    (positive : 0 < length) :
    Apart start length
      (block.ptr - headerSize) (headerSize + block.length) := by
  rcases holds.home member with ⟨home, homeMember, homeAddr, homeInside⟩
  rcases holds.inRun block member with ⟨blockLow, blockHigh⟩
  rw [← homeAddr] at blockLow blockHigh
  unfold Slice.finish at blockHigh
  by_cases same : home.addr = slab.addr
  · have equal := ok.unique.eq_of_key homeMember slabMember same
    subst equal
    have owned := holds.exact.slots_subset member
    simp only [ownerIn, ← homeAddr] at owned
    rw [occupiedIn_of_mem ok slabMember] at owned
    apply apart_of_slots (free.mono_right owned) low high
    · omega
    · unfold headerSize at *
      omega
    · exact positive
    · unfold headerSize
      omega
  · have separated := ok.hosted.apart_of_ne
      (SlabPool.region_mem slabMember) (SlabPool.region_mem homeMember)
      (fun equal => same equal.symm)
    simp only [shapeRegion, Slab.shape] at separated
    have bound : slabData slab.addr + (index + need) * pool.slabSize ≤
        slabData slab.addr + slab.slabCount * pool.slabSize :=
      run_bytes _ _ inside
    have homeBound :=
      run_bytes (slabData home.addr) pool.slabSize homeInside
    unfold Apart slabData headerSize at *
    omega

/-- Two live blocks are separated by the header of the second one. -/
theorem Holds.apart_header
    {neighbour : Slice}
    (holds : Holds pool live) (ok : SlabsOk pool)
    (member : block ∈ live) (neighbourMember : neighbour ∈ live)
    (different : block ≠ neighbour) :
    Apart (block.ptr - headerSize) (headerSize + block.length)
      (neighbour.ptr - headerSize) (headerSize + neighbour.length) := by
  rcases holds.home member with ⟨home, homeMember, homeAddr, homeInside⟩
  rcases holds.home neighbourMember with
    ⟨area, areaMember, areaAddr, areaInside⟩
  rcases holds.inRun block member with ⟨low, high⟩
  rcases holds.inRun neighbour neighbourMember with ⟨low', high'⟩
  rw [← homeAddr] at low high
  rw [← areaAddr] at low' high'
  unfold Slice.finish at high high'
  by_cases same : home.addr = area.addr
  · have together := holds.exact.apart_of_ne member neighbourMember
      different
    simp only [ownerIn, ← homeAddr, ← areaAddr] at together
    rw [← same] at low' high'
    have first := Nat.le_sub_of_add_le low
    have second := Nat.le_sub_of_add_le low'
    apply apart_of_slots (together same) first ?_ second
    · unfold headerSize at *
      omega
    · unfold headerSize
      omega
    · unfold headerSize
      omega
    · unfold headerSize at *
      omega
  · have separated := ok.hosted.apart_of_ne
      (SlabPool.region_mem homeMember) (SlabPool.region_mem areaMember)
      same
    simp only [shapeRegion, Slab.shape] at separated
    have bound :=
      run_bytes (slabData home.addr) pool.slabSize homeInside
    have bound' :=
      run_bytes (slabData area.addr) pool.slabSize areaInside
    unfold Apart slabData headerSize at *
    omega

/-! ## Headers -/

/-- The bytes of a header and of its block, as one range. -/
def WithHeader (before after : Memory) (block : Slice) : Prop :=
  SameBytes before after (block.ptr - headerSize)
    (headerSize + block.length)

/-- The bytes of the header of a block. -/
def SameHeader (before after : Memory) (block : Slice) : Prop :=
  SameBytes before after (block.ptr - headerSize) headerSize

theorem WithHeader.trans {first second third : Memory}
    (one : WithHeader first second block)
    (two : WithHeader second third block) :
    WithHeader first third block :=
  SameBytes.trans one two

theorem WithHeader.header {before after : Memory}
    (same : WithHeader before after block) :
    SameHeader before after block :=
  SameBytes.inside same (Nat.le_refl _) (by omega)

/-- Equal headers name the same run. -/
theorem SameHeader.run_eq {before after : Memory}
    (same : SameHeader before after block)
    (large : headerSize ≤ block.ptr) :
    headerSlab after block.ptr = headerSlab before block.ptr ∧
      headerIndex after block.ptr = headerIndex before block.ptr ∧
      headerCount after block.ptr = headerCount before block.ptr := by
  unfold headerSize at large
  refine ⟨?_, ?_, ?_⟩
  · exact loadBytes_congr
      (SameBytes.inside same (Nat.le_refl _)
        (by unfold headerSize; omega))
  · exact loadBytes_congr
      (SameBytes.inside same (by unfold headerSize; omega)
        (by unfold headerSize; omega))
  · exact loadBytes_congr
      (SameBytes.inside same (by unfold headerSize; omega)
        (by unfold headerSize; omega))

/-- A header reads back what was stored. -/
theorem storeHeader_run (memory : Memory) {ptr addr index count : Nat}
    (large : headerSize ≤ ptr) (addrFits : addr < sizeLimit)
    (indexFits : index < sizeLimit) (countFits : count < sizeLimit) :
    headerSlab (storeHeader memory ptr addr index count) ptr = addr ∧
      headerIndex (storeHeader memory ptr addr index count) ptr = index ∧
      headerCount (storeHeader memory ptr addr index count) ptr =
        count := by
  unfold headerSize at large
  refine ⟨?_, ?_, ?_⟩
  · unfold headerSlab storeHeader
    rw [loadBytes_storeBytes_of_apart _ _ (by unfold Apart; omega),
      loadBytes_storeBytes_of_apart _ _ (by unfold Apart; omega)]
    exact loadBytes_storeBytes_of_lt _ _ addrFits
  · unfold headerIndex storeHeader
    rw [loadBytes_storeBytes_of_apart _ _ (by unfold Apart; omega)]
    exact loadBytes_storeBytes_of_lt _ _ indexFits
  · unfold headerCount storeHeader
    exact loadBytes_storeBytes_of_lt _ _ countFits

/-- A header store only writes the bytes of the header. -/
theorem storeHeader_sameBytes (memory : Memory)
    {ptr addr index count address length : Nat}
    (large : headerSize ≤ ptr)
    (apart : Apart (ptr - headerSize) headerSize address length) :
    SameBytes memory (storeHeader memory ptr addr index count)
      address length := by
  unfold headerSize Apart at *
  unfold storeHeader
  have first : SameBytes memory (storeBytes memory (ptr - 24) addr 8)
      address length := by
    apply storeBytes_sameBytes
    unfold Apart
    omega
  apply first.trans
  have second : SameBytes (storeBytes memory (ptr - 24) addr 8)
      (storeBytes (storeBytes memory (ptr - 24) addr 8)
        (ptr - 16) index 8) address length := by
    apply storeBytes_sameBytes
    unfold Apart
    omega
  apply second.trans
  apply storeBytes_sameBytes
  unfold Apart
  omega

theorem InRun.large (inRun : InRun pool block) :
    headerSize ≤ block.ptr := by
  rcases inRun with ⟨low, high⟩
  omega

theorem InSlab.congr {after : SlabPool}
    (inSlab : InSlab pool block) (large : headerSize ≤ block.ptr)
    (same :
      SameHeader pool.backing.memory after.backing.memory block)
    (shapes : pool.slabs.map Slab.shape ⊆ after.slabs.map Slab.shape) :
    InSlab after block := by
  rcases inSlab with ⟨count, shape, inside⟩
  rcases same.run_eq large with ⟨home, index, run⟩
  refine ⟨count, ?_, ?_⟩
  · rw [home]
    exact shapes shape
  · rw [index, run]
    exact inside

theorem InRun.congr {after : SlabPool}
    (inRun : InRun pool block)
    (same :
      SameHeader pool.backing.memory after.backing.memory block)
    (size : after.slabSize = pool.slabSize) :
    InRun after block := by
  rcases same.run_eq inRun.large with ⟨home, index, run⟩
  simp only [InRun, home, index, run, size]
  exact inRun

/-- The invariant reads the headers, the shapes and the bitmaps. -/
theorem Holds.congr {after : SlabPool}
    (holds : Holds pool live)
    (headers : ∀ block ∈ live,
      SameHeader pool.backing.memory after.backing.memory block)
    (shapes : pool.slabs.map Slab.shape ⊆ after.slabs.map Slab.shape)
    (size : after.slabSize = pool.slabSize)
    (occupied : ∀ addr,
      occupiedIn after.slabs addr = occupiedIn pool.slabs addr) :
    Holds after live where
  inSlab := fun block member =>
    (holds.inSlab block member).congr (holds.inRun block member).large
      (headers block member) shapes
  inRun := fun block member =>
    (holds.inRun block member).congr (headers block member) size
  exact := by
    apply holds.exact.congr _ _ occupied
    · intro block member
      exact ((headers block member).run_eq
        (holds.inRun block member).large).1
    · intro block member
      rcases (headers block member).run_eq
        (holds.inRun block member).large with ⟨_, index, run⟩
      simp only [ownerIn, index, run]

/-- Only the bytes of the range were written. -/
def WritesOnly (before after : Memory) (range : Slice) : Prop :=
  ∀ address length, Apart range.ptr range.length address length →
    SameBytes before after address length

/-- A write into a held block keeps the invariant and the other blocks. -/
theorem Holds.write {memory : Memory}
    (holds : Holds pool live) (ok : SlabsOk pool)
    (member : block ∈ live)
    (writes : WritesOnly pool.backing.memory memory block) :
    Holds { pool with backing := { pool.backing with memory } } live ∧
      ∀ other ∈ live, block ≠ other →
        WithHeader pool.backing.memory memory other := by
  have large := (holds.inRun block member).large
  have others : ∀ other ∈ live, block ≠ other →
      WithHeader pool.backing.memory memory other := by
    intro other otherMember different
    apply writes
    exact (holds.apart_header ok member otherMember different).inside
      (by omega) (by unfold headerSize at *; omega)
      (Nat.le_refl _) (Nat.le_refl _)
  refine ⟨?_, others⟩
  apply holds.congr
  · intro other otherMember
    by_cases same : block = other
    · subst same
      apply writes
      unfold Apart headerSize at *
      omega
    · exact (others other otherMember same).header
  · exact List.Subset.refl _
  · rfl
  · intro addr
    rfl

/-! ## Changing one slab -/

theorem Slab.take_shape (index need : Nat) (slab : Slab) :
    (slab.take index need).shape = slab.shape :=
  rfl

theorem Slab.give_shape (index need : Nat) (slab : Slab) :
    (slab.give index need).shape = slab.shape :=
  rfl

section Update

variable {change : Slab → Slab}

/-- A changed slab that is still sound keeps the slabs sound. -/
theorem SlabsOk.updateSlab
    (ok : SlabsOk pool) (member : slab ∈ pool.slabs)
    (keeps : ∀ slab, (change slab).shape = slab.shape)
    (changed : SlabOk (change slab)) :
    SlabsOk (pool.updateSlab slab.addr change) where
  positive := ok.positive
  hosted := by
    have same : (pool.updateSlab slab.addr change).regions =
        pool.regions := by
      unfold SlabPool.regions SlabPool.updateSlab
      rw [KeyedList.map_update Slab.shape keeps]
    rw [same]
    exact ok.hosted
  each := by
    apply KeyedList.forall_update ok.each
    intro other otherMember same _
    have equal := ok.unique.eq_of_key otherMember member same
    rw [equal]
    exact changed

theorem occupiedIn_update_self
    (ok : SlabsOk pool) (member : slab ∈ pool.slabs)
    (keeps : ∀ slab, (change slab).shape = slab.shape) :
    occupiedIn (pool.updateSlab slab.addr change).slabs slab.addr =
      (change slab).used.indices := by
  unfold occupiedIn SlabPool.updateSlab
  rw [KeyedList.find_update (KeyedList.find_of_mem ok.unique member)
    (congrArg Prod.fst (keeps slab))]

theorem occupiedIn_update_of_ne
    {addr : Nat} (pool : SlabPool) (different : addr ≠ slab.addr)
    (keeps : ∀ slab, (change slab).shape = slab.shape) :
    occupiedIn (pool.updateSlab slab.addr change).slabs addr =
      occupiedIn pool.slabs addr := by
  have sameAddr : ∀ slab : Slab, (change slab).addr = slab.addr :=
    fun slab => congrArg Prod.fst (keeps slab)
  unfold occupiedIn SlabPool.updateSlab
  rw [KeyedList.find_update_of_ne different sameAddr]

theorem shapes_update
    (addr : Nat) (keeps : ∀ slab, (change slab).shape = slab.shape) :
    (pool.updateSlab addr change).slabs.map Slab.shape =
      pool.slabs.map Slab.shape :=
  KeyedList.map_update Slab.shape keeps

end Update

/-- Releasing a held block gives its run back. -/
theorem slabFree_holds
    (holds : Holds pool live) (ok : SlabsOk pool)
    (member : block ∈ live) :
    SlabsOk (slabFree pool block) ∧
      Holds (slabFree pool block) (live.erase block) ∧
      (slabFree pool block).backing = pool.backing := by
  rcases holds.home member with ⟨slab, slabMember, home, inside⟩
  have valid : block.ptr ≠ 0 := by
    have large := (holds.inRun block member).large
    unfold headerSize at large
    omega
  have freed : slabFree pool block =
      pool.updateSlab slab.addr
        (Slab.give (headerIndex pool.backing.memory block.ptr)
          (headerCount pool.backing.memory block.ptr)) := by
    simp only [slabFree, valid, if_false, home]
  have keeps := Slab.give_shape
    (headerIndex pool.backing.memory block.ptr)
    (headerCount pool.backing.memory block.ptr)
  have taken := holds.exact.slots_subset member
  simp only [ownerIn, ← home] at taken
  rw [occupiedIn_of_mem ok slabMember] at taken
  rcases (ok.each slab slabMember).give taken with ⟨given, indices⟩
  rw [freed]
  refine ⟨ok.updateSlab slabMember keeps given, ⟨?_, ?_, ?_⟩, rfl⟩
  · intro other otherMember
    apply (holds.inSlab other (List.mem_of_mem_erase otherMember)).congr
    · exact (holds.inRun other (List.mem_of_mem_erase otherMember)).large
    · exact SameBytes.refl _ _ _
    · rw [shapes_update slab.addr keeps]
      exact List.Subset.refl _
  · intro other otherMember
    apply (holds.inRun other (List.mem_of_mem_erase otherMember)).congr
    · exact SameBytes.refl _ _ _
    · rfl
  · apply (holds.exact.perm (perm_release member)).release
    · simp only [ownerIn, ← home]
      rw [occupiedIn_update_self ok slabMember keeps, indices,
        occupiedIn_of_mem ok slabMember]
    · intro addr different
      simp only [ownerIn, ← home] at different
      exact occupiedIn_update_of_ne pool different keeps

/-! ## Allocation -/

/-- Enough whole units to hold the value. -/
theorem le_divCeil_mul {value unit : Nat}
    (positive : 0 < unit) (fits : value + unit < sizeLimit) :
    value ≤ divCeil value unit * unit := by
  have sum : divCeil value unit = (value + unit - 1) / unit := by
    unfold divCeil
    rw [sizeAdd_eq fits, sizeSub_eq (by omega) fits]
  have above := Nat.lt_mul_div_succ (value + unit - 1) positive
  rw [Nat.mul_add, Nat.mul_comm unit, ← sum] at above
  omega

theorem requestAlign_pos (layout : Layout) : 0 < requestAlign layout := by
  unfold requestAlign
  split_ifs <;> omega

/-- The slots of a request hold the block, its header and the padding. -/
theorem SlabPool.SumsFit.room
    (fits : pool.SumsFit layout)
    (nonempty : layout.elemSize ≠ 0)
    (small : requestAlign layout ≤ pool.slabSize) :
    requestAlign layout - 1 + layout.elemSize + headerSize ≤
      pool.needFor layout * pool.slabSize := by
  have positive := requestAlign_pos layout
  rcases fits nonempty small with ⟨neededFits, -⟩
  have needed : neededFor layout =
      requestAlign layout - 1 + layout.elemSize + headerSize := by
    unfold neededFor
    rw [sizeSub_eq positive (by omega)]
    have padded :
        sizeAdd (requestAlign layout - 1) layout.elemSize =
          requestAlign layout - 1 + layout.elemSize :=
      sizeAdd_eq (by omega)
    exact (congrArg (sizeAdd · headerSize) padded).trans
      (sizeAdd_eq (by omega))
  unfold SlabPool.needFor
  rw [needed]
  exact le_divCeil_mul (by omega) neededFits

/-- A request takes at least one slot. -/
theorem SlabPool.SumsFit.need_pos
    (fits : pool.SumsFit layout)
    (nonempty : layout.elemSize ≠ 0)
    (small : requestAlign layout ≤ pool.slabSize) :
    0 < pool.needFor layout := by
  have room := fits.room nonempty small
  by_contra none
  have zero : pool.needFor layout = 0 := by omega
  rw [zero, Nat.zero_mul] at room
  unfold headerSize at room
  omega

/-- Where a request is placed in its run. -/
theorem userAddr_spec
    (ok : SlabsOk pool) (member : slab ∈ pool.slabs)
    (room : requestAlign layout - 1 + layout.elemSize + headerSize ≤
      need * pool.slabSize)
    (inside : index + need ≤ slab.slabCount) :
    slabData slab.addr + index * pool.slabSize + headerSize ≤
        pool.userAddr slab index layout ∧
      pool.userAddr slab index layout + layout.elemSize ≤
        slabData slab.addr + (index + need) * pool.slabSize ∧
      (PowerOfTwo layout →
        requestAlign layout ∣ pool.userAddr slab index layout) := by
  have positive := requestAlign_pos layout
  have bound := ok.fits member
  have within := run_bytes (slabData slab.addr) pool.slabSize inside
  have split : (index + need) * pool.slabSize =
      index * pool.slabSize + need * pool.slabSize :=
    Nat.add_mul _ _ _
  have start : sizeMul index pool.slabSize = index * pool.slabSize :=
    sizeMul_eq (by omega)
  have padded :
      slabData slab.addr + index * pool.slabSize + headerSize +
        (requestAlign layout - 1) < sizeLimit := by
    omega
  have bounds := alignUp_bounds positive padded
  have position : pool.userAddr slab index layout =
      alignUp (slabData slab.addr + index * pool.slabSize + headerSize)
        (requestAlign layout) := by
    unfold SlabPool.userAddr
    dsimp only
    rw [start, sizeSub_eq (by omega) (by omega)]
    omega
  rw [position]
  refine ⟨bounds.1, by omega, ?_⟩
  intro power
  exact alignUp_dvd power padded

/-- A free run of a slab with room for the request. -/
structure Vacancy (pool : SlabPool) (slab : Slab) (index : Nat)
    (layout : Layout) : Prop where
  member : slab ∈ pool.slabs
  room : requestAlign layout - 1 + layout.elemSize + headerSize ≤
    pool.needFor layout * pool.slabSize
  inside : index + pool.needFor layout ≤ slab.slabCount
  free : Disjoint (slots index (pool.needFor layout)) slab.used.indices

theorem placed_memory (pool : SlabPool) (slab : Slab) (index : Nat)
    (layout : Layout) :
    (pool.placed slab index layout).backing.memory =
      storeHeader pool.backing.memory (pool.userAddr slab index layout)
        slab.addr index (pool.needFor layout) := by
  simp only [SlabPool.placed]

theorem placed_slabs (pool : SlabPool) (slab : Slab) (index : Nat)
    (layout : Layout) :
    (pool.placed slab index layout).slabs =
      (pool.updateSlab slab.addr
        (Slab.take index (pool.needFor layout))).slabs := by
  unfold SlabPool.placed
  rfl

theorem placed_slabSize (pool : SlabPool) (slab : Slab) (index : Nat)
    (layout : Layout) :
    (pool.placed slab index layout).slabSize = pool.slabSize := by
  unfold SlabPool.placed
  rfl

/-- The header of the new block is apart from all held blocks. -/
theorem Holds.apart_placed
    (holds : Holds pool live) (ok : SlabsOk pool)
    (vacancy : Vacancy pool slab index layout) (member : block ∈ live) :
    Apart (pool.userAddr slab index layout - headerSize)
      (headerSize + layout.elemSize)
      (block.ptr - headerSize) (headerSize + block.length) := by
  rcases userAddr_spec ok vacancy.member vacancy.room vacancy.inside with
    ⟨low, high, -⟩
  apply holds.apart_free ok member vacancy.member vacancy.free
    vacancy.inside
  · omega
  · omega
  · unfold headerSize
    omega

theorem Holds.placed_withHeader
    (holds : Holds pool live) (ok : SlabsOk pool)
    (vacancy : Vacancy pool slab index layout) (member : block ∈ live) :
    WithHeader pool.backing.memory
      (pool.placed slab index layout).backing.memory block := by
  rcases userAddr_spec ok vacancy.member vacancy.room vacancy.inside with
    ⟨low, -, -⟩
  have separated := holds.apart_placed ok vacancy member
  apply storeHeader_sameBytes
  · omega
  · exact separated.inside (Nat.le_refl _) (by omega)
      (Nat.le_refl _) (Nat.le_refl _)

theorem Holds.placed_ne
    (holds : Holds pool live) (ok : SlabsOk pool)
    (vacancy : Vacancy pool slab index layout) (member : block ∈ live) :
    (⟨pool.userAddr slab index layout, layout.elemSize⟩ : Slice) ≠
      block := by
  intro same
  have separated := holds.apart_placed ok vacancy member
  rw [← same] at separated
  unfold Apart headerSize at separated
  dsimp only at separated
  omega

/-- Placing a block in a free run keeps the slabs sound. -/
theorem SlabsOk.placed
    (ok : SlabsOk pool) (vacancy : Vacancy pool slab index layout) :
    SlabsOk (pool.placed slab index layout) := by
  rcases (ok.each slab vacancy.member).take vacancy.inside vacancy.free
    with ⟨taken, -⟩
  exact (ok.updateSlab vacancy.member
    (Slab.take_shape index (pool.needFor layout)) taken).withMemory _

/-- The header of the new block reads back. -/
theorem placed_run
    (ok : SlabsOk pool) (vacancy : Vacancy pool slab index layout) :
    headerSlab (pool.placed slab index layout).backing.memory
        (pool.userAddr slab index layout) = slab.addr ∧
      headerIndex (pool.placed slab index layout).backing.memory
        (pool.userAddr slab index layout) = index ∧
      headerCount (pool.placed slab index layout).backing.memory
        (pool.userAddr slab index layout) = pool.needFor layout := by
  rcases userAddr_spec ok vacancy.member vacancy.room vacancy.inside with
    ⟨low, -, -⟩
  have bound := ok.fits vacancy.member
  have inside := vacancy.inside
  have scaled : slab.slabCount ≤ slab.slabCount * pool.slabSize :=
    Nat.le_mul_of_pos_right _ ok.positive
  rw [placed_memory]
  apply storeHeader_run
  · omega
  · unfold slabData at bound
    omega
  · omega
  · omega

/-- The new block owns the slots it was placed in. -/
theorem Holds.placed
    (holds : Holds pool live) (ok : SlabsOk pool)
    (vacancy : Vacancy pool slab index layout) :
    Holds (pool.placed slab index layout)
      (⟨pool.userAddr slab index layout, layout.elemSize⟩ :: live) := by
  rcases userAddr_spec ok vacancy.member vacancy.room vacancy.inside with
    ⟨low, high, -⟩
  rcases (ok.each slab vacancy.member).take vacancy.inside vacancy.free
    with ⟨-, indices⟩
  rcases placed_run ok vacancy with ⟨home, start, run⟩
  have keeps := Slab.take_shape index (pool.needFor layout)
  have headers : ∀ block ∈ live,
      SameHeader pool.backing.memory
        (pool.placed slab index layout).backing.memory block :=
    fun block member =>
      (holds.placed_withHeader ok vacancy member).header
  have shapes :
      (pool.placed slab index layout).slabs.map Slab.shape =
        pool.slabs.map Slab.shape := by
    rw [placed_slabs]
    exact shapes_update slab.addr keeps
  constructor
  · intro block member
    rcases List.mem_cons.mp member with rfl | old
    · refine ⟨slab.slabCount, ?_, ?_⟩
      · rw [home, shapes]
        exact List.mem_map_of_mem vacancy.member
      · rw [start, run]
        exact vacancy.inside
    · apply (holds.inSlab block old).congr
      · exact (holds.inRun block old).large
      · exact headers block old
      · rw [shapes]
        exact List.Subset.refl _
  · intro block member
    rcases List.mem_cons.mp member with rfl | old
    · simp only [InRun, home, start, run, placed_slabSize]
      exact ⟨low, high⟩
    · exact (holds.inRun block old).congr (headers block old)
        (placed_slabSize pool slab index layout)
  · have renamed :
        Exact (ownerIn (pool.placed slab index layout).backing.memory)
          (occupiedIn pool.slabs) live := by
      apply holds.exact.congr
      · intro block member
        exact ((headers block member).run_eq
          (holds.inRun block member).large).1
      · intro block member
        rcases (headers block member).run_eq
          (holds.inRun block member).large with ⟨_, sameIndex, sameRun⟩
        simp only [ownerIn, sameIndex, sameRun]
      · intro addr
        rfl
    apply renamed.claim
    · simp only [ownerIn, home, start, run]
      rw [occupiedIn_of_mem ok vacancy.member]
      exact vacancy.free
    · simp only [ownerIn, home, start, run, placed_slabs]
      rw [occupiedIn_update_self ok vacancy.member keeps, indices,
        occupiedIn_of_mem ok vacancy.member]
    · intro addr different
      simp only [ownerIn, home] at different
      rw [placed_slabs]
      exact occupiedIn_update_of_ne pool different keeps

/-- The same slabs over a settled backing allocator. -/
structure SamePool (before after : SlabPool) : Prop where
  slabs : after.slabs = before.slabs
  slabSize : after.slabSize = before.slabSize
  backing : Settled before.backing after.backing

theorem SamePool.refl (pool : SlabPool) : SamePool pool pool :=
  ⟨rfl, rfl, Settled.refl _⟩

/-- What an answered call to the slab allocator can lead to. -/
abbrev SlabOutcome (pool : SlabPool) (live : List Slice) :
    Option Slice → Except IoError Slice × SlabPool → Prop :=
  Outcome slabAllocator headerSize SamePool Invariant pool live

/-- What keeps the backing blocks keeps the held blocks and their headers. -/
theorem Holds.withHeader {memory : Memory}
    (holds : Holds pool live) (ok : SlabsOk pool)
    (kept : ∀ home ∈ pool.backing.blocks,
      SameBytes pool.backing.memory memory home.ptr home.length)
    (member : block ∈ live) :
    WithHeader pool.backing.memory memory block := by
  rcases holds.home member with ⟨slab, slabMember, home, inside⟩
  rcases holds.inRun block member with ⟨low, high⟩
  rw [← home] at low high
  have bound := run_bytes (slabData slab.addr) pool.slabSize inside
  have region := ok.hosted.sameBytes kept (SlabPool.region_mem slabMember)
  apply SameBytes.inside region
  · simp only [shapeRegion, Slab.shape]
    unfold slabData at low
    omega
  · simp only [shapeRegion, Slab.shape]
    unfold slabData Slice.finish headerSize at *
    omega

/-- A call that fails changes nothing. -/
theorem SamePool.outcome {after : SlabPool} {old : Option Slice}
    (holds : Holds pool live) (ok : SlabsOk pool)
    (error : IoError) (same : SamePool pool after) :
    SlabOutcome pool live old (.error error, after) := by
  have kept : ∀ block ∈ live,
      WithHeader pool.backing.memory after.backing.memory block :=
    fun block member => holds.withHeader ok same.backing.bytes member
  apply Outcome.failed
  · exact same
  · refine ⟨⟨?_, ?_, ?_⟩, ?_⟩
    · rw [same.slabSize]
      exact ok.positive
    · have regions : after.regions = pool.regions := by
        unfold SlabPool.regions
        rw [same.slabs, same.slabSize]
      rw [regions]
      exact ok.hosted.congr same.backing.blocks
    · rw [same.slabs]
      exact ok.each
    · apply holds.congr
      · exact fun block member => (kept block member).header
      · rw [same.slabs]
        exact List.Subset.refl _
      · exact same.slabSize
      · intro addr
        rw [same.slabs]
  · intro other member different
    exact kept other member

/-- A slab without occupied slots changes no occupied set. -/
theorem occupiedIn_cons {slabs : List Slab}
    (unique : KeyedList.Unique Slab.addr (slab :: slabs))
    (empty : slab.used.indices = ∅) (addr : Nat) :
    occupiedIn (slab :: slabs) addr = occupiedIn slabs addr := by
  unfold occupiedIn
  by_cases same : slab.addr = addr
  · have first : KeyedList.find Slab.addr (slab :: slabs) addr =
        some slab := by
      rw [← same]
      exact KeyedList.find_of_mem unique List.mem_cons_self
    rw [first]
    cases found : KeyedList.find Slab.addr slabs addr with
    | none => exact empty
    | some other =>
        rcases KeyedList.mem_of_find found with ⟨member, otherAddr⟩
        have equal := unique.eq_of_key (List.mem_cons_of_mem _ member)
          List.mem_cons_self (otherAddr.trans same.symm)
        rw [equal]
  · unfold KeyedList.find
    simp only [List.find?_cons, same, decide_false]

/-- The request of `cu_create_slab` for `count` slots. -/
theorem slab_layout {count unit : Nat}
    (fits : slabHeaderSize + count * unit < sizeLimit) :
    Layout.create (sizeAdd slabHeaderSize (sizeMul count unit)) maxAlign =
      ⟨slabHeaderSize + count * unit, maxAlign⟩ := by
  have total : sizeAdd slabHeaderSize (sizeMul count unit) =
      slabHeaderSize + count * unit := by
    rw [sizeMul_eq (by omega), sizeAdd_eq fits]
  rw [total]
  apply Layout.create_of_pos
  · unfold slabHeaderSize
    omega
  · decide

/-- `cu_create_slab` fails, or hosts a slab without occupied slots. -/
theorem createSlab_cases {count : Nat}
    (holds : Holds pool live) (ok : SlabsOk pool)
    (positive : 0 < count)
    (fits : slabHeaderSize + count * pool.slabSize < sizeLimit) :
    (∃ after, createSlab pool count = (none, after) ∧
      SamePool pool after) ∨
    ∃ slab after, createSlab pool count = (some slab, after) ∧
      slab.slabCount = count ∧ slab.used.indices = ∅ ∧
      after.slabSize = pool.slabSize ∧
      SlabsOk { after with slabs := slab :: after.slabs } ∧
      Holds { after with slabs := slab :: after.slabs } live ∧
      ∀ block ∈ live,
        WithHeader pool.backing.memory after.backing.memory block := by
  have request := slab_layout fits
  have countFits : count ≤ count * pool.slabSize :=
    Nat.le_mul_of_pos_right _ ok.positive
  have bitsFit : count + 64 < sizeLimit := by
    unfold slabHeaderSize at fits
    omega
  simp only [createSlab, request]
  rcases ok.hosted.alloc
      ⟨slabHeaderSize + count * pool.slabSize, maxAlign⟩ with
    ⟨error, after, answer, settled⟩ |
    ⟨block, first, answer, large, blocks, kept, hosted⟩
  · left
    simp only [answer]
    exact ⟨_, rfl, rfl, rfl, settled⟩
  · simp only [answer]
    rcases bitmapCreate_cases (hosted _ large) positive bitsFit with
      ⟨after, created, settled⟩ |
      ⟨used, after, created, blank, keptBits, hostedBits⟩
    · left
      simp only [created]
      refine ⟨_, rfl, rfl, rfl, ?_, ?_⟩
      · refine Backing.free_head ?_ rfl
        rw [settled.blocks, blocks]
      · intro home member
        have later : home ∈ first.blocks := by
          rw [blocks]
          exact List.mem_cons_of_mem _ member
        exact (kept home member).trans (settled.bytes home later)
    · right
      simp only [created]
      have keptBoth : ∀ home ∈ pool.backing.blocks,
          SameBytes pool.backing.memory after.memory
            home.ptr home.length := by
        intro home member
        have later : home ∈ first.blocks := by
          rw [blocks]
          exact List.mem_cons_of_mem _ member
        exact (kept home member).trans (keptBits home later)
      have keptLive : ∀ held ∈ live,
          WithHeader pool.backing.memory after.memory held :=
        fun held member => holds.withHeader ok keptBoth member
      have empty : used.indices = ∅ := by
        rw [blank]
        exact zeroed_indices _ _
      have sound : SlabsOk
          ⟨after, ⟨block.ptr, used, count, count⟩ :: pool.slabs,
            pool.slabSize⟩ := by
        refine ⟨ok.positive, hostedBits.tail, ?_⟩
        intro slab member
        rcases List.mem_cons.mp member with rfl | old
        · have clear := used.clearCount_add_card
          rw [empty, Finset.card_empty, blank] at clear
          refine ⟨?_, ?_, ?_, ?_⟩
          · dsimp only
            rw [blank]
            exact zeroed_covered _ bitsFit
          · dsimp only
            rw [blank]
            rfl
          · dsimp only
            rw [blank]
            exact clear.symm
          · dsimp only
            omega
        · exact ok.each slab old
      refine ⟨_, _, rfl, rfl, empty, rfl, sound, ?_, keptLive⟩
      apply holds.congr
      · exact fun held member => (keptLive held member).header
      · exact List.subset_cons_self _ _
      · rfl
      · intro addr
        exact occupiedIn_cons sound.unique empty addr

/-- A slab found for a request has a free run. -/
theorem findSlab_vacant
    (positive : 0 < need)
    (found : pool.findSlab need = some (slab, index)) :
    slab ∈ pool.slabs ∧ index + need ≤ slab.slabCount ∧
      Disjoint (slots index need) slab.used.indices := by
  rcases List.exists_of_findSome?_eq_some found with
    ⟨candidate, member, chosen⟩
  by_cases enough : need ≤ candidate.freeCount
  · simp only [enough, if_true, Option.map_eq_some_iff,
      Prod.mk.injEq] at chosen
    rcases chosen with ⟨start, answer, rfl, rfl⟩
    rcases findRunFrom_spec positive positive (Nat.le_refl _)
        (fun slot low high => by omega) answer with ⟨inside, free⟩
    refine ⟨member, by omega, ?_⟩
    rw [Finset.disjoint_left]
    intro slot inRun taken
    rw [Bits.mem_indices, free slot inRun] at taken
    cases taken
  · simp only [enough, if_false] at chosen
    cases chosen

/--
What `cu_slab_alloc` does: it fails without any effect, or it places the
block in a free run of a slab, which may have been created for it.
-/
theorem slabAlloc_cases
    (holds : Holds pool live) (ok : SlabsOk pool)
    (fits : pool.SumsFit layout) :
    (∃ error after, slabAlloc pool layout = (.error error, after) ∧
      SamePool pool after) ∨
    ∃ target slab index,
      SlabsOk target ∧ Holds target live ∧
      Vacancy target slab index layout ∧
      (∀ block ∈ live, WithHeader pool.backing.memory
        target.backing.memory block) ∧
      slabAlloc pool layout = target.place slab index layout := by
  by_cases empty : layout.elemSize = 0
  · left
    exact
      ⟨.invalidInput, pool, by simp only [slabAlloc, empty, if_true],
        SamePool.refl pool⟩
  by_cases large : pool.slabSize < requestAlign layout
  · left
    exact
      ⟨.invalidInput, pool,
        by simp only [slabAlloc, empty, large, if_true, if_false],
        SamePool.refl pool⟩
  have small : requestAlign layout ≤ pool.slabSize := by omega
  have room := fits.room empty small
  have positive := fits.need_pos empty small
  cases found : pool.findSlab (pool.needFor layout) with
  | some answer =>
      right
      rcases answer with ⟨slab, index⟩
      rcases findSlab_vacant positive found with ⟨member, inside, free⟩
      exact
        ⟨pool, slab, index, ok, holds, ⟨member, room, inside, free⟩,
          fun _ _ => SameBytes.refl _ _ _,
          by simp only [slabAlloc, empty, large, if_false, found]⟩
  | none =>
      have enough : pool.needFor layout ≤ pool.newSlabCount layout :=
        Nat.le_max_left _ _
      rcases createSlab_cases holds ok
          (Nat.lt_of_lt_of_le positive enough) (fits empty small).2 with
        ⟨after, failed, same⟩ |
        ⟨slab, after, created, count, clear, size, nextOk, nextHolds,
          kept⟩
      · left
        exact
          ⟨.outOfMemory, after,
            by simp only [slabAlloc, empty, large, if_false, found, failed],
            same⟩
      · right
        have sameNeed :
            SlabPool.needFor
                { after with slabs := slab :: after.slabs } layout =
              pool.needFor layout := by
          unfold SlabPool.needFor
          rw [size]
        refine
          ⟨_, slab, 0, nextOk, nextHolds, ⟨List.mem_cons_self, ?_, ?_, ?_⟩,
            kept,
            by simp only [slabAlloc, empty, large, if_false, found,
              created]⟩
        · rw [sameNeed, size]
          exact room
        · rw [sameNeed, count]
          omega
        · rw [clear]
          exact Finset.disjoint_empty_right _

theorem slabAlloc_outcome
    (holds : Holds pool live) (ok : SlabsOk pool)
    (fits : pool.SumsFit layout) :
    SlabOutcome pool live none (slabAlloc pool layout) := by
  rcases slabAlloc_cases holds ok fits with
    ⟨error, after, failed, same⟩ |
    ⟨target, slab, index, targetOk, targetHolds, vacancy, kept, placed⟩
  · rw [failed]
    exact same.outcome holds ok error
  · rcases userAddr_spec targetOk vacancy.member vacancy.room
      vacancy.inside with ⟨low, -, -⟩
    rw [placed]
    apply Outcome.answered
    · unfold headerSize at low
      dsimp only
      omega
    · exact
        ⟨targetOk.placed vacancy, targetHolds.placed targetOk vacancy⟩
    · intro other member different
      simp only [slabAllocator]
      exact WithHeader.trans (kept other member)
        (targetHolds.placed_withHeader targetOk vacancy member)
    · intro source target
      cases target

/-- An allocated block has the alignment that was asked for. -/
theorem slabAlloc_aligned
    (holds : Holds pool live) (ok : SlabsOk pool)
    (fits : pool.SumsFit layout) (power : PowerOfTwo layout)
    {after : SlabPool}
    (answer : slabAlloc pool layout = (.ok block, after)) :
    requestAlign layout ∣ block.ptr := by
  rcases slabAlloc_cases holds ok fits with
    ⟨error, after, failed, same⟩ |
    ⟨target, slab, index, targetOk, targetHolds, vacancy, kept, placed⟩
  · rw [failed] at answer
    cases answer
  · rw [placed] at answer
    cases answer
    exact (userAddr_spec targetOk vacancy.member vacancy.room
      vacancy.inside).2.2 power

/-! ## Resizing -/

/-- A copy into a block only writes that block. -/
theorem blit_writesOnly (memory : Memory) (block : Slice)
    {source length : Nat} (short : length ≤ block.length) :
    WritesOnly memory (blit memory block.ptr source length) block := by
  intro address count apart
  apply blit_sameBytes
  exact apart.inside (Nat.le_refl _) (by omega)
    (Nat.le_refl _) (Nat.le_refl _)

/-- Allocating, copying and freeing keeps the prefix of the block. -/
theorem slabMove_outcome
    (holds : Holds pool live) (ok : SlabsOk pool)
    (member : block ∈ live)
    (fits : pool.SumsFit layout) :
    SlabOutcome pool live (some block) (slabMove pool block layout) := by
  rcases slabAlloc_cases holds ok fits with
    ⟨error, after, failed, same⟩ |
    ⟨target, slab, index, targetOk, targetHolds, vacancy, kept, placed⟩
  · simp only [slabMove, failed]
    exact same.outcome holds ok error
  · have newOk := targetOk.placed vacancy
    have newHolds := targetHolds.placed targetOk vacancy
    have moved := targetHolds.placed_ne targetOk vacancy member
    have oldMember :
        block ∈ ⟨target.userAddr slab index layout, layout.elemSize⟩ ::
          live :=
      List.mem_cons_of_mem _ member
    have separated := newHolds.apart_header newOk List.mem_cons_self
      oldMember moved
    have newLarge := (newHolds.inRun _ List.mem_cons_self).large
    have oldLarge := (newHolds.inRun _ oldMember).large
    simp only at separated newLarge
    have copied :
        smemcpy (target.placed slab index layout).backing.memory
            ⟨target.userAddr slab index layout,
              min block.length layout.elemSize⟩
            ⟨block.ptr, min block.length layout.elemSize⟩ =
          blit (target.placed slab index layout).backing.memory
            (target.userAddr slab index layout) block.ptr
            (min block.length layout.elemSize) := by
      have apart :
          Apart (target.userAddr slab index layout)
            (min block.length layout.elemSize)
            block.ptr (min block.length layout.elemSize) :=
        separated.inside (by omega) (by omega) (by omega) (by omega)
      rw [smemcpy_eq_blit _ (by unfold headerSize at newLarge; omega)
        (by unfold headerSize at oldLarge; omega) apart, min_self]
    rcases newHolds.write newOk List.mem_cons_self
        (blit_writesOnly _ _ (Nat.min_le_right block.length _)) with
      ⟨writtenHolds, writtenOthers⟩
    rcases slabFree_holds writtenHolds (newOk.withMemory _) oldMember with
      ⟨freedOk, freedHolds, backing⟩
    rw [List.erase_cons_tail (by simpa using moved)] at freedHolds
    simp only [slabMove, placed, SlabPool.place, copied]
    apply Outcome.answered
    · unfold headerSize at newLarge
      dsimp only
      omega
    · exact ⟨freedOk, freedHolds⟩
    · intro other otherMember different
      simp only [slabAllocator, backing]
      have stays : WithHeader pool.backing.memory
          (target.placed slab index layout).backing.memory other :=
        (kept other otherMember).trans
          (targetHolds.placed_withHeader targetOk vacancy otherMember)
      exact stays.trans
        (writtenOthers other (List.mem_cons_of_mem _ otherMember)
          (targetHolds.placed_ne targetOk vacancy otherMember))
    · rintro source ⟨rfl⟩ offset within
      simp only [slabAllocator, backing]
      have stays : WithHeader pool.backing.memory
          (target.placed slab index layout).backing.memory block :=
        (kept block member).trans
          (targetHolds.placed_withHeader targetOk vacancy member)
      have source : SameBytes pool.backing.memory
          (target.placed slab index layout).backing.memory
          block.ptr block.length :=
        SameBytes.inside stays (by omega) (by omega)
      rw [← source offset (by omega)]
      exact blit_inside _ _ within

/-- The bytes of a block up to the end of its run. -/
theorem Holds.current
    (holds : Holds pool live) (ok : SlabsOk pool)
    (member : block ∈ live) :
    let memory := pool.backing.memory
    let data := slabData (headerSlab memory block.ptr)
    let index := headerIndex memory block.ptr
    let count := headerCount memory block.ptr
    block.ptr = data + index * pool.slabSize + pool.prefixOf block ∧
      block.ptr + pool.currentOf block =
        data + (index + count) * pool.slabSize := by
  rcases holds.home member with ⟨slab, slabMember, home, inside⟩
  rcases holds.inRun block member with ⟨low, high⟩
  have bound := ok.fits slabMember
  rw [home] at bound
  have within := run_bytes
    (slabData (headerSlab pool.backing.memory block.ptr))
    pool.slabSize inside
  have split := Nat.add_mul
    (headerIndex pool.backing.memory block.ptr)
    (headerCount pool.backing.memory block.ptr) pool.slabSize
  have start :
      sizeMul (headerIndex pool.backing.memory block.ptr) pool.slabSize =
        headerIndex pool.backing.memory block.ptr * pool.slabSize :=
    sizeMul_eq (by omega)
  have whole :
      sizeMul (headerCount pool.backing.memory block.ptr) pool.slabSize =
        headerCount pool.backing.memory block.ptr * pool.slabSize :=
    sizeMul_eq (by omega)
  have front : pool.prefixOf block =
      block.ptr -
        (slabData (headerSlab pool.backing.memory block.ptr) +
          headerIndex pool.backing.memory block.ptr * pool.slabSize) := by
    simp only [SlabPool.prefixOf, start]
  unfold Slice.finish at high
  have rest : pool.currentOf block =
      headerCount pool.backing.memory block.ptr * pool.slabSize -
        pool.prefixOf block := by
    unfold SlabPool.currentOf
    rw [whole, sizeSub_eq (by omega) (by omega)]
  dsimp only
  omega

/-- No block is held twice. -/
theorem Holds.nodup (holds : Holds pool live) : live.Nodup := by
  refine holds.exact.apart.imp_of_mem ?_
  intro left right leftMember rightMember separated same
  subst same
  rcases holds.inRun left leftMember with ⟨low, high⟩
  have empty := Finset.disjoint_self_iff_empty _ |>.mp (separated rfl)
  have none : headerCount pool.backing.memory left.ptr = 0 := by
    have counted := card_slots
      (headerIndex pool.backing.memory left.ptr)
      (headerCount pool.backing.memory left.ptr)
    rw [← counted]
    exact Finset.card_eq_zero.mpr empty
  rw [none, Nat.add_zero] at high
  unfold Slice.finish headerSize at *
  omega

/-- A block may keep a first part of its run, with a new length. -/
theorem Holds.keep {after : SlabPool} {size : Nat}
    (holds : Holds pool live)
    (member : block ∈ live)
    (home : headerSlab after.backing.memory block.ptr =
      headerSlab pool.backing.memory block.ptr)
    (start : headerIndex after.backing.memory block.ptr =
      headerIndex pool.backing.memory block.ptr)
    (shorter : headerCount after.backing.memory block.ptr ≤
      headerCount pool.backing.memory block.ptr)
    (headers : ∀ other ∈ live, block ≠ other →
      SameHeader pool.backing.memory after.backing.memory other)
    (shapes : after.slabs.map Slab.shape = pool.slabs.map Slab.shape)
    (slabSize : after.slabSize = pool.slabSize)
    (atHome :
      occupiedIn after.slabs (headerSlab pool.backing.memory block.ptr) =
        occupiedIn pool.slabs
            (headerSlab pool.backing.memory block.ptr) \
          (slots (headerIndex pool.backing.memory block.ptr)
              (headerCount pool.backing.memory block.ptr) \
            slots (headerIndex pool.backing.memory block.ptr)
              (headerCount after.backing.memory block.ptr)))
    (elsewhere : ∀ addr,
      addr ≠ headerSlab pool.backing.memory block.ptr →
        occupiedIn after.slabs addr = occupiedIn pool.slabs addr)
    (fits : block.ptr + size ≤
      slabData (headerSlab pool.backing.memory block.ptr) +
        (headerIndex pool.backing.memory block.ptr +
          headerCount after.backing.memory block.ptr) * pool.slabSize) :
    Holds after (⟨block.ptr, size⟩ :: live.erase block) := by
  have remaining : ∀ other ∈ live.erase block,
      other ∈ live ∧
        SameHeader pool.backing.memory after.backing.memory other := by
    intro other otherMember
    have facts := (holds.nodup.mem_erase_iff).mp otherMember
    exact ⟨facts.2, headers other facts.2 fun same => facts.1 same.symm⟩
  constructor
  · intro other otherMember
    rcases List.mem_cons.mp otherMember with rfl | old
    · rcases holds.inSlab block member with ⟨count, shape, inside⟩
      refine ⟨count, ?_, ?_⟩
      · rw [shapes, home]
        exact shape
      · dsimp only
        rw [start]
        omega
    · rcases remaining other old with ⟨live, same⟩
      apply (holds.inSlab other live).congr _ same
      · rw [shapes]
        exact List.Subset.refl _
      · exact (holds.inRun other live).large
  · intro other otherMember
    rcases List.mem_cons.mp otherMember with rfl | old
    · rcases holds.inRun block member with ⟨low, high⟩
      simp only [InRun, home, start, slabSize]
      exact ⟨low, fits⟩
    · rcases remaining other old with ⟨live, same⟩
      exact (holds.inRun other live).congr same slabSize
  · apply (holds.exact.perm (perm_release member)).narrow
    · exact home
    · intro slot slotMember
      simp only [ownerIn, mem_slots, start] at slotMember ⊢
      omega
    · intro other otherMember
      rcases remaining other otherMember with ⟨live, same⟩
      exact (same.run_eq (holds.inRun other live).large).1
    · intro other otherMember
      rcases remaining other otherMember with ⟨live, same⟩
      rcases same.run_eq (holds.inRun other live).large with
        ⟨_, index, run⟩
      simp only [ownerIn, index, run]
    · simp only [ownerIn, start]
      exact atHome
    · exact elsewhere

/-- A block may get any length up to the end of its run. -/
theorem Holds.resize {size : Nat}
    (holds : Holds pool live) (ok : SlabsOk pool)
    (member : block ∈ live) (fits : size ≤ pool.currentOf block) :
    Holds pool (⟨block.ptr, size⟩ :: live.erase block) := by
  have ends := (holds.current ok member).2
  apply holds.keep member rfl rfl (Nat.le_refl _)
  · exact fun _ _ _ => SameBytes.refl _ _ _
  · rfl
  · rfl
  · rw [Finset.sdiff_self, Finset.sdiff_empty]
  · exact fun _ _ => rfl
  · omega

/-- Resizing inside the run changes nothing but the length. -/
theorem outcome_ofResize
    (holds : Holds pool live) (ok : SlabsOk pool)
    (member : block ∈ live)
    (fits : layout.elemSize ≤ pool.currentOf block) :
    SlabOutcome pool live (some block)
      (.ok ⟨block.ptr, layout.elemSize⟩, pool) := by
  have large := (holds.inRun block member).large
  apply Outcome.answered
  · unfold headerSize at large
    dsimp only
    omega
  · exact ⟨ok, holds.resize ok member fits⟩
  · exact fun _ _ _ => SameBytes.refl _ _ _
  · rintro source ⟨rfl⟩ offset inside
    rfl

theorem slabGrow_outcome
    (holds : Holds pool live) (ok : SlabsOk pool)
    (member : block ∈ live)
    (fits : pool.currentOf block < layout.elemSize →
      pool.SumsFit layout) :
    SlabOutcome pool live (some block) (slabGrow pool block layout) := by
  have valid : block.ptr ≠ 0 := by
    have large := (holds.inRun block member).large
    unfold headerSize at large
    omega
  by_cases inPlace : layout.elemSize ≤ pool.currentOf block
  · simp only [slabGrow, valid, inPlace, if_true, if_false]
    exact outcome_ofResize holds ok member inPlace
  · simp only [slabGrow, valid, inPlace, if_false]
    exact slabMove_outcome holds ok member (fits (by omega))

/-- The slots behind the first `need` of a run. -/
theorem slots_sdiff (index : Nat) {count : Nat} (shorter : need ≤ count) :
    slots index count \ slots index need =
      slots (index + need) (count - need) := by
  ext slot
  simp only [Finset.mem_sdiff, mem_slots]
  omega

theorem cut_memory (pool : SlabPool) (block : Slice) (need : Nat) :
    (pool.cut block need).backing.memory =
      storeBytes pool.backing.memory (block.ptr - 8) need 8 := by
  unfold SlabPool.cut
  rfl

theorem cut_slabs (pool : SlabPool) (block : Slice) (need : Nat) :
    (pool.cut block need).slabs =
      (pool.updateSlab (headerSlab pool.backing.memory block.ptr)
        (Slab.give (headerIndex pool.backing.memory block.ptr + need)
          (headerCount pool.backing.memory block.ptr - need))).slabs := by
  unfold SlabPool.cut
  rfl

/-- A cut only writes the slot count in the header of the block. -/
theorem cut_sameBytes {address length : Nat}
    (pool : SlabPool) (need : Nat)
    (apart : Apart (block.ptr - 8) 8 address length) :
    SameBytes pool.backing.memory (pool.cut block need).backing.memory
      address length := by
  rw [cut_memory]
  exact storeBytes_sameBytes _ _ apart

/-- Giving the end of a run back keeps the slabs sound. -/
theorem cut_ok
    (holds : Holds pool live) (ok : SlabsOk pool)
    (member : block ∈ live)
    (shorter : need ≤ headerCount pool.backing.memory block.ptr) :
    SlabsOk (pool.cut block need) ∧
      occupiedIn (pool.cut block need).slabs
          (headerSlab pool.backing.memory block.ptr) =
        occupiedIn pool.slabs
            (headerSlab pool.backing.memory block.ptr) \
          (slots (headerIndex pool.backing.memory block.ptr)
              (headerCount pool.backing.memory block.ptr) \
            slots (headerIndex pool.backing.memory block.ptr) need) := by
  rcases holds.home member with ⟨slab, slabMember, home, inside⟩
  have keeps := Slab.give_shape
    (headerIndex pool.backing.memory block.ptr + need)
    (headerCount pool.backing.memory block.ptr - need)
  have taken := holds.exact.slots_subset member
  simp only [ownerIn, ← home] at taken
  rw [occupiedIn_of_mem ok slabMember] at taken
  have behind := slots_sdiff
    (headerIndex pool.backing.memory block.ptr) shorter
  rcases (ok.each slab slabMember).give
      (behind ▸ Finset.sdiff_subset.trans taken) with ⟨given, indices⟩
  constructor
  · have updated := ok.updateSlab slabMember keeps given
    rw [home] at updated
    unfold SlabPool.cut
    exact updated.withMemory _
  · rw [cut_slabs, ← home, occupiedIn_update_self ok slabMember keeps,
      indices, occupiedIn_of_mem ok slabMember, behind]

/-- Giving the end of a run back shortens the run in the header. -/
theorem outcome_ofCut
    (holds : Holds pool live) (ok : SlabsOk pool)
    (member : block ∈ live)
    (shorter : need < headerCount pool.backing.memory block.ptr)
    (fits : pool.prefixOf block + layout.elemSize ≤
      need * pool.slabSize) :
    SlabOutcome pool live (some block)
      (.ok ⟨block.ptr, layout.elemSize⟩, pool.cut block need) := by
  rcases holds.current ok member with ⟨start, ends⟩
  rcases cut_ok holds ok member shorter.le with ⟨cutOk, atHome⟩
  rcases holds.home member with ⟨slab, slabMember, home, inside⟩
  have large := (holds.inRun block member).large
  have bound := ok.fits slabMember
  have scaled : slab.slabCount ≤ slab.slabCount * pool.slabSize :=
    Nat.le_mul_of_pos_right _ ok.positive
  have split := Nat.add_mul
    (headerIndex pool.backing.memory block.ptr) need pool.slabSize
  have others : ∀ other ∈ live, block ≠ other →
      WithHeader pool.backing.memory
        (pool.cut block need).backing.memory other := by
    intro other otherMember different
    apply cut_sameBytes
    exact (holds.apart_header ok member otherMember different).inside
      (by unfold headerSize at *; omega)
      (by unfold headerSize at *; omega)
      (Nat.le_refl _) (Nat.le_refl _)
  have count : headerCount (pool.cut block need).backing.memory
      block.ptr = need := by
    rw [cut_memory]
    exact loadBytes_storeBytes_of_lt _ _
      (show need < sizeLimit by omega)
  have keeps := Slab.give_shape
    (headerIndex pool.backing.memory block.ptr + need)
    (headerCount pool.backing.memory block.ptr - need)
  unfold headerSize at large
  apply Outcome.answered
  · dsimp only
    omega
  · refine ⟨cutOk, ?_⟩
    apply holds.keep member
    · rw [cut_memory]
      exact loadBytes_storeBytes_of_apart _ _
        (by unfold Apart; omega)
    · rw [cut_memory]
      exact loadBytes_storeBytes_of_apart _ _
        (by unfold Apart; omega)
    · rw [count]
      exact shorter.le
    · exact fun other otherMember different =>
        (others other otherMember different).header
    · rw [cut_slabs]
      exact shapes_update _ keeps
    · unfold SlabPool.cut
      rfl
    · rw [count]
      exact atHome
    · intro addr different
      rw [cut_slabs]
      rw [← home] at different ⊢
      exact occupiedIn_update_of_ne pool different keeps
    · rw [count]
      omega
  · intro other otherMember different
    exact others other otherMember
      fun same => different (congrArg some same)
  · rintro source ⟨rfl⟩ offset within
    have kept : SameBytes pool.backing.memory
        (pool.cut block need).backing.memory block.ptr block.length :=
      cut_sameBytes pool need (by unfold Apart; omega)
    exact kept offset (by omega)

theorem slabShrink_outcome
    (holds : Holds pool live) (ok : SlabsOk pool)
    (member : block ∈ live)
    (fits : pool.currentOf block < layout.elemSize →
      pool.SumsFit layout)
    (keepFits : layout.elemSize ≤ pool.currentOf block →
      pool.prefixOf block + layout.elemSize + pool.slabSize <
        sizeLimit) :
    SlabOutcome pool live (some block) (slabShrink pool block layout) := by
  have valid : block.ptr ≠ 0 := by
    have large := (holds.inRun block member).large
    unfold headerSize at large
    omega
  by_cases inPlace : layout.elemSize ≤ pool.currentOf block
  · have sumFits := keepFits inPlace
    have room : pool.prefixOf block + layout.elemSize ≤
        pool.keepFor block layout * pool.slabSize := by
      unfold SlabPool.keepFor
      rw [sizeAdd_eq (by omega)]
      exact le_divCeil_mul ok.positive sumFits
    by_cases shorter : pool.keepFor block layout <
        headerCount pool.backing.memory block.ptr
    · simp only [slabShrink, valid, inPlace, shorter, if_true, if_false]
      exact outcome_ofCut holds ok member shorter room
    · simp only [slabShrink, valid, inPlace, shorter, if_true, if_false]
      exact outcome_ofResize holds ok member inPlace
  · simp only [slabShrink, valid, inPlace, if_false]
    exact slabMove_outcome holds ok member (fits (by omega))

/-! ## One step -/

theorem free_safe {world : World SlabPool} {mem : Slice}
    (invariant : Invariant world) (member : mem ∈ world.live) :
    Invariant (slabAllocator.step world (.free mem)) ∧
      StepSafe slabAllocator headerSize SamePool world (.free mem) := by
  rcases slabFree_holds invariant.holds invariant.slabs member with
    ⟨ok, holds, backing⟩
  refine ⟨⟨ok, holds⟩, StepSafe.of_free ?_⟩
  intro block blockMember different offset inside
  exact congrFun (congrArg Backing.memory backing) _

theorem write_safe {world : World SlabPool}
    (invariant : Invariant world) (member : block ∈ world.live)
    (content : Memory) :
    Invariant (slabAllocator.step world (.write block content)) ∧
      StepSafe slabAllocator headerSize SamePool world
        (.write block content) := by
  have writes : WritesOnly world.state.backing.memory
      (overwrite world.state.backing.memory block.ptr block.length
        content) block :=
    fun address length apart => overwrite_sameBytes _ _ apart
  have lens : ∀ state memory,
      slabAllocator.memory (slabAllocator.setMemory state memory) =
        memory :=
    fun _ _ => rfl
  have written :=
    invariant.holds.write invariant.slabs member writes
  refine
    ⟨⟨invariant.slabs.withMemory _, written.1⟩,
      StepSafe.of_write lens ?_⟩
  intro other otherMember different
  exact (invariant.holds.apart_header invariant.slabs member otherMember
    different).inside (by omega) (by
      have large := (invariant.holds.inRun block member).large
      omega) (Nat.le_refl _) (Nat.le_refl _)

/-- One permitted call keeps the invariant and is safe for the client. -/
theorem step_safe {world : World SlabPool} {call : Call}
    (invariant : Invariant world) (permitted : Permitted world call) :
    Invariant (slabAllocator.step world call) ∧
      StepSafe slabAllocator headerSize SamePool world call := by
  cases call with
  | alloc layout =>
      apply Outcome.safe rfl
      exact slabAlloc_outcome invariant.holds invariant.slabs permitted.2
  | grow old layout =>
      apply Outcome.safe rfl
      exact
        slabGrow_outcome invariant.holds invariant.slabs permitted.1
          permitted.2.2
  | shrink old layout =>
      apply Outcome.safe rfl
      exact
        slabShrink_outcome invariant.holds invariant.slabs permitted.1
          permitted.2.2.1 permitted.2.2.2
  | free mem => exact free_safe invariant permitted
  | write block content => exact write_safe invariant permitted content

/-! ## The size of the answer -/

section Lengths

variable {pool after : SlabPool} {old block : Slice} {layout : Layout}

theorem slabAlloc_length
    (answer : slabAlloc pool layout = (.ok block, after)) :
    layout.elemSize ≤ block.length := by
  unfold slabAlloc at answer
  split_ifs at answer
  · cases answer
  · cases answer
  · split at answer
    · cases answer
      exact Nat.le_refl _
    · split at answer <;> cases answer
      exact Nat.le_refl _

theorem slabMove_length
    (answer : slabMove pool old layout = (.ok block, after)) :
    layout.elemSize ≤ block.length := by
  unfold slabMove at answer
  split at answer
  · cases answer
  · rename_i placed
    cases answer
    exact slabAlloc_length placed

/-- A successful call returns at least as many bytes as were asked for. -/
theorem respond_length {call : Call}
    (asks : requested call = some layout)
    (responds : slabAllocator.respond pool call = some (.ok block, after)) :
    layout.elemSize ≤ block.length := by
  cases call with
  | alloc other =>
      cases asks
      exact slabAlloc_length (Option.some.inj responds)
  | grow old other =>
      cases asks
      have answer : slabGrow pool old layout = (.ok block, after) :=
        Option.some.inj responds
      unfold slabGrow at answer
      split_ifs at answer
      · exact slabAlloc_length answer
      · cases answer
        exact le_refl _
      · exact slabMove_length answer
  | shrink old other =>
      cases asks
      have answer : slabShrink pool old layout = (.ok block, after) :=
        Option.some.inj responds
      unfold slabShrink at answer
      dsimp only at answer
      split_ifs at answer
      · cases answer
      · cases answer
        exact le_refl _
      · cases answer
        exact le_refl _
      · exact slabMove_length answer
  | free mem => cases asks
  | write block content => cases asks

end Lengths

theorem respond_outcome {world : World SlabPool} {call : Call}
    (invariant : Invariant world) (permitted : Permitted world call)
    {result : Except IoError Slice × SlabPool}
    (responds : slabAllocator.respond world.state call = some result) :
    SlabOutcome world.state world.live call.target result := by
  rcases invariant with ⟨ok, holds⟩
  cases call with
  | alloc layout =>
      rw [← Option.some.inj responds]
      exact slabAlloc_outcome holds ok permitted.2
  | grow old layout =>
      rw [← Option.some.inj responds]
      exact slabGrow_outcome holds ok permitted.1 permitted.2.2
  | shrink old layout =>
      rw [← Option.some.inj responds]
      exact slabShrink_outcome holds ok permitted.1 permitted.2.2.1
        permitted.2.2.2
  | free mem => cases responds
  | write block content => cases responds

/-- One permitted call serves the client. -/
theorem step_serves {world : World SlabPool} {call : Call}
    (invariant : Invariant world) (permitted : Permitted world call) :
    Serves slabAllocator world call :=
  (step_safe invariant permitted).2.serves
    (fun _ _ _ asks responds => respond_length asks responds)
    fun _ _ responds =>
      ptr_ne_of_outcome (respond_outcome invariant permitted responds)

/-! ## Runs -/

/-- The states of all runs over one behaviour of the backing allocator. -/
abbrev Reached (backing : Backing) (slabSize : Nat) :
    World SlabPool → Prop :=
  Reachable (· = slabCreate backing slabSize) Permitted
    slabAllocator.step

/-- What a client can rely on in a state. -/
structure Safe (world : World SlabPool) : Prop where
  /-- The counter of a slab is the number of its clear bits. -/
  counted : ∀ slab ∈ world.state.slabs,
    slab.used.bitCount = slab.slabCount ∧
      slab.freeCount = slab.used.clearCount
  /-- The set bits of a slab are the slots of its live blocks. -/
  exact : ∀ slab ∈ world.state.slabs, ∀ slot,
    slab.used.get slot = true ↔
      ∃ block ∈ world.live,
        headerSlab world.state.backing.memory block.ptr = slab.addr ∧
        slot ∈ slots (headerIndex world.state.backing.memory block.ptr)
          (headerCount world.state.backing.memory block.ptr)
  /-- The runs of the live blocks are disjoint. -/
  runs : world.live.Pairwise fun left right =>
    headerSlab world.state.backing.memory left.ptr =
        headerSlab world.state.backing.memory right.ptr →
      Disjoint
        (slots (headerIndex world.state.backing.memory left.ptr)
          (headerCount world.state.backing.memory left.ptr))
        (slots (headerIndex world.state.backing.memory right.ptr)
          (headerCount world.state.backing.memory right.ptr))
  /-- The run of a live block is part of its slab. -/
  homed : ∀ block ∈ world.live, ∃ slab ∈ world.state.slabs,
    slab.addr = headerSlab world.state.backing.memory block.ptr ∧
      headerIndex world.state.backing.memory block.ptr +
          headerCount world.state.backing.memory block.ptr ≤
        slab.slabCount
  /-- A live block and its header lie in the run of the block. -/
  inRun : ∀ block ∈ world.live, InRun world.state block
  /-- No two live blocks overlap. -/
  disjoint : Client.Disjoint world.live
  /-- Without live blocks all slots are free. -/
  vacant : world.live = [] → ∀ slab ∈ world.state.slabs,
    slab.freeCount = slab.slabCount ∧
      ∀ slot, slab.used.get slot = false

theorem Invariant.safe {world : World SlabPool}
    (invariant : Invariant world) : Safe world := by
  rcases invariant with ⟨ok, holds⟩
  constructor
  · intro slab member
    exact
      ⟨(ok.each slab member).bitCount, (ok.each slab member).freeCount⟩
  · intro slab member slot
    rw [← Bits.mem_indices, ← occupiedIn_of_mem ok member,
      holds.exact.mem_iff]
    rfl
  · exact holds.exact.apart
  · exact fun block member => holds.home member
  · exact holds.inRun
  · refine holds.nodup.imp_of_mem ?_
    intro left right leftMember rightMember different
    have leftLarge := (holds.inRun left leftMember).large
    have rightLarge := (holds.inRun right rightMember).large
    exact (holds.apart_header ok leftMember rightMember different).inside
      (by omega) (by omega) (by omega) (by omega)
  · intro none slab member
    rw [none] at holds
    have empty := holds.exact.vacant slab.addr
    rw [occupiedIn_of_mem ok member] at empty
    constructor
    · have total := (ok.each slab member).freeCount_add_card
      rw [empty, Finset.card_empty] at total
      exact total
    · intro slot
      by_contra set
      have inside : slot ∈ slab.used.indices := by
        rw [Bits.mem_indices]
        simpa using set
      rw [empty] at inside
      exact Finset.notMem_empty _ inside

theorem create_invariant (backing : Backing) (slabSize : Nat) :
    Invariant (slabCreate backing slabSize) where
  slabs :=
    { positive := by
        simp only [slabCreate]
        split_ifs with zero
        · decide
        · omega
      hosted := Hosted.nil _
      each := by simp [slabCreate] }
  holds :=
    { inSlab := by simp [slabCreate]
      inRun := by simp [slabCreate]
      exact := Exact.nil _ fun _ => rfl }

theorem reached_invariant
    {backing : Backing} {slabSize : Nat} {world : World SlabPool}
    (reached : Reached backing slabSize world) : Invariant world := by
  have initially : ∀ start,
      start = slabCreate backing slabSize → Invariant start := by
    rintro start rfl
    exact create_invariant backing slabSize
  exact reached.invariant Invariant initially
    fun _ _ holds permitted => (step_safe holds permitted).1

/--
In every run, over every behaviour of the backing allocator, the bitmaps and
the counters of the slabs describe exactly the runs of the live blocks.
Every permitted call in a reached state leaves the bytes and the headers of
the other live blocks alone, carries the common prefix of a resized block
over, returns a block of the size that was asked for, and changes nothing if
it fails; an allocated block has the alignment that was asked for.
-/
theorem slab_run_safe
    (backing : Backing) (slabSize : Nat)
    (world : World SlabPool) (reached : Reached backing slabSize world) :
    Safe world ∧
      (∀ call, Permitted world call →
        StepSafe slabAllocator headerSize SamePool world call ∧
          Serves slabAllocator world call) ∧
      ∀ layout block after, Permitted world (.alloc layout) →
        slabAlloc world.state layout = (.ok block, after) →
          requestAlign layout ∣ block.ptr := by
  have invariant := reached_invariant reached
  refine
    ⟨invariant.safe,
      fun call permitted =>
        ⟨(step_safe invariant permitted).2,
          step_serves invariant permitted⟩, ?_⟩
  intro layout block after permitted answer
  exact slabAlloc_aligned invariant.holds invariant.slabs permitted.2
    permitted.1 answer

/-- A backing allocator with room for one slab and its bitmap. -/
def oneSlab : Backing :=
  ⟨[], fun _ => 0,
    [.ok ⟨4096, 4176, fun _ => 0⟩, .ok ⟨16384, 8, fun _ => 0⟩], []⟩

/-- A run that allocates two blocks from one slab of 64 slots. -/
def twoBlocks : World SlabPool :=
  slabAllocator.step
    (slabAllocator.step (slabCreate oneSlab 64) (.alloc ⟨16, 8⟩))
    (.alloc ⟨100, 1⟩)

theorem twoBlocks_reached : Reached oneSlab 64 twoBlocks := by
  unfold twoBlocks
  refine Reachable.step (Reachable.step (Reachable.start rfl) ?_) ?_
  · refine ⟨⟨3, by decide⟩, ?_⟩
    intro nonempty small
    exact ⟨by decide, by decide⟩
  · refine ⟨⟨0, by decide⟩, ?_⟩
    intro nonempty small
    exact ⟨by decide, by decide +kernel⟩

theorem slab_run_safe_twoBlocks :
    Safe twoBlocks ∧
      (∀ call, Permitted twoBlocks call →
        StepSafe slabAllocator headerSize SamePool twoBlocks call ∧
          Serves slabAllocator twoBlocks call) ∧
      ∀ layout block after, Permitted twoBlocks (.alloc layout) →
        slabAlloc twoBlocks.state layout = (.ok block, after) →
          requestAlign layout ∣ block.ptr :=
  slab_run_safe oneSlab 64 twoBlocks twoBlocks_reached

example : (slabAlloc twoBlocks.state ⟨16, 8⟩).1 = .ok ⟨4392, 16⟩ := by
  decide +kernel

end Libcute.Memory.SlabAllocator
