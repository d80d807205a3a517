import Libcute.Memory.ArenaAllocator
import Libcute.Memory.CAllocator.Resizes
import Libcute.Memory.FixedAllocator
import Libcute.Memory.SlabAllocator

/-!
# Blocks lie in what they are carved from

The arena, the fixed and the slab allocator compare a sum of the request with
what they have, and the C allocator asks `malloc` for such a sum.  As long as
no sum wraps, a block lies inside its chunk, the buffer, its run of slots, or
the block of the C library, in every run and in exact arithmetic.  A sum that
wraps is small, passes the comparison, and the block reaches far beyond.

For the fixed allocator and the C allocator, which compute one sum, the
condition is also necessary.
-/

namespace Libcute.Memory

open Libcute.Core.Interface
open Libcute.Core.Size
open Libcute.Library
open Libcute.Library.ByteMemory
open Libcute.Memory.BackingAllocator
open Libcute.Memory.Client

/-! ## Chunks -/

namespace ArenaAllocator

/--
The block lies in the chunk its header names, and the chunk in a block of
the backing allocator.
-/
def Arena.Contains (arena : Arena) (mem : Slice) : Prop :=
  ∃ chunk ∈ arena.chunks, ∃ block ∈ arena.backing.blocks,
    chunk.addr = arena.homeOf mem.ptr ∧
      dataOf chunk.addr ≤ mem.ptr ∧
      mem.finish ≤ dataOf chunk.addr + chunk.size ∧
      block.ptr = chunk.addr ∧
      dataOf chunk.addr + chunk.size ≤ block.finish

variable {arena after : Arena} {live : List Slice} {world : World Arena}
  {layout : Layout} {mem : Slice}

theorem Holds.contains
    (holds : Holds arena live) (ok : ChunksOk arena)
    (member : mem ∈ live) : arena.Contains mem := by
  rcases holds.extent ok member with ⟨chunk, chunkMember, home, low, top⟩
  rcases ok.owned chunk chunkMember with ⟨block, blockMember, start, large⟩
  have used := ok.used_le chunk chunkMember
  refine ⟨chunk, chunkMember, block, blockMember, home, by omega, by omega,
    start, ?_⟩
  unfold Slice.finish dataOf
  unfold Chunk.extent at large
  omega

/-- A block that is allocated lies in a chunk, unless a sum wraps. -/
theorem arenaAlloc_contained
    (invariant : Invariant world) (fits : world.state.SumsFit layout)
    (answer : arenaAlloc world.state layout = (.ok mem, after)) :
    after.Contains mem := by
  have valid : mem.ptr ≠ 0 := by
    rcases arenaAlloc_cases invariant.chunks fits with
      ⟨error, other, failed, _⟩ | ⟨target, chunk, _, _, _, _, _, _, placed⟩
    · rw [failed] at answer
      cases answer
    · rw [placed] at answer
      cases answer
      unfold dataOf chunkHeaderSize
      dsimp only
      omega
  have kept := (@step_safe world (.alloc layout) invariant fits).1
  rw [Allocator.step_alloc answer valid] at kept
  exact kept.holds.contains kept.chunks List.mem_cons_self

end ArenaAllocator

/-! ## Runs of slots -/

namespace SlabAllocator

/--
The block lies in the run of slots its header names, the run in its slab,
and the slab in a block of the backing allocator.
-/
def SlabPool.Contains (pool : SlabPool) (mem : Slice) : Prop :=
  ∃ slab ∈ pool.slabs, ∃ block ∈ pool.backing.blocks,
    let index := headerIndex pool.backing.memory mem.ptr
    let count := headerCount pool.backing.memory mem.ptr
    slab.addr = headerSlab pool.backing.memory mem.ptr ∧
      slabData slab.addr + index * pool.slabSize ≤ mem.ptr ∧
      mem.finish ≤ slabData slab.addr + (index + count) * pool.slabSize ∧
      index + count ≤ slab.slabCount ∧
      block.ptr = slab.addr ∧
      slabData slab.addr + slab.slabCount * pool.slabSize ≤ block.finish

variable {pool after : SlabPool} {live : List Slice}
  {world : World SlabPool} {layout : Layout} {mem : Slice}

theorem Holds.contains
    (holds : Holds pool live) (ok : SlabsOk pool)
    (member : mem ∈ live) : pool.Contains mem := by
  rcases holds.home member with ⟨slab, slabMember, home, inside⟩
  rcases holds.inRun mem member with ⟨low, high⟩
  rcases ok.hosted.owned _ (SlabPool.region_mem slabMember) with
    ⟨block, blockMember, start, large⟩
  rw [← home] at low high
  refine ⟨slab, slabMember, block, blockMember, home, by omega, high,
    inside, start, ?_⟩
  have same : block.ptr = slab.addr := start
  have enough : slabHeaderSize + slab.slabCount * pool.slabSize ≤
      block.length := large
  unfold Slice.finish slabData
  omega

/-- A block that is allocated lies in its run, unless a sum wraps. -/
theorem slabAlloc_contained
    (invariant : Invariant world) (power : PowerOfTwo layout)
    (fits : world.state.SumsFit layout)
    (answer : slabAlloc world.state layout = (.ok mem, after)) :
    after.Contains mem := by
  have valid : mem.ptr ≠ 0 := by
    rcases slabAlloc_cases invariant.holds invariant.slabs fits with
      ⟨error, other, failed, _⟩ | ⟨target, slab, index, _, _, _, _, placed⟩
    · rw [failed] at answer
      cases answer
    · rw [placed] at answer
      cases answer
      unfold SlabPool.userAddr slabData slabHeaderSize
      dsimp only
      omega
  have kept :=
    (@step_safe world (.alloc layout) invariant ⟨power, fits⟩).1
  rw [Allocator.step_alloc answer valid] at kept
  exact kept.holds.contains kept.slabs List.mem_cons_self

end SlabAllocator

/-! ## The buffer -/

namespace FixedAllocator

/-- A block that is allocated lies in the buffer. -/
def Fixed.Contained (fixed : Fixed) (layout : Layout) : Prop :=
  ∀ mem after, fixedAlloc fixed layout = (.ok mem, after) →
    fixed.buffer.ptr ≤ mem.ptr ∧ mem.finish ≤ fixed.buffer.finish

/-- The sum that is compared does not wrap, or it is too large even so. -/
def Fixed.Compares (fixed : Fixed) (layout : Layout) : Prop :=
  fixed.startFor layout + layout.elemSize < sizeLimit ∨
    fixed.buffer.length < sizeAdd (fixed.startFor layout) layout.elemSize

variable {fixed : Fixed} {layout : Layout}

theorem startFor_lt (fixed : Fixed) (layout : Layout) :
    fixed.startFor layout < sizeLimit := by
  unfold Fixed.startFor alignUp
  exact lt_of_le_of_lt Nat.and_le_left (Nat.mod_lt _ (by decide))

/-- In every state the sum decides where a block lies. -/
theorem fixedAlloc_contained_iff
    (fits : fixed.buffer.length < sizeLimit) :
    fixed.Contained layout ↔ fixed.Compares layout := by
  have start := startFor_lt fixed layout
  unfold Fixed.Contained Fixed.Compares fixedAlloc
  by_cases empty : layout.elemSize = 0
  · rw [if_pos empty, empty, Nat.add_zero]
    exact iff_of_true nofun (Or.inl start)
  rw [if_neg empty]
  dsimp only
  by_cases full : sizeAdd (fixed.startFor layout) layout.elemSize >
      fixed.buffer.length
  · rw [if_pos full]
    exact iff_of_true nofun (Or.inr full)
  · rw [if_neg full]
    constructor
    · intro contained
      have high := (contained _ _ rfl).2
      unfold Slice.finish at high
      dsimp only at high
      exact Or.inl (by omega)
    · rintro (fitting | larger)
      · rintro mem after ⟨rfl⟩
        rw [sizeAdd_eq fitting] at full
        unfold Slice.finish
        dsimp only
        omega
      · exact (full larger).elim

end FixedAllocator

/-! ## The block of the C library -/

namespace CAllocator

/--
The call has a result, and a block that it returns lies in the block of the
C library.
-/
def Contained
    (memory : Memory) (live : CBlock) (layout : Layout)
    (malloc : Option Given) : Prop :=
  ∃ answer block after,
    alloc memory live layout malloc = some (answer, block, after) ∧
      ∀ mem, answer = .ok mem →
        block.ptr ≤ mem.ptr ∧ mem.finish ≤ block.finish

/-- The size that is passed to `malloc` does not wrap. -/
def TotalFits (layout : Layout) : Prop :=
  layout.elemSize + (usedAlignment layout - 1) + pointerSize < sizeLimit

variable {memory : Memory} {live : CBlock} {layout : Layout} {given : Given}

/-- A total that wraps is smaller than the size. -/
theorem totalSize_lt
    (size : layout.elemSize < sizeLimit)
    (alignment : layout.alignment ≤ 2 ^ 63)
    (wraps : ¬ TotalFits layout) : totalSize layout < layout.elemSize := by
  have used : usedAlignment layout ≤ 2 ^ 63 ∧
      pointerSize ≤ usedAlignment layout := by
    refine ⟨?_, (usedAlignment_bounds layout).1⟩
    unfold usedAlignment pointerSize
    split_ifs <;> omega
  unfold TotalFits at wraps
  unfold totalSize sizeAdd sizeSub
  unfold pointerSize sizeLimit at *
  omega

/-- With a block of the C library the sum decides where a block lies. -/
theorem alloc_given_iff
    (filled : layout.elemSize ≠ 0) (size : layout.elemSize < sizeLimit)
    (alignment : layout.alignment ≤ 2 ^ 63)
    (space : given.ptr + totalSize layout < sizeLimit) :
    Contained memory live layout (some given) ↔ TotalFits layout := by
  rcases given with ⟨raw, junk⟩
  dsimp only at space
  unfold Contained
  rw [alloc_given filled rfl rfl]
  unfold place
  constructor
  · rintro ⟨answer, block, after, result, inside⟩
    by_contra wraps
    have small := totalSize_lt size alignment wraps
    rcases Option.map_eq_some_iff.mp result with ⟨stored, _, same⟩
    cases same
    have bounds := inside _ rfl
    unfold Slice.finish at bounds
    dsimp only at bounds
    omega
  · intro fits
    rcases hasRoom_of_fits fits space with ⟨slot, room⟩
    rw [storePointer_inside slot]
    refine ⟨_, _, _, rfl, ?_⟩
    rintro mem ⟨rfl⟩
    have low := slot.1
    have high := room.resolve_left filled
    unfold Slice.finish
    dsimp only
    omega

/-- The C allocator contains its blocks unless the total wraps. -/
theorem alloc_contained_iff {malloc : Option Given}
    (size : layout.elemSize < sizeLimit)
    (alignment : layout.alignment ≤ 2 ^ 63)
    (standard : ∀ given, malloc = some given →
      given.ptr + totalSize layout < sizeLimit) :
    Contained memory live layout malloc ↔
      layout.elemSize = 0 ∨ malloc = none ∨ TotalFits layout := by
  by_cases empty : layout.elemSize = 0
  · refine iff_of_true ⟨.error .invalidInput, live, memory, ?_, nofun⟩
      (Or.inl empty)
    exact if_pos empty
  cases malloc with
  | none =>
      refine iff_of_true ⟨.error .outOfMemory, live, memory, ?_, nofun⟩
        (Or.inr (Or.inl rfl))
      exact if_neg empty
  | some given =>
      rw [alloc_given_iff empty size alignment (standard given rfl)]
      exact ⟨fun fits => Or.inr (Or.inr fits),
        fun either => (either.resolve_left empty).resolve_left nofun⟩

end CAllocator

/-! ## All allocators -/

/--
In every run a block of the arena or the slab allocator lies in its chunk or
its run of slots, if no sum of the request wraps.  In every state a block of
the fixed allocator lies in the buffer exactly if the sum that is compared
does not wrap to a small one, and a block of the C allocator lies in the
block of the C library exactly if the total does not wrap.
-/
theorem alloc_contained (layout : Layout)
    (size : layout.elemSize < sizeLimit)
    (powerOfTwo : ∃ exponent < 64, layout.alignment = 2 ^ exponent) :
    (∀ backing chunkSize world mem after,
      ArenaAllocator.Reached backing chunkSize world →
      world.state.SumsFit layout →
      ArenaAllocator.arenaAlloc world.state layout = (.ok mem, after) →
        after.Contains mem) ∧
    (∀ fixed : FixedAllocator.Fixed, fixed.buffer.length < sizeLimit →
      (fixed.Contained layout ↔ fixed.Compares layout)) ∧
    (∀ backing slabSize world mem after,
      SlabAllocator.Reached backing slabSize world →
      world.state.SumsFit layout →
      SlabAllocator.slabAlloc world.state layout = (.ok mem, after) →
        after.Contains mem) ∧
    ∀ memory live malloc,
      (∀ given : CAllocator.Given, malloc = some given →
        given.ptr + CAllocator.totalSize layout < sizeLimit) →
        (CAllocator.Contained memory live layout malloc ↔
          layout.elemSize = 0 ∨ malloc = none ∨
            CAllocator.TotalFits layout) := by
  rcases powerOfTwo with ⟨exponent, bounded, alignment⟩
  refine ⟨?_, ?_, ?_, ?_⟩
  · intro backing chunkSize world mem after reached fits answer
    exact ArenaAllocator.arenaAlloc_contained
      (ArenaAllocator.reached_invariant reached) fits answer
  · intro fixed fits
    exact FixedAllocator.fixedAlloc_contained_iff fits
  · intro backing slabSize world mem after reached fits answer
    have nonzero : layout.alignment ≠ 0 := by
      rw [alignment]
      exact (Nat.two_pow_pos exponent).ne'
    exact SlabAllocator.slabAlloc_contained
      (SlabAllocator.reached_invariant reached)
      ⟨exponent, (if_neg nonzero).trans alignment⟩ fits answer
  · intro memory live malloc standard
    have small : layout.alignment ≤ 2 ^ 63 := by
      rw [alignment]
      exact Nat.pow_le_pow_right (by decide) (Nat.le_of_lt_succ bounded)
    exact CAllocator.alloc_contained_iff size small standard

/-- An arena that has one chunk to obtain. -/
def emptyArena : World ArenaAllocator.Arena :=
  ArenaAllocator.arenaCreate ArenaAllocator.oneChunk 64

/-- A buffer of 64 bytes. -/
def emptyBuffer : FixedAllocator.Fixed :=
  (FixedAllocator.fixedCreate ⟨4096, 64⟩ fun _ => 0).state

/-- A pool that has one slab to obtain. -/
def emptyPool : World SlabAllocator.SlabPool :=
  SlabAllocator.slabCreate SlabAllocator.oneSlab 64

/-- The first block of each allocator. -/
theorem alloc_contained_first :
    (ArenaAllocator.arenaAlloc emptyArena.state ⟨16, 8⟩).2.Contains
        ⟨4136, 16⟩ ∧
      emptyBuffer.Contained ⟨16, 8⟩ ∧
      (SlabAllocator.slabAlloc emptyPool.state ⟨16, 8⟩).2.Contains
        ⟨4200, 16⟩ ∧
      CAllocator.Contained (fun _ => 0) ⟨0, 0⟩ ⟨16, 8⟩
        (some ⟨4096, fun _ => 0⟩) := by
  rcases alloc_contained ⟨16, 8⟩ (by decide) ⟨3, by decide, rfl⟩ with
    ⟨arena, fixed, slab, library⟩
  refine ⟨?_, ?_, ?_, ?_⟩
  · apply arena ArenaAllocator.oneChunk 64 emptyArena ⟨4136, 16⟩ _
      (Transition.Reachable.start rfl)
    · intro nonempty
      exact ⟨by decide, by decide, nofun⟩
    · exact Prod.ext (by decide +kernel) rfl
  · exact (fixed emptyBuffer (by decide)).mpr (Or.inl (by decide))
  · apply slab SlabAllocator.oneSlab 64 emptyPool ⟨4200, 16⟩ _
      (Transition.Reachable.start rfl)
    · intro nonempty small
      exact ⟨by decide, by decide⟩
    · exact Prod.ext (by decide +kernel) rfl
  · apply (library (fun _ => 0) ⟨0, 0⟩ (some ⟨4096, fun _ => 0⟩) ?_).mpr
    · unfold CAllocator.TotalFits
      decide
    · rintro given ⟨rfl⟩
      decide

/--
A first request of almost `2 ^ 64` bytes.  Each allocator serves it from 64
bytes, from one slab, or from 14 bytes of the C library.
-/
theorem not_contained_huge :
    ((ArenaAllocator.arenaAlloc emptyArena.state ⟨2 ^ 64 - 16, 1⟩).1 =
        .ok ⟨4136, 2 ^ 64 - 16⟩ ∧
      ¬ (ArenaAllocator.arenaAlloc emptyArena.state
        ⟨2 ^ 64 - 16, 1⟩).2.Contains ⟨4136, 2 ^ 64 - 16⟩) ∧
    ¬ emptyBuffer.Contained ⟨2 ^ 64 - 8, 1⟩ ∧
    ((SlabAllocator.slabAlloc emptyPool.state ⟨2 ^ 64 - 24, 1⟩).1 =
        .ok ⟨4200, 2 ^ 64 - 24⟩ ∧
      ¬ (SlabAllocator.slabAlloc emptyPool.state
        ⟨2 ^ 64 - 24, 1⟩).2.Contains ⟨4200, 2 ^ 64 - 24⟩) ∧
    ¬ CAllocator.Contained (fun _ => 0) ⟨0, 0⟩ ⟨2 ^ 64 - 1, 1⟩
      (some ⟨4096, fun _ => 0⟩) := by
  refine ⟨⟨by decide +kernel, ?_⟩, ?_, ⟨by decide +kernel, ?_⟩, ?_⟩
  · have chunks : (ArenaAllocator.arenaAlloc emptyArena.state
        ⟨2 ^ 64 - 16, 1⟩).2.chunks = [⟨4096, 64, 0⟩] := by
      decide +kernel
    rintro ⟨chunk, member, block, _, _, _, high, _⟩
    rw [chunks, List.mem_singleton] at member
    rw [member] at high
    revert high
    decide
  · rw [FixedAllocator.fixedAlloc_contained_iff (by decide)]
    unfold FixedAllocator.Fixed.Compares
    decide
  · have shapes : (SlabAllocator.slabAlloc emptyPool.state
        ⟨2 ^ 64 - 24, 1⟩).2.slabs.map SlabAllocator.Slab.shape =
        [(4096, 64)] := by
      decide +kernel
    have unit : (SlabAllocator.slabAlloc emptyPool.state
        ⟨2 ^ 64 - 24, 1⟩).2.slabSize = 64 := by
      decide +kernel
    rintro ⟨slab, member, block, _, _, _, high, inside, _⟩
    dsimp only at high inside
    have shape := List.mem_map_of_mem (f := SlabAllocator.Slab.shape) member
    rw [shapes, List.mem_singleton] at shape
    simp only [SlabAllocator.Slab.shape, Prod.mk.injEq] at shape
    have scaled := Nat.mul_le_mul_right 64 inside
    rw [unit, shape.1] at high
    rw [shape.2] at scaled
    unfold Slice.finish SlabAllocator.slabData
      SlabAllocator.slabHeaderSize at high
    dsimp only at high
    omega
  · rw [CAllocator.alloc_given_iff (by decide) (by decide) (by decide)
      (by decide)]
    unfold CAllocator.TotalFits
    decide

end Libcute.Memory
