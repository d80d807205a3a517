import Libcute.Memory.ArenaAllocator
import Libcute.Memory.FixedAllocator
import Mathlib.Tactic.IntervalCases

/-!
# Alignment of the bump allocators

Both bump allocators round up an offset that is counted from the start of
their data, not an address.  What this means for the address depends on where
the data starts: behind the 24 bytes of a chunk structure, or at the address
of the buffer.  The results hold in every state and for every size, also for
one whose sums wrap, because a power of two divides `2 ^ 64`.
-/

namespace Libcute.Memory

open Libcute.Core.Interface
open Libcute.Core.Size
open Libcute.Library.ByteMemory
open Libcute.Memory.Client

namespace ArenaAllocator

open Libcute.Memory.BackingAllocator

variable {arena : Arena} {chunk : Chunk} {layout : Layout} {mem : Slice}

theorem startFor_dvd
    {exponent : Nat} (chunk : Chunk)
    (alignment : layout.alignment = 2 ^ exponent)
    (bounded : exponent < 64) :
    layout.alignment ∣ chunk.startFor layout := by
  have nonzero : layout.alignment ≠ 0 := by
    rw [alignment]
    exact (Nat.two_pow_pos exponent).ne'
  have requested : requestAlign layout = 2 ^ exponent :=
    (if_neg nonzero).trans alignment
  unfold Chunk.startFor
  rw [requested, alignment]
  exact alignUp_dvd_of_wrap _ bounded

/-- A block that is handed out lies in the chunk its header names. -/
theorem arenaAlloc_served
    (addresses : ∀ chunk ∈ arena.chunks, chunk.addr < sizeLimit)
    (served : (arenaAlloc arena layout).1 = .ok mem) :
    ∃ chunk : Chunk,
      (arenaAlloc arena layout).2.homeOf mem.ptr = chunk.addr ∧
        mem.ptr = dataOf chunk.addr + chunk.startFor layout := by
  revert served
  unfold arenaAlloc
  by_cases empty : layout.elemSize = 0
  · simp [empty]
  rw [if_neg empty]
  dsimp only
  cases found : arena.chunks.find? fun chunk =>
      sizeAdd (chunk.startFor layout) layout.elemSize ≤ chunk.size with
  | some chunk =>
      rintro ⟨rfl⟩
      have member := List.mem_of_find?_eq_some found
      exact ⟨chunk, place_homeOf arena (addresses chunk member) _ _, rfl⟩
  | none =>
      unfold arenaCreateChunk
      rcases arena.backing.alloc_cases
          (Layout.create
            (sizeAdd chunkHeaderSize (arena.newChunkSize layout)) maxAlign)
        with
        ⟨error, after, answer, blocks, memory⟩ |
        ⟨block, after, answer, valid, large, bounded, separate, blocks, kept⟩
      · simp [answer]
      · simp only [answer]
        rintro ⟨rfl⟩
        exact
          ⟨⟨block.ptr, arena.newChunkSize layout, 0⟩,
            @place_homeOf ⟨block.ptr, arena.newChunkSize layout, 0⟩ _
              (lt_of_le_of_lt (Nat.le_add_right _ _) bounded) _ _,
            rfl⟩

/--
Behind a chunk structure at a multiple of 16 the data starts at an odd
multiple of 8.
-/
theorem dvd_dataOf_iff
    {addr start exponent : Nat}
    (based : maxAlign ∣ addr) (small : exponent ≤ 4)
    (aligned : 2 ^ exponent ∣ start) :
    2 ^ exponent ∣ dataOf addr + start ↔ 2 ^ exponent ≤ 8 := by
  have divides : 2 ^ exponent ∣ maxAlign :=
    @Nat.pow_dvd_pow exponent 4 2 small
  have header : 2 ^ exponent ∣ chunkHeaderSize ↔ 2 ^ exponent ≤ 8 := by
    unfold chunkHeaderSize
    interval_cases exponent <;> decide
  unfold dataOf
  rw [Nat.dvd_add_left aligned, ← header]
  exact Nat.dvd_add_right (divides.trans based)

/--
In a chunk at a multiple of 16, a request for an alignment of at most 16 is
aligned exactly up to 8.
-/
theorem arenaAlloc_aligned_iff
    {exponent : Nat}
    (addresses : ∀ chunk ∈ arena.chunks, chunk.addr < sizeLimit)
    (alignment : layout.alignment = 2 ^ exponent) (small : exponent ≤ 4)
    (served : (arenaAlloc arena layout).1 = .ok mem)
    (based : maxAlign ∣ (arenaAlloc arena layout).2.homeOf mem.ptr) :
    layout.alignment ∣ mem.ptr ↔ layout.alignment ≤ 8 := by
  rcases arenaAlloc_served addresses served with ⟨chunk, home, address⟩
  have start := startFor_dvd chunk alignment (by omega)
  rw [home] at based
  rw [alignment] at start
  rw [address, alignment]
  exact dvd_dataOf_iff based small start

end ArenaAllocator

namespace FixedAllocator

variable {fixed : Fixed} {layout : Layout} {mem : Slice}

theorem startFor_dvd
    {exponent : Nat} (fixed : Fixed)
    (alignment : layout.alignment = 2 ^ exponent)
    (bounded : exponent < 64) :
    layout.alignment ∣ fixed.startFor layout := by
  have nonzero : layout.alignment ≠ 0 := by
    rw [alignment]
    exact (Nat.two_pow_pos exponent).ne'
  have requested : requestAlign layout = 2 ^ max exponent 3 := by
    unfold requestAlign
    rw [if_neg nonzero, alignment]
    have powers : max (2 ^ exponent) (2 ^ 3) = 2 ^ max exponent 3 :=
      (pow_right_mono₀ (show 1 ≤ 2 by decide)).map_max.symm
    exact powers
  unfold Fixed.startFor
  rw [requested, alignment]
  exact (Nat.pow_dvd_pow 2 (Nat.le_max_left exponent 3)).trans
    (alignUp_dvd_of_wrap _ (by omega))

/-- A block is aligned exactly if the buffer is. -/
theorem fixedAlloc_aligned_iff
    {exponent : Nat}
    (alignment : layout.alignment = 2 ^ exponent)
    (bounded : exponent < 64)
    (served : (fixedAlloc fixed layout).1 = .ok mem) :
    layout.alignment ∣ mem.ptr ↔ layout.alignment ∣ fixed.buffer.ptr := by
  have address : mem.ptr = fixed.buffer.ptr + fixed.startFor layout := by
    revert served
    unfold fixedAlloc
    dsimp only
    split_ifs
    · rintro ⟨⟩
    · rintro ⟨⟩
    · rintro ⟨rfl⟩
      rfl
  rw [address]
  exact (Nat.dvd_add_iff_left (startFor_dvd fixed alignment bounded)).symm

end FixedAllocator

/--
A block of an arena whose chunk lies at a multiple of 16 has an alignment of
at most 16 exactly if it is at most 8, and a block of a fixed allocator has
its alignment exactly if the buffer has it.
-/
theorem bump_aligned_iff
    (layout : Layout) (mem : Slice) (exponent : Nat)
    (alignment : layout.alignment = 2 ^ exponent) :
    (∀ arena : ArenaAllocator.Arena,
      (∀ chunk ∈ arena.chunks, chunk.addr < sizeLimit) → exponent ≤ 4 →
      (ArenaAllocator.arenaAlloc arena layout).1 = .ok mem →
      ArenaAllocator.maxAlign ∣
          (ArenaAllocator.arenaAlloc arena layout).2.homeOf mem.ptr →
        (layout.alignment ∣ mem.ptr ↔ layout.alignment ≤ 8)) ∧
      ∀ fixed : FixedAllocator.Fixed, exponent < 64 →
        (FixedAllocator.fixedAlloc fixed layout).1 = .ok mem →
          (layout.alignment ∣ mem.ptr ↔
            layout.alignment ∣ fixed.buffer.ptr) :=
  ⟨fun _ addresses small served based =>
      ArenaAllocator.arenaAlloc_aligned_iff addresses alignment small served
        based,
    fun _ bounded served =>
      FixedAllocator.fixedAlloc_aligned_iff alignment bounded served⟩

/-- An arena that has not obtained its one chunk, at address 4096, yet. -/
def freshArena : ArenaAllocator.Arena :=
  (ArenaAllocator.arenaCreate ArenaAllocator.oneChunk 64).state

/-- A buffer at an odd multiple of 8. -/
def oddBuffer : FixedAllocator.Fixed :=
  (FixedAllocator.fixedCreate ⟨4104, 64⟩ fun _ => 0).state

theorem bump_aligned_iff_words :
    (8 ∣ 4136 ↔ 8 ≤ 8) ∧ (8 ∣ 4112 ↔ 8 ∣ 4104) :=
  ⟨(bump_aligned_iff ⟨16, 8⟩ ⟨4136, 16⟩ 3 rfl).1 freshArena
      (by simp [freshArena, ArenaAllocator.arenaCreate]) (by decide)
      (by decide +kernel) (by decide +kernel),
    (bump_aligned_iff ⟨16, 8⟩ ⟨4112, 16⟩ 3 rfl).2 oddBuffer (by decide)
      (by decide +kernel)⟩

/--
The first request of a fresh allocator asks for an alignment of 16.  The
chunk of the arena lies at a multiple of 16, and so do neither of the blocks.
-/
theorem not_aligned_sixteen :
    (ArenaAllocator.arenaAlloc freshArena ⟨8, 16⟩).1 = .ok ⟨4136, 8⟩ ∧
      ArenaAllocator.maxAlign ∣
        (ArenaAllocator.arenaAlloc freshArena ⟨8, 16⟩).2.homeOf 4136 ∧
      ¬ 16 ∣ 4136 ∧
      (FixedAllocator.fixedAlloc oddBuffer ⟨8, 16⟩).1 = .ok ⟨4120, 8⟩ ∧
      ¬ 16 ∣ 4120 :=
  ⟨by decide +kernel, by decide +kernel, by decide, by decide +kernel,
    by decide⟩

end Libcute.Memory
