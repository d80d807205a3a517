import Libcute.Memory.ArenaAllocator.Reclaims
import Libcute.Memory.FixedAllocator.Reclaims

/-!
# Reclaiming memory in the order of allocation

Both bump allocators promise their memory back to a client that frees what
it allocated last: `newest_reclaims` says so for every run of such a client,
and for the arena over every behaviour of the backing allocator.
-/

namespace Libcute.Memory.Reclaims

open Libcute.Core.Interface
open Libcute.Core.Size
open Libcute.Library.ByteMemory
open Libcute.Library.Transition
open Libcute.Memory.BackingAllocator
open Libcute.Memory.NewestBlock

/--
In every run in which only the newest block is resized, to a nonzero size,
or freed, freeing it gives every chunk of an arena, and the buffer of a
fixed allocator, the fill from before it was allocated; without blocks
nothing is in use.
-/
theorem newest_reclaims :
    (∀ backing chunkSize ledger,
      Kept ArenaAllocator.arenaAllocator ArenaAllocator.Permitted
          (ArenaAllocator.arenaCreate backing chunkSize) ledger →
        Reclaims ArenaAllocator.arenaAllocator ArenaAllocator.Restored
          ArenaAllocator.Unused ledger) ∧
      ∀ (buffer : Slice) (memory : Memory) ledger,
        buffer.finish < sizeLimit →
        Kept FixedAllocator.fixedAllocator FixedAllocator.PermittedCall
            (FixedAllocator.fixedCreate buffer memory) ledger →
          Reclaims FixedAllocator.fixedAllocator FixedAllocator.Restored
            FixedAllocator.Unused ledger :=
  ⟨fun _ _ _ kept => ArenaAllocator.arena_reclaims kept,
    fun _ _ _ fits kept => FixedAllocator.fixed_reclaims fits kept⟩

/-- A backing allocator with two chunks to give. -/
def twoChunks : Backing :=
  ⟨[], fun _ => 0,
    [.ok ⟨4096, 88, fun _ => 0⟩, .ok ⟨8192, 120, fun _ => 0⟩], []⟩

/-- A block of 16 bytes in the first chunk. -/
def oneBlock : Ledger ArenaAllocator.Arena :=
  Ledger.step ArenaAllocator.arenaAllocator
    ⟨ArenaAllocator.arenaCreate twoChunks 64, []⟩ (.alloc ⟨16, 8⟩)

/-- The block grows to 64 bytes, and so into the second chunk. -/
def movedBlock : Ledger ArenaAllocator.Arena :=
  Ledger.step ArenaAllocator.arenaAllocator oneBlock
    (.grow ⟨4136, 16⟩ ⟨64, 8⟩)

/-- A block of 16 bytes in a buffer grows to 24 bytes. -/
def grownBlock : Ledger FixedAllocator.Fixed :=
  Ledger.step FixedAllocator.fixedAllocator
    (Ledger.step FixedAllocator.fixedAllocator
      ⟨FixedAllocator.fixedCreate ⟨4096, 64⟩ fun _ => 0, []⟩
      (.alloc ⟨16, 8⟩))
    (.grow ⟨4104, 16⟩ ⟨24, 8⟩)

theorem newest_reclaims_blocks :
    Reclaims ArenaAllocator.arenaAllocator ArenaAllocator.Restored
        ArenaAllocator.Unused movedBlock ∧
      Reclaims FixedAllocator.fixedAllocator FixedAllocator.Restored
        FixedAllocator.Unused grownBlock := by
  constructor
  · apply newest_reclaims.1 twoChunks 64
    unfold movedBlock oneBlock
    refine Reachable.step (Reachable.step (Reachable.start rfl) ?_) ?_
    · refine ⟨fun nonempty => ⟨by decide, by decide, ?_⟩, trivial⟩
      simp [ArenaAllocator.arenaCreate]
    · refine
        ⟨⟨by decide +kernel, fun full nonempty => ?_⟩, by decide +kernel⟩
      refine ⟨by decide, by decide, by decide +kernel⟩
  · apply newest_reclaims.2 ⟨4096, 64⟩ (fun _ => 0) grownBlock (by decide)
    unfold grownBlock
    refine Reachable.step (Reachable.step (Reachable.start rfl) ?_) ?_
    · exact ⟨fun nonempty => ⟨by decide, by decide⟩, trivial⟩
    · refine ⟨⟨by decide +kernel, fun moves nonempty => ?_⟩,
        by decide +kernel⟩
      exact ⟨by decide +kernel, by decide +kernel⟩

end Libcute.Memory.Reclaims
