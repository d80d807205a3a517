import Libcute.Memory.ArenaAllocator.Destroy
import Libcute.Memory.GPAllocator.Destroy
import Libcute.Memory.SlabAllocator.Destroy

/-!
# Destroying an allocator

The three allocators on a backing allocator have a destroy function.
`destroy_returns` says of each that it returns everything that was obtained,
over every run and every behaviour of a backing allocator that returns
exactly the requested lengths.
-/

namespace Libcute.Memory.Destroys

open Libcute.Core.Interface
open Libcute.Library.Transition
open Libcute.Memory.BackingAccount
open Libcute.Memory.BackingAllocator
open Libcute.Memory.Client

/--
After every run of admitted calls and the destroy function nothing is
outstanding: every block was returned once, under the address and the size
it was last asked for with, and nothing else was returned.
-/
def ReturnsAll {State : Type} (allocator : Allocator State)
    (Admitted : World State → Call → Prop) (initial : World State)
    (destroyed : State → Backing) : Prop :=
  ∀ world, Reachable (· = initial) Admitted allocator.step world →
    (∀ event ∈ (destroyed world.state).log, Exact event) →
      outstanding (destroyed world.state).log = some []

/--
The general purpose, the arena and the slab allocator return every block to
the backing allocator, whatever the client did not free and wherever the
backing allocator failed.
-/
theorem destroy_returns (backing : Backing) (fresh : backing.log = []) :
    (∀ bucketSize, ReturnsAll GPAllocator.gpaAllocator
      GPAllocator.Admitted (GPAllocator.gpaCreate backing bucketSize)
      fun gpa => (GPAllocator.gpaDestroy gpa).backing) ∧
    (∀ chunkSize, ReturnsAll ArenaAllocator.arenaAllocator
      ArenaAllocator.Admitted (ArenaAllocator.arenaCreate backing chunkSize)
      fun arena => (ArenaAllocator.arenaDestroy arena).backing) ∧
    ∀ slabSize, ReturnsAll SlabAllocator.slabAllocator
      SlabAllocator.Admitted (SlabAllocator.slabCreate backing slabSize)
      fun pool => (SlabAllocator.slabDestroy pool).backing :=
  ⟨fun _ _ reached exactly =>
      GPAllocator.gpa_returns fresh reached exactly,
    fun _ _ reached exactly =>
      ArenaAllocator.arena_returns fresh reached exactly,
    fun _ _ reached exactly =>
      SlabAllocator.slab_returns fresh reached exactly⟩

/-- A backing allocator with room for a bucket and a large block. -/
def twoRooms : Backing :=
  ⟨[], fun _ => 0,
    [.ok ⟨4096, 128, fun _ => 0⟩, .ok ⟨8192, 8, fun _ => 0⟩,
      .ok ⟨12288, 100, fun _ => 0⟩, .ok ⟨16384, 32, fun _ => 0⟩], []⟩

/-- A small and a large block that are never freed. -/
def twoKept : World GPAllocator.GPA :=
  GPAllocator.gpaAllocator.step
    (GPAllocator.gpaAllocator.step (GPAllocator.gpaCreate twoRooms 16)
      (.alloc ⟨8, 8⟩))
    (.alloc ⟨100, 8⟩)

theorem destroy_returns_kept :
    twoKept.live = [⟨12288, 100⟩, ⟨4208, 8⟩] ∧
      (GPAllocator.gpaDestroy twoKept.state).backing.log.length = 8 ∧
      outstanding (GPAllocator.gpaDestroy twoKept.state).backing.log =
        some [] := by
  refine ⟨by decide +kernel, by decide +kernel, ?_⟩
  apply (destroy_returns twoRooms rfl).1 16
  · unfold twoKept
    refine Reachable.step (Reachable.step (Reachable.start rfl) ?_) ?_
    · exact ⟨by decide, by decide +kernel⟩
    · exact ⟨by decide, by decide +kernel⟩
  · intro event member
    have same : (GPAllocator.gpaDestroy twoKept.state).backing.log =
        [.free ⟨16384, 32⟩, .free ⟨12288, 100⟩, .free ⟨4096, 128⟩,
          .free ⟨8192, 8⟩, .alloc ⟨32, 8⟩ (some ⟨16384, 32⟩),
          .alloc ⟨100, 8⟩ (some ⟨12288, 100⟩),
          .alloc ⟨8, 8⟩ (some ⟨8192, 8⟩),
          .alloc ⟨128, 8⟩ (some ⟨4096, 128⟩)] := by
      decide +kernel
    rw [same] at member
    simp only [List.mem_cons, List.not_mem_nil, or_false] at member
    rcases member with rfl | rfl | rfl | rfl | rfl | rfl | rfl | rfl
    all_goals trivial

end Libcute.Memory.Destroys
