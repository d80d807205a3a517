import Mathlib.Data.List.Pairwise
import Libcute.Memory.BackingAllocator

/-!
# Regions hosted by a backing allocator

An allocator that lives on a backing allocator keeps a list of regions, each
at the start of a backing block of its own.  `Hosted` is the part of its
invariant that the contract of the backing allocator provides: the regions
are disjoint, and they survive every further allocation with all their bytes.
-/

namespace Libcute.Memory.HostedRegions

open Libcute.Core.Interface
open Libcute.Core.Size
open Libcute.Library.ByteMemory
open Libcute.Memory.BackingAllocator

/-- The regions are disjoint and each has a backing block of its own. -/
structure Hosted (regions : List Slice) (backing : Backing) : Prop where
  separate : regions.Pairwise Separate
  owned : ∀ region ∈ regions, ∃ block ∈ backing.blocks,
    block.ptr = region.ptr ∧ region.length ≤ block.length
  valid : ∀ region ∈ regions,
    region.ptr ≠ 0 ∧ region.ptr + span region.length < sizeLimit

/-- The same blocks with the same bytes, after a call that failed. -/
structure Settled (before after : Backing) : Prop where
  blocks : after.blocks = before.blocks
  bytes : ∀ block ∈ before.blocks,
    SameBytes before.memory after.memory block.ptr block.length

theorem Settled.refl (backing : Backing) : Settled backing backing where
  blocks := rfl
  bytes := fun _ _ => SameBytes.refl _ _ _

namespace Hosted

variable {regions : List Slice} {region other : Slice}
  {backing after : Backing}

theorem nil (backing : Backing) : Hosted [] backing where
  separate := List.Pairwise.nil
  owned := by simp
  valid := by simp

theorem congr
    (hosted : Hosted regions backing)
    (same : after.blocks = backing.blocks) :
    Hosted regions after where
  separate := hosted.separate
  owned := by
    rw [same]
    exact hosted.owned
  valid := hosted.valid

theorem perm {others : List Slice}
    (hosted : Hosted regions backing) (same : regions.Perm others) :
    Hosted others backing where
  separate := (same.pairwise_iff fun separated => separated.symm).mp
    hosted.separate
  owned := fun region member =>
    hosted.owned region (same.mem_iff.mpr member)
  valid := fun region member =>
    hosted.valid region (same.mem_iff.mpr member)

theorem tail (hosted : Hosted (region :: regions) backing) :
    Hosted regions backing where
  separate := (List.pairwise_cons.mp hosted.separate).2
  owned := fun other member =>
    hosted.owned other (List.mem_cons_of_mem _ member)
  valid := fun other member =>
    hosted.valid other (List.mem_cons_of_mem _ member)

/-- Regions at different addresses are separate. -/
theorem separate_of_ne
    (hosted : Hosted regions backing)
    (member : region ∈ regions) (otherMember : other ∈ regions)
    (different : region.ptr ≠ other.ptr) :
    Separate region other := by
  have symmetric : Std.Symm Separate := ⟨fun _ _ => Separate.symm⟩
  exact hosted.separate.forall member otherMember
    fun equal => different (congrArg Slice.ptr equal)

theorem apart_of_ne
    (hosted : Hosted regions backing)
    (member : region ∈ regions) (otherMember : other ∈ regions)
    (different : region.ptr ≠ other.ptr) :
    Apart region.ptr region.length other.ptr other.length :=
  (hosted.separate_of_ne member otherMember different).apart

/-- Regions are identified by their addresses. -/
theorem eq_of_ptr
    (hosted : Hosted regions backing)
    (member : region ∈ regions) (otherMember : other ∈ regions)
    (same : region.ptr = other.ptr) :
    region = other := by
  by_contra different
  have symmetric : Std.Symm Separate := ⟨fun _ _ => Separate.symm⟩
  exact
    (hosted.separate.forall member otherMember different).ptr_ne same

/-- What keeps the bytes of the backing blocks keeps those of the regions. -/
theorem sameBytes {memory : Memory}
    (hosted : Hosted regions backing)
    (kept : ∀ home ∈ backing.blocks,
      SameBytes backing.memory memory home.ptr home.length)
    (member : region ∈ regions) :
    SameBytes backing.memory memory region.ptr region.length := by
  rcases hosted.owned region member with ⟨home, homeMember, addr, large⟩
  exact SameBytes.inside (kept home homeMember) addr.le (by omega)

/-- A block that is separate from all backing blocks hosts a new region. -/
theorem cons {block : Slice} {size : Nat}
    (hosted : Hosted regions backing)
    (valid : block.ptr ≠ 0) (large : size ≤ block.length)
    (bounded : block.ptr + span block.length < sizeLimit)
    (separate : ∀ other ∈ backing.blocks, Separate block other)
    (blocks : after.blocks = block :: backing.blocks) :
    Hosted (⟨block.ptr, size⟩ :: regions) after where
  separate := by
    refine List.pairwise_cons.mpr ⟨?_, hosted.separate⟩
    intro other otherMember
    rcases hosted.owned other otherMember with
      ⟨home, homeMember, homeAddr, homeLarge⟩
    have separated := separate home homeMember
    unfold Separate span at *
    exact separated.inside (Nat.le_refl _) (by dsimp only; omega)
      homeAddr.le (by omega)
  owned := by
    intro region member
    rw [blocks]
    rcases List.mem_cons.mp member with rfl | old
    · exact ⟨block, List.mem_cons_self, rfl, large⟩
    · rcases hosted.owned region old with ⟨home, homeMember, facts⟩
      exact ⟨home, List.mem_cons_of_mem _ homeMember, facts⟩
  valid := by
    intro region member
    rcases List.mem_cons.mp member with rfl | old
    · refine ⟨valid, ?_⟩
      unfold span at *
      dsimp only
      omega
    · exact hosted.valid region old

/--
An allocation on the backing allocator fails, or it hosts a new region and
keeps the bytes of all others.
-/
theorem alloc
    (hosted : Hosted regions backing) (layout : Layout) :
    (∃ error after, backing.alloc layout = (.error error, after) ∧
      Settled backing after) ∨
    ∃ block after, backing.alloc layout = (.ok block, after) ∧
      layout.elemSize ≤ block.length ∧
      after.blocks = block :: backing.blocks ∧
      (∀ home ∈ backing.blocks,
        SameBytes backing.memory after.memory home.ptr home.length) ∧
      ∀ size ≤ block.length, Hosted (⟨block.ptr, size⟩ :: regions) after := by
  rcases backing.alloc_cases layout with
    ⟨error, after, answer, blocks, memory⟩ |
    ⟨block, after, answer, valid, large, bounded, separate, blocks, kept⟩
  · left
    refine ⟨error, after, answer, blocks, ?_⟩
    intro block member
    rw [memory]
    exact SameBytes.refl _ _ _
  · right
    refine ⟨block, after, answer, large, blocks, ?_, ?_⟩
    · intro home member
      exact kept home member _ _ (Nat.le_refl _) (Nat.le_refl _)
    · intro size fits
      exact hosted.cons valid fits bounded separate blocks

/-- The other regions stay hosted when the block of one is taken away. -/
theorem without {mem : Slice}
    (hosted : Hosted (region :: regions) backing)
    (same : mem.ptr = region.ptr)
    (blocks : after.blocks = backing.without mem) :
    Hosted regions after where
  separate := hosted.tail.separate
  owned := by
    intro other member
    rcases hosted.tail.owned other member with
      ⟨home, homeMember, addr, large⟩
    have different :=
      (List.rel_of_pairwise_cons hosted.separate member).ptr_ne
    refine ⟨home, ?_, addr, large⟩
    rw [blocks]
    apply (List.mem_eraseP_of_neg ?_).mpr homeMember
    simp only [decide_eq_true_eq]
    omega
  valid := hosted.tail.valid

/-- Giving a region back leaves the other regions hosted. -/
theorem free {mem : Slice}
    (hosted : Hosted (region :: regions) backing)
    (same : mem.ptr = region.ptr) :
    Hosted regions (backing.free mem) :=
  hosted.without same rfl

/--
Resizing the block of a region fails, gives the region up, or hosts it at
its new place with the common prefix.  The other regions keep their bytes.
-/
theorem resize
    (hosted : Hosted (region :: regions) backing)
    (event : Option Slice → Event) (layout : Layout) :
    (∃ error after,
      backing.resize event region layout = (.error error, after) ∧
      Settled backing after) ∨
    (∃ after, backing.resize event region layout =
        (.ok ⟨0, 0⟩, after) ∧
      layout.elemSize = 0 ∧ Hosted regions after ∧
      ∀ other ∈ regions, SameBytes backing.memory after.memory
        other.ptr other.length) ∨
    ∃ block after,
      backing.resize event region layout = (.ok block, after) ∧
      layout.elemSize ≤ block.length ∧
      Hosted (block :: regions) after ∧
      (∀ other ∈ regions, SameBytes backing.memory after.memory
        other.ptr other.length) ∧
      ∀ offset < min region.length block.length,
        after.memory (block.ptr + offset) =
          backing.memory (region.ptr + offset) := by
  have rest : Hosted regions (backing.free region) := hosted.free rfl
  have carry : ∀ memory : Memory,
      (∀ home ∈ backing.without region,
        SameBytes backing.memory memory home.ptr home.length) →
      ∀ other ∈ regions,
        SameBytes backing.memory memory other.ptr other.length :=
    fun _ kept _ member => rest.sameBytes kept member
  rcases backing.resize_cases event region layout with
    ⟨error, after, answer, blocks, memory⟩ |
    ⟨after, answer, empty, blocks, kept⟩ |
    ⟨block, after, answer, valid, large, bounded, separate, blocks, kept,
      front⟩
  · left
    refine ⟨error, after, answer, blocks, ?_⟩
    intro block member
    rw [memory]
    exact SameBytes.refl _ _ _
  · right
    left
    exact
      ⟨after, answer, empty, hosted.without rfl blocks,
        carry _ kept⟩
  · right
    right
    exact
      ⟨block, after, answer, large,
        rest.cons valid (Nat.le_refl _) bounded separate blocks,
        carry _ kept, front⟩

end Hosted

end Libcute.Memory.HostedRegions
