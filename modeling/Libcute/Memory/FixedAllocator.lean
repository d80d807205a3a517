import Libcute.Core.NoStd
import Libcute.Core.Size
import Libcute.Library.BumpRegions
import Libcute.Memory.Client

/-!
# The fixed buffer allocator

`fixedallocator.c` carves blocks from one caller-supplied buffer.  In front
of every block stands a header with the value of `used` before the block was
placed; releasing the topmost block puts `used` back to it.

The buffer is one region of `BumpRegions`, and the header is the mark of a
block.  `Safe` is the public reading of the invariant, and
`fixed_run_safe` proves it for every run together with the guarantees of
every single call.
-/

namespace Libcute.Memory.FixedAllocator

open Libcute.Core.Interface
open Libcute.Core.NoStd
open Libcute.Core.Size
open Libcute.Library.BumpRegions
open Libcute.Library.ByteMemory
open Libcute.Library.Transition
open Libcute.Memory.Client

/-- `cu_FixedAllocator` and the memory its buffer lies in. -/
structure Fixed where
  buffer : Slice
  used : Nat
  memory : Memory

/-- `sizeof(struct cu_FixedAllocator_Header)` -/
def headerSize : Nat := 8

/-- `hdr->prev_offset` of the header in front of a block. -/
def Fixed.prevOffset (fixed : Fixed) (ptr : Nat) : Nat :=
  loadBytes fixed.memory (ptr - headerSize) headerSize

/-- The alignment a request is placed with. -/
def requestAlign (layout : Layout) : Nat :=
  max (if layout.alignment = 0 then 1 else layout.alignment) 8

/-- The offset at which a request would be placed. -/
def Fixed.startFor (fixed : Fixed) (layout : Layout) : Nat :=
  alignUp (sizeAdd fixed.used headerSize) (requestAlign layout)

/-- `cu_fixed_alloc` -/
def fixedAlloc (fixed : Fixed) (layout : Layout) :
    Except IoError Slice × Fixed :=
  if layout.elemSize = 0 then
    (.error .invalidInput, fixed)
  else
    let size := layout.elemSize
    let start := fixed.startFor layout
    if sizeAdd start size > fixed.buffer.length then
      (.error .outOfMemory, fixed)
    else
      (.ok ⟨fixed.buffer.ptr + start, size⟩,
        { fixed with
          used := sizeAdd start size
          memory :=
            storeBytes fixed.memory
              (fixed.buffer.ptr + start - headerSize)
              fixed.used headerSize })

/-- The block ends where the used part of the buffer ends. -/
def Fixed.Topmost (fixed : Fixed) (mem : Slice) : Prop :=
  mem.finish = fixed.buffer.ptr + fixed.used

instance (fixed : Fixed) (mem : Slice) : Decidable (fixed.Topmost mem) :=
  inferInstanceAs (Decidable (_ = _))

/-- The test of `cu_fixed_grow` for growing without moving. -/
def Fixed.GrowsInPlace (fixed : Fixed) (old : Slice) (layout : Layout) :
    Prop :=
  fixed.Topmost old ∧
    layout.elemSize ≤
      sizeAdd old.length (sizeSub fixed.buffer.length fixed.used)

instance (fixed : Fixed) (old : Slice) (layout : Layout) :
    Decidable (fixed.GrowsInPlace old layout) :=
  inferInstanceAs (Decidable (_ ∧ _))

/-- Give the topmost block a new length. -/
def Fixed.resizeTop (fixed : Fixed) (old : Slice) (size : Nat) : Fixed :=
  { fixed with used := sizeAdd (sizeSub fixed.used old.length) size }

/-- `cu_fixed_grow` -/
def fixedGrow (fixed : Fixed) (old : Slice) (layout : Layout) :
    Except IoError Slice × Fixed :=
  if old.ptr = 0 then
    fixedAlloc fixed layout
  else if fixed.GrowsInPlace old layout then
    (.ok ⟨old.ptr, layout.elemSize⟩, fixed.resizeTop old layout.elemSize)
  else
    match fixedAlloc fixed layout with
    | (.error error, fixed) => (.error error, fixed)
    | (.ok new, fixed) =>
        let fixed :=
          if 0 < old.length then
            { fixed with memory := smemcpy fixed.memory new old }
          else
            fixed
        if fixed.Topmost old then
          (.ok new, { fixed with used := fixed.prevOffset old.ptr })
        else
          (.ok new, fixed)

/-- `cu_fixed_shrink` -/
def fixedShrink (fixed : Fixed) (old : Slice) (layout : Layout) :
    Except IoError Slice × Fixed :=
  if old.ptr = 0 then
    (.error .invalidInput, fixed)
  else if fixed.Topmost old then
    (.ok ⟨old.ptr, layout.elemSize⟩, fixed.resizeTop old layout.elemSize)
  else
    match fixedAlloc fixed layout with
    | (.error error, fixed) => (.error error, fixed)
    | (.ok new, fixed) =>
        if 0 < layout.elemSize then
          let copy := min layout.elemSize old.length
          (.ok new,
            { fixed with
              memory :=
                smemcpy fixed.memory ⟨new.ptr, copy⟩ ⟨old.ptr, copy⟩ })
        else
          (.ok new, fixed)

/-- `cu_fixed_free` -/
def fixedFree (fixed : Fixed) (mem : Slice) : Fixed :=
  if mem.ptr = 0 then
    fixed
  else if ¬ fixed.Topmost mem then
    fixed
  else
    { fixed with used := fixed.prevOffset mem.ptr }

/-- `cu_FixedAllocator_reset` -/
def fixedReset (fixed : Fixed) : Fixed :=
  { fixed with used := 0 }

/-- The callbacks of `cu_Allocator_FixedAllocator`. -/
def fixedAllocator : Allocator Fixed where
  allocFn := fixedAlloc
  growFn := fixedGrow
  shrinkFn := fixedShrink
  freeFn := fixedFree
  memory := Fixed.memory
  setMemory fixed memory := { fixed with memory }

/-- `cu_Allocator_FixedAllocator`: an allocator over a fresh buffer. -/
def fixedCreate (buffer : Slice) (memory : Memory) : World Fixed :=
  ⟨⟨buffer, 0, memory⟩, []⟩

/-- A use of the interface, or a reset of the whole buffer. -/
inductive Action where
  | call (call : Call)
  | reset

/-- All blocks die at a reset. -/
def fixedStep (world : World Fixed) : Action → World Fixed
  | .call call => fixedAllocator.step world call
  | .reset => ⟨fixedReset world.state, []⟩

/--
No sum that `cu_fixed_alloc` computes for the request wraps; an empty
request is refused before any sum.
-/
def Fixed.SumsFit (fixed : Fixed) (layout : Layout) : Prop :=
  layout.elemSize ≠ 0 →
    fixed.used + headerSize + (requestAlign layout - 1) < sizeLimit ∧
      fixed.startFor layout + layout.elemSize < sizeLimit

/--
A well-behaved client only touches live blocks, shrinks to at most the
current length, and makes no request whose size sums wrap.
-/
def Permitted (world : World Fixed) : Action → Prop
  | .call (.alloc layout) => world.state.SumsFit layout
  | .call (.grow old layout) =>
      old ∈ world.live ∧
        (¬ world.state.GrowsInPlace old layout →
          world.state.SumsFit layout)
  | .call (.shrink old layout) =>
      old ∈ world.live ∧ layout.elemSize ≤ old.length ∧
        (¬ world.state.Topmost old → world.state.SumsFit layout)
  | .call (.free mem) => mem ∈ world.live
  | .call (.write block _) => block ∈ world.live
  | .reset => True

/-! ## The invariant -/

/-- A block starts behind its header and is marked by the stored offset. -/
def Fixed.placement (fixed : Fixed) : Placement Unit Slice where
  home _ := ()
  mark block := fixed.buffer.ptr + fixed.prevOffset block.ptr
  start := Slice.ptr
  finish := Slice.finish

/-- Where blocks are placed does not depend on the top. -/
theorem placement_used (fixed : Fixed) (used : Nat) :
    ({ fixed with used := used } : Fixed).placement = fixed.placement :=
  rfl

/-- The blocks are stacked in the buffer. -/
def Fixed.Holds (fixed : Fixed) (live : List Slice) : Prop :=
  Stacked fixed.placement headerSize
    (fun _ => fixed.buffer.ptr)
    (fun _ => fixed.buffer.ptr + fixed.used) live

structure Invariant (world : World Fixed) : Prop where
  buffer_fits :
    world.state.buffer.ptr + world.state.buffer.length < sizeLimit
  used_le : world.state.used ≤ world.state.buffer.length
  holds : world.state.Holds world.live

variable {fixed : Fixed} {live : List Slice} {block : Slice}
  {layout : Layout}

/-- Where a held block lies in the buffer. -/
theorem Fixed.Holds.extent
    (holds : fixed.Holds live) (member : block ∈ live) :
    fixed.buffer.ptr + headerSize ≤ block.ptr ∧
      fixed.buffer.ptr + fixed.prevOffset block.ptr + headerSize ≤
        block.ptr ∧
      block.finish ≤ fixed.buffer.ptr + fixed.used := by
  have low := holds.header_fits block member
  have top := holds.finish_le_top block member
  simp only [Fixed.placement] at low top
  refine ⟨?_, low, top⟩
  omega

/-- Marks are read from headers, so equal headers give equal placements. -/
theorem Fixed.Holds.congr
    {after : Fixed}
    (holds : fixed.Holds live)
    (buffer : after.buffer = fixed.buffer)
    (used : after.used = fixed.used)
    (headers : ∀ block ∈ live,
      after.prevOffset block.ptr = fixed.prevOffset block.ptr) :
    after.Holds live := by
  have moved : Stacked after.placement headerSize
      (fun _ => fixed.buffer.ptr)
      (fun _ => fixed.buffer.ptr + fixed.used) live := by
    apply Stacked.congr holds
    · intro block member
      rfl
    · intro block member
      simp only [Fixed.placement, buffer, headers block member]
    · intro block member
      rfl
    · intro block member
      rfl
  simpa only [Fixed.Holds, buffer, used] using moved

/-- The bytes of a header and of its block, as one range. -/
def WithHeader (before after : Memory) (block : Slice) : Prop :=
  SameBytes before after (block.ptr - headerSize)
    (headerSize + block.length)

theorem prevOffset_eq_of_withHeader {after : Fixed}
    (same : WithHeader fixed.memory after.memory block) :
    after.prevOffset block.ptr = fixed.prevOffset block.ptr := by
  apply loadBytes_congr
  exact same.inside (Nat.le_refl _) (by omega)

/-! ## Allocation -/

/-- The state after a block was placed at offset `start`. -/
def Fixed.place (fixed : Fixed) (start size : Nat) : Fixed :=
  { fixed with
    used := start + size
    memory :=
      storeBytes fixed.memory (fixed.buffer.ptr + start - headerSize)
        fixed.used headerSize }

/--
What `cu_fixed_alloc` does: it fails without any effect, or it places the
block above the used part, behind a header that stores the old top.
-/
theorem fixedAlloc_cases (layout : Layout)
    (fits : fixed.SumsFit layout) :
    (∃ error, fixedAlloc fixed layout = (.error error, fixed)) ∨
    ∃ start,
      fixed.used + headerSize ≤ start ∧
      start + layout.elemSize ≤ fixed.buffer.length ∧
      layout.elemSize ≠ 0 ∧
      fixedAlloc fixed layout =
        (.ok ⟨fixed.buffer.ptr + start, layout.elemSize⟩,
          fixed.place start layout.elemSize) := by
  by_cases empty : layout.elemSize = 0
  · left
    exact ⟨.invalidInput, by simp [fixedAlloc, empty]⟩
  · rcases fits empty with ⟨startFits, endFits⟩
    have positive : 0 < requestAlign layout := by
      unfold requestAlign
      omega
    have header :
        sizeAdd fixed.used headerSize = fixed.used + headerSize :=
      sizeAdd_eq (by omega)
    have low : fixed.used + headerSize ≤ fixed.startFor layout := by
      unfold Fixed.startFor
      rw [header]
      exact (alignUp_bounds positive startFits).1
    by_cases full :
        fixed.startFor layout + layout.elemSize > fixed.buffer.length
    · left
      exact
        ⟨.outOfMemory, by simp [fixedAlloc, empty, sizeAdd_eq endFits, full]⟩
    · right
      refine ⟨fixed.startFor layout, low, by omega, empty, ?_⟩
      simp [fixedAlloc, Fixed.place, empty, sizeAdd_eq endFits, full]

@[simp]
theorem place_buffer (start size : Nat) :
    (fixed.place start size).buffer = fixed.buffer :=
  rfl

@[simp]
theorem place_used (start size : Nat) :
    (fixed.place start size).used = start + size :=
  rfl

/-- Placing a block keeps the blocks that were there. -/
theorem place_withHeader
    {start : Nat} (size : Nat)
    (holds : fixed.Holds live)
    (above : fixed.used + headerSize ≤ start)
    (member : block ∈ live) :
    WithHeader fixed.memory (fixed.place start size).memory block := by
  have extent := holds.extent member
  apply storeBytes_sameBytes
  unfold Apart Slice.finish headerSize at *
  omega

/-- The new block is stacked on the blocks that were there. -/
theorem Fixed.Holds.place
    {start : Nat} (size : Nat)
    (holds : fixed.Holds live)
    (usedFits : fixed.used < sizeLimit)
    (above : fixed.used + headerSize ≤ start) :
    (fixed.place start size).Holds
      (⟨fixed.buffer.ptr + start, size⟩ :: live) := by
  have kept : Stacked (fixed.place start size).placement headerSize
      (fun _ => fixed.buffer.ptr)
      (fun _ => fixed.buffer.ptr + fixed.used) live := by
    apply Stacked.congr holds
    · intro block member
      rfl
    · intro block member
      have same := place_withHeader size holds above member
      simp only [Fixed.placement, prevOffset_eq_of_withHeader same]
      rfl
    · intro block member
      rfl
    · intro block member
      rfl
  have marked :
      (fixed.place start size).prevOffset (fixed.buffer.ptr + start) =
        fixed.used := by
    exact loadBytes_storeBytes_of_lt fixed.memory _ usedFits
  apply kept.push
  · exact Nat.le_add_right _ _
  · simp only [Fixed.placement, marked]
    rfl
  · simp only [Fixed.placement, marked, place_buffer]
    omega
  · exact Nat.le_add_right _ _
  · simp only [Fixed.placement, Slice.finish, place_used,
      place_buffer]
    omega
  · intro region different
    exact (different rfl).elim
  · intro other member different
    exact (different rfl).elim

/-! ## Resizing -/

/--
The state after a block was placed at `start` and the common prefix of the
old block was copied into it.
-/
def Fixed.relocate (fixed : Fixed) (old : Slice) (start size : Nat) :
    Fixed :=
  { fixed.place start size with
    memory :=
      blit (fixed.place start size).memory
        (fixed.buffer.ptr + start) old.ptr (min old.length size) }

/--
The three ways a block can be resized: not at all, by moving the end of the
topmost block, or by moving its bytes to a new block.
-/
inductive Resized (fixed : Fixed) (old : Slice) (size : Nat) :
    Except IoError Slice × Fixed → Prop where
  | failed (error : IoError) :
      Resized fixed old size (.error error, fixed)
  | inPlace
      (topmost : fixed.Topmost old)
      (room : fixed.used + size ≤ fixed.buffer.length + old.length) :
      Resized fixed old size
        (.ok ⟨old.ptr, size⟩,
          { fixed with used := fixed.used - old.length + size })
  | moved (start : Nat)
      (above : fixed.used + headerSize ≤ start)
      (inside : start + size ≤ fixed.buffer.length) :
      Resized fixed old size
        (.ok ⟨fixed.buffer.ptr + start, size⟩,
          fixed.relocate old start size)

/-- The facts about a live block that resizing it relies on. -/
theorem Invariant.bounds
    {world : World Fixed} (invariant : Invariant world)
    (member : block ∈ world.live) :
    world.state.buffer.ptr + headerSize ≤ block.ptr ∧
      block.ptr + block.length ≤
        world.state.buffer.ptr + world.state.used ∧
      world.state.used ≤ world.state.buffer.length ∧
      world.state.buffer.ptr + world.state.buffer.length < sizeLimit := by
  have extent := invariant.holds.extent member
  exact
    ⟨extent.1, extent.2.2, invariant.used_le, invariant.buffer_fits⟩

theorem resizeTop_eq {world : World Fixed} (invariant : Invariant world)
    (member : block ∈ world.live) {size : Nat}
    (room : world.state.used + size ≤
      world.state.buffer.length + block.length) :
    world.state.resizeTop block size =
      { world.state with
        used := world.state.used - block.length + size } := by
  have bounds := invariant.bounds member
  unfold Fixed.resizeTop
  rw [sizeSub_eq (by unfold headerSize at bounds; omega) (by omega),
    sizeAdd_eq (by unfold headerSize at bounds; omega)]

theorem fixedGrow_resized {world : World Fixed}
    (invariant : Invariant world) (member : block ∈ world.live)
    (fits : ¬ world.state.GrowsInPlace block layout →
      world.state.SumsFit layout) :
    Resized world.state block layout.elemSize
      (fixedGrow world.state block layout) := by
  have bounds := invariant.bounds member
  have valid : block.ptr ≠ 0 := by
    unfold headerSize at bounds
    omega
  by_cases inPlace : world.state.GrowsInPlace block layout
  · have room : world.state.used + layout.elemSize ≤
        world.state.buffer.length + block.length := by
      have available := inPlace.2
      rw [sizeSub_eq bounds.2.2.1 (by omega), sizeAdd_eq (by omega)]
        at available
      omega
    simp only [fixedGrow, valid, if_false, inPlace, if_true,
      resizeTop_eq invariant member room]
    exact Resized.inPlace inPlace.1 room
  · rcases fixedAlloc_cases layout (fits inPlace) with
      ⟨error, failed⟩ | ⟨start, above, inside, nonempty, placed⟩
    · simp only [fixedGrow, valid, if_false, inPlace, failed]
      exact Resized.failed error
    · have apart : Apart (world.state.buffer.ptr + start) layout.elemSize
          block.ptr block.length := by
        unfold Apart
        omega
      have copied :
          (if 0 < block.length then
            { world.state.place start layout.elemSize with
              memory :=
                smemcpy (world.state.place start layout.elemSize).memory
                  ⟨world.state.buffer.ptr + start, layout.elemSize⟩
                  block }
          else
            world.state.place start layout.elemSize) =
          world.state.relocate block start layout.elemSize := by
        have destination : world.state.buffer.ptr + start ≠ 0 := by
          unfold headerSize at above
          omega
        unfold Fixed.relocate
        split_ifs with nonzero
        · rw [smemcpy_eq_blit _ destination valid apart, min_comm]
        · have zero : block.length = 0 := by omega
          simp only [zero, Nat.zero_min, blit_zero]
      have buried :
          ¬ (world.state.relocate block start layout.elemSize).Topmost
            block := by
        simp only [Fixed.Topmost, Slice.finish, Fixed.relocate,
          Fixed.place]
        unfold headerSize at above
        omega
      simp only [fixedGrow, valid, if_false, inPlace, placed, copied,
        buried]
      exact Resized.moved start above inside

theorem fixedShrink_resized {world : World Fixed}
    (invariant : Invariant world) (member : block ∈ world.live)
    (shorter : layout.elemSize ≤ block.length)
    (fits : ¬ world.state.Topmost block → world.state.SumsFit layout) :
    Resized world.state block layout.elemSize
      (fixedShrink world.state block layout) := by
  have bounds := invariant.bounds member
  have valid : block.ptr ≠ 0 := by
    unfold headerSize at bounds
    omega
  by_cases topmost : world.state.Topmost block
  · have room : world.state.used + layout.elemSize ≤
        world.state.buffer.length + block.length := by omega
    simp only [fixedShrink, valid, if_false, topmost, if_true,
      resizeTop_eq invariant member room]
    exact Resized.inPlace topmost room
  · rcases fixedAlloc_cases layout (fits topmost) with
      ⟨error, failed⟩ | ⟨start, above, inside, nonempty, placed⟩
    · simp only [fixedShrink, valid, if_false, topmost, failed]
      exact Resized.failed error
    · have apart : Apart (world.state.buffer.ptr + start)
          (min layout.elemSize block.length)
          block.ptr (min layout.elemSize block.length) := by
        unfold Apart
        omega
      have copied :
          smemcpy (world.state.place start layout.elemSize).memory
              ⟨world.state.buffer.ptr + start,
                min layout.elemSize block.length⟩
              ⟨block.ptr, min layout.elemSize block.length⟩ =
            blit (world.state.place start layout.elemSize).memory
              (world.state.buffer.ptr + start) block.ptr
              (min block.length layout.elemSize) := by
        have destination : world.state.buffer.ptr + start ≠ 0 := by
          unfold headerSize at above
          omega
        rw [smemcpy_eq_blit _ destination valid apart, min_self,
          min_comm layout.elemSize]
      simp only [fixedShrink, valid, if_false, topmost, placed,
        Nat.pos_of_ne_zero nonempty, copied]
      exact Resized.moved start above inside

/-! ## One step -/

/-- The topmost block takes the top of the buffer with it. -/
theorem Fixed.Holds.resizeTop
    (holds : fixed.Holds live) (member : block ∈ live)
    (topmost : fixed.Topmost block) (size : Nat) :
    ({ fixed with used := fixed.used - block.length + size } :
      Fixed).Holds (⟨block.ptr, size⟩ :: release live (some block)) := by
  have extent := holds.extent member
  have first := Stacked.perm holds (perm_release member)
  apply first.resizeTop (by decide) topmost
  · rfl
  · rfl
  · rfl
  · exact Nat.le_add_right _ _
  · unfold Fixed.Topmost Slice.finish headerSize at *
    simp only [Fixed.placement, Slice.finish]
    omega
  · intro region different
    exact (different rfl).elim
  · intro other otherMember different
    exact (different rfl).elim

/-- Releasing the topmost block puts the top back to its mark. -/
theorem Fixed.Holds.rewind
    (holds : fixed.Holds live) (member : block ∈ live)
    (topmost : fixed.Topmost block) :
    ({ fixed with used := fixed.prevOffset block.ptr } : Fixed).Holds
      (live.erase block) := by
  have first := Stacked.perm holds (perm_release member)
  unfold Fixed.Holds
  rw [placement_used]
  apply first.rewind (by decide) topmost
  · rfl
  · intro region different
    exact (different rfl).elim

/-- Bytes inside the used part are not touched by a relocation. -/
theorem relocate_sameBytes
    {old : Slice} {start address length : Nat} (size : Nat)
    (below : address + length ≤ fixed.buffer.ptr + fixed.used)
    (above : fixed.used + headerSize ≤ start) :
    SameBytes fixed.memory (fixed.relocate old start size).memory
      address length := by
  have stored : SameBytes fixed.memory (fixed.place start size).memory
      address length := by
    apply storeBytes_sameBytes
    unfold Apart headerSize at *
    omega
  apply stored.trans
  apply blit_sameBytes
  unfold Apart headerSize at *
  omega

theorem relocate_withHeader
    {old : Slice} {start : Nat} (size : Nat)
    (holds : fixed.Holds live)
    (above : fixed.used + headerSize ≤ start)
    (member : block ∈ live) :
    WithHeader fixed.memory (fixed.relocate old start size).memory
      block := by
  have extent := holds.extent member
  apply relocate_sameBytes size _ above
  unfold Slice.finish headerSize at *
  omega

/-- A relocated block is stacked like a freshly placed one. -/
theorem Fixed.Holds.relocate
    {start : Nat} (old : Slice) (size : Nat)
    (holds : fixed.Holds live)
    (usedFits : fixed.used < sizeLimit)
    (above : fixed.used + headerSize ≤ start) :
    (fixed.relocate old start size).Holds
      (⟨fixed.buffer.ptr + start, size⟩ :: live) := by
  have placed := holds.place size usedFits above
  apply Fixed.Holds.congr placed
  · rfl
  · rfl
  · intro block member
    apply loadBytes_congr
    apply blit_sameBytes
    have extent := placed.extent member
    rcases List.mem_cons.mp member with rfl | old
    · unfold Apart headerSize at *
      dsimp only
      omega
    · have low := holds.extent old
      unfold Apart Slice.finish headerSize at *
      omega

theorem relocate_carried
    {old : Slice} {start size offset : Nat}
    (below : old.finish ≤ fixed.buffer.ptr + fixed.used)
    (above : fixed.used + headerSize ≤ start)
    (inside : offset < min old.length size) :
    (fixed.relocate old start size).memory
        (fixed.buffer.ptr + start + offset) =
      fixed.memory (old.ptr + offset) := by
  have source :
      (fixed.place start size).memory (old.ptr + offset) =
        fixed.memory (old.ptr + offset) := by
    have kept : SameBytes fixed.memory (fixed.place start size).memory
        old.ptr old.length := by
      apply storeBytes_sameBytes
      unfold Apart Slice.finish headerSize at *
      omega
    exact kept offset (by omega)
  rw [← source]
  exact blit_inside _ _ inside

/-- Placing a new block keeps the invariant. -/
theorem Invariant.place
    {world : World Fixed} {start : Nat} (size : Nat)
    (invariant : Invariant world)
    (above : world.state.used + headerSize ≤ start)
    (inside : start + size ≤ world.state.buffer.length) :
    Invariant
      (world.receive none
        (.ok ⟨world.state.buffer.ptr + start, size⟩,
          world.state.place start size)) := by
  have bufferFits := invariant.buffer_fits
  have usedLe := invariant.used_le
  have valid : world.state.buffer.ptr + start ≠ 0 := by
    unfold headerSize at above
    omega
  rw [World.receive_ok _ _ _ _ valid]
  exact
    { buffer_fits := bufferFits
      used_le := inside
      holds := invariant.holds.place size (by omega) above }

/-- Every way of resizing keeps the invariant. -/
theorem Resized.invariant
    {world : World Fixed} {size : Nat}
    {result : Except IoError Slice × Fixed}
    (invariant : Invariant world) (member : block ∈ world.live)
    (resized : Resized world.state block size result) :
    Invariant (world.receive (some block) result) := by
  have bounds := invariant.bounds member
  cases resized with
  | failed error => exact invariant
  | inPlace topmost room =>
      have valid : block.ptr ≠ 0 := by
        unfold headerSize at bounds
        omega
      rw [World.receive_ok _ _ _ _ valid]
      constructor
      · exact invariant.buffer_fits
      · simp only
        omega
      · exact invariant.holds.resizeTop member topmost size
  | moved start above inside =>
      have valid : world.state.buffer.ptr + start ≠ 0 := by
        unfold headerSize at above
        omega
      rw [World.receive_ok _ _ _ _ valid]
      constructor
      · exact invariant.buffer_fits
      · exact inside
      · have relocated :=
          invariant.holds.relocate block size (by omega) above
        exact Stacked.sublist relocated
          (List.Sublist.cons_cons _ List.erase_sublist)

/-- A resized block keeps its prefix and leaves the other blocks alone. -/
theorem Resized.safe
    {world : World Fixed} {call : Call} {size : Nat}
    {result : Except IoError Slice × Fixed}
    (invariant : Invariant world) (member : block ∈ world.live)
    (target : call.target = some block)
    (responds : fixedAllocator.respond world.state call = some result)
    (resized : Resized world.state block size result) :
    StepSafe fixedAllocator headerSize Eq world call := by
  have bounds := invariant.bounds member
  apply StepSafe.of_respond responds
  · intro other otherMember different
    cases resized with
    | failed error => exact SameBytes.refl _ _ _
    | inPlace topmost room => exact SameBytes.refl _ _ _
    | moved start above inside =>
        exact relocate_withHeader size invariant.holds above otherMember
  · intro old answer oldTarget answered offset inside
    rw [target] at oldTarget
    cases oldTarget
    cases resized with
    | failed error => cases answered
    | inPlace topmost room =>
        cases answered
        rfl
    | moved start above inBuffer =>
        cases answered
        exact relocate_carried bounds.2.1 above inside
  · intro error failed
    cases resized with
    | failed error => rfl
    | inPlace topmost room => cases failed
    | moved start above inside => cases failed

theorem alloc_safe {world : World Fixed}
    (invariant : Invariant world)
    (fits : world.state.SumsFit layout) :
    Invariant (fixedAllocator.step world (.alloc layout)) ∧
      StepSafe fixedAllocator headerSize Eq world (.alloc layout) := by
  have responds : fixedAllocator.respond world.state (.alloc layout) =
      some (fixedAlloc world.state layout) := rfl
  rw [step_of_respond responds]
  rcases fixedAlloc_cases layout fits with
    ⟨error, failed⟩ | ⟨start, above, inside, nonempty, placed⟩
  · rw [failed] at responds ⊢
    refine ⟨invariant, StepSafe.of_respond responds ?_ ?_ ?_⟩
    · intro block member different
      exact SameBytes.refl _ _ _
    · intro old block target answered
      cases target
    · intro error failure
      rfl
  · rw [placed] at responds ⊢
    refine
      ⟨invariant.place _ above inside,
        StepSafe.of_respond responds ?_ ?_ ?_⟩
    · intro block member different
      exact
        place_withHeader layout.elemSize invariant.holds above member
    · intro old block target answered
      cases target
    · intro error failure
      cases failure

theorem free_safe {world : World Fixed} {mem : Slice}
    (invariant : Invariant world) (member : mem ∈ world.live) :
    Invariant (fixedAllocator.step world (.free mem)) ∧
      StepSafe fixedAllocator headerSize Eq world (.free mem) := by
  have bounds := invariant.bounds member
  have valid : mem.ptr ≠ 0 := by
    unfold headerSize at bounds
    omega
  have sameMemory :
      (fixedFree world.state mem).memory = world.state.memory := by
    unfold fixedFree
    split_ifs <;> rfl
  constructor
  · by_cases topmost : world.state.Topmost mem
    · have released : fixedFree world.state mem =
          { world.state with
            used := world.state.prevOffset mem.ptr } := by
        simp [fixedFree, valid, topmost]
      have extent := invariant.holds.extent member
      simp only [Allocator.step, fixedAllocator, released]
      constructor
      · exact invariant.buffer_fits
      · simp only
        omega
      · exact invariant.holds.rewind member topmost
    · have ignored : fixedFree world.state mem = world.state := by
        simp [fixedFree, topmost]
      simp only [Allocator.step, fixedAllocator, ignored]
      exact
        { invariant with
          holds := invariant.holds.sublist List.erase_sublist }
  · apply StepSafe.of_free
    intro block blockMember different offset inside
    exact congrFun sameMemory _

/-- Two live blocks are separated by the header of the upper one. -/
theorem Fixed.Holds.apart_header
    {other : Slice} (holds : fixed.Holds live)
    (member : block ∈ live) (otherMember : other ∈ live)
    (different : block ≠ other) :
    Apart block.ptr block.length
      (other.ptr - headerSize) (headerSize + other.length) := by
  have extent := holds.extent member
  have otherExtent := holds.extent otherMember
  have separated := holds.apart_of_ne member otherMember different
  simp only [Fixed.placement, Slice.finish] at separated extent otherExtent
  unfold Apart headerSize at *
  omega

/-- A client that writes into a block does not touch any header. -/
theorem Fixed.Holds.write_header
    {other : Slice} (holds : fixed.Holds live)
    (member : block ∈ live) (otherMember : other ∈ live)
    (content : Memory) :
    ({ fixed with
        memory := overwrite fixed.memory block.ptr block.length content } :
      Fixed).prevOffset other.ptr = fixed.prevOffset other.ptr := by
  apply loadBytes_congr
  apply overwrite_sameBytes
  have extent := holds.extent otherMember
  by_cases equal : block = other
  · subst equal
    unfold Apart headerSize at *
    omega
  · have clear := holds.apart_header member otherMember equal
    unfold Apart headerSize at *
    omega

theorem write_safe {world : World Fixed}
    (invariant : Invariant world) (member : block ∈ world.live)
    (content : Memory) :
    Invariant (fixedAllocator.step world (.write block content)) ∧
      StepSafe fixedAllocator headerSize Eq world
        (.write block content) := by
  have separated : ∀ other ∈ world.live, block ≠ other →
      Apart block.ptr block.length
        (other.ptr - headerSize) (headerSize + other.length) :=
    fun other otherMember different =>
      invariant.holds.apart_header member otherMember different
  have lens : ∀ state memory,
      fixedAllocator.memory (fixedAllocator.setMemory state memory) =
        memory :=
    fun _ _ => rfl
  refine ⟨?_, StepSafe.of_write lens separated⟩
  refine ⟨invariant.buffer_fits, invariant.used_le, ?_⟩
  apply invariant.holds.congr
  · rfl
  · rfl
  · intro other otherMember
    exact invariant.holds.write_header member otherMember content

/-- One permitted action keeps the invariant. -/
theorem step_invariant {world : World Fixed} {action : Action}
    (invariant : Invariant world) (permitted : Permitted world action) :
    Invariant (fixedStep world action) := by
  cases action with
  | reset =>
      exact
        { buffer_fits := invariant.buffer_fits
          used_le := Nat.zero_le _
          holds := Stacked.nil _ _ _ _ }
  | call call =>
      cases call with
      | alloc layout => exact (alloc_safe invariant permitted).1
      | grow old layout =>
          have responds :
              fixedAllocator.respond world.state (.grow old layout) =
                some (fixedGrow world.state old layout) := rfl
          have resized :=
            fixedGrow_resized invariant permitted.1 permitted.2
          rw [fixedStep, step_of_respond responds]
          exact resized.invariant invariant permitted.1
      | shrink old layout =>
          have responds :
              fixedAllocator.respond world.state (.shrink old layout) =
                some (fixedShrink world.state old layout) := rfl
          have resized :=
            fixedShrink_resized invariant permitted.1 permitted.2.1
              permitted.2.2
          rw [fixedStep, step_of_respond responds]
          exact resized.invariant invariant permitted.1
      | free mem => exact (free_safe invariant permitted).1
      | write block content =>
          exact (write_safe invariant permitted content).1

/-- One permitted call is safe for the client. -/
theorem step_safe {world : World Fixed} {call : Call}
    (invariant : Invariant world)
    (permitted : Permitted world (.call call)) :
    StepSafe fixedAllocator headerSize Eq world call := by
  cases call with
  | alloc layout => exact (alloc_safe invariant permitted).2
  | grow old layout =>
      exact
        (fixedGrow_resized invariant permitted.1 permitted.2).safe
          invariant permitted.1 rfl rfl
  | shrink old layout =>
      exact
        (fixedShrink_resized invariant permitted.1 permitted.2.1
          permitted.2.2).safe invariant permitted.1 rfl rfl
  | free mem => exact (free_safe invariant permitted).2
  | write block content =>
      exact (write_safe invariant permitted content).2

/-- A resized block has an address and the size that was asked for. -/
theorem Resized.room {world : World Fixed} {old block : Slice} {size : Nat}
    {after : Fixed} {result : Except IoError Slice × Fixed}
    (resized : Resized world.state old size result)
    (invariant : Invariant world) (member : old ∈ world.live)
    (answer : result = (.ok block, after)) :
    block.ptr ≠ 0 ∧ size ≤ block.length := by
  have bounds := invariant.bounds member
  unfold headerSize at bounds
  cases resized with
  | failed error => cases answer
  | inPlace topmost room =>
      cases answer
      exact ⟨by dsimp only; omega, le_refl _⟩
  | moved start above inside =>
      cases answer
      unfold headerSize at above
      exact ⟨by dsimp only; omega, le_refl _⟩

/-- A block that is returned has an address and the size asked for. -/
theorem respond_room {world : World Fixed} {call : Call} {layout : Layout}
    {block : Slice} {after : Fixed}
    (invariant : Invariant world) (permitted : Permitted world (.call call))
    (asks : requested call = some layout)
    (responds : fixedAllocator.respond world.state call =
      some (.ok block, after)) :
    block.ptr ≠ 0 ∧ layout.elemSize ≤ block.length := by
  cases call with
  | alloc other =>
      cases asks
      have answer : fixedAlloc world.state layout = (.ok block, after) :=
        Option.some.inj responds
      rcases fixedAlloc_cases layout permitted with
        ⟨error, failed⟩ | ⟨start, above, inside, nonempty, placed⟩
      · rw [failed] at answer
        cases answer
      · rw [placed] at answer
        cases answer
        unfold headerSize at above
        exact ⟨by dsimp only; omega, le_refl _⟩
  | grow old other =>
      cases asks
      exact (fixedGrow_resized invariant permitted.1 permitted.2).room
        invariant permitted.1 (Option.some.inj responds)
  | shrink old other =>
      cases asks
      exact (fixedShrink_resized invariant permitted.1 permitted.2.1
        permitted.2.2).room invariant permitted.1 (Option.some.inj responds)
  | free mem => cases asks
  | write block content => cases asks

/-- One permitted call serves the client. -/
theorem step_serves {world : World Fixed} {call : Call}
    (invariant : Invariant world) (permitted : Permitted world (.call call)) :
    Serves fixedAllocator world call := by
  apply (step_safe invariant permitted).serves
  · intro layout block after asks responds
    exact (respond_room invariant permitted asks responds).2
  · intro block after responds _
    rcases asks_of_respond responds with ⟨layout, asks⟩
    exact (respond_room invariant permitted asks responds).1

/-! ## Runs -/

/-- The states of all runs over one buffer. -/
abbrev Reached (buffer : Slice) (memory : Memory) : World Fixed → Prop :=
  Reachable (· = fixedCreate buffer memory) Permitted fixedStep

/-- What a client can rely on in a state. -/
structure Safe (world : World Fixed) : Prop where
  /-- The bump offset stays inside the buffer. -/
  used_le : world.state.used ≤ world.state.buffer.length
  /-- Live blocks, empty ones included, lie in the used part of the buffer. -/
  inside : ∀ block ∈ world.live,
    world.state.buffer.ptr ≤ block.ptr ∧
      block.finish ≤ world.state.buffer.ptr + world.state.used
  /-- No two live blocks overlap. -/
  disjoint : Disjoint world.live

theorem Invariant.safe {world : World Fixed}
    (invariant : Invariant world) : Safe world where
  used_le := invariant.used_le
  inside := by
    intro block member
    have extent := invariant.holds.extent member
    exact ⟨by omega, extent.2.2⟩
  disjoint := by
    refine invariant.holds.apart.imp_of_mem ?_
    intro left right leftMember rightMember separated
    have leftExtent := invariant.holds.extent leftMember
    have rightExtent := invariant.holds.extent rightMember
    simp only [Fixed.placement, Slice.finish] at separated
    unfold Apart
    omega

theorem create_invariant {buffer : Slice} (memory : Memory)
    (fits : buffer.finish < sizeLimit) :
    Invariant (fixedCreate buffer memory) where
  buffer_fits := fits
  used_le := Nat.zero_le _
  holds := Stacked.nil _ _ _ _

/--
In every run the fixed allocator keeps its blocks disjoint and inside the
used part of the buffer, and every permitted call in a reached state is safe:
it leaves the bytes and the headers of the other live blocks alone, carries
the common prefix of a resized block over, returns a block of the size that
was asked for, and changes nothing if it fails.
-/
theorem fixed_run_safe
    (buffer : Slice) (memory : Memory)
    (fits : buffer.finish < sizeLimit)
    (world : World Fixed) (reached : Reached buffer memory world) :
    Safe world ∧
      ∀ call, Permitted world (.call call) →
        StepSafe fixedAllocator headerSize Eq world call ∧
          Serves fixedAllocator world call := by
  have initially : ∀ start,
      start = fixedCreate buffer memory → Invariant start := by
    rintro start rfl
    exact create_invariant memory fits
  have invariant : Invariant world :=
    reached.invariant Invariant initially
      fun _ _ holds permitted => step_invariant holds permitted
  exact
    ⟨invariant.safe,
      fun call permitted =>
        ⟨step_safe invariant permitted, step_serves invariant permitted⟩⟩

/-- A run that allocates two blocks from a buffer of 64 bytes. -/
def twoBlocks : World Fixed :=
  fixedStep
    (fixedStep (fixedCreate ⟨4096, 64⟩ fun _ => 0)
      (.call (.alloc ⟨16, 8⟩)))
    (.call (.alloc ⟨5, 1⟩))

theorem fixed_run_safe_twoBlocks :
    Safe twoBlocks ∧
      ∀ call, Permitted twoBlocks (.call call) →
        StepSafe fixedAllocator headerSize Eq twoBlocks call ∧
          Serves fixedAllocator twoBlocks call := by
  apply fixed_run_safe ⟨4096, 64⟩ (fun _ => 0) (by decide)
  unfold twoBlocks
  refine Reachable.step (Reachable.step (Reachable.start rfl) ?_) ?_
  · unfold Permitted Fixed.SumsFit
    decide
  · unfold Permitted Fixed.SumsFit
    decide

end Libcute.Memory.FixedAllocator
