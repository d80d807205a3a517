import Libcute.Core.NoStd
import Libcute.Core.Size
import Libcute.Library.BumpRegions
import Libcute.Memory.BackingAllocator
import Libcute.Memory.Client

/-!
# The arena allocator

`arenaallocator.c` obtains chunks from a backing allocator and fills each
from its base.  In front of every block stands a header of two words, the
address of the owning chunk and the value of the chunk's `used` before the
block was placed.

Every chunk is one region of `BumpRegions`: the first header word is the
region of a block and the second one its mark.  `arena_run_safe` is the main
result, over every run and every behaviour of the backing allocator.
-/

namespace Libcute.Memory.ArenaAllocator

open Libcute.Core.Interface
open Libcute.Core.NoStd
open Libcute.Core.Size
open Libcute.Library.BumpRegions
open Libcute.Library.ByteMemory
open Libcute.Library.Transition
open Libcute.Memory.BackingAllocator
open Libcute.Memory.Client

/-- `struct cu_ArenaAllocator_Chunk` at address `addr`. -/
structure Chunk where
  addr : Nat
  size : Nat
  used : Nat
deriving DecidableEq, Repr

/-- `sizeof(struct cu_ArenaAllocator_Chunk)` -/
def chunkHeaderSize : Nat := 24

/-- `alignof(cu_max_align_t)` -/
def maxAlign : Nat := 16

/-- `CU_ARENA_CHUNK_SIZE` -/
def defaultChunkSize : Nat := 4096

/-- `chunk->data` -/
def dataOf (addr : Nat) : Nat := addr + chunkHeaderSize

/--
`cu_ArenaAllocator`.  The chunks are listed from `current` along the `prev`
links.
-/
structure Arena where
  backing : Backing
  chunks : List Chunk
  chunkSize : Nat

/-- `sizeof(struct cu_ArenaAllocator_Header)` -/
def headerSize : Nat := 16

/-- `hdr->chunk` of the header in front of the block at `ptr`. -/
def headerChunk (memory : Memory) (ptr : Nat) : Nat :=
  loadBytes memory (ptr - 16) 8

/-- `hdr->prev_offset` of the header in front of the block at `ptr`. -/
def headerPrevOffset (memory : Memory) (ptr : Nat) : Nat :=
  loadBytes memory (ptr - 8) 8

/-- The chunk named in the header in front of a block. -/
def Arena.homeOf (arena : Arena) (ptr : Nat) : Nat :=
  headerChunk arena.backing.memory ptr

/-- The chunk structure at an address. -/
def chunkAt (chunks : List Chunk) (addr : Nat) : Chunk :=
  (chunks.find? fun chunk => chunk.addr = addr).getD ⟨addr, 0, 0⟩

/-- `chunk->used = used` for the chunk at `addr`. -/
def setUsed (chunks : List Chunk) (addr used : Nat) : List Chunk :=
  chunks.map fun chunk =>
    if chunk.addr = addr then { chunk with used := used } else chunk

/-- `cu_arena_create_chunk` -/
def arenaCreateChunk (arena : Arena) (size : Nat) :
    Option Chunk × Arena :=
  let total := sizeAdd chunkHeaderSize size
  match arena.backing.alloc (Layout.create total maxAlign) with
  | (.error _, backing) => (none, { arena with backing })
  | (.ok block, backing) =>
      (some ⟨block.ptr, size, 0⟩, { arena with backing })

/-- The alignment a request is placed with. -/
def requestAlign (layout : Layout) : Nat :=
  if layout.alignment = 0 then 1 else layout.alignment

/-- The offset in a chunk at which a request would be placed. -/
def Chunk.startFor (chunk : Chunk) (layout : Layout) : Nat :=
  alignUp (sizeAdd chunk.used headerSize) (requestAlign layout)

/-- `needed` of `cu_arena_alloc` -/
def neededFor (layout : Layout) : Nat :=
  sizeAdd (sizeAdd (sizeSub (requestAlign layout) 1) layout.elemSize)
    headerSize

/-- The size of a chunk created for a request. -/
def Arena.newChunkSize (arena : Arena) (layout : Layout) : Nat :=
  max (neededFor layout)
    (if arena.chunkSize = 0 then defaultChunkSize else arena.chunkSize)

/-- The second half of `cu_arena_alloc`: put the block into `chunk`. -/
def Arena.place (arena : Arena) (chunk : Chunk) (start size : Nat) :
    Arena :=
  let header := dataOf chunk.addr + start - headerSize
  { arena with
    chunks := setUsed arena.chunks chunk.addr (sizeAdd start size)
    backing :=
      { arena.backing with
        memory :=
          storeBytes
            (storeBytes arena.backing.memory header chunk.addr 8)
            (header + 8) chunk.used 8 } }

/-- `cu_arena_alloc` -/
def arenaAlloc (arena : Arena) (layout : Layout) :
    Except IoError Slice × Arena :=
  if layout.elemSize = 0 then
    (.error .invalidInput, arena)
  else
    let size := layout.elemSize
    let target := arena.chunks.find? fun chunk =>
      sizeAdd (chunk.startFor layout) size ≤ chunk.size
    match target with
    | some chunk =>
        (.ok ⟨dataOf chunk.addr + chunk.startFor layout, size⟩,
          arena.place chunk (chunk.startFor layout) size)
    | none =>
        match arenaCreateChunk arena (arena.newChunkSize layout) with
        | (none, arena) => (.error .outOfMemory, arena)
        | (some chunk, arena) =>
            let arena := { arena with chunks := chunk :: arena.chunks }
            (.ok ⟨dataOf chunk.addr + chunk.startFor layout, size⟩,
              arena.place chunk (chunk.startFor layout) size)

/-- The block ends where the used part of its chunk ends. -/
def Arena.Topmost (arena : Arena) (mem : Slice) : Prop :=
  mem.finish =
    dataOf (arena.homeOf mem.ptr) +
      (chunkAt arena.chunks (arena.homeOf mem.ptr)).used

instance (arena : Arena) (mem : Slice) : Decidable (arena.Topmost mem) :=
  inferInstanceAs (Decidable (_ = _))

/-- `cu_arena_free` -/
def arenaFree (arena : Arena) (mem : Slice) : Arena :=
  if mem.ptr = 0 then
    arena
  else if arena.homeOf mem.ptr = 0 then
    arena
  else if ¬ arena.Topmost mem then
    arena
  else
    { arena with
      chunks :=
        setUsed arena.chunks (arena.homeOf mem.ptr)
          (headerPrevOffset arena.backing.memory mem.ptr) }

/-- The test of `cu_arena_grow` for growing without moving. -/
def Arena.GrowsInPlace (arena : Arena) (old : Slice) (layout : Layout) :
    Prop :=
  let chunk := chunkAt arena.chunks (arena.homeOf old.ptr)
  arena.Topmost old ∧
    layout.elemSize ≤
      sizeAdd old.length (sizeSub chunk.size chunk.used)

instance (arena : Arena) (old : Slice) (layout : Layout) :
    Decidable (arena.GrowsInPlace old layout) :=
  inferInstanceAs (Decidable (_ ∧ _))

/-- `chunk->used = start + new_layout.elem_size` -/
def Arena.resizeTop (arena : Arena) (old : Slice) (size : Nat) : Arena :=
  let home := arena.homeOf old.ptr
  { arena with
    chunks :=
      setUsed arena.chunks home (sizeAdd (old.ptr - dataOf home) size) }

/-- `cu_arena_grow` -/
def arenaGrow (arena : Arena) (old : Slice) (layout : Layout) :
    Except IoError Slice × Arena :=
  if old.ptr = 0 then
    arenaAlloc arena layout
  else if arena.homeOf old.ptr = 0 then
    (.error .invalidInput, arena)
  else if arena.GrowsInPlace old layout then
    (.ok ⟨old.ptr, layout.elemSize⟩, arena.resizeTop old layout.elemSize)
  else
    match arenaAlloc arena layout with
    | (.error error, arena) => (.error error, arena)
    | (.ok new, arena) =>
        let arena :=
          if 0 < old.length then
            { arena with
              backing :=
                { arena.backing with
                  memory := smemcpy arena.backing.memory new old } }
          else
            arena
        (.ok new, arenaFree arena old)

/-- `cu_arena_shrink` -/
def arenaShrink (arena : Arena) (old : Slice) (layout : Layout) :
    Except IoError Slice × Arena :=
  if old.ptr = 0 then
    (.error .invalidInput, arena)
  else if arena.homeOf old.ptr = 0 then
    (.error .invalidInput, arena)
  else
    let arena :=
      if arena.Topmost old then
        arena.resizeTop old layout.elemSize
      else
        arena
    if layout.elemSize = 0 then
      (.ok ⟨0, 0⟩, arenaFree arena old)
    else
      (.ok ⟨old.ptr, layout.elemSize⟩, arena)

/-- The callbacks of `cu_Allocator_ArenaAllocator`. -/
def arenaAllocator : Allocator Arena where
  allocFn := arenaAlloc
  growFn := arenaGrow
  shrinkFn := arenaShrink
  freeFn := arenaFree
  memory arena := arena.backing.memory
  setMemory arena memory :=
    { arena with backing := { arena.backing with memory } }

/-- `cu_Allocator_ArenaAllocator`: an arena without chunks. -/
def arenaCreate (backing : Backing) (chunkSize : Nat) : World Arena :=
  ⟨⟨backing, [],
    if chunkSize = 0 then defaultChunkSize else chunkSize⟩, []⟩

/--
No sum that `cu_arena_alloc` computes for the request wraps; an empty
request is refused before any sum.
-/
def Arena.SumsFit (arena : Arena) (layout : Layout) : Prop :=
  layout.elemSize ≠ 0 →
    requestAlign layout - 1 + layout.elemSize + headerSize < sizeLimit ∧
    chunkHeaderSize + arena.newChunkSize layout < sizeLimit ∧
    ∀ chunk ∈ arena.chunks,
      chunk.used + headerSize + (requestAlign layout - 1) < sizeLimit ∧
        chunk.startFor layout + layout.elemSize < sizeLimit

/--
A well-behaved client only touches live blocks, shrinks to at most the
current length, and makes no request whose size sums wrap.
-/
def Permitted (world : World Arena) : Call → Prop
  | .alloc layout => world.state.SumsFit layout
  | .grow old layout =>
      old ∈ world.live ∧
        (¬ world.state.GrowsInPlace old layout →
          world.state.SumsFit layout)
  | .shrink old layout =>
      old ∈ world.live ∧ layout.elemSize ≤ old.length
  | .free mem => mem ∈ world.live
  | .write block _ => block ∈ world.live

/-! ## Chunks -/

/-- The bytes of a chunk structure and of its data. -/
def Chunk.extent (chunk : Chunk) : Nat := chunkHeaderSize + chunk.size

/--
The chunks are disjoint, each lies in a block of the backing allocator, and
none is filled beyond its size.
-/
structure ChunksOk (arena : Arena) : Prop where
  apart : arena.chunks.Pairwise fun left right =>
    Apart left.addr left.extent right.addr right.extent
  owned : ∀ chunk ∈ arena.chunks, ∃ block ∈ arena.backing.blocks,
    block.ptr = chunk.addr ∧ chunk.extent ≤ block.length
  valid : ∀ chunk ∈ arena.chunks,
    chunk.addr ≠ 0 ∧ chunk.addr + chunk.extent < sizeLimit
  used_le : ∀ chunk ∈ arena.chunks, chunk.used ≤ chunk.size

variable {arena : Arena} {live : List Slice} {block : Slice}
  {chunk other : Chunk} {layout : Layout}

theorem ChunksOk.apart_of_ne
    (ok : ChunksOk arena)
    (member : chunk ∈ arena.chunks) (otherMember : other ∈ arena.chunks)
    (different : chunk.addr ≠ other.addr) :
    Apart chunk.addr chunk.extent other.addr other.extent := by
  have symmetric : Std.Symm fun left right : Chunk =>
      Apart left.addr left.extent right.addr right.extent :=
    ⟨fun _ _ => Apart.symm⟩
  exact ok.apart.forall member otherMember
    fun equal => different (congrArg Chunk.addr equal)

/-- Chunks are identified by their addresses. -/
theorem ChunksOk.eq_of_addr
    (ok : ChunksOk arena)
    (member : chunk ∈ arena.chunks) (otherMember : other ∈ arena.chunks)
    (same : chunk.addr = other.addr) :
    chunk = other := by
  by_contra different
  have symmetric : Std.Symm fun left right : Chunk =>
      Apart left.addr left.extent right.addr right.extent :=
    ⟨fun _ _ => Apart.symm⟩
  have separated := ok.apart.forall member otherMember different
  unfold Apart Chunk.extent chunkHeaderSize at separated
  omega

theorem ChunksOk.chunkAt_eq
    (ok : ChunksOk arena) (member : chunk ∈ arena.chunks) :
    chunkAt arena.chunks chunk.addr = chunk := by
  unfold chunkAt
  cases found :
      arena.chunks.find? fun other => other.addr = chunk.addr with
  | none =>
      have missing := List.find?_eq_none.mp found chunk member
      simp at missing
  | some other =>
      have sameAddr := List.find?_some found
      have otherMember := List.mem_of_find?_eq_some found
      simp only [decide_eq_true_eq] at sameAddr
      exact ok.eq_of_addr otherMember member sameAddr

theorem mem_setUsed {chunks : List Chunk} {addr used : Nat} :
    chunk ∈ setUsed chunks addr used ↔
      ∃ old ∈ chunks,
        (if old.addr = addr then { old with used := used } else old) =
          chunk := by
  simp [setUsed]

/-- Moving the top of one chunk. -/
theorem chunkAt_setUsed_used
    {chunks : List Chunk} {addr : Nat} (used : Nat)
    (exists_ : ∃ chunk ∈ chunks, chunk.addr = addr) :
    (chunkAt (setUsed chunks addr used) addr).used = used := by
  rcases exists_ with ⟨chunk, member, same⟩
  unfold chunkAt setUsed
  rw [List.find?_map]
  cases found : chunks.find? ((fun chunk => decide (chunk.addr = addr)) ∘
      fun chunk =>
        if chunk.addr = addr then { chunk with used := used } else chunk)
    with
  | none =>
      have missing := List.find?_eq_none.mp found chunk member
      simp [same] at missing
  | some other =>
      have sameAddr := List.find?_some found
      have otherAddr : other.addr = addr := by
        by_contra different
        simp [different] at sameAddr
      simp [otherAddr]

theorem chunkAt_setUsed_of_ne
    {chunks : List Chunk} {addr region : Nat} (used : Nat)
    (different : region ≠ addr) :
    (chunkAt (setUsed chunks addr used) region).used =
      (chunkAt chunks region).used := by
  unfold chunkAt setUsed
  rw [List.find?_map]
  have sameTest :
      ((fun chunk : Chunk => decide (chunk.addr = region)) ∘
        fun chunk =>
          if chunk.addr = addr then { chunk with used := used }
          else chunk) =
        fun chunk => decide (chunk.addr = region) := by
    funext chunk
    by_cases same : chunk.addr = addr <;> simp [same]
  rw [sameTest]
  cases found :
      chunks.find? fun chunk => decide (chunk.addr = region) with
  | none => rfl
  | some other =>
      have sameAddr := List.find?_some found
      simp only [decide_eq_true_eq] at sameAddr
      have otherAddr : other.addr ≠ addr := by
        rw [sameAddr]
        exact different
      simp [otherAddr]

/-- The top of a chunk may move anywhere inside it. -/
theorem ChunksOk.retop
    (ok : ChunksOk arena) (member : chunk ∈ arena.chunks) {used : Nat}
    (fits : used ≤ chunk.size) :
    ChunksOk
      { arena with chunks := setUsed arena.chunks chunk.addr used } := by
  have sameAddr : ∀ old : Chunk,
      (if old.addr = chunk.addr then { old with used := used }
        else old).addr = old.addr := by
    intro old
    split_ifs <;> rfl
  have sameExtent : ∀ old : Chunk,
      (if old.addr = chunk.addr then { old with used := used }
        else old).extent = old.extent := by
    intro old
    split_ifs <;> rfl
  constructor
  · refine List.pairwise_map.mpr (ok.apart.imp ?_)
    intro left right separated
    rwa [sameAddr, sameAddr, sameExtent, sameExtent]
  · intro moved movedMember
    rcases mem_setUsed.mp movedMember with ⟨old, oldMember, rfl⟩
    rw [sameAddr, sameExtent]
    exact ok.owned old oldMember
  · intro moved movedMember
    rcases mem_setUsed.mp movedMember with ⟨old, oldMember, rfl⟩
    rw [sameAddr, sameExtent]
    exact ok.valid old oldMember
  · intro moved movedMember
    rcases mem_setUsed.mp movedMember with ⟨old, oldMember, rfl⟩
    by_cases same : old.addr = chunk.addr
    · have equal := ok.eq_of_addr oldMember member same
      subst equal
      simpa using fits
    · simpa only [same, if_false] using ok.used_le old oldMember

/-! ## The invariant -/

/-- A block belongs to the chunk and the mark its header names. -/
def placementIn (memory : Memory) : Placement Nat Slice where
  home block := headerChunk memory block.ptr
  mark block :=
    dataOf (headerChunk memory block.ptr) +
      headerPrevOffset memory block.ptr
  start := Slice.ptr
  finish := Slice.finish

/-- The address up to which a chunk is filled. -/
def topIn (chunks : List Chunk) (addr : Nat) : Nat :=
  dataOf addr + (chunkAt chunks addr).used

/-- The live blocks are stacked in the chunks their headers name. -/
structure Holds (arena : Arena) (live : List Slice) : Prop where
  homed : ∀ block ∈ live, ∃ chunk ∈ arena.chunks,
    chunk.addr = arena.homeOf block.ptr
  stacked :
    Stacked (placementIn arena.backing.memory) headerSize dataOf
      (topIn arena.chunks) live

structure Invariant (world : World Arena) : Prop where
  chunks : ChunksOk world.state
  holds : Holds world.state world.live

/-- Where a held block lies in its chunk. -/
theorem Holds.extent
    (holds : Holds arena live) (ok : ChunksOk arena)
    (member : block ∈ live) :
    ∃ chunk ∈ arena.chunks, chunk.addr = arena.homeOf block.ptr ∧
      dataOf chunk.addr +
          headerPrevOffset arena.backing.memory block.ptr + headerSize ≤
        block.ptr ∧
      block.finish ≤ dataOf chunk.addr + chunk.used := by
  rcases holds.homed block member with ⟨chunk, chunkMember, home⟩
  have low := holds.stacked.header_fits block member
  have top := holds.stacked.finish_le_top block member
  simp only [placementIn, topIn] at low top
  unfold Arena.homeOf at home
  rw [← home, ok.chunkAt_eq chunkMember] at top
  rw [← home] at low
  exact ⟨chunk, chunkMember, home, low, top⟩

theorem Holds.sublist {fewer : List Slice}
    (holds : Holds arena live) (included : fewer.Sublist live) :
    Holds arena fewer where
  homed := fun block member =>
    holds.homed block (included.subset member)
  stacked := holds.stacked.sublist included

/-- The bytes of a header and of its block, as one range. -/
def WithHeader (before after : Memory) (block : Slice) : Prop :=
  SameBytes before after (block.ptr - headerSize)
    (headerSize + block.length)

/-- The bytes of the header of a block. -/
def SameHeader (before after : Memory) (block : Slice) : Prop :=
  SameBytes before after (block.ptr - headerSize) headerSize

theorem WithHeader.header {before after : Memory}
    (same : WithHeader before after block) :
    SameHeader before after block :=
  SameBytes.inside same (Nat.le_refl _) (by omega)

theorem SameHeader.chunk_eq {before after : Memory}
    (same : SameHeader before after block) :
    headerChunk after block.ptr = headerChunk before block.ptr :=
  loadBytes_congr
    (SameBytes.inside same (Nat.le_refl _)
      (by unfold headerSize; omega))

theorem SameHeader.prevOffset_eq {before after : Memory}
    (large : headerSize ≤ block.ptr)
    (same : SameHeader before after block) :
    headerPrevOffset after block.ptr =
      headerPrevOffset before block.ptr :=
  loadBytes_congr
    (SameBytes.inside same
      (by unfold headerSize; omega)
      (by unfold headerSize at *; omega))

/-- The invariant only depends on the headers and the tops of the blocks. -/
theorem Holds.congr
    {after : Arena}
    (holds : Holds arena live) (ok : ChunksOk arena)
    (chunks : ∀ chunk ∈ arena.chunks,
      chunk ∈ after.chunks ∧
        chunkAt after.chunks chunk.addr = chunk)
    (headers : ∀ block ∈ live,
      SameHeader arena.backing.memory after.backing.memory block) :
    Holds after live := by
  have large : ∀ block ∈ live, headerSize ≤ block.ptr := by
    intro block member
    rcases holds.extent ok member with ⟨chunk, _, _, low, _⟩
    omega
  constructor
  · intro block member
    rcases holds.homed block member with ⟨chunk, chunkMember, home⟩
    refine ⟨chunk, (chunks chunk chunkMember).1, home.trans ?_⟩
    exact (headers block member).chunk_eq.symm
  · have moved :
        Stacked (placementIn after.backing.memory) headerSize dataOf
          (topIn arena.chunks) live := by
      apply holds.stacked.congr
      · intro block member
        exact (headers block member).chunk_eq
      · intro block member
        simp only [placementIn, (headers block member).chunk_eq,
          (headers block member).prevOffset_eq (large block member)]
      · intro block member
        rfl
      · intro block member
        rfl
    apply moved.retop
    intro block member
    rcases holds.extent ok member with
      ⟨chunk, chunkMember, home, low, top⟩
    have same : headerChunk after.backing.memory block.ptr =
        chunk.addr :=
      (headers block member).chunk_eq.trans home.symm
    simp only [placementIn, topIn, same, (chunks chunk chunkMember).2]
    exact top

/-- A range above the top of a chunk is apart from every held block. -/
theorem Holds.apart_unused
    (holds : Holds arena live) (ok : ChunksOk arena)
    (member : block ∈ live) (chunkMember : chunk ∈ arena.chunks)
    {address length : Nat}
    (above : dataOf chunk.addr + chunk.used ≤ address)
    (inside : address + length ≤ dataOf chunk.addr + chunk.size) :
    Apart address length
      (block.ptr - headerSize) (headerSize + block.length) := by
  rcases holds.extent ok member with ⟨home, homeMember, _, low, top⟩
  by_cases same : home.addr = chunk.addr
  · have equal := ok.eq_of_addr homeMember chunkMember same
    subst equal
    unfold Apart Slice.finish dataOf headerSize at *
    omega
  · have separated := ok.apart_of_ne homeMember chunkMember same
    have used := ok.used_le home homeMember
    unfold Apart Chunk.extent Slice.finish dataOf headerSize at *
    omega

/-- Two live blocks are separated by the header of the upper one. -/
theorem Holds.apart_header
    {neighbour : Slice}
    (holds : Holds arena live) (ok : ChunksOk arena)
    (member : block ∈ live) (neighbourMember : neighbour ∈ live)
    (different : block ≠ neighbour) :
    Apart block.ptr block.length
      (neighbour.ptr - headerSize) (headerSize + neighbour.length) := by
  rcases holds.extent ok member with ⟨_, _, home, low, _⟩
  rcases holds.extent ok neighbourMember with ⟨_, _, home', low', _⟩
  have separated :=
    holds.stacked.apart_of_ne member neighbourMember different
  simp only [placementIn] at separated
  unfold Arena.homeOf at home home'
  rw [← home, ← home'] at separated
  unfold Apart Slice.finish headerSize at *
  omega

/-- The live blocks and their headers lie in blocks of the backing allocator. -/
theorem Holds.inChunk
    (holds : Holds arena live) (ok : ChunksOk arena)
    (member : block ∈ live) :
    ∃ chunk ∈ arena.chunks,
      chunk.addr ≤ block.ptr - headerSize ∧
        block.ptr - headerSize + (headerSize + block.length) ≤
          chunk.addr + chunk.extent := by
  rcases holds.extent ok member with ⟨chunk, chunkMember, _, low, top⟩
  have used := ok.used_le chunk chunkMember
  refine ⟨chunk, chunkMember, ?_⟩
  unfold Chunk.extent Slice.finish dataOf headerSize at *
  omega

/-! ## Allocation -/

section Place

variable {start size : Nat}

/-- The header of a new block names its chunk, wherever the block starts. -/
theorem place_homeOf
    (arena : Arena) (addrFits : chunk.addr < sizeLimit)
    (start size : Nat) :
    (arena.place chunk start size).homeOf (dataOf chunk.addr + start) =
      chunk.addr := by
  have second : Apart (dataOf chunk.addr + start - headerSize + 8) 8
      (dataOf chunk.addr + start - 16) 8 := by
    unfold Apart headerSize
    omega
  unfold Arena.homeOf headerChunk Arena.place
  dsimp only
  rw [loadBytes_storeBytes_of_apart _ _ second]
  exact loadBytes_storeBytes_of_lt _ _ addrFits

theorem place_headers
    (arena : Arena)
    (above : chunk.used + headerSize ≤ start)
    (addrFits : chunk.addr < sizeLimit) (usedFits : chunk.used < sizeLimit)
    (size : Nat) :
    headerChunk (arena.place chunk start size).backing.memory
        (dataOf chunk.addr + start) = chunk.addr ∧
      headerPrevOffset (arena.place chunk start size).backing.memory
        (dataOf chunk.addr + start) = chunk.used := by
  have second : dataOf chunk.addr + start - 8 =
      dataOf chunk.addr + start - headerSize + 8 := by
    unfold headerSize at *
    omega
  constructor
  · exact place_homeOf arena addrFits start size
  · unfold headerPrevOffset Arena.place
    dsimp only
    rw [second]
    exact loadBytes_storeBytes_of_lt _ _ usedFits

/-- A placement writes only the header in front of the new block. -/
theorem place_sameBytes {address length : Nat}
    (arena : Arena) (size : Nat)
    (apart : Apart (dataOf chunk.addr + start - headerSize) headerSize
      address length) :
    SameBytes arena.backing.memory
      (arena.place chunk start size).backing.memory address length := by
  have first : SameBytes arena.backing.memory
      (storeBytes arena.backing.memory
        (dataOf chunk.addr + start - headerSize) chunk.addr 8)
      address length := by
    apply storeBytes_sameBytes
    unfold Apart headerSize at *
    omega
  apply first.trans
  apply storeBytes_sameBytes
  unfold Apart headerSize at *
  omega

theorem Holds.place_withHeader
    (holds : Holds arena live) (ok : ChunksOk arena)
    (member : block ∈ live) (chunkMember : chunk ∈ arena.chunks)
    (above : chunk.used + headerSize ≤ start)
    (inside : start + size ≤ chunk.size) :
    WithHeader arena.backing.memory
      (arena.place chunk start size).backing.memory block := by
  apply place_sameBytes
  apply holds.apart_unused ok member chunkMember
  · unfold headerSize at *
    omega
  · unfold headerSize at *
    omega

theorem ChunksOk.place
    (ok : ChunksOk arena) (chunkMember : chunk ∈ arena.chunks)
    (inside : start + size ≤ chunk.size) :
    ChunksOk (arena.place chunk start size) := by
  have fits := ok.valid chunk chunkMember
  have moved : ChunksOk
      { arena with
        chunks :=
          setUsed arena.chunks chunk.addr (sizeAdd start size) } := by
    apply ok.retop chunkMember
    rw [sizeAdd_eq (by unfold Chunk.extent at fits; omega)]
    exact inside
  exact ⟨moved.apart, moved.owned, moved.valid, moved.used_le⟩

/-- The new block is stacked on the blocks of its chunk. -/
theorem Holds.place
    (holds : Holds arena live) (ok : ChunksOk arena)
    (chunkMember : chunk ∈ arena.chunks)
    (above : chunk.used + headerSize ≤ start)
    (inside : start + size ≤ chunk.size) :
    Holds (arena.place chunk start size)
      (⟨dataOf chunk.addr + start, size⟩ :: live) := by
  have fits := ok.valid chunk chunkMember
  have used := ok.used_le chunk chunkMember
  rcases place_headers arena above
      (by omega) (by unfold Chunk.extent at fits; omega) size with
    ⟨home, mark⟩
  have headers : ∀ block ∈ live,
      SameHeader arena.backing.memory
        (arena.place chunk start size).backing.memory block :=
    fun block member =>
      (holds.place_withHeader ok member chunkMember above inside).header
  have kept : Holds
      { arena with
        backing := (arena.place chunk start size).backing } live := by
    apply holds.congr ok
    · intro old oldMember
      exact ⟨oldMember, ok.chunkAt_eq oldMember⟩
    · exact headers
  constructor
  · intro block member
    rcases List.mem_cons.mp member with rfl | member
    · refine ⟨{ chunk with used := sizeAdd start size }, ?_, ?_⟩
      · exact mem_setUsed.mpr ⟨chunk, chunkMember, by simp⟩
      · exact home.symm
    · rcases kept.homed block member with ⟨old, oldMember, oldHome⟩
      refine ⟨_, mem_setUsed.mpr ⟨old, oldMember, rfl⟩, ?_⟩
      split_ifs
      · exact oldHome
      · exact oldHome
  · apply kept.stacked.push
    · exact Nat.le_add_right _ _
    · simp only [placementIn, topIn, home, mark, ok.chunkAt_eq chunkMember]
    · simp only [placementIn, home, mark]
      omega
    · exact Nat.le_add_right _ _
    · simp only [placementIn, topIn, home, Slice.finish]
      have top := chunkAt_setUsed_used (sizeAdd start size)
        ⟨chunk, chunkMember, rfl⟩
      unfold Arena.place
      dsimp only
      rw [top, sizeAdd_eq (by unfold Chunk.extent at fits; omega)]
      omega
    · intro region different
      simp only [placementIn, home] at different
      unfold topIn Arena.place
      dsimp only
      rw [chunkAt_setUsed_of_ne _ different]
    · intro neighbour member different
      simp only [placementIn, home] at different
      rcases holds.extent ok member with
        ⟨homeChunk, homeMember, neighbourHome, low, top⟩
      have sameHeader := (headers neighbour member).chunk_eq
      have large : headerSize ≤ neighbour.ptr := by omega
      have sameMark :=
        (headers neighbour member).prevOffset_eq large
      unfold Arena.homeOf at neighbourHome
      rw [sameHeader, ← neighbourHome] at different
      have separated :=
        ok.apart_of_ne homeMember chunkMember different
      have neighbourUsed := ok.used_le homeChunk homeMember
      simp only [placementIn, home, mark, sameHeader, sameMark,
        ← neighbourHome, Slice.finish]
      unfold Apart Chunk.extent Slice.finish dataOf headerSize at *
      omega

end Place

/--
The same arena, possibly with another chunk, after a call of the backing
allocator.
-/
structure Extended (before after : Arena) : Prop where
  chunks : before.chunks ⊆ after.chunks
  same : ∀ chunk ∈ before.chunks, ∀ address length,
    chunk.addr ≤ address →
      address + length ≤ chunk.addr + chunk.extent →
        SameBytes before.backing.memory after.backing.memory
          address length
  created : ∀ chunk ∈ after.chunks,
    chunk ∈ before.chunks ∨ chunk.used = 0

theorem Extended.refl (arena : Arena) : Extended arena arena where
  chunks := List.Subset.refl _
  created := fun _ member => .inl member
  same := fun _ _ _ _ _ _ => SameBytes.refl _ _ _

theorem Extended.withHeader {after : Arena}
    (extended : Extended arena after)
    (holds : Holds arena live) (ok : ChunksOk arena)
    (member : block ∈ live) :
    WithHeader arena.backing.memory after.backing.memory block := by
  rcases holds.inChunk ok member with ⟨chunk, chunkMember, low, high⟩
  exact extended.same chunk chunkMember _ _ low high

theorem Extended.holds {after : Arena}
    (extended : Extended arena after)
    (holds : Holds arena live) (ok : ChunksOk arena)
    (afterOk : ChunksOk after) :
    Holds after live := by
  apply holds.congr ok
  · intro chunk member
    exact ⟨extended.chunks member,
      afterOk.chunkAt_eq (extended.chunks member)⟩
  · exact fun block member =>
      (extended.withHeader holds ok member).header

/-- Everything but the record of calls of the backing allocator is the same. -/
structure SameArena (before after : Arena) : Prop where
  chunks : after.chunks = before.chunks
  chunkSize : after.chunkSize = before.chunkSize
  blocks : after.backing.blocks = before.backing.blocks
  memory : after.backing.memory = before.backing.memory

theorem SameArena.refl (arena : Arena) : SameArena arena arena :=
  ⟨rfl, rfl, rfl, rfl⟩

theorem SameArena.invariant {after : Arena}
    (same : SameArena arena after)
    (invariant : Invariant ⟨arena, live⟩) :
    Invariant ⟨after, live⟩ := by
  rcases invariant with ⟨⟨apart, owned, valid, used⟩, homed, stacked⟩
  refine ⟨⟨?_, ?_, ?_, ?_⟩, ?_, ?_⟩
  · simpa only [same.chunks] using apart
  · simpa only [same.chunks, same.blocks] using owned
  · simpa only [same.chunks] using valid
  · simpa only [same.chunks] using used
  · simpa only [same.chunks, Arena.homeOf, same.memory] using homed
  · simpa only [same.chunks, same.memory] using stacked

/-- `cu_arena_create_chunk` fails, or returns a fresh empty chunk. -/
theorem arenaCreateChunk_cases
    (ok : ChunksOk arena) {size : Nat}
    (fits : chunkHeaderSize + size < sizeLimit) :
    (∃ after, arenaCreateChunk arena size = (none, after) ∧
      SameArena arena after) ∨
    ∃ chunk after, arenaCreateChunk arena size = (some chunk, after) ∧
      chunk.used = 0 ∧ chunk.size = size ∧
      ChunksOk { after with chunks := chunk :: after.chunks } ∧
      Extended arena { after with chunks := chunk :: after.chunks } := by
  have request : Layout.create (sizeAdd chunkHeaderSize size) maxAlign =
      ⟨chunkHeaderSize + size, maxAlign⟩ := by
    rw [sizeAdd_eq fits]
    apply Layout.create_of_pos
    · unfold chunkHeaderSize
      omega
    · decide
  simp only [arenaCreateChunk, request]
  rcases arena.backing.alloc_cases ⟨chunkHeaderSize + size, maxAlign⟩ with
    ⟨error, after, answer, blocks, memory⟩ |
    ⟨block, after, answer, valid, large, bounded, separate, blocks, kept⟩
  · left
    simp only [answer]
    exact ⟨_, rfl, rfl, rfl, blocks, memory⟩
  · right
    simp only [answer]
    simp only at large
    have long : block.length ≤ span block.length :=
      Nat.le_max_right 1 block.length
    refine ⟨_, _, rfl, rfl, rfl, ?_, ?_⟩
    · constructor
      · refine List.pairwise_cons.mpr ⟨?_, ok.apart⟩
        intro old oldMember
        rcases ok.owned old oldMember with
          ⟨home, homeMember, homeAddr, homeLarge⟩
        have homeLong : home.length ≤ span home.length :=
          Nat.le_max_right 1 home.length
        have separated := separate home homeMember
        apply separated.inside
        · exact Nat.le_refl _
        · unfold Chunk.extent
          dsimp only
          omega
        · exact homeAddr.le
        · omega
      · intro chunk chunkMember
        simp only [blocks]
        rcases List.mem_cons.mp chunkMember with rfl | old
        · exact ⟨block, List.mem_cons_self, rfl, large⟩
        · rcases ok.owned chunk old with ⟨home, homeMember, facts⟩
          exact ⟨home, List.mem_cons_of_mem _ homeMember, facts⟩
      · intro chunk chunkMember
        rcases List.mem_cons.mp chunkMember with rfl | old
        · refine ⟨valid, ?_⟩
          unfold Chunk.extent
          dsimp only
          omega
        · exact ok.valid chunk old
      · intro chunk chunkMember
        rcases List.mem_cons.mp chunkMember with rfl | old
        · exact Nat.zero_le _
        · exact ok.used_le chunk old
    · constructor
      · exact List.subset_cons_self _ _
      · intro chunk chunkMember address length low high
        rcases ok.owned chunk chunkMember with
          ⟨home, homeMember, homeAddr, homeLarge⟩
        apply kept home homeMember
        · omega
        · unfold Slice.finish
          omega
      · intro chunk chunkMember
        rcases List.mem_cons.mp chunkMember with rfl | old
        · exact .inr rfl
        · exact .inl old

/-- The offset chosen in a chunk leaves room for the header. -/
theorem startFor_bounds
    (fits : chunk.used + headerSize + (requestAlign layout - 1) <
      sizeLimit) :
    chunk.used + headerSize ≤ chunk.startFor layout ∧
      chunk.startFor layout ≤
        chunk.used + headerSize + (requestAlign layout - 1) := by
  have positive : 0 < requestAlign layout := by
    unfold requestAlign
    split_ifs <;> omega
  have header : sizeAdd chunk.used headerSize = chunk.used + headerSize :=
    sizeAdd_eq (by omega)
  unfold Chunk.startFor
  rw [header]
  exact alignUp_bounds positive fits

/--
What `cu_arena_alloc` does: it fails without any effect, or it places the
block in a chunk, which may have been created for it.
-/
theorem arenaAlloc_cases
    (ok : ChunksOk arena) (fits : arena.SumsFit layout) :
    (∃ error after, arenaAlloc arena layout = (.error error, after) ∧
      SameArena arena after) ∨
    ∃ target chunk,
      ChunksOk target ∧ Extended arena target ∧
      chunk ∈ target.chunks ∧
      chunk.used + headerSize ≤ chunk.startFor layout ∧
      chunk.startFor layout + layout.elemSize ≤ chunk.size ∧
      layout.elemSize ≠ 0 ∧
      arenaAlloc arena layout =
        (.ok ⟨dataOf chunk.addr + chunk.startFor layout, layout.elemSize⟩,
          target.place chunk (chunk.startFor layout)
            layout.elemSize) := by
  by_cases empty : layout.elemSize = 0
  · left
    exact
      ⟨.invalidInput, arena, by simp [arenaAlloc, empty],
        SameArena.refl arena⟩
  · rcases fits empty with ⟨neededFits, totalFits, chunkFits⟩
    cases found : arena.chunks.find? fun chunk =>
        sizeAdd (chunk.startFor layout) layout.elemSize ≤ chunk.size with
    | some chunk =>
        right
        have member := List.mem_of_find?_eq_some found
        have room := List.find?_some found
        rcases chunkFits chunk member with ⟨startFits, endFits⟩
        rw [sizeAdd_eq endFits, decide_eq_true_eq] at room
        refine
          ⟨arena, chunk, ok, Extended.refl arena, member,
            (startFor_bounds startFits).1, room, empty, ?_⟩
        simp [arenaAlloc, empty, found]
    | none =>
        have needed : neededFor layout =
            requestAlign layout - 1 + layout.elemSize + headerSize := by
          have positive : 1 ≤ requestAlign layout := by
            unfold requestAlign
            split_ifs <;> omega
          have padded :
              requestAlign layout - 1 + layout.elemSize < sizeLimit := by
            omega
          unfold neededFor
          rw [sizeSub_eq positive (by omega), sizeAdd_eq padded,
            sizeAdd_eq neededFits]
        rcases arenaCreateChunk_cases ok totalFits with
          ⟨after, failed, same⟩ |
          ⟨chunk, after, created, unused, size, afterOk, extended⟩
        · left
          exact
            ⟨.outOfMemory, after, by simp [arenaAlloc, empty, found, failed],
              same⟩
        · right
          have startFits :
              chunk.used + headerSize + (requestAlign layout - 1) <
                sizeLimit := by
            omega
          have bounds := startFor_bounds startFits
          have large : neededFor layout ≤ chunk.size := by
            rw [size]
            exact Nat.le_max_left _ _
          refine
            ⟨_, chunk, afterOk, extended, List.mem_cons_self, bounds.1,
              by omega, empty, ?_⟩
          simp [arenaAlloc, empty, found, created]

/-! ## Moving the top of a chunk -/

theorem topIn_setUsed
    (chunkMember : chunk ∈ arena.chunks) (used : Nat) :
    topIn (setUsed arena.chunks chunk.addr used) chunk.addr =
      dataOf chunk.addr + used := by
  unfold topIn
  rw [chunkAt_setUsed_used used ⟨chunk, chunkMember, rfl⟩]

theorem topIn_setUsed_of_ne {region : Nat} (used : Nat)
    (different : region ≠ chunk.addr) :
    topIn (setUsed arena.chunks chunk.addr used) region =
      topIn arena.chunks region := by
  unfold topIn
  rw [chunkAt_setUsed_of_ne used different]

/-- Blocks stay at home when the top of a chunk moves. -/
theorem homed_setUsed {addr used : Nat}
    (homed : ∀ block ∈ live, ∃ chunk ∈ arena.chunks,
      chunk.addr = arena.homeOf block.ptr) :
    ∀ block ∈ live, ∃ chunk ∈ setUsed arena.chunks addr used,
      chunk.addr = arena.homeOf block.ptr := by
  intro block member
  rcases homed block member with ⟨chunk, chunkMember, home⟩
  refine ⟨_, mem_setUsed.mpr ⟨chunk, chunkMember, rfl⟩, ?_⟩
  split_ifs
  · exact home
  · exact home

/-- Releasing a live block keeps the others stacked. -/
theorem arenaFree_holds
    (holds : Holds arena live) (ok : ChunksOk arena)
    (member : block ∈ live) :
    ChunksOk (arenaFree arena block) ∧
      Holds (arenaFree arena block) (live.erase block) ∧
      (arenaFree arena block).backing = arena.backing := by
  rcases holds.extent ok member with
    ⟨chunk, chunkMember, home, low, top⟩
  have used := ok.used_le chunk chunkMember
  have valid : block.ptr ≠ 0 := by
    unfold headerSize at low
    omega
  have homeValid : arena.homeOf block.ptr ≠ 0 := by
    rw [← home]
    exact (ok.valid chunk chunkMember).1
  have remaining : ∀ other ∈ live.erase block,
      ∃ chunk ∈ arena.chunks, chunk.addr = arena.homeOf other.ptr :=
    fun other otherMember =>
      holds.homed other (List.mem_of_mem_erase otherMember)
  by_cases topmost : arena.Topmost block
  · have released : arenaFree arena block =
        { arena with
          chunks :=
            setUsed arena.chunks chunk.addr
              (headerPrevOffset arena.backing.memory block.ptr) } := by
      simp only [arenaFree, valid, homeValid, topmost, if_false,
        not_true_eq_false, home]
    have first := holds.stacked.perm (perm_release member)
    rw [released]
    refine ⟨?_, ⟨homed_setUsed remaining, ?_⟩, rfl⟩
    · apply ok.retop chunkMember
      unfold Slice.finish headerSize at *
      have extent := holds.stacked.start_le_finish block member
      simp only [placementIn, Slice.finish] at extent
      omega
    · have sameHome :
          (placementIn arena.backing.memory).home block = chunk.addr :=
        home.symm
      apply first.rewind (by decide) topmost
      · rw [sameHome, topIn_setUsed chunkMember]
        simp only [placementIn]
        rw [home]
        rfl
      · intro region different
        rw [sameHome] at different
        exact topIn_setUsed_of_ne _ different
  · have ignored : arenaFree arena block = arena := by
      simp [arenaFree, topmost]
    rw [ignored]
    exact
      ⟨ok, ⟨remaining, holds.stacked.sublist List.erase_sublist⟩, rfl⟩

/-- Resizing the topmost block puts the top of its chunk behind it. -/
theorem resizeTop_eq {size : Nat}
    (ok : ChunksOk arena)
    (chunkMember : chunk ∈ arena.chunks)
    (home : chunk.addr = arena.homeOf block.ptr)
    (room : block.ptr + size ≤ dataOf chunk.addr + chunk.size) :
    arena.resizeTop block size =
      { arena with
        chunks :=
          setUsed arena.chunks chunk.addr
            (block.ptr - dataOf chunk.addr + size) } := by
  have valid := ok.valid chunk chunkMember
  have offset : sizeAdd (block.ptr - dataOf chunk.addr) size =
      block.ptr - dataOf chunk.addr + size := by
    apply sizeAdd_eq
    unfold Chunk.extent dataOf at *
    omega
  unfold Arena.resizeTop
  simp only [← home, offset]

/-- The topmost block takes the top of its chunk with it. -/
theorem resizeTop_holds {size : Nat}
    (holds : Holds arena live) (ok : ChunksOk arena)
    (member : block ∈ live)
    (chunkMember : chunk ∈ arena.chunks)
    (home : chunk.addr = arena.homeOf block.ptr)
    (topmost : arena.Topmost block)
    (room : block.ptr + size ≤ dataOf chunk.addr + chunk.size) :
    ChunksOk (arena.resizeTop block size) ∧
      Holds (arena.resizeTop block size)
        (⟨block.ptr, size⟩ :: live.erase block) := by
  have low := holds.stacked.header_fits block member
  have sameHome :
      headerChunk arena.backing.memory block.ptr = chunk.addr :=
    home.symm
  simp only [placementIn, sameHome] at low
  have resized := resizeTop_eq ok chunkMember home room
  have first := holds.stacked.perm (perm_release member)
  have remaining : ∀ other ∈ ⟨block.ptr, size⟩ :: live.erase block,
      ∃ chunk ∈ arena.chunks, chunk.addr = arena.homeOf other.ptr := by
    intro other otherMember
    rcases List.mem_cons.mp otherMember with rfl | old
    · exact ⟨chunk, chunkMember, home⟩
    · exact holds.homed other (List.mem_of_mem_erase old)
  rw [resized]
  refine ⟨?_, homed_setUsed remaining, ?_⟩
  · apply ok.retop chunkMember
    omega
  · have topHome :
        topIn (setUsed arena.chunks chunk.addr
          (block.ptr - dataOf chunk.addr + size)) chunk.addr =
          block.ptr + size := by
      rw [topIn_setUsed chunkMember]
      omega
    apply first.resizeTop (by decide) topmost
    · rfl
    · rfl
    · rfl
    · exact Nat.le_add_right _ _
    · simp only [placementIn, sameHome]
      exact topHome
    · intro region different
      simp only [placementIn, sameHome] at different
      exact topIn_setUsed_of_ne _ different
    · intro other otherMember different
      have otherLive := List.mem_of_mem_erase otherMember
      rcases holds.extent ok otherLive with
        ⟨otherChunk, otherChunkMember, otherHome, otherLow, otherTop⟩
      have sameOther :
          headerChunk arena.backing.memory other.ptr = otherChunk.addr :=
        otherHome.symm
      simp only [placementIn, sameHome, sameOther] at different
      have separated :=
        ok.apart_of_ne otherChunkMember chunkMember different
      have otherUsed := ok.used_le otherChunk otherChunkMember
      simp only [placementIn, sameHome, sameOther, Slice.finish] at *
      unfold Apart Chunk.extent dataOf headerSize at *
      omega

/-! ## Relocation -/

/--
The arena after the new block was placed and the common prefix of the old
block was copied into it.
-/
def Arena.relocate (arena : Arena) (chunk : Chunk) (old : Slice)
    (start size : Nat) : Arena :=
  let placed := arena.place chunk start size
  { placed with
    backing :=
      { placed.backing with
        memory :=
          blit placed.backing.memory (dataOf chunk.addr + start) old.ptr
            (min old.length size) } }

/-- An empty block has nothing to copy. -/
theorem relocate_empty {old : Slice} {start size : Nat}
    (arena : Arena) (chunk : Chunk) (empty : old.length = 0) :
    arena.relocate chunk old start size =
      arena.place chunk start size := by
  simp only [Arena.relocate, empty, Nat.zero_min, blit_zero]

theorem ChunksOk.relocate {old : Slice} {start size : Nat}
    (ok : ChunksOk arena) (chunkMember : chunk ∈ arena.chunks)
    (inside : start + size ≤ chunk.size) :
    ChunksOk (arena.relocate chunk old start size) := by
  have placed := ok.place chunkMember inside
  exact ⟨placed.apart, placed.owned, placed.valid, placed.used_le⟩

section Relocate

variable {old : Slice} {start size : Nat}

/-- The bytes of the held blocks and of their headers stay. -/
theorem Holds.relocate_withHeader
    (holds : Holds arena live) (ok : ChunksOk arena)
    (member : block ∈ live) (chunkMember : chunk ∈ arena.chunks)
    (above : chunk.used + headerSize ≤ start)
    (inside : start + size ≤ chunk.size) :
    WithHeader arena.backing.memory
      (arena.relocate chunk old start size).backing.memory block := by
  apply SameBytes.trans
    (holds.place_withHeader ok member chunkMember above inside)
  apply blit_sameBytes
  apply holds.apart_unused ok member chunkMember
  · omega
  · omega

theorem Holds.relocate
    (holds : Holds arena live) (ok : ChunksOk arena)
    (chunkMember : chunk ∈ arena.chunks)
    (above : chunk.used + headerSize ≤ start)
    (inside : start + size ≤ chunk.size) :
    Holds (arena.relocate chunk old start size)
      (⟨dataOf chunk.addr + start, size⟩ :: live) := by
  have placed := holds.place ok chunkMember above inside
  have placedOk := ok.place chunkMember inside
  apply placed.congr placedOk
  · intro other otherMember
    exact ⟨otherMember, placedOk.chunkAt_eq otherMember⟩
  · intro block member
    apply blit_sameBytes
    rcases List.mem_cons.mp member with rfl | oldMember
    · unfold Apart headerSize at *
      dsimp only
      omega
    · have separated :
          Apart (dataOf chunk.addr + start) (min old.length size)
            (block.ptr - headerSize) (headerSize + block.length) :=
        holds.apart_unused ok oldMember chunkMember (by omega) (by omega)
      unfold Apart headerSize at *
      omega

/-- The prefix of the old block arrives in the new one. -/
theorem Holds.relocate_carried {offset : Nat}
    (holds : Holds arena live) (ok : ChunksOk arena)
    (member : old ∈ live) (chunkMember : chunk ∈ arena.chunks)
    (above : chunk.used + headerSize ≤ start)
    (inside : start + size ≤ chunk.size)
    (within : offset < min old.length size) :
    (arena.relocate chunk old start size).backing.memory
        (dataOf chunk.addr + start + offset) =
      arena.backing.memory (old.ptr + offset) := by
  have kept : WithHeader arena.backing.memory
      (arena.place chunk start size).backing.memory old :=
    holds.place_withHeader ok member chunkMember above inside
  rcases holds.extent ok member with ⟨_, _, _, low, _⟩
  have source : SameBytes arena.backing.memory
      (arena.place chunk start size).backing.memory old.ptr old.length :=
    SameBytes.inside kept (by omega) (by omega)
  rw [← source offset (by omega)]
  exact blit_inside _ _ within

end Relocate

/-! ## Resizing -/

/-- What an answered call to the arena can lead to. -/
abbrev ArenaOutcome (arena : Arena) (live : List Slice) :
    Option Slice → Except IoError Slice × Arena → Prop :=
  Outcome arenaAllocator headerSize SameArena Invariant arena live

/-- A call that fails changes nothing. -/
theorem SameArena.outcome {after : Arena} {old : Option Slice}
    (holds : Holds arena live) (ok : ChunksOk arena)
    (error : IoError) (same : SameArena arena after) :
    ArenaOutcome arena live old (.error error, after) := by
  apply Outcome.failed
  · exact same
  · exact same.invariant ⟨ok, holds⟩
  · intro other member different offset inside
    exact congrFun same.memory _

/-- Held blocks have a valid address and a valid chunk. -/
theorem Holds.valid
    (holds : Holds arena live) (ok : ChunksOk arena)
    (member : block ∈ live) :
    block.ptr ≠ 0 ∧ arena.homeOf block.ptr ≠ 0 := by
  rcases holds.extent ok member with
    ⟨chunk, chunkMember, home, low, top⟩
  constructor
  · unfold headerSize at low
    omega
  · rw [← home]
    exact (ok.valid chunk chunkMember).1

/-- A resize at the top of a chunk only moves the top. -/
theorem outcome_ofTop {size : Nat}
    (holds : Holds arena live) (ok : ChunksOk arena)
    (member : block ∈ live)
    (chunkMember : chunk ∈ arena.chunks)
    (home : chunk.addr = arena.homeOf block.ptr)
    (topmost : arena.Topmost block)
    (room : block.ptr + size ≤ dataOf chunk.addr + chunk.size) :
    ArenaOutcome arena live (some block)
      (.ok ⟨block.ptr, size⟩, arena.resizeTop block size) := by
  rcases resizeTop_holds holds ok member chunkMember home topmost room
    with ⟨resizedOk, resizedHolds⟩
  apply Outcome.answered
  · exact (holds.valid ok member).1
  · exact ⟨resizedOk, resizedHolds⟩
  · intro other otherMember different
    exact SameBytes.refl _ _ _
  · rintro source ⟨rfl⟩ offset inside
    rfl

/-- The block moves to a place above the top of some chunk. -/
theorem outcome_ofMove {target : Arena} {start size : Nat}
    (holds : Holds arena live) (ok : ChunksOk arena)
    (member : block ∈ live)
    (targetOk : ChunksOk target) (extended : Extended arena target)
    (chunkMember : chunk ∈ target.chunks)
    (above : chunk.used + headerSize ≤ start)
    (inside : start + size ≤ chunk.size) :
    ArenaOutcome arena live (some block)
      (.ok ⟨dataOf chunk.addr + start, size⟩,
        arenaFree (target.relocate chunk block start size) block) := by
  have targetHolds := extended.holds holds ok targetOk
  have relocatedOk : ChunksOk (target.relocate chunk block start size) :=
    targetOk.relocate chunkMember inside
  have relocatedHolds :
      Holds (target.relocate chunk block start size)
        (⟨dataOf chunk.addr + start, size⟩ :: live) :=
    targetHolds.relocate targetOk chunkMember above inside
  have moved : (⟨dataOf chunk.addr + start, size⟩ : Slice) ≠ block := by
    rintro rfl
    have separated :
        Apart (dataOf chunk.addr + start - headerSize)
          (headerSize + size)
          (dataOf chunk.addr + start - headerSize)
          (headerSize + size) :=
      targetHolds.apart_unused targetOk member chunkMember
        (by omega) (by omega)
    unfold Apart headerSize at separated
    omega
  have freed := arenaFree_holds relocatedHolds relocatedOk
    (List.mem_cons_of_mem _ member)
  rw [List.erase_cons_tail (by simpa using moved)] at freed
  rcases freed with ⟨freedOk, freedHolds, backing⟩
  apply Outcome.answered
  · unfold dataOf chunkHeaderSize
    dsimp only
    omega
  · exact ⟨freedOk, freedHolds⟩
  · intro other otherMember different
    simp only [arenaAllocator, backing]
    exact (extended.withHeader holds ok otherMember).trans
      (targetHolds.relocate_withHeader targetOk otherMember chunkMember
        above inside)
  · rintro source ⟨rfl⟩ offset within
    simp only [arenaAllocator, backing]
    have arrived := targetHolds.relocate_carried targetOk member
      chunkMember above inside within
    have kept : SameBytes arena.backing.memory target.backing.memory
        block.ptr block.length := by
      rcases holds.extent ok member with ⟨_, _, _, low, _⟩
      exact SameBytes.inside (extended.withHeader holds ok member)
        (by omega) (by omega)
    rw [← kept offset (by omega)]
    exact arrived

/-- Giving up a block after its chunk was cut back to it. -/
theorem outcome_ofRelease
    (holds : Holds arena live) (ok : ChunksOk arena)
    (member : block ∈ live) :
    ArenaOutcome arena live (some block)
      (.ok ⟨0, 0⟩,
        arenaFree
          (if arena.Topmost block then arena.resizeTop block 0 else arena)
          block) := by
  rcases holds.extent ok member with
    ⟨chunk, chunkMember, home, low, top⟩
  have used := ok.used_le chunk chunkMember
  by_cases topmost : arena.Topmost block
  · rw [if_pos topmost]
    have room : block.ptr + 0 ≤ dataOf chunk.addr + chunk.size := by
      unfold Slice.finish at top
      omega
    rcases resizeTop_holds holds ok member chunkMember home topmost room
      with ⟨cutOk, cutHolds⟩
    by_cases empty : block.length = 0
    · have same : (⟨block.ptr, 0⟩ : Slice) = block := by
        rw [← empty]
      rw [same] at cutHolds
      rcases arenaFree_holds cutHolds cutOk List.mem_cons_self with
        ⟨freedOk, freedHolds, backing⟩
      rw [List.erase_cons_head] at freedHolds
      apply Outcome.released
      · exact ⟨freedOk, freedHolds⟩
      · intro other otherMember different offset inside
        exact congrFun (congrArg Backing.memory backing) _
    · have above :
          ¬ (arena.resizeTop block 0).Topmost block := by
        rw [resizeTop_eq ok chunkMember home room]
        unfold Arena.Topmost Arena.homeOf Slice.finish
        unfold Arena.homeOf at home
        dsimp only
        rw [← home, chunkAt_setUsed_used _ ⟨chunk, chunkMember, rfl⟩]
        omega
      have ignored : arenaFree (arena.resizeTop block 0) block =
          arena.resizeTop block 0 := by
        simp [arenaFree, above]
      rw [ignored]
      apply Outcome.released
      · exact ⟨cutOk, cutHolds.sublist (List.sublist_cons_self _ _)⟩
      · intro other otherMember different
        exact SameBytes.refl _ _ _
  · rw [if_neg topmost]
    have ignored : arenaFree arena block = arena := by
      simp [arenaFree, topmost]
    rw [ignored]
    apply Outcome.released
    · exact ⟨ok, holds.sublist List.erase_sublist⟩
    · intro other otherMember different
      exact SameBytes.refl _ _ _

/-- A block that grows in place stays inside its chunk. -/
theorem GrowsInPlace.room
    (ok : ChunksOk arena) (chunkMember : chunk ∈ arena.chunks)
    (home : chunk.addr = arena.homeOf block.ptr)
    (inPlace : arena.GrowsInPlace block layout) :
    block.ptr + layout.elemSize ≤ dataOf chunk.addr + chunk.size := by
  have used := ok.used_le chunk chunkMember
  have bound := (ok.valid chunk chunkMember).2
  have ends : block.finish = dataOf chunk.addr + chunk.used := by
    have topmost := inPlace.1
    unfold Arena.Topmost at topmost
    rwa [← home, ok.chunkAt_eq chunkMember] at topmost
  have room : layout.elemSize ≤
      sizeAdd block.length (sizeSub chunk.size chunk.used) := by
    have fits := inPlace.2
    rwa [← home, ok.chunkAt_eq chunkMember] at fits
  unfold Chunk.extent at bound
  unfold Slice.finish dataOf at ends
  have free : sizeSub chunk.size chunk.used = chunk.size - chunk.used :=
    sizeSub_eq used (by omega)
  have sum : sizeAdd block.length (chunk.size - chunk.used) =
      block.length + (chunk.size - chunk.used) :=
    sizeAdd_eq (by omega)
  rw [free, sum] at room
  unfold dataOf
  omega

/-- The copy of a moving block is the one of `Arena.relocate`. -/
theorem smemcpy_place {target : Arena} {start size : Nat}
    (holds : Holds target live) (ok : ChunksOk target)
    (member : block ∈ live) (chunkMember : chunk ∈ target.chunks)
    (above : chunk.used + headerSize ≤ start)
    (inside : start + size ≤ chunk.size) :
    smemcpy (target.place chunk start size).backing.memory
        ⟨dataOf chunk.addr + start, size⟩ block =
      (target.relocate chunk block start size).backing.memory := by
  have separated :
      Apart (dataOf chunk.addr + start) size
        (block.ptr - headerSize) (headerSize + block.length) :=
    holds.apart_unused ok member chunkMember (by omega) (by omega)
  rcases holds.extent ok member with ⟨_, _, _, low, _⟩
  have apart :
      Apart (dataOf chunk.addr + start) size block.ptr block.length :=
    separated.inside (Nat.le_refl _) (Nat.le_refl _)
      (by omega) (by omega)
  have destination : dataOf chunk.addr + start ≠ 0 := by
    unfold dataOf chunkHeaderSize
    omega
  have copied := smemcpy_eq_blit
    (target.place chunk start size).backing.memory
    destination (holds.valid ok member).1 apart
  rw [copied, min_comm]
  rfl

/--
What `cu_arena_grow` does with a live block: it fails without any effect, it
moves the end of the topmost block, or it moves the bytes to a new block and
gives the old one up.
-/
theorem arenaGrow_cases
    (holds : Holds arena live) (ok : ChunksOk arena)
    (member : block ∈ live)
    (fits : ¬ arena.GrowsInPlace block layout → arena.SumsFit layout) :
    (∃ error after, arenaGrow arena block layout = (.error error, after) ∧
      SameArena arena after) ∨
    (arena.GrowsInPlace block layout ∧
      arenaGrow arena block layout =
        (.ok ⟨block.ptr, layout.elemSize⟩,
          arena.resizeTop block layout.elemSize)) ∨
    (¬ arena.GrowsInPlace block layout ∧ ∃ target chunk,
      ChunksOk target ∧ Extended arena target ∧
      chunk ∈ target.chunks ∧
      chunk.used + headerSize ≤ chunk.startFor layout ∧
      chunk.startFor layout + layout.elemSize ≤ chunk.size ∧
      arenaGrow arena block layout =
        (.ok ⟨dataOf chunk.addr + chunk.startFor layout, layout.elemSize⟩,
          arenaFree
            (target.relocate chunk block (chunk.startFor layout)
              layout.elemSize) block)) := by
  rcases holds.valid ok member with ⟨valid, homeValid⟩
  by_cases inPlace : arena.GrowsInPlace block layout
  · right
    left
    refine ⟨inPlace, ?_⟩
    simp only [arenaGrow, valid, homeValid, inPlace, if_true, if_false]
  · rcases arenaAlloc_cases ok (fits inPlace) with
      ⟨error, after, failed, same⟩ |
      ⟨target, chunk, targetOk, extended, chunkMember, above, inside,
        nonempty, placed⟩
    · left
      refine ⟨error, after, ?_, same⟩
      simp only [arenaGrow, valid, homeValid, inPlace, if_false, failed]
    · right
      right
      have copied := smemcpy_place (extended.holds holds ok targetOk)
        targetOk member chunkMember above inside
      refine
        ⟨inPlace, target, chunk, targetOk, extended, chunkMember, above,
          inside, ?_⟩
      unfold arenaGrow
      rw [if_neg valid, if_neg homeValid, if_neg inPlace, placed]
      dsimp only
      by_cases nonempty : 0 < block.length
      · rw [if_pos nonempty, copied]
        rfl
      · have empty : block.length = 0 := by omega
        rw [if_neg nonempty, relocate_empty target chunk empty]

theorem arenaGrow_outcome
    (holds : Holds arena live) (ok : ChunksOk arena)
    (member : block ∈ live)
    (fits : ¬ arena.GrowsInPlace block layout → arena.SumsFit layout) :
    ArenaOutcome arena live (some block)
      (arenaGrow arena block layout) := by
  rcases arenaGrow_cases holds ok member fits with
    ⟨error, after, refused, same⟩ | ⟨inPlace, grown⟩ |
    ⟨_, target, chunk, targetOk, extended, chunkMember, above, inside,
      moved⟩
  · rw [refused]
    exact same.outcome holds ok error
  · rcases holds.homed block member with ⟨chunk, chunkMember, home⟩
    rw [grown]
    exact outcome_ofTop holds ok member chunkMember home inPlace.1
      (GrowsInPlace.room ok chunkMember home inPlace)
  · rw [moved]
    exact outcome_ofMove holds ok member targetOk extended chunkMember
      above inside

theorem arenaShrink_outcome
    (holds : Holds arena live) (ok : ChunksOk arena)
    (member : block ∈ live)
    (shorter : layout.elemSize ≤ block.length) :
    ArenaOutcome arena live (some block)
      (arenaShrink arena block layout) := by
  rcases holds.valid ok member with ⟨valid, homeValid⟩
  rcases holds.extent ok member with
    ⟨chunk, chunkMember, home, low, top⟩
  have used := ok.used_le chunk chunkMember
  by_cases empty : layout.elemSize = 0
  · have released : arenaShrink arena block layout =
        (.ok ⟨0, 0⟩,
          arenaFree
            (if arena.Topmost block then arena.resizeTop block 0
              else arena) block) := by
      simp [arenaShrink, valid, homeValid, empty]
    rw [released]
    exact outcome_ofRelease holds ok member
  · by_cases topmost : arena.Topmost block
    · have resized : arenaShrink arena block layout =
          (.ok ⟨block.ptr, layout.elemSize⟩,
            arena.resizeTop block layout.elemSize) := by
        simp [arenaShrink, valid, homeValid, empty, topmost]
      rw [resized]
      apply outcome_ofTop holds ok member chunkMember home topmost
      unfold Slice.finish at top
      omega
    · have kept : arenaShrink arena block layout =
          (.ok ⟨block.ptr, layout.elemSize⟩, arena) := by
        simp [arenaShrink, valid, homeValid, empty, topmost]
      rw [kept]
      have first := holds.stacked.perm (perm_release member)
      apply Outcome.answered
      · exact valid
      · refine ⟨ok, ?_, ?_⟩
        · intro other otherMember
          rcases List.mem_cons.mp otherMember with rfl | old
          · exact ⟨chunk, chunkMember, home⟩
          · exact holds.homed other (List.mem_of_mem_erase old)
        · apply first.shorten
          · rfl
          · rfl
          · rfl
          · exact Nat.le_add_right _ _
          · exact Nat.add_le_add_left shorter _
      · intro other otherMember different
        exact SameBytes.refl _ _ _
      · rintro source ⟨rfl⟩ offset inside
        rfl

theorem arenaAlloc_outcome
    (holds : Holds arena live) (ok : ChunksOk arena)
    (fits : arena.SumsFit layout) :
    ArenaOutcome arena live none (arenaAlloc arena layout) := by
  rcases arenaAlloc_cases ok fits with
    ⟨error, after, failed, same⟩ |
    ⟨target, chunk, targetOk, extended, chunkMember, above, inside,
      nonempty, placed⟩
  · rw [failed]
    exact same.outcome holds ok error
  · have targetHolds := extended.holds holds ok targetOk
    rw [placed]
    apply Outcome.answered
    · unfold dataOf chunkHeaderSize
      dsimp only
      omega
    · exact
        ⟨targetOk.place chunkMember inside,
          targetHolds.place targetOk chunkMember above inside⟩
    · intro other member different
      exact (extended.withHeader holds ok member).trans
        (targetHolds.place_withHeader targetOk member chunkMember above
          inside)
    · intro source target
      cases target

/-! ## One step -/

theorem free_safe {world : World Arena} {mem : Slice}
    (invariant : Invariant world) (member : mem ∈ world.live) :
    Invariant (arenaAllocator.step world (.free mem)) ∧
      StepSafe arenaAllocator headerSize SameArena world
        (.free mem) := by
  rcases arenaFree_holds invariant.holds invariant.chunks member with
    ⟨ok, holds, backing⟩
  refine ⟨⟨ok, holds⟩, StepSafe.of_free ?_⟩
  intro block blockMember different offset inside
  exact congrFun (congrArg Backing.memory backing) _

/-- A client that writes into a block does not touch any header. -/
theorem Holds.write_header
    {other : Slice} (holds : Holds arena live) (ok : ChunksOk arena)
    (member : block ∈ live) (otherMember : other ∈ live)
    (content : Memory) :
    SameHeader arena.backing.memory
      (overwrite arena.backing.memory block.ptr block.length content)
      other := by
  apply overwrite_sameBytes
  rcases holds.extent ok otherMember with ⟨_, _, _, low, _⟩
  by_cases equal : block = other
  · subst equal
    unfold Apart headerSize at *
    omega
  · have clear := holds.apart_header ok member otherMember equal
    unfold Apart headerSize at *
    omega

theorem write_safe {world : World Arena}
    (invariant : Invariant world) (member : block ∈ world.live)
    (content : Memory) :
    Invariant (arenaAllocator.step world (.write block content)) ∧
      StepSafe arenaAllocator headerSize SameArena world
        (.write block content) := by
  have separated : ∀ other ∈ world.live, block ≠ other →
      Apart block.ptr block.length
        (other.ptr - headerSize) (headerSize + other.length) :=
    fun other otherMember different =>
      invariant.holds.apart_header invariant.chunks member otherMember
        different
  have lens : ∀ state memory,
      arenaAllocator.memory (arenaAllocator.setMemory state memory) =
        memory :=
    fun _ _ => rfl
  have ok := invariant.chunks
  refine ⟨⟨?_, ?_⟩, StepSafe.of_write lens separated⟩
  · exact ⟨ok.apart, ok.owned, ok.valid, ok.used_le⟩
  · apply invariant.holds.congr ok
    · intro chunk chunkMember
      exact ⟨chunkMember, ok.chunkAt_eq chunkMember⟩
    · intro other otherMember
      exact invariant.holds.write_header ok member otherMember content

/-- One permitted call keeps the invariant and is safe for the client. -/
theorem step_safe {world : World Arena} {call : Call}
    (invariant : Invariant world) (permitted : Permitted world call) :
    Invariant (arenaAllocator.step world call) ∧
      StepSafe arenaAllocator headerSize SameArena world call := by
  cases call with
  | alloc layout =>
      apply Outcome.safe rfl
      exact arenaAlloc_outcome invariant.holds invariant.chunks permitted
  | grow old layout =>
      apply Outcome.safe rfl
      exact
        arenaGrow_outcome invariant.holds invariant.chunks permitted.1
          permitted.2
  | shrink old layout =>
      apply Outcome.safe rfl
      exact
        arenaShrink_outcome invariant.holds invariant.chunks permitted.1
          permitted.2
  | free mem => exact free_safe invariant permitted
  | write block content => exact write_safe invariant permitted content

/-! ## The size of the answer -/

section Lengths

variable {arena after : Arena} {old block : Slice} {layout : Layout}

theorem arenaAlloc_length
    (answer : arenaAlloc arena layout = (.ok block, after)) :
    layout.elemSize ≤ block.length := by
  unfold arenaAlloc at answer
  dsimp only at answer
  split at answer
  · cases answer
  · split at answer
    · cases answer
      exact Nat.le_refl _
    · split at answer <;> cases answer
      exact Nat.le_refl _

theorem arenaGrow_length
    (answer : arenaGrow arena old layout = (.ok block, after)) :
    layout.elemSize ≤ block.length := by
  unfold arenaGrow at answer
  split_ifs at answer
  · exact arenaAlloc_length answer
  · cases answer
  · cases answer
    exact le_refl _
  all_goals
    split at answer
    · cases answer
    · rename_i placed
      cases answer
      exact arenaAlloc_length placed

theorem arenaShrink_length
    (answer : arenaShrink arena old layout = (.ok block, after)) :
    layout.elemSize ≤ block.length := by
  unfold arenaShrink at answer
  dsimp only at answer
  split_ifs at answer <;> cases answer <;> simp_all

/-- A successful call returns at least as many bytes as were asked for. -/
theorem respond_length {call : Call}
    (asks : requested call = some layout)
    (responds : arenaAllocator.respond arena call =
      some (.ok block, after)) : layout.elemSize ≤ block.length := by
  cases call with
  | alloc other =>
      cases asks
      exact arenaAlloc_length (Option.some.inj responds)
  | grow old other =>
      cases asks
      exact arenaGrow_length (Option.some.inj responds)
  | shrink old other =>
      cases asks
      exact arenaShrink_length (Option.some.inj responds)
  | free mem => cases asks
  | write block content => cases asks

end Lengths

theorem respond_outcome {world : World Arena} {call : Call}
    (invariant : Invariant world) (permitted : Permitted world call)
    {result : Except IoError Slice × Arena}
    (responds : arenaAllocator.respond world.state call = some result) :
    ArenaOutcome world.state world.live call.target result := by
  rcases invariant with ⟨ok, holds⟩
  cases call with
  | alloc layout =>
      rw [← Option.some.inj responds]
      exact arenaAlloc_outcome holds ok permitted
  | grow old layout =>
      rw [← Option.some.inj responds]
      exact arenaGrow_outcome holds ok permitted.1 permitted.2
  | shrink old layout =>
      rw [← Option.some.inj responds]
      exact arenaShrink_outcome holds ok permitted.1 permitted.2
  | free mem => cases responds
  | write block content => cases responds

/-- One permitted call serves the client. -/
theorem step_serves {world : World Arena} {call : Call}
    (invariant : Invariant world) (permitted : Permitted world call) :
    Serves arenaAllocator world call :=
  (step_safe invariant permitted).2.serves
    (fun _ _ _ asks responds => respond_length asks responds)
    fun _ _ responds =>
      ptr_ne_of_outcome (respond_outcome invariant permitted responds)

/-! ## Runs -/

/-- The states of all runs over one behaviour of the backing allocator. -/
abbrev Reached (backing : Backing) (chunkSize : Nat) :
    World Arena → Prop :=
  Reachable (· = arenaCreate backing chunkSize) Permitted
    arenaAllocator.step

/-- What a client can rely on in a state. -/
structure Safe (world : World Arena) : Prop where
  /-- No chunk is filled beyond its size. -/
  used_le : ∀ chunk ∈ world.state.chunks, chunk.used ≤ chunk.size
  /-- The chunks do not overlap. -/
  chunksApart : world.state.chunks.Pairwise fun left right =>
    Apart left.addr left.extent right.addr right.extent
  /-- Live blocks lie in the used part of the chunk in their header. -/
  inside : ∀ block ∈ world.live, ∃ chunk ∈ world.state.chunks,
    chunk.addr = world.state.homeOf block.ptr ∧
      dataOf chunk.addr + headerSize ≤ block.ptr ∧
      block.finish ≤ dataOf chunk.addr + chunk.used
  /-- No two live blocks overlap. -/
  disjoint : Disjoint world.live

theorem Invariant.safe {world : World Arena}
    (invariant : Invariant world) : Safe world where
  used_le := invariant.chunks.used_le
  chunksApart := invariant.chunks.apart
  inside := by
    intro block member
    rcases invariant.holds.extent invariant.chunks member with
      ⟨chunk, chunkMember, home, low, top⟩
    exact ⟨chunk, chunkMember, home, by omega, top⟩
  disjoint := by
    refine invariant.holds.stacked.apart.imp_of_mem ?_
    intro left right leftMember rightMember separated
    have leftFits := invariant.holds.stacked.header_fits left leftMember
    have rightFits :=
      invariant.holds.stacked.header_fits right rightMember
    simp only [placementIn, Slice.finish] at separated leftFits rightFits
    unfold Apart
    omega

theorem create_invariant (backing : Backing) (chunkSize : Nat) :
    Invariant (arenaCreate backing chunkSize) where
  chunks :=
    { apart := List.Pairwise.nil
      owned := by simp [arenaCreate]
      valid := by simp [arenaCreate]
      used_le := by simp [arenaCreate] }
  holds :=
    { homed := by simp [arenaCreate]
      stacked := Stacked.nil _ _ _ _ }

theorem reached_invariant
    {backing : Backing} {chunkSize : Nat} {world : World Arena}
    (reached : Reached backing chunkSize world) : Invariant world := by
  have initially : ∀ start,
      start = arenaCreate backing chunkSize → Invariant start := by
    rintro start rfl
    exact create_invariant backing chunkSize
  exact reached.invariant Invariant initially
    fun _ _ holds permitted => (step_safe holds permitted).1

/--
In every run, over every behaviour of the backing allocator, the arena keeps
its blocks disjoint and inside the used part of the chunk their header
names, and every permitted call in a reached state is safe: it leaves the
bytes and the headers of the other live blocks alone, carries the common
prefix of a resized block over, returns a block of the size that was asked
for, and changes nothing if it fails.
-/
theorem arena_run_safe
    (backing : Backing) (chunkSize : Nat)
    (world : World Arena) (reached : Reached backing chunkSize world) :
    Safe world ∧
      ∀ call, Permitted world call →
        StepSafe arenaAllocator headerSize SameArena world call ∧
          Serves arenaAllocator world call := by
  have invariant := reached_invariant reached
  exact
    ⟨invariant.safe,
      fun call permitted =>
        ⟨(step_safe invariant permitted).2,
          step_serves invariant permitted⟩⟩

/-- A backing allocator that has one chunk to give. -/
def oneChunk : Backing :=
  ⟨[], fun _ => 0, [.ok ⟨4096, 88, fun _ => 0⟩], []⟩

/-- A run that allocates two blocks from one chunk of 64 bytes. -/
def twoBlocks : World Arena :=
  arenaAllocator.step
    (arenaAllocator.step (arenaCreate oneChunk 64) (.alloc ⟨16, 8⟩))
    (.alloc ⟨5, 1⟩)

theorem twoBlocks_reached : Reached oneChunk 64 twoBlocks := by
  unfold twoBlocks
  refine Reachable.step (Reachable.step (Reachable.start rfl) ?_) ?_
  · intro nonempty
    refine ⟨by decide, by decide, by simp [arenaCreate]⟩
  · intro nonempty
    refine ⟨by decide, by decide +kernel, by decide +kernel⟩

theorem arena_run_safe_twoBlocks :
    Safe twoBlocks ∧
      ∀ call, Permitted twoBlocks call →
        StepSafe arenaAllocator headerSize SameArena twoBlocks call ∧
          Serves arenaAllocator twoBlocks call :=
  arena_run_safe oneChunk 64 twoBlocks twoBlocks_reached

end Libcute.Memory.ArenaAllocator
