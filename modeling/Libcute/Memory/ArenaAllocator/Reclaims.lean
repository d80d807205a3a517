import Libcute.Memory.ArenaAllocator
import Libcute.Memory.NewestBlock

/-!
# Reclaiming chunks in the order of allocation

When a client only resizes and frees its newest block, the tops of all
chunks unwind along the stored offsets, also over blocks that have moved to
another chunk.
-/

namespace Libcute.Memory.ArenaAllocator

open Libcute.Core.Interface
open Libcute.Core.Size
open Libcute.Library.BumpRegions
open Libcute.Library.ByteMemory
open Libcute.Library.Transition
open Libcute.Memory.Client
open Libcute.Memory.NewestBlock

variable {arena : Arena} {live rest : List Slice} {block : Slice}
  {chunk : Chunk} {layout : Layout} {ledger : Ledger Arena}
  {before : Arena} {earlier : List Arena}

/-- `used` of the chunk at an address, 0 if there is no such chunk. -/
def Arena.usedAt (arena : Arena) (addr : Nat) : Nat :=
  match arena.chunks.find? fun chunk => chunk.addr = addr with
  | some chunk => chunk.used
  | none => 0

/-- Every chunk is as full as it was before, and chunks made since are empty. -/
def Restored (before after : Arena) : Prop :=
  ∀ chunk ∈ after.chunks, chunk.used = before.usedAt chunk.addr

/-- All chunks are empty. -/
def Unused (arena : Arena) : Prop :=
  ∀ chunk ∈ arena.chunks, chunk.used = 0

theorem topIn_eq (arena : Arena) (addr : Nat) :
    topIn arena.chunks addr = dataOf addr + arena.usedAt addr := by
  unfold topIn Arena.usedAt chunkAt
  cases arena.chunks.find? fun chunk => chunk.addr = addr <;> rfl

theorem ChunksOk.usedAt_eq
    (ok : ChunksOk arena) (member : chunk ∈ arena.chunks) :
    arena.usedAt chunk.addr = chunk.used := by
  have top := topIn_eq arena chunk.addr
  unfold topIn at top
  rw [ok.chunkAt_eq member] at top
  omega

/-- Tops that are equal mean chunks that are filled equally. -/
theorem ChunksOk.restored
    (ok : ChunksOk arena)
    (tops : topIn arena.chunks = topIn before.chunks) :
    Restored before arena := by
  intro chunk member
  have same := congrFun tops chunk.addr
  rw [topIn_eq, topIn_eq, ok.usedAt_eq member] at same
  omega

theorem ChunksOk.unused
    (ok : ChunksOk arena) (tops : topIn arena.chunks = dataOf) :
    Unused arena := by
  intro chunk member
  have same := congrFun tops chunk.addr
  rw [topIn_eq, ok.usedAt_eq member] at same
  omega

/-- A new chunk is empty. -/
theorem Extended.topIn_eq {target : Arena}
    (extended : Extended arena target) (ok : ChunksOk arena)
    (targetOk : ChunksOk target) :
    topIn target.chunks = topIn arena.chunks := by
  funext addr
  rw [ArenaAllocator.topIn_eq, ArenaAllocator.topIn_eq]
  congr 1
  by_cases present : ∃ chunk ∈ target.chunks, chunk.addr = addr
  · rcases present with ⟨chunk, member, rfl⟩
    rw [targetOk.usedAt_eq member]
    by_cases old : ∃ home ∈ arena.chunks, home.addr = chunk.addr
    · rcases old with ⟨home, homeMember, same⟩
      have equal := targetOk.eq_of_addr (extended.chunks homeMember)
        member same
      rw [← same, ok.usedAt_eq homeMember, equal]
    · have unknown : chunk ∉ arena.chunks :=
        fun known => old ⟨chunk, known, rfl⟩
      have absent : (arena.chunks.find? fun other =>
          other.addr = chunk.addr) = none := by
        refine List.find?_eq_none.mpr fun other otherMember => ?_
        simpa using fun same => old ⟨other, otherMember, same⟩
      rw [(extended.created chunk member).resolve_left unknown]
      unfold Arena.usedAt
      rw [absent]
  · have absent : ∀ chunks : List Chunk, chunks ⊆ target.chunks →
        (chunks.find? fun chunk => chunk.addr = addr) = none := by
      intro chunks included
      refine List.find?_eq_none.mpr fun other otherMember => ?_
      simpa using fun same => present ⟨other, included otherMember, same⟩
    unfold Arena.usedAt
    rw [absent _ (List.Subset.refl _), absent _ extended.chunks]

/-! ## The invariant -/

/-- The tops unwind through the tops that were written down. -/
abbrev Unwound
    (arena : Arena) (live : List Slice) (before : List Arena) : Prop :=
  Unwinds (placementIn arena.backing.memory) dataOf (topIn arena.chunks) live
    (before.map fun arena => topIn arena.chunks)

/-- Headers that stay keep the tops unwinding. -/
theorem unwinds_headers
    {memory : Memory} {top : Nat → Nat} {tops : List (Nat → Nat)}
    (holds : Holds arena live) (ok : ChunksOk arena)
    (included : rest ⊆ live)
    (unwinds : Unwinds (placementIn arena.backing.memory) dataOf top rest
      tops)
    (headers : ∀ block ∈ rest,
      SameHeader arena.backing.memory memory block) :
    Unwinds (placementIn memory) dataOf top rest tops := by
  apply unwinds.congr
  · intro block member
    exact (headers block member).chunk_eq
  · intro block member
    rcases holds.extent ok (included member) with ⟨chunk, _, _, low, _⟩
    have large : headerSize ≤ block.ptr := by omega
    simp only [placementIn, (headers block member).chunk_eq,
      (headers block member).prevOffset_eq large]
  · intro block member
    rfl

theorem Unwound.topmost
    (unwound : Unwound arena (block :: rest) earlier) :
    arena.Topmost block :=
  Unwinds.topmost unwound

/-- A block that is placed on the top of a chunk. -/
theorem Unwound.place {target : Arena} {start size : Nat}
    (unwound : Unwound arena live earlier)
    (holds : Holds arena live) (ok : ChunksOk arena)
    (targetOk : ChunksOk target) (extended : Extended arena target)
    (chunkMember : chunk ∈ target.chunks)
    (above : chunk.used + headerSize ≤ start)
    (inside : start + size ≤ chunk.size) :
    Unwound (target.place chunk start size)
      (⟨dataOf chunk.addr + start, size⟩ :: live) (arena :: earlier) := by
  have targetHolds := extended.holds holds ok targetOk
  have fits := targetOk.valid chunk chunkMember
  have used := targetOk.used_le chunk chunkMember
  have tops := extended.topIn_eq ok targetOk
  have chunkTop : topIn arena.chunks chunk.addr =
      dataOf chunk.addr + chunk.used := by
    rw [← tops, ArenaAllocator.topIn_eq, targetOk.usedAt_eq chunkMember]
  unfold Chunk.extent at fits
  rcases place_headers target above (by omega) (by omega) size with
    ⟨home, mark⟩
  have sum : sizeAdd start size = start + size := sizeAdd_eq (by omega)
  refine .placed ?_ ?_ ?_ ?_
  · simp only [placementIn, home, mark]
    exact chunkTop.symm
  · simp only [placementIn, home, Slice.finish]
    unfold Arena.place
    dsimp only
    rw [topIn_setUsed chunkMember, sum]
    omega
  · intro region different
    simp only [placementIn, home] at different
    unfold Arena.place
    dsimp only
    rw [topIn_setUsed_of_ne _ different, tops]
  · refine unwinds_headers holds ok (List.Subset.refl _) unwound ?_
    intro other member
    have kept : WithHeader arena.backing.memory
        (target.place chunk start size).backing.memory other :=
      (extended.withHeader holds ok member).trans
        (targetHolds.place_withHeader targetOk member chunkMember above
          inside)
    exact kept.header

/-- The newest block gets another end. -/
theorem Unwound.resizeTop {size : Nat}
    (unwound : Unwound arena (block :: rest) (before :: earlier))
    (ok : ChunksOk arena) (chunkMember : chunk ∈ arena.chunks)
    (home : chunk.addr = arena.homeOf block.ptr)
    (low : dataOf chunk.addr ≤ block.ptr)
    (room : block.ptr + size ≤ dataOf chunk.addr + chunk.size) :
    Unwound (arena.resizeTop block size) (⟨block.ptr, size⟩ :: rest)
      (before :: earlier) := by
  have sameHome :
      headerChunk arena.backing.memory block.ptr = chunk.addr :=
    home.symm
  rw [resizeTop_eq ok chunkMember home room]
  refine Unwinds.resize unwound rfl rfl ?_ ?_
  · simp only [placementIn, sameHome, Slice.finish]
    rw [topIn_setUsed chunkMember]
    omega
  · intro region different
    simp only [placementIn, sameHome] at different
    exact topIn_setUsed_of_ne _ different

/-- Freeing the newest block. -/
theorem Unwound.free
    (unwound : Unwound arena (block :: rest) (before :: earlier))
    (holds : Holds arena (block :: rest)) (ok : ChunksOk arena) :
    topIn (arenaFree arena block).chunks = topIn before.chunks ∧
      Unwound (arenaFree arena block) rest earlier := by
  rcases holds.valid ok List.mem_cons_self with ⟨valid, homeValid⟩
  rcases holds.homed block List.mem_cons_self with
    ⟨chunk, chunkMember, home⟩
  have topmost := unwound.topmost
  have released : arenaFree arena block =
      { arena with
        chunks :=
          setUsed arena.chunks chunk.addr
            (headerPrevOffset arena.backing.memory block.ptr) } := by
    simp only [arenaFree, valid, homeValid, topmost, if_false,
      not_true_eq_false, home]
  have sameHome :
      headerChunk arena.backing.memory block.ptr = chunk.addr :=
    home.symm
  have popped :
      topIn (setUsed arena.chunks chunk.addr
          (headerPrevOffset arena.backing.memory block.ptr)) =
        topIn before.chunks ∧
      Unwinds (placementIn arena.backing.memory) dataOf
        (topIn before.chunks) rest
        (earlier.map fun arena => topIn arena.chunks) := by
    apply Unwinds.pop unwound
    · simp only [placementIn, sameHome]
      exact topIn_setUsed chunkMember _
    · intro region different
      simp only [placementIn, sameHome] at different
      exact topIn_setUsed_of_ne _ different
  rw [released]
  refine ⟨popped.1, ?_⟩
  unfold Unwound
  dsimp only
  rw [popped.1]
  exact popped.2

/-! ## Blocks that move -/

section Move

variable {target : Arena} {start size : Nat}

/-- The copied bytes lie behind the header of the new block. -/
theorem relocate_headers
    (target : Arena)
    (above : chunk.used + headerSize ≤ start)
    (addrFits : chunk.addr < sizeLimit) (usedFits : chunk.used < sizeLimit)
    (block : Slice) (size : Nat) :
    headerChunk (target.relocate chunk block start size).backing.memory
        (dataOf chunk.addr + start) = chunk.addr ∧
      headerPrevOffset (target.relocate chunk block start size).backing.memory
        (dataOf chunk.addr + start) = chunk.used := by
  have large : headerSize ≤ (⟨dataOf chunk.addr + start, size⟩ : Slice).ptr := by
    dsimp only
    omega
  have kept : SameHeader (target.place chunk start size).backing.memory
      (target.relocate chunk block start size).backing.memory
      ⟨dataOf chunk.addr + start, size⟩ := by
    apply blit_sameBytes
    unfold Apart
    dsimp only
    omega
  rcases place_headers target above addrFits usedFits size with
    ⟨home, mark⟩
  exact ⟨kept.chunk_eq.trans home, (kept.prevOffset_eq large).trans mark⟩

/-- Where the old block was before it moved, it is still the topmost one. -/
theorem relocate_free
    (valid : block.ptr ≠ 0)
    (homeValid : arena.homeOf block.ptr ≠ 0)
    (topmost : arena.Topmost block)
    (tops : topIn target.chunks = topIn arena.chunks)
    (apart : arena.homeOf block.ptr ≠ chunk.addr)
    (same : headerChunk
        (target.relocate chunk block start size).backing.memory block.ptr =
      arena.homeOf block.ptr) :
    arenaFree (target.relocate chunk block start size) block =
      { target.relocate chunk block start size with
        chunks :=
          setUsed (target.relocate chunk block start size).chunks
            (arena.homeOf block.ptr)
            (headerPrevOffset
              (target.relocate chunk block start size).backing.memory
              block.ptr) } := by
  have sameHome : (target.relocate chunk block start size).homeOf
      block.ptr = arena.homeOf block.ptr := same
  have stays : (target.relocate chunk block start size).Topmost block := by
    unfold Arena.Topmost at topmost ⊢
    rw [sameHome, topmost]
    have before := congrFun tops (arena.homeOf block.ptr)
    have after : topIn (setUsed target.chunks chunk.addr
        (sizeAdd start size)) (arena.homeOf block.ptr) =
          topIn target.chunks (arena.homeOf block.ptr) :=
      topIn_setUsed_of_ne _ apart
    unfold topIn at before after
    exact before.symm.trans after.symm
  unfold arenaFree
  rw [if_neg valid, sameHome, if_neg homeValid, if_neg (not_not_intro stays)]

/-- The newest block moves to another chunk. -/
theorem Unwound.move
    (unwound : Unwound arena (block :: rest) (before :: earlier))
    (holds : Holds arena (block :: rest)) (ok : ChunksOk arena)
    (targetOk : ChunksOk target) (extended : Extended arena target)
    (chunkMember : chunk ∈ target.chunks)
    (above : chunk.used + headerSize ≤ start)
    (inside : start + size ≤ chunk.size)
    (apart : arena.homeOf block.ptr ≠ chunk.addr) :
    Unwound (arenaFree (target.relocate chunk block start size) block)
      (⟨dataOf chunk.addr + start, size⟩ :: rest) (before :: earlier) := by
  have targetHolds := extended.holds holds ok targetOk
  have fits := targetOk.valid chunk chunkMember
  have used := targetOk.used_le chunk chunkMember
  have tops := extended.topIn_eq ok targetOk
  have chunkTop : topIn arena.chunks chunk.addr =
      dataOf chunk.addr + chunk.used := by
    rw [← tops, ArenaAllocator.topIn_eq, targetOk.usedAt_eq chunkMember]
  unfold Chunk.extent at fits
  have sum : sizeAdd start size = start + size := sizeAdd_eq (by omega)
  rcases relocate_headers target above (by omega) (by omega) block size with
    ⟨newHome, newMark⟩
  have headers : ∀ other ∈ block :: rest,
      SameHeader arena.backing.memory
        (target.relocate chunk block start size).backing.memory other := by
    intro other member
    have kept : WithHeader arena.backing.memory
        (target.relocate chunk block start size).backing.memory other :=
      (extended.withHeader holds ok member).trans
        (targetHolds.relocate_withHeader targetOk member chunkMember above
          inside)
    exact kept.header
  have sameHome : headerChunk
      (target.relocate chunk block start size).backing.memory block.ptr =
        arena.homeOf block.ptr :=
    (headers block List.mem_cons_self).chunk_eq
  rcases holds.homed block List.mem_cons_self with
    ⟨home, homeMember, homeAddr⟩
  rcases holds.valid ok List.mem_cons_self with ⟨valid, homeValid⟩
  rw [relocate_free valid homeValid unwound.topmost tops apart sameHome]
  have kept := unwinds_headers holds ok (List.Subset.refl _) unwound headers
  unfold Unwound
  dsimp only
  have moved : ∀ region, region ≠ chunk.addr →
      topIn (target.relocate chunk block start size).chunks region =
        topIn arena.chunks region := by
    intro region different
    rw [← tops]
    exact topIn_setUsed_of_ne _ different
  have homeStays :
      home ∈ (target.relocate chunk block start size).chunks := by
    refine mem_setUsed.mpr ⟨home, extended.chunks homeMember, ?_⟩
    rw [if_neg (homeAddr.symm ▸ apart)]
  rw [← homeAddr] at sameHome apart ⊢
  refine Unwinds.move kept ?_ ?_ ?_ ?_ ?_
  · simp only [placementIn, newHome, sameHome]
    exact apart.symm
  · simp only [placementIn, newHome, newMark]
    exact chunkTop.symm
  · simp only [placementIn, newHome, Slice.finish]
    rw [topIn_setUsed_of_ne _ apart.symm]
    have top : topIn (target.relocate chunk block start size).chunks
        chunk.addr = dataOf chunk.addr + sizeAdd start size :=
      topIn_setUsed chunkMember _
    rw [top, sum]
    omega
  · simp only [placementIn, sameHome]
    exact topIn_setUsed homeStays _
  · intro region different other
    simp only [placementIn, newHome, sameHome] at different other
    rw [topIn_setUsed_of_ne _ other]
    exact moved region different

end Move

/--
A newest block that does not grow in place does not fit behind itself
either, so it moves to another chunk.
-/
theorem apart_of_not_growsInPlace
    {target : Arena} (holds : Holds arena live) (ok : ChunksOk arena)
    (member : block ∈ live) (topmost : arena.Topmost block)
    (full : ¬ arena.GrowsInPlace block layout)
    (targetOk : ChunksOk target) (extended : Extended arena target)
    (chunkMember : chunk ∈ target.chunks)
    (above : chunk.used + headerSize ≤ chunk.startFor layout)
    (inside : chunk.startFor layout + layout.elemSize ≤ chunk.size) :
    arena.homeOf block.ptr ≠ chunk.addr := by
  rcases holds.extent ok member with ⟨home, homeMember, homeAddr, low, top⟩
  have used := ok.used_le home homeMember
  have bound := (ok.valid home homeMember).2
  intro same
  have equal : home = chunk :=
    targetOk.eq_of_addr (extended.chunks homeMember) chunkMember
      (homeAddr.trans same)
  subst equal
  apply full
  refine ⟨topmost, ?_⟩
  rw [← homeAddr, ok.chunkAt_eq homeMember]
  unfold Chunk.extent at bound
  unfold Slice.finish dataOf at top
  unfold dataOf at low
  have free : sizeSub home.size home.used = home.size - home.used :=
    sizeSub_eq used (by omega)
  rw [free, sizeAdd_eq (by omega)]
  omega

/-! ## One step -/

/-- The invariant of the runs, and the tops unwind along the ledger. -/
structure LedgerOk (ledger : Ledger Arena) : Prop where
  invariant : Invariant ledger.world
  unwound : Unwound ledger.world.state ledger.world.live ledger.before

/-- A call that fails keeps the tops and the headers. -/
theorem SameArena.unwound {after : Arena}
    (same : SameArena arena after)
    (unwound : Unwound arena live earlier) :
    Unwound after live earlier := by
  unfold Unwound
  rw [same.chunks, same.memory]
  exact unwound

theorem LedgerOk.alloc
    (good : LedgerOk ledger) (fits : ledger.world.state.SumsFit layout) :
    Unwound (ledger.step arenaAllocator (.alloc layout)).world.state
      (ledger.step arenaAllocator (.alloc layout)).world.live
      (ledger.step arenaAllocator (.alloc layout)).before := by
  rcases good with ⟨⟨ok, holds⟩, unwound⟩
  unfold Ledger.step Allocator.step
  simp only [arenaAllocator]
  rcases arenaAlloc_cases ok fits with
    ⟨error, after, failed, same⟩ |
    ⟨target, chunk, targetOk, extended, chunkMember, above, inside,
      nonempty, placed⟩
  · rw [failed]
    exact same.unwound unwound
  · have valid : dataOf chunk.addr + chunk.startFor layout ≠ 0 := by
      unfold dataOf chunkHeaderSize
      omega
    rw [placed, World.receive_ok _ _ _ _ valid]
    exact unwound.place holds ok targetOk extended chunkMember above inside

/-- Every live block has an entry in the ledger. -/
theorem Unwound.written
    (unwound : Unwound arena (block :: rest) earlier) :
    ∃ before older, earlier = before :: older := by
  rcases Unwinds.written unwound with ⟨top, tops, written⟩
  rcases List.map_eq_cons_iff.mp written with ⟨before, older, same, _⟩
  exact ⟨before, older, same⟩

theorem LedgerOk.grow
    (good : LedgerOk ledger)
    (newest : ledger.world.live.head? = some block)
    (fits : ¬ ledger.world.state.GrowsInPlace block layout →
      ledger.world.state.SumsFit layout) :
    Unwound (ledger.step arenaAllocator (.grow block layout)).world.state
      (ledger.step arenaAllocator (.grow block layout)).world.live
      (ledger.step arenaAllocator (.grow block layout)).before := by
  rcases ledger with ⟨⟨arena, live⟩, earlier⟩
  rcases good with ⟨⟨ok, holds⟩, unwound⟩
  dsimp only at newest fits ok holds unwound
  rcases List.head?_eq_some_iff.mp newest with ⟨rest, rfl⟩
  rcases unwound.written with ⟨before, older, rfl⟩
  rcases holds.extent ok List.mem_cons_self with
    ⟨home, homeMember, homeAddr, low, top⟩
  have valid := (holds.valid ok List.mem_cons_self).1
  unfold Ledger.step Allocator.step
  simp only [arenaAllocator]
  rcases arenaGrow_cases holds ok List.mem_cons_self fits with
    ⟨error, after, failed, same⟩ | ⟨inPlace, grown⟩ |
    ⟨full, target, chunk, targetOk, extended, chunkMember, above, inside,
      moved⟩
  · rw [failed]
    exact same.unwound unwound
  · rw [grown, World.receive_ok _ _ _ _ valid, release,
      List.erase_cons_head]
    exact unwound.resizeTop ok homeMember homeAddr (by omega)
      (GrowsInPlace.room ok homeMember homeAddr inPlace)
  · have newValid : dataOf chunk.addr + chunk.startFor layout ≠ 0 := by
      unfold dataOf chunkHeaderSize
      omega
    rw [moved, World.receive_ok _ _ _ _ newValid, release,
      List.erase_cons_head]
    exact unwound.move holds ok targetOk extended chunkMember above inside
      (apart_of_not_growsInPlace holds ok List.mem_cons_self
        unwound.topmost full targetOk extended chunkMember above inside)

theorem LedgerOk.shrink
    (good : LedgerOk ledger)
    (newest : ledger.world.live.head? = some block)
    (some' : layout.elemSize ≠ 0)
    (shorter : layout.elemSize ≤ block.length) :
    Unwound (ledger.step arenaAllocator (.shrink block layout)).world.state
      (ledger.step arenaAllocator (.shrink block layout)).world.live
      (ledger.step arenaAllocator (.shrink block layout)).before := by
  rcases ledger with ⟨⟨arena, live⟩, earlier⟩
  rcases good with ⟨⟨ok, holds⟩, unwound⟩
  dsimp only at newest ok holds unwound
  rcases List.head?_eq_some_iff.mp newest with ⟨rest, rfl⟩
  rcases unwound.written with ⟨before, older, rfl⟩
  rcases holds.extent ok List.mem_cons_self with
    ⟨home, homeMember, homeAddr, low, top⟩
  have used := ok.used_le home homeMember
  rcases holds.valid ok List.mem_cons_self with ⟨valid, homeValid⟩
  have topmost := unwound.topmost
  have resized : arenaShrink arena block layout =
      (.ok ⟨block.ptr, layout.elemSize⟩,
        arena.resizeTop block layout.elemSize) := by
    simp [arenaShrink, valid, homeValid, some', topmost]
  unfold Ledger.step Allocator.step
  simp only [arenaAllocator]
  rw [resized, World.receive_ok _ _ _ _ valid, release,
    List.erase_cons_head]
  unfold Slice.finish at top
  exact unwound.resizeTop ok homeMember homeAddr (by omega) (by omega)

theorem LedgerOk.free
    (good : LedgerOk ledger)
    (newest : ledger.world.live.head? = some block) :
    Unwound (ledger.step arenaAllocator (.free block)).world.state
      (ledger.step arenaAllocator (.free block)).world.live
      (ledger.step arenaAllocator (.free block)).before := by
  rcases ledger with ⟨⟨arena, live⟩, earlier⟩
  rcases good with ⟨⟨ok, holds⟩, unwound⟩
  dsimp only at newest ok holds unwound
  rcases List.head?_eq_some_iff.mp newest with ⟨rest, rfl⟩
  rcases unwound.written with ⟨before, older, rfl⟩
  unfold Ledger.step Allocator.step
  simp only [arenaAllocator, List.erase_cons_head, List.tail_cons]
  exact (unwound.free holds ok).2

theorem LedgerOk.write
    (good : LedgerOk ledger) (member : block ∈ ledger.world.live)
    (content : Memory) :
    Unwound (ledger.step arenaAllocator (.write block content)).world.state
      (ledger.step arenaAllocator (.write block content)).world.live
      (ledger.step arenaAllocator (.write block content)).before := by
  rcases good with ⟨⟨ok, holds⟩, unwound⟩
  exact unwinds_headers holds ok (List.Subset.refl _) unwound
    fun other otherMember =>
      holds.write_header ok member otherMember content

/-- A permitted call of a client that works on its newest block. -/
theorem LedgerOk.step
    {call : Call} (good : LedgerOk ledger)
    (allowed : OnNewest Permitted ledger call) :
    LedgerOk (ledger.step arenaAllocator call) := by
  refine ⟨(step_safe good.invariant allowed.1).1, ?_⟩
  rcases allowed with ⟨permitted, newest⟩
  cases call with
  | alloc layout => exact good.alloc permitted
  | grow old layout => exact good.grow newest permitted.2
  | shrink old layout => exact good.shrink newest.1 newest.2 permitted.2
  | free mem => exact good.free newest
  | write block content => exact good.write permitted content

/-! ## Runs -/

theorem arena_reclaims
    {backing : BackingAllocator.Backing} {chunkSize : Nat}
    (kept : Kept arenaAllocator Permitted (arenaCreate backing chunkSize)
      ledger) :
    Reclaims arenaAllocator Restored Unused ledger := by
  have good : LedgerOk ledger := by
    refine Reachable.invariant LedgerOk ?_
      (fun _ _ good allowed => good.step allowed) kept
    rintro start rfl
    refine ⟨create_invariant backing chunkSize, ?_⟩
    have bottom : topIn (arenaCreate backing chunkSize).state.chunks =
        dataOf := rfl
    unfold Unwound
    rw [bottom]
    exact .empty
  rcases ledger with ⟨⟨arena, live⟩, earlier⟩
  rcases good with ⟨⟨ok, holds⟩, unwound⟩
  dsimp only at ok holds unwound
  constructor
  · rintro block rest ⟨rfl⟩
    rcases unwound.written with ⟨before, older, rfl⟩
    refine ⟨before, older, rfl, ?_⟩
    exact (arenaFree_holds holds ok List.mem_cons_self).1.restored
      (unwound.free holds ok).1
  · rintro ⟨rfl⟩
    exact ok.unused (Unwinds.eq_base unwound)

/-! ## Shrinking to nothing -/

/--
Giving a block up by shrinking it to size 0 leaves the arena as freeing it
does, with the fill of its chunk from before the block was placed.
-/
def ShrinksLikeFree (arena : Arena) (block : Slice) (alignment : Nat) :
    Prop :=
  (arenaShrink arena block ⟨0, alignment⟩).2 = arenaFree arena block ∧
    (arenaShrink arena block ⟨0, alignment⟩).2.usedAt
        (arena.homeOf block.ptr) =
      headerPrevOffset arena.backing.memory block.ptr

theorem usedAt_setUsed
    (chunkMember : chunk ∈ arena.chunks) (used : Nat) :
    Arena.usedAt
        { arena with chunks := setUsed arena.chunks chunk.addr used }
        chunk.addr =
      used := by
  have top := topIn_eq
    { arena with chunks := setUsed arena.chunks chunk.addr used } chunk.addr
  rw [topIn_setUsed chunkMember] at top
  omega

/-- Of two moves of the top of a chunk only the second one is seen. -/
theorem setUsed_setUsed (chunks : List Chunk) (addr first second : Nat) :
    setUsed (setUsed chunks addr first) addr second =
      setUsed chunks addr second := by
  unfold setUsed
  rw [List.map_map]
  apply List.map_congr_left
  intro chunk _
  by_cases same : chunk.addr = addr <;> simp [same]

/-- Freeing the topmost block puts the stored offset back. -/
theorem arenaFree_topmost
    (valid : block.ptr ≠ 0) (homeValid : arena.homeOf block.ptr ≠ 0)
    (topmost : arena.Topmost block) :
    arenaFree arena block =
      { arena with
        chunks :=
          setUsed arena.chunks (arena.homeOf block.ptr)
            (headerPrevOffset arena.backing.memory block.ptr) } := by
  simp only [arenaFree, valid, homeValid, topmost, if_false,
    not_true_eq_false]

/--
Shrinking the topmost block to nothing first moves the top to its start.
The end of the block is no longer the top then, unless the block is empty.
-/
theorem topmost_resizeTop
    (holds : Holds arena live) (ok : ChunksOk arena)
    (member : block ∈ live) :
    (arena.resizeTop block 0).Topmost block ↔ block.length = 0 := by
  rcases holds.extent ok member with
    ⟨chunk, chunkMember, home, low, top⟩
  have used := ok.used_le chunk chunkMember
  have resized := @resizeTop_eq _ _ _ 0 ok chunkMember home
    (by unfold Slice.finish at top; omega)
  have sameHome : (arena.resizeTop block 0).homeOf block.ptr = chunk.addr :=
    home.symm
  have moved : (chunkAt (arena.resizeTop block 0).chunks chunk.addr).used =
      block.ptr - dataOf chunk.addr := by
    rw [resized]
    exact chunkAt_setUsed_used _ ⟨chunk, chunkMember, rfl⟩
  unfold Arena.Topmost
  rw [sameHome, moved]
  unfold Slice.finish
  omega

/-- What is left after shrinking the topmost block to nothing. -/
theorem arenaShrink_zero
    (holds : Holds arena live) (ok : ChunksOk arena)
    (member : block ∈ live) (topmost : arena.Topmost block)
    (alignment : Nat) :
    (arenaShrink arena block ⟨0, alignment⟩).2 =
      if block.length = 0 then arenaFree arena block
      else arena.resizeTop block 0 := by
  rcases holds.valid ok member with ⟨valid, homeValid⟩
  have released : (arenaShrink arena block ⟨0, alignment⟩).2 =
      arenaFree (arena.resizeTop block 0) block := by
    simp [arenaShrink, valid, homeValid, topmost]
  have still := topmost_resizeTop holds ok member
  rw [released]
  by_cases empty : block.length = 0
  · have sameHome :
        (arena.resizeTop block 0).homeOf block.ptr =
          arena.homeOf block.ptr :=
      rfl
    have again :=
      @arenaFree_topmost (arena.resizeTop block 0) block valid homeValid
        (still.mpr empty)
    rw [if_pos empty, arenaFree_topmost valid homeValid topmost, again,
      sameHome]
    unfold Arena.resizeTop
    simp only [setUsed_setUsed]
  · have ignored : ¬ (arena.resizeTop block 0).Topmost block :=
      fun stays => empty (still.mp stays)
    rw [if_neg empty]
    unfold arenaFree
    simp only [ignored, not_false_eq_true, if_true, ite_self]

/--
In every reached arena, shrinking the topmost block of a chunk to size 0 is
the same as freeing it exactly if the block is empty already.
-/
theorem shrinksLikeFree_iff
    {backing : BackingAllocator.Backing} {chunkSize : Nat}
    {world : World Arena}
    (reached : Reached backing chunkSize world)
    (member : block ∈ world.live)
    (topmost : world.state.Topmost block) (alignment : Nat) :
    ShrinksLikeFree world.state block alignment ↔ block.length = 0 := by
  rcases reached_invariant reached with ⟨ok, holds⟩
  rcases holds.valid ok member with ⟨valid, homeValid⟩
  rcases holds.extent ok member with
    ⟨chunk, chunkMember, home, low, top⟩
  unfold ShrinksLikeFree
  rw [arenaShrink_zero holds ok member topmost]
  constructor
  · rintro ⟨_, restored⟩
    by_contra filled
    have used := ok.used_le chunk chunkMember
    rw [if_neg filled, resizeTop_eq ok chunkMember home
      (by unfold Slice.finish at top; omega), ← home,
      usedAt_setUsed chunkMember] at restored
    unfold headerSize at low
    omega
  · intro empty
    rw [if_pos empty, arenaFree_topmost valid homeValid topmost, ← home]
    exact ⟨rfl, usedAt_setUsed chunkMember _⟩

theorem shrinksLikeFree_iff_twoBlocks :
    ShrinksLikeFree twoBlocks.state ⟨4168, 5⟩ 1 ↔ 5 = 0 :=
  shrinksLikeFree_iff twoBlocks_reached (by decide +kernel)
    (by decide +kernel) 1

/--
The upper block of a chunk is shrunk to nothing.  Its header and its padding
stay in use, and the block below is not the topmost one, as it is after the
upper one was freed.
-/
theorem shrinksLikeFree_twoBlocks :
    Reached oneChunk 64 twoBlocks ∧
      ⟨4168, 5⟩ ∈ twoBlocks.live ∧ ⟨4136, 16⟩ ∈ twoBlocks.live ∧
      twoBlocks.state.Topmost ⟨4168, 5⟩ ∧
      (arenaFree twoBlocks.state ⟨4168, 5⟩).Topmost ⟨4136, 16⟩ ∧
      ¬ (arenaShrink twoBlocks.state ⟨4168, 5⟩ ⟨0, 1⟩).2.Topmost
          ⟨4136, 16⟩ ∧
      ¬ ShrinksLikeFree twoBlocks.state ⟨4168, 5⟩ 1 := by
  refine ⟨twoBlocks_reached, by decide +kernel, by decide +kernel,
    by decide +kernel, by decide +kernel, by decide +kernel, ?_⟩
  rintro ⟨_, restored⟩
  revert restored
  decide +kernel

end Libcute.Memory.ArenaAllocator
