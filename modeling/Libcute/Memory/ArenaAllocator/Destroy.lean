import Libcute.Memory.ArenaAllocator
import Libcute.Memory.BackingAccount

/-!
# Destroying an arena

The account of the backing allocator always holds exactly the chunks: every
chunk is asked for with the size that `cu_arena_destroy_chunk` computes
again, and nothing else is ever asked for.
-/

namespace Libcute.Memory.ArenaAllocator

open Libcute.Core.Interface
open Libcute.Core.NoStd
open Libcute.Core.Size
open Libcute.Library.Transition
open Libcute.Memory.BackingAccount
open Libcute.Memory.BackingAllocator
open Libcute.Memory.Client

variable {arena after : Arena} {chunk : Chunk} {layout : Layout}

/-- The backing block of a chunk, as it is freed. -/
def Chunk.region (chunk : Chunk) : Slice :=
  ⟨chunk.addr, sizeAdd chunkHeaderSize chunk.size⟩

/-- `cu_arena_destroy_chunk` -/
def arenaDestroyChunk (backing : Backing) (chunk : Chunk) : Backing :=
  backing.free chunk.region

/-- `cu_ArenaAllocator_destroy` -/
def arenaDestroy (arena : Arena) : Arena :=
  { arena with
    backing := arena.chunks.foldl arenaDestroyChunk arena.backing
    chunks := [] }

/--
The calls of a client on live blocks whose size sums do not wrap; a block
may be shrunk to any size.
-/
def Admitted (world : World Arena) : Call → Prop
  | .alloc layout => world.state.SumsFit layout
  | .grow old layout =>
      old ∈ world.live ∧
        (¬ world.state.GrowsInPlace old layout →
          world.state.SumsFit layout)
  | .shrink old _ => old ∈ world.live
  | .free mem => mem ∈ world.live
  | .write block _ => block ∈ world.live

/-- The account holds the chunks. -/
structure Accounts (arena : Arena) : Prop where
  accounted : Accounted arena.backing (arena.chunks.map Chunk.region)
  valid : ∀ chunk ∈ arena.chunks, chunk.addr ≠ 0

/-- Only the chunks and the recorded calls count. -/
theorem Accounts.congr
    (accounts : Accounts arena)
    (regions : after.chunks.map Chunk.region =
      arena.chunks.map Chunk.region)
    (log : after.backing.log = arena.backing.log) :
    Accounts after where
  accounted := by
    rw [regions]
    exact accounts.accounted.congr log
  valid := by
    intro chunk member
    have there : chunk.region ∈ arena.chunks.map Chunk.region := by
      rw [← regions]
      exact List.mem_map_of_mem member
    rcases List.mem_map.mp there with ⟨other, otherMember, same⟩
    have addr : other.addr = chunk.addr := congrArg Slice.ptr same
    rw [← addr]
    exact accounts.valid other otherMember

theorem setUsed_regions (chunks : List Chunk) (addr used : Nat) :
    (setUsed chunks addr used).map Chunk.region =
      chunks.map Chunk.region := by
  unfold setUsed
  rw [List.map_map]
  apply List.map_congr_left
  intro chunk member
  simp only [Function.comp_apply]
  split_ifs <;> rfl

/-! ## One step -/

theorem Accounts.place
    (accounts : Accounts arena) (chunk : Chunk) (start size : Nat) :
    Accounts (arena.place chunk start size) :=
  accounts.congr (setUsed_regions _ _ _) rfl

theorem Accounts.createChunk_none {size : Nat}
    (accounts : Accounts arena)
    (created : arenaCreateChunk arena size = (none, after)) :
    Accounts after := by
  unfold arenaCreateChunk at created
  dsimp only at created
  split at created
  · rename_i error backing answer
    cases created
    exact ⟨accounts.accounted.alloc_error answer, accounts.valid⟩
  · cases created

theorem Accounts.createChunk_some {size : Nat}
    (accounts : Accounts arena)
    (created : arenaCreateChunk arena size = (some chunk, after)) :
    Accounts { after with chunks := chunk :: after.chunks } := by
  unfold arenaCreateChunk at created
  dsimp only at created
  split at created
  · cases created
  · rename_i block backing answer
    cases created
    have asked : (Layout.create (sizeAdd chunkHeaderSize size)
        maxAlign).elemSize = sizeAdd chunkHeaderSize size :=
      Layout.create_elemSize _ (by decide)
    have taken := accounts.accounted.alloc_size answer
    rw [asked] at taken
    refine ⟨taken, fun chunk member => ?_⟩
    rcases List.mem_cons.mp member with rfl | old
    · exact (Accounted.alloc_log answer).1
    · exact accounts.valid chunk old

theorem Accounts.alloc
    (accounts : Accounts arena) (layout : Layout) :
    Accounts (arenaAlloc arena layout).2 := by
  unfold arenaAlloc
  split_ifs with empty
  · exact accounts
  · dsimp only
    split
    · exact accounts.place _ _ _
    · split
      · rename_i later created
        exact accounts.createChunk_none created
      · rename_i chunk later created
        exact (accounts.createChunk_some created).place _ _ _

theorem Accounts.free
    (accounts : Accounts arena) (mem : Slice) :
    Accounts (arenaFree arena mem) := by
  unfold arenaFree
  split_ifs
  · exact accounts
  · exact accounts
  · exact accounts.congr (setUsed_regions _ _ _) rfl
  · exact accounts

theorem Accounts.resizeTop
    (accounts : Accounts arena) (old : Slice) (size : Nat) :
    Accounts (arena.resizeTop old size) :=
  accounts.congr (setUsed_regions _ _ _) rfl

theorem Accounts.grow
    (accounts : Accounts arena) (old : Slice) (layout : Layout) :
    Accounts (arenaGrow arena old layout).2 := by
  have allocated := accounts.alloc layout
  unfold arenaGrow
  split
  · exact allocated
  split
  · exact accounts
  split
  · exact accounts.resizeTop _ _
  split
  · rename_i error later answer
    rw [answer] at allocated
    exact allocated
  · rename_i new later answer
    rw [answer] at allocated
    dsimp only
    apply Accounts.free
    split
    · exact allocated.congr rfl rfl
    · exact allocated

theorem Accounts.shrink
    (accounts : Accounts arena) (old : Slice) (layout : Layout) :
    Accounts (arenaShrink arena old layout).2 := by
  have cut : Accounts
      (if arena.Topmost old then arena.resizeTop old layout.elemSize
        else arena) := by
    split
    · exact accounts.resizeTop _ _
    · exact accounts
  unfold arenaShrink
  split
  · exact accounts
  split
  · exact accounts
  dsimp only
  split
  · exact cut.free old
  · exact cut

/-- Every call keeps the account, whatever it is about. -/
theorem Accounts.step {world : World Arena}
    (accounts : Accounts world.state) (call : Call) :
    Accounts (arenaAllocator.step world call).state := by
  apply Allocator.step_keeps call
  · exact fun layout _ => accounts.alloc layout
  · exact fun old layout _ => accounts.grow old layout
  · exact fun old layout _ => accounts.shrink old layout
  · exact fun mem _ => accounts.free mem
  · exact fun _ => accounts.congr rfl rfl

/-! ## Destroying -/

/-- Freeing the chunks one after another empties the account. -/
theorem destroy_chunks {backing : Backing} {chunks : List Chunk}
    (accounted : Accounted backing (chunks.map Chunk.region))
    (valid : ∀ chunk ∈ chunks, chunk.addr ≠ 0) :
    Accounted (chunks.foldl arenaDestroyChunk backing) [] := by
  induction chunks generalizing backing with
  | nil => exact accounted
  | cons chunk chunks induction =>
      rw [List.map_cons] at accounted
      rw [List.foldl_cons]
      refine induction ?_ fun other member =>
        valid other (List.mem_cons_of_mem _ member)
      exact accounted.free (valid chunk List.mem_cons_self)

theorem arena_returns
    {backing : Backing} {chunkSize : Nat} {world : World Arena}
    (fresh : backing.log = [])
    (reached : Reachable (· = arenaCreate backing chunkSize) Admitted
      arenaAllocator.step world)
    (exactly : ∀ event ∈ (arenaDestroy world.state).backing.log,
      Exact event) :
    outstanding (arenaDestroy world.state).backing.log = some [] := by
  have accounts : Accounts world.state := by
    refine Reachable.invariant (fun world => Accounts world.state) ?_
      (fun _ call accounts _ => accounts.step call) reached
    rintro start rfl
    exact ⟨Accounted.start fresh, fun chunk member => by cases member⟩
  exact (destroy_chunks accounts.accounted accounts.valid).outstanding_nil
    exactly

end Libcute.Memory.ArenaAllocator
