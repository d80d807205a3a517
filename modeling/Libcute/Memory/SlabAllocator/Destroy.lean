import Libcute.Memory.BackingAccount
import Libcute.Memory.SlabAllocator

/-!
# Destroying a slab allocator

Every slab has two backing blocks, its memory and its bitmap, whose sizes
`cu_SlabAllocator_destroy` computes from the slot count.  The account of the
backing allocator holds exactly these, also after a slab could not be
created because there was no memory for its bitmap.
-/

namespace Libcute.Memory.SlabAllocator

open Libcute.Collection.Bitmap
open Libcute.Core.Interface
open Libcute.Core.NoStd
open Libcute.Core.Size
open Libcute.Library
open Libcute.Library.ByteMemory
open Libcute.Library.Transition
open Libcute.Memory.BackingAccount
open Libcute.Memory.BackingAllocator
open Libcute.Memory.Client

variable {pool after : SlabPool} {slab : Slab} {layout : Layout}

/-- The backing blocks of a slab, as they are freed. -/
def Slab.parts (slabSize : Nat) (slab : Slab) : List Slice :=
  [slab.used.region,
    ⟨slab.addr, sizeAdd slabHeaderSize (sizeMul slab.slabCount slabSize)⟩]

/-- The body of the loop of `cu_SlabAllocator_destroy`. -/
def slabDestroySlab (slabSize : Nat) (backing : Backing) (slab : Slab) :
    Backing :=
  let total := sizeAdd slabHeaderSize (sizeMul slab.slabCount slabSize)
  (bitmapDestroy backing slab.used).free ⟨slab.addr, total⟩

/-- `cu_SlabAllocator_destroy` -/
def slabDestroy (pool : SlabPool) : SlabPool :=
  { pool with
    backing := pool.slabs.foldl (slabDestroySlab pool.slabSize) pool.backing
    slabs := [] }

/--
The calls of a client on live blocks whose size sums do not wrap, for any
alignment.
-/
def Admitted (world : World SlabPool) : Call → Prop
  | .alloc layout => world.state.SumsFit layout
  | .grow old layout =>
      old ∈ world.live ∧
        (world.state.currentOf old < layout.elemSize →
          world.state.SumsFit layout)
  | .shrink old layout =>
      old ∈ world.live ∧
        (world.state.currentOf old < layout.elemSize →
          world.state.SumsFit layout) ∧
        (layout.elemSize ≤ world.state.currentOf old →
          world.state.prefixOf old + layout.elemSize +
            world.state.slabSize < sizeLimit)
  | .free mem => mem ∈ world.live
  | .write block _ => block ∈ world.live

/-- The account holds the slabs and their bitmaps. -/
structure Accounts (pool : SlabPool) : Prop where
  accounted : Accounted pool.backing
    (pool.slabs.flatMap (Slab.parts pool.slabSize))
  valid : ∀ slab ∈ pool.slabs, slab.addr ≠ 0 ∧ slab.used.addr ≠ 0

/-! ## Bitmaps that are changed -/

theorem setRun_addr (used : Bits) (index need : Nat) :
    (setRun used index need).addr = used.addr := by
  induction need with
  | zero => rfl
  | succ need induction => rw [setRun, Bits.set_addr, induction]

theorem clearRun_addr (used : Bits) (index need : Nat) :
    (clearRun used index need).addr = used.addr := by
  induction need with
  | zero => rfl
  | succ need induction => rw [clearRun, Bits.clear_addr, induction]

/-- A change of a slab that keeps its blocks and addresses. -/
def KeepsParts (change : Slab → Slab) : Prop :=
  ∀ slab slabSize,
    (change slab).parts slabSize = slab.parts slabSize ∧
      (change slab).addr = slab.addr ∧
      (change slab).used.addr = slab.used.addr

theorem take_keepsParts (index need : Nat) :
    KeepsParts (Slab.take index need) := by
  intro slab slabSize
  refine ⟨?_, rfl, setRun_addr _ _ _⟩
  unfold Slab.parts Bits.region Slab.take
  dsimp only
  rw [setRun_addr, setRun_bitCount]

theorem give_keepsParts (index need : Nat) :
    KeepsParts (Slab.give index need) := by
  intro slab slabSize
  refine ⟨?_, rfl, clearRun_addr _ _ _⟩
  unfold Slab.parts Bits.region Slab.give
  dsimp only
  rw [clearRun_addr, clearRun_bitCount]

/-! ## One step -/

/-- Changing a slab and writing to the memory. -/
theorem Accounts.update {change : Slab → Slab}
    (accounts : Accounts pool) (addr : Nat) (keeps : KeepsParts change)
    (memory : Memory) :
    Accounts
      { backing := { pool.backing with memory }
        slabs := (pool.updateSlab addr change).slabs
        slabSize := pool.slabSize } where
  accounted := by
    have same : (pool.updateSlab addr change).slabs.flatMap
          (Slab.parts pool.slabSize) =
        pool.slabs.flatMap (Slab.parts pool.slabSize) := by
      rw [List.flatMap_def, List.flatMap_def]
      congr 1
      exact KeyedList.map_update _ fun slab => (keeps slab _).1
    dsimp only
    rw [same]
    exact accounts.accounted.congr rfl
  valid := by
    refine KeyedList.forall_update accounts.valid ?_
    intro slab member here valid
    rw [(keeps slab 0).2.1, (keeps slab 0).2.2]
    exact valid

/-- Writing to the memory. -/
theorem Accounts.write
    (accounts : Accounts pool) (memory : Memory) :
    Accounts { pool with backing := { pool.backing with memory } } :=
  ⟨accounts.accounted.congr rfl, accounts.valid⟩

theorem Accounts.place
    (accounts : Accounts pool) (slab : Slab) (index : Nat)
    (layout : Layout) :
    Accounts (pool.place slab index layout).2 :=
  accounts.update slab.addr (take_keepsParts index (pool.needFor layout)) _

/-- A slab without a bitmap is given back at once. -/
theorem Accounts.createSlab_none {count : Nat}
    (accounts : Accounts pool)
    (created : createSlab pool count = (none, after)) :
    Accounts after := by
  unfold createSlab at created
  dsimp only at created
  split at created
  · rename_i error backing answer
    cases created
    exact ⟨accounts.accounted.alloc_error answer, accounts.valid⟩
  · rename_i mem backing answer
    split at created
    · rename_i later bits
      cases created
      have taken :=
        (accounts.accounted.alloc_block answer).bitmapCreate_none bits
      exact ⟨taken.free (Accounted.alloc_log answer).1, accounts.valid⟩
    · cases created

theorem Accounts.createSlab_some {count : Nat}
    (accounts : Accounts pool)
    (created : createSlab pool count = (some slab, after)) :
    Accounts { after with slabs := slab :: after.slabs } := by
  unfold createSlab at created
  dsimp only at created
  split at created
  · cases created
  · rename_i mem backing answer
    split at created
    · cases created
    · rename_i bitmap later bits
      cases created
      have asked := Layout.create_elemSize
        (sizeAdd slabHeaderSize (sizeMul count pool.slabSize))
        (by decide : maxAlign ≠ 0)
      have taken := accounts.accounted.alloc_size answer
      rw [asked] at taken
      rcases taken.bitmapCreate_some bits with ⟨valid, both⟩
      refine ⟨both, fun other member => ?_⟩
      rcases List.mem_cons.mp member with rfl | old
      · exact ⟨(Accounted.alloc_log answer).1, valid⟩
      · exact accounts.valid other old

theorem Accounts.alloc
    (accounts : Accounts pool) (layout : Layout) :
    Accounts (slabAlloc pool layout).2 := by
  unfold slabAlloc
  split
  · exact accounts
  split
  · exact accounts
  split
  · exact accounts.place _ _ _
  split
  · rename_i later created
    exact accounts.createSlab_none created
  · rename_i slab later created
    exact (accounts.createSlab_some created).place _ _ _

theorem Accounts.free
    (accounts : Accounts pool) (mem : Slice) :
    Accounts (slabFree pool mem) := by
  unfold slabFree
  split
  · exact accounts
  · exact accounts.update _ (give_keepsParts _ _) _

theorem Accounts.move
    (accounts : Accounts pool) (old : Slice) (layout : Layout) :
    Accounts (slabMove pool old layout).2 := by
  have allocated := accounts.alloc layout
  unfold slabMove
  split
  · rename_i error later answer
    rw [answer] at allocated
    exact allocated
  · rename_i new later answer
    rw [answer] at allocated
    dsimp only
    apply Accounts.free
    exact allocated.write _

theorem Accounts.grow
    (accounts : Accounts pool) (old : Slice) (layout : Layout) :
    Accounts (slabGrow pool old layout).2 := by
  unfold slabGrow
  split
  · exact accounts.alloc layout
  split
  · exact accounts
  · exact accounts.move old layout

theorem Accounts.shrink
    (accounts : Accounts pool) (old : Slice) (layout : Layout) :
    Accounts (slabShrink pool old layout).2 := by
  unfold slabShrink
  split
  · exact accounts
  split
  · dsimp only
    split
    · exact accounts.update _ (give_keepsParts _ _) _
    · exact accounts
  · exact accounts.move old layout

/-- Every call keeps the account, whatever it is about. -/
theorem Accounts.step {world : World SlabPool}
    (accounts : Accounts world.state) (call : Call) :
    Accounts (slabAllocator.step world call).state := by
  apply Allocator.step_keeps call
  · exact fun layout _ => accounts.alloc layout
  · exact fun old layout _ => accounts.grow old layout
  · exact fun old layout _ => accounts.shrink old layout
  · exact fun mem _ => accounts.free mem
  · exact fun memory => accounts.write memory

/-! ## Destroying -/

/-- Freeing the slabs one after another empties the account. -/
theorem destroy_slabs {backing : Backing} {slabs : List Slab}
    {slabSize : Nat}
    (accounted : Accounted backing (slabs.flatMap (Slab.parts slabSize)))
    (valid : ∀ slab ∈ slabs, slab.addr ≠ 0 ∧ slab.used.addr ≠ 0) :
    Accounted (slabs.foldl (slabDestroySlab slabSize) backing) [] := by
  induction slabs generalizing backing with
  | nil => exact accounted
  | cons slab slabs induction =>
      rcases valid slab List.mem_cons_self with ⟨addr, bits⟩
      rw [List.foldl_cons]
      refine induction ?_ fun other member =>
        valid other (List.mem_cons_of_mem _ member)
      have first : Accounted backing (slab.used.region :: _ :: _) :=
        accounted
      exact (first.destroyBitmap bits).free addr

theorem slab_returns
    {backing : Backing} {slabSize : Nat} {world : World SlabPool}
    (fresh : backing.log = [])
    (reached : Reachable (· = slabCreate backing slabSize) Admitted
      slabAllocator.step world)
    (exactly : ∀ event ∈ (slabDestroy world.state).backing.log,
      Exact event) :
    outstanding (slabDestroy world.state).backing.log = some [] := by
  have accounts : Accounts world.state := by
    refine Reachable.invariant (fun world => Accounts world.state) ?_
      (fun _ call accounts _ => accounts.step call) reached
    rintro start rfl
    exact ⟨Accounted.start fresh, fun slab member => by cases member⟩
  exact (destroy_slabs accounts.accounted accounts.valid).outstanding_nil
    exactly

end Libcute.Memory.SlabAllocator
