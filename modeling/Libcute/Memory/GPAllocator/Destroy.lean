import Libcute.Memory.BackingAccount
import Libcute.Memory.GPAllocator.Calls

/-!
# Destroying a general purpose allocator

The headers, the bitmaps, the large blocks and their records are separate
backing blocks.  The account of the backing allocator holds exactly these,
after every call and whatever the call was about: neither the live blocks
nor the bitmaps matter for it, only the lists and the sizes do.

`cu_GPAllocator_destroy` follows the lists, and every list runs through all
headers of its size, so that it returns everything.
-/

namespace Libcute.Memory.GPAllocator

open Libcute.Collection.Bitmap
open Libcute.Core.Interface
open Libcute.Core.NoStd
open Libcute.Core.Size
open Libcute.Library
open Libcute.Library.ByteMemory
open Libcute.Library.Transition
open Libcute.Memory.BackingAccount
open Libcute.Memory.BackingAllocator
open Libcute.Memory.Client
open Libcute.Memory.HostedRegions

/-- The loop of `cu_GPAllocator_destroy` over the buckets from `b` on. -/
def destroyBuckets : (turns : Nat) → GPA → (b : Nat) → GPA
  | 0, gpa, _ => gpa
  | turns + 1, gpa, b =>
      match gpa.bucketAt b with
      | none => gpa
      | some bucket =>
          destroyBuckets turns (destroyBucket gpa bucket) bucket.next

/-- Destroy the buckets of one size. -/
def destroyList (gpa : GPA) (idx : Nat) : GPA :=
  let emptied :=
    destroyBuckets (gpa.buckets.length + 1) gpa (gpa.smallBuckets idx)
  { emptied with
    smallBuckets := Function.update emptied.smallBuckets idx 0
    smallBucketTails := Function.update emptied.smallBucketTails idx 0 }

/-- The loop of `cu_GPAllocator_destroy` over the records from `la` on. -/
def destroyLarges : (turns : Nat) → GPA → (la : Nat) → GPA
  | 0, gpa, _ => gpa
  | turns + 1, gpa, la =>
      match gpa.largeAt la with
      | none => gpa
      | some record =>
          destroyLarges turns (freeLarge gpa record) record.next

/-- `cu_GPAllocator_destroy` -/
def gpaDestroy (gpa : GPA) : GPA :=
  let gpa := (List.range numSmallBuckets).foldl destroyList gpa
  { destroyLarges (gpa.larges.length + 1) gpa gpa.largeAllocs with
    largeAllocs := 0 }

/--
The size of the request can be rounded to a power of two, and the size of a
bucket for it does not wrap.
-/
def GPA.SumsFit (gpa : GPA) (layout : Layout) : Prop :=
  max layout.elemSize (requestAlign layout) ≤ 2 ^ 63 ∧
    bucketHeaderSize +
      gpa.calcSlotCount (objSizeFor layout) * objSizeFor layout < sizeLimit

/--
The calls of a client on live blocks, with sizes that do not wrap where they
are rounded and added.
-/
def Admitted (world : World GPA) : Call → Prop
  | .alloc layout => world.state.SumsFit layout
  | .grow old layout =>
      old ∈ world.live ∧
        ∀ bucket, world.state.findBucket old.ptr = some bucket →
          bucket.objectSize < layout.elemSize → world.state.SumsFit layout
  | .shrink old _ => old ∈ world.live
  | .free mem => mem ∈ world.live
  | .write block _ => block ∈ world.live

/-- The account holds the regions, and the lists lead to them. -/
structure Accounts (gpa : GPA) : Prop where
  framed : ∃ lists nodes, Framed gpa lists nodes
  accounted : Accounted gpa.backing gpa.regions

variable {gpa after : GPA} {lists : Nat → List Nat} {nodes : List Nat}
  {bucket : Bucket} {record : LargeAlloc} {layout : Layout}
  {idx size : Nat}

/-! ## Blocks that come and go -/

/-- Other blocks and answers of the backing allocator. -/
theorem Accounts.withBacking {backing : Backing}
    (accounts : Accounts gpa) (hosted : Hosted gpa.regions backing)
    (accounted : Accounted backing gpa.regions) :
    Accounts { gpa with backing } := by
  rcases accounts.framed with ⟨lists, nodes, framed⟩
  exact ⟨⟨lists, nodes, framed.withBacking hosted⟩, accounted⟩

/-- What freeing a bucket needs to know of it. -/
structure Intact (bucket : Bucket) : Prop where
  addr : bucket.addr ≠ 0
  bits : bucket.used.addr ≠ 0
  fits : bucketHeaderSize + bucket.objectSize * bucket.slotCount <
    sizeLimit

theorem Framed.intact
    (framed : Framed gpa lists nodes) (member : bucket ∈ gpa.buckets) :
    Intact bucket := by
  have bound := framed.fits member
  unfold bucketData at bound
  exact ⟨framed.addr_ne_zero member,
    (framed.hosted.valid _ (GPA.bits_mem member)).1, by omega⟩

/--
Freeing a bucket takes its bitmap and its memory out of the account; the
size of the memory is computed again.
-/
theorem Intact.destroyed {regions : List Slice}
    (intact : Intact bucket)
    (accounted : Accounted gpa.backing
      (bucket.used.region :: bucket.header :: regions)) :
    Accounted (destroyBucket gpa bucket).backing regions := by
  unfold destroyBucket
  dsimp only
  rw [bucketTotal_eq intact.fits]
  exact (accounted.destroyBitmap intact.bits).free intact.addr

theorem Accounts.dropBucket
    (accounts : Accounts gpa) (member : bucket ∈ gpa.buckets)
    (small : idx < numSmallBuckets) (size : bucket.objectSize = 2 ^ idx) :
    Accounts (gpa.dropBucket idx bucket) := by
  rcases accounts.framed with ⟨lists, nodes, framed⟩
  refine ⟨⟨_, nodes, framed.dropBucket member small size⟩, ?_⟩
  rw [dropBucket_backing]
  exact (framed.intact member).destroyed
    (accounts.accounted.perm (dropBucket_regions framed.unique member idx))

/-- Freeing a record takes its block and the record out of the account. -/
theorem freeLarge_accounted
    (unique : KeyedList.Unique LargeAlloc.addr gpa.larges)
    (member : record ∈ gpa.larges) (valid : record.addr ≠ 0)
    (accounted : Accounted gpa.backing gpa.regions) :
    Accounted (freeLarge gpa record).backing
      (freeLarge gpa record).regions := by
  have split := accounted.perm (regions_split unique member)
  rw [freeLarge_regions]
  unfold ownBlock at split
  by_cases null : record.slice.ptr = 0
  · rw [if_pos null] at split
    exact (split.free_null null).free valid
  · rw [if_neg null] at split
    exact (split.free null).free valid

theorem Accounts.updateBucket {addr : Nat} {change : Bucket → Bucket}
    (accounts : Accounts gpa)
    (node : ∀ bucket, (change bucket).node = bucket.node)
    (regions : ∀ bucket, (change bucket).regions = bucket.regions) :
    Accounts (gpa.updateBucket addr change) := by
  rcases accounts.framed with ⟨lists, nodes, framed⟩
  refine ⟨⟨lists, nodes, framed.updateBucket node regions⟩, ?_⟩
  rw [regions_updateBucket regions]
  exact accounts.accounted

/-! ## One step -/

/-- A bucket without a bitmap is given back at once. -/
theorem createBucket_none
    (accounted : Accounted gpa.backing gpa.regions) (nonzero : size ≠ 0)
    (created : createBucket gpa size = (none, after)) :
    Accounted after.backing gpa.regions := by
  unfold createBucket at created
  dsimp only at created
  split at created
  · rename_i error backing answer
    cases created
    exact accounted.alloc_error answer
  · rename_i mem backing answer
    split at created
    · rename_i later bits
      cases created
      have taken := accounted.alloc_size answer
      rw [Layout.create_elemSize _ nonzero] at taken
      exact (taken.bitmapCreate_none bits).free
        (Accounted.alloc_log answer).1
    · cases created

/-- A new bucket is in the account with its bitmap. -/
theorem createBucket_some
    (accounted : Accounted gpa.backing gpa.regions) (nonzero : size ≠ 0)
    (fits : bucketHeaderSize + gpa.calcSlotCount size * size < sizeLimit)
    (created : createBucket gpa size = (some bucket, after)) :
    Accounted after.backing (bucket.regions ++ gpa.regions) := by
  unfold createBucket at created
  dsimp only at created
  split at created
  · cases created
  · rename_i mem backing answer
    split at created
    · cases created
    · rename_i used later bits
      cases created
      have taken := accounted.alloc_size answer
      rw [Layout.create_elemSize _ nonzero, bucketTotal_eq fits] at taken
      have both := (taken.bitmapCreate_some bits).2
      unfold Bucket.regions Bucket.header
      dsimp only
      rw [Nat.mul_comm size]
      exact both.perm (List.Perm.swap _ _ _)

theorem Accounts.takeSlot
    (accounts : Accounts gpa) (bucket : Bucket) (size : Nat) :
    Accounts (takeSlot gpa bucket size).2 := by
  unfold GPAllocator.takeSlot
  dsimp only
  split_ifs
  · exact accounts
  · exact accounts.updateBucket (Bucket.take_node _)
      (Bucket.take_regions _)

/-- A request served from a new bucket, or from none. -/
theorem Accounts.allocFresh {objSize : Nat}
    (accounts : Accounts gpa) (small : idx < numSmallBuckets)
    (sized : objSize = 2 ^ idx)
    (fits : bucketHeaderSize + gpa.calcSlotCount objSize * objSize <
      sizeLimit) :
    Accounts (allocFresh gpa size objSize idx).2 := by
  rcases accounts.framed with ⟨lists, nodes, framed⟩
  have nonzero : 0 < objSize := by
    rw [sized]
    exact Nat.two_pow_pos idx
  unfold GPAllocator.allocFresh
  rcases createBucket_hosted framed.hosted nonzero fits with
    ⟨backing, created, settled⟩ |
    ⟨ptr, used, backing, created, zero, hosted, kept⟩
  · rw [created]
    exact accounts.withBacking (framed.hosted.congr settled.blocks)
      (createBucket_none accounts.accounted nonzero.ne' created)
  · rw [created]
    apply Accounts.takeSlot
    have framedMid := framed.withBacking hosted.tail.tail
    refine ⟨⟨_, nodes, framedMid.append small sized hosted⟩, ?_⟩
    rw [(appendBucket_frame _ _ _).2.2.1, appendBucket_regions]
    have entered := createBucket_some accounts.accounted nonzero.ne' fits
      created
    exact entered

theorem Accounts.allocSmall {objSize : Nat}
    (accounts : Accounts gpa) (small : idx < numSmallBuckets)
    (sized : objSize = 2 ^ idx)
    (fits : bucketHeaderSize + gpa.calcSlotCount objSize * objSize <
      sizeLimit) :
    Accounts (allocSmall gpa size objSize idx).2 := by
  unfold GPAllocator.allocSmall
  split
  · exact accounts.allocFresh small sized fits
  · split_ifs
    · exact accounts.allocFresh small sized fits
    · exact accounts.takeSlot _ _

/-- A large block without a record is given back at once. -/
theorem Accounts.allocLarge {alignment : Nat} (accounts : Accounts gpa) :
    Accounts (allocLarge gpa size alignment).2 := by
  rcases accounts.framed with ⟨lists, nodes, framed⟩
  unfold GPAllocator.allocLarge
  rcases framed.hosted.alloc (Layout.create size alignment) with
    ⟨error, backing, answer, settled⟩ |
    ⟨block, backing, answer, large, blocks, kept, hosted⟩
  · rw [answer]
    exact accounts.withBacking (framed.hosted.congr settled.blocks)
      (accounts.accounted.alloc_error answer)
  · rw [answer]
    dsimp only
    have taken := accounts.accounted.alloc_block answer
    have hostedBlock := hosted _ (Nat.le_refl _)
    have valid := (Accounted.alloc_log answer).1
    have request : Layout.create largeAllocSize 8 =
        ⟨largeAllocSize, 8⟩ :=
      Layout.create_of_pos (by decide) (by decide)
    rw [request]
    rcases hostedBlock.alloc ⟨largeAllocSize, 8⟩ with
      ⟨error, final, entry, settled⟩ |
      ⟨home, final, entry, largeHome, homeBlocks, keptHome, hostedHome⟩
    · rw [entry]
      have hostedFinal := hostedBlock.congr settled.blocks
      exact accounts.withBacking (hostedFinal.free rfl)
        ((taken.alloc_error entry).free valid)
    · rw [entry]
      have hostedBoth := hostedHome _ largeHome
      have framedMid := framed.withBacking hostedBoth.tail.tail
      refine ⟨⟨lists, _, framedMid.pushLarge valid hostedBoth⟩, ?_⟩
      dsimp only
      rw [(pushLarge_frame _ _ _).2.2.2.1]
      have entered : Accounted final
          (⟨home.ptr, largeAllocSize⟩ :: block :: gpa.regions) :=
        taken.alloc_size entry
      have regions := @pushLarge_regions { gpa with backing := final }
        block home.ptr valid
      exact entered.perm regions.symm

theorem Accounts.alloc
    (accounts : Accounts gpa) (fits : gpa.SumsFit layout) :
    Accounts (gpaAlloc gpa layout).2 := by
  rcases objSizeFor_pow fits.1 with ⟨exponent, below, size, enough⟩
  unfold gpaAlloc
  rw [size, indexFromSize_pow below]
  by_cases empty : layout.elemSize = 0
  · rw [if_pos empty]
    exact accounts
  rw [if_neg empty]
  by_cases few : exponent < numSmallBuckets
  · rw [if_pos few]
    dsimp only
    split_ifs
    · exact accounts.allocLarge
    · exact accounts.allocSmall few rfl (size ▸ fits.2)
  · rw [if_neg few]
    exact accounts.allocLarge

theorem Accounts.freeSmall
    (accounts : Accounts gpa) (member : bucket ∈ gpa.buckets)
    (slot : Nat) :
    Accounts (freeSmall gpa bucket slot) := by
  rcases accounts.framed with ⟨lists, nodes, framed⟩
  rcases framed.sized bucket member with ⟨idx, small, sized⟩
  have marked : Accounts
      (gpa.updateBucket bucket.addr (Bucket.release slot)) :=
    accounts.updateBucket (Bucket.release_node slot)
      (Bucket.release_regions slot)
  have released : bucket.release slot ∈
      (gpa.updateBucket bucket.addr (Bucket.release slot)).buckets :=
    KeyedList.mem_update.mpr ⟨bucket, member, if_pos rfl⟩
  unfold GPAllocator.freeSmall releaseBucket
  dsimp only
  split_ifs
  · split
    · exact marked
    · rename_i found index
      have same : (bucket.release slot).objectSize = 2 ^ idx := sized
      rw [same, indexFromSize_pow (Nat.lt_trans small (by decide)),
        if_pos small] at index
      cases index
      split_ifs
      · exact marked.dropBucket released small same
      · exact marked
  · exact marked

theorem Accounts.freeLarge
    (accounts : Accounts gpa) (member : record ∈ gpa.larges)
    (nonnull : record.slice.ptr ≠ 0) :
    Accounts (freeLarge gpa record) := by
  rcases accounts.framed with ⟨lists, nodes, framed⟩
  have valid := (framed.hosted.valid _ (GPA.record_mem member)).1
  exact ⟨⟨lists, _, framed.dropRecord member nonnull⟩,
    freeLarge_accounted framed.uniqueLarge member valid
      accounts.accounted⟩

theorem Accounts.free (accounts : Accounts gpa) (mem : Slice) :
    Accounts (gpaFree gpa mem) := by
  rcases accounts.framed with ⟨lists, nodes, framed⟩
  unfold gpaFree
  split_ifs with null
  · exact accounts
  split
  · rename_i bucket found
    exact accounts.freeSmall (framed.linked.mem_of_findBucket found).1 _
  split
  · rename_i record found
    rcases framed.recorded.mem_of_findLarge found with ⟨member, same⟩
    exact accounts.freeLarge member fun none => null (same.symm.trans none)
  · exact accounts

theorem credit_eq (block : Slice) (held : List Slice) :
    credit block held = ownBlock block ++ held := by
  unfold credit ownBlock
  split_ifs
  · rfl
  · rfl

/-- A large block is in the account as it was resized last. -/
theorem Accounts.resizeLarge {event : Option Slice → Event}
    (accounts : Accounts gpa) (member : record ∈ gpa.larges)
    (nonnull : record.slice.ptr ≠ 0)
    (resizes : Accounted.Resizes event record.slice layout) :
    Accounts (resizeLarge gpa record
      (gpa.backing.resize event record.slice layout)).2 := by
  rcases accounts.framed with ⟨lists, nodes, framed⟩
  have split := framed.regions_split member nonnull
  have accounted := accounts.accounted.perm split
  have replaced : ∀ block backing,
      gpa.backing.resize event record.slice layout =
        (.ok block, backing) →
      Hosted (ownBlock block ++
        ⟨record.addr, largeAllocSize⟩ :: gpa.otherRegions record)
        backing →
      Accounts (GPA.updateLarge { gpa with backing } record.addr
        fun record => { record with slice := block }) := by
    intro block backing answer hosted
    have taken := accounted.resize_ok nonnull resizes answer
    rw [credit_eq] at taken
    exact ⟨⟨lists, nodes, framed.resizeRecord member hosted⟩,
      taken.perm (resized_regions framed.uniqueLarge member).symm⟩
  rcases (framed.hosted.perm split).resize event layout with
    ⟨error, backing, answer, settled⟩ |
    ⟨backing, answer, empty, hosted, kept⟩ |
    ⟨block, backing, answer, large, hosted, kept, front⟩
  · rw [answer]
    exact accounts.withBacking (framed.hosted.congr settled.blocks)
      (accounts.accounted.resize_error resizes answer)
  · have after := replaced _ _ answer hosted
    rw [answer]
    exact after
  · have own : ownBlock block = [block] :=
      if_neg (hosted.valid _ List.mem_cons_self).1
    have after := replaced _ _ answer (own.symm ▸ hosted)
    rw [answer]
    exact after

theorem Accounts.withMemory
    (accounts : Accounts gpa) (memory : Memory) :
    Accounts (gpa.withMemory memory) := by
  rcases accounts.framed with ⟨lists, nodes, framed⟩
  exact accounts.withBacking (framed.hosted.congr rfl)
    (accounts.accounted.congr rfl)

theorem Accounts.grow {old : Slice}
    (accounts : Accounts gpa) (nonnull : old.ptr ≠ 0)
    (fits : ∀ bucket, gpa.findBucket old.ptr = some bucket →
      bucket.objectSize < layout.elemSize → gpa.SumsFit layout) :
    Accounts (gpaGrow gpa old layout).2 := by
  rcases accounts.framed with ⟨lists, nodes, framed⟩
  unfold gpaGrow
  rw [if_neg nonnull]
  split
  · split
    · exact accounts
    · rename_i record found
      rcases framed.recorded.mem_of_findLarge found with ⟨member, same⟩
      exact accounts.resizeLarge member
        (fun none => nonnull (same.symm.trans none)) (Or.inl rfl)
  · rename_i bucket found
    split_ifs with inside
    · exact accounts
    have allocated := accounts.alloc (fits bucket found
      (Nat.lt_of_not_le inside))
    split
    · rename_i error later answer
      rw [answer] at allocated
      exact allocated
    · rename_i new later answer
      rw [answer] at allocated
      exact (allocated.withMemory _).free old

theorem Accounts.shrink {old : Slice}
    (accounts : Accounts gpa) (layout : Layout) :
    Accounts (gpaShrink gpa old layout).2 := by
  rcases accounts.framed with ⟨lists, nodes, framed⟩
  unfold gpaShrink
  split_ifs with null
  · exact accounts
  split
  · split
    · exact accounts
    · rename_i record found
      rcases framed.recorded.mem_of_findLarge found with ⟨member, same⟩
      exact accounts.resizeLarge member
        (fun none => null (same.symm.trans none)) (Or.inr rfl)
  · exact accounts

/-- Every admitted call keeps the account. -/
theorem Accounts.step {world : World GPA} {call : Call}
    (accounts : Accounts world.state)
    (valid : ∀ block ∈ world.live, block.ptr ≠ 0)
    (admitted : Admitted world call) :
    Accounts (gpaAllocator.step world call).state := by
  apply Allocator.step_keeps call
  · rintro layout rfl
    exact accounts.alloc admitted
  · rintro old layout rfl
    exact accounts.grow (valid old admitted.1) admitted.2
  · exact fun old layout _ => accounts.shrink layout
  · exact fun mem _ => accounts.free mem
  · exact fun memory => accounts.withMemory memory

/-! ## Destroying the buckets -/

/-- What the destruction of the buckets at some addresses leaves. -/
structure Emptied (gpa after : GPA) (nodes : List Nat) : Prop where
  larges : after.larges = gpa.larges
  largeAllocs : after.largeAllocs = gpa.largeAllocs
  kept : after.buckets.Sublist gpa.buckets
  member : ∀ bucket, bucket ∈ after.buckets ↔
    bucket ∈ gpa.buckets ∧ bucket.addr ∉ nodes
  next : ∀ addr ∉ nodes, after.nextBucket addr = gpa.nextBucket addr
  accounted : Accounted after.backing after.regions

theorem Emptied.refl (accounted : Accounted gpa.backing gpa.regions) :
    Emptied gpa gpa [] where
  larges := rfl
  largeAllocs := rfl
  kept := List.Sublist.refl _
  member := fun bucket => by simp
  next := fun _ _ => rfl
  accounted := accounted

theorem Emptied.trans {middle : GPA} {more : List Nat}
    (first : Emptied gpa middle nodes)
    (second : Emptied middle after more) :
    Emptied gpa after (nodes ++ more) where
  larges := second.larges.trans first.larges
  largeAllocs := second.largeAllocs.trans first.largeAllocs
  kept := second.kept.trans first.kept
  member := by
    intro bucket
    rw [second.member, first.member, List.mem_append, not_or, and_assoc]
  next := by
    intro addr outside
    rw [List.mem_append, not_or] at outside
    exact (second.next addr outside.2).trans (first.next addr outside.1)
  accounted := second.accounted

theorem Emptied.unique
    (emptied : Emptied gpa after nodes)
    (unique : KeyedList.Unique Bucket.addr gpa.buckets) :
    KeyedList.Unique Bucket.addr after.buckets :=
  List.Nodup.sublist (emptied.kept.map _) unique

theorem Emptied.intact
    (emptied : Emptied gpa after nodes)
    (intact : ∀ bucket ∈ gpa.buckets, Intact bucket) :
    ∀ bucket ∈ after.buckets, Intact bucket :=
  fun bucket member => intact bucket (emptied.kept.subset member)

/-- One bucket is destroyed. -/
theorem Emptied.single
    (unique : KeyedList.Unique Bucket.addr gpa.buckets)
    (member : bucket ∈ gpa.buckets) (intact : Intact bucket)
    (accounted : Accounted gpa.backing gpa.regions) :
    Emptied gpa (destroyBucket gpa bucket) [bucket.addr] where
  larges := rfl
  largeAllocs := rfl
  kept := List.eraseP_sublist
  member := by
    intro other
    rw [List.mem_singleton]
    exact unique.mem_erase_iff
  next := by
    intro addr different
    rw [List.mem_singleton] at different
    exact KeyedList.read_erase_of_ne different
  accounted :=
    intact.destroyed (accounted.perm (regions_eraseBucket unique member))

/-- The loop destroys the buckets of a list. -/
theorem destroyBuckets_spec {turns b : Nat}
    (unique : KeyedList.Unique Bucket.addr gpa.buckets)
    (intact : ∀ bucket ∈ gpa.buckets, Intact bucket)
    (accounted : Accounted gpa.backing gpa.regions)
    (forward : LinkedList.Forward 0 gpa.nextBucket b nodes)
    (present : ∀ addr ∈ nodes, addr ∈ gpa.buckets.map Bucket.addr)
    (enough : nodes.length < turns) :
    Emptied gpa (destroyBuckets turns gpa b) nodes := by
  induction nodes generalizing gpa turns b with
  | nil =>
      have stop : gpa.bucketAt b = none := by
        rw [forward.head_eq]
        apply List.find?_eq_none.mpr
        intro bucket member
        simpa using (intact bucket member).addr
      cases turns with
      | zero => cases enough
      | succ turns =>
          rw [destroyBuckets, stop]
          exact Emptied.refl accounted
  | cons node rest hypothesis =>
      rcases List.mem_map.mp (present node List.mem_cons_self) with
        ⟨bucket, member, rfl⟩
      have first : b = bucket.addr := forward.head_eq
      have found : gpa.bucketAt bucket.addr = some bucket :=
        KeyedList.find_of_mem unique member
      have link : gpa.nextBucket bucket.addr = bucket.next :=
        KeyedList.read_of_mem unique member
      have fresh := (List.nodup_cons.mp forward.nodup).1
      have single := Emptied.single unique member (intact bucket member)
        accounted
      have different : ∀ addr ∈ rest, addr ∉ [bucket.addr] := by
        intro addr inRest same
        rw [List.mem_singleton] at same
        exact fresh (same ▸ inRest)
      have shorter := forward.pop.congr
        fun addr inRest => single.next addr (different addr inRest)
      rw [link] at shorter
      have left : ∀ addr ∈ rest,
          addr ∈ (destroyBucket gpa bucket).buckets.map Bucket.addr := by
        intro addr inRest
        rcases List.mem_map.mp
            (present addr (List.mem_cons_of_mem _ inRest)) with
          ⟨other, otherMember, rfl⟩
        exact List.mem_map_of_mem ((single.member other).mpr
          ⟨otherMember, different _ inRest⟩)
      cases turns with
      | zero => cases enough
      | succ turns =>
          rw [first, destroyBuckets, found]
          exact single.trans (hypothesis (single.unique unique)
            (single.intact intact) single.accounted shorter left
            (Nat.lt_of_succ_lt_succ enough))

theorem destroyBuckets_heads (turns : Nat) (gpa : GPA) (b : Nat) :
    (destroyBuckets turns gpa b).smallBuckets = gpa.smallBuckets := by
  induction turns generalizing gpa b with
  | zero => rfl
  | succ turns hypothesis =>
      rw [destroyBuckets]
      split
      · rfl
      · exact hypothesis _ _

/-- The lists are destroyed one after another. -/
theorem destroyLists_spec
    (framed : Framed gpa lists nodes)
    (accounted : Accounted gpa.backing gpa.regions)
    {count : Nat} (within : count ≤ numSmallBuckets) :
    Emptied gpa ((List.range count).foldl destroyList gpa)
        ((List.range count).flatMap lists) ∧
      ∀ idx, count ≤ idx →
        ((List.range count).foldl destroyList gpa).smallBuckets idx =
          gpa.smallBuckets idx := by
  induction count with
  | zero => exact ⟨Emptied.refl accounted, fun _ _ => rfl⟩
  | succ count hypothesis =>
      rcases hypothesis (Nat.le_of_succ_le within) with ⟨emptied, heads⟩
      rw [List.range_succ, List.foldl_append, List.flatMap_append]
      generalize (List.range count).foldl destroyList gpa = middle
        at emptied heads
      have apart : ∀ addr ∈ lists count,
          addr ∉ (List.range count).flatMap lists := by
        intro addr here there
        rcases List.mem_flatMap.mp there with ⟨idx, earlier, inList⟩
        have before := List.mem_range.mp earlier
        have same := framed.linked.disjoint framed.unique
          (Nat.lt_trans before within) within inList here
        exact Nat.ne_of_lt before same
      have forward : LinkedList.Forward 0 middle.nextBucket
          (middle.smallBuckets count) (lists count) := by
        rw [heads count (Nat.le_refl _)]
        have start : LinkedList.Forward 0 gpa.nextBucket
            (gpa.smallBuckets count) (lists count) :=
          ⟨_, _, framed.linked.spells count within⟩
        exact start.congr fun addr here =>
          emptied.next addr (apart addr here)
      have present : ∀ addr ∈ lists count,
          addr ∈ middle.buckets.map Bucket.addr := by
        intro addr here
        rcases List.mem_map.mp (mem_addrs_of_sized
            ((framed.linked.listed count within addr).mp here)) with
          ⟨bucket, member, rfl⟩
        exact List.mem_map_of_mem ((emptied.member bucket).mpr
          ⟨member, apart _ here⟩)
      have enough : (lists count).length < middle.buckets.length + 1 := by
        have shorter :=
          (List.subperm_of_subset forward.nodup present).length_le
        rw [List.length_map] at shorter
        exact Nat.lt_succ_of_le shorter
      have last := destroyBuckets_spec (emptied.unique framed.unique)
        (emptied.intact fun _ => framed.intact) emptied.accounted forward
        present enough
      have cleared : Emptied middle (destroyList middle count)
          (lists count) :=
        ⟨last.larges, last.largeAllocs, last.kept, last.member, last.next,
          last.accounted⟩
      constructor
      · rw [List.flatMap_singleton]
        exact emptied.trans cleared
      · intro idx later
        have kept : (destroyList middle count).smallBuckets idx =
            middle.smallBuckets idx := by
          unfold destroyList
          dsimp only
          rw [destroyBuckets_heads]
          exact Function.update_of_ne (Nat.ne_of_gt later) _ _
        exact kept.trans (heads idx (Nat.le_of_succ_le later))

/-- No bucket is left. -/
theorem destroyLists_buckets
    (framed : Framed gpa lists nodes)
    (emptied : Emptied gpa after
      ((List.range numSmallBuckets).flatMap lists)) :
    after.buckets = [] := by
  apply List.eq_nil_iff_forall_not_mem.mpr
  intro bucket member
  rcases (emptied.member bucket).mp member with ⟨inBuckets, outside⟩
  rcases framed.sized bucket inBuckets with ⟨idx, small, sized⟩
  exact outside (List.mem_flatMap.mpr
    ⟨idx, List.mem_range.mpr small,
      framed.linked.mem_of_bucket inBuckets small sized⟩)

/-! ## Destroying the records -/

theorem freeLarge_unique
    (unique : KeyedList.Unique LargeAlloc.addr gpa.larges) :
    KeyedList.Unique LargeAlloc.addr (freeLarge gpa record).larges := by
  unfold KeyedList.Unique
  rw [freeLarge_map LargeAlloc.addr fun _ _ _ => rfl]
  exact unique.erase record.addr

/-- The loop frees all records and their blocks. -/
theorem destroyLarges_spec {turns : Nat}
    (linked : LargeList gpa nodes)
    (unique : KeyedList.Unique LargeAlloc.addr gpa.larges)
    (none : gpa.buckets = [])
    (accounted : Accounted gpa.backing gpa.regions)
    (enough : nodes.length < turns) :
    Accounted (destroyLarges turns gpa gpa.largeAllocs).backing [] := by
  induction nodes generalizing gpa turns with
  | nil =>
      have empty : gpa.larges = [] := by
        apply List.eq_nil_iff_forall_not_mem.mpr
        intro record member
        cases (linked.listed _).mpr
          (List.mem_map_of_mem (f := LargeAlloc.addr) member)
      have regions : gpa.regions = [] := by
        unfold GPA.regions
        rw [none, empty]
        rfl
      have stop : gpa.largeAt gpa.largeAllocs = Option.none := by
        unfold GPA.largeAt
        rw [empty]
        rfl
      rw [regions] at accounted
      cases turns with
      | zero => cases enough
      | succ turns =>
          rw [destroyLarges, stop]
          exact accounted
  | cons node rest hypothesis =>
      rcases List.mem_map.mp ((linked.listed node).mp List.mem_cons_self)
        with ⟨record, member, rfl⟩
      have first : gpa.largeAllocs = record.addr := linked.spells.head
      have found : gpa.largeAt record.addr = some record :=
        KeyedList.find_of_mem unique member
      have valid : record.addr ≠ 0 := by
        intro null
        apply linked.spells.valid
        rw [null]
        exact List.mem_cons_self
      have later := linked.remove unique member
      rw [List.erase_cons_head] at later
      have next : record.next = (freeLarge gpa record).largeAllocs := by
        have link : gpa.nextLarge record.addr = record.next :=
          KeyedList.read_of_mem unique member
        have forth : gpa.nextLarge record.addr = rest.headD 0 :=
          linked.spells.segment.2.1
        have head : (freeLarge gpa record).largeAllocs = rest.headD 0 :=
          later.spells.head
        rw [head, ← link, forth]
      have buckets : (freeLarge gpa record).buckets = [] :=
        (unlinkLarge_frame gpa record).1.trans none
      cases turns with
      | zero => cases enough
      | succ turns =>
          rw [first, destroyLarges, found]
          dsimp only
          rw [next]
          exact hypothesis later (freeLarge_unique unique) buckets
            (freeLarge_accounted unique member valid accounted)
            (Nat.lt_of_succ_lt_succ enough)

theorem Accounts.destroy (accounts : Accounts gpa) :
    Accounted (gpaDestroy gpa).backing [] := by
  rcases accounts.framed with ⟨lists, nodes, framed⟩
  have emptied := (destroyLists_spec framed accounts.accounted
    (Nat.le_refl numSmallBuckets)).1
  have none := destroyLists_buckets framed emptied
  unfold gpaDestroy
  dsimp only
  generalize (List.range numSmallBuckets).foldl destroyList gpa = middle
    at emptied none
  have linked : LargeList middle nodes :=
    framed.recorded.congr emptied.larges emptied.largeAllocs
  have unique : KeyedList.Unique LargeAlloc.addr middle.larges := by
    rw [emptied.larges]
    exact framed.uniqueLarge
  exact destroyLarges_spec linked unique none emptied.accounted
    (Nat.lt_succ_of_le linked.length_le)

/-! ## Runs -/

theorem Accounts.create {backing : Backing} (bucketSize : Nat)
    (fresh : backing.log = []) :
    Accounts (gpaCreate backing bucketSize).state where
  framed := by
    refine ⟨fun _ => [], [], Hosted.nil _, nofun, ⟨?_, ?_⟩, ?_, ?_⟩
    · exact fun idx small => LinkedList.Chain.Spells.nil rfl rfl
    · simp [gpaCreate]
    · exact LinkedList.Chain.Spells.nil rfl rfl
    · simp [gpaCreate]
  accounted := Accounted.start fresh

/-- The account is kept in every run over sizes that do not wrap. -/
theorem reached_accounts
    {backing : Backing} {bucketSize : Nat} {world : World GPA}
    (fresh : backing.log = [])
    (reached : Reachable (· = gpaCreate backing bucketSize) Admitted
      gpaAllocator.step world) :
    Accounts world.state ∧ ∀ block ∈ world.live, block.ptr ≠ 0 := by
  refine Reachable.invariant (fun world => Accounts world.state ∧
    ∀ block ∈ world.live, block.ptr ≠ 0) ?_ ?_ reached
  · rintro start rfl
    exact ⟨Accounts.create bucketSize fresh, nofun⟩
  · intro before call holds admitted
    exact ⟨holds.1.step holds.2 admitted, Allocator.step_valid holds.2⟩

theorem gpa_returns
    {backing : Backing} {bucketSize : Nat} {world : World GPA}
    (fresh : backing.log = [])
    (reached : Reachable (· = gpaCreate backing bucketSize) Admitted
      gpaAllocator.step world)
    (exactly : ∀ event ∈ (gpaDestroy world.state).backing.log,
      Exact event) :
    outstanding (gpaDestroy world.state).backing.log = some [] :=
  (reached_accounts fresh reached).1.destroy.outstanding_nil exactly

end Libcute.Memory.GPAllocator
