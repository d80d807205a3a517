import Libcute.Collection.Bitmap
import Libcute.Core.NoStd
import Libcute.Core.Size
import Libcute.Library.KeyedList
import Libcute.Library.LinkedList
import Libcute.Memory.Client

/-!
# The general purpose allocator

`gpallocator.c` serves small requests from buckets of equal slots, one
doubly linked list of buckets for each of sixteen sizes, and passes large
requests on to the backing allocator, keeping a record of each in a doubly
linked list.

The bucket headers and the records are kept under their addresses, with the
`prev` and `next` links as the source stores them.  A null pointer is
address 0, which is the address of no header.
-/

namespace Libcute.Memory.GPAllocator

open Libcute.Collection.Bitmap
open Libcute.Core.Interface
open Libcute.Core.NoStd
open Libcute.Core.Size
open Libcute.Library
open Libcute.Library.ByteMemory
open Libcute.Memory.BackingAllocator
open Libcute.Memory.Client

/--
`struct cu_GPAllocator_BucketHeader` at address `addr`, with the fields of
its object pool.
-/
structure Bucket where
  addr : Nat
  prev : Nat
  next : Nat
  used : Bits
  objectSize : Nat
  slotCount : Nat
  usedCount : Nat
deriving DecidableEq

/-- `struct cu_GPAllocator_LargeAlloc` at address `addr`. -/
structure LargeAlloc where
  addr : Nat
  prev : Nat
  next : Nat
  slice : Slice
deriving DecidableEq

/-- `sizeof(struct cu_GPAllocator_BucketHeader)` -/
def bucketHeaderSize : Nat := 112

/-- `sizeof(struct cu_GPAllocator_LargeAlloc)` -/
def largeAllocSize : Nat := 32

/-- `CU_GPA_BUCKET_SIZE` -/
def defaultBucketSize : Nat := 4096

/-- `CU_GPA_NUM_SMALL_BUCKETS` -/
def numSmallBuckets : Nat := 16

/-- `cu_GPAllocator`, with the bucket headers and the records it links. -/
structure GPA where
  backing : Backing
  buckets : List Bucket
  smallBuckets : Nat → Nat
  smallBucketTails : Nat → Nat
  larges : List LargeAlloc
  largeAllocs : Nat
  bucketSize : Nat

/-- `objects.data` of the bucket at an address. -/
def bucketData (addr : Nat) : Nat := addr + bucketHeaderSize

/-- The bucket header at an address. -/
def GPA.bucketAt (gpa : GPA) (addr : Nat) : Option Bucket :=
  KeyedList.find Bucket.addr gpa.buckets addr

/-- The record at an address. -/
def GPA.largeAt (gpa : GPA) (addr : Nat) : Option LargeAlloc :=
  KeyedList.find LargeAlloc.addr gpa.larges addr

/-- Change the bucket header at an address. -/
def GPA.updateBucket (gpa : GPA) (addr : Nat)
    (change : Bucket → Bucket) : GPA :=
  { gpa with
    buckets := KeyedList.update Bucket.addr gpa.buckets addr change }

/-- Change the record at an address. -/
def GPA.updateLarge (gpa : GPA) (addr : Nat)
    (change : LargeAlloc → LargeAlloc) : GPA :=
  { gpa with
    larges := KeyedList.update LargeAlloc.addr gpa.larges addr change }

/-! ## Helpers -/

/--
`cu_gpa_calc_slot_count`.  Where C divides by a size of 0 and the program
crashes, the quotient is 0 here; `CountsSlots` tells such calls.
-/
def GPA.calcSlotCount (gpa : GPA) (objSize : Nat) : Nat :=
  let maxData :=
    if gpa.bucketSize = 0 then defaultBucketSize else gpa.bucketSize
  let count := maxData / objSize
  if count = 0 then 1 else count

/-- `cu_gpa_create_bucket` -/
def createBucket (gpa : GPA) (objSize : Nat) : Option Bucket × GPA :=
  let slotCount := gpa.calcSlotCount objSize
  let total := sizeAdd bucketHeaderSize (sizeMul slotCount objSize)
  match gpa.backing.alloc (Layout.create total objSize) with
  | (.error _, backing) => (none, { gpa with backing })
  | (.ok mem, backing) =>
      match bitmapCreate backing slotCount with
      | (none, backing) =>
          (none, { gpa with backing := backing.free ⟨mem.ptr, total⟩ })
      | (some used, backing) =>
          (some ⟨mem.ptr, 0, 0, used, objSize, slotCount, 0⟩,
            { gpa with backing })

/-- The loop of `cu_gpa_index_from_size` from index `idx` on. -/
def indexFrom (size : Nat) : (remaining s idx : Nat) → Option Nat
  | 0, _, _ => none
  | remaining + 1, s, idx =>
      if s < size then
        indexFrom size remaining (sizeMul s 2) (idx + 1)
      else
        some idx

/-- `cu_gpa_index_from_size`, with `none` for -1. -/
def indexFromSize (size : Nat) : Option Nat :=
  indexFrom size numSmallBuckets 1 0

/-- The slots of the bucket contain the address. -/
def Bucket.Contains (bucket : Bucket) (ptr : Nat) : Prop :=
  bucketData bucket.addr ≤ ptr ∧
    ptr < bucketData bucket.addr +
      sizeMul bucket.objectSize bucket.slotCount

instance (bucket : Bucket) (ptr : Nat) : Decidable (bucket.Contains ptr) :=
  inferInstanceAs (Decidable (_ ∧ _))

/-- The slot of an address in a bucket. -/
def Bucket.slotOf (bucket : Bucket) (ptr : Nat) : Nat :=
  (ptr - bucketData bucket.addr) / bucket.objectSize

/-- `b->next` for the bucket at an address. -/
def GPA.nextBucket (gpa : GPA) : Nat → Nat :=
  KeyedList.read Bucket.addr Bucket.next 0 gpa.buckets

/-- `b->prev` for the bucket at an address. -/
def GPA.prevBucket (gpa : GPA) : Nat → Nat :=
  KeyedList.read Bucket.addr Bucket.prev 0 gpa.buckets

/-- The search of `cu_gpa_find_bucket` in one list of buckets. -/
def GPA.findInList (gpa : GPA) (ptr idx : Nat) : Option Bucket :=
  (LinkedList.search 0 gpa.nextBucket
    (fun addr => (gpa.bucketAt addr).any fun bucket => bucket.Contains ptr)
    (gpa.buckets.length + 1) (gpa.smallBuckets idx)).bind gpa.bucketAt

/-- `cu_gpa_find_bucket` -/
def GPA.findBucket (gpa : GPA) (ptr : Nat) : Option Bucket :=
  (List.range numSmallBuckets).findSome? fun idx => gpa.findInList ptr idx

/-- `cur->next` for the record at an address. -/
def GPA.nextLarge (gpa : GPA) : Nat → Nat :=
  KeyedList.read LargeAlloc.addr LargeAlloc.next 0 gpa.larges

/-- `cur->prev` for the record at an address. -/
def GPA.prevLarge (gpa : GPA) : Nat → Nat :=
  KeyedList.read LargeAlloc.addr LargeAlloc.prev 0 gpa.larges

/-- `cu_gpa_find_large` -/
def GPA.findLarge (gpa : GPA) (ptr : Nat) : Option LargeAlloc :=
  (LinkedList.search 0 gpa.nextLarge
    (fun addr => (gpa.largeAt addr).any fun cur => cur.slice.ptr = ptr)
    (gpa.larges.length + 1) gpa.largeAllocs).bind gpa.largeAt

/-! ## Allocation -/

/-- Append a new bucket to the list of its size. -/
def GPA.appendBucket (gpa : GPA) (idx : Nat) (bucket : Bucket) : GPA :=
  let tail := gpa.smallBucketTails idx
  let linked :=
    if tail = 0 then
      { gpa with
        smallBuckets := Function.update gpa.smallBuckets idx bucket.addr }
    else
      gpa.updateBucket tail fun last => { last with next := bucket.addr }
  { linked with
    buckets := { bucket with prev := tail, next := 0 } :: linked.buckets
    smallBucketTails :=
      Function.update gpa.smallBucketTails idx bucket.addr }

/-- The first clear bit from `slot` on, or the end of the bitmap. -/
def firstClear (used : Bits) : (remaining slot : Nat) → Nat
  | 0, slot => slot
  | remaining + 1, slot =>
      if used.get slot then firstClear used remaining (slot + 1) else slot

/-- Mark a slot of a bucket as used. -/
def Bucket.take (slot : Nat) (bucket : Bucket) : Bucket :=
  { bucket with
    used := bucket.used.set slot
    usedCount := sizeAdd bucket.usedCount 1 }

/-- The address of a slot. -/
def Bucket.slotAddr (bucket : Bucket) (slot : Nat) : Nat :=
  bucketData bucket.addr + sizeMul slot bucket.objectSize

/-- The second half of `cu_gpa_alloc_small`: take a slot of a bucket. -/
def takeSlot (gpa : GPA) (bucket : Bucket) (size : Nat) :
    Except IoError Slice × GPA :=
  let slot := firstClear bucket.used bucket.slotCount 0
  if slot = bucket.slotCount then
    (.error .outOfMemory, gpa)
  else
    (.ok ⟨bucket.slotAddr slot, size⟩,
      gpa.updateBucket bucket.addr (Bucket.take slot))

/-- Create a bucket and take a slot of it. -/
def allocFresh (gpa : GPA) (size objSize idx : Nat) :
    Except IoError Slice × GPA :=
  match createBucket gpa objSize with
  | (none, gpa) => (.error .outOfMemory, gpa)
  | (some bucket, gpa) => takeSlot (gpa.appendBucket idx bucket) bucket size

/-- `cu_gpa_alloc_small` -/
def allocSmall (gpa : GPA) (size objSize idx : Nat) :
    Except IoError Slice × GPA :=
  match gpa.bucketAt (gpa.smallBuckets idx) with
  | none => allocFresh gpa size objSize idx
  | some bucket =>
      if bucket.usedCount = bucket.slotCount then
        allocFresh gpa size objSize idx
      else
        takeSlot gpa bucket size

/-- Put a new record in front of the list of large allocations. -/
def GPA.pushLarge (gpa : GPA) (addr : Nat) (slice : Slice) : GPA :=
  let head := gpa.largeAllocs
  let linked :=
    if head = 0 then
      gpa
    else
      gpa.updateLarge head fun record => { record with prev := addr }
  { linked with
    larges := ⟨addr, 0, head, slice⟩ :: linked.larges
    largeAllocs := addr }

/-- `cu_gpa_alloc_large` -/
def allocLarge (gpa : GPA) (size alignment : Nat) :
    Except IoError Slice × GPA :=
  match gpa.backing.alloc (Layout.create size alignment) with
  | (.error error, backing) => (.error error, { gpa with backing })
  | (.ok mem, backing) =>
      match backing.alloc (Layout.create largeAllocSize 8) with
      | (.error error, backing) =>
          (.error error, { gpa with backing := backing.free mem })
      | (.ok metaMem, backing) =>
          (.ok mem,
            GPA.pushLarge { gpa with backing } metaMem.ptr mem)

/-- The alignment a request is served with. -/
def requestAlign (layout : Layout) : Nat :=
  if layout.alignment = 0 then 1 else layout.alignment

/-- `obj_size` of `cu_gpa_alloc` -/
def objSizeFor (layout : Layout) : Nat :=
  nextPow2 (max layout.elemSize (requestAlign layout))

/-- `cu_gpa_alloc` -/
def gpaAlloc (gpa : GPA) (layout : Layout) :
    Except IoError Slice × GPA :=
  if layout.elemSize = 0 then
    (.error .invalidInput, gpa)
  else
    match indexFromSize (objSizeFor layout) with
    | none => allocLarge gpa layout.elemSize (requestAlign layout)
    | some idx =>
        if gpa.bucketSize < objSizeFor layout then
          allocLarge gpa layout.elemSize (requestAlign layout)
        else
          allocSmall gpa layout.elemSize (objSizeFor layout) idx

/-! ## Resize and free -/

/-- `cu_gpa_destroy_bucket` -/
def destroyBucket (gpa : GPA) (bucket : Bucket) : GPA :=
  let total :=
    sizeAdd bucketHeaderSize (sizeMul bucket.objectSize bucket.slotCount)
  { gpa with
    backing :=
      (bitmapDestroy gpa.backing bucket.used).free ⟨bucket.addr, total⟩
    buckets := KeyedList.erase Bucket.addr gpa.buckets bucket.addr }

/-- Take a bucket out of the list of its size. -/
def GPA.unlinkBucket (gpa : GPA) (idx : Nat) (bucket : Bucket) : GPA :=
  let front :=
    if bucket.prev = 0 then
      { gpa with
        smallBuckets := Function.update gpa.smallBuckets idx bucket.next }
    else
      gpa.updateBucket bucket.prev fun before =>
        { before with next := bucket.next }
  if bucket.next = 0 then
    { front with
      smallBucketTails :=
        Function.update front.smallBucketTails idx bucket.prev }
  else
    front.updateBucket bucket.next fun after =>
      { after with prev := bucket.prev }

/-- Mark a slot of a bucket as free. -/
def Bucket.release (slot : Nat) (bucket : Bucket) : Bucket :=
  { bucket with
    used := bucket.used.clear slot
    usedCount :=
      if 0 < bucket.usedCount then bucket.usedCount - 1
      else bucket.usedCount }

/-- The second half of `cu_gpa_free_small`: give up an empty bucket. -/
def releaseBucket (gpa : GPA) (bucket : Bucket) : GPA :=
  match indexFromSize bucket.objectSize with
  | none => gpa
  | some idx =>
      if gpa.smallBuckets idx ≠ bucket.addr ∨ bucket.next ≠ 0 then
        destroyBucket (gpa.unlinkBucket idx bucket) bucket
      else
        gpa

/-- `cu_gpa_free_small` -/
def freeSmall (gpa : GPA) (bucket : Bucket) (slot : Nat) : GPA :=
  let gpa := gpa.updateBucket bucket.addr (Bucket.release slot)
  let bucket := bucket.release slot
  if bucket.usedCount = 0 then releaseBucket gpa bucket else gpa

/-- Take a record out of the list of large allocations. -/
def GPA.unlinkLarge (gpa : GPA) (record : LargeAlloc) : GPA :=
  let front :=
    if record.prev = 0 then
      { gpa with largeAllocs := record.next }
    else
      gpa.updateLarge record.prev fun before =>
        { before with next := record.next }
  if record.next = 0 then
    front
  else
    front.updateLarge record.next fun after =>
      { after with prev := record.prev }

/-- `cu_gpa_free_large` -/
def freeLarge (gpa : GPA) (record : LargeAlloc) : GPA :=
  let unlinked := gpa.unlinkLarge record
  { unlinked with
    backing :=
      (gpa.backing.free record.slice).free ⟨record.addr, largeAllocSize⟩
    larges := KeyedList.erase LargeAlloc.addr unlinked.larges record.addr }

/-- `cu_gpa_free` -/
def gpaFree (gpa : GPA) (mem : Slice) : GPA :=
  if mem.ptr = 0 then
    gpa
  else
    match gpa.findBucket mem.ptr with
    | some bucket => freeSmall gpa bucket (bucket.slotOf mem.ptr)
    | none =>
        match gpa.findLarge mem.ptr with
        | some record => freeLarge gpa record
        | none => gpa

/-- `meta->slice = resized.value` after the backing allocator answered. -/
def resizeLarge (gpa : GPA) (record : LargeAlloc) :
    Except IoError Slice × Backing → Except IoError Slice × GPA
  | (.error error, backing) => (.error error, { gpa with backing })
  | (.ok resized, backing) =>
      (.ok resized,
        GPA.updateLarge { gpa with backing } record.addr fun record =>
          { record with slice := resized })

/-- `cu_gpa_grow` -/
def gpaGrow (gpa : GPA) (old : Slice) (layout : Layout) :
    Except IoError Slice × GPA :=
  if old.ptr = 0 then
    gpaAlloc gpa layout
  else
    match gpa.findBucket old.ptr with
    | none =>
        match gpa.findLarge old.ptr with
        | none => (.error .invalidInput, gpa)
        | some record =>
            resizeLarge gpa record
              (gpa.backing.grow record.slice
                (Layout.create layout.elemSize layout.alignment))
    | some bucket =>
        if layout.elemSize ≤ bucket.objectSize then
          (.ok ⟨old.ptr, layout.elemSize⟩, gpa)
        else
          match gpaAlloc gpa layout with
          | (.error error, gpa) => (.error error, gpa)
          | (.ok new, gpa) =>
              let gpa :=
                { gpa with
                  backing :=
                    { gpa.backing with
                      memory := smemcpy gpa.backing.memory new old } }
              (.ok new, gpaFree gpa old)

/-- `cu_gpa_shrink` -/
def gpaShrink (gpa : GPA) (old : Slice) (layout : Layout) :
    Except IoError Slice × GPA :=
  if old.ptr = 0 then
    (.error .invalidInput, gpa)
  else
    match gpa.findBucket old.ptr with
    | none =>
        match gpa.findLarge old.ptr with
        | none => (.error .invalidInput, gpa)
        | some record =>
            resizeLarge gpa record
              (gpa.backing.shrink record.slice
                (Layout.create layout.elemSize layout.alignment))
    | some _ => (.ok ⟨old.ptr, layout.elemSize⟩, gpa)

/-- The callbacks of `cu_Allocator_GPAllocator`. -/
def gpaAllocator : Allocator GPA where
  allocFn := gpaAlloc
  growFn := gpaGrow
  shrinkFn := gpaShrink
  freeFn := gpaFree
  memory gpa := gpa.backing.memory
  setMemory gpa memory :=
    { gpa with backing := { gpa.backing with memory } }

/-- `cu_Allocator_GPAllocator`: an allocator without buckets. -/
def gpaCreate (backing : Backing) (bucketSize : Nat) : World GPA :=
  ⟨{ backing
     buckets := []
     smallBuckets := fun _ => 0
     smallBucketTails := fun _ => 0
     larges := []
     largeAllocs := 0
     bucketSize :=
      if bucketSize = 0 then defaultBucketSize else bucketSize }, []⟩

/-- The largest size and alignment of a request. -/
def requestLimit : Nat := 2 ^ 62

/-- The size and the alignment of the request are not too large. -/
def Bounded (layout : Layout) : Prop :=
  layout.elemSize ≤ requestLimit ∧ layout.alignment ≤ requestLimit

/--
A well-behaved client only touches live blocks, shrinks to at most the
current length, and makes no request beyond the limit.
-/
def Permitted (world : World GPA) : Call → Prop
  | .alloc layout => Bounded layout
  | .grow old layout => old ∈ world.live ∧ Bounded layout
  | .shrink old layout =>
      old ∈ world.live ∧ layout.elemSize ≤ old.length ∧ Bounded layout
  | .free mem => mem ∈ world.live
  | .write block _ => block ∈ world.live

end Libcute.Memory.GPAllocator
