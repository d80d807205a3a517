import Libcute.Memory.GPAllocator.Lists

/-!
# The invariant of the general purpose allocator

`Ok` is the part that concerns the allocator alone: the headers, bitmaps,
records and large blocks are regions of the backing allocator, the bitmap
and the counter of a bucket agree, and the lists run through the headers and
the records.  `Holds` connects it to the live blocks: each has a slot or a
record of its own, and the set bits are the slots of live blocks.
-/

namespace Libcute.Memory.GPAllocator

open Libcute.Collection.Bitmap
open Libcute.Core.Interface
open Libcute.Core.Size
open Libcute.Library
open Libcute.Library.ByteMemory
open Libcute.Library.LinkedList
open Libcute.Memory.BackingAllocator
open Libcute.Memory.Client
open Libcute.Memory.HostedRegions

/-- The backing block of a bucket: its header and its slots. -/
def Bucket.header (bucket : Bucket) : Slice :=
  ⟨bucket.addr, bucketHeaderSize + bucket.objectSize * bucket.slotCount⟩

/-- What a bucket owns of the backing allocator. -/
def Bucket.regions (bucket : Bucket) : List Slice :=
  [bucket.header, bucket.used.region]

/-- What a record owns of the backing allocator. -/
def LargeAlloc.regions (record : LargeAlloc) : List Slice :=
  ⟨record.addr, largeAllocSize⟩ ::
    if record.slice.ptr = 0 then [] else [record.slice]

/-- All that the allocator owns of the backing allocator. -/
def GPA.regions (gpa : GPA) : List Slice :=
  gpa.buckets.flatMap Bucket.regions ++
    gpa.larges.flatMap LargeAlloc.regions

/-- The counter of a bucket agrees with its bitmap. -/
structure BucketOk (bucket : Bucket) : Prop where
  covered : bucket.used.Covered
  bitCount : bucket.used.bitCount = bucket.slotCount
  usedCount : bucket.usedCount = bucket.used.indices.card
  positive : 0 < bucket.slotCount
  sized : ∃ idx < numSmallBuckets, bucket.objectSize = 2 ^ idx

/-- The regions are hosted, and the lists run through their headers. -/
structure Framed (gpa : GPA) (lists : Nat → List Nat)
    (nodes : List Nat) : Prop where
  hosted : Hosted gpa.regions gpa.backing
  sized : ∀ bucket ∈ gpa.buckets,
    ∃ idx < numSmallBuckets, bucket.objectSize = 2 ^ idx
  linked : BucketLists gpa lists
  recorded : LargeList gpa nodes

/-- The allocator is sound on its own. -/
structure Ok (gpa : GPA) (lists : Nat → List Nat) (nodes : List Nat) :
    Prop where
  positive : 0 < gpa.bucketSize
  bounded : gpa.bucketSize ≤ requestLimit
  hosted : Hosted gpa.regions gpa.backing
  each : ∀ bucket ∈ gpa.buckets, BucketOk bucket
  linked : BucketLists gpa lists
  recorded : LargeList gpa nodes

/-- If the bucket is empty, it is the only one of its size. -/
def Bucket.AloneIn (lists : Nat → List Nat) (bucket : Bucket) : Prop :=
  bucket.usedCount = 0 →
    ∀ idx < numSmallBuckets, bucket.objectSize = 2 ^ idx →
      lists idx = [bucket.addr]

/-- A bucket without live blocks is the only one of its size. -/
def Alone (gpa : GPA) (lists : Nat → List Nat) : Prop :=
  ∀ bucket ∈ gpa.buckets, bucket.AloneIn lists

/-- The block starts at a slot of the bucket and fits in it. -/
def Bucket.Houses (bucket : Bucket) (block : Slice) : Prop :=
  ∃ slot < bucket.slotCount,
    block.ptr = bucket.slotAddr slot ∧
      block.length ≤ bucket.objectSize

/-- The set bits are the slots that start at one of the addresses. -/
def Bucket.Marks (bucket : Bucket) (ptrs : List Nat) : Prop :=
  ∀ slot < bucket.slotCount,
    bucket.used.get slot = true ↔ bucket.slotAddr slot ∈ ptrs

/-- The block has a slot of a bucket. -/
def Small (gpa : GPA) (block : Slice) : Prop :=
  ∃ bucket ∈ gpa.buckets, bucket.Houses block

/-- The block is a large allocation. -/
def Large (gpa : GPA) (block : Slice) : Prop :=
  ∃ record ∈ gpa.larges, record.slice = block

/-- The live blocks and the bookkeeping describe each other. -/
structure Holds (gpa : GPA) (live : List Slice) : Prop where
  valid : ∀ block ∈ live, block.ptr ≠ 0
  homed : ∀ block ∈ live, Small gpa block ∨ Large gpa block
  marked : ∀ bucket ∈ gpa.buckets, bucket.Marks (live.map Slice.ptr)
  distinct : (live.map Slice.ptr).Nodup
  records : ∀ record ∈ gpa.larges,
    record.slice.ptr ≠ 0 → record.slice ∈ live

structure Invariant (world : World GPA) : Prop where
  sound : ∃ lists nodes,
    Ok world.state lists nodes ∧ Alone world.state lists
  holds : Holds world.state world.live

variable {gpa : GPA} {lists : Nat → List Nat} {nodes : List Nat}
  {bucket other : Bucket} {record : LargeAlloc} {live : List Slice}
  {block : Slice} {slot ptr idx : Nat}

/-! ## Regions -/

theorem GPA.header_mem (member : bucket ∈ gpa.buckets) :
    bucket.header ∈ gpa.regions := by
  apply List.mem_append_left
  exact List.mem_flatMap.mpr ⟨bucket, member, List.mem_cons_self⟩

theorem GPA.bits_mem (member : bucket ∈ gpa.buckets) :
    bucket.used.region ∈ gpa.regions := by
  apply List.mem_append_left
  exact List.mem_flatMap.mpr
    ⟨bucket, member, List.mem_cons_of_mem _ List.mem_cons_self⟩

theorem GPA.record_mem (member : record ∈ gpa.larges) :
    ⟨record.addr, largeAllocSize⟩ ∈ gpa.regions := by
  apply List.mem_append_right
  exact List.mem_flatMap.mpr ⟨record, member, List.mem_cons_self⟩

theorem LargeAlloc.slice_mem (nonnull : record.slice.ptr ≠ 0) :
    record.slice ∈ record.regions := by
  unfold LargeAlloc.regions
  rw [if_neg nonnull]
  exact List.mem_cons_of_mem _ List.mem_cons_self

theorem GPA.slice_mem (member : record ∈ gpa.larges)
    (nonnull : record.slice.ptr ≠ 0) :
    record.slice ∈ gpa.regions := by
  apply List.mem_append_right
  exact List.mem_flatMap.mpr
    ⟨record, member, LargeAlloc.slice_mem nonnull⟩

/-- The regions of the elements of a list are pairwise separate. -/
theorem separate_of_flatMap {Item : Type} {own : Item → List Slice}
    {items : List Item} {left right : Item}
    (separate : (items.flatMap own).Pairwise Separate)
    (leftMember : left ∈ items) (rightMember : right ∈ items)
    (different : left ≠ right)
    {region neighbour : Slice}
    (inLeft : region ∈ own left) (inRight : neighbour ∈ own right) :
    Separate region neighbour := by
  have symmetric : Std.Symm fun left right =>
      ∀ region ∈ own left, ∀ neighbour ∈ own right,
        Separate region neighbour :=
    ⟨fun _ _ apart region inRight neighbour inLeft =>
      (apart neighbour inLeft region inRight).symm⟩
  exact (List.pairwise_flatMap.mp separate).2.forall
    leftMember rightMember different region inLeft neighbour inRight

namespace Framed

/-- Buckets are identified by their addresses. -/
theorem unique (framed : Framed gpa lists nodes) :
    KeyedList.Unique Bucket.addr gpa.buckets := by
  have separate := (List.pairwise_append.mp framed.hosted.separate).1
  refine List.pairwise_map.mpr
    ((List.pairwise_flatMap.mp separate).2.imp ?_)
  intro left right apart
  exact (apart left.header List.mem_cons_self
    right.header List.mem_cons_self).ptr_ne

/-- Records are identified by their addresses. -/
theorem uniqueLarge (framed : Framed gpa lists nodes) :
    KeyedList.Unique LargeAlloc.addr gpa.larges := by
  have separate := (List.pairwise_append.mp framed.hosted.separate).2.1
  refine List.pairwise_map.mpr
    ((List.pairwise_flatMap.mp separate).2.imp ?_)
  intro left right apart
  exact (apart _ List.mem_cons_self _ List.mem_cons_self).ptr_ne

theorem addr_ne_zero
    (framed : Framed gpa lists nodes) (member : bucket ∈ gpa.buckets) :
    bucket.addr ≠ 0 :=
  (framed.hosted.valid _ (GPA.header_mem member)).1

/-- The slots of a bucket do not wrap around the address space. -/
theorem fits
    (framed : Framed gpa lists nodes) (member : bucket ∈ gpa.buckets) :
    bucketData bucket.addr + bucket.objectSize * bucket.slotCount <
      sizeLimit := by
  have valid := (framed.hosted.valid _ (GPA.header_mem member)).2
  simp only [Bucket.header, span] at valid
  unfold bucketData
  omega

end Framed

namespace Ok

theorem framed (ok : Ok gpa lists nodes) : Framed gpa lists nodes where
  hosted := ok.hosted
  sized := fun bucket member => (ok.each bucket member).sized
  linked := ok.linked
  recorded := ok.recorded

theorem separate_buckets
    (ok : Ok gpa lists nodes) (member : bucket ∈ gpa.buckets)
    (otherMember : other ∈ gpa.buckets) (different : bucket ≠ other)
    {region neighbour : Slice}
    (inLeft : region ∈ bucket.regions)
    (inRight : neighbour ∈ other.regions) :
    Separate region neighbour :=
  separate_of_flatMap (List.pairwise_append.mp ok.hosted.separate).1
    member otherMember different inLeft inRight

theorem separate_records {neighbour : LargeAlloc}
    (ok : Ok gpa lists nodes) (member : record ∈ gpa.larges)
    (otherMember : neighbour ∈ gpa.larges)
    (different : record ≠ neighbour)
    {region area : Slice}
    (inLeft : region ∈ record.regions)
    (inRight : area ∈ neighbour.regions) :
    Separate region area :=
  separate_of_flatMap (List.pairwise_append.mp ok.hosted.separate).2.1
    member otherMember different inLeft inRight

theorem separate_bucket_record
    (ok : Ok gpa lists nodes) (member : bucket ∈ gpa.buckets)
    (recordMember : record ∈ gpa.larges)
    {region area : Slice}
    (inLeft : region ∈ bucket.regions)
    (inRight : area ∈ record.regions) :
    Separate region area :=
  (List.pairwise_append.mp ok.hosted.separate).2.2
    region (List.mem_flatMap.mpr ⟨bucket, member, inLeft⟩)
    area (List.mem_flatMap.mpr ⟨record, recordMember, inRight⟩)

theorem unique (ok : Ok gpa lists nodes) :
    KeyedList.Unique Bucket.addr gpa.buckets :=
  ok.framed.unique

theorem uniqueLarge (ok : Ok gpa lists nodes) :
    KeyedList.Unique LargeAlloc.addr gpa.larges :=
  ok.framed.uniqueLarge

theorem addr_ne_zero
    (ok : Ok gpa lists nodes) (member : bucket ∈ gpa.buckets) :
    bucket.addr ≠ 0 :=
  ok.framed.addr_ne_zero member

theorem fits (ok : Ok gpa lists nodes) (member : bucket ∈ gpa.buckets) :
    bucketData bucket.addr + bucket.objectSize * bucket.slotCount <
      sizeLimit :=
  ok.framed.fits member

theorem objectSize_pos
    (ok : Ok gpa lists nodes) (member : bucket ∈ gpa.buckets) :
    0 < bucket.objectSize := by
  rcases (ok.each bucket member).sized with ⟨idx, small, size⟩
  rw [size]
  exact Nat.two_pow_pos idx

/-! ## Slots -/

theorem contains_iff
    (ok : Ok gpa lists nodes) (member : bucket ∈ gpa.buckets) :
    bucket.Contains ptr ↔
      bucketData bucket.addr ≤ ptr ∧
        ptr < bucketData bucket.addr +
          bucket.objectSize * bucket.slotCount := by
  have bound := ok.fits member
  unfold Bucket.Contains
  rw [sizeMul_eq (by omega)]

theorem slot_scaled (bucket : Bucket) (inside : slot < bucket.slotCount) :
    slot * bucket.objectSize + bucket.objectSize ≤
      bucket.objectSize * bucket.slotCount := by
  have scaled := Nat.mul_le_mul_left bucket.objectSize inside
  rw [Nat.mul_succ, Nat.mul_comm bucket.objectSize slot] at scaled
  exact scaled

theorem slotAddr_eq
    (ok : Ok gpa lists nodes) (member : bucket ∈ gpa.buckets)
    (inside : slot < bucket.slotCount) :
    bucket.slotAddr slot =
      bucketData bucket.addr + slot * bucket.objectSize := by
  have bound := ok.fits member
  have scaled := slot_scaled bucket inside
  unfold Bucket.slotAddr
  rw [sizeMul_eq (by omega)]

theorem contains_slot
    (ok : Ok gpa lists nodes) (member : bucket ∈ gpa.buckets)
    (inside : slot < bucket.slotCount) :
    bucket.Contains (bucket.slotAddr slot) := by
  have positive := ok.objectSize_pos member
  have scaled := slot_scaled bucket inside
  rw [ok.contains_iff member, ok.slotAddr_eq member inside]
  omega

theorem slotOf_slotAddr
    (ok : Ok gpa lists nodes) (member : bucket ∈ gpa.buckets)
    (inside : slot < bucket.slotCount) :
    bucket.slotOf (bucket.slotAddr slot) = slot := by
  unfold Bucket.slotOf
  rw [ok.slotAddr_eq member inside, Nat.add_sub_cancel_left]
  exact Nat.mul_div_cancel _ (ok.objectSize_pos member)

/-- An address lies in the slots of at most one bucket. -/
theorem bucket_of_contains
    (ok : Ok gpa lists nodes) (member : bucket ∈ gpa.buckets)
    (otherMember : other ∈ gpa.buckets)
    (contains : bucket.Contains ptr) (otherContains : other.Contains ptr) :
    bucket = other := by
  by_contra different
  have apart := (ok.separate_buckets member otherMember different
    List.mem_cons_self List.mem_cons_self).apart
  rw [ok.contains_iff member] at contains
  rw [ok.contains_iff otherMember] at otherContains
  unfold Apart Bucket.header bucketData at *
  dsimp only at apart
  omega

/-- Two slots with one address are one slot. -/
theorem slot_injective {index : Nat}
    (ok : Ok gpa lists nodes) (member : bucket ∈ gpa.buckets)
    (otherMember : other ∈ gpa.buckets)
    (inside : slot < bucket.slotCount)
    (otherInside : index < other.slotCount)
    (same : bucket.slotAddr slot = other.slotAddr index) :
    bucket = other ∧ slot = index := by
  have contains := ok.contains_slot member inside
  have otherContains := ok.contains_slot otherMember otherInside
  rw [same] at contains
  have equal := ok.bucket_of_contains member otherMember contains
    otherContains
  subst equal
  refine ⟨rfl, ?_⟩
  rw [← ok.slotOf_slotAddr member inside, same,
    ok.slotOf_slotAddr member otherInside]

/-- The search finds exactly the bucket whose slots contain the address. -/
theorem findBucket_of_contains
    (ok : Ok gpa lists nodes) (member : bucket ∈ gpa.buckets)
    (contains : bucket.Contains ptr) :
    gpa.findBucket ptr = some bucket := by
  cases found : gpa.findBucket ptr with
  | none =>
      rcases (ok.each bucket member).sized with ⟨idx, small, size⟩
      exact (ok.linked.not_contains_of_findBucket ok.unique found member
        small size contains).elim
  | some other =>
      rcases ok.linked.mem_of_findBucket found with
        ⟨otherMember, otherContains⟩
      rw [ok.bucket_of_contains member otherMember contains
        otherContains]

/-- The address of a large allocation lies in no slot. -/
theorem not_contains_of_record
    (ok : Ok gpa lists nodes) (member : bucket ∈ gpa.buckets)
    (recordMember : record ∈ gpa.larges)
    (nonnull : record.slice.ptr ≠ 0) :
    ¬ bucket.Contains record.slice.ptr := by
  intro contains
  have separate := ok.separate_bucket_record member recordMember
    List.mem_cons_self (LargeAlloc.slice_mem nonnull)
  rw [ok.contains_iff member] at contains
  unfold Separate Apart Bucket.header bucketData span at *
  dsimp only at separate
  omega

theorem record_of_ptr {neighbour : LargeAlloc}
    (ok : Ok gpa lists nodes) (member : record ∈ gpa.larges)
    (otherMember : neighbour ∈ gpa.larges)
    (nonnull : record.slice.ptr ≠ 0)
    (same : record.slice.ptr = neighbour.slice.ptr) :
    record = neighbour := by
  by_contra different
  have separate := ok.separate_records member otherMember different
    (LargeAlloc.slice_mem nonnull)
    (LargeAlloc.slice_mem (same ▸ nonnull))
  exact separate.ptr_ne same

end Ok

/-! ## Live blocks -/

/-- Every region of the allocator keeps its bytes. -/
def KeepsRegions (gpa : GPA) (memory : Memory) : Prop :=
  ∀ region ∈ gpa.regions,
    SameBytes gpa.backing.memory memory region.ptr region.length

namespace Holds

/-- A block in a slot lies between the header and the end of its bucket. -/
theorem houses_bounds
    (ok : Ok gpa lists nodes) (member : bucket ∈ gpa.buckets)
    (houses : bucket.Houses block) :
    bucketData bucket.addr ≤ block.ptr ∧
      block.finish ≤ bucket.header.finish := by
  rcases houses with ⟨slot, inside, start, short⟩
  have scaled := Ok.slot_scaled bucket inside
  rw [ok.slotAddr_eq member inside] at start
  unfold Slice.finish Bucket.header bucketData at *
  dsimp only
  omega

/-- A live block lies in a region of the allocator. -/
theorem inside
    (holds : Holds gpa live) (ok : Ok gpa lists nodes)
    (member : block ∈ live) :
    ∃ region ∈ gpa.regions,
      region.ptr ≤ block.ptr ∧ block.finish ≤ region.finish := by
  rcases holds.homed block member with
    ⟨bucket, bucketMember, houses⟩ | ⟨record, recordMember, rfl⟩
  · have bounds := houses_bounds ok bucketMember houses
    refine ⟨bucket.header, GPA.header_mem bucketMember, ?_, bounds.2⟩
    unfold bucketData Bucket.header at *
    dsimp only
    omega
  · exact
      ⟨record.slice,
        GPA.slice_mem recordMember (holds.valid _ member),
        Nat.le_refl _, Nat.le_refl _⟩

/-- What keeps the bytes of the regions keeps those of the live blocks. -/
theorem sameBytes {memory : Memory}
    (holds : Holds gpa live) (ok : Ok gpa lists nodes)
    (kept : KeepsRegions gpa memory) (member : block ∈ live) :
    SameBytes gpa.backing.memory memory
      (block.ptr - 0) (0 + block.length) := by
  rcases holds.inside ok member with ⟨region, inRegions, low, high⟩
  unfold Slice.finish at high
  exact SameBytes.inside (kept region inRegions) (by omega) (by omega)

/-- Live blocks are identified by their addresses. -/
theorem eq_of_ptr {neighbour : Slice}
    (holds : Holds gpa live)
    (member : block ∈ live) (neighbourMember : neighbour ∈ live)
    (same : block.ptr = neighbour.ptr) :
    block = neighbour :=
  List.inj_on_of_nodup_map holds.distinct member neighbourMember same

/-- Different live blocks do not overlap. -/
theorem apart {neighbour : Slice}
    (holds : Holds gpa live) (ok : Ok gpa lists nodes)
    (member : block ∈ live) (neighbourMember : neighbour ∈ live)
    (different : block ≠ neighbour) :
    Apart block.ptr block.length neighbour.ptr neighbour.length := by
  have ptrs : block.ptr ≠ neighbour.ptr :=
    fun same => different (holds.eq_of_ptr member neighbourMember same)
  have inParts : ∀ {region area : Slice}, Separate region area →
      region.ptr ≤ block.ptr → block.finish ≤ region.finish →
      area.ptr ≤ neighbour.ptr → neighbour.finish ≤ area.finish →
        Apart block.ptr block.length neighbour.ptr neighbour.length :=
    fun separate low high low' high' =>
      separate.apart.inside low high low' high'
  have bounds : ∀ {bucket : Bucket} {block : Slice},
      bucket ∈ gpa.buckets → bucket.Houses block →
        bucket.header.ptr ≤ block.ptr ∧
          block.finish ≤ bucket.header.finish := by
    intro bucket block bucketMember houses
    have both := houses_bounds ok bucketMember houses
    exact ⟨Nat.le_trans (Nat.le_add_right _ _) both.1, both.2⟩
  rcases holds.homed block member with
    ⟨bucket, bucketMember, houses⟩ | ⟨record, recordMember, rfl⟩
  · have first := bounds bucketMember houses
    rcases holds.homed neighbour neighbourMember with
      ⟨other, otherMember, otherHouses⟩ | ⟨record, recordMember, rfl⟩
    · have second := bounds otherMember otherHouses
      by_cases same : bucket = other
      · subst same
        rcases houses with ⟨slot, within, start, short⟩
        rcases otherHouses with ⟨index, within', start', short'⟩
        rw [ok.slotAddr_eq bucketMember within] at start
        rw [ok.slotAddr_eq bucketMember within'] at start'
        have distinct : slot ≠ index := by
          rintro rfl
          exact ptrs (start.trans start'.symm)
        unfold Apart
        rcases Nat.lt_or_gt_of_ne distinct with before | after
        · have scaled :=
            Nat.mul_le_mul_right bucket.objectSize before
          rw [Nat.succ_mul] at scaled
          omega
        · have scaled :=
            Nat.mul_le_mul_right bucket.objectSize after
          rw [Nat.succ_mul] at scaled
          omega
      · exact inParts
          (ok.separate_buckets bucketMember otherMember same
            List.mem_cons_self List.mem_cons_self)
          first.1 first.2 second.1 second.2
    · exact inParts
        (ok.separate_bucket_record bucketMember recordMember
          List.mem_cons_self
          (LargeAlloc.slice_mem (holds.valid _ neighbourMember)))
        first.1 first.2 (Nat.le_refl _) (Nat.le_refl _)
  · have owned := LargeAlloc.slice_mem (holds.valid _ member)
    rcases holds.homed neighbour neighbourMember with
      ⟨other, otherMember, otherHouses⟩ | ⟨second, secondMember, rfl⟩
    · have bound := bounds otherMember otherHouses
      exact inParts
        (ok.separate_bucket_record otherMember recordMember
          List.mem_cons_self owned).symm
        (Nat.le_refl _) (Nat.le_refl _) bound.1 bound.2
    · have records : record ≠ second := by
        rintro rfl
        exact different rfl
      exact
        (ok.separate_records recordMember secondMember records owned
          (LargeAlloc.slice_mem
            (holds.valid _ neighbourMember))).apart

end Holds

end Libcute.Memory.GPAllocator
