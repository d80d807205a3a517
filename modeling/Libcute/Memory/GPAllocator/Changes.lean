import Libcute.Memory.GPAllocator.Invariant

/-!
# Changes of the general purpose allocator

The calls are made of a few changes: a slot is taken or released, an empty
bucket comes or goes, a record is put in front, resized or taken out.  Each
change keeps the invariant for the live blocks that go with it.
-/

namespace Libcute.Memory.GPAllocator

open Libcute.Collection.Bitmap
open Libcute.Core.Interface
open Libcute.Core.Size
open Libcute.Library
open Libcute.Library.ByteMemory
open Libcute.Memory.BackingAllocator
open Libcute.Memory.Client
open Libcute.Memory.HostedRegions

variable {gpa : GPA} {lists : Nat → List Nat} {nodes : List Nat}
  {bucket other : Bucket} {record : LargeAlloc} {live : List Slice}
  {block : Slice} {slot ptr idx size : Nat} {change : Bucket → Bucket}

/-- Lists that look the same have the same properties. -/
theorem forall_of_map_eq {Item : Type} {Holds : Item → Prop}
    {left right : List Item} (same : left.map Holds = right.map Holds)
    (every : ∀ item ∈ right, Holds item) :
    ∀ item ∈ left, Holds item := by
  intro item member
  have image := List.mem_map_of_mem (f := Holds) member
  rw [same] at image
  rcases List.mem_map.mp image with ⟨source, sourceMember, equal⟩
  rw [← equal]
  exact every source sourceMember

theorem exists_of_map_eq {Item : Type} {Holds : Item → Prop}
    {left right : List Item} (same : left.map Holds = right.map Holds)
    (some : ∃ item ∈ right, Holds item) :
    ∃ item ∈ left, Holds item := by
  rcases some with ⟨item, member, holds⟩
  have image := List.mem_map_of_mem (f := Holds) member
  rw [← same] at image
  rcases List.mem_map.mp image with ⟨source, sourceMember, equal⟩
  refine ⟨source, sourceMember, ?_⟩
  rw [equal]
  exact holds

/-! ## One bucket -/

section Bucket

theorem Bucket.take_node (slot : Nat) (bucket : Bucket) :
    (bucket.take slot).node = bucket.node :=
  rfl

theorem Bucket.release_node (slot : Nat) (bucket : Bucket) :
    (bucket.release slot).node = bucket.node :=
  rfl

theorem Bucket.take_regions (slot : Nat) (bucket : Bucket) :
    (bucket.take slot).regions = bucket.regions := by
  simp [Bucket.regions, Bucket.take, Bits.region, Bucket.header]

theorem Bucket.release_regions (slot : Nat) (bucket : Bucket) :
    (bucket.release slot).regions = bucket.regions := by
  simp [Bucket.regions, Bucket.release, Bits.region, Bucket.header]

theorem BucketOk.card_le (ok : BucketOk bucket) :
    bucket.used.indices.card ≤ bucket.slotCount := by
  rw [← ok.bitCount, ← bucket.used.clearCount_add_card]
  exact Nat.le_add_left _ _

theorem BucketOk.withLinks (ok : BucketOk bucket) (prev next : Nat) :
    BucketOk { bucket with prev, next } where
  covered := ok.covered
  bitCount := ok.bitCount
  usedCount := ok.usedCount
  positive := ok.positive
  sized := ok.sized

theorem bucketOk_ignoresLinks : IgnoresLinks BucketOk := by
  intro bucket prev next
  apply propext
  constructor
  · intro ok
    exact ok.withLinks bucket.prev bucket.next
  · intro ok
    exact ok.withLinks prev next

theorem BucketOk.take
    (ok : BucketOk bucket) (bounded : bucket.slotCount < sizeLimit)
    (inside : slot < bucket.slotCount)
    (free : bucket.used.get slot = false) :
    BucketOk (bucket.take slot) := by
  have indices : (bucket.take slot).used.indices =
      insert slot bucket.used.indices :=
    Bits.indices_set ok.covered (by rw [ok.bitCount]; exact inside)
  have fresh : slot ∉ bucket.used.indices := by
    rw [Bits.mem_indices, free]
    exact Bool.false_ne_true
  have bitCount : (bucket.take slot).used.bitCount = bucket.slotCount :=
    Bits.set_bitCount.trans ok.bitCount
  have card : (bucket.take slot).used.indices.card =
      bucket.used.indices.card + 1 := by
    rw [indices, Finset.card_insert_of_notMem fresh]
  have room : (bucket.take slot).used.indices.card ≤
      bucket.slotCount := by
    rw [← bitCount, ← (bucket.take slot).used.clearCount_add_card]
    exact Nat.le_add_left _ _
  constructor
  · exact ok.covered.set slot
  · exact bitCount
  · rw [card, ← ok.usedCount]
    rw [card, ← ok.usedCount] at room
    exact sizeAdd_eq (lt_of_le_of_lt room bounded)
  · exact ok.positive
  · exact ok.sized

theorem BucketOk.release
    (ok : BucketOk bucket) (taken : bucket.used.get slot = true) :
    BucketOk (bucket.release slot) := by
  have indices : (bucket.release slot).used.indices =
      bucket.used.indices.erase slot :=
    Bits.indices_clear ok.covered slot
  have member : slot ∈ bucket.used.indices := Bits.mem_indices.mpr taken
  have positive : 0 < bucket.usedCount := by
    rw [ok.usedCount]
    exact Finset.card_pos.mpr ⟨slot, member⟩
  constructor
  · exact ok.covered.clear slot
  · exact Bits.clear_bitCount.trans ok.bitCount
  · rw [indices, Finset.card_erase_of_mem member, ← ok.usedCount]
    simp only [Bucket.release, positive, if_true]
  · exact ok.positive
  · exact ok.sized

/-- A bucket whose counter is zero has no set bits. -/
theorem BucketOk.vacant
    (ok : BucketOk bucket) (empty : bucket.usedCount = 0) (slot : Nat) :
    bucket.used.get slot = false := by
  rw [ok.usedCount, Finset.card_eq_zero] at empty
  by_contra set
  have member : slot ∈ bucket.used.indices :=
    Bits.mem_indices.mpr (by simpa using set)
  rw [empty] at member
  exact Finset.notMem_empty _ member

end Bucket

/-! ## Changing one bucket -/

theorem regions_updateBucket
    (keeps : ∀ bucket, (change bucket).regions = bucket.regions) :
    (gpa.updateBucket ptr change).regions = gpa.regions := by
  unfold GPA.regions GPA.updateBucket
  simp only [List.flatMap_def, KeyedList.map_update Bucket.regions keeps]

theorem Framed.updateBucket
    (framed : Framed gpa lists nodes)
    (node : ∀ bucket, (change bucket).node = bucket.node)
    (regions : ∀ bucket, (change bucket).regions = bucket.regions) :
    Framed (gpa.updateBucket ptr change) lists nodes where
  hosted := by
    rw [regions_updateBucket regions]
    exact framed.hosted
  sized := by
    apply KeyedList.forall_update framed.sized
    intro item itemMember same size
    have sizes := congrArg (fun node => node.2.2.2) (node item)
    simp only [Bucket.node] at sizes
    rw [sizes]
    exact size
  linked := framed.linked.update node
  recorded := ⟨framed.recorded.spells, framed.recorded.listed⟩

theorem Ok.updateBucket
    (ok : Ok gpa lists nodes) (member : bucket ∈ gpa.buckets)
    (node : ∀ bucket, (change bucket).node = bucket.node)
    (regions : ∀ bucket, (change bucket).regions = bucket.regions)
    (changed : BucketOk (change bucket)) :
    Ok (gpa.updateBucket bucket.addr change) lists nodes := by
  have framed := @Framed.updateBucket _ _ _ bucket.addr change ok.framed
    node regions
  refine ⟨ok.positive, ok.bounded, framed.hosted, ?_, framed.linked,
    framed.recorded⟩
  apply KeyedList.forall_update ok.each
  intro item itemMember same itemOk
  rw [ok.unique.eq_of_key itemMember member same]
  exact changed

theorem Small.updateBucket
    (small : Small gpa block)
    (houses : ∀ bucket,
      (change bucket).Houses block = bucket.Houses block) :
    Small (gpa.updateBucket ptr change) block :=
  exists_of_map_eq
    (KeyedList.map_update (fun bucket : Bucket => bucket.Houses block)
      houses) small

/-- The addresses that remain when a live block is given up. -/
theorem mem_ptrs_erase
    (distinct : (live.map Slice.ptr).Nodup) (member : block ∈ live) :
    ptr ∈ (live.erase block).map Slice.ptr ↔
      ptr ≠ block.ptr ∧ ptr ∈ live.map Slice.ptr := by
  have nodup : live.Nodup := distinct.of_map
  simp only [List.mem_map, nodup.mem_erase_iff]
  constructor
  · rintro ⟨other, ⟨different, otherMember⟩, rfl⟩
    refine ⟨?_, other, otherMember, rfl⟩
    intro same
    exact different
      (List.inj_on_of_nodup_map distinct otherMember member same)
  · rintro ⟨different, other, otherMember, rfl⟩
    refine ⟨other, ⟨?_, otherMember⟩, rfl⟩
    rintro rfl
    exact different rfl

theorem ptrs_erase_nodup
    (distinct : (live.map Slice.ptr).Nodup) (block : Slice) :
    ((live.erase block).map Slice.ptr).Nodup :=
  distinct.sublist (List.erase_sublist.map Slice.ptr)

/-- Taking a free slot hands out its address. -/
theorem Holds.take
    (holds : Holds gpa live) (ok : Ok gpa lists nodes)
    (member : bucket ∈ gpa.buckets) (inside : slot < bucket.slotCount)
    (free : bucket.used.get slot = false)
    (fits : size ≤ bucket.objectSize) :
    Holds (gpa.updateBucket bucket.addr (Bucket.take slot))
      (⟨bucket.slotAddr slot, size⟩ :: live) where
  valid := by
    intro block blockMember
    rcases List.mem_cons.mp blockMember with rfl | old
    · have contains := ok.contains_slot member inside
      rw [ok.contains_iff member] at contains
      unfold bucketData bucketHeaderSize at contains
      dsimp only
      omega
    · exact holds.valid block old
  homed := by
    intro block blockMember
    rcases List.mem_cons.mp blockMember with rfl | old
    · left
      have housed : Small gpa ⟨bucket.slotAddr slot, size⟩ :=
        ⟨bucket, member, slot, inside, rfl, fits⟩
      exact housed.updateBucket fun _ => rfl
    · rcases holds.homed block old with small | large
      · exact Or.inl (small.updateBucket fun _ => rfl)
      · exact Or.inr large
  marked := by
    intro changed changedMember
    rcases KeyedList.mem_update.mp changedMember with
      ⟨item, itemMember, rfl⟩
    have before := holds.marked item itemMember
    split_ifs with here
    · have equal := ok.unique.eq_of_key itemMember member here
      subst equal
      intro other otherInside
      have old := before other otherInside
      have bitCount := (ok.each item member).bitCount
      simp only [Bucket.take, Bits.get_set (ok.each item member).covered,
        Bool.or_eq_true, decide_eq_true_eq, bitCount, inside, and_true,
        List.map_cons, List.mem_cons, old]
      constructor
      · rintro (marked | rfl)
        · exact Or.inr marked
        · exact Or.inl rfl
      · rintro (same | marked)
        · exact Or.inr
            (ok.slot_injective member member otherInside inside same).2
        · exact Or.inl marked
    · intro other otherInside
      have different : item.slotAddr other ≠ bucket.slotAddr slot := by
        intro same
        have equal := (ok.slot_injective itemMember member otherInside
          inside same).1
        exact here (congrArg Bucket.addr equal)
      rw [before other otherInside, List.map_cons, List.mem_cons]
      simp only [different, false_or]
  distinct := by
    refine List.nodup_cons.mpr ⟨?_, holds.distinct⟩
    rw [← holds.marked bucket member slot inside, free]
    exact Bool.false_ne_true
  records := fun record recordMember nonnull =>
    List.mem_cons_of_mem _ (holds.records record recordMember nonnull)

/-- A block in a slot is no large allocation. -/
theorem Holds.slice_ne_of_houses
    (ok : Ok gpa lists nodes) (member : bucket ∈ gpa.buckets)
    (houses : bucket.Houses block) (recordMember : record ∈ gpa.larges)
    (nonnull : record.slice.ptr ≠ 0) :
    record.slice ≠ block := by
  rintro rfl
  rcases houses with ⟨slot, inside, start, short⟩
  have contains := ok.contains_slot member inside
  rw [← start] at contains
  exact ok.not_contains_of_record member recordMember nonnull contains

/-- Releasing the slot of a live block gives the block up. -/
theorem Holds.release
    (holds : Holds gpa live) (ok : Ok gpa lists nodes)
    (member : bucket ∈ gpa.buckets) (inside : slot < bucket.slotCount)
    (blockMember : block ∈ live) (start : block.ptr = bucket.slotAddr slot)
    (fits : block.length ≤ bucket.objectSize) :
    Holds (gpa.updateBucket bucket.addr (Bucket.release slot))
      (live.erase block) where
  valid := fun other otherMember =>
    holds.valid other (List.mem_of_mem_erase otherMember)
  homed := by
    intro other otherMember
    rcases holds.homed other (List.mem_of_mem_erase otherMember) with
      small | large
    · exact Or.inl (small.updateBucket fun _ => rfl)
    · exact Or.inr large
  marked := by
    intro changed changedMember
    rcases KeyedList.mem_update.mp changedMember with
      ⟨item, itemMember, rfl⟩
    have before := holds.marked item itemMember
    split_ifs with here
    · have equal := ok.unique.eq_of_key itemMember member here
      subst equal
      intro other otherInside
      have old := before other otherInside
      have covered := (ok.each item member).covered
      rw [mem_ptrs_erase holds.distinct blockMember, start]
      simp only [Bucket.release, Bits.get_clear covered,
        Bool.and_eq_true, decide_eq_true_eq, old, ne_eq]
      constructor
      · rintro ⟨marked, different⟩
        refine ⟨?_, marked⟩
        intro same
        exact different
          (ok.slot_injective member member otherInside inside same).2
      · rintro ⟨different, marked⟩
        refine ⟨marked, ?_⟩
        rintro rfl
        exact different rfl
    · intro other otherInside
      have different : item.slotAddr other ≠ bucket.slotAddr slot := by
        intro same
        have equal := (ok.slot_injective itemMember member otherInside
          inside same).1
        exact here (congrArg Bucket.addr equal)
      rw [before other otherInside,
        mem_ptrs_erase holds.distinct blockMember, start]
      simp only [different, ne_eq, not_false_eq_true, true_and]
  distinct := ptrs_erase_nodup holds.distinct block
  records := by
    intro record recordMember nonnull
    have different := slice_ne_of_houses ok member
      ⟨slot, inside, start, fits⟩ recordMember nonnull
    exact (List.mem_erase_of_ne different).mpr
      (holds.records record recordMember nonnull)

/-- A block in a slot may get any length up to the size of the slot. -/
theorem Holds.resizeSmall {length : Nat}
    (holds : Holds gpa live) (ok : Ok gpa lists nodes)
    (member : bucket ∈ gpa.buckets) (blockMember : block ∈ live)
    (houses : bucket.Houses block) (fits : length ≤ bucket.objectSize) :
    Holds gpa (⟨block.ptr, length⟩ :: live.erase block) := by
  have ptrs : ∀ ptr,
      ptr ∈ (⟨block.ptr, length⟩ :: live.erase block).map Slice.ptr ↔
        ptr ∈ live.map Slice.ptr := by
    intro ptr
    rw [List.map_cons, List.mem_cons,
      mem_ptrs_erase holds.distinct blockMember]
    by_cases same : ptr = block.ptr
    · simp only [same, true_or, true_iff]
      exact List.mem_map_of_mem blockMember
    · simp only [same, false_or, ne_eq, not_false_eq_true, true_and]
  constructor
  · intro other otherMember
    rcases List.mem_cons.mp otherMember with rfl | old
    · exact holds.valid block blockMember
    · exact holds.valid other (List.mem_of_mem_erase old)
  · intro other otherMember
    rcases List.mem_cons.mp otherMember with rfl | old
    · rcases houses with ⟨slot, inside, start, short⟩
      exact Or.inl ⟨bucket, member, slot, inside, start, fits⟩
    · exact holds.homed other (List.mem_of_mem_erase old)
  · intro item itemMember slot inside
    rw [holds.marked item itemMember slot inside]
    exact (ptrs _).symm
  · refine List.nodup_cons.mpr
      ⟨?_, ptrs_erase_nodup holds.distinct block⟩
    rw [mem_ptrs_erase holds.distinct blockMember]
    exact fun kept => kept.1 rfl
  · intro record recordMember nonnull
    have different :=
      slice_ne_of_houses ok member houses recordMember nonnull
    exact List.mem_cons_of_mem _ ((List.mem_erase_of_ne different).mpr
      (holds.records record recordMember nonnull))

/-! ## The backing allocator -/

theorem Framed.withBacking {backing : Backing}
    (framed : Framed gpa lists nodes) (hosted : Hosted gpa.regions backing) :
    Framed { gpa with backing } lists nodes where
  hosted := hosted
  sized := framed.sized
  linked := framed.linked.congr rfl rfl rfl
  recorded := framed.recorded.congr rfl rfl

theorem Ok.withBacking {backing : Backing}
    (ok : Ok gpa lists nodes) (hosted : Hosted gpa.regions backing) :
    Ok { gpa with backing } lists nodes := by
  have framed := ok.framed.withBacking hosted
  exact ⟨ok.positive, ok.bounded, hosted, ok.each, framed.linked,
    framed.recorded⟩

theorem Holds.withBacking (holds : Holds gpa live) (backing : Backing) :
    Holds { gpa with backing } live where
  valid := holds.valid
  homed := holds.homed
  marked := holds.marked
  distinct := holds.distinct
  records := holds.records

/-! ## A new bucket -/

/-- Appending a bucket only concerns the buckets of its size. -/
theorem appendBucket_frame (gpa : GPA) (idx : Nat) (bucket : Bucket) :
    (gpa.appendBucket idx bucket).larges = gpa.larges ∧
      (gpa.appendBucket idx bucket).largeAllocs = gpa.largeAllocs ∧
      (gpa.appendBucket idx bucket).backing = gpa.backing ∧
      (gpa.appendBucket idx bucket).bucketSize = gpa.bucketSize := by
  unfold GPA.appendBucket
  dsimp only
  split_ifs
  · exact ⟨rfl, rfl, rfl, rfl⟩
  · exact ⟨rfl, rfl, rfl, rfl⟩

theorem appendBucket_regions (gpa : GPA) (idx : Nat) (bucket : Bucket) :
    (gpa.appendBucket idx bucket).regions =
      bucket.regions ++ gpa.regions := by
  unfold GPA.regions
  rw [(appendBucket_frame gpa idx bucket).1, List.flatMap_def,
    appendBucket_map Bucket.regions fun _ _ _ => rfl, List.flatten_cons,
    ← List.flatMap_def, List.append_assoc]

/-- The header of a hosted new bucket is separate from all regions. -/
theorem separate_header
    (hosted : Hosted (bucket.regions ++ gpa.regions) gpa.backing)
    {region : Slice} (member : region ∈ gpa.regions) :
    Separate bucket.header region :=
  (List.pairwise_append.mp hosted.separate).2.2
    bucket.header List.mem_cons_self region member

theorem Framed.append
    (framed : Framed gpa lists nodes)
    (small : idx < numSmallBuckets) (size : bucket.objectSize = 2 ^ idx)
    (hosted : Hosted (bucket.regions ++ gpa.regions) gpa.backing) :
    Framed (gpa.appendBucket idx bucket)
      (Function.update lists idx (lists idx ++ [bucket.addr])) nodes := by
  rcases appendBucket_frame gpa idx bucket with
    ⟨larges, head, backing, bucketSize⟩
  have fresh : bucket.addr ∉ gpa.buckets.map Bucket.addr := by
    intro member
    rcases List.mem_map.mp member with ⟨other, otherMember, same⟩
    exact (separate_header hosted (GPA.header_mem otherMember)).ptr_ne
      same.symm
  have nonnull : bucket.addr ≠ 0 :=
    (hosted.valid bucket.header
      (List.mem_append_left _ List.mem_cons_self)).1
  constructor
  · rw [backing, appendBucket_regions]
    exact hosted
  · have every : ∀ item ∈ bucket :: gpa.buckets,
        ∃ idx < numSmallBuckets, item.objectSize = 2 ^ idx :=
      List.forall_mem_cons.mpr ⟨⟨idx, small, size⟩, framed.sized⟩
    apply forall_of_map_eq _ every
    exact appendBucket_map (fun item : Bucket =>
      ∃ idx < numSmallBuckets, item.objectSize = 2 ^ idx) fun _ _ _ => rfl
  · exact framed.linked.append framed.unique fresh nonnull small size
  · exact framed.recorded.congr larges head

theorem Ok.append
    (ok : Ok gpa lists nodes) (bucketOk : BucketOk bucket)
    (small : idx < numSmallBuckets) (size : bucket.objectSize = 2 ^ idx)
    (hosted : Hosted (bucket.regions ++ gpa.regions) gpa.backing) :
    Ok (gpa.appendBucket idx bucket)
      (Function.update lists idx (lists idx ++ [bucket.addr])) nodes := by
  have framed := ok.framed.append small size hosted
  have bucketSize := (appendBucket_frame gpa idx bucket).2.2.2
  refine ⟨bucketSize ▸ ok.positive, bucketSize ▸ ok.bounded,
    framed.hosted, ?_, framed.linked, framed.recorded⟩
  have every : ∀ item ∈ bucket :: gpa.buckets, BucketOk item :=
    List.forall_mem_cons.mpr ⟨bucketOk, ok.each⟩
  apply forall_of_map_eq _ every
  exact appendBucket_map BucketOk bucketOk_ignoresLinks

theorem Small.append
    (small : Small gpa block) (idx : Nat) (bucket : Bucket) :
    Small (gpa.appendBucket idx bucket) block := by
  have among : ∃ item ∈ bucket :: gpa.buckets, item.Houses block := by
    rcases small with ⟨item, member, houses⟩
    exact ⟨item, List.mem_cons_of_mem _ member, houses⟩
  apply exists_of_map_eq _ among
  exact appendBucket_map (fun item => item.Houses block)
    fun _ _ _ => rfl

/-- A new bucket without set bits goes with the same live blocks. -/
theorem Holds.append
    (holds : Holds gpa live) (ok : Ok gpa lists nodes)
    (bucketOk : BucketOk bucket) (empty : bucket.usedCount = 0)
    (small : idx < numSmallBuckets) (size : bucket.objectSize = 2 ^ idx)
    (hosted : Hosted (bucket.regions ++ gpa.regions) gpa.backing) :
    Holds (gpa.appendBucket idx bucket) live := by
  have after := ok.append bucketOk small size hosted
  have larges := (appendBucket_frame gpa idx bucket).1
  have marks : bucket.Marks (live.map Slice.ptr) := by
    intro slot inside
    rw [bucketOk.vacant empty slot]
    constructor
    · exact fun set => (Bool.false_ne_true set).elim
    · intro there
      exfalso
      rcases List.mem_map.mp there with ⟨block, member, start⟩
      have newMember : { bucket with
          prev := gpa.smallBucketTails idx, next := 0 } ∈
          (gpa.appendBucket idx bucket).buckets :=
        List.mem_cons_self
      have contains := after.contains_slot newMember inside
      rw [after.contains_iff newMember] at contains
      have here : bucketData bucket.addr ≤ block.ptr ∧
          block.ptr < bucketData bucket.addr +
            bucket.objectSize * bucket.slotCount := by
        rw [start]
        exact contains
      rcases holds.homed block member with
        ⟨item, itemMember, index, within, itemStart, short⟩ |
        ⟨record, recordMember, rfl⟩
      · have inItem := ok.contains_slot itemMember within
        rw [← itemStart, ok.contains_iff itemMember] at inItem
        have apart :=
          (separate_header hosted (GPA.header_mem itemMember)).apart
        unfold Apart Bucket.header bucketData at *
        dsimp only at apart
        omega
      · have separate := separate_header hosted
          (GPA.slice_mem recordMember (holds.valid _ member))
        unfold Separate Apart span Bucket.header bucketData at *
        dsimp only at separate
        omega
  constructor
  · exact holds.valid
  · intro block member
    rcases holds.homed block member with small | large
    · exact Or.inl (small.append idx bucket)
    · right
      unfold Large
      rw [larges]
      exact large
  · have every : ∀ item ∈ bucket :: gpa.buckets,
        item.Marks (live.map Slice.ptr) :=
      List.forall_mem_cons.mpr ⟨marks, holds.marked⟩
    apply forall_of_map_eq _ every
    exact appendBucket_map
      (fun item => item.Marks (live.map Slice.ptr)) fun _ _ _ => rfl
  · exact holds.distinct
  · rw [larges]
    exact holds.records

/-! ## Destroying a bucket -/

theorem unlinkBucket_frame (gpa : GPA) (idx : Nat) (bucket : Bucket) :
    (gpa.unlinkBucket idx bucket).larges = gpa.larges ∧
      (gpa.unlinkBucket idx bucket).largeAllocs = gpa.largeAllocs ∧
      (gpa.unlinkBucket idx bucket).backing = gpa.backing ∧
      (gpa.unlinkBucket idx bucket).bucketSize = gpa.bucketSize := by
  unfold GPA.unlinkBucket
  by_cases first : bucket.prev = 0
  · by_cases last : bucket.next = 0
    · simp only [first, last, if_true, and_self]
    · simp only [first, last, if_true, if_false, GPA.updateBucket,
        and_self]
  · by_cases last : bucket.next = 0
    · simp only [first, last, if_true, if_false, GPA.updateBucket,
        and_self]
    · simp only [first, last, if_false, GPA.updateBucket, and_self]

/-- The state without a bucket. -/
def GPA.dropBucket (gpa : GPA) (idx : Nat) (bucket : Bucket) : GPA :=
  destroyBucket (gpa.unlinkBucket idx bucket) bucket

/-- What is not a link of a bucket is the same for the buckets that stay. -/
theorem dropBucket_map {Value : Type} (view : Bucket → Value)
    (ignores : IgnoresLinks view) :
    (gpa.dropBucket idx bucket).buckets.map view =
      (KeyedList.erase Bucket.addr gpa.buckets bucket.addr).map view := by
  have keyed : (gpa.dropBucket idx bucket).buckets.map
        (fun item => (item.addr, view item)) =
      (KeyedList.erase Bucket.addr gpa.buckets bucket.addr).map
        (fun item => (item.addr, view item)) := by
    unfold GPA.dropBucket destroyBucket
    rw [KeyedList.map_erase Prod.fst _ fun _ => rfl,
      KeyedList.map_erase Prod.fst _ fun _ => rfl,
      unlinkBucket_map]
    intro item prev next
    exact congrArg (Prod.mk item.addr) (ignores item prev next)
  have views := congrArg (List.map Prod.snd) keyed
  rw [List.map_map, List.map_map] at views
  exact views

theorem dropBucket_backing (gpa : GPA) (idx : Nat) (bucket : Bucket) :
    (gpa.dropBucket idx bucket).backing =
      (bitmapDestroy gpa.backing bucket.used).free
        ⟨bucket.addr, sizeAdd bucketHeaderSize
          (sizeMul bucket.objectSize bucket.slotCount)⟩ := by
  unfold GPA.dropBucket destroyBucket
  rw [(unlinkBucket_frame gpa idx bucket).2.2.1]

theorem dropBucket_larges (gpa : GPA) (idx : Nat) (bucket : Bucket) :
    (gpa.dropBucket idx bucket).larges = gpa.larges :=
  (unlinkBucket_frame gpa idx bucket).1

/-- The regions of one bucket, and those of the others. -/
theorem regions_eraseBucket
    (unique : KeyedList.Unique Bucket.addr gpa.buckets)
    (member : bucket ∈ gpa.buckets) :
    gpa.regions.Perm (bucket.used.region :: bucket.header ::
      ((KeyedList.erase Bucket.addr gpa.buckets bucket.addr).flatMap
          Bucket.regions ++
        gpa.larges.flatMap LargeAlloc.regions)) := by
  have perm := KeyedList.perm_cons_erase
    (KeyedList.find_of_mem unique member)
  have split := (perm.flatMap_right Bucket.regions).append_right
    (gpa.larges.flatMap LargeAlloc.regions)
  exact split.trans (List.Perm.swap _ _ _)

/-- The regions of a bucket that goes, and those that stay. -/
theorem dropBucket_regions
    (unique : KeyedList.Unique Bucket.addr gpa.buckets)
    (member : bucket ∈ gpa.buckets) (idx : Nat) :
    gpa.regions.Perm (bucket.used.region :: bucket.header ::
      (gpa.dropBucket idx bucket).regions) := by
  have kept : (gpa.dropBucket idx bucket).regions =
      (KeyedList.erase Bucket.addr gpa.buckets bucket.addr).flatMap
          Bucket.regions ++
        gpa.larges.flatMap LargeAlloc.regions := by
    unfold GPA.regions
    rw [dropBucket_larges, List.flatMap_def,
      dropBucket_map Bucket.regions fun _ _ _ => rfl,
      ← List.flatMap_def]
  rw [kept]
  exact regions_eraseBucket unique member

theorem Framed.dropBucket
    (framed : Framed gpa lists nodes) (member : bucket ∈ gpa.buckets)
    (small : idx < numSmallBuckets) (size : bucket.objectSize = 2 ^ idx) :
    Framed (gpa.dropBucket idx bucket)
      (Function.update lists idx ((lists idx).erase bucket.addr))
      nodes := by
  rcases unlinkBucket_frame gpa idx bucket with ⟨larges, head, _, _⟩
  have split := dropBucket_regions framed.unique member idx
  have bitsValid : bucket.used.addr ≠ 0 :=
    (framed.hosted.valid _ (GPA.bits_mem member)).1
  constructor
  · rw [dropBucket_backing]
    unfold bitmapDestroy
    rw [if_neg bitsValid]
    refine Hosted.free (?_ : Hosted (bucket.header :: _) _) rfl
    exact Hosted.free (framed.hosted.perm split) rfl
  · have every : ∀ item ∈
        KeyedList.erase Bucket.addr gpa.buckets bucket.addr,
        ∃ idx < numSmallBuckets, item.objectSize = 2 ^ idx :=
      fun item itemMember =>
        framed.sized item (KeyedList.mem_of_mem_erase itemMember)
    apply forall_of_map_eq _ every
    exact dropBucket_map (fun item : Bucket =>
      ∃ idx < numSmallBuckets, item.objectSize = 2 ^ idx) fun _ _ _ => rfl
  · exact framed.linked.remove framed.unique member small size
  · exact framed.recorded.congr larges head

theorem Ok.dropBucket
    (ok : Ok gpa lists nodes) (member : bucket ∈ gpa.buckets)
    (small : idx < numSmallBuckets) (size : bucket.objectSize = 2 ^ idx) :
    Ok (gpa.dropBucket idx bucket)
      (Function.update lists idx ((lists idx).erase bucket.addr))
      nodes := by
  have framed := ok.framed.dropBucket member small size
  have bucketSize := (unlinkBucket_frame gpa idx bucket).2.2.2
  refine ⟨bucketSize ▸ ok.positive, bucketSize ▸ ok.bounded,
    framed.hosted, ?_, framed.linked, framed.recorded⟩
  have every : ∀ item ∈
      KeyedList.erase Bucket.addr gpa.buckets bucket.addr,
      BucketOk item :=
    fun item itemMember =>
      ok.each item (KeyedList.mem_of_mem_erase itemMember)
  apply forall_of_map_eq _ every
  exact dropBucket_map BucketOk bucketOk_ignoresLinks

/-- An empty bucket contains the address of no live block. -/
theorem Holds.not_contains_of_vacant
    (holds : Holds gpa live) (ok : Ok gpa lists nodes)
    (member : bucket ∈ gpa.buckets) (empty : bucket.usedCount = 0)
    (blockMember : block ∈ live) :
    ¬ bucket.Contains block.ptr := by
  intro contains
  rcases holds.homed block blockMember with
    ⟨item, itemMember, slot, inside, start, short⟩ |
    ⟨record, recordMember, rfl⟩
  · have inItem := ok.contains_slot itemMember inside
    rw [← start] at inItem
    have equal := ok.bucket_of_contains member itemMember contains inItem
    subst equal
    have there : bucket.slotAddr slot ∈ live.map Slice.ptr := by
      rw [← start]
      exact List.mem_map_of_mem blockMember
    rw [← holds.marked bucket member slot inside,
      (ok.each bucket member).vacant empty slot] at there
    exact Bool.false_ne_true there
  · exact ok.not_contains_of_record member recordMember
      (holds.valid _ blockMember) contains

/-- A bucket without live blocks can go. -/
theorem Holds.dropBucket
    (holds : Holds gpa live) (ok : Ok gpa lists nodes)
    (member : bucket ∈ gpa.buckets) (empty : bucket.usedCount = 0)
    (idx : Nat) :
    Holds (gpa.dropBucket idx bucket) live := by
  have larges := dropBucket_larges gpa idx bucket
  constructor
  · exact holds.valid
  · intro block blockMember
    rcases holds.homed block blockMember with
      ⟨item, itemMember, houses⟩ | large
    · left
      have different : item.addr ≠ bucket.addr := by
        intro same
        have equal := ok.unique.eq_of_key itemMember member same
        subst equal
        apply holds.not_contains_of_vacant ok itemMember empty blockMember
        rcases houses with ⟨slot, inside, start, short⟩
        rw [start]
        exact ok.contains_slot itemMember inside
      apply exists_of_map_eq (dropBucket_map
        (fun item => item.Houses block) fun _ _ _ => rfl)
      exact
        ⟨item, KeyedList.mem_erase_of_ne itemMember different, houses⟩
    · right
      unfold Large
      rw [larges]
      exact large
  · have every : ∀ item ∈
        KeyedList.erase Bucket.addr gpa.buckets bucket.addr,
        item.Marks (live.map Slice.ptr) :=
      fun item itemMember =>
        holds.marked item (KeyedList.mem_of_mem_erase itemMember)
    apply forall_of_map_eq _ every
    exact dropBucket_map
      (fun item => item.Marks (live.map Slice.ptr)) fun _ _ _ => rfl
  · exact holds.distinct
  · rw [larges]
    exact holds.records

/-! ## Large allocations -/

section Large

variable {slice resized : Slice} {addr : Nat}

theorem pushLarge_frame (gpa : GPA) (addr : Nat) (slice : Slice) :
    (gpa.pushLarge addr slice).buckets = gpa.buckets ∧
      (gpa.pushLarge addr slice).smallBuckets = gpa.smallBuckets ∧
      (gpa.pushLarge addr slice).smallBucketTails =
        gpa.smallBucketTails ∧
      (gpa.pushLarge addr slice).backing = gpa.backing ∧
      (gpa.pushLarge addr slice).bucketSize = gpa.bucketSize := by
  unfold GPA.pushLarge
  dsimp only
  split_ifs
  · exact ⟨rfl, rfl, rfl, rfl, rfl⟩
  · exact ⟨rfl, rfl, rfl, rfl, rfl⟩

theorem pushLarge_regions (nonnull : slice.ptr ≠ 0) :
    (gpa.pushLarge addr slice).regions.Perm
      (⟨addr, largeAllocSize⟩ :: slice :: gpa.regions) := by
  have larges : (gpa.pushLarge addr slice).larges.flatMap
        LargeAlloc.regions =
      [⟨addr, largeAllocSize⟩, slice] ++
        gpa.larges.flatMap LargeAlloc.regions := by
    rw [List.flatMap_def, pushLarge_map LargeAlloc.regions
      fun _ _ _ => rfl, List.flatten_cons, ← List.flatMap_def]
    simp only [LargeAlloc.regions, nonnull, if_false]
  unfold GPA.regions
  rw [larges, (pushLarge_frame gpa addr slice).1]
  exact List.perm_append_comm_assoc _ _ _

theorem Framed.pushLarge
    (framed : Framed gpa lists nodes) (nonnull : slice.ptr ≠ 0)
    (hosted : Hosted (⟨addr, largeAllocSize⟩ :: slice :: gpa.regions)
      gpa.backing) :
    Framed (gpa.pushLarge addr slice) lists (addr :: nodes) := by
  rcases pushLarge_frame gpa addr slice with
    ⟨buckets, heads, tails, backing, _⟩
  have valid : addr ≠ 0 := (hosted.valid _ List.mem_cons_self).1
  have fresh : addr ∉ gpa.larges.map LargeAlloc.addr := by
    intro member
    rcases List.mem_map.mp member with ⟨other, otherMember, same⟩
    exact (List.rel_of_pairwise_cons hosted.separate
      (List.mem_cons_of_mem _ (GPA.record_mem otherMember))).ptr_ne
      same.symm
  constructor
  · rw [backing]
    exact hosted.perm (pushLarge_regions nonnull).symm
  · rw [buckets]
    exact framed.sized
  · exact framed.linked.congr buckets heads tails
  · exact framed.recorded.push fresh valid

theorem Ok.pushLarge
    (ok : Ok gpa lists nodes) (nonnull : slice.ptr ≠ 0)
    (hosted : Hosted (⟨addr, largeAllocSize⟩ :: slice :: gpa.regions)
      gpa.backing) :
    Ok (gpa.pushLarge addr slice) lists (addr :: nodes) := by
  have framed := ok.framed.pushLarge nonnull hosted
  rcases pushLarge_frame gpa addr slice with
    ⟨buckets, _, _, _, bucketSize⟩
  refine ⟨bucketSize ▸ ok.positive, bucketSize ▸ ok.bounded,
    framed.hosted, ?_, framed.linked, framed.recorded⟩
  rw [buckets]
  exact ok.each

theorem Small.congr {after : GPA} (small : Small gpa block)
    (buckets : after.buckets = gpa.buckets) : Small after block := by
  unfold Small
  rw [buckets]
  exact small

/-- A new large allocation is at the address of no live block. -/
theorem Holds.not_mem_ptrs
    (holds : Holds gpa live) (ok : Ok gpa lists nodes)
    (hosted : Hosted (slice :: gpa.regions) gpa.backing) :
    slice.ptr ∉ live.map Slice.ptr := by
  intro there
  rcases List.mem_map.mp there with ⟨block, member, same⟩
  have separate : ∀ region ∈ gpa.regions, Separate slice region :=
    fun region => List.rel_of_pairwise_cons hosted.separate
  rcases holds.homed block member with
    ⟨bucket, bucketMember, slot, inside, start, short⟩ |
    ⟨record, recordMember, rfl⟩
  · have contains := ok.contains_slot bucketMember inside
    rw [← start, ok.contains_iff bucketMember] at contains
    have apart := separate _ (GPA.header_mem bucketMember)
    unfold Separate Apart span Bucket.header bucketData at *
    dsimp only at apart
    omega
  · have apart := separate _
      (GPA.slice_mem recordMember (holds.valid _ member))
    exact apart.ptr_ne same.symm

/-- Slots do not start at the address of a new large allocation. -/
theorem slotAddr_ne_of_hosted
    (ok : Ok gpa lists nodes) (member : bucket ∈ gpa.buckets)
    (inside : slot < bucket.slotCount)
    (separate : Separate slice bucket.header) :
    bucket.slotAddr slot ≠ slice.ptr := by
  have contains := ok.contains_slot member inside
  rw [ok.contains_iff member] at contains
  intro same
  rw [same] at contains
  unfold Separate Apart span Bucket.header bucketData at *
  dsimp only at separate
  omega

theorem Holds.pushLarge
    (holds : Holds gpa live) (ok : Ok gpa lists nodes) (addr : Nat)
    (nonnull : slice.ptr ≠ 0)
    (hosted : Hosted (slice :: gpa.regions) gpa.backing) :
    Holds (gpa.pushLarge addr slice) (slice :: live) := by
  have buckets := (pushLarge_frame gpa addr slice).1
  constructor
  · exact List.forall_mem_cons.mpr ⟨nonnull, holds.valid⟩
  · intro block member
    rcases List.mem_cons.mp member with rfl | old
    · exact Or.inr ⟨_, List.mem_cons_self, rfl⟩
    · rcases holds.homed block old with small | ⟨record, recordMember, same⟩
      · exact Or.inl (small.congr buckets)
      · right
        have among : ∃ item ∈ ⟨addr, 0, 0, slice⟩ :: gpa.larges,
            item.slice = block :=
          ⟨record, List.mem_cons_of_mem _ recordMember, same⟩
        apply exists_of_map_eq _ among
        exact pushLarge_map
          (fun record : LargeAlloc => record.slice = block)
          fun _ _ _ => rfl
  · rw [buckets]
    intro bucket member slot inside
    have different := slotAddr_ne_of_hosted ok member inside
      (List.rel_of_pairwise_cons hosted.separate
        (GPA.header_mem member))
    rw [holds.marked bucket member slot inside, List.map_cons,
      List.mem_cons]
    simp only [different, false_or]
  · exact List.nodup_cons.mpr
      ⟨holds.not_mem_ptrs ok hosted, holds.distinct⟩
  · have every : ∀ record ∈ ⟨addr, 0, 0, slice⟩ :: gpa.larges,
        record.slice.ptr ≠ 0 → record.slice ∈ slice :: live := by
      refine List.forall_mem_cons.mpr ⟨?_, ?_⟩
      · exact fun _ => List.mem_cons_self
      · exact fun record member valid =>
          List.mem_cons_of_mem _ (holds.records record member valid)
    apply forall_of_map_eq _ every
    exact pushLarge_map (fun record : LargeAlloc =>
      record.slice.ptr ≠ 0 → record.slice ∈ slice :: live)
      fun _ _ _ => rfl

theorem unlinkLarge_frame (gpa : GPA) (record : LargeAlloc) :
    (gpa.unlinkLarge record).buckets = gpa.buckets ∧
      (gpa.unlinkLarge record).smallBuckets = gpa.smallBuckets ∧
      (gpa.unlinkLarge record).smallBucketTails =
        gpa.smallBucketTails ∧
      (gpa.unlinkLarge record).bucketSize = gpa.bucketSize := by
  unfold GPA.unlinkLarge
  by_cases first : record.prev = 0
  · by_cases last : record.next = 0
    · simp only [first, last, if_true, and_self]
    · simp only [first, last, if_true, if_false, GPA.updateLarge,
        and_self]
  · by_cases last : record.next = 0
    · simp only [first, last, if_true, if_false, GPA.updateLarge,
        and_self]
    · simp only [first, last, if_false, GPA.updateLarge, and_self]

/-- What is not a link of a record is the same for the records that stay. -/
theorem freeLarge_map {Value : Type} (view : LargeAlloc → Value)
    (ignores : IgnoresRecordLinks view) :
    (freeLarge gpa record).larges.map view =
      (KeyedList.erase LargeAlloc.addr gpa.larges record.addr).map
        view := by
  have keyed : (freeLarge gpa record).larges.map
        (fun item => (item.addr, view item)) =
      (KeyedList.erase LargeAlloc.addr gpa.larges record.addr).map
        (fun item => (item.addr, view item)) := by
    unfold freeLarge
    rw [KeyedList.map_erase Prod.fst _ fun _ => rfl,
      KeyedList.map_erase Prod.fst _ fun _ => rfl, unlinkLarge_map]
    intro item prev next
    exact congrArg (Prod.mk item.addr) (ignores item prev next)
  have views := congrArg (List.map Prod.snd) keyed
  rw [List.map_map, List.map_map] at views
  exact views

/-- The regions of all buckets and of the other records. -/
def GPA.otherRegions (gpa : GPA) (record : LargeAlloc) : List Slice :=
  gpa.buckets.flatMap Bucket.regions ++
    (KeyedList.erase LargeAlloc.addr gpa.larges record.addr).flatMap
      LargeAlloc.regions

/-- The block of a record in its resized form, unless it was given up. -/
def ownBlock (resized : Slice) : List Slice :=
  if resized.ptr = 0 then [] else [resized]

/-- The regions of a record, and all others. -/
theorem regions_split
    (unique : KeyedList.Unique LargeAlloc.addr gpa.larges)
    (member : record ∈ gpa.larges) :
    gpa.regions.Perm (ownBlock record.slice ++
      ⟨record.addr, largeAllocSize⟩ :: gpa.otherRegions record) := by
  have perm := (KeyedList.perm_cons_erase
    (KeyedList.find_of_mem unique member)).flatMap_right
      LargeAlloc.regions
  rw [List.flatMap_cons] at perm
  have joined := perm.append_left (gpa.buckets.flatMap Bucket.regions)
  refine (joined.trans (List.perm_append_comm_assoc _ _ _)).trans ?_
  have own : record.regions =
      ⟨record.addr, largeAllocSize⟩ :: ownBlock record.slice :=
    rfl
  rw [own]
  exact List.perm_middle.symm

theorem Framed.regions_split
    (framed : Framed gpa lists nodes) (member : record ∈ gpa.larges)
    (nonnull : record.slice.ptr ≠ 0) :
    gpa.regions.Perm
      (record.slice :: ⟨record.addr, largeAllocSize⟩ ::
        gpa.otherRegions record) := by
  have split := GPAllocator.regions_split framed.uniqueLarge member
  unfold ownBlock at split
  rwa [if_neg nonnull] at split

theorem freeLarge_regions :
    (freeLarge gpa record).regions = gpa.otherRegions record := by
  have buckets : (freeLarge gpa record).buckets = gpa.buckets :=
    (unlinkLarge_frame gpa record).1
  have larges : (freeLarge gpa record).larges.flatMap
        LargeAlloc.regions =
      (KeyedList.erase LargeAlloc.addr gpa.larges record.addr).flatMap
        LargeAlloc.regions := by
    rw [List.flatMap_def, freeLarge_map LargeAlloc.regions
      fun _ _ _ => rfl, ← List.flatMap_def]
  unfold GPA.regions GPA.otherRegions
  rw [buckets, larges]

theorem Framed.dropRecord
    (framed : Framed gpa lists nodes) (member : record ∈ gpa.larges)
    (nonnull : record.slice.ptr ≠ 0) :
    Framed (freeLarge gpa record) lists (nodes.erase record.addr) := by
  rcases unlinkLarge_frame gpa record with ⟨buckets, heads, tails, _⟩
  constructor
  · rw [freeLarge_regions]
    refine Hosted.free
      (?_ : Hosted (⟨record.addr, largeAllocSize⟩ :: _) _) rfl
    exact Hosted.free
      (framed.hosted.perm (framed.regions_split member nonnull)) rfl
  · have kept : (freeLarge gpa record).buckets = gpa.buckets := buckets
    rw [kept]
    exact framed.sized
  · exact framed.linked.congr buckets heads tails
  · exact framed.recorded.remove framed.uniqueLarge member

theorem Ok.dropRecord
    (ok : Ok gpa lists nodes) (member : record ∈ gpa.larges)
    (nonnull : record.slice.ptr ≠ 0) :
    Ok (freeLarge gpa record) lists (nodes.erase record.addr) := by
  rcases unlinkLarge_frame gpa record with ⟨buckets, _, _, bucketSize⟩
  have framed := ok.framed.dropRecord member nonnull
  refine ⟨bucketSize ▸ ok.positive, bucketSize ▸ ok.bounded,
    framed.hosted, ?_, framed.linked, framed.recorded⟩
  have kept : (freeLarge gpa record).buckets = gpa.buckets := buckets
  rw [kept]
  exact ok.each

/-- Freeing the block of a record gives the block up. -/
theorem Holds.dropRecord
    (holds : Holds gpa live) (ok : Ok gpa lists nodes)
    (member : record ∈ gpa.larges) (held : record.slice ∈ live) :
    Holds (freeLarge gpa record) (live.erase record.slice) := by
  have nonnull := holds.valid _ held
  have buckets : (freeLarge gpa record).buckets = gpa.buckets :=
    (unlinkLarge_frame gpa record).1
  have nodup : live.Nodup := holds.distinct.of_map
  constructor
  · exact fun block blockMember =>
      holds.valid block (List.mem_of_mem_erase blockMember)
  · intro block blockMember
    rw [nodup.mem_erase_iff] at blockMember
    rcases holds.homed block blockMember.2 with
      small | ⟨other, otherMember, same⟩
    · exact Or.inl (small.congr buckets)
    · right
      have different : other.addr ≠ record.addr := by
        intro equal
        rw [ok.uniqueLarge.eq_of_key otherMember member equal] at same
        exact blockMember.1 same.symm
      have among : ∃ item ∈ KeyedList.erase LargeAlloc.addr gpa.larges
          record.addr, item.slice = block :=
        ⟨other, KeyedList.mem_erase_of_ne otherMember different, same⟩
      apply exists_of_map_eq _ among
      exact freeLarge_map (fun item : LargeAlloc => item.slice = block)
        fun _ _ _ => rfl
  · rw [buckets]
    intro bucket bucketMember slot inside
    rw [mem_ptrs_erase holds.distinct held,
      holds.marked bucket bucketMember slot inside]
    have different : bucket.slotAddr slot ≠ record.slice.ptr := by
      intro same
      have contains := ok.contains_slot bucketMember inside
      rw [same] at contains
      exact ok.not_contains_of_record bucketMember member nonnull contains
    simp only [different, ne_eq, not_false_eq_true, true_and]
  · exact ptrs_erase_nodup holds.distinct _
  · have every : ∀ item ∈ KeyedList.erase LargeAlloc.addr gpa.larges
        record.addr,
        item.slice.ptr ≠ 0 →
          item.slice ∈ live.erase record.slice := by
      intro item itemMember valid
      rw [ok.uniqueLarge.mem_erase_iff] at itemMember
      have different : item.slice ≠ record.slice := by
        intro same
        apply itemMember.2
        rw [ok.record_of_ptr itemMember.1 member valid
          (congrArg Slice.ptr same)]
      exact (List.mem_erase_of_ne different).mpr
        (holds.records item itemMember.1 valid)
    apply forall_of_map_eq _ every
    exact freeLarge_map (fun item : LargeAlloc =>
      item.slice.ptr ≠ 0 → item.slice ∈ live.erase record.slice)
      fun _ _ _ => rfl

theorem resized_regions
    (unique : KeyedList.Unique LargeAlloc.addr gpa.larges)
    (member : record ∈ gpa.larges) :
    (gpa.updateLarge record.addr fun record =>
      { record with slice := resized }).regions.Perm
      (ownBlock resized ++ ⟨record.addr, largeAllocSize⟩ ::
        gpa.otherRegions record) := by
  have perm := (KeyedList.perm_update
    (fun record => { record with slice := resized })
    unique member).flatMap_right LargeAlloc.regions
  rw [List.flatMap_cons] at perm
  have joined := perm.append_left (gpa.buckets.flatMap Bucket.regions)
  refine (joined.trans (List.perm_append_comm_assoc _ _ _)).trans ?_
  have own : LargeAlloc.regions { record with slice := resized } =
      ⟨record.addr, largeAllocSize⟩ :: ownBlock resized :=
    rfl
  rw [own]
  exact List.perm_middle.symm

theorem mem_ownBlock : block ∈ ownBlock resized ↔
    block = resized ∧ resized.ptr ≠ 0 := by
  unfold ownBlock
  by_cases null : resized.ptr = 0
  · simp [null]
  · simp [null]

theorem GPA.header_mem_others (member : bucket ∈ gpa.buckets) :
    bucket.header ∈ gpa.otherRegions record := by
  apply List.mem_append_left
  exact List.mem_flatMap.mpr ⟨bucket, member, List.mem_cons_self⟩

theorem GPA.slice_mem_others {other : LargeAlloc}
    (member : other ∈ gpa.larges) (different : other.addr ≠ record.addr)
    (nonnull : other.slice.ptr ≠ 0) :
    other.slice ∈ gpa.otherRegions record := by
  apply List.mem_append_right
  exact List.mem_flatMap.mpr
    ⟨other, KeyedList.mem_erase_of_ne member different,
      LargeAlloc.slice_mem nonnull⟩

theorem Framed.resizeRecord
    (framed : Framed gpa lists nodes) (member : record ∈ gpa.larges)
    {backing : Backing}
    (hosted : Hosted (ownBlock resized ++
      ⟨record.addr, largeAllocSize⟩ :: gpa.otherRegions record) backing) :
    Framed (GPA.updateLarge { gpa with backing } record.addr fun record =>
      { record with slice := resized }) lists nodes where
  hosted := hosted.perm (resized_regions framed.uniqueLarge member).symm
  sized := framed.sized
  linked := framed.linked.congr rfl rfl rfl
  recorded := by
    have before : LargeList { gpa with backing } nodes :=
      framed.recorded.congr rfl rfl
    apply before.update
    · exact fun _ => rfl
    · exact fun _ => rfl
    · exact fun _ => rfl

theorem Ok.resizeRecord
    (ok : Ok gpa lists nodes) (member : record ∈ gpa.larges)
    {backing : Backing}
    (hosted : Hosted (ownBlock resized ++
      ⟨record.addr, largeAllocSize⟩ :: gpa.otherRegions record) backing) :
    Ok (GPA.updateLarge { gpa with backing } record.addr fun record =>
      { record with slice := resized }) lists nodes := by
  have framed := ok.framed.resizeRecord member hosted
  exact ⟨ok.positive, ok.bounded, framed.hosted, ok.each, framed.linked,
    framed.recorded⟩

/-- The block of a record moves, or it is given up. -/
theorem Holds.resizeRecord
    (holds : Holds gpa live) (ok : Ok gpa lists nodes)
    (member : record ∈ gpa.larges) (held : record.slice ∈ live)
    {backing : Backing}
    (hosted : Hosted (ownBlock resized ++
      ⟨record.addr, largeAllocSize⟩ :: gpa.otherRegions record) backing) :
    Holds (GPA.updateLarge { gpa with backing } record.addr fun record =>
      { record with slice := resized })
      (ownBlock resized ++ live.erase record.slice) := by
  have nonnull := holds.valid _ held
  have nodup : live.Nodup := holds.distinct.of_map
  have separate : ∀ block ∈ ownBlock resized,
      ∀ region ∈ gpa.otherRegions record, Separate block region := by
    intro block inOwn region inOthers
    exact (List.pairwise_append.mp hosted.separate).2.2 block inOwn region
      (List.mem_cons_of_mem _ inOthers)
  have slots : ∀ bucket ∈ gpa.buckets, ∀ slot < bucket.slotCount,
      bucket.slotAddr slot ∉ (ownBlock resized).map Slice.ptr := by
    intro bucket bucketMember slot inside there
    rcases List.mem_map.mp there with ⟨block, inOwn, same⟩
    exact slotAddr_ne_of_hosted ok bucketMember inside
      (separate block inOwn _ (GPA.header_mem_others bucketMember))
      same.symm
  have others : ∀ other ∈ gpa.larges, other.slice ≠ record.slice →
      other.addr ≠ record.addr := by
    intro other otherMember different same
    apply different
    rw [ok.uniqueLarge.eq_of_key otherMember member same]
  constructor
  · intro block blockMember
    rcases List.mem_append.mp blockMember with own | old
    · rcases mem_ownBlock.mp own with ⟨rfl, valid⟩
      exact valid
    · exact holds.valid block (List.mem_of_mem_erase old)
  · intro block blockMember
    rcases List.mem_append.mp blockMember with own | old
    · rcases mem_ownBlock.mp own with ⟨rfl, valid⟩
      right
      refine ⟨_, KeyedList.mem_update.mpr ⟨record, member, rfl⟩, ?_⟩
      rw [if_pos rfl]
    · rw [nodup.mem_erase_iff] at old
      rcases holds.homed block old.2 with
        small | ⟨other, otherMember, rfl⟩
      · exact Or.inl small
      · right
        refine
          ⟨other, KeyedList.mem_update.mpr ⟨other, otherMember, ?_⟩, rfl⟩
        exact if_neg (others other otherMember old.1)
  · intro bucket bucketMember slot inside
    rw [List.map_append, List.mem_append,
      mem_ptrs_erase holds.distinct held,
      holds.marked bucket bucketMember slot inside]
    have notOwn := slots bucket bucketMember slot inside
    have different : bucket.slotAddr slot ≠ record.slice.ptr := by
      intro same
      have contains := ok.contains_slot bucketMember inside
      rw [same] at contains
      exact ok.not_contains_of_record bucketMember member nonnull contains
    simp only [notOwn, different, ne_eq, not_false_eq_true, true_and,
      false_or]
  · rw [List.map_append, List.nodup_append]
    refine ⟨?_, ptrs_erase_nodup holds.distinct _, ?_⟩
    · unfold ownBlock
      split_ifs
      · exact List.nodup_nil
      · exact List.nodup_singleton _
    · intro first firstMember second secondMember same
      subst same
      rcases List.mem_map.mp secondMember with ⟨block, blockMember, start⟩
      rw [nodup.mem_erase_iff] at blockMember
      rcases holds.homed block blockMember.2 with
        ⟨bucket, bucketMember, slot, inside, slotStart, short⟩ |
        ⟨other, otherMember, rfl⟩
      · rw [← start, slotStart] at firstMember
        exact slots bucket bucketMember slot inside firstMember
      · rcases List.mem_map.mp firstMember with ⟨own, inOwn, same⟩
        have apart := separate own inOwn _
          (GPA.slice_mem_others otherMember
            (others other otherMember blockMember.1)
            (holds.valid _ blockMember.2))
        exact apart.ptr_ne (same.trans start.symm)
  · intro changed changedMember valid
    rcases KeyedList.mem_update.mp changedMember with
      ⟨item, itemMember, rfl⟩
    split_ifs at valid ⊢ with here
    · exact List.mem_append_left _ (mem_ownBlock.mpr ⟨rfl, valid⟩)
    · apply List.mem_append_right
      have different : item.slice ≠ record.slice := by
        intro same
        apply here
        rw [ok.record_of_ptr itemMember member valid
          (congrArg Slice.ptr same)]
      exact (List.mem_erase_of_ne different).mpr
        (holds.records item itemMember valid)

/-- The other live blocks lie in the regions that stay. -/
theorem Holds.inside_others
    (holds : Holds gpa live) (ok : Ok gpa lists nodes)
    (member : record ∈ gpa.larges) (blockMember : block ∈ live)
    (different : block ≠ record.slice) :
    ∃ region ∈ gpa.otherRegions record,
      region.ptr ≤ block.ptr ∧ block.finish ≤ region.finish := by
  rcases holds.homed block blockMember with
    ⟨bucket, bucketMember, houses⟩ | ⟨other, otherMember, rfl⟩
  · have bounds := houses_bounds ok bucketMember houses
    exact
      ⟨bucket.header, GPA.header_mem_others bucketMember,
        Nat.le_trans (Nat.le_add_right _ _) bounds.1, bounds.2⟩
  · have addrs : other.addr ≠ record.addr := by
      intro same
      apply different
      rw [ok.uniqueLarge.eq_of_key otherMember member same]
    exact
      ⟨other.slice,
        GPA.slice_mem_others otherMember addrs
          (holds.valid _ blockMember),
        Nat.le_refl _, Nat.le_refl _⟩

end Large

end Libcute.Memory.GPAllocator
