import Libcute.Memory.GPAllocator.Changes

/-!
# The calls of the general purpose allocator

Every call of the allocator keeps the invariant, leaves the other live
blocks alone, and keeps every bucket that still holds a live block.  The
branch of `cu_gpa_alloc_small` for a bitmap without a clear bit is never
taken, because a bucket whose counter is below its number of slots has one.
-/

namespace Libcute.Memory.GPAllocator

open Libcute.Collection.Bitmap
open Libcute.Core.Interface
open Libcute.Core.NoStd
open Libcute.Core.Size
open Libcute.Library
open Libcute.Library.ByteMemory
open Libcute.Memory.BackingAllocator
open Libcute.Memory.Client
open Libcute.Memory.HostedRegions

/-- The same bookkeeping over the same backing blocks. -/
structure SameGPA (before after : GPA) : Prop where
  buckets : after.buckets = before.buckets
  smallBuckets : after.smallBuckets = before.smallBuckets
  smallBucketTails : after.smallBucketTails = before.smallBucketTails
  larges : after.larges = before.larges
  largeAllocs : after.largeAllocs = before.largeAllocs
  bucketSize : after.bucketSize = before.bucketSize
  settled : Settled before.backing after.backing

/-- Where a bucket is and which slots it has. -/
def Bucket.frame (bucket : Bucket) : Nat × Nat × Nat :=
  (bucket.addr, bucket.objectSize, bucket.slotCount)

/-- Every bucket that contains a live block of the world is still there. -/
def KeepsBuckets (before : GPA) (world : World GPA) : Prop :=
  ∀ bucket ∈ before.buckets, ∀ block ∈ world.live,
    bucket.Contains block.ptr →
      bucket.frame ∈ world.state.buckets.map Bucket.frame

/-- What holds after a call that started in a state. -/
structure Sound (before : GPA) (world : World GPA) : Prop where
  invariant : Invariant world
  keeps : KeepsBuckets before world

/-- The outcomes of a call of the general purpose allocator. -/
abbrev GPAOutcome (gpa : GPA) (live : List Slice) (old : Option Slice) :
    Except IoError Slice × GPA → Prop :=
  Outcome gpaAllocator 0 SameGPA (Sound gpa) gpa live old

variable {gpa : GPA} {lists : Nat → List Nat} {nodes : List Nat}
  {bucket other : Bucket} {record : LargeAlloc} {live : List Slice}
  {block : Slice} {slot idx size : Nat} {change : Bucket → Bucket}
  {layout : Layout}

theorem KeepsBuckets.of_subset {world : World GPA}
    (frames : gpa.buckets.map Bucket.frame ⊆
      world.state.buckets.map Bucket.frame) :
    KeepsBuckets gpa world :=
  fun _ member _ _ _ => frames (List.mem_map_of_mem member)

theorem KeepsBuckets.of_eq {world : World GPA}
    (frames : world.state.buckets.map Bucket.frame =
      gpa.buckets.map Bucket.frame) :
    KeepsBuckets gpa world := by
  apply KeepsBuckets.of_subset
  rw [frames]
  exact List.Subset.refl _

/-- A failure that changes nothing. -/
theorem GPAOutcome.settled {old : Option Slice} {backing : Backing}
    (ok : Ok gpa lists nodes) (alone : Alone gpa lists)
    (holds : Holds gpa live) (settled : Settled gpa.backing backing)
    (error : IoError) :
    GPAOutcome gpa live old (.error error, { gpa with backing }) := by
  have hosted : Hosted gpa.regions backing :=
    ok.hosted.congr settled.blocks
  apply Outcome.failed
  · exact ⟨rfl, rfl, rfl, rfl, rfl, rfl, settled⟩
  · refine ⟨⟨⟨lists, nodes, ok.withBacking hosted, alone⟩,
      holds.withBacking backing⟩, ?_⟩
    exact KeepsBuckets.of_eq rfl
  · intro block member different
    apply holds.sameBytes ok _ member
    intro region inRegions
    exact ok.hosted.sameBytes settled.bytes inRegions

/-- A call that answers without touching anything fails harmlessly. -/
theorem GPAOutcome.refused {old : Option Slice}
    (ok : Ok gpa lists nodes) (alone : Alone gpa lists)
    (holds : Holds gpa live) (error : IoError) :
    GPAOutcome gpa live old (.error error, gpa) :=
  GPAOutcome.settled ok alone holds (Settled.refl gpa.backing) error

/-! ## Taking a slot -/

/-- The scan stops at a clear bit or at the end. -/
theorem firstClear_spec (used : Bits) (remaining slot : Nat) :
    (∀ index, slot ≤ index → index < firstClear used remaining slot →
      used.get index = true) ∧
    firstClear used remaining slot ≤ slot + remaining ∧
    (firstClear used remaining slot < slot + remaining →
      used.get (firstClear used remaining slot) = false) := by
  induction remaining generalizing slot with
  | zero =>
      refine ⟨?_, Nat.le_refl _, ?_⟩
      · intro index low high
        exact absurd low (Nat.not_le_of_lt high)
      · exact fun below => absurd below (Nat.lt_irrefl _)
  | succ remaining hypothesis =>
      rw [firstClear]
      by_cases taken : used.get slot = true
      · rw [if_pos taken]
        rcases hypothesis (slot + 1) with ⟨before, high, clear⟩
        refine ⟨?_, by omega, ?_⟩
        · intro index low below
          by_cases here : index = slot
          · rw [here]
            exact taken
          · exact before index (by omega) below
        · exact fun below => clear (by omega)
      · rw [if_neg taken]
        refine ⟨?_, Nat.le_add_right _ _, ?_⟩
        · intro index low high
          exact absurd low (Nat.not_le_of_lt high)
        · intro below
          simpa using taken

/-- In a bucket that is not full the scan stops at a free slot. -/
theorem BucketOk.scan
    (ok : BucketOk bucket)
    (room : bucket.usedCount ≠ bucket.slotCount) :
    firstClear bucket.used bucket.slotCount 0 < bucket.slotCount ∧
      bucket.used.get (firstClear bucket.used bucket.slotCount 0) =
        false := by
  rcases firstClear_spec bucket.used bucket.slotCount 0 with
    ⟨before, high, clear⟩
  rw [Nat.zero_add] at high clear
  have inside :
      firstClear bucket.used bucket.slotCount 0 < bucket.slotCount := by
    apply lt_of_le_of_ne high
    intro full
    apply room
    have every : bucket.used.indices =
        Finset.range bucket.slotCount := by
      apply Finset.Subset.antisymm
      · rw [← ok.bitCount]
        exact Bits.indices_subset
      · intro index inRange
        rw [Finset.mem_range] at inRange
        exact Bits.mem_indices.mpr
          (before index (Nat.zero_le _) (by omega))
    rw [ok.usedCount, every, Finset.card_range]
  exact ⟨inside, clear inside⟩

theorem Ok.slotCount_lt
    (ok : Ok gpa lists nodes) (member : bucket ∈ gpa.buckets) :
    bucket.slotCount < sizeLimit := by
  have bound := ok.fits member
  have scaled : bucket.slotCount ≤
      bucket.objectSize * bucket.slotCount :=
    Nat.le_mul_of_pos_left _ (ok.objectSize_pos member)
  omega

/-- The buckets that are empty after a change were alone before it. -/
theorem Alone.updateBucket
    (alone : Alone gpa lists) (ok : Ok gpa lists nodes)
    (member : bucket ∈ gpa.buckets)
    (node : ∀ bucket, (change bucket).node = bucket.node)
    (changed : (change bucket).usedCount = 0 →
      ∀ idx < numSmallBuckets, bucket.objectSize = 2 ^ idx →
        lists idx = [bucket.addr]) :
    Alone (gpa.updateBucket bucket.addr change) lists := by
  intro item itemMember empty idx small size
  rcases KeyedList.mem_update.mp itemMember with
    ⟨source, sourceMember, rfl⟩
  split_ifs at empty size ⊢ with here
  · have equal := ok.unique.eq_of_key sourceMember member here
    subst equal
    have addr := congrArg (fun node => node.1) (node source)
    have sizes := congrArg (fun node => node.2.2.2) (node source)
    simp only [Bucket.node] at addr sizes
    rw [addr]
    exact changed empty idx small (sizes ▸ size)
  · exact alone source sourceMember empty idx small size

/-- A bucket that is not full gives one of its slots away. -/
theorem takeSlot_spec
    (ok : Ok gpa lists nodes) (holds : Holds gpa live)
    (member : bucket ∈ gpa.buckets)
    (room : bucket.usedCount ≠ bucket.slotCount)
    (fits : size ≤ bucket.objectSize) :
    ∃ slot after, takeSlot gpa bucket size =
        (.ok ⟨bucket.slotAddr slot, size⟩, after) ∧
      after = gpa.updateBucket bucket.addr (Bucket.take slot) ∧
      (bucket.take slot).usedCount ≠ 0 ∧
      Ok after lists nodes ∧
      Holds after (⟨bucket.slotAddr slot, size⟩ :: live) := by
  have bucketOk := ok.each bucket member
  rcases bucketOk.scan room with ⟨inside, free⟩
  have taken := bucketOk.take (ok.slotCount_lt member) inside free
  refine ⟨firstClear bucket.used bucket.slotCount 0, _, ?_, rfl, ?_,
    ?_, ?_⟩
  · unfold takeSlot
    exact if_neg inside.ne
  · intro empty
    have clear := taken.vacant empty
      (firstClear bucket.used bucket.slotCount 0)
    simp only [Bucket.take, Bits.get_set bucketOk.covered,
      bucketOk.bitCount, inside, Bool.or_eq_false_iff,
      decide_eq_false_iff_not, and_self, not_true_eq_false,
      and_false] at clear
  · exact ok.updateBucket member (Bucket.take_node _)
      (Bucket.take_regions _) taken
  · exact holds.take ok member inside free fits

/-! ## Creating a bucket -/

theorem Bucket.frame_take (slot : Nat) (bucket : Bucket) :
    (bucket.take slot).frame = bucket.frame :=
  rfl

theorem Bucket.frame_release (slot : Nat) (bucket : Bucket) :
    (bucket.release slot).frame = bucket.frame :=
  rfl

theorem frames_updateBucket {addr : Nat}
    (keeps : ∀ bucket, (change bucket).frame = bucket.frame) :
    (gpa.updateBucket addr change).buckets.map Bucket.frame =
      gpa.buckets.map Bucket.frame :=
  KeyedList.map_update _ keeps

theorem calcSlotCount_pos (gpa : GPA) (objSize : Nat) :
    0 < gpa.calcSlotCount objSize := by
  unfold GPA.calcSlotCount
  dsimp only
  split_ifs with unset none none
  · exact Nat.one_pos
  · exact Nat.pos_of_ne_zero none
  · exact Nat.one_pos
  · exact Nat.pos_of_ne_zero none

/-- The slots of a new bucket take no more than the bucket size. -/
theorem calcSlotCount_mul_le
    (positive : 0 < gpa.bucketSize) (fits : size ≤ gpa.bucketSize)
    (nonzero : 0 < size) :
    gpa.calcSlotCount size * size ≤ gpa.bucketSize := by
  have quotient : gpa.bucketSize / size ≠ 0 :=
    (Nat.div_pos fits nonzero).ne'
  unfold GPA.calcSlotCount
  simp only [positive.ne', quotient, if_false]
  exact Nat.div_mul_le_self _ _

/-- The size of a bucket is what was asked for, if it does not wrap. -/
theorem bucketTotal_eq {slots : Nat}
    (fits : bucketHeaderSize + slots * size < sizeLimit) :
    sizeAdd bucketHeaderSize (sizeMul slots size) =
      bucketHeaderSize + slots * size := by
  rw [sizeMul_eq (by omega)]
  exact sizeAdd_eq fits

/-- The backing allocator failed, or it hosts a bucket. -/
theorem createBucket_hosted
    (hosted : Hosted gpa.regions gpa.backing) (nonzero : 0 < size)
    (fits : bucketHeaderSize + gpa.calcSlotCount size * size <
      sizeLimit) :
    (∃ backing, createBucket gpa size = (none, { gpa with backing }) ∧
      Settled gpa.backing backing) ∨
    ∃ ptr used backing,
      createBucket gpa size =
        (some ⟨ptr, 0, 0, used, size, gpa.calcSlotCount size, 0⟩,
          { gpa with backing }) ∧
      used = zeroed used.addr (gpa.calcSlotCount size) ∧
      Hosted (Bucket.regions
        ⟨ptr, 0, 0, used, size, gpa.calcSlotCount size, 0⟩ ++
          gpa.regions) backing ∧
      KeepsRegions gpa backing.memory := by
  have positive := calcSlotCount_pos gpa size
  have slots : gpa.calcSlotCount size ≤
      gpa.calcSlotCount size * size :=
    Nat.le_mul_of_pos_right _ nonzero
  have request : Layout.create
      (bucketHeaderSize + gpa.calcSlotCount size * size) size =
      ⟨bucketHeaderSize + gpa.calcSlotCount size * size, size⟩ :=
    Layout.create_of_pos (by unfold bucketHeaderSize; omega)
      nonzero.ne'
  have room : gpa.calcSlotCount size + 64 < sizeLimit := by
    unfold bucketHeaderSize at fits
    omega
  unfold createBucket
  simp only [bucketTotal_eq fits, request]
  rcases hosted.alloc
      ⟨bucketHeaderSize + gpa.calcSlotCount size * size, size⟩ with
    ⟨error, after, answer, settled⟩ |
    ⟨block, after, answer, large, blocks, kept, hostedBlock⟩
  · left
    simp only [answer]
    exact ⟨after, rfl, settled⟩
  · simp only [answer]
    rcases bitmapCreate_cases (hostedBlock _ large) positive room with
      ⟨final, bits, settled⟩ |
      ⟨bitmap, final, bits, zero, keptBits, hostedBits⟩
    · left
      simp only [bits]
      refine ⟨_, rfl, ?_, ?_⟩
      · exact Backing.free_head (settled.blocks.trans blocks) rfl
      · intro home member
        refine (kept home member).trans (settled.bytes home ?_)
        rw [blocks]
        exact List.mem_cons_of_mem _ member
    · right
      simp only [bits]
      refine ⟨_, bitmap, final, rfl, zero, ?_, ?_⟩
      · have header : Bucket.header ⟨block.ptr, 0, 0, bitmap, size,
            gpa.calcSlotCount size, 0⟩ =
            ⟨block.ptr,
              bucketHeaderSize + gpa.calcSlotCount size * size⟩ := by
          unfold Bucket.header
          rw [Nat.mul_comm]
        unfold Bucket.regions
        rw [header]
        exact hostedBits.perm (List.Perm.swap _ _ _)
      · intro region member
        have first := hosted.sameBytes kept member
        have second := (hostedBlock _ large).sameBytes keptBits
          (List.mem_cons_of_mem _ member)
        exact first.trans second

/-- The backing allocator failed, or there is an empty bucket. -/
theorem createBucket_cases
    (ok : Ok gpa lists nodes) (small : idx < numSmallBuckets)
    (sized : size = 2 ^ idx) (fits : size ≤ gpa.bucketSize) :
    (∃ backing, createBucket gpa size = (none, { gpa with backing }) ∧
      Settled gpa.backing backing) ∨
    ∃ bucket backing,
      createBucket gpa size = (some bucket, { gpa with backing }) ∧
      BucketOk bucket ∧ bucket.objectSize = size ∧
      bucket.usedCount = 0 ∧
      Hosted (bucket.regions ++ gpa.regions) backing ∧
      KeepsRegions gpa backing.memory := by
  have nonzero : 0 < size := by
    rw [sized]
    exact Nat.two_pow_pos idx
  have data := calcSlotCount_mul_le ok.positive fits nonzero
  have slots : gpa.calcSlotCount size ≤
      gpa.calcSlotCount size * size :=
    Nat.le_mul_of_pos_right _ nonzero
  have bounded := ok.bounded
  unfold requestLimit at bounded
  have total : bucketHeaderSize + gpa.calcSlotCount size * size <
      sizeLimit := by
    unfold bucketHeaderSize sizeLimit
    omega
  rcases createBucket_hosted ok.hosted nonzero total with
    failed | ⟨ptr, used, backing, created, zero, hosted, kept⟩
  · exact Or.inl failed
  · right
    have bitCount : used.bitCount = gpa.calcSlotCount size := by
      rw [zero]
      rfl
    have indices : used.indices = ∅ := by
      rw [zero]
      exact zeroed_indices _ _
    have covered : used.Covered := by
      rw [zero]
      exact zeroed_covered _ (by unfold sizeLimit; omega)
    exact ⟨_, backing, created,
      ⟨covered, bitCount, indices ▸ rfl, calcSlotCount_pos gpa size,
        idx, small, sized⟩, rfl, rfl, hosted, kept⟩

/-! ## Small requests -/

/-- After a slot of a new bucket was taken, the empty buckets are alone. -/
theorem Alone.append
    (alone : Alone gpa lists)
    (full : ∀ bucket ∈ gpa.buckets,
      bucket.objectSize = 2 ^ idx → bucket.usedCount ≠ 0)
    (taken : ∀ prev next,
      (change { bucket with prev, next }).usedCount ≠ 0)
    (unique : KeyedList.Unique Bucket.addr
      (gpa.appendBucket idx bucket).buckets) :
    Alone ((gpa.appendBucket idx bucket).updateBucket bucket.addr change)
      (Function.update lists idx (lists idx ++ [bucket.addr])) := by
  generalize built : Function.update lists idx
    (lists idx ++ [bucket.addr]) = longer
  have every : ∀ item ∈ bucket :: gpa.buckets,
      item.addr ≠ bucket.addr → item.AloneIn longer := by
    refine List.forall_mem_cons.mpr ⟨?_, ?_⟩
    · exact fun different => (different rfl).elim
    · intro item member different empty other small size
      have elsewhere : other ≠ idx := by
        rintro rfl
        exact full item member size empty
      rw [← built, Function.update_of_ne elsewhere]
      exact alone item member empty other small size
  have old : ∀ item ∈ (gpa.appendBucket idx bucket).buckets,
      item.addr ≠ bucket.addr → item.AloneIn longer := by
    apply forall_of_map_eq _ every
    exact appendBucket_map (fun item : Bucket =>
      item.addr ≠ bucket.addr → item.AloneIn longer) fun _ _ _ => rfl
  intro item member empty other small size
  rcases KeyedList.mem_update.mp member with ⟨source, sourceMember, rfl⟩
  split_ifs at empty size ⊢ with here
  · have stored : { bucket with
        prev := gpa.smallBucketTails idx, next := 0 } ∈
        (gpa.appendBucket idx bucket).buckets :=
      List.mem_cons_self
    have equal := unique.eq_of_key sourceMember stored here
    rw [equal] at empty
    exact (taken _ _ empty).elim
  · exact old source sourceMember here empty other small size

/-- A request served from a new bucket. -/
theorem allocFresh_outcome
    (ok : Ok gpa lists nodes) (alone : Alone gpa lists)
    (holds : Holds gpa live) {objSize : Nat}
    (small : idx < numSmallBuckets) (sized : objSize = 2 ^ idx)
    (fits : objSize ≤ gpa.bucketSize) (short : size ≤ objSize)
    (full : ∀ bucket ∈ gpa.buckets,
      bucket.objectSize = 2 ^ idx → bucket.usedCount ≠ 0) :
    GPAOutcome gpa live none (allocFresh gpa size objSize idx) := by
  unfold allocFresh
  rcases createBucket_cases ok small sized fits with
    ⟨backing, answer, settled⟩ |
    ⟨bucket, backing, answer, bucketOk, size', empty, hosted, kept⟩
  · simp only [answer]
    exact GPAOutcome.settled ok alone holds settled _
  · simp only [answer]
    have okMid : Ok { gpa with backing } lists nodes :=
      ok.withBacking hosted.tail.tail
    have sizes : bucket.objectSize = 2 ^ idx := size'.trans sized
    have okNew := okMid.append bucketOk small sizes hosted
    have holdsNew := (holds.withBacking backing).append okMid bucketOk
      empty small sizes hosted
    have stored : { bucket with
        prev := gpa.smallBucketTails idx, next := 0 } ∈
        (GPA.appendBucket { gpa with backing } idx bucket).buckets :=
      List.mem_cons_self
    have room : bucket.usedCount ≠ bucket.slotCount := by
      rw [empty]
      exact bucketOk.positive.ne
    rcases takeSlot_spec okNew holdsNew stored room
        (size'.symm ▸ short) with
      ⟨slot, after, taken, rfl, nonzero, okAfter, holdsAfter⟩
    have frame := appendBucket_frame { gpa with backing } idx bucket
    have memory : ((GPA.appendBucket { gpa with backing } idx
        bucket).updateBucket bucket.addr (Bucket.take slot)).backing =
        backing :=
      frame.2.2.1
    have same : takeSlot (GPA.appendBucket { gpa with backing } idx
        bucket) bucket size = takeSlot (GPA.appendBucket
          { gpa with backing } idx bucket) { bucket with
            prev := gpa.smallBucketTails idx, next := 0 } size :=
      rfl
    rw [same, taken]
    apply Outcome.answered
    · exact holdsAfter.valid _ List.mem_cons_self
    · refine ⟨⟨⟨_, _, okAfter, ?_⟩, holdsAfter⟩, ?_⟩
      · exact Alone.append alone full (fun _ _ => nonzero) okNew.unique
      · apply KeepsBuckets.of_subset
        dsimp only
        rw [frames_updateBucket (Bucket.frame_take _),
          appendBucket_map Bucket.frame fun _ _ _ => rfl]
        exact List.subset_cons_self _ _
    · intro other member different
      simp only [gpaAllocator, memory]
      exact holds.sameBytes ok kept member
    · intro source absent
      cases absent

/-- The first bucket of a size, when there is one. -/
theorem bucketAt_head
    (ok : Ok gpa lists nodes) (small : idx < numSmallBuckets)
    (nonempty : lists idx ≠ []) :
    ∃ bucket, gpa.bucketAt (gpa.smallBuckets idx) = some bucket ∧
      bucket ∈ gpa.buckets ∧ bucket.addr = (lists idx).headD 0 ∧
      bucket.objectSize = 2 ^ idx := by
  have head : gpa.smallBuckets idx = (lists idx).headD 0 :=
    (ok.linked.spells idx small).head
  have inList := LinkedList.headD_mem nonempty 0
  have sized := (ok.linked.listed idx small _).mp inList
  rcases List.mem_map.mp sized with ⟨bucket, member, same⟩
  simp only [Bucket.sized, Prod.mk.injEq] at same
  refine ⟨bucket, ?_, member, same.1, same.2⟩
  rw [head, ← same.1]
  exact KeyedList.find_of_mem ok.unique member

theorem allocSmall_outcome
    (ok : Ok gpa lists nodes) (alone : Alone gpa lists)
    (holds : Holds gpa live) {objSize : Nat}
    (small : idx < numSmallBuckets) (sized : objSize = 2 ^ idx)
    (fits : objSize ≤ gpa.bucketSize) (short : size ≤ objSize) :
    GPAOutcome gpa live none (allocSmall gpa size objSize idx) := by
  unfold allocSmall
  by_cases none : lists idx = []
  · have head : gpa.smallBuckets idx = 0 := by
      have first := (ok.linked.spells idx small).head
      rw [none] at first
      exact first
    have absent : gpa.bucketAt (gpa.smallBuckets idx) = Option.none := by
      rw [head]
      apply List.find?_eq_none.mpr
      intro bucket member
      simp [ok.addr_ne_zero member]
    have full : ∀ bucket ∈ gpa.buckets,
        bucket.objectSize = 2 ^ idx → bucket.usedCount ≠ 0 := by
      intro bucket member size empty
      have inList := ok.linked.mem_of_bucket member small size
      rw [none] at inList
      cases inList
    rw [absent]
    exact allocFresh_outcome ok alone holds small sized fits short full
  · rcases bucketAt_head ok small none with
      ⟨bucket, found, member, first, size'⟩
    rw [found]
    dsimp only
    by_cases taken : bucket.usedCount = bucket.slotCount
    · rw [if_pos taken]
      have full : ∀ other ∈ gpa.buckets,
          other.objectSize = 2 ^ idx → other.usedCount ≠ 0 := by
        intro other otherMember otherSize empty
        have single := alone other otherMember empty idx small otherSize
        rw [single, List.headD_cons] at first
        have same := ok.unique.eq_of_key member otherMember first
        subst same
        rw [taken] at empty
        exact (ok.each bucket member).positive.ne' empty
      exact allocFresh_outcome ok alone holds small sized fits short full
    · rw [if_neg taken]
      rcases takeSlot_spec ok holds member taken
          (size'.symm ▸ sized ▸ short) with
        ⟨slot, after, answer, rfl, nonzero, okAfter, holdsAfter⟩
      rw [answer]
      apply Outcome.answered
      · exact holdsAfter.valid _ List.mem_cons_self
      · refine ⟨⟨⟨lists, nodes, okAfter, ?_⟩, holdsAfter⟩, ?_⟩
        · exact alone.updateBucket ok member (Bucket.take_node slot)
            fun empty => (nonzero empty).elim
        · exact KeepsBuckets.of_eq
            (frames_updateBucket (Bucket.frame_take _))
      · intro other otherMember different
        exact SameBytes.refl _ _ _
      · intro source absent
        cases absent

/-! ## Large requests -/

theorem allocLarge_outcome
    (ok : Ok gpa lists nodes) (alone : Alone gpa lists)
    (holds : Holds gpa live) {alignment : Nat} :
    GPAOutcome gpa live none (allocLarge gpa size alignment) := by
  unfold allocLarge
  rcases ok.hosted.alloc (Layout.create size alignment) with
    ⟨error, after, answer, settled⟩ |
    ⟨block, after, answer, large, blocks, kept, hosted⟩
  · simp only [answer]
    exact GPAOutcome.settled ok alone holds settled _
  · simp only [answer]
    have hostedBlock : Hosted (block :: gpa.regions) after :=
      hosted _ (Nat.le_refl _)
    have request : Layout.create largeAllocSize 8 = ⟨32, 8⟩ := by
      decide
    rw [request]
    rcases hostedBlock.alloc ⟨32, 8⟩ with
      ⟨error, final, record, settled⟩ |
      ⟨home, final, record, largeHome, homeBlocks, keptHome, hostedHome⟩
    · simp only [record]
      apply GPAOutcome.settled ok alone holds
      constructor
      · exact Backing.free_head (settled.blocks.trans blocks) rfl
      · intro area member
        refine (kept area member).trans (settled.bytes area ?_)
        rw [blocks]
        exact List.mem_cons_of_mem _ member
    · simp only [record]
      have hostedBoth := hostedHome 32 largeHome
      have nonnull := (hostedBlock.valid _ List.mem_cons_self).1
      have okMid : Ok { gpa with backing := final } lists nodes :=
        ok.withBacking hostedBoth.tail.tail
      have frame := pushLarge_frame { gpa with backing := final }
        home.ptr block
      have okAfter := okMid.pushLarge nonnull hostedBoth
      have holdsAfter := (holds.withBacking final).pushLarge okMid
        home.ptr nonnull hostedBoth.tail
      apply Outcome.answered
      · exact nonnull
      · refine ⟨⟨⟨lists, _, okAfter, ?_⟩, holdsAfter⟩, ?_⟩
        · intro bucket member
          rw [frame.1] at member
          exact alone bucket member
        · exact KeepsBuckets.of_eq
            (congrArg (List.map Bucket.frame) frame.1)
      · intro other member different
        have keeps : KeepsRegions gpa final.memory := by
          intro region inRegions
          exact (ok.hosted.sameBytes kept inRegions).trans
            (hostedBlock.sameBytes keptHome
              (List.mem_cons_of_mem _ inRegions))
        simp only [gpaAllocator, frame.2.2.2.1]
        exact holds.sameBytes ok keeps member
      · intro source absent
        cases absent

/-! ## `cu_gpa_alloc` -/

/-- Of a power of two the index is the exponent, if there is a list for it. -/
theorem indexFromSize_pow {exponent : Nat} (bounded : exponent < 64) :
    indexFromSize (2 ^ exponent) =
      if exponent < numSmallBuckets then some exponent else none := by
  have every : ∀ exponent < 64, indexFromSize (2 ^ exponent) =
      if exponent < numSmallBuckets then some exponent else none := by
    decide
  exact every exponent bounded

/-- The slot size of a request is a power of two and large enough. -/
theorem objSizeFor_pow
    (need : max layout.elemSize (requestAlign layout) ≤ 2 ^ 63) :
    ∃ exponent < 64, objSizeFor layout = 2 ^ exponent ∧
      layout.elemSize ≤ objSizeFor layout := by
  unfold objSizeFor
  refine ⟨Nat.clog 2 (max layout.elemSize (requestAlign layout)), ?_,
    nextPow2_eq need, ?_⟩
  · exact Nat.lt_succ_of_le (Nat.clog_le_of_le_pow need)
  · exact Nat.le_trans (Nat.le_max_left _ _) (le_nextPow2 need)

/-- A bounded request can be rounded to a power of two. -/
theorem Bounded.need (bounded : Bounded layout) :
    max layout.elemSize (requestAlign layout) ≤ 2 ^ 63 := by
  rcases bounded with ⟨size, alignment⟩
  unfold requestLimit at size alignment
  unfold requestAlign
  split_ifs <;> omega

theorem objSizeFor_spec (bounded : Bounded layout) :
    ∃ exponent < 64, objSizeFor layout = 2 ^ exponent ∧
      layout.elemSize ≤ objSizeFor layout :=
  objSizeFor_pow bounded.need

theorem gpaAlloc_outcome
    (ok : Ok gpa lists nodes) (alone : Alone gpa lists)
    (holds : Holds gpa live) (bounded : Bounded layout) :
    GPAOutcome gpa live none (gpaAlloc gpa layout) := by
  rcases objSizeFor_spec bounded with ⟨exponent, below, size, enough⟩
  unfold gpaAlloc
  by_cases empty : layout.elemSize = 0
  · rw [if_pos empty]
    exact GPAOutcome.refused ok alone holds _
  · rw [if_neg empty, size, indexFromSize_pow below]
    by_cases small : exponent < numSmallBuckets
    · rw [if_pos small]
      dsimp only
      by_cases large : gpa.bucketSize < 2 ^ exponent
      · rw [if_pos large]
        exact allocLarge_outcome ok alone holds
      · rw [if_neg large]
        exact allocSmall_outcome ok alone holds small rfl
          (Nat.le_of_not_lt large) (size ▸ enough)
    · rw [if_neg small]
      exact allocLarge_outcome ok alone holds

/-! ## `cu_gpa_free` -/

theorem gpaFree_memory (gpa : GPA) (mem : Slice) :
    (gpaFree gpa mem).backing.memory = gpa.backing.memory := by
  have small : ∀ (gpa : GPA) bucket slot,
      (freeSmall gpa bucket slot).backing.memory =
        gpa.backing.memory := by
    intro gpa bucket slot
    unfold freeSmall releaseBucket
    dsimp only
    split_ifs
    · split
      · rfl
      · split_ifs
        · unfold destroyBucket bitmapDestroy
          rw [(unlinkBucket_frame _ _ _).2.2.1]
          dsimp only
          split_ifs <;> rfl
        · rfl
    · rfl
  unfold gpaFree
  split_ifs
  · rfl
  · split
    · exact small _ _ _
    · split
      · rfl
      · rfl

/-- Buckets other than the one that was dropped stay. -/
theorem KeepsBuckets.dropBucket
    (ok : Ok gpa lists nodes) (holds : Holds gpa live)
    (member : bucket ∈ gpa.buckets) (empty : bucket.usedCount = 0) :
    KeepsBuckets gpa ⟨gpa.dropBucket idx bucket, live⟩ := by
  intro other otherMember block blockMember contains
  dsimp only
  rw [dropBucket_map Bucket.frame fun _ _ _ => rfl]
  apply List.mem_map_of_mem
  apply KeyedList.mem_erase_of_ne otherMember
  intro same
  have equal := ok.unique.eq_of_key otherMember member same
  subst equal
  exact holds.not_contains_of_vacant ok otherMember empty blockMember
    contains

theorem Alone.dropBucket
    (others : ∀ item ∈ gpa.buckets, item.addr ≠ bucket.addr →
      item.AloneIn lists)
    (ok : Ok gpa lists nodes) (member : bucket ∈ gpa.buckets)
    (small : idx < numSmallBuckets) (size : bucket.objectSize = 2 ^ idx) :
    Alone (gpa.dropBucket idx bucket)
      (Function.update lists idx ((lists idx).erase bucket.addr)) := by
  have every : ∀ item ∈
      KeyedList.erase Bucket.addr gpa.buckets bucket.addr,
      item.AloneIn (Function.update lists idx
        ((lists idx).erase bucket.addr)) := by
    intro item itemMember empty other otherSmall otherSize
    rw [ok.unique.mem_erase_iff] at itemMember
    have single := others item itemMember.1 itemMember.2 empty other
      otherSmall otherSize
    have elsewhere : other ≠ idx := by
      rintro rfl
      have inList := ok.linked.mem_of_bucket member small size
      rw [single, List.mem_singleton] at inList
      exact itemMember.2 inList.symm
    rw [Function.update_of_ne elsewhere]
    exact single
  apply forall_of_map_eq _ every
  exact dropBucket_map _ fun _ _ _ => rfl

/-- Releasing the slot of a live block. -/
theorem freeSmall_spec
    (ok : Ok gpa lists nodes) (alone : Alone gpa lists)
    (holds : Holds gpa live) (member : bucket ∈ gpa.buckets)
    (inside : slot < bucket.slotCount) (blockMember : block ∈ live)
    (start : block.ptr = bucket.slotAddr slot)
    (fits : block.length ≤ bucket.objectSize) :
    Sound gpa ⟨freeSmall gpa bucket slot, live.erase block⟩ := by
  have bucketOk := ok.each bucket member
  have taken : bucket.used.get slot = true := by
    rw [holds.marked bucket member slot inside, ← start]
    exact List.mem_map_of_mem blockMember
  have okMid := ok.updateBucket member (Bucket.release_node slot)
    (Bucket.release_regions slot) (bucketOk.release taken)
  have holdsMid := holds.release ok member inside blockMember start fits
  have frames : gpa.buckets.map Bucket.frame =
      (gpa.updateBucket bucket.addr (Bucket.release slot)).buckets.map
        Bucket.frame :=
    (frames_updateBucket (Bucket.frame_release slot)).symm
  have released : bucket.release slot ∈
      (gpa.updateBucket bucket.addr (Bucket.release slot)).buckets :=
    KeyedList.mem_update.mpr ⟨bucket, member, if_pos rfl⟩
  have others : ∀ item ∈
      (gpa.updateBucket bucket.addr (Bucket.release slot)).buckets,
      item.addr ≠ bucket.addr → item ∈ gpa.buckets := by
    intro item itemMember different
    rcases KeyedList.mem_update.mp itemMember with
      ⟨source, sourceMember, rfl⟩
    split_ifs at different ⊢ with here
    · exact (different here).elim
    · exact sourceMember
  unfold freeSmall
  dsimp only
  by_cases empty : (bucket.release slot).usedCount = 0
  · rcases bucketOk.sized with ⟨idx, small, size⟩
    have index : indexFromSize (bucket.release slot).objectSize =
        some idx := by
      have found := indexFromSize_pow
        (Nat.lt_trans small (by decide : numSmallBuckets < 64))
      rw [if_pos small, ← size] at found
      exact found
    rw [if_pos empty]
    unfold releaseBucket
    rw [index]
    dsimp only
    split_ifs with several
    · refine ⟨⟨⟨_, nodes, okMid.dropBucket released small size, ?_⟩,
        holdsMid.dropBucket okMid released empty idx⟩, ?_⟩
      · apply Alone.dropBucket _ okMid released small size
        exact fun item itemMember different =>
          alone item (others item itemMember different)
      · intro other otherMember kept keptMember contains
        have frame := List.mem_map_of_mem (f := Bucket.frame) otherMember
        rw [frames] at frame
        rcases List.mem_map.mp frame with ⟨item, itemMember, same⟩
        rw [← same]
        apply KeepsBuckets.dropBucket okMid holdsMid released empty item
          itemMember kept keptMember
        simp only [Bucket.frame, Prod.mk.injEq] at same
        unfold Bucket.Contains
        rw [same.1, same.2.1, same.2.2]
        exact contains
    · refine ⟨⟨⟨lists, nodes, okMid, ?_⟩, holdsMid⟩, ?_⟩
      · apply alone.updateBucket ok member (Bucket.release_node slot)
        intro _ other otherSmall otherSize
        have same : other = idx :=
          Nat.pow_right_injective (Nat.le_refl 2)
            (otherSize.symm.trans size)
        subst same
        have inList := ok.linked.mem_of_bucket member small size
        rw [not_or, not_not, not_not] at several
        apply ((okMid.linked.spells other small).eq_singleton_iff
          inList).mp
        refine ⟨several.1, ?_⟩
        exact (KeyedList.read_of_mem okMid.unique released).trans
          several.2
      · exact KeepsBuckets.of_eq frames.symm
  · rw [if_neg empty]
    refine ⟨⟨⟨lists, nodes, okMid, ?_⟩, holdsMid⟩, ?_⟩
    · exact alone.updateBucket ok member (Bucket.release_node slot)
        fun none => (empty none).elim
    · exact KeepsBuckets.of_eq frames.symm

/-- A live block is in the bucket that contains its address. -/
theorem Holds.houses_of_contains
    (holds : Holds gpa live) (ok : Ok gpa lists nodes)
    (member : bucket ∈ gpa.buckets) (blockMember : block ∈ live)
    (contains : bucket.Contains block.ptr) :
    bucket.Houses block := by
  rcases holds.homed block blockMember with
    ⟨item, itemMember, slot, inside, start, short⟩ |
    ⟨record, recordMember, rfl⟩
  · have inItem := ok.contains_slot itemMember inside
    rw [← start] at inItem
    rw [ok.bucket_of_contains member itemMember contains inItem]
    exact ⟨slot, inside, start, short⟩
  · exact (ok.not_contains_of_record member recordMember
      (holds.valid _ blockMember) contains).elim

/-- A live block that no bucket contains is found as a large one. -/
theorem Holds.findLarge_eq
    (holds : Holds gpa live) (ok : Ok gpa lists nodes)
    (blockMember : block ∈ live)
    (missing : gpa.findBucket block.ptr = none) :
    ∃ record ∈ gpa.larges, gpa.findLarge block.ptr = some record ∧
      record.slice = block := by
  rcases holds.homed block blockMember with
    ⟨item, itemMember, slot, inside, start, short⟩ |
    ⟨record, recordMember, rfl⟩
  · have contains := ok.contains_slot itemMember inside
    rw [← start] at contains
    rw [ok.findBucket_of_contains itemMember contains] at missing
    cases missing
  · refine ⟨record, recordMember, ?_, rfl⟩
    cases found : gpa.findLarge record.slice.ptr with
    | none =>
        exact (ok.recorded.ptr_ne_of_findLarge ok.uniqueLarge found
          recordMember rfl).elim
    | some other =>
        rcases ok.recorded.mem_of_findLarge found with
          ⟨otherMember, same⟩
        rw [ok.record_of_ptr recordMember otherMember
          (holds.valid _ blockMember) same.symm]

/-- Freeing a live block keeps the invariant for the others. -/
theorem gpaFree_spec
    (ok : Ok gpa lists nodes) (alone : Alone gpa lists)
    (holds : Holds gpa live) (blockMember : block ∈ live) :
    Sound gpa ⟨gpaFree gpa block, live.erase block⟩ := by
  unfold gpaFree
  rw [if_neg (holds.valid block blockMember)]
  cases found : gpa.findBucket block.ptr with
  | some bucket =>
      rcases ok.linked.mem_of_findBucket found with ⟨member, contains⟩
      rcases holds.houses_of_contains ok member blockMember contains with
        ⟨slot, inside, start, short⟩
      have index : bucket.slotOf block.ptr = slot := by
        rw [start]
        exact ok.slotOf_slotAddr member inside
      dsimp only
      rw [index]
      exact freeSmall_spec ok alone holds member inside blockMember start
        short
  | none =>
      rcases holds.findLarge_eq ok blockMember found with
        ⟨record, recordMember, large, rfl⟩
      dsimp only
      rw [large]
      dsimp only
      have buckets : (freeLarge gpa record).buckets = gpa.buckets :=
        (unlinkLarge_frame gpa record).1
      refine ⟨⟨⟨lists, _, ok.dropRecord recordMember
        (holds.valid _ blockMember), ?_⟩,
        holds.dropRecord ok recordMember blockMember⟩, ?_⟩
      · intro bucket member
        dsimp only at member
        rw [buckets] at member
        exact alone bucket member
      · exact KeepsBuckets.of_eq
          (congrArg (List.map Bucket.frame) buckets)

/-! ## `cu_gpa_grow` and `cu_gpa_shrink` -/

/-- The other live blocks keep their bytes when a large one is resized. -/
theorem Holds.sameBytes_others {backing : Backing}
    (holds : Holds gpa live) (ok : Ok gpa lists nodes)
    (member : record ∈ gpa.larges)
    (kept : ∀ region ∈
      ⟨record.addr, largeAllocSize⟩ :: gpa.otherRegions record,
      SameBytes gpa.backing.memory backing.memory
        region.ptr region.length)
    (blockMember : block ∈ live) (different : record.slice ≠ block) :
    SameBytes gpa.backing.memory backing.memory
      (block.ptr - 0) (0 + block.length) := by
  rcases holds.inside_others ok member blockMember
      (fun same => different same.symm) with
    ⟨region, inOthers, low, high⟩
  have same := kept region (List.mem_cons_of_mem _ inOthers)
  unfold Slice.finish at high
  exact same.inside (by omega) (by omega)

theorem resizeLarge_outcome
    (ok : Ok gpa lists nodes) (alone : Alone gpa lists)
    (holds : Holds gpa live) (member : record ∈ gpa.larges)
    (held : record.slice ∈ live) (event : Option Slice → Event) :
    GPAOutcome gpa live (some record.slice)
      (resizeLarge gpa record
        (gpa.backing.resize event record.slice layout)) := by
  have split := ok.framed.regions_split member (holds.valid _ held)
  rcases (ok.hosted.perm split).resize event layout with
    ⟨error, after, answer, settled⟩ |
    ⟨after, answer, empty, hosted, kept⟩ |
    ⟨block, after, answer, large, hosted, kept, front⟩
  · rw [answer]
    exact GPAOutcome.settled ok alone holds settled error
  · rw [answer]
    have none : ownBlock ⟨0, 0⟩ = [] := rfl
    have hostedAll : Hosted (ownBlock ⟨0, 0⟩ ++
        ⟨record.addr, largeAllocSize⟩ :: gpa.otherRegions record)
        after :=
      hosted
    apply Outcome.released
    · refine ⟨⟨⟨lists, nodes, ok.resizeRecord member hostedAll, alone⟩,
        holds.resizeRecord ok member held hostedAll⟩, ?_⟩
      exact KeepsBuckets.of_eq rfl
    · intro other otherMember different
      exact holds.sameBytes_others ok member kept otherMember
        fun same => different (congrArg some same)
  · rw [answer]
    have nonnull := (hosted.valid _ List.mem_cons_self).1
    have own : ownBlock block = [block] := if_neg nonnull
    have hostedAll : Hosted (ownBlock block ++
        ⟨record.addr, largeAllocSize⟩ :: gpa.otherRegions record)
        after := by
      rw [own]
      exact hosted
    have holdsAfter := holds.resizeRecord ok member held hostedAll
    rw [own] at holdsAfter
    apply Outcome.answered
    · exact nonnull
    · exact ⟨⟨⟨lists, nodes, ok.resizeRecord member hostedAll, alone⟩,
        holdsAfter⟩, KeepsBuckets.of_eq rfl⟩
    · intro other otherMember different
      exact holds.sameBytes_others ok member kept otherMember
        fun same => different (congrArg some same)
    · rintro source ⟨rfl⟩ offset inside
      exact front offset inside

/-- A block in a slot is resized in place. -/
theorem resizeSmall_outcome
    (ok : Ok gpa lists nodes) (alone : Alone gpa lists)
    (holds : Holds gpa live) (member : bucket ∈ gpa.buckets)
    (blockMember : block ∈ live) (houses : bucket.Houses block)
    (fits : size ≤ bucket.objectSize) :
    GPAOutcome gpa live (some block) (.ok ⟨block.ptr, size⟩, gpa) := by
  apply Outcome.answered
  · exact holds.valid block blockMember
  · exact ⟨⟨⟨lists, nodes, ok, alone⟩,
      holds.resizeSmall ok member blockMember houses fits⟩,
      KeepsBuckets.of_eq rfl⟩
  · exact fun other otherMember different => SameBytes.refl _ _ _
  · rintro source ⟨rfl⟩ offset inside
    rfl

/-- The allocator over other bytes. -/
def GPA.withMemory (gpa : GPA) (memory : Memory) : GPA :=
  { gpa with backing := { gpa.backing with memory } }

/-- Freeing a live block after the bytes were changed. -/
theorem Sound.free {after : GPA}
    (sound : Sound gpa ⟨after, live⟩) (member : block ∈ live)
    (memory : Memory) :
    Sound gpa ⟨gpaFree (after.withMemory memory) block,
      live.erase block⟩ := by
  rcases sound with ⟨⟨⟨lists, nodes, ok, alone⟩, holds⟩, keeps⟩
  have okMid : Ok (after.withMemory memory) lists nodes :=
    ok.withBacking (ok.hosted.congr rfl)
  have holdsMid : Holds (after.withMemory memory) live :=
    holds.withBacking _
  rcases gpaFree_spec okMid alone holdsMid member with ⟨freed, kept⟩
  refine ⟨freed, ?_⟩
  intro bucket bucketMember other otherMember contains
  have frame := keeps bucket bucketMember other
    (List.mem_of_mem_erase otherMember) contains
  rcases List.mem_map.mp frame with ⟨item, itemMember, same⟩
  rw [← same]
  apply kept item itemMember other otherMember
  simp only [Bucket.frame, Prod.mk.injEq] at same
  unfold Bucket.Contains
  rw [same.1, same.2.1, same.2.2]
  exact contains

/-- Copying into a block only writes the block. -/
theorem smemcpy_sameBytes {memory : Memory} {new old : Slice}
    {address length : Nat}
    (newValid : new.ptr ≠ 0) (oldValid : old.ptr ≠ 0)
    (apart : Apart new.ptr new.length old.ptr old.length)
    (outside : Apart new.ptr new.length address length) :
    SameBytes memory (smemcpy memory new old) address length := by
  have copied := smemcpy_eq_blit memory newValid oldValid apart
  rw [copied]
  apply blit_sameBytes
  unfold Apart at *
  omega

/-- Allocate, copy and free, when a block does not fit its slot any more. -/
theorem move_outcome
    (ok : Ok gpa lists nodes) (alone : Alone gpa lists)
    (holds : Holds gpa live) (blockMember : block ∈ live)
    (bounded : Bounded layout) :
    GPAOutcome gpa live (some block)
      (match gpaAlloc gpa layout with
      | (.error error, gpa) => (.error error, gpa)
      | (.ok new, gpa) =>
          (.ok new, gpaFree
            (gpa.withMemory (smemcpy gpa.backing.memory new block))
            block)) := by
  have outcome := gpaAlloc_outcome ok alone holds bounded
  have oldValid := holds.valid block blockMember
  generalize gpaAlloc gpa layout = result at outcome
  cases outcome with
  | failed error after same keeps others =>
      apply Outcome.failed error after same keeps
      exact fun other member _ => others other member nofun
  | released after keeps others =>
      apply Outcome.released
      · exact keeps.free blockMember _
      · intro other member _
        simp only [gpaAllocator, gpaFree_memory]
        exact others other member nofun
  | answered new after valid keeps others carried =>
      have holdsAfter := keeps.invariant.holds
      rcases keeps.invariant.sound with ⟨_, _, okAfter, _⟩
      have held : block ∈ new :: live :=
        List.mem_cons_of_mem _ blockMember
      have distinct : ∀ other ∈ live, new ≠ other := by
        rintro other member rfl
        exact (List.nodup_cons.mp holdsAfter.distinct).1
          (List.mem_map_of_mem member)
      have apart : ∀ other ∈ live,
          Apart new.ptr new.length other.ptr other.length :=
        fun other member => holdsAfter.apart okAfter List.mem_cons_self
          (List.mem_cons_of_mem _ member) (distinct other member)
      have erased : (new :: live).erase block =
          new :: live.erase block :=
        List.erase_cons_tail (by simpa using distinct block blockMember)
      have freed := keeps.free held
        (smemcpy after.backing.memory new block)
      change Sound gpa ⟨_, (new :: live).erase block⟩ at freed
      rw [erased] at freed
      apply Outcome.answered
      · exact valid
      · exact freed
      · intro other member different
        simp only [gpaAllocator, gpaFree_memory]
        apply SameBytes.trans (others other member nofun)
        apply smemcpy_sameBytes valid oldValid (apart block blockMember)
        have outside := apart other member
        unfold Apart at *
        omega
      · rintro source ⟨rfl⟩ offset inside
        simp only [gpaAllocator, gpaFree_memory, GPA.withMemory]
        have copied := smemcpy_eq_blit after.backing.memory valid oldValid
          (apart block blockMember)
        rw [copied, blit_inside _ _ (by omega)]
        have same := others block blockMember nofun offset (by omega)
        exact same

theorem gpaGrow_outcome
    (ok : Ok gpa lists nodes) (alone : Alone gpa lists)
    (holds : Holds gpa live) (blockMember : block ∈ live)
    (bounded : Bounded layout) :
    GPAOutcome gpa live (some block) (gpaGrow gpa block layout) := by
  unfold gpaGrow
  rw [if_neg (holds.valid block blockMember)]
  cases found : gpa.findBucket block.ptr with
  | none =>
      rcases holds.findLarge_eq ok blockMember found with
        ⟨record, recordMember, large, rfl⟩
      dsimp only
      rw [large]
      exact resizeLarge_outcome ok alone holds recordMember blockMember _
  | some bucket =>
      rcases ok.linked.mem_of_findBucket found with ⟨member, contains⟩
      have houses :=
        holds.houses_of_contains ok member blockMember contains
      dsimp only
      by_cases fits : layout.elemSize ≤ bucket.objectSize
      · rw [if_pos fits]
        exact resizeSmall_outcome ok alone holds member blockMember houses
          fits
      · rw [if_neg fits]
        exact move_outcome ok alone holds blockMember bounded

theorem gpaShrink_outcome
    (ok : Ok gpa lists nodes) (alone : Alone gpa lists)
    (holds : Holds gpa live) (blockMember : block ∈ live)
    (shorter : layout.elemSize ≤ block.length) :
    GPAOutcome gpa live (some block) (gpaShrink gpa block layout) := by
  unfold gpaShrink
  rw [if_neg (holds.valid block blockMember)]
  cases found : gpa.findBucket block.ptr with
  | none =>
      rcases holds.findLarge_eq ok blockMember found with
        ⟨record, recordMember, large, rfl⟩
      dsimp only
      rw [large]
      exact resizeLarge_outcome ok alone holds recordMember blockMember _
  | some bucket =>
      rcases ok.linked.mem_of_findBucket found with ⟨member, contains⟩
      have houses :=
        holds.houses_of_contains ok member blockMember contains
      rcases houses with ⟨slot, inside, start, short⟩
      exact resizeSmall_outcome ok alone holds member blockMember
        ⟨slot, inside, start, short⟩ (Nat.le_trans shorter short)

end Libcute.Memory.GPAllocator
