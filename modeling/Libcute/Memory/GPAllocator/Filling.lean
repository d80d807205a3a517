import Libcute.Memory.GPAllocator.Occupancy

/-!
# Allocating without a free in between

`Filling` collects the runs in which blocks are allocated and written, and
none is freed, together with the blocks of one class that were handed out.
The first bucket of the class takes all blocks that fit in it, and each
further block has a bucket of its own.  `gpa_buckets` says for which numbers
of blocks this is as few buckets as possible.
-/

namespace Libcute.Memory.GPAllocator

open Libcute.Collection.Bitmap
open Libcute.Core.Interface
open Libcute.Core.Size
open Libcute.Library
open Libcute.Library.Transition
open Libcute.Memory.BackingAllocator
open Libcute.Memory.Client
open Libcute.Memory.HostedRegions

variable {gpa after : GPA} {lists : Nat → List Nat} {nodes : List Nat}
  {bucket first : Bucket} {layout : Layout} {block : Slice}
  {idx other size objSize slot count : Nat} {live : List Slice}

/-! ## What an allocation does -/

/-- A new bucket is created, or nothing but the backing allocator changes. -/
theorem allocFresh_cases
    (ok : Ok gpa lists nodes) (small : idx < numSmallBuckets)
    (sized : objSize = 2 ^ idx) (fits : objSize ≤ gpa.bucketSize) :
    (∃ error backing, allocFresh gpa size objSize idx =
      (.error error, { gpa with backing })) ∨
    ∃ backing bucket slot,
      bucket.objectSize = 2 ^ idx ∧ bucket.usedCount = 0 ∧
      0 < bucket.slotCount ∧ Ok { gpa with backing } lists nodes ∧
      Ok (GPA.appendBucket { gpa with backing } idx bucket)
        (Function.update lists idx (lists idx ++ [bucket.addr])) nodes ∧
      allocFresh gpa size objSize idx =
        (.ok ⟨bucket.slotAddr slot, size⟩,
          (GPA.appendBucket { gpa with backing } idx bucket).updateBucket
            bucket.addr (Bucket.take slot)) := by
  unfold allocFresh
  rcases createBucket_cases ok small sized fits with
    ⟨backing, answer, _⟩ |
    ⟨bucket, backing, answer, bucketOk, sizes, empty, hosted, _⟩
  · left
    rw [answer]
    exact ⟨_, backing, rfl⟩
  · right
    have okMid : Ok { gpa with backing } lists nodes :=
      ok.withBacking hosted.tail.tail
    have room : bucket.usedCount ≠ bucket.slotCount := by
      rw [empty]
      exact bucketOk.positive.ne
    refine ⟨backing, bucket, firstClear bucket.used bucket.slotCount 0,
      sizes.trans sized, empty, bucketOk.positive, okMid,
      okMid.append bucketOk small (sizes.trans sized) hosted, ?_⟩
    rw [answer]
    exact if_neg (bucketOk.scan room).1.ne

/--
A small request takes a slot of the first bucket, or of a new bucket when
the first one is full or missing, or it fails.
-/
theorem allocSmall_cases
    (ok : Ok gpa lists nodes) (small : idx < numSmallBuckets)
    (sized : objSize = 2 ^ idx) (fits : objSize ≤ gpa.bucketSize) :
    (∃ error backing, allocSmall gpa size objSize idx =
      (.error error, { gpa with backing })) ∨
    (∃ first ∈ gpa.buckets, ∃ slot,
      gpa.bucketAt (gpa.smallBuckets idx) = some first ∧
      first.objectSize = 2 ^ idx ∧ first.usedCount < first.slotCount ∧
      allocSmall gpa size objSize idx =
        (.ok ⟨first.slotAddr slot, size⟩,
          gpa.updateBucket first.addr (Bucket.take slot))) ∨
    ∃ backing bucket slot,
      (∀ first, gpa.bucketAt (gpa.smallBuckets idx) = some first →
        first.usedCount = first.slotCount) ∧
      bucket.objectSize = 2 ^ idx ∧ bucket.usedCount = 0 ∧
      0 < bucket.slotCount ∧ Ok { gpa with backing } lists nodes ∧
      Ok (GPA.appendBucket { gpa with backing } idx bucket)
        (Function.update lists idx (lists idx ++ [bucket.addr])) nodes ∧
      allocSmall gpa size objSize idx =
        (.ok ⟨bucket.slotAddr slot, size⟩,
          (GPA.appendBucket { gpa with backing } idx bucket).updateBucket
            bucket.addr (Bucket.take slot)) := by
  have fresh := @allocFresh_cases gpa lists nodes idx size objSize
    ok small sized fits
  unfold allocSmall
  cases found : gpa.bucketAt (gpa.smallBuckets idx) with
  | none =>
      dsimp only
      rcases fresh with failed | ⟨backing, bucket, slot, made⟩
      · exact Or.inl failed
      · exact Or.inr (Or.inr ⟨backing, bucket, slot, nofun, made⟩)
  | some first =>
      dsimp only
      by_cases full : first.usedCount = first.slotCount
      · rw [if_pos full]
        rcases fresh with failed | ⟨backing, bucket, slot, made⟩
        · exact Or.inl failed
        · refine Or.inr (Or.inr ⟨backing, bucket, slot, ?_, made⟩)
          rintro other ⟨rfl⟩
          exact full
      · rw [if_neg full]
        have member := KeyedList.mem_of_find found
        have bucketOk := ok.each first member.1
        have below : first.usedCount < first.slotCount := by
          apply lt_of_le_of_ne _ full
          rw [bucketOk.usedCount]
          exact bucketOk.card_le
        have nonempty : lists idx ≠ [] := by
          intro none
          have head : gpa.smallBuckets idx = 0 := by
            have spells := (ok.linked.spells idx small).head
            rw [none] at spells
            exact spells
          exact ok.addr_ne_zero member.1 (member.2.trans head)
        rcases bucketAt_head ok small nonempty with
          ⟨same, again, _, _, sizes⟩
        rw [found] at again
        cases again
        refine Or.inr (Or.inl ⟨first, member.1,
          firstClear first.used first.slotCount 0, rfl, sizes, below, ?_⟩)
        exact if_neg (bucketOk.scan full).1.ne

/-! ## Counting buckets -/

/-- The buckets of the class that have a slot in use. -/
def occupied (gpa : GPA) (idx : Nat) : Nat :=
  gpa.buckets.countP fun bucket =>
    bucket.objectSize = 2 ^ idx ∧ bucket.usedCount ≠ 0

/-- What the count reads of a bucket. -/
def Bucket.gauge (bucket : Bucket) : Nat × Nat × Nat × Nat :=
  (bucket.addr, bucket.objectSize, bucket.slotCount, bucket.usedCount)

/-- Whether a bucket counts, as a number. -/
def Bucket.weight (idx : Nat) (bucket : Bucket) : Nat :=
  if bucket.objectSize = 2 ^ idx ∧ bucket.usedCount ≠ 0 then 1 else 0

theorem countP_gauge (buckets : List Bucket) (idx : Nat) :
    (buckets.countP fun bucket =>
      bucket.objectSize = 2 ^ idx ∧ bucket.usedCount ≠ 0) =
    (buckets.map Bucket.gauge).countP fun gauge =>
      gauge.2.1 = 2 ^ idx ∧ gauge.2.2.2 ≠ 0 := by
  rw [List.countP_map]
  rfl

/-- Changing one bucket changes the count by that bucket. -/
theorem occupied_update {change : Bucket → Bucket}
    (unique : KeyedList.Unique Bucket.addr gpa.buckets)
    (member : bucket ∈ gpa.buckets) (idx : Nat) :
    occupied (gpa.updateBucket bucket.addr change) idx +
        bucket.weight idx =
      occupied gpa idx + (change bucket).weight idx := by
  have before := KeyedList.perm_cons_erase
    (KeyedList.find_of_mem unique member)
  have later := KeyedList.perm_update change unique member
  unfold occupied GPA.updateBucket
  rw [later.countP_eq, before.countP_eq, List.countP_cons,
    List.countP_cons]
  unfold Bucket.weight
  simp only [decide_eq_true_eq]
  omega

/-- A new bucket counts as soon as one of its slots is taken. -/
theorem occupied_append (gpa : GPA) (other : Nat) (bucket : Bucket)
    (idx : Nat) :
    occupied (gpa.appendBucket other bucket) idx =
      occupied gpa idx + bucket.weight idx := by
  unfold occupied
  rw [countP_gauge, appendBucket_map Bucket.gauge fun _ _ _ => rfl,
    ← List.map_cons, ← countP_gauge, List.countP_cons]
  unfold Bucket.weight
  simp only [decide_eq_true_eq]

/-- The head of a list changes when its first bucket is appended. -/
theorem appendBucket_head (other : Nat) :
    (gpa.appendBucket idx bucket).smallBuckets other =
      if other = idx ∧ gpa.smallBucketTails idx = 0 then bucket.addr
      else gpa.smallBuckets other := by
  unfold GPA.appendBucket
  by_cases empty : gpa.smallBucketTails idx = 0
  · simp only [empty, if_true, and_true, Function.update_apply]
  · simp only [empty, if_false, GPA.updateBucket, and_false]

/-! ## The level of a class -/

/--
What `count` allocations leave behind: the first bucket holds the blocks that
fit in it, and each of the others has a bucket of its own.
-/
inductive Level (gpa : GPA) (idx : Nat) : Nat → Prop where
  | none
      (absent : ∀ bucket ∈ gpa.buckets, bucket.objectSize ≠ 2 ^ idx) :
      Level gpa idx 0
  | first {count slots : Nat} (positive : 0 < slots)
      (head : (gpa.smallBuckets idx, 2 ^ idx, slots, min count slots) ∈
        gpa.buckets.map Bucket.gauge)
      (counted : occupied gpa idx =
        if count = 0 then 0 else 1 + (count - slots)) :
      Level gpa idx count

/-- A bucket that is not changed is still there. -/
theorem gauge_mem_update {gauge : Nat × Nat × Nat × Nat} {addr : Nat}
    {change : Bucket → Bucket}
    (member : gauge ∈ gpa.buckets.map Bucket.gauge)
    (elsewhere : gauge.1 ≠ addr) :
    gauge ∈ (gpa.updateBucket addr change).buckets.map Bucket.gauge := by
  rcases List.mem_map.mp member with ⟨bucket, bucketMember, rfl⟩
  apply List.mem_map_of_mem
  exact KeyedList.mem_update.mpr ⟨bucket, bucketMember, if_neg elsewhere⟩

/-- A changed bucket is there with its changes. -/
theorem gauge_update {change : Bucket → Bucket}
    (member : bucket ∈ gpa.buckets) :
    (change bucket).gauge ∈ (gpa.updateBucket bucket.addr change).buckets.map
      Bucket.gauge :=
  List.mem_map_of_mem
    (KeyedList.mem_update.mpr ⟨bucket, member, if_pos rfl⟩)

/-- Two buckets at one address have the same fields. -/
theorem gauge_eq {slots used : Nat}
    (unique : KeyedList.Unique Bucket.addr gpa.buckets)
    (member : bucket ∈ gpa.buckets)
    (gauge : (bucket.addr, size, slots, used) ∈
      gpa.buckets.map Bucket.gauge) :
    bucket.objectSize = size ∧ bucket.slotCount = slots ∧
      bucket.usedCount = used := by
  rcases List.mem_map.mp gauge with ⟨source, sourceMember, same⟩
  simp only [Bucket.gauge, Prod.mk.injEq] at same
  rw [unique.eq_of_key member sourceMember same.1.symm]
  exact same.2

theorem Bucket.take_usedCount (slot : Nat)
    (room : bucket.usedCount + 1 < sizeLimit) :
    (bucket.take slot).usedCount = bucket.usedCount + 1 :=
  sizeAdd_eq room

theorem Bucket.weight_of_ne (different : bucket.objectSize ≠ 2 ^ idx) :
    bucket.weight idx = 0 :=
  if_neg fun both => different both.1

theorem pow_ne (different : other ≠ idx) : 2 ^ other ≠ 2 ^ idx :=
  fun same => different (Nat.pow_right_injective (Nat.le_refl 2) same)

namespace Level

theorem congr (level : Level gpa idx count)
    (buckets : after.buckets = gpa.buckets)
    (heads : after.smallBuckets = gpa.smallBuckets) :
    Level after idx count := by
  cases level with
  | none absent => exact none (buckets ▸ absent)
  | first positive head counted =>
      refine first positive ?_ ?_
      · rw [buckets, heads]
        exact head
      · unfold occupied at counted ⊢
        rw [buckets]
        exact counted

/-- Taking a slot in another class. -/
theorem take_other (level : Level gpa idx count)
    (unique : KeyedList.Unique Bucket.addr gpa.buckets)
    (member : bucket ∈ gpa.buckets)
    (size : bucket.objectSize = 2 ^ other) (different : other ≠ idx) :
    Level (gpa.updateBucket bucket.addr (Bucket.take slot)) idx count := by
  have sizes : bucket.objectSize ≠ 2 ^ idx := by
    rw [size]
    exact pow_ne different
  have same := @occupied_update gpa bucket (Bucket.take slot) unique
    member idx
  have later : ((bucket.take slot).weight idx) = 0 :=
    Bucket.weight_of_ne sizes
  rw [Bucket.weight_of_ne sizes, later] at same
  cases level with
  | none absent =>
      apply none
      exact forall_of_map_eq (KeyedList.map_update
        (fun bucket : Bucket => bucket.objectSize ≠ 2 ^ idx)
        fun _ => rfl) absent
  | first positive head counted =>
      refine first positive (gauge_mem_update head ?_) (same.trans counted)
      intro here
      have same : gpa.smallBuckets idx = bucket.addr := here
      rw [same] at head
      exact sizes (gauge_eq unique member head).1

/-- Appending a bucket to another class. -/
theorem append_other (level : Level gpa idx count)
    (size : bucket.objectSize = 2 ^ other) (different : other ≠ idx) :
    Level (gpa.appendBucket other bucket) idx count := by
  have sizes : bucket.objectSize ≠ 2 ^ idx := by
    rw [size]
    exact pow_ne different
  have same := occupied_append gpa other bucket idx
  rw [Bucket.weight_of_ne sizes] at same
  cases level with
  | none absent =>
      apply none
      have every : ∀ item ∈ bucket :: gpa.buckets,
          item.objectSize ≠ 2 ^ idx :=
        List.forall_mem_cons.mpr ⟨sizes, absent⟩
      exact forall_of_map_eq (appendBucket_map
        (fun bucket : Bucket => bucket.objectSize ≠ 2 ^ idx)
        fun _ _ _ => rfl) every
  | first positive head counted =>
      refine first positive ?_ (same.trans counted)
      rw [appendBucket_head, if_neg fun both => different both.1.symm,
        appendBucket_map Bucket.gauge fun _ _ _ => rfl]
      exact List.mem_cons_of_mem _ head

/-- The first bucket of the class has a free slot. -/
theorem take (level : Level gpa idx count) (ok : Ok gpa lists nodes)
    (member : bucket ∈ gpa.buckets)
    (head : bucket.addr = gpa.smallBuckets idx)
    (size : bucket.objectSize = 2 ^ idx)
    (room : bucket.usedCount < bucket.slotCount) :
    Level (gpa.updateBucket bucket.addr (Bucket.take slot)) idx
      (count + 1) := by
  have changed := @occupied_update gpa bucket (Bucket.take slot) ok.unique
    member idx
  have used : (bucket.take slot).usedCount = bucket.usedCount + 1 :=
    Bucket.take_usedCount slot
      (Nat.lt_of_le_of_lt room (ok.slotCount_lt member))
  have taken : (bucket.take slot).weight idx = 1 :=
    if_pos ⟨size, by omega⟩
  cases level with
  | none absent => exact (absent bucket member size).elim
  | @first _ slots positive gauge counted =>
      rw [← head] at gauge
      rcases gauge_eq ok.unique member gauge with ⟨_, sameSlots, sameUsed⟩
      have fewer : count < slots := by omega
      have present := @gauge_update gpa bucket (Bucket.take slot) member
      have now : (bucket.take slot).gauge =
          (gpa.smallBuckets idx, 2 ^ idx, slots, min (count + 1) slots) := by
        have least : bucket.usedCount + 1 = min (count + 1) slots := by
          omega
        unfold Bucket.gauge
        rw [used, least, ← sameSlots, ← head, ← size]
        rfl
      rw [now] at present
      refine first positive present ?_
      rw [taken] at changed
      rw [if_neg (Nat.succ_ne_zero count)]
      by_cases empty : count = 0
      · have weightless : bucket.weight idx = 0 :=
          if_neg fun both => both.2 (by omega)
        rw [if_pos empty] at counted
        omega
      · have weighs : bucket.weight idx = 1 := if_pos ⟨size, by omega⟩
        rw [if_neg empty] at counted
        omega

/-- A new bucket behind the first one, or as the first one. -/
theorem append (level : Level gpa idx count) (ok : Ok gpa lists nodes)
    (small : idx < numSmallBuckets)
    (full : ∀ first, gpa.bucketAt (gpa.smallBuckets idx) = some first →
      first.usedCount = first.slotCount)
    (size : bucket.objectSize = 2 ^ idx) (vacant : bucket.usedCount = 0)
    (positive : 0 < bucket.slotCount)
    (unique : KeyedList.Unique Bucket.addr
      (gpa.appendBucket idx bucket).buckets) :
    Level ((gpa.appendBucket idx bucket).updateBucket bucket.addr
      (Bucket.take slot)) idx (count + 1) := by
  generalize stored : ({ bucket with
    prev := gpa.smallBucketTails idx, next := 0 } : Bucket) = new
  have member : new ∈ (gpa.appendBucket idx bucket).buckets := by
    rw [← stored]
    exact List.mem_cons_self
  have addr : new.addr = bucket.addr := by rw [← stored]
  have sizes : new.objectSize = 2 ^ idx := by rw [← stored, size]
  have slots : new.slotCount = bucket.slotCount := by rw [← stored]
  have unused : new.usedCount = 0 := by rw [← stored, vacant]
  have used : (new.take slot).usedCount = 1 := by
    rw [Bucket.take_usedCount slot (by rw [unused]; decide), unused]
  have appended := occupied_append gpa idx bucket idx
  have weightless : bucket.weight idx = 0 := if_neg fun both => both.2 vacant
  have changed := @occupied_update _ new (Bucket.take slot) unique member idx
  have before : new.weight idx = 0 := if_neg fun both => both.2 unused
  have taken : (new.take slot).weight idx = 1 :=
    if_pos ⟨sizes, by omega⟩
  rw [before, taken, appended, weightless] at changed
  rw [← addr]
  have linked := ok.linked.listed idx small
  cases level with
  | none absent =>
      have empty : lists idx = [] := by
        apply List.eq_nil_iff_forall_not_mem.mpr
        intro node inList
        rcases List.mem_map.mp ((linked node).mp inList) with
          ⟨source, sourceMember, same⟩
        simp only [Bucket.sized, Prod.mk.injEq] at same
        exact absent source sourceMember same.2
      have present := @gauge_update _ new (Bucket.take slot) member
      have start : ((gpa.appendBucket idx bucket).updateBucket new.addr
          (Bucket.take slot)).smallBuckets idx = new.addr := by
        rw [addr]
        change (gpa.appendBucket idx bucket).smallBuckets idx = _
        rw [appendBucket_head]
        exact if_pos ⟨rfl,
          (ok.linked.spells idx small).tail_eq_null_iff.mpr empty⟩
      have now : (new.take slot).gauge = (((gpa.appendBucket idx
          bucket).updateBucket new.addr (Bucket.take slot)).smallBuckets
            idx, 2 ^ idx, bucket.slotCount,
              min (0 + 1) bucket.slotCount) := by
        have least : 1 = min (0 + 1) bucket.slotCount := by omega
        rw [start, ← least, ← sizes, ← slots]
        unfold Bucket.gauge
        rw [used]
        rfl
      rw [now] at present
      refine first positive present ?_
      have nothing : occupied gpa idx = 0 := by
        apply List.countP_eq_zero.mpr
        intro item itemMember
        simp [absent item itemMember]
      rw [if_neg (Nat.succ_ne_zero 0)]
      omega
  | @first _ slots positiveFirst gauge counted =>
      rcases List.mem_map.mp gauge with ⟨old, oldMember, same⟩
      simp only [Bucket.gauge, Prod.mk.injEq] at same
      rcases same with ⟨sameAddr, sameSize, sameSlots, sameUsed⟩
      have found := KeyedList.find_of_mem ok.unique oldMember
      rw [sameAddr] at found
      have filled := full old found
      have enough : slots ≤ count := by omega
      have inList : old.addr ∈ lists idx :=
        ok.linked.mem_of_bucket oldMember small sameSize
      have nonnull : gpa.smallBucketTails idx ≠ 0 := by
        intro none
        have empty :=
          (ok.linked.spells idx small).tail_eq_null_iff.mp none
        rw [empty] at inList
        cases inList
      have heads : (gpa.appendBucket idx bucket).smallBuckets idx =
          gpa.smallBuckets idx := by
        rw [appendBucket_head]
        exact if_neg fun both => nonnull both.2
      have kept : (gpa.smallBuckets idx, 2 ^ idx, slots, min count slots) ∈
          (gpa.appendBucket idx bucket).buckets.map Bucket.gauge := by
        rw [appendBucket_map Bucket.gauge fun _ _ _ => rfl]
        exact List.mem_cons_of_mem _ gauge
      have elsewhere : gpa.smallBuckets idx ≠ new.addr := by
        intro here
        rw [here] at kept
        have clash := (gauge_eq unique member kept).2.2
        omega
      have least : min count slots = min (count + 1) slots := by omega
      refine first positiveFirst ?_ ?_
      · change ((gpa.appendBucket idx bucket).smallBuckets idx, _, _, _) ∈ _
        rw [heads, ← least]
        exact gauge_mem_update kept elsewhere
      · rw [if_neg (Nat.succ_ne_zero count)]
        rw [if_neg (by omega)] at counted
        omega

/-- One request, of this class or of another. -/
theorem gpaAlloc (level : Level gpa idx count) (ok : Ok gpa lists nodes)
    (bounded : Bounded layout) :
    (∃ error after, gpaAlloc gpa layout = (.error error, after) ∧
      Level after idx count) ∨
    ∃ block after, gpaAlloc gpa layout = (.ok block, after) ∧
      ((gpa.classOf layout ≠ some idx ∧ Level after idx count) ∨
        gpa.classOf layout = some idx ∧ block.ptr ≠ 0 ∧
          Level after idx (count + 1)) := by
  cases found : gpa.classOf layout with
  | none =>
      have kept : ∀ size alignment, Level
          (allocLarge gpa size alignment).2 idx count := by
        intro size alignment
        unfold allocLarge
        split
        · exact level.congr rfl rfl
        · split
          · exact level.congr rfl rfl
          · rename_i mem _ _ _ metaMem backing _
            have frame := pushLarge_frame { gpa with backing }
              metaMem.ptr mem
            exact level.congr frame.1 frame.2.1
      rcases gpaAlloc_of_none found with answer | answer
      · exact Or.inl ⟨_, _, answer, level⟩
      · have later := kept layout.elemSize (requestAlign layout)
        rcases passed : allocLarge gpa layout.elemSize
          (requestAlign layout) with ⟨error | block, after⟩
        all_goals
          rw [passed] at answer later
        · exact Or.inl ⟨error, after, answer, later⟩
        · exact Or.inr ⟨block, after, answer, Or.inl ⟨nofun, later⟩⟩
  | some cls =>
      rcases gpaAlloc_of_class found with ⟨_, fits, served⟩
      rcases objSizeFor_of_class bounded found with ⟨small, sized, _⟩
      have nonnull : ∀ (bucket : Bucket) slot, bucket.slotAddr slot ≠ 0 := by
        intro bucket slot
        unfold Bucket.slotAddr bucketData bucketHeaderSize
        omega
      rw [served]
      rcases @allocSmall_cases gpa lists nodes cls layout.elemSize _ ok small
          sized fits with
        ⟨error, backing, answer⟩ |
        ⟨head, member, slot, atHead, size, room, answer⟩ |
        ⟨backing, bucket, slot, full, size, vacant, positive, okMid, made,
          answer⟩
      · exact Or.inl ⟨error, _, answer, level.congr rfl rfl⟩
      · refine Or.inr ⟨_, _, answer, ?_⟩
        by_cases here : cls = idx
        · subst here
          exact Or.inr ⟨rfl, nonnull _ _, level.take ok member
            (KeyedList.mem_of_find atHead).2 size room⟩
        · exact Or.inl ⟨fun same => here (Option.some.inj same),
            level.take_other ok.unique member size here⟩
      · refine Or.inr ⟨_, _, answer, ?_⟩
        have levelMid : Level { gpa with backing } idx count :=
          level.congr rfl rfl
        by_cases here : cls = idx
        · subst here
          exact Or.inr ⟨rfl, nonnull _ _, levelMid.append okMid small full
            size vacant positive made.unique⟩
        · refine Or.inl ⟨fun same => here (Option.some.inj same), ?_⟩
          have stored : { bucket with
              prev := gpa.smallBucketTails cls, next := 0 } ∈
              (GPA.appendBucket { gpa with backing } cls bucket).buckets :=
            List.mem_cons_self
          have levelNew := levelMid.append_other size here
          have taken := @take_other _ _ _ _ slot _ levelNew made.unique
            stored size here
          exact taken

/-- A class without live blocks. -/
theorem start (ok : Ok gpa lists nodes) (small : idx < numSmallBuckets)
    (vacant : occupied gpa idx = 0) : Level gpa idx 0 := by
  cases found : gpa.bucketAt (gpa.smallBuckets idx) with
  | none => exact none (ok.none_of_head small found).2
  | some bucket =>
      rcases KeyedList.mem_of_find found with ⟨member, head⟩
      have size : bucket.objectSize = 2 ^ idx := by
        by_cases empty : lists idx = []
        · have start := (ok.linked.spells idx small).head_eq_null_iff.mpr
            empty
          exact (ok.addr_ne_zero member (head.trans start)).elim
        · rcases bucketAt_head ok small empty with
            ⟨same, again, _, _, sizes⟩
          rw [found] at again
          cases again
          exact sizes
      have unused : bucket.usedCount = 0 := by
        have uncounted := List.countP_eq_zero.mp vacant bucket member
        simp only [size, true_and, ne_eq, decide_not, Bool.not_eq_true',
          decide_eq_false_iff_not, not_not] at uncounted
        exact uncounted
      refine first (ok.each bucket member).positive ?_ vacant
      rw [← head, ← size, Nat.zero_min, ← unused]
      exact List.mem_map_of_mem member

theorem occupied_eq (level : Level gpa idx count) (uniform : Uniform gpa) :
    occupied gpa idx = if count = 0 then 0
      else 1 + (count - gpa.calcSlotCount (2 ^ idx)) := by
  cases level with
  | none absent =>
      apply List.countP_eq_zero.mpr
      intro bucket member
      simp [absent bucket member]
  | first positive head counted =>
      rcases List.mem_map.mp head with ⟨bucket, member, same⟩
      simp only [Bucket.gauge, Prod.mk.injEq] at same
      rw [counted, ← same.2.2.1, uniform bucket member, same.2.1]

end Level

/-- As few buckets as possible are in use. -/
theorem fewest_iff {slots : Nat} (count : Nat) (positive : 0 < slots) :
    (if count = 0 then 0 else 1 + (count - slots)) =
        (count + (slots - 1)) / slots ↔
      count ≤ slots + 1 ∨ slots = 1 := by
  by_cases one : slots = 1
  · subst one
    rw [Nat.div_one]
    refine iff_of_true ?_ (Or.inr rfl)
    split_ifs <;> omega
  · by_cases few : count ≤ slots
    · refine iff_of_true ?_ (Or.inl (Nat.le_succ_of_le few))
      by_cases none : count = 0
      · rw [if_pos none]
        exact (Nat.div_eq_of_lt (by omega)).symm
      · rw [if_neg none, Nat.sub_eq_zero_of_le few]
        exact (Nat.div_eq_of_lt_le (by omega) (by omega)).symm
    · rw [if_neg (by omega)]
      by_cases next : count = slots + 1
      · refine iff_of_true ?_ (Or.inl next.le)
        have two : 1 + (count - slots) = 2 := by omega
        rw [two]
        exact (Nat.div_eq_of_lt_le (by omega) (by omega)).symm
      · refine iff_of_false ?_ (by omega)
        apply Nat.ne_of_gt
        rw [Nat.div_lt_iff_lt_mul positive]
        rcases Nat.exists_eq_add_of_le (by omega : slots + 2 ≤ count) with
          ⟨more, rfl⟩
        have left : 1 + (slots + 2 + more - slots) = 3 + more := by omega
        have least : more * 2 ≤ more * slots :=
          Nat.mul_le_mul_left _ (by omega)
        rw [left, Nat.add_mul]
        omega

/-! ## Runs -/

/-- The call allocates or writes. -/
def Adds : Call → Prop
  | .alloc _ => True
  | .write _ _ => True
  | _ => False

/-- The block of the class that a call hands out. -/
def handedOut (gpa : GPA) (idx : Nat) : Call → List Slice
  | .alloc layout =>
      match gpaAlloc gpa layout with
      | (.ok block, _) =>
          if gpa.classOf layout = some idx then [block] else []
      | (.error _, _) => []
  | _ => []

/--
The worlds that are reached without a free, each with the blocks of the class
that were handed out on the way.
-/
inductive Filling (idx : Nat) (start : World GPA) :
    List Slice → World GPA → Prop where
  | start : Filling idx start [] start
  | step {blocks : List Slice} {world : World GPA} {call : Call}
      (earlier : Filling idx start blocks world)
      (allowed : Permitted world call) (adds : Adds call) :
      Filling idx start (handedOut world.state idx call ++ blocks)
        (gpaAllocator.step world call)

/-- What holds of a world that was filled with blocks of a class. -/
structure Filled (idx : Nat) (blocks : List Slice) (world : World GPA) :
    Prop where
  invariant : Invariant world
  uniform : Uniform world.state
  level : Level world.state idx blocks.length
  live : blocks.Sublist world.live

/-- One allocation or write fills the world further. -/
theorem Filled.step {blocks : List Slice} {world : World GPA} {call : Call}
    (filled : Filled idx blocks world) (allowed : Permitted world call)
    (adds : Adds call) :
    Filled idx (handedOut world.state idx call ++ blocks)
      (gpaAllocator.step world call) := by
  have invariant := (step_safe filled.invariant allowed).1.invariant
  have uniform := filled.uniform.step call
  rcases filled.invariant.sound with ⟨lists, nodes, ok, _⟩
  cases call with
  | alloc layout =>
      rcases filled.level.gpaAlloc ok allowed with
        ⟨error, after, answer, level⟩ |
        ⟨block, after, answer,
          ⟨other, level⟩ | ⟨served, nonnull, level⟩⟩
      · have stepped : gpaAllocator.step world (.alloc layout) =
            ⟨after, world.live⟩ := by
          change world.receive none (gpaAlloc world.state layout) = _
          rw [answer]
          rfl
        have hands : handedOut world.state idx (.alloc layout) = [] := by
          unfold handedOut
          dsimp only
          rw [answer]
        rw [stepped] at invariant uniform ⊢
        rw [hands]
        exact ⟨invariant, uniform, level, filled.live⟩
      · have stepped : gpaAllocator.step world (.alloc layout) =
            ⟨after, hold block world.live⟩ := by
          change world.receive none (gpaAlloc world.state layout) = _
          rw [answer]
          rfl
        have hands : handedOut world.state idx (.alloc layout) = [] := by
          unfold handedOut
          dsimp only
          rw [answer]
          exact if_neg other
        rw [stepped] at invariant uniform ⊢
        rw [hands]
        refine ⟨invariant, uniform, level, filled.live.trans ?_⟩
        unfold hold
        split_ifs
        · exact List.Sublist.refl _
        · exact List.sublist_cons_self _ _
      · have stepped : gpaAllocator.step world (.alloc layout) =
            ⟨after, block :: world.live⟩ := by
          change world.receive none (gpaAlloc world.state layout) = _
          rw [answer]
          exact World.receive_ok _ _ _ _ nonnull
        have hands : handedOut world.state idx (.alloc layout) =
            [block] := by
          unfold handedOut
          dsimp only
          rw [answer]
          exact if_pos served
        rw [stepped] at invariant uniform ⊢
        rw [hands]
        exact ⟨invariant, uniform, level, filled.live.cons_cons block⟩
  | write block content =>
      exact ⟨invariant, uniform, filled.level.congr rfl rfl, filled.live⟩
  | grow old layout => exact adds.elim
  | shrink old layout => exact adds.elim
  | free mem => exact adds.elim

/-- Filling a world that is reached, from a class without live blocks. -/
theorem Filling.filled {start world : World GPA} {blocks : List Slice}
    (invariant : Invariant start) (uniform : Uniform start.state)
    (small : idx < numSmallBuckets)
    (vacant : occupied start.state idx = 0)
    (filling : Filling idx start blocks world) :
    Filled idx blocks world := by
  induction filling with
  | start =>
      rcases invariant.sound with ⟨lists, nodes, ok, _⟩
      exact ⟨invariant, uniform, Level.start ok small vacant,
        List.nil_sublist _⟩
  | step _ allowed adds hypothesis => exact hypothesis.step allowed adds

/-- A request that is served asks for a bucket exactly if it makes one. -/
theorem opens_iff_longer {after : GPA}
    (ok : Ok gpa lists nodes) (bounded : Bounded layout)
    (served : gpa.classOf layout = some idx)
    (answer : GPAllocator.gpaAlloc gpa layout = (.ok block, after)) :
    Opens gpa layout ↔
      after.buckets.length = gpa.buckets.length + 1 := by
  rcases gpaAlloc_of_class served with ⟨_, fits, calls⟩
  rcases objSizeFor_of_class bounded served with ⟨small, sized, _⟩
  rw [opens_iff served]
  rcases @allocSmall_cases gpa lists nodes idx layout.elemSize _ ok small
      sized fits with
    ⟨error, backing, result⟩ |
    ⟨first, member, slot, found, size, room, result⟩ |
    ⟨backing, bucket, slot, full, _, _, _, _, _, result⟩
  · rw [calls, result] at answer
    cases answer
  · rw [calls, result] at answer
    cases answer
    have same : (gpa.updateBucket first.addr
        (Bucket.take slot)).buckets.length = gpa.buckets.length :=
      List.length_map _
    rw [same]
    refine iff_of_false ?_ (Nat.ne_of_lt (Nat.lt_succ_self _))
    intro every
    exact Nat.ne_of_lt room (every first found)
  · rw [calls, result] at answer
    cases answer
    have longer := congrArg List.length (@appendBucket_map
      { gpa with backing } bucket idx Unit (fun _ => ()) fun _ _ _ => rfl)
    rw [List.length_map, List.length_cons, List.length_map] at longer
    refine iff_of_true full ?_
    unfold GPA.updateBucket KeyedList.update
    rw [List.length_map]
    exact longer

/--
The main result, for every reached world.  A small request asks for a new
bucket only if all buckets of its class are full, if and only if the first
bucket of the class decides this.  And when the class has no live block,
`n` blocks of it that are allocated without a free in between occupy one
bucket and one more for each block beyond the slots of the first; these are
`n / slots` buckets, rounded up, if and only if there is at most one such
block or a bucket has one slot.
-/
theorem gpa_buckets (backing : Backing) (bucketSize : Nat)
    (bounded : bucketSize ≤ requestLimit)
    (world : World GPA) (reached : Reached backing bucketSize world) :
    (∀ layout idx, Bounded layout →
      world.state.classOf layout = some idx →
        ((Opens world.state layout → AllFull world.state idx) ↔
          FirstDecides world.state idx) ∧
        ∀ block after,
          gpaAlloc world.state layout = (.ok block, after) →
            (Opens world.state layout ↔
              after.buckets.length = world.state.buckets.length + 1)) ∧
    ∀ idx < numSmallBuckets, occupied world.state idx = 0 →
      ∀ blocks later, Filling idx world blocks later →
        let slots := later.state.calcSlotCount (2 ^ idx)
        let n := blocks.length
        blocks.Sublist later.live ∧
          (occupied later.state idx =
            if n = 0 then 0 else 1 + (n - slots)) ∧
          (occupied later.state idx = (n + (slots - 1)) / slots ↔
            n ≤ slots + 1 ∨ slots = 1) := by
  have initially : ∀ start, start = gpaCreate backing bucketSize →
      Invariant start ∧ Uniform start.state := by
    rintro start rfl
    exact ⟨create_invariant backing bounded, nofun⟩
  have holds : Invariant world ∧ Uniform world.state :=
    reached.invariant (fun world => Invariant world ∧ Uniform world.state)
      initially fun _ call holds permitted =>
        ⟨(step_safe holds.1 permitted).1.invariant, holds.2.step call⟩
  rcases holds with ⟨invariant, uniform⟩
  rcases invariant.sound with ⟨lists, nodes, ok, _⟩
  constructor
  · intro layout idx allowed served
    have small := (objSizeFor_of_class allowed served).1
    exact ⟨opens_full_iff ok small served,
      fun block after answer => opens_iff_longer ok allowed served answer⟩
  · intro idx small vacant blocks later filling
    have filled := filling.filled invariant uniform small vacant
    have count := filled.level.occupied_eq filled.uniform
    refine ⟨filled.live, count, ?_⟩
    rw [count]
    exact fewest_iff _ (calcSlotCount_pos _ _)

/-- A backing allocator with room for three buckets of two slots. -/
def threeBuckets : Backing :=
  ⟨[], fun _ => 0,
    [.ok ⟨4096, 128, fun _ => 0⟩, .ok ⟨8192, 8, fun _ => 0⟩,
      .ok ⟨12288, 128, fun _ => 0⟩, .ok ⟨16384, 8, fun _ => 0⟩,
      .ok ⟨20480, 128, fun _ => 0⟩, .ok ⟨24576, 8, fun _ => 0⟩], []⟩

/-- Allocate eight bytes so many times, from buckets of two slots. -/
def eights : Nat → World GPA
  | 0 => gpaCreate threeBuckets 16
  | count + 1 => gpaAllocator.step (eights count) (.alloc ⟨8, 8⟩)

theorem eights_reached (count : Nat) :
    Reached threeBuckets 16 (eights count) := by
  induction count with
  | zero => exact Reachable.start rfl
  | succ count hypothesis =>
      exact Reachable.step hypothesis ⟨by decide, by decide⟩

/-- The blocks of the run. -/
def eightBlocks : Nat → List Slice
  | 0 => []
  | count + 1 =>
      handedOut (eights count).state 3 (.alloc ⟨8, 8⟩) ++ eightBlocks count

theorem eights_filling (count : Nat) :
    Filling 3 (eights 0) (eightBlocks count) (eights count) := by
  induction count with
  | zero => exact Filling.start
  | succ count hypothesis =>
      exact Filling.step hypothesis ⟨by decide, by decide⟩ trivial

/-- Three blocks are in two buckets. -/
theorem gpa_buckets_eights : occupied (eights 3).state 3 = 2 := by
  have bound : (16 : Nat) ≤ requestLimit := by decide
  have counted := (gpa_buckets threeBuckets 16 bound (eights 0)
    (eights_reached 0)).2 3 (by decide) (by decide) _ _ (eights_filling 3)
  have three : (eightBlocks 3).length = 3 := by decide +kernel
  have two : (eights 3).state.calcSlotCount (2 ^ 3) = 2 := by
    decide +kernel
  rw [counted.2.1, two, three]
  rfl

/--
After three blocks the second bucket has a free slot, and the fourth block
gets a third bucket nevertheless.
-/
theorem not_allFull_eights :
    Reached threeBuckets 16 (eights 3) ∧
      (eights 3).state.classOf ⟨8, 8⟩ = some 3 ∧
      Opens (eights 3).state ⟨8, 8⟩ ∧ ¬ AllFull (eights 3).state 3 ∧
      Filling 3 (eights 0) (eightBlocks 4) (eights 4) ∧
      (eightBlocks 4).length = 4 ∧
      (eights 4).state.calcSlotCount (2 ^ 3) = 2 ∧
      occupied (eights 4).state 3 = 3 ∧ 3 ≠ (4 + (2 - 1)) / 2 := by
  refine ⟨eights_reached 3, by decide +kernel, ?_, ?_, eights_filling 4,
    by decide +kernel, by decide +kernel, by decide +kernel, by decide⟩
  · unfold Opens
    decide +kernel
  · unfold AllFull
    decide +kernel

end Libcute.Memory.GPAllocator
