import Libcute.Memory.GPAllocator

/-!
# The lists of the general purpose allocator

The links that the bucket headers and the records store form a `Chain` for
every object size and one for the large allocations.  `BucketLists` and
`LargeList` say which nodes these chains run through: exactly the headers of
the size, and exactly the records.

Each assignment of the source to the links is one operation on the chain it
changes and leaves the other chains alone, so the lists stay well formed
when a bucket is appended or taken out and when a record is put in front or
taken out.
-/

namespace Libcute.Memory.GPAllocator

open Libcute.Core.Interface
open Libcute.Library
open Libcute.Library.LinkedList

/-- The list of the buckets of one size. -/
def GPA.chain (gpa : GPA) (idx : Nat) : Chain Nat where
  next := gpa.nextBucket
  prev := gpa.prevBucket
  head := gpa.smallBuckets idx
  tail := gpa.smallBucketTails idx

/-- The address of a bucket and the size of its slots. -/
def Bucket.sized (bucket : Bucket) : Nat × Nat :=
  (bucket.addr, bucket.objectSize)

/-- What the lists read of a bucket. -/
def Bucket.node (bucket : Bucket) : Nat × Nat × Nat × Nat :=
  (bucket.addr, bucket.prev, bucket.next, bucket.objectSize)

/-- List `idx` runs through the buckets with slots of `2 ^ idx` bytes. -/
structure BucketLists (gpa : GPA) (lists : Nat → List Nat) : Prop where
  spells : ∀ idx < numSmallBuckets,
    (gpa.chain idx).Spells 0 (lists idx)
  listed : ∀ idx < numSmallBuckets, ∀ addr,
    addr ∈ lists idx ↔ (addr, 2 ^ idx) ∈ gpa.buckets.map Bucket.sized

variable {gpa : GPA} {lists : Nat → List Nat} {bucket : Bucket}
  {idx other addr : Nat} {change : Bucket → Bucket}

theorem mem_addrs_of_sized {size : Nat}
    (member : (addr, size) ∈ gpa.buckets.map Bucket.sized) :
    addr ∈ gpa.buckets.map Bucket.addr := by
  rcases List.mem_map.mp member with ⟨bucket, bucketMember, same⟩
  simp only [Bucket.sized, Prod.mk.injEq] at same
  rw [← same.1]
  exact List.mem_map_of_mem bucketMember

/-- A bucket has one size, so the lists share no node. -/
theorem BucketLists.disjoint
    (linked : BucketLists gpa lists)
    (unique : KeyedList.Unique Bucket.addr gpa.buckets)
    (small : idx < numSmallBuckets) (otherSmall : other < numSmallBuckets)
    (member : addr ∈ lists idx) (otherMember : addr ∈ lists other) :
    idx = other := by
  have first := (linked.listed idx small addr).mp member
  have second := (linked.listed other otherSmall addr).mp otherMember
  rcases List.mem_map.mp first with ⟨left, leftMember, leftSame⟩
  rcases List.mem_map.mp second with ⟨right, rightMember, rightSame⟩
  simp only [Bucket.sized, Prod.mk.injEq] at leftSame rightSame
  have equal := unique.eq_of_key leftMember rightMember
    (leftSame.1.trans rightSame.1.symm)
  rw [equal, rightSame.2] at leftSame
  exact (Nat.pow_right_injective (Nat.le_refl 2) leftSame.2).symm

theorem BucketLists.mem_of_bucket
    (linked : BucketLists gpa lists) (member : bucket ∈ gpa.buckets)
    (small : idx < numSmallBuckets) (size : bucket.objectSize = 2 ^ idx) :
    bucket.addr ∈ lists idx := by
  apply (linked.listed idx small _).mpr
  rw [← size]
  exact List.mem_map_of_mem member

/-- The lists are no longer than the number of buckets. -/
theorem BucketLists.length_le
    (linked : BucketLists gpa lists) (small : idx < numSmallBuckets) :
    (lists idx).length ≤ gpa.buckets.length := by
  have inside : lists idx ⊆ gpa.buckets.map Bucket.addr :=
    fun addr member =>
      mem_addrs_of_sized ((linked.listed idx small addr).mp member)
  have shorter :=
    (List.subperm_of_subset (linked.spells idx small).nodup inside).length_le
  rwa [List.length_map] at shorter

/-- The lists only read the headers and the pointers to them. -/
theorem BucketLists.congr {after : GPA}
    (linked : BucketLists gpa lists)
    (buckets : after.buckets = gpa.buckets)
    (heads : after.smallBuckets = gpa.smallBuckets)
    (tails : after.smallBucketTails = gpa.smallBucketTails) :
    BucketLists after lists := by
  have chains : ∀ idx, after.chain idx = gpa.chain idx := by
    intro idx
    simp only [GPA.chain, GPA.nextBucket, GPA.prevBucket, buckets, heads,
      tails]
  constructor
  · intro idx small
    rw [chains]
    exact linked.spells idx small
  · rw [buckets]
    exact linked.listed

/-! ## Searching -/

/-- The search in one list finds a bucket of the list with the address. -/
theorem BucketLists.findInList_eq
    (linked : BucketLists gpa lists) (small : idx < numSmallBuckets)
    (ptr : Nat) :
    gpa.findInList ptr idx =
      ((lists idx).find? fun addr =>
        (gpa.bucketAt addr).any fun bucket => bucket.Contains ptr).bind
          gpa.bucketAt := by
  unfold GPA.findInList
  rw [← (linked.spells idx small).search_eq _ (linked.length_le small)]
  rfl

theorem BucketLists.mem_of_findBucket
    (linked : BucketLists gpa lists) {ptr : Nat}
    (found : gpa.findBucket ptr = some bucket) :
    bucket ∈ gpa.buckets ∧ bucket.Contains ptr := by
  rcases List.exists_of_findSome?_eq_some found with ⟨idx, inRange, here⟩
  rw [linked.findInList_eq (List.mem_range.mp inRange)] at here
  rcases Option.bind_eq_some_iff.mp here with ⟨addr, first, atAddr⟩
  have passes := List.find?_some first
  rw [atAddr] at passes
  exact ⟨(KeyedList.mem_of_find atAddr).1, by simpa using passes⟩

theorem BucketLists.not_contains_of_findBucket
    (linked : BucketLists gpa lists)
    (unique : KeyedList.Unique Bucket.addr gpa.buckets) {ptr : Nat}
    (missing : gpa.findBucket ptr = none)
    (member : bucket ∈ gpa.buckets)
    (small : idx < numSmallBuckets) (size : bucket.objectSize = 2 ^ idx) :
    ¬ bucket.Contains ptr := by
  intro contains
  have here := List.findSome?_eq_none_iff.mp missing idx
    (List.mem_range.mpr small)
  rw [linked.findInList_eq small] at here
  have atAddr : gpa.bucketAt bucket.addr = some bucket :=
    KeyedList.find_of_mem unique member
  cases first : (lists idx).find? fun addr =>
      (gpa.bucketAt addr).any fun bucket => bucket.Contains ptr with
  | none =>
      have fails := List.find?_eq_none.mp first bucket.addr
        (linked.mem_of_bucket member small size)
      rw [atAddr] at fails
      simp [contains] at fails
  | some addr =>
      have passes := List.find?_some first
      rw [first, Option.bind_some] at here
      rw [here] at passes
      cases passes

/-! ## Changing the buckets -/

/-- A change that keeps the links keeps the lists. -/
theorem BucketLists.update
    (linked : BucketLists gpa lists)
    (keeps : ∀ bucket, (change bucket).node = bucket.node) :
    BucketLists (gpa.updateBucket addr change) lists := by
  have keepsAddr : ∀ bucket, (change bucket).addr = bucket.addr :=
    fun bucket => congrArg (fun node => node.1) (keeps bucket)
  have keepsPrev : ∀ bucket, (change bucket).prev = bucket.prev :=
    fun bucket => congrArg (fun node => node.2.1) (keeps bucket)
  have keepsNext : ∀ bucket, (change bucket).next = bucket.next :=
    fun bucket => congrArg (fun node => node.2.2.1) (keeps bucket)
  have keepsSize :
      ∀ bucket, (change bucket).objectSize = bucket.objectSize :=
    fun bucket => congrArg (fun node => node.2.2.2) (keeps bucket)
  have nexts : (gpa.updateBucket addr change).nextBucket =
      gpa.nextBucket :=
    KeyedList.read_update_of_view keepsAddr keepsNext
  have prevs : (gpa.updateBucket addr change).prevBucket =
      gpa.prevBucket :=
    KeyedList.read_update_of_view keepsAddr keepsPrev
  constructor
  · intro idx small
    refine (linked.spells idx small).congr rfl rfl ?_ ?_
    · intro node member
      exact congrFun nexts node
    · intro node member
      exact congrFun prevs node
  · intro idx small node
    have sizes : (gpa.updateBucket addr change).buckets.map
        Bucket.sized = gpa.buckets.map Bucket.sized := by
      apply KeyedList.map_update
      intro bucket
      simp only [Bucket.sized, keepsAddr, keepsSize]
    rw [sizes]
    exact linked.listed idx small node

/-! ## Links -/

section Links

variable {value : Nat}

theorem nextBucket_setNext
    (present : addr ∈ gpa.buckets.map Bucket.addr) :
    (gpa.updateBucket addr fun bucket =>
        { bucket with next := value }).nextBucket =
      Function.update gpa.nextBucket addr value :=
  KeyedList.read_update present (fun _ => rfl) (fun _ => rfl)

theorem prevBucket_setNext :
    (gpa.updateBucket addr fun bucket =>
        { bucket with next := value }).prevBucket = gpa.prevBucket :=
  KeyedList.read_update_of_view (fun _ => rfl) (fun _ => rfl)

theorem prevBucket_setPrev
    (present : addr ∈ gpa.buckets.map Bucket.addr) :
    (gpa.updateBucket addr fun bucket =>
        { bucket with prev := value }).prevBucket =
      Function.update gpa.prevBucket addr value :=
  KeyedList.read_update present (fun _ => rfl) (fun _ => rfl)

theorem nextBucket_setPrev :
    (gpa.updateBucket addr fun bucket =>
        { bucket with prev := value }).nextBucket = gpa.nextBucket :=
  KeyedList.read_update_of_view (fun _ => rfl) (fun _ => rfl)

theorem addrs_updateBucket
    (keeps : ∀ bucket, (change bucket).addr = bucket.addr) :
    (gpa.updateBucket addr change).buckets.map Bucket.addr =
      gpa.buckets.map Bucket.addr :=
  KeyedList.map_update Bucket.addr keeps

end Links

/-- The function does not depend on the links of a bucket. -/
def IgnoresLinks {Value : Type} (view : Bucket → Value) : Prop :=
  ∀ (bucket : Bucket) prev next, view { bucket with prev, next } = view bucket

/-! ## Appending a bucket -/

theorem appendBucket_next
    (bucket : Bucket) (gpa : GPA) (idx : Nat) :
    (gpa.appendBucket idx bucket).nextBucket =
      Function.update
        (if gpa.smallBucketTails idx = 0 then gpa.nextBucket
          else (gpa.updateBucket (gpa.smallBucketTails idx) fun last =>
            { last with next := bucket.addr }).nextBucket)
        bucket.addr 0 := by
  unfold GPA.appendBucket GPA.nextBucket
  dsimp only
  rw [KeyedList.read_cons]
  split_ifs <;> rfl

theorem appendBucket_prev
    (bucket : Bucket) (gpa : GPA) (idx : Nat) :
    (gpa.appendBucket idx bucket).prevBucket =
      Function.update gpa.prevBucket bucket.addr
        (gpa.smallBucketTails idx) := by
  unfold GPA.appendBucket
  dsimp only
  by_cases empty : gpa.smallBucketTails idx = 0
  · rw [if_pos empty]
    exact KeyedList.read_cons _ _ _ _
  · have prevs : (gpa.updateBucket (gpa.smallBucketTails idx) fun last =>
        { last with next := bucket.addr }).prevBucket = gpa.prevBucket :=
      prevBucket_setNext
    rw [if_neg empty, ← prevs]
    exact KeyedList.read_cons _ _ _ _

/-- Appending a bucket appends a node to its list. -/
theorem appendBucket_chain
    (fresh : bucket.addr ∉ gpa.buckets.map Bucket.addr)
    (present : gpa.smallBucketTails idx ≠ 0 →
      gpa.smallBucketTails idx ∈ gpa.buckets.map Bucket.addr) :
    (gpa.appendBucket idx bucket).chain idx =
      (gpa.chain idx).pushBack 0 bucket.addr := by
  unfold GPA.chain Chain.pushBack
  rw [appendBucket_next, appendBucket_prev]
  by_cases empty : gpa.smallBucketTails idx = 0
  · simp only [GPA.appendBucket, empty, if_true, Function.update_self]
  · have different : bucket.addr ≠ gpa.smallBucketTails idx := by
      intro same
      rw [same] at fresh
      exact fresh (present empty)
    rw [if_neg empty, nextBucket_setNext (present empty)]
    simp only [GPA.appendBucket, empty, if_false, GPA.updateBucket,
      Function.update_self, Function.update_comm different]

/-- What is not a link of a bucket is the same in the new state. -/
theorem appendBucket_map {Value : Type} (view : Bucket → Value)
    (ignores : IgnoresLinks view) :
    (gpa.appendBucket idx bucket).buckets.map view =
      view bucket :: gpa.buckets.map view := by
  unfold GPA.appendBucket
  dsimp only
  rw [List.map_cons, ignores]
  congr 1
  split_ifs
  · rfl
  · exact KeyedList.map_update view fun last => ignores last last.prev _

/-- The tail of a list is one of its buckets. -/
theorem BucketLists.tail_mem
    (linked : BucketLists gpa lists) (small : idx < numSmallBuckets)
    (nonnull : gpa.smallBucketTails idx ≠ 0) :
    gpa.smallBucketTails idx ∈ lists idx := by
  have spells := linked.spells idx small
  have tail : gpa.smallBucketTails idx = (lists idx).getLastD 0 :=
    spells.tail
  rw [tail] at nonnull ⊢
  apply getLastD_mem
  intro none
  rw [none] at nonnull
  exact nonnull rfl

/-- A new bucket is the last of its list. -/
theorem BucketLists.append
    (linked : BucketLists gpa lists)
    (unique : KeyedList.Unique Bucket.addr gpa.buckets)
    (fresh : bucket.addr ∉ gpa.buckets.map Bucket.addr)
    (nonnull : bucket.addr ≠ 0)
    (small : idx < numSmallBuckets) (size : bucket.objectSize = 2 ^ idx) :
    BucketLists (gpa.appendBucket idx bucket)
      (Function.update lists idx (lists idx ++ [bucket.addr])) := by
  have freshIn : ∀ other < numSmallBuckets,
      bucket.addr ∉ lists other := by
    intro other otherSmall member
    exact fresh (mem_addrs_of_sized
      ((linked.listed other otherSmall _).mp member))
  have present : gpa.smallBucketTails idx ≠ 0 →
      gpa.smallBucketTails idx ∈ gpa.buckets.map Bucket.addr := by
    intro tail
    exact mem_addrs_of_sized ((linked.listed idx small _).mp
      (linked.tail_mem small tail))
  constructor
  · intro other otherSmall
    by_cases same : other = idx
    · subst same
      rw [Function.update_self, appendBucket_chain fresh present]
      exact (linked.spells other small).pushBack
        (freshIn other small) nonnull
    · rw [Function.update_of_ne same]
      refine (linked.spells other otherSmall).congr ?_ ?_ ?_ ?_
      · simp only [GPA.chain, GPA.appendBucket]
        split_ifs
        · exact Function.update_of_ne same _ _
        · rfl
      · exact Function.update_of_ne same _ _
      · intro node member
        have notNew : node ≠ bucket.addr := by
          rintro rfl
          exact freshIn other otherSmall member
        simp only [GPA.chain, appendBucket_next,
          Function.update_of_ne notNew]
        by_cases empty : gpa.smallBucketTails idx = 0
        · rw [if_pos empty]
        · have notTail : node ≠ gpa.smallBucketTails idx := by
            rintro rfl
            exact same (linked.disjoint unique otherSmall small member
              (linked.tail_mem small empty))
          rw [if_neg empty, nextBucket_setNext (present empty)]
          exact Function.update_of_ne notTail _ _
      · intro node member
        have notNew : node ≠ bucket.addr := by
          rintro rfl
          exact freshIn other otherSmall member
        simp only [GPA.chain, appendBucket_prev,
          Function.update_of_ne notNew]
  · intro other otherSmall addr
    rw [appendBucket_map Bucket.sized fun _ _ _ => rfl, List.mem_cons,
      ← linked.listed other otherSmall]
    simp only [Bucket.sized, Prod.mk.injEq, size]
    by_cases same : other = idx
    · subst same
      rw [Function.update_self, List.mem_append, List.mem_singleton]
      tauto
    · have different : 2 ^ other ≠ 2 ^ idx :=
        fun equal => same (Nat.pow_right_injective (Nat.le_refl 2) equal)
      rw [Function.update_of_ne same]
      tauto

/-! ## Taking a bucket out -/

/-- `bucket->prev->next = bucket->next`, or the same for the head. -/
theorem unlinkBucket_next
    (present : bucket.prev ≠ 0 →
      bucket.prev ∈ gpa.buckets.map Bucket.addr) :
    (gpa.unlinkBucket idx bucket).nextBucket =
      if bucket.prev = 0 then gpa.nextBucket
      else Function.update gpa.nextBucket bucket.prev bucket.next := by
  unfold GPA.unlinkBucket
  dsimp only
  have front : (if bucket.prev = 0 then
      { gpa with
        smallBuckets := Function.update gpa.smallBuckets idx bucket.next }
      else gpa.updateBucket bucket.prev fun before =>
        { before with next := bucket.next }).nextBucket =
      if bucket.prev = 0 then gpa.nextBucket
      else Function.update gpa.nextBucket bucket.prev bucket.next := by
    by_cases first : bucket.prev = 0
    · rw [if_pos first, if_pos first]
      rfl
    · rw [if_neg first, if_neg first, nextBucket_setNext (present first)]
  by_cases last : bucket.next = 0
  · rw [if_pos last, ← front]
    rfl
  · rw [if_neg last, nextBucket_setPrev, front]

/-- `bucket->next->prev = bucket->prev`, or the same for the tail. -/
theorem unlinkBucket_prev
    (present : bucket.next ≠ 0 →
      bucket.next ∈ gpa.buckets.map Bucket.addr) :
    (gpa.unlinkBucket idx bucket).prevBucket =
      if bucket.next = 0 then gpa.prevBucket
      else Function.update gpa.prevBucket bucket.next bucket.prev := by
  unfold GPA.unlinkBucket
  dsimp only
  generalize built : (if bucket.prev = 0 then
      { gpa with
        smallBuckets := Function.update gpa.smallBuckets idx bucket.next }
      else gpa.updateBucket bucket.prev fun before =>
        { before with next := bucket.next }) = front
  have prevs : front.prevBucket = gpa.prevBucket := by
    rw [← built]
    split_ifs
    · rfl
    · exact prevBucket_setNext
  have addrs : front.buckets.map Bucket.addr =
      gpa.buckets.map Bucket.addr := by
    rw [← built]
    split_ifs
    · rfl
    · exact addrs_updateBucket fun _ => rfl
  by_cases last : bucket.next = 0
  · rw [if_pos last, if_pos last, ← prevs]
    rfl
  · rw [if_neg last, if_neg last, prevBucket_setPrev, prevs]
    rw [addrs]
    exact present last

theorem unlinkBucket_map {Value : Type} (view : Bucket → Value)
    (ignores : IgnoresLinks view) :
    (gpa.unlinkBucket idx bucket).buckets.map view =
      gpa.buckets.map view := by
  unfold GPA.unlinkBucket
  dsimp only
  have front : (if bucket.prev = 0 then
      { gpa with
        smallBuckets := Function.update gpa.smallBuckets idx bucket.next }
      else gpa.updateBucket bucket.prev fun before =>
        { before with next := bucket.next }).buckets.map view =
      gpa.buckets.map view := by
    split_ifs
    · rfl
    · exact KeyedList.map_update view fun before =>
        ignores before before.prev _
  rw [← front]
  by_cases last : bucket.next = 0
  · rw [if_pos last]
  · rw [if_neg last]
    exact KeyedList.map_update view fun after => ignores after _ after.next

theorem unlinkBucket_head (other : Nat) :
    (gpa.unlinkBucket idx bucket).smallBuckets other =
      if other = idx ∧ bucket.prev = 0 then bucket.next
      else gpa.smallBuckets other := by
  unfold GPA.unlinkBucket
  dsimp only
  by_cases first : bucket.prev = 0
  · by_cases last : bucket.next = 0
    · simp only [first, last, if_true, and_true, Function.update_apply]
    · simp only [first, last, if_true, if_false, GPA.updateBucket,
        and_true, Function.update_apply]
  · by_cases last : bucket.next = 0
    · simp only [first, last, if_true, if_false, GPA.updateBucket,
        and_false]
    · simp only [first, last, if_false, GPA.updateBucket, and_false]

theorem unlinkBucket_tail (other : Nat) :
    (gpa.unlinkBucket idx bucket).smallBucketTails other =
      if other = idx ∧ bucket.next = 0 then bucket.prev
      else gpa.smallBucketTails other := by
  unfold GPA.unlinkBucket
  dsimp only
  by_cases first : bucket.prev = 0
  · by_cases last : bucket.next = 0
    · simp only [first, last, if_true, and_true, Function.update_apply]
    · simp only [first, last, if_true, if_false, GPA.updateBucket,
        and_false]
  · by_cases last : bucket.next = 0
    · simp only [first, last, if_true, if_false, GPA.updateBucket,
        and_true, Function.update_apply]
    · simp only [first, last, if_false, GPA.updateBucket, and_false]

/-- The neighbours of a bucket are buckets of its list. -/
theorem BucketLists.neighbours
    (linked : BucketLists gpa lists)
    (unique : KeyedList.Unique Bucket.addr gpa.buckets)
    (member : bucket ∈ gpa.buckets)
    (small : idx < numSmallBuckets) (size : bucket.objectSize = 2 ^ idx) :
    (bucket.prev ≠ 0 → bucket.prev ∈ lists idx) ∧
      (bucket.next ≠ 0 → bucket.next ∈ lists idx) := by
  have inList := linked.mem_of_bucket member small size
  have ends := (linked.spells idx small).neighbours inList
  simp only [GPA.chain, GPA.prevBucket, GPA.nextBucket] at ends
  rwa [KeyedList.read_of_mem unique member,
    KeyedList.read_of_mem unique member] at ends

/-- Taking a bucket out takes its node out of the chain. -/
theorem unlinkBucket_chain
    (prevPresent : bucket.prev ≠ 0 →
      bucket.prev ∈ gpa.buckets.map Bucket.addr)
    (nextPresent : bucket.next ≠ 0 →
      bucket.next ∈ gpa.buckets.map Bucket.addr)
    (unique : KeyedList.Unique Bucket.addr gpa.buckets)
    (member : bucket ∈ gpa.buckets) :
    (gpa.unlinkBucket idx bucket).chain idx =
      (gpa.chain idx).unlink 0 bucket.addr := by
  have back : gpa.prevBucket bucket.addr = bucket.prev :=
    KeyedList.read_of_mem unique member
  have forth : gpa.nextBucket bucket.addr = bucket.next :=
    KeyedList.read_of_mem unique member
  simp only [GPA.chain, Chain.unlink, back, forth,
    unlinkBucket_next prevPresent, unlinkBucket_prev nextPresent,
    unlinkBucket_head, unlinkBucket_tail, true_and]

/-- The other chains do not change when a bucket is taken out. -/
theorem BucketLists.unlink_other
    (linked : BucketLists gpa lists)
    (unique : KeyedList.Unique Bucket.addr gpa.buckets)
    (member : bucket ∈ gpa.buckets)
    (small : idx < numSmallBuckets) (size : bucket.objectSize = 2 ^ idx)
    (otherSmall : other < numSmallBuckets) (different : other ≠ idx) :
    ((gpa.unlinkBucket idx bucket).chain other).Spells 0
      (lists other) := by
  rcases linked.neighbours unique member small size with
    ⟨prevIn, nextIn⟩
  have inBuckets : ∀ addr ∈ lists idx,
      addr ∈ gpa.buckets.map Bucket.addr :=
    fun addr inList =>
      mem_addrs_of_sized ((linked.listed idx small addr).mp inList)
  have elsewhere : ∀ node ∈ lists other, ∀ neighbour ∈ lists idx,
      node ≠ neighbour := by
    rintro node here _ there rfl
    exact different (linked.disjoint unique otherSmall small here there)
  refine (linked.spells other otherSmall).congr ?_ ?_ ?_ ?_
  · simp only [GPA.chain, unlinkBucket_head, different, false_and,
      if_false]
  · simp only [GPA.chain, unlinkBucket_tail, different, false_and,
      if_false]
  · intro node here
    simp only [GPA.chain,
      unlinkBucket_next fun nonnull => inBuckets _ (prevIn nonnull)]
    by_cases first : bucket.prev = 0
    · rw [if_pos first]
    · rw [if_neg first]
      exact Function.update_of_ne
        (elsewhere node here _ (prevIn first)) _ _
  · intro node here
    simp only [GPA.chain,
      unlinkBucket_prev fun nonnull => inBuckets _ (nextIn nonnull)]
    by_cases last : bucket.next = 0
    · rw [if_pos last]
    · rw [if_neg last]
      exact Function.update_of_ne
        (elsewhere node here _ (nextIn last)) _ _

/-- The chains do not read the header that was destroyed. -/
theorem destroyBucket_chain
    {nodes : List Nat}
    (spells : (gpa.chain idx).Spells 0 nodes)
    (gone : bucket.addr ∉ nodes) :
    ((destroyBucket gpa bucket).chain idx).Spells 0 nodes := by
  refine spells.congr rfl rfl ?_ ?_
  · intro node here
    apply KeyedList.read_erase_of_ne
    rintro rfl
    exact gone here
  · intro node here
    apply KeyedList.read_erase_of_ne
    rintro rfl
    exact gone here

/-- A destroyed bucket leaves its list. -/
theorem BucketLists.remove
    (linked : BucketLists gpa lists)
    (unique : KeyedList.Unique Bucket.addr gpa.buckets)
    (member : bucket ∈ gpa.buckets)
    (small : idx < numSmallBuckets) (size : bucket.objectSize = 2 ^ idx) :
    BucketLists (destroyBucket (gpa.unlinkBucket idx bucket) bucket)
      (Function.update lists idx ((lists idx).erase bucket.addr)) := by
  rcases linked.neighbours unique member small size with
    ⟨prevIn, nextIn⟩
  have inBuckets : ∀ addr ∈ lists idx,
      addr ∈ gpa.buckets.map Bucket.addr :=
    fun addr inList =>
      mem_addrs_of_sized ((linked.listed idx small addr).mp inList)
  have inList := linked.mem_of_bucket member small size
  have nodup := (linked.spells idx small).nodup
  constructor
  · intro other otherSmall
    apply destroyBucket_chain
    · by_cases same : other = idx
      · subst same
        rcases List.append_of_mem inList with ⟨left, right, split⟩
        have spells := linked.spells other small
        rw [split] at spells nodup
        have notLeft : bucket.addr ∉ left := by
          intro inLeft
          exact (List.nodup_append.mp nodup).2.2 _ inLeft _
            List.mem_cons_self rfl
        rw [Function.update_self, split,
          List.erase_append_right _ notLeft, List.erase_cons_head,
          unlinkBucket_chain (fun nonnull => inBuckets _ (prevIn nonnull))
            (fun nonnull => inBuckets _ (nextIn nonnull)) unique member]
        exact spells.unlink
      · rw [Function.update_of_ne same]
        exact linked.unlink_other unique member small size otherSmall same
    · by_cases same : other = idx
      · subst same
        rw [Function.update_self]
        exact nodup.not_mem_erase
      · rw [Function.update_of_ne same]
        intro inOther
        exact same
          (linked.disjoint unique otherSmall small inOther inList)
  · intro other otherSmall addr
    have kept : (addr, 2 ^ other) ∈
        (destroyBucket (gpa.unlinkBucket idx bucket) bucket).buckets.map
          Bucket.sized ↔
        addr ≠ bucket.addr ∧
          (addr, 2 ^ other) ∈ gpa.buckets.map Bucket.sized := by
      have uniqueAfter : KeyedList.Unique Bucket.addr
          (gpa.unlinkBucket idx bucket).buckets := by
        unfold KeyedList.Unique
        rw [unlinkBucket_map Bucket.addr fun _ _ _ => rfl]
        exact unique
      have sizes : (gpa.unlinkBucket idx bucket).buckets.map Bucket.sized =
          gpa.buckets.map Bucket.sized :=
        unlinkBucket_map _ fun _ _ _ => rfl
      rw [← sizes]
      simp only [destroyBucket, List.mem_map, Bucket.sized,
        Prod.mk.injEq, uniqueAfter.mem_erase_iff]
      constructor
      · rintro ⟨item, ⟨itemMember, different⟩, rfl, sized⟩
        exact ⟨different, item, itemMember, rfl, sized⟩
      · rintro ⟨different, item, itemMember, rfl, sized⟩
        exact ⟨item, ⟨itemMember, different⟩, rfl, sized⟩
    rw [kept, ← linked.listed other otherSmall]
    by_cases same : other = idx
    · subst same
      rw [Function.update_self, nodup.mem_erase_iff]
    · rw [Function.update_of_ne same]
      constructor
      · intro here
        refine ⟨?_, here⟩
        rintro rfl
        exact same
          (linked.disjoint unique otherSmall small here inList)
      · exact fun here => here.2

/-! ## The large allocations -/

/-- The list of the large allocations, with the node it ends in. -/
def GPA.largeChain (gpa : GPA) (last : Nat) : Chain Nat where
  next := gpa.nextLarge
  prev := gpa.prevLarge
  head := gpa.largeAllocs
  tail := last

/-- The list of the large allocations runs through the records. -/
structure LargeList (gpa : GPA) (nodes : List Nat) : Prop where
  spells : (gpa.largeChain (nodes.getLastD 0)).Spells 0 nodes
  listed : ∀ addr, addr ∈ nodes ↔ addr ∈ gpa.larges.map LargeAlloc.addr

section Large

variable {nodes : List Nat} {record : LargeAlloc}
  {alter : LargeAlloc → LargeAlloc} {ptr value : Nat} {slice : Slice}

/-- The list only reads the records and the pointer to the first. -/
theorem LargeList.congr {after : GPA}
    (linked : LargeList gpa nodes)
    (larges : after.larges = gpa.larges)
    (head : after.largeAllocs = gpa.largeAllocs) :
    LargeList after nodes := by
  have chains : ∀ last, after.largeChain last = gpa.largeChain last := by
    intro last
    simp only [GPA.largeChain, GPA.nextLarge, GPA.prevLarge, larges, head]
  constructor
  · rw [chains]
    exact linked.spells
  · rw [larges]
    exact linked.listed

theorem LargeList.length_le (linked : LargeList gpa nodes) :
    nodes.length ≤ gpa.larges.length := by
  have inside : nodes ⊆ gpa.larges.map LargeAlloc.addr :=
    fun addr member => (linked.listed addr).mp member
  have shorter :=
    (List.subperm_of_subset linked.spells.nodup inside).length_le
  rwa [List.length_map] at shorter

theorem LargeList.findLarge_eq (linked : LargeList gpa nodes) (ptr : Nat) :
    gpa.findLarge ptr =
      (nodes.find? fun addr =>
        (gpa.largeAt addr).any fun cur => cur.slice.ptr = ptr).bind
          gpa.largeAt := by
  unfold GPA.findLarge
  rw [← linked.spells.search_eq _ linked.length_le]
  rfl

theorem LargeList.mem_of_findLarge
    (linked : LargeList gpa nodes)
    (found : gpa.findLarge ptr = some record) :
    record ∈ gpa.larges ∧ record.slice.ptr = ptr := by
  rw [linked.findLarge_eq] at found
  rcases Option.bind_eq_some_iff.mp found with ⟨addr, first, atAddr⟩
  have passes := List.find?_some first
  rw [atAddr] at passes
  exact ⟨(KeyedList.mem_of_find atAddr).1, by simpa using passes⟩

theorem LargeList.ptr_ne_of_findLarge
    (linked : LargeList gpa nodes)
    (unique : KeyedList.Unique LargeAlloc.addr gpa.larges)
    (missing : gpa.findLarge ptr = none) (member : record ∈ gpa.larges) :
    record.slice.ptr ≠ ptr := by
  intro same
  rw [linked.findLarge_eq] at missing
  have atAddr : gpa.largeAt record.addr = some record :=
    KeyedList.find_of_mem unique member
  cases first : nodes.find? fun addr =>
      (gpa.largeAt addr).any fun cur => cur.slice.ptr = ptr with
  | none =>
      have fails := List.find?_eq_none.mp first record.addr
        ((linked.listed _).mpr (List.mem_map_of_mem member))
      rw [atAddr] at fails
      simp [same] at fails
  | some addr =>
      have passes := List.find?_some first
      rw [first, Option.bind_some] at missing
      rw [missing] at passes
      cases passes

/-- A change that keeps the links keeps the list. -/
theorem LargeList.update
    (linked : LargeList gpa nodes)
    (keepsAddr : ∀ record, (alter record).addr = record.addr)
    (keepsPrev : ∀ record, (alter record).prev = record.prev)
    (keepsNext : ∀ record, (alter record).next = record.next) :
    LargeList (gpa.updateLarge addr alter) nodes := by
  have nexts : (gpa.updateLarge addr alter).nextLarge = gpa.nextLarge :=
    KeyedList.read_update_of_view keepsAddr keepsNext
  have prevs : (gpa.updateLarge addr alter).prevLarge = gpa.prevLarge :=
    KeyedList.read_update_of_view keepsAddr keepsPrev
  constructor
  · refine linked.spells.congr rfl rfl ?_ ?_
    · exact fun node member => congrFun nexts node
    · exact fun node member => congrFun prevs node
  · intro node
    have addrs : (gpa.updateLarge addr alter).larges.map
        LargeAlloc.addr = gpa.larges.map LargeAlloc.addr :=
      KeyedList.map_update _ keepsAddr
    rw [addrs]
    exact linked.listed node

theorem prevLarge_setPrev
    (present : addr ∈ gpa.larges.map LargeAlloc.addr) :
    (gpa.updateLarge addr fun record =>
        { record with prev := value }).prevLarge =
      Function.update gpa.prevLarge addr value :=
  KeyedList.read_update present (fun _ => rfl) (fun _ => rfl)

theorem nextLarge_setPrev :
    (gpa.updateLarge addr fun record =>
        { record with prev := value }).nextLarge = gpa.nextLarge :=
  KeyedList.read_update_of_view (fun _ => rfl) (fun _ => rfl)

theorem nextLarge_setNext
    (present : addr ∈ gpa.larges.map LargeAlloc.addr) :
    (gpa.updateLarge addr fun record =>
        { record with next := value }).nextLarge =
      Function.update gpa.nextLarge addr value :=
  KeyedList.read_update present (fun _ => rfl) (fun _ => rfl)

theorem prevLarge_setNext :
    (gpa.updateLarge addr fun record =>
        { record with next := value }).prevLarge = gpa.prevLarge :=
  KeyedList.read_update_of_view (fun _ => rfl) (fun _ => rfl)

theorem pushLarge_next :
    (gpa.pushLarge addr slice).nextLarge =
      Function.update gpa.nextLarge addr gpa.largeAllocs := by
  unfold GPA.pushLarge
  dsimp only
  by_cases empty : gpa.largeAllocs = 0
  · rw [if_pos empty]
    exact KeyedList.read_cons _ _ _ _
  · have nexts : (gpa.updateLarge gpa.largeAllocs fun record =>
        { record with prev := addr }).nextLarge = gpa.nextLarge :=
      nextLarge_setPrev
    rw [if_neg empty, ← nexts]
    exact KeyedList.read_cons _ _ _ _

theorem pushLarge_prev
    (fresh : addr ∉ gpa.larges.map LargeAlloc.addr)
    (present : gpa.largeAllocs ≠ 0 →
      gpa.largeAllocs ∈ gpa.larges.map LargeAlloc.addr) :
    (gpa.pushLarge addr slice).prevLarge =
      if gpa.largeAllocs = 0 then Function.update gpa.prevLarge addr 0
      else Function.update (Function.update gpa.prevLarge addr 0)
        gpa.largeAllocs addr := by
  unfold GPA.pushLarge
  dsimp only
  by_cases empty : gpa.largeAllocs = 0
  · rw [if_pos empty, if_pos empty]
    exact KeyedList.read_cons _ _ _ _
  · have different : addr ≠ gpa.largeAllocs := by
      intro same
      rw [same] at fresh
      exact fresh (present empty)
    rw [if_neg empty, if_neg empty, Function.update_comm different,
      ← prevLarge_setPrev (present empty)]
    exact KeyedList.read_cons _ _ _ _

/-- The function does not depend on the links of a record. -/
def IgnoresRecordLinks {Value : Type} (view : LargeAlloc → Value) : Prop :=
  ∀ (record : LargeAlloc) prev next,
    view { record with prev, next } = view record

theorem pushLarge_map {Value : Type} (view : LargeAlloc → Value)
    (ignores : IgnoresRecordLinks view) :
    (gpa.pushLarge addr slice).larges.map view =
      view ⟨addr, 0, 0, slice⟩ :: gpa.larges.map view := by
  unfold GPA.pushLarge
  dsimp only
  rw [List.map_cons, ← ignores ⟨addr, 0, 0, slice⟩ 0 gpa.largeAllocs]
  congr 1
  split_ifs
  · rfl
  · exact KeyedList.map_update view fun record =>
      ignores record _ record.next

/-- A new record is the first of the list. -/
theorem LargeList.push
    (linked : LargeList gpa nodes)
    (fresh : addr ∉ gpa.larges.map LargeAlloc.addr)
    (nonnull : addr ≠ 0) :
    LargeList (gpa.pushLarge addr slice) (addr :: nodes) := by
  have freshIn : addr ∉ nodes :=
    fun member => fresh ((linked.listed addr).mp member)
  have present : gpa.largeAllocs ≠ 0 →
      gpa.largeAllocs ∈ gpa.larges.map LargeAlloc.addr := by
    intro head
    have first : gpa.largeAllocs = nodes.headD 0 := linked.spells.head
    rw [first] at head ⊢
    apply (linked.listed _).mp
    apply headD_mem
    rintro rfl
    exact head rfl
  have spells := linked.spells.pushFront freshIn nonnull
  constructor
  · refine spells.congr rfl spells.tail.symm ?_ ?_
    · intro node member
      simp only [GPA.largeChain, pushLarge_next, Chain.pushFront]
    · intro node member
      simp only [GPA.largeChain, pushLarge_prev fresh present,
        Chain.pushFront]
      rfl
  · intro node
    rw [pushLarge_map LargeAlloc.addr fun _ _ _ => rfl, List.mem_cons,
      List.mem_cons, linked.listed]

theorem unlinkLarge_next
    (present : record.prev ≠ 0 →
      record.prev ∈ gpa.larges.map LargeAlloc.addr) :
    (gpa.unlinkLarge record).nextLarge =
      if record.prev = 0 then gpa.nextLarge
      else Function.update gpa.nextLarge record.prev record.next := by
  unfold GPA.unlinkLarge
  dsimp only
  have front : (if record.prev = 0 then
      { gpa with largeAllocs := record.next }
      else gpa.updateLarge record.prev fun before =>
        { before with next := record.next }).nextLarge =
      if record.prev = 0 then gpa.nextLarge
      else Function.update gpa.nextLarge record.prev record.next := by
    by_cases first : record.prev = 0
    · rw [if_pos first, if_pos first]
      rfl
    · rw [if_neg first, if_neg first, nextLarge_setNext (present first)]
  by_cases last : record.next = 0
  · rw [if_pos last, front]
  · rw [if_neg last, nextLarge_setPrev, front]

theorem unlinkLarge_prev
    (present : record.next ≠ 0 →
      record.next ∈ gpa.larges.map LargeAlloc.addr) :
    (gpa.unlinkLarge record).prevLarge =
      if record.next = 0 then gpa.prevLarge
      else Function.update gpa.prevLarge record.next record.prev := by
  unfold GPA.unlinkLarge
  dsimp only
  generalize built : (if record.prev = 0 then
      { gpa with largeAllocs := record.next }
      else gpa.updateLarge record.prev fun before =>
        { before with next := record.next }) = front
  have prevs : front.prevLarge = gpa.prevLarge := by
    rw [← built]
    split_ifs
    · rfl
    · exact prevLarge_setNext
  have addrs : front.larges.map LargeAlloc.addr =
      gpa.larges.map LargeAlloc.addr := by
    rw [← built]
    split_ifs
    · rfl
    · exact KeyedList.map_update _ fun _ => rfl
  by_cases last : record.next = 0
  · rw [if_pos last, if_pos last, prevs]
  · rw [if_neg last, if_neg last, prevLarge_setPrev, prevs]
    rw [addrs]
    exact present last

theorem unlinkLarge_map {Value : Type} (view : LargeAlloc → Value)
    (ignores : IgnoresRecordLinks view) :
    (gpa.unlinkLarge record).larges.map view = gpa.larges.map view := by
  unfold GPA.unlinkLarge
  dsimp only
  have front : (if record.prev = 0 then
      { gpa with largeAllocs := record.next }
      else gpa.updateLarge record.prev fun before =>
        { before with next := record.next }).larges.map view =
      gpa.larges.map view := by
    split_ifs
    · rfl
    · exact KeyedList.map_update view fun before =>
        ignores before before.prev _
  rw [← front]
  by_cases last : record.next = 0
  · rw [if_pos last]
  · rw [if_neg last]
    exact KeyedList.map_update view fun after => ignores after _ after.next

theorem unlinkLarge_head :
    (gpa.unlinkLarge record).largeAllocs =
      if record.prev = 0 then record.next else gpa.largeAllocs := by
  unfold GPA.unlinkLarge
  dsimp only
  by_cases first : record.prev = 0
  · by_cases last : record.next = 0
    · simp only [first, last, if_true]
    · simp only [first, last, if_true, if_false, GPA.updateLarge]
  · by_cases last : record.next = 0
    · simp only [first, last, if_true, if_false, GPA.updateLarge]
    · simp only [first, last, if_false, GPA.updateLarge]

/-- The neighbours of a record are nodes of the list. -/
theorem LargeList.neighbours
    (linked : LargeList gpa nodes)
    (unique : KeyedList.Unique LargeAlloc.addr gpa.larges)
    (member : record ∈ gpa.larges) :
    (record.prev ≠ 0 → record.prev ∈ nodes) ∧
      (record.next ≠ 0 → record.next ∈ nodes) := by
  have inList : record.addr ∈ nodes :=
    (linked.listed _).mpr (List.mem_map_of_mem member)
  have ends := linked.spells.neighbours inList
  simp only [GPA.largeChain, GPA.prevLarge, GPA.nextLarge] at ends
  rwa [KeyedList.read_of_mem unique member,
    KeyedList.read_of_mem unique member] at ends

/-- A freed record leaves the list. -/
theorem LargeList.remove
    (linked : LargeList gpa nodes)
    (unique : KeyedList.Unique LargeAlloc.addr gpa.larges)
    (member : record ∈ gpa.larges) :
    LargeList (freeLarge gpa record) (nodes.erase record.addr) := by
  rcases linked.neighbours unique member with ⟨prevIn, nextIn⟩
  have inList : record.addr ∈ nodes :=
    (linked.listed _).mpr (List.mem_map_of_mem member)
  have nodup := linked.spells.nodup
  have back : gpa.prevLarge record.addr = record.prev :=
    KeyedList.read_of_mem unique member
  have forth : gpa.nextLarge record.addr = record.next :=
    KeyedList.read_of_mem unique member
  have uniqueAfter : KeyedList.Unique LargeAlloc.addr
      (gpa.unlinkLarge record).larges := by
    unfold KeyedList.Unique
    rw [unlinkLarge_map LargeAlloc.addr fun _ _ _ => rfl]
    exact unique
  rcases List.append_of_mem inList with ⟨left, right, split⟩
  have notLeft : record.addr ∉ left := by
    intro inLeft
    rw [split] at nodup
    exact (List.nodup_append.mp nodup).2.2 _ inLeft _
      List.mem_cons_self rfl
  have erased : nodes.erase record.addr = left ++ right := by
    rw [split, List.erase_append_right _ notLeft, List.erase_cons_head]
  have spells := linked.spells
  rw [split] at spells
  have shorter := spells.unlink
  constructor
  · rw [erased]
    refine shorter.congr ?_ shorter.tail.symm ?_ ?_
    · simp only [GPA.largeChain, freeLarge, unlinkLarge_head,
        Chain.unlink, back, forth]
    · intro node here
      have kept : node ≠ record.addr := by
        rintro rfl
        rw [← erased] at here
        exact nodup.not_mem_erase here
      simp only [GPA.largeChain, Chain.unlink, back, forth]
      rw [show (freeLarge gpa record).nextLarge node =
          (gpa.unlinkLarge record).nextLarge node from
        KeyedList.read_erase_of_ne kept,
        unlinkLarge_next fun nonnull =>
          (linked.listed _).mp (prevIn nonnull)]
    · intro node here
      have kept : node ≠ record.addr := by
        rintro rfl
        rw [← erased] at here
        exact nodup.not_mem_erase here
      simp only [GPA.largeChain, Chain.unlink, back, forth]
      rw [show (freeLarge gpa record).prevLarge node =
          (gpa.unlinkLarge record).prevLarge node from
        KeyedList.read_erase_of_ne kept,
        unlinkLarge_prev fun nonnull =>
          (linked.listed _).mp (nextIn nonnull)]
  · intro addr
    rw [nodup.mem_erase_iff, linked.listed]
    have addrs : (gpa.unlinkLarge record).larges.map LargeAlloc.addr =
        gpa.larges.map LargeAlloc.addr :=
      unlinkLarge_map _ fun _ _ _ => rfl
    rw [← addrs]
    simp only [freeLarge, List.mem_map, uniqueAfter.mem_erase_iff]
    constructor
    · rintro ⟨different, item, itemMember, rfl⟩
      exact ⟨item, ⟨itemMember, different⟩, rfl⟩
    · rintro ⟨item, ⟨itemMember, different⟩, rfl⟩
      exact ⟨different, item, itemMember, rfl⟩

end Large

end Libcute.Memory.GPAllocator
