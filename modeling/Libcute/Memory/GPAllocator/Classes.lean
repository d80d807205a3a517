import Libcute.Memory.GPAllocator.Destroy
import Libcute.Memory.GPAllocator.Occupancy

/-!
# The size class of a request

`cu_gpa_alloc` rounds the larger of the size and the alignment up to a power
of two, finds the exponent and serves the request from the buckets of that
class, or passes it on.  Up to `2 ^ 63` the three computations agree with
each other.  Above it the rounded size leaves 64 bits and becomes zero, which
is taken for the class of single bytes, whatever the bucket size is.
-/

namespace Libcute.Memory.GPAllocator

open Libcute.Core.Interface
open Libcute.Core.Size
open Libcute.Library
open Libcute.Library.Transition
open Libcute.Memory.BackingAllocator
open Libcute.Memory.Client

/-- The states of the runs whose sizes do not wrap. -/
abbrev Unwrapped (backing : Backing) (bucketSize : Nat) :
    World GPA → Prop :=
  Reachable (· = gpaCreate backing bucketSize) Admitted gpaAllocator.step

/-- A size of 64 bits that is not zero, and a power of two. -/
structure Requestable (layout : Layout) : Prop where
  nonempty : layout.elemSize ≠ 0
  word : layout.elemSize < sizeLimit
  powerOfTwo : ∃ exponent < 64, layout.alignment = 2 ^ exponent

/-- The block is a slot that is large enough for the request. -/
def InSlot (gpa : GPA) (layout : Layout) (block : Slice) : Prop :=
  ∃ bucket ∈ gpa.buckets, ∃ slot < bucket.slotCount,
    block = ⟨bucket.slotAddr slot, layout.elemSize⟩ ∧
      max layout.elemSize layout.alignment ≤ bucket.objectSize

/--
The call creates a bucket of slots of this size, and
`cu_gpa_calc_slot_count` divides by the size.
-/
def CountsSlots (gpa : GPA) (layout : Layout) (objSize : Nat) : Prop :=
  ∃ idx, gpa.classOf layout = some idx ∧ Opens gpa layout ∧
    objSize = objSizeFor layout

/-- A request is served by a class that suits its size. -/
structure ClassFits (gpa : GPA) (layout : Layout) : Prop where
  /-- A block is a large one, or a slot that is large enough. -/
  served : ∀ block after, gpaAlloc gpa layout = (.ok block, after) →
    (gpa.classOf layout = none ∧ gpaAlloc gpa layout =
      allocLarge gpa layout.elemSize (requestAlign layout)) ∨
    InSlot after layout block
  /-- No bucket is divided into slots of size zero. -/
  counted : ∀ objSize, CountsSlots gpa layout objSize → objSize ≠ 0

variable {gpa after : GPA} {lists : Nat → List Nat} {nodes : List Nat}
  {bucket first : Bucket} {layout : Layout} {block : Slice}
  {idx size objSize : Nat}

/-! ## The class of a size -/

namespace Requestable

theorem requestAlign_eq (requestable : Requestable layout) :
    requestAlign layout = layout.alignment := by
  rcases requestable.powerOfTwo with ⟨exponent, bounded, alignment⟩
  apply if_neg
  rw [alignment]
  exact (Nat.two_pow_pos exponent).ne'

theorem alignment_le (requestable : Requestable layout) :
    layout.alignment ≤ 2 ^ 63 := by
  rcases requestable.powerOfTwo with ⟨exponent, bounded, alignment⟩
  rw [alignment]
  exact Nat.pow_le_pow_right (by decide) (Nat.le_of_lt_succ bounded)

/-- Up to `2 ^ 63` the size can be rounded. -/
theorem need (requestable : Requestable layout)
    (bounded : layout.elemSize ≤ 2 ^ 63) :
    max layout.elemSize (requestAlign layout) ≤ 2 ^ 63 := by
  rw [requestable.requestAlign_eq]
  exact Nat.max_le.mpr ⟨bounded, requestable.alignment_le⟩

/-- Above `2 ^ 63` the rounded size is zero. -/
theorem objSizeFor_wraps (requestable : Requestable layout)
    (huge : 2 ^ 63 < layout.elemSize) : objSizeFor layout = 0 := by
  have larger : max layout.elemSize (requestAlign layout) =
      layout.elemSize := by
    rw [requestable.requestAlign_eq]
    exact Nat.max_eq_left (requestable.alignment_le.trans huge.le)
  have exponent : Nat.clog 2 layout.elemSize = 64 := by
    apply Nat.le_antisymm
    · exact Nat.clog_le_of_le_pow requestable.word.le
    · exact (Nat.lt_clog_iff_pow_lt (by decide)).mpr huge
  unfold objSizeFor
  rw [larger, nextPow2_eq_mod requestable.word, exponent]
  rfl

/-- Size zero is in the class of single bytes, whatever the bucket size. -/
theorem classOf_wraps (requestable : Requestable layout)
    (huge : 2 ^ 63 < layout.elemSize) (gpa : GPA) :
    gpa.classOf layout = some 0 := by
  unfold GPA.classOf
  rw [requestable.objSizeFor_wraps huge, if_neg]
  · rfl
  · exact not_or.mpr ⟨requestable.nonempty, Nat.not_lt_zero _⟩

end Requestable

/-! ## The slot that is handed out -/

/-- A slot is a slot of the bucket it is taken from. -/
theorem takeSlot_ok
    (answer : takeSlot gpa bucket size = (.ok block, after)) :
    ∃ slot < bucket.slotCount, block = ⟨bucket.slotAddr slot, size⟩ ∧
      after = gpa.updateBucket bucket.addr (Bucket.take slot) := by
  unfold takeSlot at answer
  dsimp only at answer
  split_ifs at answer with full
  · cases answer
  · cases answer
    have inside := (firstClear_spec bucket.used bucket.slotCount 0).2.1
    rw [Nat.zero_add] at inside
    exact ⟨_, Nat.lt_of_le_of_ne inside full, rfl, rfl⟩

/-- The first bucket of a class has slots of its size. -/
theorem Framed.head_spec
    (framed : Framed gpa lists nodes) (small : idx < numSmallBuckets)
    (found : gpa.bucketAt (gpa.smallBuckets idx) = some first) :
    first ∈ gpa.buckets ∧ first.objectSize = 2 ^ idx := by
  have member := KeyedList.mem_of_find found
  refine ⟨member.1, ?_⟩
  have head : first.addr = (lists idx).headD 0 :=
    member.2.trans (framed.linked.spells idx small).head
  have nonempty : lists idx ≠ [] := by
    intro none
    rw [none] at head
    exact framed.addr_ne_zero member.1 head
  have inList := LinkedList.headD_mem nonempty 0
  rw [← head] at inList
  rcases List.mem_map.mp ((framed.linked.listed idx small _).mp inList)
    with ⟨other, otherMember, same⟩
  simp only [Bucket.sized, Prod.mk.injEq] at same
  rw [← framed.unique.eq_of_key otherMember member.1 same.1]
  exact same.2

/-- The bucket a slot was taken of is still there. -/
theorem takeSlot_mem
    (member : bucket.frame ∈ gpa.buckets.map Bucket.frame)
    (answer : takeSlot gpa bucket size = (.ok block, after)) :
    ∃ taken ∈ after.buckets, ∃ slot < taken.slotCount,
      block = ⟨taken.slotAddr slot, size⟩ ∧
        taken.objectSize = bucket.objectSize := by
  rcases takeSlot_ok answer with ⟨slot, inside, same, rfl⟩
  rw [← frames_updateBucket (Bucket.frame_take slot)] at member
  rcases List.mem_map.mp member with ⟨taken, takenMember, frame⟩
  simp only [Bucket.frame, Prod.mk.injEq] at frame
  refine ⟨taken, takenMember, slot, ?_, ?_, frame.2.1⟩
  · rw [frame.2.2]
    exact inside
  · unfold Bucket.slotAddr
    rw [frame.1, frame.2.1]
    exact same

/-- A block from a new bucket has a slot of the requested size. -/
theorem allocFresh_slot
    (answer : allocFresh gpa size objSize idx = (.ok block, after)) :
    ∃ bucket ∈ after.buckets, ∃ slot < bucket.slotCount,
      block = ⟨bucket.slotAddr slot, size⟩ ∧
        bucket.objectSize = objSize := by
  unfold allocFresh at answer
  rcases createBucket_eq gpa objSize with
    ⟨backing, created | ⟨addr, used, created⟩⟩
  · rw [created] at answer
    cases answer
  · rw [created] at answer
    refine takeSlot_mem ?_ answer
    rw [appendBucket_map Bucket.frame fun _ _ _ => rfl]
    exact List.mem_cons_self

/-- A small block has a slot of the size of its class. -/
theorem allocSmall_slot
    (framed : Framed gpa lists nodes) (small : idx < numSmallBuckets)
    (sized : objSize = 2 ^ idx)
    (answer : allocSmall gpa size objSize idx = (.ok block, after)) :
    ∃ bucket ∈ after.buckets, ∃ slot < bucket.slotCount,
      block = ⟨bucket.slotAddr slot, size⟩ ∧
        bucket.objectSize = objSize := by
  unfold allocSmall at answer
  split at answer
  · exact allocFresh_slot answer
  · rename_i first found
    rcases framed.head_spec small found with ⟨member, firstSize⟩
    split_ifs at answer with full
    · exact allocFresh_slot answer
    · rw [sized, ← firstSize]
      exact takeSlot_mem (List.mem_map_of_mem member) answer

/-! ## The two kinds of requests -/

/-- Up to `2 ^ 63` a request finds a class that suits it. -/
theorem Framed.classFits
    (framed : Framed gpa lists nodes) (requestable : Requestable layout)
    (bounded : layout.elemSize ≤ 2 ^ 63) : ClassFits gpa layout where
  served := by
    intro block after answer
    cases served : gpa.classOf layout with
    | none =>
        left
        refine ⟨rfl, ?_⟩
        rcases gpaAlloc_of_none served with refused | large
        · rw [refused] at answer
          cases answer
        · exact large
    | some idx =>
        right
        rcases classOf_pow (requestable.need bounded) served with
          ⟨small, sized, enough⟩
        rw [requestable.requestAlign_eq] at enough
        rw [(gpaAlloc_of_class served).2.2] at answer
        rcases allocSmall_slot framed small sized answer with
          ⟨bucket, member, slot, inside, same, size⟩
        exact ⟨bucket, member, slot, inside, same, size ▸ enough⟩
  counted := by
    rintro objSize ⟨idx, served, opens, rfl⟩
    rw [(classOf_pow (requestable.need bounded) served).2.1]
    exact (Nat.two_pow_pos idx).ne'

/-- A slot that is taken of an old bucket belongs to one of the classes. -/
theorem Framed.not_inSlot
    (framed : Framed gpa lists nodes) (huge : 2 ^ 63 < layout.elemSize)
    (none : NoneNew gpa after) : ¬ InSlot after layout block := by
  rintro ⟨bucket, member, slot, inside, same, enough⟩
  have earlier := none.frames (List.mem_map_of_mem member)
  rcases List.mem_map.mp earlier with ⟨source, sourceMember, frame⟩
  simp only [Bucket.frame, Prod.mk.injEq] at frame
  rcases framed.sized source sourceMember with ⟨idx, small, sized⟩
  have limit : 2 ^ idx ≤ 2 ^ 63 :=
    Nat.pow_le_pow_right (by decide)
      (Nat.le_of_lt (Nat.lt_trans small (by decide)))
  have larger := (Nat.le_max_left layout.elemSize layout.alignment).trans
    enough
  rw [← frame.2.1, sized] at larger
  omega

/--
Above `2 ^ 63` a request either divides a bucket by zero, or it gets a slot
of a single byte.
-/
theorem Ok.not_classFits
    (ok : Ok gpa lists nodes) (requestable : Requestable layout)
    (huge : 2 ^ 63 < layout.elemSize) : ¬ ClassFits gpa layout := by
  intro fits
  have served := requestable.classOf_wraps huge gpa
  by_cases opens : Opens gpa layout
  · exact fits.counted 0 ⟨0, served, opens,
      (requestable.objSizeFor_wraps huge).symm⟩ rfl
  · rw [opens_iff served] at opens
    push Not at opens
    rcases opens with ⟨first, found, room⟩
    have scan := ((ok.each first (KeyedList.mem_of_find found).1).scan
      room).1
    have answer : gpaAlloc gpa layout =
        takeSlot gpa first layout.elemSize := by
      rw [(gpaAlloc_of_class served).2.2]
      unfold allocSmall
      rw [found]
      exact if_neg room
    have none := NoneNew.takeSlot gpa first layout.elemSize
    unfold takeSlot at answer none
    dsimp only at answer none
    rw [if_neg scan.ne] at answer none
    rcases fits.served _ _ answer with ⟨large, _⟩ | inSlot
    · rw [served] at large
      cases large
    · exact ok.framed.not_inSlot huge none inSlot

/-! ## Runs -/

/--
In every run whose sizes do not wrap, a request of at most `2 ^ 63` bytes
fails, is passed on with its size, or gets a slot that is large enough for
its size and its alignment, and a bucket that is created for it has slots of
at least one byte.  A larger request never does so.
-/
theorem gpa_classes_fit (layout : Layout)
    (requestable : Requestable layout) :
    (∀ backing bucketSize world,
      backing.log = [] → Unwrapped backing bucketSize world →
      layout.elemSize ≤ 2 ^ 63 → ClassFits world.state layout) ∧
    ∀ backing bucketSize world,
      bucketSize ≤ requestLimit → Reached backing bucketSize world →
      2 ^ 63 < layout.elemSize → ¬ ClassFits world.state layout := by
  constructor
  · intro backing bucketSize world fresh reached bounded
    rcases (reached_accounts fresh reached).1.framed with
      ⟨lists, nodes, framed⟩
    exact framed.classFits requestable bounded
  · intro backing bucketSize world bound reached huge
    rcases (reached_invariant bound reached).sound with
      ⟨lists, nodes, ok, _⟩
    exact ok.not_classFits requestable huge

theorem twoBlocks_unwrapped : Unwrapped oneBucket 64 twoBlocks := by
  unfold twoBlocks
  refine Reachable.step (Reachable.step (Reachable.start rfl) ?_) ?_
  · exact ⟨by decide, by decide +kernel⟩
  · exact ⟨by decide, by decide +kernel⟩

/-- The smallest request whose size cannot be rounded. -/
def unroundable : Layout := ⟨2 ^ 63 + 1, 1⟩

theorem unroundable_requestable : Requestable unroundable :=
  ⟨by decide, by decide, 0, by decide, rfl⟩

theorem gpa_classes_fit_twoBlocks :
    ClassFits twoBlocks.state ⟨24, 16⟩ ∧
      ¬ ClassFits twoBlocks.state unroundable :=
  ⟨(gpa_classes_fit ⟨24, 16⟩ ⟨by decide, by decide, 4, by decide, rfl⟩).1
      oneBucket 64 twoBlocks rfl twoBlocks_unwrapped (by decide),
    (gpa_classes_fit unroundable unroundable_requestable).2
      oneBucket 64 twoBlocks (by decide) twoBlocks_reached (by decide)⟩

/-- A run that allocates one byte. -/
def oneByte : World GPA :=
  gpaAllocator.step (gpaCreate oneBucket 64) (.alloc ⟨1, 1⟩)

/--
The first call of an allocator divides by zero, and after a call for one
byte the request is served with the second byte of the bucket.
-/
theorem not_classFits_unroundable :
    Requestable unroundable ∧
      Reached oneBucket 64 (gpaCreate oneBucket 64) ∧
      CountsSlots (gpaCreate oneBucket 64).state unroundable 0 ∧
      ¬ ClassFits (gpaCreate oneBucket 64).state unroundable ∧
      Reached oneBucket 64 oneByte ∧
      (gpaAlloc oneByte.state unroundable).1 =
        .ok ⟨4209, 2 ^ 63 + 1⟩ ∧
      oneByte.state.buckets.map Bucket.objectSize = [1] ∧
      ¬ ClassFits oneByte.state unroundable := by
  have start : Reached oneBucket 64 (gpaCreate oneBucket 64) :=
    Reachable.start rfl
  have served : Reached oneBucket 64 oneByte :=
    Reachable.step start ⟨by decide, by decide⟩
  have never : ∀ world, Reached oneBucket 64 world →
      ¬ ClassFits world.state unroundable := by
    intro world reached
    rcases (reached_invariant (by decide) reached).sound with
      ⟨lists, nodes, ok, _⟩
    exact ok.not_classFits unroundable_requestable (by decide)
  refine ⟨unroundable_requestable, start, ⟨0, by decide +kernel, ?_, ?_⟩,
    never _ start, served, by decide +kernel, by decide +kernel,
    never _ served⟩
  · unfold Opens
    decide +kernel
  · decide +kernel

end Libcute.Memory.GPAllocator
