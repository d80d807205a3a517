import Mathlib.Order.Bounds.Basic
import Libcute.Memory.GPAllocator.Classes

/-!
# The index of a size

`cu_gpa_alloc` computes the index of a list from a request, and
`cu_gpa_free_small` computes it again, from `objectSize` of the bucket that it
finds.  Both go through `cu_gpa_index_from_size` of a power of two, so they
agree as long as the bucket is there: a bucket keeps its size, and it stays
while one of its slots is live.
-/

namespace Libcute.Memory.GPAllocator

open Libcute.Core.Interface
open Libcute.Core.Size
open Libcute.Library
open Libcute.Library.Transition
open Libcute.Memory.BackingAllocator
open Libcute.Memory.Client

/-- The powers of two that are not below the value. -/
def powersFrom (value : Nat) : Set Nat :=
  { power | value ≤ power ∧ ∃ exponent, power = 2 ^ exponent }

/-- Lists and buckets go together by the index of the size. -/
structure Indexed (gpa : GPA) : Prop where
  /-- A bucket is in the list that its size has the index of. -/
  listed : ∃ lists, BucketLists gpa lists ∧
    ∀ idx < numSmallBuckets, ∀ bucket ∈ gpa.buckets,
      bucket.addr ∈ lists idx ↔ indexFromSize bucket.objectSize = some idx
  /-- A block comes from a bucket with the index of its request. -/
  served : ∀ layout idx block after,
    max layout.elemSize (requestAlign layout) ≤ 2 ^ 63 →
    gpa.classOf layout = some idx →
    gpaAlloc gpa layout = (.ok block, after) →
      ∃ bucket ∈ after.buckets, ∃ slot < bucket.slotCount,
        block = ⟨bucket.slotAddr slot, layout.elemSize⟩ ∧
          indexFromSize bucket.objectSize = some idx

/-- The later states of a run in which the block at an address stays live. -/
abbrev Holding (ptr : Nat) (start : World GPA) : World GPA → Prop :=
  Reachable (· = start)
    (fun world call => Permitted world call ∧
      ptr ∈ (gpaAllocator.step world call).live.map Slice.ptr)
    gpaAllocator.step

/-- A bucket with slots of `2 ^ idx` bytes contains the address. -/
def Serves (ptr idx : Nat) (gpa : GPA) : Prop :=
  ∃ bucket ∈ gpa.buckets, bucket.Contains ptr ∧
    bucket.objectSize = 2 ^ idx

variable {gpa after : GPA} {lists : Nat → List Nat} {nodes : List Nat}
  {bucket other : Bucket} {layout : Layout} {block : Slice}
  {world later : World GPA} {call : Call} {value idx ptr : Nat}

/-! ## Sizes -/

/-- Up to `2 ^ 63` the rounded size is the least power of two. -/
theorem nextPow2_least (bounded : value ≤ 2 ^ 63) :
    IsLeast (powersFrom value) (nextPow2 value) := by
  rw [nextPow2_eq bounded]
  constructor
  · exact ⟨Nat.le_pow_clog (by decide) value, _, rfl⟩
  · rintro power ⟨enough, exponent, rfl⟩
    exact Nat.pow_le_pow_right (by decide) (Nat.clog_le_of_le_pow enough)

/-- The index of a power of two that is a `size_t`. -/
theorem indexFromSize_two_pow {exponent : Nat} (bounded : exponent < 64) :
    indexFromSize (2 ^ exponent) =
      if exponent ≤ 15 then some exponent else none := by
  rw [indexFromSize_pow bounded]
  simp only [numSmallBuckets, Nat.lt_succ_iff]

/-- The exponent of a rounded size is one of a `size_t`. -/
theorem exponent_lt_of_nextPow2 (bounded : value ≤ 2 ^ 63) {exponent : Nat}
    (same : nextPow2 value = 2 ^ exponent) : exponent < 64 := by
  rw [← Nat.pow_lt_pow_iff_right (by decide : 1 < 2), ← same,
    nextPow2_eq bounded]
  exact Nat.pow_lt_pow_right (by decide)
    (Nat.lt_succ_of_le (Nat.clog_le_of_le_pow bounded))

theorem indexFromSize_eq_some_iff {exponent : Nat}
    (few : exponent < numSmallBuckets) :
    indexFromSize (2 ^ exponent) = some idx ↔ exponent = idx := by
  rw [indexFromSize_pow (Nat.lt_trans few (by decide)), if_pos few,
    Option.some_inj]

/-! ## Lists -/

/-- A bucket is in the list of the index of its size. -/
theorem Framed.listed_iff
    (framed : Framed gpa lists nodes) (small : idx < numSmallBuckets)
    (member : bucket ∈ gpa.buckets) :
    bucket.addr ∈ lists idx ↔
      indexFromSize bucket.objectSize = some idx := by
  rcases framed.sized bucket member with ⟨exponent, few, size⟩
  rw [size, indexFromSize_eq_some_iff few]
  have own := framed.linked.mem_of_bucket member few size
  constructor
  · exact fun there =>
      framed.linked.disjoint framed.unique few small own there
  · rintro rfl
    exact own

/-- Runs whose sizes do not wrap go by the index of the size. -/
theorem Framed.indexed (framed : Framed gpa lists nodes) :
    Indexed gpa where
  listed := ⟨lists, framed.linked, fun _ small _ member =>
    framed.listed_iff small member⟩
  served := by
    intro layout idx block after need served answer
    rcases classOf_pow need served with ⟨small, sized, _⟩
    rw [(gpaAlloc_of_class served).2.2] at answer
    rcases allocSmall_slot framed small sized answer with
      ⟨bucket, member, slot, inside, same, size⟩
    refine ⟨bucket, member, slot, inside, same, ?_⟩
    rw [size, sized, indexFromSize_eq_some_iff small]

/-! ## Blocks that stay -/

theorem Bucket.contains_congr (same : other.frame = bucket.frame) :
    other.Contains ptr ↔ bucket.Contains ptr := by
  simp only [Bucket.frame, Prod.mk.injEq] at same
  unfold Bucket.Contains
  rw [same.1, same.2.1, same.2.2]

/-- The bucket stays as long as the block does. -/
theorem Serves.step
    (serves : Serves ptr idx world.state)
    (keeps : KeepsBuckets world.state (gpaAllocator.step world call))
    (live : ptr ∈ (gpaAllocator.step world call).live.map Slice.ptr) :
    Serves ptr idx (gpaAllocator.step world call).state := by
  rcases serves with ⟨bucket, member, contains, size⟩
  rcases List.mem_map.mp live with ⟨block, blockMember, rfl⟩
  have stays := keeps bucket member block blockMember contains
  rcases List.mem_map.mp stays with ⟨other, otherMember, same⟩
  refine ⟨other, otherMember,
    (Bucket.contains_congr same).mpr contains, ?_⟩
  simp only [Bucket.frame, Prod.mk.injEq] at same
  rw [same.2.1, size]

/-- What `cu_gpa_free_small` computes for the address. -/
theorem Serves.found
    (serves : Serves ptr idx gpa) (ok : Ok gpa lists nodes)
    (small : idx < numSmallBuckets) :
    ∃ bucket, gpa.findBucket ptr = some bucket ∧
      indexFromSize bucket.objectSize = some idx := by
  rcases serves with ⟨bucket, member, contains, size⟩
  refine ⟨bucket, ok.findBucket_of_contains member contains, ?_⟩
  rw [size, indexFromSize_eq_some_iff small]

/-- A request of a class is not too large. -/
theorem bounded_of_class
    (need : max layout.elemSize (requestAlign layout) ≤ 2 ^ 63)
    (served : gpa.classOf layout = some idx) : Bounded layout := by
  rcases classOf_pow need served with ⟨small, sized, enough⟩
  have limit : 2 ^ idx ≤ 2 ^ 62 :=
    Nat.pow_le_pow_right (by decide)
      (Nat.le_of_lt (Nat.lt_trans small (by decide)))
  have alignment : layout.alignment ≤ requestAlign layout := by
    unfold requestAlign
    split_ifs <;> omega
  rw [sized] at enough
  unfold Bounded requestLimit
  omega

/-- A request that gets a block is of the class of its index. -/
theorem classOf_of_answer
    (fits : objSizeFor layout ≤ gpa.bucketSize)
    (index : indexFromSize (objSizeFor layout) = some idx)
    (answer : gpaAlloc gpa layout = (.ok block, after)) :
    gpa.classOf layout = some idx := by
  have nonempty : layout.elemSize ≠ 0 := by
    intro empty
    unfold gpaAlloc at answer
    rw [if_pos empty] at answer
    cases answer
  unfold GPA.classOf
  rw [if_neg (not_or.mpr ⟨nonempty, Nat.not_lt.mpr fits⟩)]
  exact index

/-- A bucket contains the block that a request of a class gets. -/
theorem serves_of_alloc
    (invariant : Invariant world)
    (need : max layout.elemSize (requestAlign layout) ≤ 2 ^ 63)
    (served : world.state.classOf layout = some idx)
    (answer : gpaAlloc world.state layout = (.ok block, after)) :
    Serves block.ptr idx (gpaAllocator.step world (.alloc layout)).state := by
  have allowed : Permitted world (.alloc layout) :=
    bounded_of_class need served
  have state : (gpaAllocator.step world (.alloc layout)).state = after := by
    change (world.receive none (gpaAlloc world.state layout)).state = after
    rw [answer]
    rfl
  rcases (step_safe invariant allowed).1.invariant.sound with
    ⟨_, _, okAfter, _⟩
  rcases invariant.sound with ⟨_, _, ok, _⟩
  rcases classOf_pow need served with ⟨small, sized, _⟩
  rw [state] at okAfter ⊢
  rw [(gpaAlloc_of_class served).2.2] at answer
  rcases allocSmall_slot ok.framed small sized answer with
    ⟨bucket, member, slot, inside, same, size⟩
  refine ⟨bucket, member, ?_, size.trans sized⟩
  rw [same]
  exact okAfter.contains_slot member inside

/-- As long as the block is live, its bucket is found with its index. -/
theorem holding_found
    (invariant : Invariant world) (serves : Serves ptr idx world.state)
    (small : idx < numSmallBuckets) (holding : Holding ptr world later) :
    ∃ bucket, later.state.findBucket ptr = some bucket ∧
      indexFromSize bucket.objectSize = some idx := by
  have kept : Invariant later ∧ Serves ptr idx later.state := by
    refine holding.invariant
      (fun world => Invariant world ∧ Serves ptr idx world.state) ?_ ?_
    · rintro start rfl
      exact ⟨invariant, serves⟩
    · intro state call holds allowed
      have sound := (step_safe holds.1 allowed.1).1
      exact ⟨sound.invariant, holds.2.step sound.keeps allowed.2⟩
  rcases kept.1.sound with ⟨_, _, ok, _⟩
  exact kept.2.found ok small

/-! ## Runs -/

/--
Up to `2 ^ 63` a size is rounded to the least power of two, whose index is
its exponent if that is at most 15.  In every run whose sizes do not wrap the
buckets are in the lists of their indices.  And in every run with bounded
sizes, as long as the block of a small request is live, the index of the size
of its bucket is the index that the request had.
-/
theorem gpa_index_recovered (value : Nat) (bounded : value ≤ 2 ^ 63) :
    IsLeast (powersFrom value) (nextPow2 value) ∧
      (∀ exponent, nextPow2 value = 2 ^ exponent →
        indexFromSize (nextPow2 value) =
          if exponent ≤ 15 then some exponent else none) ∧
      (∀ backing bucketSize world, backing.log = [] →
        Unwrapped backing bucketSize world → Indexed world.state) ∧
      ∀ backing bucketSize world layout block after idx,
        bucketSize ≤ requestLimit → Reached backing bucketSize world →
        max layout.elemSize (requestAlign layout) = value →
        nextPow2 value ≤ world.state.bucketSize →
        indexFromSize (nextPow2 value) = some idx →
        gpaAlloc world.state layout = (.ok block, after) →
        ∀ later,
          Holding block.ptr (gpaAllocator.step world (.alloc layout))
            later →
          ∃ bucket, later.state.findBucket block.ptr = some bucket ∧
            indexFromSize bucket.objectSize = some idx := by
  refine ⟨nextPow2_least bounded, ?_, ?_, ?_⟩
  · intro exponent same
    rw [same]
    exact indexFromSize_two_pow (exponent_lt_of_nextPow2 bounded same)
  · intro backing bucketSize world fresh reached
    rcases (reached_accounts fresh reached).1.framed with
      ⟨lists, nodes, framed⟩
    exact framed.indexed
  · rintro backing bucketSize world layout block after idx limited reached
      rfl fits index answer later holding
    have invariant := reached_invariant limited reached
    have served : world.state.classOf layout = some idx :=
      classOf_of_answer fits index answer
    have allowed : Permitted world (.alloc layout) :=
      bounded_of_class bounded served
    exact holding_found (step_safe invariant allowed).1.invariant
      (serves_of_alloc invariant bounded served answer)
      (classOf_pow bounded served).1 holding

theorem gpa_index_recovered_twoBlocks :
    Indexed twoBlocks.state ∧
      ∃ bucket,
        (gpaAllocator.step twoBlocks (.alloc ⟨7, 1⟩)).state.findBucket
            4224 = some bucket ∧
          indexFromSize bucket.objectSize = some 3 := by
  have recovered := gpa_index_recovered 7 (by decide)
  refine ⟨recovered.2.2.1 oneBucket 64 twoBlocks rfl twoBlocks_unwrapped,
    recovered.2.2.2 oneBucket 64 twoBlocks ⟨7, 1⟩ ⟨4224, 7⟩
      (gpaAlloc twoBlocks.state ⟨7, 1⟩).2 3 (by decide) twoBlocks_reached
      (by decide) (by decide +kernel) (by decide +kernel) ?_ _
      (Reachable.start rfl)⟩
  exact Prod.ext (by decide +kernel) rfl

end Libcute.Memory.GPAllocator
