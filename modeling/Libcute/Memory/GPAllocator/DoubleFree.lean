import Libcute.Memory.GPAllocator.Runs

/-!
# Freeing a block twice

`cu_gpa_free_small` clears the bit of the slot, which does nothing when the
bit is clear already, but it also takes one off the counter of the bucket as
long as the counter is positive.  So a second free of the same slice is
harmless only where the counter is zero or no bucket contains the address.
In all other states it uncounts a block that is still live, and a bucket
with live blocks can reach the counter zero and be destroyed.

`Trace` follows a run and the blocks that were given back.
-/

namespace Libcute.Memory.GPAllocator

open Libcute.Collection.Bitmap
open Libcute.Core.Interface
open Libcute.Library
open Libcute.Library.Transition
open Libcute.Memory.BackingAllocator
open Libcute.Memory.Client

/--
A world and the blocks that were live once and whose address is not handed
out at present.
-/
structure Trace where
  world : World GPA
  freed : List Slice

/-- One call, and what it frees or hands out again. -/
def Trace.step (trace : Trace) (call : Call) : Trace :=
  let world := gpaAllocator.step trace.world call
  ⟨world, (trace.world.live ++ trace.freed).filter fun mem =>
    mem.ptr ∉ world.live.map Slice.ptr⟩

/-- The traces of all runs over one behaviour of the backing allocator. -/
abbrev Traced (backing : Backing) (bucketSize : Nat) : Trace → Prop :=
  Reachable (· = ⟨gpaCreate backing bucketSize, []⟩)
    (fun trace call => Permitted trace.world call) Trace.step

variable {gpa : GPA} {lists : Nat → List Nat} {nodes : List Nat}
  {bucket : Bucket} {live : List Slice} {mem : Slice} {slot : Nat}

/-! ## An empty bucket -/

/-- Releasing a slot of an empty bucket does nothing. -/
theorem release_of_vacant
    (ok : BucketOk bucket) (empty : bucket.usedCount = 0) (slot : Nat) :
    bucket.release slot = bucket := by
  have count : ¬ 0 < bucket.usedCount := by
    rw [empty]
    exact Nat.lt_irrefl 0
  unfold Bucket.release
  rw [Bits.clear_eq_self (ok.vacant empty slot), if_neg count]

theorem updateBucket_eq_self {change : Bucket → Bucket}
    (unique : KeyedList.Unique Bucket.addr gpa.buckets)
    (member : bucket ∈ gpa.buckets) (same : change bucket = bucket) :
    gpa.updateBucket bucket.addr change = gpa := by
  have buckets : KeyedList.update Bucket.addr gpa.buckets bucket.addr
      change = gpa.buckets := by
    unfold KeyedList.update
    rw [List.map_congr_left (g := id), List.map_id]
    intro item itemMember
    split_ifs with here
    · rw [unique.eq_of_key itemMember member here, same]
      rfl
    · rfl
  unfold GPA.updateBucket
  rw [buckets]

/-- An empty bucket is kept, because it is the only one of its size. -/
theorem freeSmall_of_vacant
    (ok : Ok gpa lists nodes) (alone : Alone gpa lists)
    (member : bucket ∈ gpa.buckets) (empty : bucket.usedCount = 0)
    (slot : Nat) :
    freeSmall gpa bucket slot = gpa := by
  have bucketOk := ok.each bucket member
  have same := release_of_vacant bucketOk empty slot
  rcases bucketOk.sized with ⟨idx, small, size⟩
  have index : indexFromSize bucket.objectSize = some idx := by
    have found := indexFromSize_pow
      (Nat.lt_trans small (by decide : numSmallBuckets < 64))
    rw [if_pos small, ← size] at found
    exact found
  have single := alone bucket member empty idx small size
  have ends := ((ok.linked.spells idx small).eq_singleton_iff
    (ok.linked.mem_of_bucket member small size)).mpr single
  have next : bucket.next = 0 :=
    (KeyedList.read_of_mem ok.unique member).symm.trans ends.2
  have head : gpa.smallBuckets idx = bucket.addr := ends.1
  have keep : ¬ (gpa.smallBuckets idx ≠ bucket.addr ∨
      bucket.next ≠ 0) := by
    rw [head, next]
    simp
  unfold freeSmall
  dsimp only
  rw [updateBucket_eq_self ok.unique member same, same, if_pos empty]
  unfold releaseBucket
  rw [index]
  exact if_neg keep

/-! ## A bucket with live blocks -/

/-- The header of a bucket with a positive counter changes or goes. -/
theorem not_mem_freeSmall
    (unique : KeyedList.Unique Bucket.addr gpa.buckets)
    (member : bucket ∈ gpa.buckets) (used : 0 < bucket.usedCount) :
    bucket ∉ (freeSmall gpa bucket slot).buckets := by
  have uniqueMid : KeyedList.Unique Bucket.addr
      (gpa.updateBucket bucket.addr (Bucket.release slot)).buckets :=
    unique.update fun _ => rfl
  have counted : bucket ∉
      (gpa.updateBucket bucket.addr (Bucket.release slot)).buckets := by
    intro there
    rcases KeyedList.mem_update.mp there with ⟨source, sourceMember, same⟩
    split_ifs at same with here
    · rw [unique.eq_of_key sourceMember member here] at same
      have counts := congrArg Bucket.usedCount same
      simp only [Bucket.release, used, if_true] at counts
      omega
    · exact here (congrArg Bucket.addr same)
  have dropped : ∀ idx, bucket ∉
      ((gpa.updateBucket bucket.addr (Bucket.release slot)).dropBucket idx
        (bucket.release slot)).buckets := by
    intro idx there
    have addr := List.mem_map_of_mem (f := Bucket.addr) there
    rw [dropBucket_map Bucket.addr fun _ _ _ => rfl] at addr
    rcases List.mem_map.mp addr with ⟨item, itemMember, same⟩
    exact uniqueMid.key_ne_of_mem_erase itemMember same
  unfold freeSmall
  dsimp only
  split_ifs with none
  · unfold releaseBucket
    split
    · exact counted
    · split_ifs
      · exact dropped _
      · exact counted
  · exact counted

/-! ## The second free -/

/-- A second free is harmless where it finds an empty bucket or nothing. -/
theorem gpaFree_eq_self
    (ok : Ok gpa lists nodes) (alone : Alone gpa lists)
    (holds : Holds gpa live)
    (gone : mem.ptr ∉ live.map Slice.ptr)
    (vacant : ∀ bucket ∈ gpa.buckets,
      bucket.Contains mem.ptr → bucket.usedCount = 0) :
    gpaFree gpa mem = gpa := by
  unfold gpaFree
  by_cases null : mem.ptr = 0
  · exact if_pos null
  · rw [if_neg null]
    cases found : gpa.findBucket mem.ptr with
    | some bucket =>
        rcases ok.linked.mem_of_findBucket found with ⟨member, contains⟩
        exact freeSmall_of_vacant ok alone member
          (vacant bucket member contains) _
    | none =>
        dsimp only
        cases large : gpa.findLarge mem.ptr with
        | none => rfl
        | some record =>
            rcases ok.recorded.mem_of_findLarge large with
              ⟨member, start⟩
            have valid : record.slice.ptr ≠ 0 := by
              rw [start]
              exact null
            exfalso
            apply gone
            rw [← start]
            exact List.mem_map_of_mem (holds.records record member valid)

/-- A second free that finds a bucket in use changes its header. -/
theorem not_mem_gpaFree
    (ok : Ok gpa lists nodes) (member : bucket ∈ gpa.buckets)
    (contains : bucket.Contains mem.ptr) (used : 0 < bucket.usedCount) :
    bucket ∉ (gpaFree gpa mem).buckets := by
  have valid : mem.ptr ≠ 0 := by
    have bounds := (ok.contains_iff member).mp contains
    unfold bucketData bucketHeaderSize at bounds
    omega
  unfold gpaFree
  rw [if_neg valid, ok.findBucket_of_contains member contains]
  exact not_mem_freeSmall ok.unique member used

/-! ## Traces -/

/-- The world of a trace is the world of a run. -/
theorem Traced.invariant {backing : Backing} {bucketSize : Nat}
    {trace : Trace} (bounded : bucketSize ≤ requestLimit)
    (traced : Traced backing bucketSize trace) :
    Invariant trace.world ∧
      ∀ mem ∈ trace.freed,
        mem.ptr ∉ trace.world.live.map Slice.ptr := by
  apply Reachable.invariant (fun trace : Trace =>
    Invariant trace.world ∧ ∀ mem ∈ trace.freed,
      mem.ptr ∉ trace.world.live.map Slice.ptr) _ _ traced
  · rintro start rfl
    refine ⟨create_invariant backing bounded, ?_⟩
    intro mem member
    cases member
  · intro trace call holds permitted
    refine ⟨(step_safe holds.1 permitted).1.invariant, ?_⟩
    intro mem member
    have kept := (List.mem_filter.mp member).2
    exact of_decide_eq_true kept

/--
In every reachable state and for every block that was freed and not handed
out again, a second free with the same slice changes nothing if and only if
no bucket with live blocks contains its address.
-/
theorem gpa_double_free
    (backing : Backing) (bucketSize : Nat)
    (bounded : bucketSize ≤ requestLimit)
    (trace : Trace) (traced : Traced backing bucketSize trace)
    (mem : Slice) (freed : mem ∈ trace.freed) :
    gpaFree trace.world.state mem = trace.world.state ↔
      ∀ bucket ∈ trace.world.state.buckets,
        bucket.Contains mem.ptr → bucket.usedCount = 0 := by
  rcases Traced.invariant bounded traced with
    ⟨⟨⟨lists, nodes, ok, alone⟩, holds⟩, gone⟩
  constructor
  · intro same bucket member contains
    by_contra used
    apply not_mem_gpaFree ok member contains (Nat.pos_of_ne_zero used)
    rw [same]
    exact member
  · exact gpaFree_eq_self ok alone holds (gone mem freed)

/-- The first of two blocks of one bucket was freed. -/
def firstFreed : Trace :=
  Trace.step
    (Trace.step
      (Trace.step ⟨gpaCreate oneBucket 64, []⟩ (.alloc ⟨8, 8⟩))
      (.alloc ⟨5, 1⟩))
    (.free ⟨4208, 8⟩)

theorem firstFreed_traced : Traced oneBucket 64 firstFreed := by
  unfold firstFreed
  refine Reachable.step (Reachable.step (Reachable.step
    (Reachable.start rfl) ?_) ?_) ?_
  · exact ⟨by decide, by decide⟩
  · exact ⟨by decide, by decide⟩
  · show (⟨4208, 8⟩ : Slice) ∈ _
    decide +kernel

theorem gpa_double_free_firstFreed :
    gpaFree firstFreed.world.state ⟨4208, 8⟩ = firstFreed.world.state ↔
      ∀ bucket ∈ firstFreed.world.state.buckets,
        bucket.Contains 4208 → bucket.usedCount = 0 :=
  gpa_double_free oneBucket 64 (by decide) firstFreed firstFreed_traced
    ⟨4208, 8⟩ (by decide +kernel)

/--
Freeing the first block again takes the counter of the bucket to zero while
the second block is live.
-/
theorem gpa_double_free_uncounts :
    Traced oneBucket 64 firstFreed ∧
      (⟨4208, 8⟩ : Slice) ∈ firstFreed.freed ∧
      firstFreed.world.live = [⟨4216, 5⟩] ∧
      firstFreed.world.state.buckets.map Bucket.usedCount = [1] ∧
      (gpaFree firstFreed.world.state ⟨4208, 8⟩).buckets.map
        Bucket.usedCount = [0] ∧
      gpaFree firstFreed.world.state ⟨4208, 8⟩ ≠
        firstFreed.world.state := by
  have before : firstFreed.world.state.buckets.map Bucket.usedCount =
      [1] := by
    decide +kernel
  have after : (gpaFree firstFreed.world.state ⟨4208, 8⟩).buckets.map
      Bucket.usedCount = [0] := by
    decide +kernel
  refine ⟨firstFreed_traced, by decide +kernel, by decide +kernel,
    before, after, ?_⟩
  intro same
  rw [same, before] at after
  cases after

end Libcute.Memory.GPAllocator
