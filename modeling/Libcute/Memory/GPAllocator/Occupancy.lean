import Libcute.Memory.GPAllocator.Frames

/-!
# The buckets that small requests occupy

`cu_gpa_alloc_small` inspects the first bucket of a class and appends a new
one behind the last.  So a request asks for a new bucket as soon as the first
bucket is full, however many slots the others have, and every further block
of the class gets a bucket of its own.

`Opens` says that a call asks for a bucket, and `Filling` describes the runs
in which blocks are only allocated.
-/

namespace Libcute.Memory.GPAllocator

open Libcute.Collection.Bitmap
open Libcute.Core.Interface
open Libcute.Core.NoStd
open Libcute.Core.Size
open Libcute.Library
open Libcute.Library.ByteMemory
open Libcute.Library.Transition
open Libcute.Memory.BackingAllocator
open Libcute.Memory.Client

/-- Every bucket has the number of slots that a new one of its size gets. -/
def Uniform (gpa : GPA) : Prop :=
  ∀ bucket ∈ gpa.buckets,
    bucket.slotCount = gpa.calcSlotCount bucket.objectSize

variable {gpa after : GPA} {lists : Nat → List Nat} {nodes : List Nat}
  {bucket : Bucket} {layout : Layout} {idx size objSize : Nat}

/-! ## The number of slots -/

theorem calcSlotCount_congr (same : after.bucketSize = gpa.bucketSize)
    (objSize : Nat) :
    after.calcSlotCount objSize = gpa.calcSlotCount objSize := by
  unfold GPA.calcSlotCount
  rw [same]

theorem Uniform.later (uniform : Uniform gpa) (none : NoneNew gpa after) :
    Uniform after := by
  intro bucket member
  have earlier := none.frames (List.mem_map_of_mem member)
  rcases List.mem_map.mp earlier with ⟨source, sourceMember, same⟩
  simp only [Bucket.frame, Prod.mk.injEq] at same
  rw [← same.2.1, ← same.2.2, calcSlotCount_congr none.bucketSize]
  exact uniform source sourceMember

namespace Uniform

theorem allocFresh (uniform : Uniform gpa) (size objSize idx : Nat) :
    Uniform (allocFresh gpa size objSize idx).2 := by
  rcases createBucket_eq gpa objSize with
    ⟨backing, answer | ⟨addr, used, answer⟩⟩
  · unfold GPAllocator.allocFresh
    rw [answer]
    exact uniform.later (.of_buckets rfl rfl)
  · unfold GPAllocator.allocFresh
    rw [answer]
    dsimp only
    generalize made : (⟨addr, 0, 0, used, objSize,
      gpa.calcSlotCount objSize, 0⟩ : Bucket) = bucket
    refine Uniform.later ?_ (.takeSlot _ _ _)
    have bucketSize :=
      (appendBucket_frame { gpa with backing } idx bucket).2.2.2
    have every : ∀ item ∈ bucket :: gpa.buckets,
        item.slotCount = gpa.calcSlotCount item.objectSize := by
      refine List.forall_mem_cons.mpr ⟨?_, uniform⟩
      rw [← made]
    intro item member
    rw [calcSlotCount_congr bucketSize]
    refine forall_of_map_eq ?_ every item member
    exact appendBucket_map (fun item : Bucket =>
      item.slotCount = gpa.calcSlotCount item.objectSize) fun _ _ _ => rfl

theorem persists : Persists (fun _ _ => True) Uniform where
  later := fun _ _ uniform none _ => uniform.later none
  fresh := fun _ _ _ uniform _ _ => uniform.allocFresh _ _ _

/-- One call makes only buckets of the right number of slots. -/
theorem step {world : World GPA} (uniform : Uniform world.state)
    (call : Call) : Uniform (gpaAllocator.step world call).state :=
  persists.step uniform (fun _ _ => trivial) fun _ _ _ _ => trivial

end Uniform

/-! ## Asking for a bucket -/

/-- Every bucket of the class is full. -/
def AllFull (gpa : GPA) (idx : Nat) : Prop :=
  ∀ bucket ∈ gpa.buckets, bucket.objectSize = 2 ^ idx →
    bucket.usedCount = bucket.slotCount

/-- The first bucket of the class is full only if every bucket is. -/
def FirstDecides (gpa : GPA) (idx : Nat) : Prop :=
  ∀ first, gpa.bucketAt (gpa.smallBuckets idx) = some first →
    first.usedCount = first.slotCount → AllFull gpa idx

/--
The call turns to the backing allocator, which a request of a class does to
create a bucket.
-/
def Opens (gpa : GPA) (layout : Layout) : Prop :=
  (gpaAlloc gpa layout).2.backing.log ≠ gpa.backing.log

theorem allocFresh_log (gpa : GPA) (size objSize idx : Nat) :
    (allocFresh gpa size objSize idx).2.backing.log ≠
      gpa.backing.log := by
  rcases createBucket_log gpa objSize with ⟨event, logged⟩
  have longer := logged.length_le
  rw [allocFresh_backing]
  intro equal
  rw [equal, List.length_cons] at longer
  exact Nat.not_succ_le_self _ longer

/-- A request asks for a bucket unless the first one has a free slot. -/
theorem opens_iff (small : gpa.classOf layout = some idx) :
    Opens gpa layout ↔
      ∀ first, gpa.bucketAt (gpa.smallBuckets idx) = some first →
        first.usedCount = first.slotCount := by
  unfold Opens
  rw [(gpaAlloc_of_class small).2.2]
  unfold allocSmall
  cases found : gpa.bucketAt (gpa.smallBuckets idx) with
  | none => exact iff_of_true (allocFresh_log _ _ _ _) nofun
  | some first =>
      dsimp only
      by_cases full : first.usedCount = first.slotCount
      · rw [if_pos full]
        refine iff_of_true (allocFresh_log _ _ _ _) ?_
        rintro other ⟨rfl⟩
        exact full
      · rw [if_neg full, takeSlot_backing]
        exact iff_of_false (fun different => different rfl)
          fun every => full (every first rfl)

/-- Without a first bucket there is no bucket of the class. -/
theorem Ok.none_of_head (ok : Ok gpa lists nodes)
    (small : idx < numSmallBuckets)
    (none : gpa.bucketAt (gpa.smallBuckets idx) = none) :
    lists idx = [] ∧ ∀ bucket ∈ gpa.buckets,
      bucket.objectSize ≠ 2 ^ idx := by
  have empty : lists idx = [] := by
    by_contra nonempty
    rcases bucketAt_head ok small nonempty with ⟨first, found, _⟩
    rw [none] at found
    cases found
  refine ⟨empty, ?_⟩
  intro bucket member size
  have inList := ok.linked.mem_of_bucket member small size
  rw [empty] at inList
  cases inList

/-- When a bucket is asked for only if all are full. -/
theorem opens_full_iff (ok : Ok gpa lists nodes)
    (small : idx < numSmallBuckets)
    (served : gpa.classOf layout = some idx) :
    (Opens gpa layout → AllFull gpa idx) ↔ FirstDecides gpa idx := by
  rw [opens_iff served]
  constructor
  · intro opens first found full
    apply opens
    intro other same
    rw [found] at same
    cases same
    exact full
  · intro decides every
    cases found : gpa.bucketAt (gpa.smallBuckets idx) with
    | none =>
        intro bucket member size
        exact ((ok.none_of_head small found).2 bucket member size).elim
    | some first => exact decides first found (every first found)

end Libcute.Memory.GPAllocator
