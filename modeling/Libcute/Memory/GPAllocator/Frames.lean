import Libcute.Memory.GPAllocator.Runs

/-!
# What a call leaves in place

Creating a bucket is the only thing that a call does to the headers apart
from their links, bits and counters: all other steps keep the address and
the slots of a bucket, or give it up.  And nothing is taken out of the log of
the backing allocator.

`Persists` collects the properties that depend on no more than this.  For
such a property it is enough to look at `allocFresh`; `Persists.step` carries
it through all calls.
-/

namespace Libcute.Memory.GPAllocator

open Libcute.Collection.Bitmap
open Libcute.Core.Interface
open Libcute.Core.NoStd
open Libcute.Core.Size
open Libcute.Library
open Libcute.Library.ByteMemory
open Libcute.Memory.BackingAllocator
open Libcute.Memory.Client

/-- The buckets of the state are among those of an earlier one. -/
structure NoneNew (before after : GPA) : Prop where
  frames : after.buckets.map Bucket.frame ⊆
    before.buckets.map Bucket.frame
  bucketSize : after.bucketSize = before.bucketSize

/-- Nothing is taken out of the log. -/
def Logs (before after : GPA) : Prop :=
  before.backing.log <:+ after.backing.log

variable {gpa after : GPA} {bucket : Bucket} {layout : Layout} {idx : Nat}

/-! ## Classes -/

/-- The class that serves a request; a large request has none. -/
def GPA.classOf (gpa : GPA) (layout : Layout) : Option Nat :=
  if layout.elemSize = 0 ∨ gpa.bucketSize < objSizeFor layout then
    none
  else
    indexFromSize (objSizeFor layout)

/-- A request of a class is served from the buckets of the class. -/
theorem gpaAlloc_of_class (small : gpa.classOf layout = some idx) :
    layout.elemSize ≠ 0 ∧ objSizeFor layout ≤ gpa.bucketSize ∧
      gpaAlloc gpa layout =
        allocSmall gpa layout.elemSize (objSizeFor layout) idx := by
  unfold GPA.classOf at small
  split_ifs at small with other
  rw [not_or, Nat.not_lt] at other
  refine ⟨other.1, other.2, ?_⟩
  unfold gpaAlloc
  rw [if_neg other.1, small]
  exact if_neg (Nat.not_lt.mpr other.2)

/-- All other requests are refused or passed on. -/
theorem gpaAlloc_of_none (none : gpa.classOf layout = none) :
    gpaAlloc gpa layout = (.error .invalidInput, gpa) ∨
      gpaAlloc gpa layout =
        allocLarge gpa layout.elemSize (requestAlign layout) := by
  unfold gpaAlloc
  by_cases empty : layout.elemSize = 0
  · exact Or.inl (if_pos empty)
  · rw [if_neg empty]
    right
    by_cases large : gpa.bucketSize < objSizeFor layout
    · cases indexFromSize (objSizeFor layout) with
      | none => rfl
      | some idx => exact if_pos large
    · unfold GPA.classOf at none
      rw [if_neg (not_or.mpr ⟨empty, large⟩)] at none
      rw [none]

/-- The slots of the class have the rounded size. -/
theorem classOf_pow
    (need : max layout.elemSize (requestAlign layout) ≤ 2 ^ 63)
    (small : gpa.classOf layout = some idx) :
    idx < numSmallBuckets ∧ objSizeFor layout = 2 ^ idx ∧
      max layout.elemSize (requestAlign layout) ≤ objSizeFor layout := by
  rcases objSizeFor_pow need with ⟨exponent, below, size, _⟩
  unfold GPA.classOf at small
  split_ifs at small
  rw [size, indexFromSize_pow below] at small
  split_ifs at small with few
  cases small
  exact ⟨few, size, le_nextPow2 need⟩

/-- The slots of the class have the size of the request. -/
theorem objSizeFor_of_class (bounded : Bounded layout)
    (small : gpa.classOf layout = some idx) :
    idx < numSmallBuckets ∧ objSizeFor layout = 2 ^ idx ∧
      layout.elemSize ≤ objSizeFor layout := by
  rcases classOf_pow bounded.need small with ⟨few, size, enough⟩
  exact ⟨few, size, (Nat.le_max_left _ _).trans enough⟩

/-! ## Headers -/

namespace NoneNew

theorem of_buckets (buckets : after.buckets = gpa.buckets)
    (bucketSize : after.bucketSize = gpa.bucketSize) :
    NoneNew gpa after := by
  refine ⟨?_, bucketSize⟩
  rw [buckets]
  exact List.Subset.refl _

theorem trans {middle : GPA} (first : NoneNew gpa middle)
    (second : NoneNew middle after) : NoneNew gpa after :=
  ⟨List.Subset.trans second.frames first.frames,
    second.bucketSize.trans first.bucketSize⟩

theorem updateBucket {addr : Nat} {change : Bucket → Bucket}
    (keeps : ∀ bucket, (change bucket).frame = bucket.frame) :
    NoneNew gpa (gpa.updateBucket addr change) := by
  refine ⟨?_, rfl⟩
  rw [frames_updateBucket keeps]
  exact List.Subset.refl _

theorem dropBucket (gpa : GPA) (idx : Nat) (bucket : Bucket) :
    NoneNew gpa (gpa.dropBucket idx bucket) := by
  refine ⟨?_, (unlinkBucket_frame gpa idx bucket).2.2.2⟩
  rw [dropBucket_map Bucket.frame fun _ _ _ => rfl]
  exact (List.eraseP_sublist.map _).subset

theorem takeSlot (gpa : GPA) (bucket : Bucket) (size : Nat) :
    NoneNew gpa (takeSlot gpa bucket size).2 := by
  unfold GPAllocator.takeSlot
  dsimp only
  split_ifs
  · exact of_buckets rfl rfl
  · exact updateBucket (Bucket.frame_take _)

theorem freeSmall (gpa : GPA) (bucket : Bucket) (slot : Nat) :
    NoneNew gpa (freeSmall gpa bucket slot) := by
  have released : NoneNew gpa
      (gpa.updateBucket bucket.addr (Bucket.release slot)) :=
    updateBucket (Bucket.frame_release slot)
  unfold GPAllocator.freeSmall releaseBucket
  dsimp only
  split_ifs
  · split
    · exact released
    · split_ifs
      · exact released.trans (dropBucket _ _ _)
      · exact released
  · exact released

theorem gpaFree (gpa : GPA) (mem : Slice) :
    NoneNew gpa (gpaFree gpa mem) := by
  unfold GPAllocator.gpaFree
  split_ifs
  · exact of_buckets rfl rfl
  · split
    · exact freeSmall _ _ _
    · split
      · rename_i record _
        have frame := unlinkLarge_frame gpa record
        exact of_buckets frame.1 frame.2.2.2
      · exact of_buckets rfl rfl

theorem resizeLarge (gpa : GPA) (record : LargeAlloc)
    (answer : Except IoError Slice × Backing) :
    NoneNew gpa (resizeLarge gpa record answer).2 := by
  rcases answer with ⟨error | resized, backing⟩
  · exact of_buckets rfl rfl
  · exact of_buckets rfl rfl

theorem allocLarge (gpa : GPA) (size alignment : Nat) :
    NoneNew gpa (allocLarge gpa size alignment).2 := by
  unfold GPAllocator.allocLarge
  split
  · exact of_buckets rfl rfl
  · split
    · exact of_buckets rfl rfl
    · rename_i mem _ _ _ metaMem backing _
      have frame := pushLarge_frame { gpa with backing } metaMem.ptr mem
      exact of_buckets frame.1 frame.2.2.2.2

end NoneNew

/-- A new bucket has its header where the backing block is. -/
theorem createBucket_eq (gpa : GPA) (objSize : Nat) :
    ∃ backing, (createBucket gpa objSize = (none, { gpa with backing }) ∨
      ∃ addr used, createBucket gpa objSize =
        (some ⟨addr, 0, 0, used, objSize, gpa.calcSlotCount objSize, 0⟩,
          { gpa with backing })) := by
  unfold createBucket
  dsimp only
  split
  · exact ⟨_, Or.inl rfl⟩
  · split
    · exact ⟨_, Or.inl rfl⟩
    · exact ⟨_, Or.inr ⟨_, _, rfl⟩⟩

/-! ## The log -/

namespace Logs

theorem freeSmall (gpa : GPA) (bucket : Bucket) (slot : Nat) :
    Logs gpa (freeSmall gpa bucket slot) := by
  have dropped : ∀ (gpa : GPA) (idx : Nat) (bucket : Bucket),
      Logs gpa (gpa.dropBucket idx bucket) := by
    intro gpa idx bucket
    unfold Logs
    rw [dropBucket_backing]
    unfold bitmapDestroy
    split_ifs
    · exact List.suffix_cons _ _
    · exact (List.suffix_cons _ _).trans (List.suffix_cons _ _)
  unfold GPAllocator.freeSmall releaseBucket
  dsimp only
  split_ifs
  · split
    · exact List.suffix_refl _
    · split_ifs
      · exact dropped (gpa.updateBucket bucket.addr (Bucket.release slot))
          _ _
      · exact List.suffix_refl _
  · exact List.suffix_refl _

theorem gpaFree (gpa : GPA) (mem : Slice) : Logs gpa (gpaFree gpa mem) := by
  unfold GPAllocator.gpaFree
  split_ifs
  · exact List.suffix_refl _
  · split
    · exact freeSmall _ _ _
    · split
      · exact (List.suffix_cons _ _).trans (List.suffix_cons _ _)
      · exact List.suffix_refl _

theorem resizeLarge (gpa : GPA) (record : LargeAlloc)
    (event : Option Slice → Event) (old : Slice) (layout : Layout) :
    Logs gpa (resizeLarge gpa record
      (gpa.backing.resize event old layout)).2 := by
  rcases gpa.backing.resize_log event old layout with ⟨answer, logged⟩
  unfold Logs
  generalize gpa.backing.resize event old layout = result at logged ⊢
  have longer : gpa.backing.log <:+ result.2.log := by
    rw [logged]
    exact List.suffix_cons _ _
  rcases result with ⟨error | resized, backing⟩
  · exact longer
  · exact longer

theorem allocLarge (gpa : GPA) (size alignment : Nat) :
    Logs gpa (allocLarge gpa size alignment).2 := by
  have asked : ∀ (backing : Backing) layout,
      backing.log <:+ (backing.alloc layout).2.log := by
    intro backing layout
    rcases backing.alloc_log layout with ⟨answer, logged⟩
    rw [logged]
    exact List.suffix_cons _ _
  have first := asked gpa.backing (Layout.create size alignment)
  unfold Logs GPAllocator.allocLarge
  generalize gpa.backing.alloc (Layout.create size alignment) = result
    at first ⊢
  rcases result with ⟨error | mem, backing⟩
  · exact first
  · have second := first.trans
      (asked backing (Layout.create largeAllocSize 8))
    dsimp only at second ⊢
    generalize backing.alloc (Layout.create largeAllocSize 8) = recorded
      at second ⊢
    rcases recorded with ⟨error | metaMem, final⟩
    · exact second.trans (List.suffix_cons _ _)
    · dsimp only
      rw [(pushLarge_frame _ _ _).2.2.2.1]
      exact second

end Logs

theorem takeSlot_backing (gpa : GPA) (bucket : Bucket) (size : Nat) :
    (takeSlot gpa bucket size).2.backing = gpa.backing := by
  unfold takeSlot
  dsimp only
  split_ifs
  · rfl
  · rfl

/-- Creating a bucket is recorded by the backing allocator. -/
theorem createBucket_log (gpa : GPA) (objSize : Nat) :
    ∃ event, event :: gpa.backing.log <:+
      (createBucket gpa objSize).2.backing.log := by
  unfold createBucket
  dsimp only
  generalize Layout.create
    (sizeAdd bucketHeaderSize
      (sizeMul (gpa.calcSlotCount objSize) objSize)) objSize = layout
  rcases gpa.backing.alloc_log layout with ⟨answer, asked⟩
  refine ⟨.alloc layout answer, ?_⟩
  rw [← asked]
  generalize gpa.backing.alloc layout = result
  rcases result with ⟨error | mem, backing⟩
  · exact List.suffix_refl _
  · have kept := bitmapCreate_log backing (gpa.calcSlotCount objSize)
    dsimp only
    generalize bitmapCreate backing (gpa.calcSlotCount objSize) = made
      at kept ⊢
    rcases made with ⟨_ | bits, final⟩
    · exact kept.trans (List.suffix_cons _ _)
    · exact kept

theorem allocFresh_backing (gpa : GPA) (size objSize idx : Nat) :
    (allocFresh gpa size objSize idx).2.backing =
      (createBucket gpa objSize).2.backing := by
  unfold allocFresh
  split
  · rename_i answer
    rw [answer]
  · rename_i answer
    rw [answer, takeSlot_backing]
    exact (appendBucket_frame _ _ _).2.2.1

/-! ## Properties that persist -/

/--
The property survives every step that creates no bucket, and creating one
for a request of a class that is allowed.
-/
structure Persists (Allowed : GPA → Layout → Prop) (Holds : GPA → Prop) :
    Prop where
  later : ∀ before after, Holds before → NoneNew before after →
    Logs before after → Holds after
  fresh : ∀ gpa layout idx, Holds gpa → Allowed gpa layout →
    gpa.classOf layout = some idx →
      Holds (allocFresh gpa layout.elemSize (objSizeFor layout) idx).2

/-- The call of `cu_gpa_grow` needs a new block. -/
def Moves (gpa : GPA) (old : Slice) (layout : Layout) : Prop :=
  old.ptr ≠ 0 → ∃ bucket, gpa.findBucket old.ptr = some bucket ∧
    bucket.objectSize < layout.elemSize

namespace Persists

variable {Allowed : GPA → Layout → Prop} {Holds : GPA → Prop}

theorem takeSlot (persists : Persists Allowed Holds) (holds : Holds gpa)
    (bucket : Bucket) (size : Nat) :
    Holds (takeSlot gpa bucket size).2 := by
  refine persists.later _ _ holds (.takeSlot _ _ _) ?_
  unfold Logs
  rw [takeSlot_backing]

theorem gpaFree (persists : Persists Allowed Holds) (holds : Holds gpa)
    (mem : Slice) : Holds (gpaFree gpa mem) :=
  persists.later _ _ holds (.gpaFree _ mem) (.gpaFree _ mem)

theorem resizeLarge (persists : Persists Allowed Holds)
    (holds : Holds gpa) (record : LargeAlloc)
    (event : Option Slice → Event) (old : Slice) (layout : Layout) :
    Holds (resizeLarge gpa record
      (gpa.backing.resize event old layout)).2 :=
  persists.later _ _ holds (.resizeLarge _ _ _) (.resizeLarge _ _ _ _ _)

theorem withMemory (persists : Persists Allowed Holds)
    (holds : Holds gpa) (memory : Memory) :
    Holds (gpa.withMemory memory) :=
  persists.later _ _ holds (.of_buckets rfl rfl) (List.suffix_refl _)

theorem gpaAlloc (persists : Persists Allowed Holds) (holds : Holds gpa)
    (allowed : Allowed gpa layout) : Holds (gpaAlloc gpa layout).2 := by
  cases served : gpa.classOf layout with
  | none =>
      rcases gpaAlloc_of_none served with answer | answer
      · rw [answer]
        exact holds
      · rw [answer]
        exact persists.later _ _ holds (.allocLarge _ _ _)
          (.allocLarge _ _ _)
  | some idx =>
      rw [(gpaAlloc_of_class served).2.2]
      unfold allocSmall
      split
      · exact persists.fresh _ _ _ holds allowed served
      · split_ifs
        · exact persists.fresh _ _ _ holds allowed served
        · exact persists.takeSlot holds _ _

theorem gpaGrow (persists : Persists Allowed Holds) (holds : Holds gpa)
    {old : Slice} (allowed : Moves gpa old layout → Allowed gpa layout) :
    Holds (gpaGrow gpa old layout).2 := by
  unfold GPAllocator.gpaGrow
  split_ifs with null
  · exact persists.gpaAlloc holds
      (allowed fun nonnull => (nonnull null).elim)
  · split
    · split
      · exact holds
      · exact persists.resizeLarge holds _ _ _ _
    · rename_i bucket found
      split_ifs with inside
      · exact holds
      · have later := persists.gpaAlloc holds
          (allowed fun _ => ⟨bucket, found, Nat.lt_of_not_le inside⟩)
        split
        · rename_i answer
          rw [answer] at later
          exact later
        · rename_i new grown answer
          rw [answer] at later
          exact persists.gpaFree (persists.withMemory later
            (smemcpy grown.backing.memory new old)) old

theorem gpaShrink (persists : Persists Allowed Holds) (holds : Holds gpa)
    (old : Slice) (layout : Layout) : Holds (gpaShrink gpa old layout).2 := by
  unfold GPAllocator.gpaShrink
  split_ifs
  · exact holds
  · split
    · split
      · exact holds
      · exact persists.resizeLarge holds _ _ _ _
    · exact holds

/-- One call whose requests are allowed keeps the property. -/
theorem step {world : World GPA} {call : Call}
    (persists : Persists Allowed Holds) (holds : Holds world.state)
    (alloc : ∀ layout, call = .alloc layout →
      Allowed world.state layout)
    (grow : ∀ old layout, call = .grow old layout →
      Moves world.state old layout → Allowed world.state layout) :
    Holds (gpaAllocator.step world call).state := by
  apply Allocator.step_keeps call
  · exact fun layout same => persists.gpaAlloc holds (alloc layout same)
  · exact fun old layout same =>
      persists.gpaGrow holds (grow old layout same)
  · exact fun old layout _ => persists.gpaShrink holds old layout
  · exact fun mem _ => persists.gpaFree holds mem
  · exact fun memory => persists.withMemory holds memory

end Persists

end Libcute.Memory.GPAllocator
