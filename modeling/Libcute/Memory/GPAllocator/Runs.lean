import Libcute.Library.Transition
import Libcute.Memory.GPAllocator.Calls

/-!
# Runs of the general purpose allocator

`gpa_run_safe` is the main result, over every run and every behaviour of the
backing allocator: the lists, the bitmaps and the counters describe exactly
the live blocks, and every call is safe for the client.

A resize of a large block is passed on to the backing allocator as a layout
made by `cu_Layout_create`, which has no size without an alignment, whereas
`cu_gpa_alloc` takes the alignment 0 as 1.  `ResizesFormed` excludes that a
large block is resized to a size without an alignment: such a call succeeds
with a block that is too short.
-/

namespace Libcute.Memory.GPAllocator

open Libcute.Collection.Bitmap
open Libcute.Core.Interface
open Libcute.Core.Size
open Libcute.Library
open Libcute.Library.ByteMemory
open Libcute.Library.LinkedList
open Libcute.Library.Transition
open Libcute.Memory.BackingAllocator
open Libcute.Memory.Client
open Libcute.Memory.HostedRegions

variable {gpa : GPA} {world : World GPA} {block : Slice} {layout : Layout}
  {call : Call}

/-! ## One step -/

theorem free_safe
    (invariant : Invariant world) (member : block ∈ world.live) :
    Sound world.state (gpaAllocator.step world (.free block)) ∧
      StepSafe gpaAllocator 0 SameGPA world (.free block) := by
  rcases invariant with ⟨⟨lists, nodes, ok, alone⟩, holds⟩
  refine ⟨gpaFree_spec ok alone holds member, StepSafe.of_free ?_⟩
  intro other otherMember different
  simp only [gpaAllocator, gpaFree_memory]
  exact SameBytes.refl _ _ _

theorem write_safe
    (invariant : Invariant world) (member : block ∈ world.live)
    (content : Memory) :
    Sound world.state (gpaAllocator.step world (.write block content)) ∧
      StepSafe gpaAllocator 0 SameGPA world (.write block content) := by
  rcases invariant with ⟨⟨lists, nodes, ok, alone⟩, holds⟩
  have lens : ∀ state memory,
      gpaAllocator.memory (gpaAllocator.setMemory state memory) =
        memory :=
    fun _ _ => rfl
  refine ⟨⟨⟨⟨lists, nodes, ?_, alone⟩, ?_⟩, KeepsBuckets.of_eq rfl⟩,
    StepSafe.of_write lens ?_⟩
  · exact ok.withBacking (ok.hosted.congr rfl)
  · exact holds.withBacking _
  · intro other otherMember different
    rw [Nat.sub_zero, Nat.zero_add]
    exact holds.apart ok member otherMember different

/-- One permitted call keeps the invariant and is safe for the client. -/
theorem step_safe
    (invariant : Invariant world) (permitted : Permitted world call) :
    Sound world.state (gpaAllocator.step world call) ∧
      StepSafe gpaAllocator 0 SameGPA world call := by
  have sound := invariant
  rcases invariant with ⟨⟨lists, nodes, ok, alone⟩, holds⟩
  cases call with
  | alloc layout =>
      apply Outcome.safe rfl
      exact gpaAlloc_outcome ok alone holds permitted
  | grow old layout =>
      apply Outcome.safe rfl
      exact gpaGrow_outcome ok alone holds permitted.1 permitted.2
  | shrink old layout =>
      apply Outcome.safe rfl
      exact gpaShrink_outcome ok alone holds permitted.1 permitted.2.1
  | free mem => exact free_safe sound permitted
  | write block content => exact write_safe sound permitted content

/-! ## The size of the answer -/

/-- The layouts that `cu_Layout_create` makes. -/
def Formed (layout : Layout) : Prop :=
  layout.alignment = 0 → layout.elemSize = 0

theorem Formed.create_elemSize (formed : Formed layout) :
    (Layout.create layout.elemSize layout.alignment).elemSize =
      layout.elemSize := by
  by_cases empty : layout.elemSize = 0
  · simp [Layout.create, empty]
  · rw [Layout.create_of_pos empty fun none => empty (formed none)]

theorem backing_alloc_length {backing after : Backing}
    (answer : backing.alloc layout = (.ok block, after)) :
    layout.elemSize ≤ block.length := by
  rcases backing.alloc_cases layout with
    ⟨error, other, failed, rest⟩ | ⟨given, other, answered, _, large, _⟩
  · rw [answer] at failed
    cases failed
  · rw [answer] at answered
    cases answered
    exact large

theorem resizeLarge_length {record : LargeAlloc} {after : GPA}
    {event : Option Slice → Event}
    (answer : resizeLarge gpa record
      (gpa.backing.resize event record.slice layout) =
        (.ok block, after)) :
    layout.elemSize ≤ block.length := by
  rcases gpa.backing.resize_cases event record.slice layout with
    ⟨error, other, resized, rest⟩ | ⟨other, resized, empty, rest⟩ |
    ⟨given, other, resized, _, large, _⟩
  · rw [resized] at answer
    cases answer
  · rw [resized] at answer
    cases answer
    exact empty.le
  · rw [resized] at answer
    cases answer
    exact large

theorem takeSlot_length {bucket : Bucket} {size : Nat} {after : GPA}
    (answer : takeSlot gpa bucket size = (.ok block, after)) :
    block.length = size := by
  unfold takeSlot at answer
  dsimp only at answer
  split_ifs at answer with full
  · cases answer
  · cases answer
    rfl

theorem allocFresh_length {size objSize idx : Nat} {after : GPA}
    (answer : allocFresh gpa size objSize idx = (.ok block, after)) :
    block.length = size := by
  unfold allocFresh at answer
  split at answer
  · cases answer
  · exact takeSlot_length answer

theorem allocSmall_length {size objSize idx : Nat} {after : GPA}
    (answer : allocSmall gpa size objSize idx = (.ok block, after)) :
    block.length = size := by
  unfold allocSmall at answer
  split at answer
  · exact allocFresh_length answer
  · split_ifs at answer with full
    · exact allocFresh_length answer
    · exact takeSlot_length answer

theorem allocLarge_length {size alignment : Nat} {after : GPA}
    (formed : alignment ≠ 0)
    (answer : allocLarge gpa size alignment = (.ok block, after)) :
    size ≤ block.length := by
  unfold allocLarge at answer
  split at answer
  · cases answer
  · rename_i mem backing taken
    split at answer
    · cases answer
    · cases answer
      have large := backing_alloc_length taken
      have made : Formed ⟨size, alignment⟩ :=
        fun none => (formed none).elim
      have kept : (Layout.create size alignment).elemSize = size :=
        made.create_elemSize
      rwa [kept] at large

theorem gpaAlloc_length {after : GPA}
    (answer : gpaAlloc gpa layout = (.ok block, after)) :
    layout.elemSize ≤ block.length := by
  have formed : requestAlign layout ≠ 0 := by
    unfold requestAlign
    split_ifs with none
    · exact Nat.one_ne_zero
    · exact none
  unfold gpaAlloc at answer
  by_cases empty : layout.elemSize = 0
  · rw [empty]
    exact Nat.zero_le _
  · rw [if_neg empty] at answer
    split at answer
    · exact allocLarge_length formed answer
    · split_ifs at answer with large
      · exact allocLarge_length formed answer
      · exact (allocSmall_length answer).ge

theorem gpaGrow_length {old : Slice} {after : GPA}
    (formed : gpa.findBucket old.ptr = none → Formed layout)
    (answer : gpaGrow gpa old layout = (.ok block, after)) :
    layout.elemSize ≤ block.length := by
  unfold gpaGrow at answer
  split_ifs at answer with fresh
  · exact gpaAlloc_length answer
  · split at answer
    · rename_i missing
      split at answer
      · cases answer
      · have large := resizeLarge_length answer
        rwa [(formed missing).create_elemSize] at large
    · split_ifs at answer with fits
      · cases answer
        exact Nat.le_refl _
      · split at answer
        · cases answer
        · rename_i new later taken
          cases answer
          exact gpaAlloc_length taken

theorem gpaShrink_length {old : Slice} {after : GPA}
    (formed : gpa.findBucket old.ptr = none → Formed layout)
    (answer : gpaShrink gpa old layout = (.ok block, after)) :
    layout.elemSize ≤ block.length := by
  unfold gpaShrink at answer
  split_ifs at answer with absent
  · cases answer
  · split at answer
    · rename_i missing
      split at answer
      · cases answer
      · have large := resizeLarge_length answer
        rwa [(formed missing).create_elemSize] at large
    · cases answer
      exact Nat.le_refl _

/-- A large block is resized only to sizes that come with an alignment. -/
def ResizesFormed (world : World GPA) (call : Call) : Prop :=
  ∀ old layout, call.target = some old → requested call = some layout →
    Large world.state old → Formed layout

/-- A successful call returns at least as many bytes as were asked for. -/
theorem respond_length {after : GPA}
    (invariant : Invariant world) (permitted : Permitted world call)
    (formed : ResizesFormed world call)
    (asks : requested call = some layout)
    (answer : gpaAllocator.respond world.state call =
      some (.ok block, after)) :
    layout.elemSize ≤ block.length := by
  rcases invariant with ⟨⟨lists, nodes, ok, alone⟩, holds⟩
  have large : ∀ old ∈ world.live,
      world.state.findBucket old.ptr = none → Large world.state old := by
    intro old member missing
    rcases holds.findLarge_eq ok member missing with
      ⟨record, recordMember, _, same⟩
    exact ⟨record, recordMember, same⟩
  cases call with
  | alloc other =>
      cases asks
      exact gpaAlloc_length (Option.some.inj answer)
  | grow old other =>
      cases asks
      have formed' : world.state.findBucket old.ptr = none → Formed layout :=
        fun missing => formed old layout rfl rfl
          (large old permitted.1 missing)
      exact gpaGrow_length formed' (Option.some.inj answer)
  | shrink old other =>
      cases asks
      have formed' : world.state.findBucket old.ptr = none → Formed layout :=
        fun missing => formed old layout rfl rfl
          (large old permitted.1 missing)
      exact gpaShrink_length formed' (Option.some.inj answer)
  | free mem => cases asks
  | write target content => cases asks

theorem respond_outcome
    (invariant : Invariant world) (permitted : Permitted world call)
    {result : Except IoError Slice × GPA}
    (responds : gpaAllocator.respond world.state call = some result) :
    GPAOutcome world.state world.live call.target result := by
  rcases invariant with ⟨⟨lists, nodes, ok, alone⟩, holds⟩
  cases call with
  | alloc layout =>
      rw [← Option.some.inj responds]
      exact gpaAlloc_outcome ok alone holds permitted
  | grow old layout =>
      rw [← Option.some.inj responds]
      exact gpaGrow_outcome ok alone holds permitted.1 permitted.2
  | shrink old layout =>
      rw [← Option.some.inj responds]
      exact gpaShrink_outcome ok alone holds permitted.1 permitted.2.1
  | free mem => cases responds
  | write block content => cases responds

/-- One permitted call serves the client. -/
theorem step_serves
    (invariant : Invariant world) (permitted : Permitted world call)
    (formed : ResizesFormed world call) : Serves gpaAllocator world call :=
  (step_safe invariant permitted).2.serves
    (fun _ _ _ asks responds =>
      respond_length invariant permitted formed asks responds)
    fun _ _ responds =>
      ptr_ne_of_outcome (respond_outcome invariant permitted responds)

/-! ## Runs -/

/-- The states of all runs over one behaviour of the backing allocator. -/
abbrev Reached (backing : Backing) (bucketSize : Nat) :
    World GPA → Prop :=
  Reachable (· = gpaCreate backing bucketSize) Permitted
    gpaAllocator.step

/-- The scan of a bitmap never ends behind the last slot. -/
structure ScanStops (gpa : GPA) : Prop where
  head : ∀ idx bucket,
    gpa.bucketAt (gpa.smallBuckets idx) = some bucket →
      bucket.usedCount ≠ bucket.slotCount →
        firstClear bucket.used bucket.slotCount 0 ≠ bucket.slotCount
  fresh : ∀ objSize bucket after,
    createBucket gpa objSize = (some bucket, after) →
      firstClear bucket.used bucket.slotCount 0 ≠ bucket.slotCount

/-- What a client can rely on in a state. -/
structure Safe (world : World GPA) : Prop where
  /-- The lists are well formed and run through the buckets of their size. -/
  lists : ∃ lists, BucketLists world.state lists
  /-- Every bucket has the size of one of the lists. -/
  sized : ∀ bucket ∈ world.state.buckets,
    ∃ idx < numSmallBuckets, bucket.objectSize = 2 ^ idx
  /-- The list of the large allocations runs through the records. -/
  recorded : ∃ nodes, LargeList world.state nodes
  /-- The counter of a bucket is the number of its set bits. -/
  counted : ∀ bucket ∈ world.state.buckets,
    bucket.used.bitCount = bucket.slotCount ∧
      bucket.usedCount = bucket.used.indices.card
  /-- The set bits of a bucket are the slots of its live blocks. -/
  exact : ∀ bucket ∈ world.state.buckets, ∀ slot,
    bucket.used.get slot = true ↔
      slot < bucket.slotCount ∧
        ∃ block ∈ world.live, block.ptr = bucket.slotAddr slot
  /-- A live block fits in a slot or is a large allocation. -/
  homed : ∀ block ∈ world.live,
    Small world.state block ∨ Large world.state block
  /-- No two live blocks start at one address. -/
  distinct : (world.live.map Slice.ptr).Nodup
  /-- No two live blocks overlap. -/
  disjoint : Client.Disjoint world.live
  /-- Headers, bitmaps, records and blocks are disjoint backing memory. -/
  hosted : Hosted world.state.regions world.state.backing
  /-- The branch after the scan of a bitmap is not taken. -/
  scan : ScanStops world.state

theorem createBucket_scan {objSize : Nat} {bucket : Bucket} {after : GPA}
    (created : createBucket gpa objSize = (some bucket, after)) :
    firstClear bucket.used bucket.slotCount 0 ≠ bucket.slotCount := by
  have positive := calcSlotCount_pos gpa objSize
  have blank : bucket.slotCount = gpa.calcSlotCount objSize ∧
      bucket.used.get 0 = false := by
    unfold createBucket at created
    dsimp only at created
    split at created
    · cases created
    · split at created
      · cases created
      · rename_i used backing bits
        cases created
        refine ⟨rfl, ?_⟩
        unfold bitmapCreate at bits
        rw [if_neg positive.ne'] at bits
        dsimp only at bits
        split at bits
        · cases bits
        · cases bits
          exact zeroed_get _ _ _
  rw [blank.1]
  cases count : gpa.calcSlotCount objSize with
  | zero =>
      rw [count] at positive
      exact absurd positive (Nat.lt_irrefl 0)
  | succ slots =>
      rw [firstClear, blank.2]
      exact (Nat.succ_ne_zero slots).symm

theorem Invariant.safe (invariant : Invariant world) : Safe world := by
  rcases invariant with ⟨⟨lists, nodes, ok, alone⟩, holds⟩
  constructor
  · exact ⟨lists, ok.linked⟩
  · exact fun bucket member => (ok.each bucket member).sized
  · exact ⟨nodes, ok.recorded⟩
  · exact fun bucket member =>
      ⟨(ok.each bucket member).bitCount,
        (ok.each bucket member).usedCount⟩
  · intro bucket member slot
    have bitCount := (ok.each bucket member).bitCount
    have marked := holds.marked bucket member slot
    constructor
    · intro set
      have inside : slot < bucket.slotCount := by
        by_contra outside
        rw [Bits.get_of_le (by omega)] at set
        cases set
      have there := (marked inside).mp set
      rcases List.mem_map.mp there with ⟨block, blockMember, start⟩
      exact ⟨inside, block, blockMember, start⟩
    · rintro ⟨inside, block, blockMember, start⟩
      rw [marked inside, ← start]
      exact List.mem_map_of_mem blockMember
  · exact holds.homed
  · exact holds.distinct
  · refine (List.pairwise_map.mp holds.distinct).imp_of_mem ?_
    intro left right leftMember rightMember ptrs
    exact holds.apart ok leftMember rightMember
      fun same => ptrs (congrArg Slice.ptr same)
  · exact ok.hosted
  · constructor
    · intro idx bucket found room
      have member := (KeyedList.mem_of_find found).1
      exact ((ok.each bucket member).scan room).1.ne
    · exact fun objSize bucket after created => createBucket_scan created

theorem create_invariant (backing : Backing) {bucketSize : Nat}
    (bounded : bucketSize ≤ requestLimit) :
    Invariant (gpaCreate backing bucketSize) := by
  refine ⟨⟨fun _ => [], [], ⟨?_, ?_, ?_, ?_, ?_, ?_⟩, ?_⟩, ?_⟩
  · simp only [gpaCreate]
    split_ifs with unset
    · decide
    · omega
  · simp only [gpaCreate]
    split_ifs with unset
    · decide
    · exact bounded
  · exact Hosted.nil _
  · simp [gpaCreate]
  · constructor
    · exact fun idx small => Chain.Spells.nil rfl rfl
    · simp [gpaCreate]
  · constructor
    · exact Chain.Spells.nil rfl rfl
    · simp [gpaCreate]
  · intro bucket member
    cases member
  · constructor <;> simp [gpaCreate]

theorem reached_invariant
    {backing : Backing} {bucketSize : Nat}
    (bounded : bucketSize ≤ requestLimit)
    (reached : Reached backing bucketSize world) : Invariant world := by
  have initially : ∀ start,
      start = gpaCreate backing bucketSize → Invariant start := by
    rintro start rfl
    exact create_invariant backing bounded
  exact reached.invariant Invariant initially
    fun _ _ holds permitted => (step_safe holds permitted).1.invariant

/--
In every run with bounded sizes, over every behaviour of the backing
allocator, the lists are well formed and the bitmaps and counters describe
exactly the live blocks.  Every permitted call in a reached state leaves the
other live blocks alone, destroys no bucket with a live block, and changes
nothing if it fails.  It returns a block of the size that was asked for, with
the common prefix of a resized block, unless it resizes a large block to a
size without an alignment.
-/
theorem gpa_run_safe
    (backing : Backing) (bucketSize : Nat)
    (bounded : bucketSize ≤ requestLimit)
    (world : World GPA) (reached : Reached backing bucketSize world) :
    Safe world ∧
      ∀ call, Permitted world call →
        StepSafe gpaAllocator 0 SameGPA world call ∧
          KeepsBuckets world.state (gpaAllocator.step world call) ∧
          (ResizesFormed world call → Serves gpaAllocator world call) := by
  have invariant := reached_invariant bounded reached
  refine ⟨invariant.safe, ?_⟩
  intro call permitted
  rcases step_safe invariant permitted with ⟨sound, safe⟩
  exact ⟨safe, sound.keeps, step_serves invariant permitted⟩

/-- A backing allocator with room for one bucket and its bitmap. -/
def oneBucket : Backing :=
  ⟨[], fun _ => 0,
    [.ok ⟨4096, 176, fun _ => 0⟩, .ok ⟨16384, 8, fun _ => 0⟩], []⟩

/-- A run that allocates two blocks from one bucket of eight slots. -/
def twoBlocks : World GPA :=
  gpaAllocator.step
    (gpaAllocator.step (gpaCreate oneBucket 64) (.alloc ⟨8, 8⟩))
    (.alloc ⟨5, 1⟩)

theorem twoBlocks_reached : Reached oneBucket 64 twoBlocks := by
  unfold twoBlocks
  refine Reachable.step (Reachable.step (Reachable.start rfl) ?_) ?_
  · exact ⟨by decide, by decide⟩
  · exact ⟨by decide, by decide⟩

theorem gpa_run_safe_twoBlocks :
    Safe twoBlocks ∧
      ∀ call, Permitted twoBlocks call →
        StepSafe gpaAllocator 0 SameGPA twoBlocks call ∧
          KeepsBuckets twoBlocks.state
            (gpaAllocator.step twoBlocks call) ∧
          (ResizesFormed twoBlocks call →
            Serves gpaAllocator twoBlocks call) := by
  apply gpa_run_safe oneBucket 64
  · decide
  · exact twoBlocks_reached

example : twoBlocks.live = [⟨4216, 5⟩, ⟨4208, 8⟩] := by
  decide +kernel

/--
A backing allocator with room for a large block and its record.  Asked for a
block without size, it returns one.
-/
def oneLarge : Backing :=
  ⟨[], fun _ => 0,
    [.ok ⟨8192, 100, fun _ => 7⟩, .ok ⟨16384, 32, fun _ => 0⟩,
      .ok ⟨20480, 0, fun _ => 0⟩], []⟩

/-- A run that allocates one large block. -/
def largeBlock : World GPA :=
  gpaAllocator.step (gpaCreate oneLarge 64) (.alloc ⟨100, 8⟩)

theorem largeBlock_reached : Reached oneLarge 64 largeBlock := by
  unfold largeBlock
  exact Reachable.step (Reachable.start rfl) ⟨by decide, by decide⟩

/-- A large block that grows without an alignment is lost. -/
theorem not_serves_largeBlock :
    Reached oneLarge 64 largeBlock ∧
      Permitted largeBlock (.grow ⟨8192, 100⟩ ⟨200, 0⟩) ∧
        (gpaAllocator.respond largeBlock.state
          (.grow ⟨8192, 100⟩ ⟨200, 0⟩)).map Prod.fst =
            some (.ok ⟨20480, 0⟩) ∧
        ¬ Serves gpaAllocator largeBlock (.grow ⟨8192, 100⟩ ⟨200, 0⟩) := by
  have answers : (gpaAllocator.respond largeBlock.state
      (.grow ⟨8192, 100⟩ ⟨200, 0⟩)).map Prod.fst =
        some (.ok ⟨20480, 0⟩) := by
    decide +kernel
  refine ⟨largeBlock_reached, ⟨by decide +kernel, by decide, by decide⟩,
    answers, ?_⟩
  intro serves
  rcases Option.map_eq_some_iff.mp answers with
    ⟨⟨result, after⟩, responds, same⟩
  cases same
  have long := serves.enough ⟨200, 0⟩ ⟨20480, 0⟩ after rfl responds
  exact absurd long (by decide)

end Libcute.Memory.GPAllocator
