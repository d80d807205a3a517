import Libcute.Memory.GPAllocator.Classes
import Mathlib.Tactic.IntervalCases

/-!
# The alignment of small blocks

A bucket is obtained with the alignment of its slots, but the slots start
behind the bucket header.  Its 112 bytes are a multiple of 16 and of no
larger power of two, so that every slot of at least 32 bytes is misplaced by
16.  `cu_gpa_alloc_small` drops the alignment of the request, which does not
matter: the class is large enough for it, only the header is in the way.

What the backing allocator answers is read off its log.
-/

namespace Libcute.Memory.GPAllocator

open Libcute.Collection.Bitmap
open Libcute.Core.Interface
open Libcute.Core.NoStd
open Libcute.Core.Size
open Libcute.Library
open Libcute.Library.ByteMemory
open Libcute.Library.Transition
open Libcute.Memory.BackingAccount
open Libcute.Memory.BackingAllocator
open Libcute.Memory.Client

/-- A new block has the alignment that was requested, if there is one. -/
def Aligned : Event → Prop
  | .alloc layout (some block) =>
      layout.alignment ≠ 0 → layout.alignment ∣ block.ptr
  | _ => True

/-- The bucket was obtained with the alignment of its slots. -/
def Bucket.Obtained (log : List Event) (bucket : Bucket) : Prop :=
  ∃ layout length, .alloc layout (some ⟨bucket.addr, length⟩) ∈ log ∧
    layout.alignment = bucket.objectSize

/-- Every bucket was obtained with the alignment of its slots. -/
def Obtained (gpa : GPA) : Prop :=
  ∀ bucket ∈ gpa.buckets, bucket.Obtained gpa.backing.log

variable {gpa after : GPA} {lists : Nat → List Nat} {nodes : List Nat}
  {bucket : Bucket} {layout : Layout} {block : Slice}
  {idx size objSize slot : Nat}

/-! ## The invariant -/

/-- A new bucket is obtained with the alignment of its slots. -/
theorem createBucket_obtained
    (nonzero : objSize ≠ 0)
    (fits : bucketHeaderSize + gpa.calcSlotCount objSize * objSize <
      sizeLimit)
    (created : createBucket gpa objSize = (some bucket, after)) :
    bucket.Obtained after.backing.log := by
  have request : Layout.create
      (bucketHeaderSize + gpa.calcSlotCount objSize * objSize) objSize =
      ⟨bucketHeaderSize + gpa.calcSlotCount objSize * objSize, objSize⟩ :=
    Layout.create_of_pos (by unfold bucketHeaderSize; omega) nonzero
  unfold createBucket at created
  simp only [bucketTotal_eq fits, request] at created
  split at created
  · cases created
  · rename_i mem backing answer
    have logged : .alloc
        ⟨bucketHeaderSize + gpa.calcSlotCount objSize * objSize, objSize⟩
        (some mem) ∈ backing.log := by
      rw [(Accounted.alloc_log answer).2]
      exact List.mem_cons_self
    have kept := bitmapCreate_log backing (gpa.calcSlotCount objSize)
    split at created
    · cases created
    · rename_i used final bits
      cases created
      rw [bits] at kept
      exact ⟨_, mem.length, kept.subset logged, rfl⟩

namespace Obtained

/-- Where a bucket was obtained from is not forgotten. -/
theorem later (obtained : Obtained gpa) (none : NoneNew gpa after)
    (logs : Logs gpa after) : Obtained after := by
  intro bucket member
  have earlier := none.frames (List.mem_map_of_mem member)
  rcases List.mem_map.mp earlier with ⟨source, sourceMember, frame⟩
  simp only [Bucket.frame, Prod.mk.injEq] at frame
  rcases obtained source sourceMember with ⟨layout, length, asked, same⟩
  refine ⟨layout, length, ?_, same.trans frame.2.1⟩
  rw [← frame.1]
  exact logs.subset asked

theorem allocFresh (obtained : Obtained gpa) (nonzero : objSize ≠ 0)
    (fits : bucketHeaderSize + gpa.calcSlotCount objSize * objSize <
      sizeLimit) :
    Obtained (allocFresh gpa size objSize idx).2 := by
  rcases createBucket_log gpa objSize with ⟨event, logged⟩
  have logs := (List.suffix_cons event gpa.backing.log).trans logged
  unfold GPAllocator.allocFresh
  rcases createBucket_eq gpa objSize with
    ⟨backing, created | ⟨addr, used, created⟩⟩
  · rw [created] at logs ⊢
    exact obtained.later (.of_buckets rfl rfl) logs
  · have fresh := createBucket_obtained nonzero fits created
    rw [created] at logs ⊢
    dsimp only
    generalize (⟨addr, 0, 0, used, objSize, gpa.calcSlotCount objSize,
      0⟩ : Bucket) = bucket at fresh ⊢
    have old : Obtained { gpa with backing } :=
      obtained.later (.of_buckets rfl rfl) logs
    have every : ∀ item ∈ bucket :: gpa.buckets,
        item.Obtained backing.log :=
      List.forall_mem_cons.mpr ⟨fresh, old⟩
    have appended :
        Obtained (GPA.appendBucket { gpa with backing } idx bucket) := by
      unfold Obtained
      rw [(appendBucket_frame _ _ _).2.2.1]
      refine forall_of_map_eq ?_ every
      exact appendBucket_map
        (fun item : Bucket => item.Obtained backing.log) fun _ _ _ => rfl
    refine appended.later (.takeSlot _ _ _) ?_
    unfold Logs
    rw [takeSlot_backing]

theorem persists : Persists GPA.SumsFit Obtained where
  later := fun _ _ obtained none logs => obtained.later none logs
  fresh := by
    intro gpa layout idx obtained fits served
    have sized := (classOf_pow fits.1 served).2.1
    refine obtained.allocFresh ?_ fits.2
    rw [sized]
    exact (Nat.two_pow_pos idx).ne'

/-- One call obtains buckets with the alignment of their slots only. -/
theorem step {world : World GPA} {call : Call}
    (obtained : Obtained world.state)
    (valid : ∀ block ∈ world.live, block.ptr ≠ 0)
    (admitted : Admitted world call) :
    Obtained (gpaAllocator.step world call).state := by
  apply persists.step obtained
  · rintro layout rfl
    exact admitted
  · rintro old layout rfl moves
    rcases moves (valid old admitted.1) with ⟨bucket, found, larger⟩
    exact admitted.2 bucket found larger

end Obtained

theorem reached_obtained
    {backing : Backing} {bucketSize : Nat} {world : World GPA}
    (reached : Unwrapped backing bucketSize world) :
    Obtained world.state ∧ ∀ block ∈ world.live, block.ptr ≠ 0 := by
  refine Reachable.invariant (fun world => Obtained world.state ∧
    ∀ block ∈ world.live, block.ptr ≠ 0) ?_ ?_ reached
  · rintro start rfl
    exact ⟨nofun, nofun⟩
  · intro before call holds admitted
    exact ⟨holds.1.step holds.2 admitted, Allocator.step_valid holds.2⟩

/-! ## Addresses -/

/--
In a bucket at a multiple of its slot size, an alignment that divides the
slot size divides the address of a slot exactly if it divides the header.
-/
theorem dvd_slotAddr_iff {exponent : Nat}
    (placed : bucket.objectSize ∣ bucket.addr)
    (sized : bucket.objectSize = 2 ^ idx) (small : idx < numSmallBuckets)
    (divides : exponent ≤ idx) (slot : Nat) :
    2 ^ exponent ∣ bucket.slotAddr slot ↔ 2 ^ exponent ≤ 16 := by
  have bounded : exponent < 16 := Nat.lt_of_le_of_lt divides small
  have power : 2 ^ exponent ∣ bucket.objectSize := by
    rw [sized]
    exact Nat.pow_dvd_pow 2 divides
  have offset : 2 ^ exponent ∣ sizeMul slot bucket.objectSize := by
    have limit : 2 ^ exponent ∣ sizeLimit :=
      Nat.pow_dvd_pow 2 (Nat.le_of_lt (Nat.lt_trans bounded (by decide)))
    exact (Nat.dvd_mod_iff limit).mpr (power.mul_left slot)
  have header : 2 ^ exponent ∣ bucketHeaderSize ↔ 2 ^ exponent ≤ 16 := by
    unfold bucketHeaderSize
    interval_cases exponent <;> decide
  unfold Bucket.slotAddr bucketData
  rw [Nat.dvd_add_left offset, ← header]
  exact Nat.dvd_add_right (power.trans placed)

/-- A large block is what the backing allocator answered. -/
theorem allocLarge_logged {alignment : Nat}
    (answer : allocLarge gpa size alignment = (.ok block, after)) :
    .alloc (Layout.create size alignment) (some block) ∈
      after.backing.log := by
  unfold allocLarge at answer
  split at answer
  · cases answer
  · rename_i mem backing taken
    split at answer
    · cases answer
    · rename_i metaMem final recorded
      cases answer
      rw [(pushLarge_frame _ _ _).2.2.2.1,
        (Accounted.alloc_log recorded).2]
      apply List.mem_cons_of_mem
      rw [(Accounted.alloc_log taken).2]
      exact List.mem_cons_self

/-- A large block has the alignment of the request. -/
theorem allocLarge_aligned {alignment : Nat}
    (nonempty : size ≠ 0) (nonzero : alignment ≠ 0)
    (answer : allocLarge gpa size alignment = (.ok block, after))
    (aligns : ∀ event ∈ after.backing.log, Aligned event) :
    alignment ∣ block.ptr := by
  have logged := allocLarge_logged answer
  rw [Layout.create_of_pos nonempty nonzero] at logged
  exact aligns _ logged nonzero

/--
In every run whose sizes do not wrap, over a backing allocator that respects
the requested alignment, a block of the allocator has its alignment exactly
if it is a large one or the alignment is at most 16.
-/
theorem gpa_aligned_iff
    {backing : Backing} {bucketSize : Nat} {world : World GPA}
    (fresh : backing.log = [])
    (reached : Unwrapped backing bucketSize world)
    (powerOfTwo : ∃ exponent, layout.alignment = 2 ^ exponent)
    (fits : world.state.SumsFit layout)
    (answer : gpaAlloc world.state layout = (.ok block, after))
    (aligns : ∀ event ∈ after.backing.log, Aligned event) :
    layout.alignment ∣ block.ptr ↔
      world.state.classOf layout = none ∨ layout.alignment ≤ 16 := by
  rcases powerOfTwo with ⟨exponent, alignment⟩
  have nonzero : layout.alignment ≠ 0 := by
    rw [alignment]
    exact (Nat.two_pow_pos exponent).ne'
  have requested : requestAlign layout = layout.alignment := if_neg nonzero
  cases served : world.state.classOf layout with
  | none =>
      refine iff_of_true ?_ (Or.inl rfl)
      rcases gpaAlloc_of_none served with refused | large
      · rw [refused] at answer
        cases answer
      · have nonempty : layout.elemSize ≠ 0 := by
          intro empty
          unfold gpaAlloc at answer
          rw [if_pos empty] at answer
          cases answer
        rw [large, requested] at answer
        exact allocLarge_aligned nonempty nonzero answer aligns
  | some idx =>
      rcases (reached_accounts fresh reached).1.framed with
        ⟨lists, nodes, framed⟩
      have obtained : Obtained after := by
        have kept := Obtained.persists.gpaAlloc
          (reached_obtained reached).1 fits
        rw [answer] at kept
        exact kept
      rcases classOf_pow fits.1 served with ⟨small, sized, enough⟩
      have divides : exponent ≤ idx := by
        have larger := (Nat.le_max_right _ _).trans enough
        rw [requested, alignment, sized] at larger
        exact (Nat.pow_le_pow_iff_right (by decide)).mp larger
      rw [(gpaAlloc_of_class served).2.2] at answer
      rcases allocSmall_slot framed small sized answer with
        ⟨bucket, member, slot, inside, same, size⟩
      rcases obtained bucket member with ⟨request, length, logged, asked⟩
      have placed : bucket.objectSize ∣ bucket.addr := by
        rw [← asked]
        apply aligns _ logged
        rw [asked, size, sized]
        exact (Nat.two_pow_pos idx).ne'
      rw [same, alignment,
        dvd_slotAddr_iff placed (size.trans sized) small divides slot]
      exact ⟨Or.inr, fun either => either.resolve_left nofun⟩

/-- The log of a request whose blocks come from one bucket and its bitmap. -/
theorem oneBucket_aligned {log : List Event} {size : Nat}
    (same : log = [.alloc ⟨8, 8⟩ (some ⟨16384, 8⟩),
      .alloc ⟨176, size⟩ (some ⟨4096, 176⟩)])
    (divides : size ∣ 4096) : ∀ event ∈ log, Aligned event := by
  rw [same]
  refine List.forall_mem_cons.mpr ⟨fun _ => by decide, ?_⟩
  exact List.forall_mem_singleton.mpr fun _ => divides

theorem gpa_aligned_iff_twoBlocks :
    8 ∣ 4224 ↔ twoBlocks.state.classOf ⟨8, 8⟩ = none ∨ 8 ≤ 16 := by
  have answered : (gpaAlloc twoBlocks.state ⟨8, 8⟩).1 =
      .ok ⟨4224, 8⟩ := by
    decide +kernel
  have logged : (gpaAlloc twoBlocks.state ⟨8, 8⟩).2.backing.log =
      [.alloc ⟨8, 8⟩ (some ⟨16384, 8⟩),
        .alloc ⟨176, 8⟩ (some ⟨4096, 176⟩)] := by
    decide +kernel
  exact @gpa_aligned_iff _ ⟨8, 8⟩ ⟨4224, 8⟩ oneBucket 64 twoBlocks rfl
    twoBlocks_unwrapped ⟨3, rfl⟩ ⟨by decide, by decide +kernel⟩
    (Prod.ext answered rfl) (oneBucket_aligned logged (by decide))

/--
The first request of an allocator asks for an alignment of 32.  Its bucket
lies at a multiple of 32, and its block does not.
-/
theorem not_aligned_thirtyTwo :
    Unwrapped oneBucket 64 (gpaCreate oneBucket 64) ∧
      (gpaCreate oneBucket 64).state.SumsFit ⟨32, 32⟩ ∧
      (gpaAlloc (gpaCreate oneBucket 64).state ⟨32, 32⟩).1 =
        .ok ⟨4208, 32⟩ ∧
      (∀ event ∈
        (gpaAlloc (gpaCreate oneBucket 64).state ⟨32, 32⟩).2.backing.log,
        Aligned event) ∧
      ¬ 32 ∣ 4208 := by
  have logged :
      (gpaAlloc (gpaCreate oneBucket 64).state ⟨32, 32⟩).2.backing.log =
        [.alloc ⟨8, 8⟩ (some ⟨16384, 8⟩),
          .alloc ⟨176, 32⟩ (some ⟨4096, 176⟩)] := by
    decide +kernel
  exact ⟨Reachable.start rfl, ⟨by decide, by decide +kernel⟩,
    by decide +kernel, oneBucket_aligned logged (by decide), by decide⟩

end Libcute.Memory.GPAllocator
