import Libcute.Memory.Grants
import Libcute.Memory.PageAllocator
import Libcute.Memory.Stacking

/-!
# The allocators of the library as backing allocators

The page allocator keeps the contract of a backing allocator, and the fixed,
arena, slab and general purpose allocators keep it for clients that do not
resize a block to nothing.  `allocators_covered` says it for their runs.
-/

namespace Libcute.Memory

open Libcute.Core.Interface
open Libcute.Core.Size
open Libcute.Library.ByteMemory
open Libcute.Memory.BackingAllocator
open Libcute.Memory.Client
open Libcute.Memory.Stacking

/-! ## Pages -/

namespace PageAllocator

theorem exchange_length {pages after : Pages} {old block : Slice}
    {copy : Slice → Memory → Memory} {layout : Layout}
    (answer : exchange old copy (pageAlloc pages (pages.fullPages layout)) =
      (.ok block, after)) :
    block.ptr ≠ 0 ∧ block.length = pages.alignedSize layout ∧
      0 < block.length := by
  rcases pageAlloc_cases pages (pages.fullPages layout) with
    ⟨error, other, failed, _⟩ | ⟨new, other, mapped, length, maps⟩
  · rw [failed] at answer
    cases answer
  · rw [mapped] at answer
    cases answer
    rw [fullPages_alignedSize] at length
    exact ⟨maps.placed.valid, length, maps.placed.full⟩

theorem le_alignedSize {pages : Pages} {layout : Layout}
    (fits : layout.elemSize < sizeLimit)
    (positive : 0 < pages.alignedSize layout) :
    layout.elemSize ≤ pages.alignedSize layout := by
  by_cases wraps : layout.elemSize + (pages.pageSize - 1) < sizeLimit
  · exact (alignUp_bounds pages.pageSize_pos wraps).1
  · exact absurd (alignUp_wraps pages fits wraps) positive.ne'

theorem page_fulfils {foreign : List Nat} {world : World Pages} {call : Call}
    (invariant : Invariant foreign world) (permitted : Permitted world call)
    {block : Slice} {after : Pages}
    (responds : pageAllocator.respond world.state call =
      some (.ok block, after)) : Fulfils call block := by
  have moved : ∀ old layout copy, layout.elemSize < sizeLimit →
      exchange old copy
          (pageAlloc world.state (world.state.fullPages layout)) =
        (.ok block, after) →
        block = ⟨0, 0⟩ ∧ layout.elemSize = 0 ∨
          block.ptr ≠ 0 ∧ layout.elemSize ≤ block.length := by
    intro old layout copy fits answer
    obtain ⟨valid, length, full⟩ := exchange_length answer
    rw [length] at full ⊢
    exact Or.inr ⟨valid, le_alignedSize fits full⟩
  cases call with
  | alloc layout =>
      have answer := Option.some.inj responds
      have fresh := (invariant.safe.fresh layout block after permitted
        answer).1
      rcases pageAlloc_cases world.state layout with
        ⟨error, other, failed, _⟩ | ⟨new, other, mapped, _, maps⟩
      · change pageAlloc world.state layout = _ at answer
        rw [failed] at answer
        cases answer
      · change pageAlloc world.state layout = _ at answer
        rw [mapped] at answer
        cases answer
        exact ⟨maps.placed.valid, fresh⟩
  | grow old layout =>
      have answer : pageGrow world.state old layout = (.ok block, after) :=
        Option.some.inj responds
      unfold pageGrow at answer
      exact moved old layout _ permitted.2 answer
  | shrink old layout =>
      have answer : pageShrink world.state old layout = (.ok block, after) :=
        Option.some.inj responds
      unfold pageShrink at answer
      exact moved old layout _ permitted.2 answer
  | free mem => trivial
  | write block content => trivial

theorem page_contract (foreign : List Nat) :
    Contract pageAllocator 0 Unchanged Permitted (Invariant foreign) where
  lens _ _ := rfl
  target := by
    rintro world (_ | _ | _ | _ | _) permitted old target <;> cases target
    exacts [permitted.1, permitted.1, permitted, permitted]
  step := step_spec
  unchanged := by
    intro world after _ unchanged block _
    change SameBytes world.state.memory after.memory _ _
    rw [unchanged.memory]
    exact SameBytes.refl _ _ _
  separate invariant :=
    separate_of_disjoint invariant.disjoint fun block member =>
      (invariant.placed block member).full
  valid := by
    intro world invariant block member
    have placed := invariant.placed block member
    refine ⟨placed.valid, ?_⟩
    unfold span
    rw [Nat.max_eq_right placed.full]
    exact placed.fits
  fulfils invariant permitted _ _ responds :=
    page_fulfils invariant permitted responds

end PageAllocator

/-! ## Sizes -/

theorem size_of_requested {call : Call} {layout : Layout}
    (asks : requested call = some layout) : size call = layout.elemSize := by
  cases call <;> cases asks <;> rfl

theorem size_le_length {State : Type} {allocator : Allocator State}
    {state after : State} {call : Call} {block : Slice}
    (enough : ∀ layout, requested call = some layout →
      layout.elemSize ≤ block.length)
    (responds : allocator.respond state call = some (.ok block, after)) :
    size call ≤ block.length := by
  rcases asks_of_respond responds with ⟨layout, asks⟩
  rw [size_of_requested asks]
  exact enough layout asks

/-! ## The buffer -/

namespace FixedAllocator

/-- The permitted calls of the interface. -/
def Allowed (world : World Fixed) (call : Call) : Prop :=
  Permitted world (.call call)

theorem fixed_sound :
    Sound fixedAllocator headerSize Eq Allowed Invariant where
  lens _ _ := rfl
  target := by
    rintro world (_ | _ | _ | _ | _) permitted old target <;> cases target
    exacts [permitted.1, permitted.1, permitted, permitted]
  step invariant permitted :=
    ⟨step_invariant invariant permitted, step_safe invariant permitted⟩
  unchanged := by
    rintro world after _ rfl block _
    exact SameBytes.refl _ _ _
  disjoint invariant := invariant.safe.disjoint
  valid := by
    intro world invariant block member
    have bounds := invariant.bounds member
    have fits := invariant.buffer_fits
    have inside := invariant.safe.inside block member
    have used := invariant.used_le
    unfold headerSize at bounds
    omega
  refused := by
    intro world layout _ _ empty block after answer
    obtain ⟨error, other, refused⟩ := fixed_grants.refused world.state layout
      empty
    rw [refused] at answer
    cases answer
  room := by
    intro world call invariant permitted _ block after responds
    rcases asks_of_respond responds with ⟨layout, asks⟩
    have room := respond_room invariant permitted asks responds
    exact ⟨room.1, by rw [size_of_requested asks]; exact room.2⟩

end FixedAllocator

/-! ## Allocators whose calls have outcomes -/

section Outcomes

variable {State : Type} {allocator : Allocator State} {header : Nat}
  {Unchanged : State → State → Prop} {Holds : World State → Prop}
  {Permitted : World State → Call → Prop}

theorem not_answered_of_empty (grants : Grants allocator.allocFn)
    {state after : State} {layout : Layout} {block : Slice}
    (empty : layout.elemSize = 0) :
    allocator.allocFn state layout ≠ (.ok block, after) := by
  intro answer
  obtain ⟨error, other, refused⟩ := grants.refused state layout empty
  rw [refused] at answer
  cases answer

theorem room_of_outcome (grants : Grants allocator.allocFn)
    {world : World State} {call : Call} {block : Slice} {after : State}
    (sized : Sized call)
    (responds : allocator.respond world.state call = some (.ok block, after))
    (outcome : Outcome allocator header Unchanged Holds world.state world.live
      call.target (.ok block, after))
    (enough : size call ≤ block.length) :
    block.ptr ≠ 0 ∧ size call ≤ block.length := by
  refine ⟨ptr_ne_of_outcome outcome ?_, enough⟩
  intro empty
  rw [empty, Nat.le_zero] at enough
  cases call with
  | alloc layout =>
      exact not_answered_of_empty grants enough (Option.some.inj responds)
  | grow old layout => exact sized enough
  | shrink old layout => exact sized enough
  | free mem => cases responds
  | write block content => cases responds

end Outcomes

/-! ## Chunks -/

namespace ArenaAllocator

theorem arena_sound :
    Sound arenaAllocator headerSize SameArena Permitted Invariant where
  lens _ _ := rfl
  target := by
    rintro world (_ | _ | _ | _ | _) permitted old target <;> cases target
    exacts [permitted.1, permitted.1, permitted, permitted]
  step := step_safe
  unchanged := by
    intro world after _ same block _
    change SameBytes world.state.backing.memory after.backing.memory _ _
    rw [same.memory]
    exact SameBytes.refl _ _ _
  disjoint invariant := invariant.safe.disjoint
  valid := by
    intro world invariant block member
    obtain ⟨chunk, chunkMember, home, low, top⟩ :=
      invariant.holds.extent invariant.chunks member
    have placed := (invariant.holds.valid invariant.chunks member).1
    have bounds := (invariant.chunks.valid chunk chunkMember).2
    have used := invariant.chunks.used_le chunk chunkMember
    unfold Chunk.extent at bounds
    unfold dataOf at top
    exact ⟨placed, by omega⟩
  refused _ _ empty _ _ := not_answered_of_empty arena_grants empty
  room invariant permitted sized _ _ responds :=
    room_of_outcome arena_grants sized responds
      (respond_outcome invariant permitted responds)
      (size_le_length (fun _ asks => respond_length asks responds) responds)

end ArenaAllocator

/-! ## Slabs -/

namespace SlabAllocator

theorem slab_sound :
    Sound slabAllocator headerSize SamePool Permitted Invariant where
  lens _ _ := rfl
  target := by
    rintro world (_ | _ | _ | _ | _) permitted old target <;> cases target
    exacts [permitted.1, permitted.1, permitted, permitted]
  step := step_safe
  unchanged := by
    intro world after invariant same block member
    have kept := invariant.holds.withHeader invariant.slabs
      same.backing.bytes member
    exact SameBytes.inside kept (Nat.sub_le _ _) (by omega)
  disjoint invariant := invariant.safe.disjoint
  valid := by
    intro world invariant block member
    obtain ⟨slab, slabMember, home, inside⟩ := invariant.holds.home member
    obtain ⟨low, high⟩ := invariant.holds.inRun block member
    have fits := invariant.slabs.fits slabMember
    rw [← home] at low high
    have scaled := Nat.mul_le_mul_right world.state.slabSize inside
    unfold headerSize at low
    exact ⟨by omega, by omega⟩
  refused _ _ empty _ _ := not_answered_of_empty slab_grants empty
  room invariant permitted sized _ _ responds :=
    room_of_outcome slab_grants sized responds
      (respond_outcome invariant permitted responds)
      (size_le_length (fun _ asks => respond_length asks responds) responds)

end SlabAllocator

/-! ## Buckets -/

namespace GPAllocator

/-- A permitted call with a layout that `cu_Layout_create` made. -/
def FormedCall (world : World GPA) (call : Call) : Prop :=
  Permitted world call ∧ ∀ layout, requested call = some layout →
    Formed layout

theorem gpa_sound :
    Stacking.Sound gpaAllocator 0 SameGPA FormedCall Invariant where
  lens _ _ := rfl
  target := by
    rintro world (_ | _ | _ | _ | _) ⟨permitted, _⟩ old target <;>
      cases target
    exacts [permitted.1, permitted.1, permitted, permitted]
  step invariant permitted :=
    ⟨(step_safe invariant permitted.1).1.invariant,
      (step_safe invariant permitted.1).2⟩
  unchanged := by
    rintro world after ⟨⟨lists, nodes, ok, alone⟩, holds⟩ same block member
    have kept : KeepsRegions world.state after.backing.memory :=
      fun region inside => ok.hosted.sameBytes same.settled.bytes inside
    exact SameBytes.inside (holds.sameBytes ok kept member) (Nat.sub_le _ _)
      (by omega)
  disjoint invariant := invariant.safe.disjoint
  valid := by
    rintro world ⟨⟨lists, nodes, ok, alone⟩, holds⟩ block member
    obtain ⟨region, inside, low, high⟩ := holds.inside ok member
    have fits := span_le (ok.hosted.valid region inside).2
    refine ⟨holds.valid block member, lt_of_le_of_lt high fits⟩
  refused _ _ empty _ _ := not_answered_of_empty gpa_grants empty
  room invariant permitted sized _ _ responds :=
    room_of_outcome gpa_grants sized responds
      (respond_outcome invariant permitted.1 responds)
      (size_le_length (fun layout asks =>
        respond_length invariant permitted.1
          (fun _ other _ asked _ => permitted.2 other asked) asks responds)
        responds)

end GPAllocator

/-! ## Runs -/

/-- Some backing allocator behaves the same in a run. -/
def Covers {State : Type} (allocator : Allocator State)
    (world : World State) (calls : List Call) : Prop :=
  ∃ answers, Covered allocator world calls
    ⟨world.live, allocator.memory world.state, answers, []⟩

theorem covers_of_contract {State : Type} {allocator : Allocator State}
    {header : Nat} {Unchanged : State → State → Prop}
    {Permitted : World State → Call → Prop} {Holds : World State → Prop}
    (contract : Contract allocator header Unchanged Permitted Holds)
    {world : World State} (holds : Holds world) {calls : List Call}
    (permitted : PermittedRun allocator Permitted world calls) :
    Covers allocator world calls :=
  ⟨answersFor allocator world calls,
    contract.covered holds permitted
      ⟨rfl, fun _ _ => SameBytes.refl _ _ _⟩ rfl⟩

/--
Every run of a new allocator of the library is a run of a backing allocator:
of the page allocator with all permitted calls, and of the others with those
that do not resize a block to nothing.
-/
theorem allocators_covered :
    (∀ sysconf system documented calls, system.mapped.Nodup →
      PermittedRun PageAllocator.pageAllocator PageAllocator.Permitted
          (PageAllocator.pageCreate sysconf system documented) calls →
        Covers PageAllocator.pageAllocator
          (PageAllocator.pageCreate sysconf system documented) calls) ∧
    (∀ buffer memory calls, buffer.finish < sizeLimit →
      PermittedRun FixedAllocator.fixedAllocator
          (SizedCall FixedAllocator.Allowed)
          (FixedAllocator.fixedCreate buffer memory) calls →
        Covers FixedAllocator.fixedAllocator
          (FixedAllocator.fixedCreate buffer memory) calls) ∧
    (∀ backing chunkSize calls,
      PermittedRun ArenaAllocator.arenaAllocator
          (SizedCall ArenaAllocator.Permitted)
          (ArenaAllocator.arenaCreate backing chunkSize) calls →
        Covers ArenaAllocator.arenaAllocator
          (ArenaAllocator.arenaCreate backing chunkSize) calls) ∧
    (∀ backing slabSize calls,
      PermittedRun SlabAllocator.slabAllocator
          (SizedCall SlabAllocator.Permitted)
          (SlabAllocator.slabCreate backing slabSize) calls →
        Covers SlabAllocator.slabAllocator
          (SlabAllocator.slabCreate backing slabSize) calls) ∧
    ∀ backing bucketSize calls, bucketSize ≤ GPAllocator.requestLimit →
      PermittedRun GPAllocator.gpaAllocator
          (SizedCall GPAllocator.FormedCall)
          (GPAllocator.gpaCreate backing bucketSize) calls →
        Covers GPAllocator.gpaAllocator
          (GPAllocator.gpaCreate backing bucketSize) calls := by
  refine ⟨?_, ?_, ?_, ?_, ?_⟩
  · intro sysconf system documented calls nodup
    exact covers_of_contract (PageAllocator.page_contract system.mapped)
      (PageAllocator.create_invariant documented nodup)
  · intro buffer memory calls fits
    exact covers_of_contract FixedAllocator.fixed_sound.contract
      ⟨FixedAllocator.create_invariant memory fits, nofun⟩
  · intro backing chunkSize calls
    exact covers_of_contract ArenaAllocator.arena_sound.contract
      ⟨ArenaAllocator.create_invariant backing chunkSize, nofun⟩
  · intro backing slabSize calls
    exact covers_of_contract SlabAllocator.slab_sound.contract
      ⟨SlabAllocator.create_invariant backing slabSize, nofun⟩
  · intro backing bucketSize calls bounded
    exact covers_of_contract GPAllocator.gpa_sound.contract
      ⟨GPAllocator.create_invariant backing bounded, nofun⟩

/-- A run over pages and one over a chunk. -/
theorem allocators_covered_calls :
    Covers PageAllocator.pageAllocator
        (PageAllocator.pageCreate 4096 PageAllocator.someSystem
          PageAllocator.someSystem_documented)
        [.alloc ⟨5000, 8⟩, .grow ⟨65536, 8192⟩ ⟨9000, 8⟩] ∧
      Covers ArenaAllocator.arenaAllocator
        (ArenaAllocator.arenaCreate ArenaAllocator.oneChunk 64)
        [.alloc ⟨16, 8⟩, .alloc ⟨5, 1⟩] := by
  constructor
  · apply allocators_covered.1
    · decide
    · refine ⟨?_, ⟨?_, ?_⟩, trivial⟩
      · change 5000 < sizeLimit
        decide
      · decide +kernel
      · change 9000 < sizeLimit
        decide
  · apply allocators_covered.2.2.1
    refine ⟨⟨?_, trivial⟩, ⟨?_, trivial⟩, trivial⟩
    · unfold ArenaAllocator.Permitted ArenaAllocator.Arena.SumsFit
      decide
    · unfold ArenaAllocator.Permitted ArenaAllocator.Arena.SumsFit
      decide

end Libcute.Memory
