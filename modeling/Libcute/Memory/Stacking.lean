import Libcute.Memory.BackingAllocator
import Libcute.Memory.Client

/-!
# Allocators as backing allocators

What is proved of the arena, slab and general purpose allocators holds over
every list of answers of a backing allocator.  This file shows that such a
list exists for every allocator that keeps its contract: `Contract.covered`
finds, for every run of calls, answers with which the general backing
allocator gives the same replies and leaves the same bytes in the live
blocks.  An allocator may therefore be stacked on any other one.
-/

namespace Libcute.Memory.Stacking

open Libcute.Core.Interface
open Libcute.Core.Size
open Libcute.Library.ByteMemory
open Libcute.Memory.BackingAllocator
open Libcute.Memory.Client

variable {State : Type} {allocator : Allocator State} {header : Nat}
  {Unchanged : State → State → Prop}
  {Permitted : World State → Call → Prop} {Holds : World State → Prop}
  {world : World State} {call : Call} {backing : Backing}

/-- The general backing allocator, behind the interface. -/
def backingAllocator : Allocator Backing where
  allocFn := Backing.alloc
  growFn := Backing.grow
  shrinkFn := Backing.shrink
  freeFn := Backing.free
  memory := Backing.memory
  setMemory backing memory := { backing with memory }

/-- What the caller of an allocating or resizing call sees. -/
def reply (allocator : Allocator State) (state : State) (call : Call) :
    Option (Except IoError Slice) :=
  (allocator.respond state call).map Prod.fst

/-- What the caller sees in a run. -/
def replies (allocator : Allocator State) :
    World State → List Call → List (Option (Except IoError Slice))
  | _, [] => []
  | world, call :: calls =>
      reply allocator world.state call ::
        replies allocator (allocator.step world call) calls

/-- All calls of a run are permitted. -/
def PermittedRun (allocator : Allocator State)
    (Permitted : World State → Call → Prop) :
    World State → List Call → Prop
  | _, [] => True
  | world, call :: calls =>
      Permitted world call ∧
        PermittedRun allocator Permitted (allocator.step world call) calls

/-- The reply is an error or a block with room for the request. -/
def Fulfils : Call → Slice → Prop
  | .alloc layout, block => block.ptr ≠ 0 ∧ layout.elemSize ≤ block.length
  | .grow _ layout, block => block = ⟨0, 0⟩ ∧ layout.elemSize = 0 ∨
      block.ptr ≠ 0 ∧ layout.elemSize ≤ block.length
  | .shrink _ layout, block => block = ⟨0, 0⟩ ∧ layout.elemSize = 0 ∨
      block.ptr ≠ 0 ∧ layout.elemSize ≤ block.length
  | .free _, _ => True
  | .write _ _, _ => True

/-- What a backing allocator promises for the calls that are permitted. -/
structure Contract (allocator : Allocator State) (header : Nat)
    (Unchanged : State → State → Prop)
    (Permitted : World State → Call → Prop)
    (Holds : World State → Prop) : Prop where
  lens : ∀ state memory,
    allocator.memory (allocator.setMemory state memory) = memory
  target : ∀ {world call}, Permitted world call →
    ∀ old, call.target = some old → old ∈ world.live
  step : ∀ {world call}, Holds world → Permitted world call →
    Holds (allocator.step world call) ∧
      StepSafe allocator header Unchanged world call
  unchanged : ∀ {world after}, Holds world →
    Unchanged world.state after → ∀ block ∈ world.live,
      SameBytes (allocator.memory world.state) (allocator.memory after)
        block.ptr block.length
  separate : ∀ {world}, Holds world → world.live.Pairwise Separate
  valid : ∀ {world}, Holds world → ∀ block ∈ world.live,
    block.ptr ≠ 0 ∧ block.ptr + span block.length < sizeLimit
  fulfils : ∀ {world call}, Holds world → Permitted world call →
    ∀ block after,
      allocator.respond world.state call = some (.ok block, after) →
        Fulfils call block

/-- The answers that one call needs. -/
def answerFor (allocator : Allocator State) (world : World State)
    (call : Call) : List (Except IoError Answer) :=
  match allocator.respond world.state call with
  | none => []
  | some (.error error, _) => [.error error]
  | some (.ok block, after) =>
      [.ok ⟨block.ptr, block.length, allocator.memory after⟩]

/-- The answers that a run needs. -/
def answersFor (allocator : Allocator State) :
    World State → List Call → List (Except IoError Answer)
  | _, [] => []
  | world, call :: calls =>
      answerFor allocator world call ++
        answersFor allocator (allocator.step world call) calls

/-- The backing allocator has the same blocks with the same bytes. -/
structure Agrees (allocator : Allocator State) (world : World State)
    (backing : Backing) : Prop where
  blocks : backing.blocks = world.live
  bytes : ∀ block ∈ world.live,
    SameBytes (allocator.memory world.state) backing.memory block.ptr
      block.length

/-! ## One call -/

/-- Blocks that are separate are named by their addresses. -/
theorem eraseP_ptr {live : List Slice} {old : Slice}
    (separate : live.Pairwise Separate) (member : old ∈ live) :
    (live.eraseP fun block => block.ptr = old.ptr) = live.erase old := by
  induction live with
  | nil => cases member
  | cons block rest induction =>
      rw [List.pairwise_cons] at separate
      rcases List.mem_cons.mp member with rfl | later
      · rw [List.erase_cons_head]
        exact List.eraseP_cons_of_pos (decide_eq_true rfl)
      · have apart := separate.1 old later
        have different : block ≠ old := by
          rintro rfl
          exact apart.ptr_ne rfl
        rw [List.erase_cons_tail (by simpa using different),
          List.eraseP_cons_of_neg (by simpa using apart.ptr_ne),
          induction separate.2 later]

theorem without_eq {old : Slice} (agrees : Agrees allocator world backing)
    (separate : world.live.Pairwise Separate) (member : old ∈ world.live) :
    backing.without old = world.live.erase old := by
  unfold Backing.without
  rw [agrees.blocks]
  exact eraseP_ptr separate member

theorem mem_hold_iff {block other : Slice} {live : List Slice} :
    other ∈ hold block live ↔ block.ptr ≠ 0 ∧ other = block ∨ other ∈ live := by
  unfold hold
  split_ifs with null <;> simp [null]

theorem mem_release_iff {live : List Slice} {other : Slice}
    {target : Option Slice} (separate : live.Pairwise Separate)
    (remains : other ∈ release live target) :
    other ∈ live ∧ target ≠ some other := by
  cases target with
  | none => exact ⟨remains, nofun⟩
  | some old =>
      refine ⟨List.mem_of_mem_erase remains, ?_⟩
      rintro equal
      cases equal
      have nodup : live.Nodup :=
        separate.imp fun apart same => apart.ptr_ne (congrArg Slice.ptr same)
      exact (nodup.mem_erase_iff.mp remains).1 rfl

/-- Live blocks that are apart from a block do not own its bytes. -/
theorem not_owned {others : List Slice} {block : Slice} {offset : Nat}
    (separate : ∀ other ∈ others, Separate block other)
    (inside : offset < block.length) :
    ¬ Owned others (block.ptr + offset) := by
  rintro ⟨other, member, low, high⟩
  have apart := (separate other member).apart
  unfold Apart at apart
  unfold Slice.finish at high
  omega

/-- What one call of the general backing allocator has to show. -/
structure Simulates (allocator : Allocator State) (world : World State)
    (backing : Backing) (call : Call)
    (rest : List (Except IoError Answer)) : Prop where
  reply : reply backingAllocator backing call =
    reply allocator world.state call
  live : (backingAllocator.step ⟨backing, world.live⟩ call).live =
    (allocator.step world call).live
  answers :
    (backingAllocator.step ⟨backing, world.live⟩ call).state.answers = rest
  agrees : Agrees allocator (allocator.step world call)
    (backingAllocator.step ⟨backing, world.live⟩ call).state

variable {rest : List (Except IoError Answer)}

/-- Two memories that agree with a third one agree. -/
theorem SameBytes.join {first second third : Memory} {address length : Nat}
    (left : SameBytes first second address length)
    (right : SameBytes first third address length) :
    SameBytes second third address length :=
  fun offset inside =>
    (right offset inside).trans (left offset inside).symm

/-- Both allocators refuse a request. -/
theorem simulates_failed {error : IoError} {after : State}
    (contract : Contract allocator header Unchanged Permitted Holds)
    (holds : Holds world) (permitted : Permitted world call)
    (agrees : Agrees allocator world backing)
    (responds : allocator.respond world.state call =
      some (.error error, after))
    {refused : Backing}
    (refuses : backingAllocator.respond backing call =
      some (.error error, refused))
    (blocks : refused.blocks = backing.blocks)
    (memory : refused.memory = backing.memory)
    (answers : refused.answers = rest) :
    Simulates allocator world backing call rest := by
  obtain ⟨live, same⟩ :=
    (contract.step holds permitted).2.failure error after responds
  have refusedStep : backingAllocator.step ⟨backing, world.live⟩ call = _ :=
    step_of_respond refuses
  constructor
  · unfold reply
    rw [responds, refuses]
    rfl
  · rw [refusedStep, live]
    rfl
  · rw [refusedStep]
    exact answers
  · rw [refusedStep]
    constructor
    · rw [live]
      exact blocks.trans agrees.blocks
    · rw [live]
      intro block member
      have kept := contract.unchanged holds same block member
      change SameBytes _ refused.memory _ _
      rw [memory]
      exact SameBytes.join kept (agrees.bytes block member)

/-- Both allocators return the same block in place of the old one. -/
theorem simulates_answered {block : Slice} {after : State}
    (contract : Contract allocator header Unchanged Permitted Holds)
    (holds : Holds world) (permitted : Permitted world call)
    (agrees : Agrees allocator world backing)
    (responds : allocator.respond world.state call = some (.ok block, after))
    {given : Backing}
    (gives : backingAllocator.respond backing call = some (.ok block, given))
    (blocks : given.blocks = hold block (release world.live call.target))
    (others : ∀ other ∈ release world.live call.target,
      SameBytes backing.memory given.memory other.ptr other.length)
    (own : block.ptr ≠ 0 → SameBytes (allocator.memory after) given.memory
      block.ptr block.length)
    (answers : given.answers = rest) :
    Simulates allocator world backing call rest := by
  have stepped := step_of_respond responds
  have givenStep : backingAllocator.step ⟨backing, world.live⟩ call = _ :=
    step_of_respond gives
  have live : (allocator.step world call).live =
      hold block (release world.live call.target) := by
    rw [stepped]
    rfl
  constructor
  · unfold reply
    rw [responds, gives]
    rfl
  · rw [givenStep, live]
    rfl
  · rw [givenStep]
    exact answers
  · rw [givenStep]
    constructor
    · rw [live]
      exact blocks
    · rw [live]
      intro other member
      have state : (allocator.step world call).state = after := by
        rw [stepped, World.receive_state]
      change SameBytes _ given.memory _ _
      rcases mem_hold_iff.mp member with ⟨valid, rfl⟩ | remains
      · rw [state]
        exact own valid
      · obtain ⟨there, different⟩ :=
          mem_release_iff (contract.separate holds) remains
        have safe := ((contract.step holds permitted).2.others other there
          different).2
        have kept := safe.inside (Nat.sub_le _ _)
          (show other.ptr + other.length ≤ _ by omega)
        exact SameBytes.join kept
          ((agrees.bytes other there).trans (others other remains))

theorem span_le {block : Slice} {bound : Nat}
    (fits : block.ptr + span block.length < bound) :
    block.ptr + block.length < bound := by
  have one : block.length ≤ span block.length := Nat.le_max_right 1 _
  omega

/-- The contract of a block that was returned in place of the old one. -/
theorem Contract.accepts {block : Slice} {after : State} {size : Nat}
    (contract : Contract allocator header Unchanged Permitted Holds)
    (holds : Holds world) (permitted : Permitted world call)
    (responds : allocator.respond world.state call = some (.ok block, after))
    (valid : block.ptr ≠ 0) (enough : size ≤ block.length)
    (content : Memory) :
    Accepts (release world.live call.target) size
      ⟨block.ptr, block.length, content⟩ := by
  have next := (contract.step holds permitted).1
  have live : (allocator.step world call).live =
      block :: release world.live call.target := by
    rw [step_of_respond responds]
    unfold World.receive hold
    exact if_neg valid
  have separate := contract.separate next
  have bounded := contract.valid next
  rw [live] at separate bounded
  exact ⟨valid, enough, (bounded block List.mem_cons_self).2,
    (List.pairwise_cons.mp separate).1⟩

/-- The answer that comes next. -/
theorem answer_of_cons {answer : Except IoError Answer}
    (answers : backing.answers = answer :: rest) :
    backing.answer = answer := by
  unfold Backing.answer
  rw [answers]
  rfl

theorem simulates_alloc {layout : Layout}
    {result : Except IoError Slice} {after : State}
    (contract : Contract allocator header Unchanged Permitted Holds)
    (holds : Holds world) (permitted : Permitted world (.alloc layout))
    (agrees : Agrees allocator world backing)
    (responds : allocator.respond world.state (.alloc layout) =
      some (result, after))
    (answers : backing.answers =
      answerFor allocator world (.alloc layout) ++ rest) :
    Simulates allocator world backing (.alloc layout) rest := by
  unfold answerFor at answers
  rw [responds] at answers
  cases result with
  | error error =>
      have refuses : backingAllocator.respond backing (.alloc layout) =
          some (.error error, backing.consume (.alloc layout none)) := by
        change some (backing.alloc layout) = _
        unfold Backing.alloc
        rw [answer_of_cons answers]
      exact simulates_failed contract holds permitted agrees responds refuses
        rfl rfl (congrArg List.tail answers)
  | ok block =>
      obtain ⟨valid, enough⟩ :=
        contract.fulfils holds permitted block after responds
      have accepts := contract.accepts holds permitted responds valid enough
        (allocator.memory after)
      change Accepts world.live _ _ at accepts
      rw [← agrees.blocks] at accepts
      have gives : backingAllocator.respond backing (.alloc layout) =
          some (.ok block,
            { backing.consume (.alloc layout (some block)) with
              blocks := block :: backing.blocks
              memory := scramble backing.blocks backing.memory
                (allocator.memory after) }) := by
        change some (backing.alloc layout) = _
        unfold Backing.alloc
        rw [answer_of_cons answers]
        dsimp only
        rw [if_pos accepts]
      refine simulates_answered contract holds permitted agrees responds gives
        ?_ ?_ ?_ (congrArg List.tail answers)
      · change block :: backing.blocks = hold block world.live
        unfold hold
        rw [if_neg valid, agrees.blocks]
      · intro other member
        apply scramble_sameBytes _ _ _ (le_refl _) (le_refl _)
        rw [agrees.blocks]
        exact member
      · intro _ offset inside
        exact if_neg (not_owned accepts.2.2.2 inside)

theorem simulates_resize {old : Slice} {layout : Layout}
    {event : Option Slice → Event}
    {result : Except IoError Slice} {after : State}
    (contract : Contract allocator header Unchanged Permitted Holds)
    (holds : Holds world) (permitted : Permitted world call)
    (agrees : Agrees allocator world backing)
    (target : call.target = some old)
    (resizes : backingAllocator.respond backing call =
      some (backing.resize event old layout))
    (fulfils : ∀ block, Fulfils call block →
      block = ⟨0, 0⟩ ∧ layout.elemSize = 0 ∨
        block.ptr ≠ 0 ∧ layout.elemSize ≤ block.length)
    (responds : allocator.respond world.state call = some (result, after))
    (answers : backing.answers = answerFor allocator world call ++ rest) :
    Simulates allocator world backing call rest := by
  unfold answerFor at answers
  rw [responds] at answers
  have member := contract.target permitted old target
  have without := without_eq agrees (contract.separate holds) member
  have others : release world.live call.target = backing.without old := by
    rw [target, without]
    rfl
  unfold Backing.resize at resizes
  cases result with
  | error error =>
      rw [answer_of_cons answers] at resizes
      exact simulates_failed contract holds permitted agrees responds resizes
        rfl rfl (congrArg List.tail answers)
  | ok block =>
      rw [answer_of_cons answers] at resizes
      dsimp only at resizes
      rcases fulfils block
          (contract.fulfils holds permitted block after responds) with
        ⟨rfl, empty⟩ | ⟨valid, enough⟩
      · rw [if_pos ⟨empty, rfl⟩] at resizes
        refine simulates_answered contract holds permitted agrees responds
          resizes ?_ ?_ ?_ (congrArg List.tail answers)
        · rw [others]
          rfl
        · intro other remains
          rw [others] at remains
          exact scramble_sameBytes _ _ remains (le_refl _) (le_refl _)
        · intro nonnull
          exact absurd rfl nonnull
      · have accepts := contract.accepts holds permitted responds valid enough
          (allocator.memory after)
        rw [others] at accepts
        rw [if_neg fun both => valid both.2, if_pos accepts] at resizes
        refine simulates_answered contract holds permitted agrees responds
          resizes ?_ ?_ ?_ (congrArg List.tail answers)
        · rw [others]
          unfold hold
          rw [if_neg valid]
        · intro other remains
          rw [others] at remains
          exact resized_sameBytes _ _ remains (le_refl _) (le_refl _)
        · intro _ offset inside
          by_cases carried : offset < min old.length block.length
          · have kept := (contract.step holds permitted).2.carried old block
              after target responds offset carried
            rw [kept, ← agrees.bytes old member offset (by omega)]
            exact resized_prefix _ _ accepts.2.2.2 carried
          · change resized _ _ _ _ _ _ = _
            unfold resized
            rw [if_neg (not_owned accepts.2.2.2 inside), if_neg]
            dsimp only
            omega

theorem simulates_free {mem : Slice}
    (contract : Contract allocator header Unchanged Permitted Holds)
    (holds : Holds world) (permitted : Permitted world (.free mem))
    (agrees : Agrees allocator world backing)
    (answers : backing.answers =
      answerFor allocator world (.free mem) ++ rest) :
    Simulates allocator world backing (.free mem) rest := by
  have member := contract.target permitted mem rfl
  refine ⟨rfl, rfl, answers, ?_, ?_⟩
  · exact without_eq agrees (contract.separate holds) member
  · intro other remains
    obtain ⟨there, different⟩ :=
      mem_release_iff (contract.separate holds)
        (show other ∈ release world.live (some mem) from remains)
    have safe := ((contract.step holds permitted).2.others other there
      different).2
    have kept := safe.inside (Nat.sub_le _ _)
      (show other.ptr + other.length ≤ _ by omega)
    exact SameBytes.join kept (agrees.bytes other there)

theorem simulates_write {block : Slice} {content : Memory}
    (contract : Contract allocator header Unchanged Permitted Holds)
    (agrees : Agrees allocator world backing)
    (answers : backing.answers =
      answerFor allocator world (.write block content) ++ rest) :
    Simulates allocator world backing (.write block content) rest := by
  refine ⟨rfl, rfl, answers, agrees.blocks, ?_⟩
  intro other member offset inside
  have same := agrees.bytes other member offset inside
  change overwrite backing.memory _ _ _ _ = allocator.memory
    (allocator.setMemory world.state _) _
  rw [contract.lens]
  unfold overwrite
  rw [same]

/-- Every permitted call is one of the general backing allocator. -/
theorem Contract.simulates
    (contract : Contract allocator header Unchanged Permitted Holds)
    (holds : Holds world) (permitted : Permitted world call)
    (agrees : Agrees allocator world backing)
    (answers : backing.answers = answerFor allocator world call ++ rest) :
    Simulates allocator world backing call rest := by
  cases call with
  | alloc layout =>
      exact simulates_alloc contract holds permitted agrees rfl answers
  | grow old layout =>
      exact simulates_resize contract holds permitted agrees rfl rfl
        (fun _ fulfils => fulfils) rfl answers
  | shrink old layout =>
      exact simulates_resize contract holds permitted agrees rfl rfl
        (fun _ fulfils => fulfils) rfl answers
  | free mem => exact simulates_free contract holds permitted agrees answers
  | write block content => exact simulates_write contract agrees answers

/-! ## Blocks that are not empty -/

/-- The size that a call asks for. -/
def size : Call → Nat
  | .alloc layout => layout.elemSize
  | .grow _ layout => layout.elemSize
  | .shrink _ layout => layout.elemSize
  | .free _ => 0
  | .write _ _ => 0

/-- The call does not resize a block to nothing. -/
def Sized : Call → Prop
  | .alloc _ => True
  | .grow _ layout => layout.elemSize ≠ 0
  | .shrink _ layout => layout.elemSize ≠ 0
  | .free _ => True
  | .write _ _ => True

/-- What the allocators of the library are known to promise. -/
structure Sound (allocator : Allocator State) (header : Nat)
    (Unchanged : State → State → Prop)
    (Permitted : World State → Call → Prop)
    (Holds : World State → Prop) : Prop where
  lens : ∀ state memory,
    allocator.memory (allocator.setMemory state memory) = memory
  target : ∀ {world call}, Permitted world call →
    ∀ old, call.target = some old → old ∈ world.live
  step : ∀ {world call}, Holds world → Permitted world call →
    Holds (allocator.step world call) ∧
      StepSafe allocator header Unchanged world call
  unchanged : ∀ {world after}, Holds world →
    Unchanged world.state after → ∀ block ∈ world.live,
      SameBytes (allocator.memory world.state) (allocator.memory after)
        block.ptr block.length
  disjoint : ∀ {world}, Holds world → Disjoint world.live
  valid : ∀ {world}, Holds world → ∀ block ∈ world.live,
    block.ptr ≠ 0 ∧ block.finish < sizeLimit
  refused : ∀ {world layout}, Holds world →
    Permitted world (.alloc layout) → layout.elemSize = 0 →
      ∀ block after, allocator.allocFn world.state layout ≠ (.ok block, after)
  room : ∀ {world call}, Holds world → Permitted world call → Sized call →
    ∀ block after,
      allocator.respond world.state call = some (.ok block, after) →
        block.ptr ≠ 0 ∧ size call ≤ block.length

/-- A permitted call for a block that is not empty. -/
def SizedCall (Permitted : World State → Call → Prop)
    (world : World State) (call : Call) : Prop :=
  Permitted world call ∧ Sized call

/-- The invariant, and no block is empty. -/
def Full (Holds : World State → Prop) (world : World State) : Prop :=
  Holds world ∧ ∀ block ∈ world.live, 0 < block.length

/-- Blocks that do not overlap and are not empty are separate. -/
theorem separate_of_disjoint {live : List Slice} (disjoint : Disjoint live)
    (full : ∀ block ∈ live, 0 < block.length) :
    live.Pairwise Separate := by
  refine disjoint.imp_of_mem ?_
  intro left right leftMember rightMember apart
  have leftFull := full left leftMember
  have rightFull := full right rightMember
  unfold Separate span
  rw [Nat.max_eq_right leftFull, Nat.max_eq_right rightFull]
  exact apart

theorem Sound.positive
    (sound : Sound allocator header Unchanged Permitted Holds)
    (holds : Holds world) (permitted : SizedCall Permitted world call)
    {block : Slice} {after : State}
    (responds : allocator.respond world.state call =
      some (.ok block, after)) : 0 < block.length := by
  have room := (sound.room holds permitted.1 permitted.2 block after
    responds).2
  cases call with
  | alloc layout =>
      by_cases empty : layout.elemSize = 0
      · exact absurd (Option.some.inj responds)
          (sound.refused holds permitted.1 empty block after)
      · exact lt_of_lt_of_le (Nat.pos_of_ne_zero empty) room
  | grow old layout =>
      exact lt_of_lt_of_le (Nat.pos_of_ne_zero permitted.2) room
  | shrink old layout =>
      exact lt_of_lt_of_le (Nat.pos_of_ne_zero permitted.2) room
  | free mem => cases responds
  | write block content => cases responds

theorem Sound.full
    (sound : Sound allocator header Unchanged Permitted Holds)
    (full : Full Holds world) (permitted : SizedCall Permitted world call) :
    ∀ block ∈ (allocator.step world call).live, 0 < block.length := by
  cases responds : allocator.respond world.state call with
  | none =>
      cases call with
      | alloc layout => cases responds
      | grow old layout => cases responds
      | shrink old layout => cases responds
      | free mem =>
          exact fun block member => full.2 block (List.mem_of_mem_erase member)
      | write block content => exact full.2
  | some result =>
      rw [step_of_respond responds]
      rcases result with ⟨error | answer, after⟩
      · exact full.2
      · intro block member
        rcases mem_hold_iff.mp member with ⟨_, rfl⟩ | remains
        · exact sound.positive full.1 permitted responds
        · exact full.2 block (mem_release_iff
            (separate_of_disjoint (sound.disjoint full.1) full.2) remains).1

/-- Apart from empty blocks the contract is kept. -/
theorem Sound.contract
    (sound : Sound allocator header Unchanged Permitted Holds) :
    Contract allocator header Unchanged (SizedCall Permitted)
      (Full Holds) where
  lens := sound.lens
  target permitted := sound.target permitted.1
  step full permitted :=
    ⟨⟨(sound.step full.1 permitted.1).1, sound.full full permitted⟩,
      (sound.step full.1 permitted.1).2⟩
  unchanged full := sound.unchanged full.1
  separate full := separate_of_disjoint (sound.disjoint full.1) full.2
  valid := by
    intro world full block member
    obtain ⟨valid, fits⟩ := sound.valid full.1 block member
    refine ⟨valid, ?_⟩
    unfold span
    rw [Nat.max_eq_right (full.2 block member)]
    exact fits
  fulfils := by
    intro world call full permitted block after responds
    have room := sound.room full.1 permitted.1 permitted.2 block after responds
    cases call with
    | alloc layout => exact room
    | grow old layout => exact Or.inr room
    | shrink old layout => exact Or.inr room
    | free mem => trivial
    | write block content => trivial

/-! ## Runs -/

/-- A run of calls is one of the general backing allocator. -/
structure Covered (allocator : Allocator State) (world : World State)
    (calls : List Call) (backing : Backing) : Prop where
  replies : replies backingAllocator ⟨backing, world.live⟩ calls =
    replies allocator world calls
  live : (calls.foldl backingAllocator.step ⟨backing, world.live⟩).live =
    (calls.foldl allocator.step world).live
  agrees : Agrees allocator (calls.foldl allocator.step world)
    (calls.foldl backingAllocator.step ⟨backing, world.live⟩).state

theorem Contract.covered
    (contract : Contract allocator header Unchanged Permitted Holds)
    {calls : List Call} (holds : Holds world)
    (permitted : PermittedRun allocator Permitted world calls)
    (agrees : Agrees allocator world backing)
    (answers : backing.answers = answersFor allocator world calls) :
    Covered allocator world calls backing := by
  induction calls generalizing world backing with
  | nil => exact ⟨rfl, rfl, agrees⟩
  | cons call calls induction =>
      have simulates := contract.simulates holds permitted.1 agrees answers
      have later := induction (contract.step holds permitted.1).1 permitted.2
        simulates.agrees simulates.answers
      have same : backingAllocator.step ⟨backing, world.live⟩ call =
          ⟨(backingAllocator.step ⟨backing, world.live⟩ call).state,
            (allocator.step world call).live⟩ := by
        rw [← simulates.live]
      constructor
      · rw [replies, replies, simulates.reply, same, later.replies]
      · rw [List.foldl_cons, List.foldl_cons, same]
        exact later.live
      · rw [List.foldl_cons, List.foldl_cons, same]
        exact later.agrees

end Libcute.Memory.Stacking
