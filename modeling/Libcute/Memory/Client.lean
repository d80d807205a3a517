import Mathlib.Data.List.Perm.Basic
import Libcute.Core.Interface
import Libcute.Library.ByteMemory
import Libcute.Library.Transition

/-!
# The allocator interface and its clients

`Allocator` is `cu_Allocator` from `allocator.h`: four callbacks over an
implementation state.  A `World` adds the client's side, the list of blocks
it currently holds, each as the slice that was last returned for it.  A
`Call` is one use of the interface, or a write of the client into a block it
holds, and `step` is its effect on the world.

`StepSafe` states what every allocator of the library owes its client for
one call: the other live blocks stay where they are with all their bytes,
grow and shrink carry the common prefix over, and a call that reports an
error changes nothing.  `Serves` states what a call that succeeds returns.
-/

namespace Libcute.Memory.Client

open Libcute.Core.Interface
open Libcute.Library.ByteMemory

/--
`cu_Allocator`.  The state contains the memory the blocks live in, which
the client may write to.
-/
structure Allocator (State : Type) where
  allocFn : State → Layout → Except IoError Slice × State
  growFn : State → Slice → Layout → Except IoError Slice × State
  shrinkFn : State → Slice → Layout → Except IoError Slice × State
  freeFn : State → Slice → State
  memory : State → Memory
  setMemory : State → Memory → State

/-- One use of an allocator by its client. -/
inductive Call where
  | alloc (layout : Layout)
  | grow (old : Slice) (layout : Layout)
  | shrink (old : Slice) (layout : Layout)
  | free (mem : Slice)
  | write (block : Slice) (content : Memory)

/-- The block a call is about. -/
def Call.target : Call → Option Slice
  | .alloc _ => none
  | .grow old _ => some old
  | .shrink old _ => some old
  | .free mem => some mem
  | .write block _ => some block

/-- The layout a call asks for. -/
def requested : Call → Option Layout
  | .alloc layout => some layout
  | .grow _ layout => some layout
  | .shrink _ layout => some layout
  | .free _ => none
  | .write _ _ => none

/-- An allocator state and the blocks its client holds. -/
structure World (State : Type) where
  state : State
  live : List Slice

/-- A null slice denotes no block. -/
def hold (block : Slice) (live : List Slice) : List Slice :=
  if block.ptr = 0 then live else block :: live

/-- The blocks that remain when the target of a call is given up. -/
def release (live : List Slice) : Option Slice → List Slice
  | none => live
  | some old => live.erase old

variable {State : Type}

/-- On success the returned block takes the place of the old one. -/
def World.receive (world : World State) (old : Option Slice) :
    Except IoError Slice × State → World State
  | (.ok block, state) => ⟨state, hold block (release world.live old)⟩
  | (.error _, state) => ⟨state, world.live⟩

theorem World.receive_ok
    (world : World State) (old : Option Slice) {ptr : Nat}
    (length : Nat) (state : State) (valid : ptr ≠ 0) :
    world.receive old (.ok ⟨ptr, length⟩, state) =
      ⟨state, ⟨ptr, length⟩ :: release world.live old⟩ := by
  simp [World.receive, hold, valid]

/-- What a resizing or allocating call answers. -/
def Allocator.respond
    (allocator : Allocator State) (state : State) :
    Call → Option (Except IoError Slice × State)
  | .alloc layout => some (allocator.allocFn state layout)
  | .grow old layout => some (allocator.growFn state old layout)
  | .shrink old layout => some (allocator.shrinkFn state old layout)
  | .free _ => none
  | .write _ _ => none

/-- The effect of one call. -/
def Allocator.step
    (allocator : Allocator State) (world : World State) :
    Call → World State
  | .alloc layout =>
      world.receive none (allocator.allocFn world.state layout)
  | .grow old layout =>
      world.receive (some old) (allocator.growFn world.state old layout)
  | .shrink old layout =>
      world.receive (some old) (allocator.shrinkFn world.state old layout)
  | .free mem => ⟨allocator.freeFn world.state mem, world.live.erase mem⟩
  | .write block content =>
      ⟨allocator.setMemory world.state
        (overwrite (allocator.memory world.state)
          block.ptr block.length content), world.live⟩

/-- The live blocks do not overlap. -/
def Disjoint (live : List Slice) : Prop :=
  live.Pairwise fun left right =>
    Apart left.ptr left.length right.ptr right.length

/--
What one call guarantees.  `header` is the number of bookkeeping bytes in
front of every block, and `Unchanged` says that the bookkeeping of two
states is the same.
-/
structure StepSafe
    (allocator : Allocator State) (header : Nat)
    (Unchanged : State → State → Prop)
    (world : World State) (call : Call) : Prop where
  /-- Every other live block survives with its header and its bytes. -/
  others : ∀ block ∈ world.live, call.target ≠ some block →
    block ∈ (allocator.step world call).live ∧
      SameBytes (allocator.memory world.state)
        (allocator.memory (allocator.step world call).state)
        (block.ptr - header) (header + block.length)
  /-- A resized block starts with the bytes of the old one. -/
  carried : ∀ old block state,
    call.target = some old →
    allocator.respond world.state call = some (.ok block, state) →
      ∀ offset < min old.length block.length,
        allocator.memory state (block.ptr + offset) =
          allocator.memory world.state (old.ptr + offset)
  /-- A call that fails changes nothing. -/
  failure : ∀ error state,
    allocator.respond world.state call = some (.error error, state) →
      (allocator.step world call).live = world.live ∧
        Unchanged world.state (allocator.step world call).state

/--
What a call that succeeds returns: a block with the size that was asked for.
The client holds it, unless the size is 0, and in place of an old block it
starts with the bytes that both sizes have.
-/
structure Serves
    (allocator : Allocator State) (world : World State) (call : Call) :
    Prop where
  enough : ∀ layout block after,
    requested call = some layout →
    allocator.respond world.state call = some (.ok block, after) →
      layout.elemSize ≤ block.length
  held : ∀ layout block after,
    requested call = some layout →
    allocator.respond world.state call = some (.ok block, after) →
      layout.elemSize ≠ 0 → block ∈ (allocator.step world call).live
  common : ∀ old layout block after,
    call.target = some old → requested call = some layout →
    allocator.respond world.state call = some (.ok block, after) →
      ∀ offset < min old.length layout.elemSize,
        allocator.memory after (block.ptr + offset) =
          allocator.memory world.state (old.ptr + offset)

/-- A live block stays live when another one is given up. -/
theorem mem_release {live : List Slice} {block : Slice} {old : Option Slice}
    (member : block ∈ live) (different : old ≠ some block) :
    block ∈ release live old := by
  cases old with
  | none => exact member
  | some old =>
      have distinct : block ≠ old := by
        intro equal
        exact different (congrArg some equal.symm)
      exact (List.mem_erase_of_ne distinct).mpr member

theorem mem_hold {live : List Slice} {block other : Slice}
    (member : other ∈ live) : other ∈ hold block live := by
  unfold hold
  split_ifs
  · exact member
  · exact List.mem_cons_of_mem _ member

theorem perm_release {live : List Slice} {old : Slice}
    (member : old ∈ live) :
    live.Perm (old :: release live (some old)) :=
  List.perm_cons_erase member

/-- A call that is answered hands the answer to the client. -/
theorem step_of_respond
    {allocator : Allocator State} {world : World State} {call : Call}
    {result : Except IoError Slice × State}
    (responds : allocator.respond world.state call = some result) :
    allocator.step world call = world.receive call.target result := by
  cases call with
  | alloc layout =>
      cases responds
      rfl
  | grow old layout =>
      cases responds
      rfl
  | shrink old layout =>
      cases responds
      rfl
  | free mem => cases responds
  | write block content => cases responds

/-- A client never holds a null slice. -/
theorem Allocator.step_valid
    {allocator : Allocator State} {world : World State} {call : Call}
    (valid : ∀ block ∈ world.live, block.ptr ≠ 0) :
    ∀ block ∈ (allocator.step world call).live, block.ptr ≠ 0 := by
  have released : ∀ old, ∀ block ∈ release world.live old,
      block.ptr ≠ 0 := by
    intro old block member
    cases old with
    | none => exact valid block member
    | some old => exact valid block (List.mem_of_mem_erase member)
  have received : ∀ (old : Option Slice)
      (result : Except IoError Slice × State),
      ∀ block ∈ (world.receive old result).live, block.ptr ≠ 0 := by
    rintro old ⟨error | answer, state⟩ block member
    · exact valid block member
    · simp only [World.receive, hold] at member
      split_ifs at member with null
      · exact released old block member
      · rcases List.mem_cons.mp member with rfl | rest
        · exact null
        · exact released old block rest
  cases call with
  | alloc layout => exact received _ _
  | grow old layout => exact received _ _
  | shrink old layout => exact received _ _
  | free mem => exact released (some mem)
  | write block content => exact valid

/-- A block that was allocated is held. -/
theorem Allocator.step_alloc
    {allocator : Allocator State} {world : World State} {layout : Layout}
    {mem : Slice} {after : State}
    (answer : allocator.allocFn world.state layout = (.ok mem, after))
    (valid : mem.ptr ≠ 0) :
    allocator.step world (.alloc layout) = ⟨after, mem :: world.live⟩ := by
  rw [Allocator.step, answer]
  exact World.receive_ok world none mem.length after valid

theorem World.receive_state
    (world : World State) (old : Option Slice)
    (result : Except IoError Slice × State) :
    (world.receive old result).state = result.2 := by
  rcases result with ⟨error | block, state⟩ <;> rfl

/-- What the functions of an allocator make of a state, a call makes of it. -/
theorem Allocator.step_keeps
    {allocator : Allocator State} {Keeps : State → Prop}
    {world : World State} (call : Call)
    (alloc : ∀ layout, call = .alloc layout →
      Keeps (allocator.allocFn world.state layout).2)
    (grow : ∀ old layout, call = .grow old layout →
      Keeps (allocator.growFn world.state old layout).2)
    (shrink : ∀ old layout, call = .shrink old layout →
      Keeps (allocator.shrinkFn world.state old layout).2)
    (free : ∀ mem, call = .free mem →
      Keeps (allocator.freeFn world.state mem))
    (write : ∀ memory, Keeps (allocator.setMemory world.state memory)) :
    Keeps (allocator.step world call).state := by
  cases call with
  | alloc layout =>
      rw [Allocator.step, World.receive_state]
      exact alloc layout rfl
  | grow old layout =>
      rw [Allocator.step, World.receive_state]
      exact grow old layout rfl
  | shrink old layout =>
      rw [Allocator.step, World.receive_state]
      exact shrink old layout rfl
  | free mem => exact free mem rfl
  | write block content => exact write _

/-- The guarantees of an answered call, read off its answer. -/
theorem StepSafe.of_respond
    {allocator : Allocator State} {header : Nat}
    {Unchanged : State → State → Prop}
    {world : World State} {call : Call}
    {result : Except IoError Slice × State}
    (responds : allocator.respond world.state call = some result)
    (others : ∀ block ∈ world.live, call.target ≠ some block →
      SameBytes (allocator.memory world.state) (allocator.memory result.2)
        (block.ptr - header) (header + block.length))
    (carried : ∀ old block,
      call.target = some old → result.1 = .ok block →
        ∀ offset < min old.length block.length,
          allocator.memory result.2 (block.ptr + offset) =
            allocator.memory world.state (old.ptr + offset))
    (failure : ∀ error,
      result.1 = .error error → Unchanged world.state result.2) :
    StepSafe allocator header Unchanged world call := by
  have stepped := step_of_respond responds
  constructor
  · intro block member different
    rw [stepped, World.receive_state]
    refine ⟨?_, others block member different⟩
    rcases result with ⟨error | answer, state⟩
    · exact member
    · exact mem_hold (mem_release member different)
  · intro old block state target answer
    rw [responds] at answer
    cases answer
    exact carried old block target rfl
  · intro error state answer
    rw [responds] at answer
    cases answer
    rw [stepped]
    exact ⟨rfl, failure error rfl⟩

/-- A client write only has to stay clear of the other blocks. -/
theorem StepSafe.of_write
    {allocator : Allocator State} {header : Nat}
    {Unchanged : State → State → Prop}
    {world : World State} {block : Slice} {content : Memory}
    (lens : ∀ state memory,
      allocator.memory (allocator.setMemory state memory) = memory)
    (apart : ∀ other ∈ world.live, block ≠ other →
      Apart block.ptr block.length
        (other.ptr - header) (header + other.length)) :
    StepSafe allocator header Unchanged world (.write block content) where
  others := by
    intro other member different
    refine ⟨member, ?_⟩
    have distinct : block ≠ other :=
      fun equal => different (congrArg some equal)
    simp only [Allocator.step, lens]
    exact overwrite_sameBytes _ _ (apart other member distinct)
  carried := by
    intro old answer state target responds
    cases responds
  failure := by
    intro error state responds
    cases responds

/-- A release only has to leave the other blocks alone. -/
theorem StepSafe.of_free
    {allocator : Allocator State} {header : Nat}
    {Unchanged : State → State → Prop}
    {world : World State} {mem : Slice}
    (others : ∀ block ∈ world.live, mem ≠ block →
      SameBytes (allocator.memory world.state)
        (allocator.memory (allocator.freeFn world.state mem))
        (block.ptr - header) (header + block.length)) :
    StepSafe allocator header Unchanged world (.free mem) where
  others := by
    intro block member different
    have distinct : mem ≠ block :=
      fun equal => different (congrArg some equal)
    exact
      ⟨(List.mem_erase_of_ne distinct.symm).mpr member,
        others block member distinct⟩
  carried := by
    intro old answer state target responds
    cases responds
  failure := by
    intro error state responds
    cases responds

/--
What an answered call can lead to when `Holds` is the invariant of the
allocator: it fails, it hands out a block in place of the old one, or the
old block is given up and nothing takes its place.  In each case the other
live blocks keep their headers and their bytes.
-/
inductive Outcome
    (allocator : Allocator State) (header : Nat)
    (Unchanged : State → State → Prop)
    (Holds : World State → Prop)
    (state : State) (live : List Slice) (old : Option Slice) :
    Except IoError Slice × State → Prop
  | failed (error : IoError) (after : State)
      (same : Unchanged state after)
      (holds : Holds ⟨after, live⟩)
      (others : ∀ other ∈ live, old ≠ some other →
        SameBytes (allocator.memory state) (allocator.memory after)
          (other.ptr - header) (header + other.length)) :
      Outcome allocator header Unchanged Holds state live old
        (.error error, after)
  | answered (block : Slice) (after : State)
      (valid : block.ptr ≠ 0)
      (holds : Holds ⟨after, block :: release live old⟩)
      (others : ∀ other ∈ live, old ≠ some other →
        SameBytes (allocator.memory state) (allocator.memory after)
          (other.ptr - header) (header + other.length))
      (carried : ∀ source, old = some source →
        ∀ offset < min source.length block.length,
          allocator.memory after (block.ptr + offset) =
            allocator.memory state (source.ptr + offset)) :
      Outcome allocator header Unchanged Holds state live old
        (.ok block, after)
  | released (after : State)
      (holds : Holds ⟨after, release live old⟩)
      (others : ∀ other ∈ live, old ≠ some other →
        SameBytes (allocator.memory state) (allocator.memory after)
          (other.ptr - header) (header + other.length)) :
      Outcome allocator header Unchanged Holds state live old
        (.ok ⟨0, 0⟩, after)

/-- An outcome keeps the invariant and gives the guarantees of the call. -/
theorem Outcome.safe
    {allocator : Allocator State} {header : Nat}
    {Unchanged : State → State → Prop}
    {Holds : World State → Prop}
    {world : World State} {call : Call}
    {result : Except IoError Slice × State}
    (responds : allocator.respond world.state call = some result)
    (outcome : Outcome allocator header Unchanged Holds
      world.state world.live call.target result) :
    Holds (allocator.step world call) ∧
      StepSafe allocator header Unchanged world call := by
  constructor
  · rw [step_of_respond responds]
    cases outcome with
    | failed error after same holds others => exact holds
    | answered block after valid holds others carried =>
        rw [World.receive_ok _ _ _ _ valid]
        exact holds
    | released after holds others => exact holds
  · apply StepSafe.of_respond responds
    · cases outcome with
      | failed error after same holds others => exact others
      | answered block after valid holds others carried => exact others
      | released after holds others => exact others
    · intro old block target answer offset inside
      cases outcome with
      | failed error after same holds others => cases answer
      | answered block after valid holds others carried =>
          cases answer
          exact carried old target offset inside
      | released after holds others =>
          cases answer
          simp only [Nat.min_zero, Nat.not_lt_zero] at inside
    · intro error failed
      cases outcome with
      | failed error after same holds others => exact same
      | answered block after valid holds others carried => cases failed
      | released after holds others => cases failed

/-- A block with bytes that an answered call returned has an address. -/
theorem ptr_ne_of_outcome
    {allocator : Allocator State} {header : Nat}
    {Unchanged : State → State → Prop}
    {Holds : World State → Prop}
    {state after : State} {live : List Slice} {old : Option Slice}
    {block : Slice}
    (outcome : Outcome allocator header Unchanged Holds state live old
      (.ok block, after)) (full : block.length ≠ 0) : block.ptr ≠ 0 := by
  cases outcome with
  | answered _ _ valid => exact valid
  | released => exact absurd rfl full

/-- A call that is answered asks for a layout. -/
theorem asks_of_respond
    {allocator : Allocator State} {state : State} {call : Call}
    {result : Except IoError Slice × State}
    (responds : allocator.respond state call = some result) :
    ∃ layout, requested call = some layout := by
  cases call with
  | alloc layout => exact ⟨layout, rfl⟩
  | grow old layout => exact ⟨layout, rfl⟩
  | shrink old layout => exact ⟨layout, rfl⟩
  | free mem => cases responds
  | write block content => cases responds

/-- A safe call serves its client when the block it returns is long enough. -/
theorem StepSafe.serves
    {allocator : Allocator State} {header : Nat}
    {Unchanged : State → State → Prop}
    {world : World State} {call : Call}
    (safe : StepSafe allocator header Unchanged world call)
    (enough : ∀ layout block after,
      requested call = some layout →
      allocator.respond world.state call = some (.ok block, after) →
        layout.elemSize ≤ block.length)
    (valid : ∀ block after,
      allocator.respond world.state call = some (.ok block, after) →
        block.length ≠ 0 → block.ptr ≠ 0) :
    Serves allocator world call where
  enough := enough
  held := by
    intro layout block after asks responds sized
    have long := enough layout block after asks responds
    have address := valid block after responds (by omega)
    rw [step_of_respond responds]
    change block ∈ hold block _
    unfold hold
    rw [if_neg address]
    exact List.mem_cons_self
  common := by
    intro old layout block after target asks responds offset inside
    have long := enough layout block after asks responds
    exact safe.carried old block after target responds offset (by omega)

end Libcute.Memory.Client
