import Libcute.Core.Interface
import Libcute.Core.Size
import Libcute.Library.ByteMemory

/-!
# The backing allocator

The arena, slab and general purpose allocators obtain their memory from
another `cu_Allocator`, about which they know only its contract: a call
either fails or returns a block of at least the requested size that does not
overlap any other live block, and resizing keeps the common prefix.

`Backing` is the most general allocator of this kind.  Its future behaviour
is a list of answers chosen by nobody in particular; an answer that breaks
the contract at the moment it is used counts as a failure.  Every run over
every list of answers is therefore a run over a backing allocator that keeps
the contract, and every such allocator is covered by some list.

A block that was resized to zero bytes may keep an address of its own.
Bytes outside the live blocks are never preserved: a successful call gives
them arbitrary values, which covers the contents of a fresh block and the
bookkeeping of the backing allocator itself.
-/

namespace Libcute.Memory.BackingAllocator

open Libcute.Core.Interface
open Libcute.Core.Size
open Libcute.Library.ByteMemory

/-- A block offered by the backing allocator, and the bytes around it. -/
structure Answer where
  ptr : Nat
  length : Nat
  content : Memory

/-- One call of the backing allocator and the block it returned. -/
inductive Event where
  | alloc (layout : Layout) (answer : Option Slice)
  | grow (old : Slice) (layout : Layout) (answer : Option Slice)
  | shrink (old : Slice) (layout : Layout) (answer : Option Slice)
  | free (mem : Slice)
deriving DecidableEq

/-- The live blocks, the bytes, the answers to come and the calls so far. -/
structure Backing where
  blocks : List Slice
  memory : Memory
  answers : List (Except IoError Answer)
  log : List Event

/-- The next answer; when none is left the backing allocator is exhausted. -/
def Backing.answer (backing : Backing) : Except IoError Answer :=
  backing.answers.headD (.error .outOfMemory)

/-- The bytes a block owns; an empty block owns its address. -/
def span (length : Nat) : Nat := max 1 length

/-- The two blocks do not share an address. -/
def Separate (left right : Slice) : Prop :=
  Apart left.ptr (span left.length) right.ptr (span right.length)

instance (left right : Slice) : Decidable (Separate left right) :=
  inferInstanceAs (Decidable (Apart _ _ _ _))

theorem Separate.symm {left right : Slice}
    (separate : Separate left right) : Separate right left :=
  Apart.symm separate

theorem Separate.apart {left right : Slice}
    (separate : Separate left right) :
    Apart left.ptr left.length right.ptr right.length := by
  have one : left.length ≤ span left.length := Nat.le_max_right 1 _
  have two : right.length ≤ span right.length := Nat.le_max_right 1 _
  unfold Separate Apart at *
  omega

theorem Separate.ptr_ne {left right : Slice}
    (separate : Separate left right) : left.ptr ≠ right.ptr := by
  have one : 1 ≤ span left.length := Nat.le_max_left 1 _
  have two : 1 ≤ span right.length := Nat.le_max_left 1 _
  unfold Separate Apart at separate
  omega

/-- The answer meets the contract for a request of `size` bytes. -/
def Accepts (blocks : List Slice) (size : Nat) (answer : Answer) : Prop :=
  answer.ptr ≠ 0 ∧ size ≤ answer.length ∧
    answer.ptr + span answer.length < sizeLimit ∧
    ∀ block ∈ blocks, Separate ⟨answer.ptr, answer.length⟩ block

instance (blocks : List Slice) (size : Nat) (answer : Answer) :
    Decidable (Accepts blocks size answer) :=
  inferInstanceAs (Decidable (_ ∧ _ ∧ _ ∧ _))

/-- The address belongs to one of the blocks. -/
def Owned (blocks : List Slice) (address : Nat) : Prop :=
  ∃ block ∈ blocks, block.ptr ≤ address ∧ address < block.finish

instance (blocks : List Slice) (address : Nat) :
    Decidable (Owned blocks address) :=
  inferInstanceAs (Decidable (∃ block ∈ blocks, _))

/-- Keep the bytes of the blocks and replace all others. -/
def scramble
    (blocks : List Slice) (memory content : Memory) : Memory :=
  fun address =>
    if Owned blocks address then memory address else content address

theorem scramble_sameBytes
    {blocks : List Slice} {block : Slice} {address length : Nat}
    (memory content : Memory)
    (member : block ∈ blocks)
    (lower : block.ptr ≤ address)
    (upper : address + length ≤ block.finish) :
    SameBytes memory (scramble blocks memory content) address length := by
  intro offset inside
  have owned : Owned blocks (address + offset) :=
    ⟨block, member, by omega, by omega⟩
  simp [scramble, owned]

/-- The next answer, recorded or not, is used up. -/
def Backing.consume (backing : Backing) (event : Event) : Backing :=
  { backing with
    answers := backing.answers.tail
    log := event :: backing.log }

/-- `cu_Allocator_Alloc` on the backing allocator. -/
def Backing.alloc (backing : Backing) (layout : Layout) :
    Except IoError Slice × Backing :=
  match backing.answer with
  | .ok answer =>
      if Accepts backing.blocks layout.elemSize answer then
        let block : Slice := ⟨answer.ptr, answer.length⟩
        (.ok block,
          { backing.consume (.alloc layout (some block)) with
            blocks := block :: backing.blocks
            memory :=
              scramble backing.blocks backing.memory answer.content })
      else
        (.error .outOfMemory, backing.consume (.alloc layout none))
  | .error error => (.error error, backing.consume (.alloc layout none))

/-- Every request is logged with its answer. -/
theorem Backing.alloc_log (backing : Backing) (layout : Layout) :
    ∃ answer,
      (backing.alloc layout).2.log =
        .alloc layout answer :: backing.log := by
  unfold Backing.alloc
  cases backing.answer with
  | error error => exact ⟨none, rfl⟩
  | ok answer =>
      dsimp only
      split_ifs
      · exact ⟨some ⟨answer.ptr, answer.length⟩, rfl⟩
      · exact ⟨none, rfl⟩

/-- The live blocks other than the one at `mem`. -/
def Backing.without (backing : Backing) (mem : Slice) : List Slice :=
  backing.blocks.eraseP fun block => block.ptr = mem.ptr

/-- `cu_Allocator_Free` on the backing allocator. -/
def Backing.free (backing : Backing) (mem : Slice) : Backing :=
  { backing with
    blocks := backing.without mem
    log := .free mem :: backing.log }

/--
The bytes after a block was resized: the other blocks keep theirs, and the
new block starts with the bytes of the old one.
-/
def resized
    (others : List Slice) (old new : Slice) (memory content : Memory) :
    Memory :=
  fun address =>
    if Owned others address then
      memory address
    else if new.ptr ≤ address ∧
        address < new.ptr + min old.length new.length then
      memory (old.ptr + (address - new.ptr))
    else
      content address

/--
`cu_Allocator_Grow` and `cu_Allocator_Shrink` on the backing allocator.  The
answer to a request for an empty block may be the null slice.
-/
def Backing.resize (backing : Backing)
    (event : Option Slice → Event) (old : Slice) (layout : Layout) :
    Except IoError Slice × Backing :=
  let others := backing.without old
  match backing.answer with
  | .ok answer =>
      if layout.elemSize = 0 ∧ answer.ptr = 0 then
        let block : Slice := ⟨0, 0⟩
        (.ok block,
          { backing.consume (event (some block)) with
            blocks := others
            memory := scramble others backing.memory answer.content })
      else if Accepts others layout.elemSize answer then
        let block : Slice := ⟨answer.ptr, answer.length⟩
        (.ok block,
          { backing.consume (event (some block)) with
            blocks := block :: others
            memory :=
              resized others old block backing.memory answer.content })
      else
        (.error .outOfMemory, backing.consume (event none))
  | .error error => (.error error, backing.consume (event none))

/-- Every request to resize is logged with its answer. -/
theorem Backing.resize_log (backing : Backing)
    (event : Option Slice → Event) (old : Slice) (layout : Layout) :
    ∃ answer,
      (backing.resize event old layout).2.log =
        event answer :: backing.log := by
  unfold Backing.resize
  cases backing.answer with
  | error error => exact ⟨none, rfl⟩
  | ok answer =>
      dsimp only
      split_ifs
      · exact ⟨some ⟨0, 0⟩, rfl⟩
      · exact ⟨some ⟨answer.ptr, answer.length⟩, rfl⟩
      · exact ⟨none, rfl⟩

def Backing.grow (backing : Backing) (old : Slice) (layout : Layout) :
    Except IoError Slice × Backing :=
  backing.resize (.grow old layout) old layout

def Backing.shrink (backing : Backing) (old : Slice) (layout : Layout) :
    Except IoError Slice × Backing :=
  backing.resize (.shrink old layout) old layout

/-- The block that was obtained last can be given back at once. -/
theorem Backing.free_head
    {backing : Backing} {block mem : Slice} {rest : List Slice}
    (blocks : backing.blocks = block :: rest)
    (same : block.ptr = mem.ptr) :
    (backing.free mem).blocks = rest := by
  simp [Backing.free, Backing.without, blocks, same]

/--
What `cu_Allocator_Alloc` on the backing allocator does: it fails, or it
adds a block that is separate from all others and keeps their bytes.
-/
theorem Backing.alloc_cases (backing : Backing) (layout : Layout) :
    (∃ error after, backing.alloc layout = (.error error, after) ∧
      after.blocks = backing.blocks ∧ after.memory = backing.memory) ∨
    ∃ block after, backing.alloc layout = (.ok block, after) ∧
      block.ptr ≠ 0 ∧ layout.elemSize ≤ block.length ∧
      block.ptr + span block.length < sizeLimit ∧
      (∀ other ∈ backing.blocks, Separate block other) ∧
      after.blocks = block :: backing.blocks ∧
      ∀ other ∈ backing.blocks, ∀ address length,
        other.ptr ≤ address → address + length ≤ other.finish →
          SameBytes backing.memory after.memory address length := by
  unfold Backing.alloc
  cases backing.answer with
  | error error => exact Or.inl ⟨error, _, rfl, rfl, rfl⟩
  | ok answer =>
      by_cases accepted :
          Accepts backing.blocks layout.elemSize answer
      · right
        simp only [accepted, if_true]
        refine
          ⟨_, _, rfl, accepted.1, accepted.2.1, accepted.2.2.1,
            accepted.2.2.2, rfl, ?_⟩
        intro other member address length lower upper
        exact scramble_sameBytes _ _ member lower upper
      · left
        simp only [accepted, if_false]
        exact ⟨_, _, rfl, rfl, rfl⟩

theorem resized_prefix
    {others : List Slice} {old new : Slice} {offset : Nat}
    (memory content : Memory)
    (separate : ∀ other ∈ others, Separate new other)
    (inside : offset < min old.length new.length) :
    resized others old new memory content (new.ptr + offset) =
      memory (old.ptr + offset) := by
  have foreign : ¬ Owned others (new.ptr + offset) := by
    rintro ⟨other, member, low, high⟩
    have apart := (separate other member).apart
    unfold Apart at apart
    unfold Slice.finish at high
    omega
  have range : new.ptr ≤ new.ptr + offset ∧
      new.ptr + offset < new.ptr + min old.length new.length := by
    omega
  simp only [resized, foreign, if_false, range, and_self, if_true,
    Nat.add_sub_cancel_left]

theorem resized_sameBytes
    {others : List Slice} {other old new : Slice} {address length : Nat}
    (memory content : Memory)
    (member : other ∈ others)
    (lower : other.ptr ≤ address)
    (upper : address + length ≤ other.finish) :
    SameBytes memory (resized others old new memory content)
      address length := by
  intro offset inside
  have owned : Owned others (address + offset) :=
    ⟨other, member, by omega, by omega⟩
  simp [resized, owned]

/--
What resizing a block of the backing allocator does: it fails, it gives the
block up, or it replaces the block by one that starts with the same bytes.
The other blocks keep their bytes.
-/
theorem Backing.resize_cases (backing : Backing)
    (event : Option Slice → Event) (old : Slice) (layout : Layout) :
    (∃ error after,
      backing.resize event old layout = (.error error, after) ∧
      after.blocks = backing.blocks ∧ after.memory = backing.memory) ∨
    (∃ after, backing.resize event old layout = (.ok ⟨0, 0⟩, after) ∧
      layout.elemSize = 0 ∧
      after.blocks = backing.without old ∧
      ∀ other ∈ backing.without old,
        SameBytes backing.memory after.memory other.ptr other.length) ∨
    ∃ block after, backing.resize event old layout = (.ok block, after) ∧
      block.ptr ≠ 0 ∧ layout.elemSize ≤ block.length ∧
      block.ptr + span block.length < sizeLimit ∧
      (∀ other ∈ backing.without old, Separate block other) ∧
      after.blocks = block :: backing.without old ∧
      (∀ other ∈ backing.without old,
        SameBytes backing.memory after.memory other.ptr other.length) ∧
      ∀ offset < min old.length block.length,
        after.memory (block.ptr + offset) =
          backing.memory (old.ptr + offset) := by
  unfold Backing.resize
  cases backing.answer with
  | error error => exact Or.inl ⟨error, _, rfl, rfl, rfl⟩
  | ok answer =>
      by_cases given : layout.elemSize = 0 ∧ answer.ptr = 0
      · right
        left
        dsimp only
        rw [if_pos given]
        refine ⟨_, rfl, given.1, rfl, ?_⟩
        intro other member
        exact scramble_sameBytes _ _ member (Nat.le_refl _)
          (Nat.le_refl _)
      · by_cases accepted :
          Accepts (backing.without old) layout.elemSize answer
        · right
          right
          dsimp only
          rw [if_neg given, if_pos accepted]
          refine
            ⟨_, _, rfl, accepted.1, accepted.2.1, accepted.2.2.1,
              accepted.2.2.2, rfl, ?_, ?_⟩
          · intro other member
            exact resized_sameBytes _ _ member (Nat.le_refl _)
              (Nat.le_refl _)
          · intro offset inside
            exact resized_prefix _ _ accepted.2.2.2 inside
        · left
          dsimp only
          rw [if_neg given, if_neg accepted]
          exact ⟨_, _, rfl, rfl, rfl⟩

end Libcute.Memory.BackingAllocator
