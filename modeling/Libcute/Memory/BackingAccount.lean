import Mathlib.Data.List.Perm.Basic
import Libcute.Collection.Bitmap

/-!
# The account of a backing allocator

The calls that a backing allocator has recorded are read as an account.  A
block enters it with its address and the size that was asked for, leaves it
when it is resized or freed with exactly this address and size, and there is
no other way to return a block.

`Accounted` relates the account to the blocks an allocator knows it owns, for
a backing allocator that returns exactly the requested lengths.  An allocator
that ends with an empty account has returned every block exactly once.
-/

namespace Libcute.Memory.BackingAccount

open Libcute.Collection.Bitmap
open Libcute.Core.Interface
open Libcute.Core.Size
open Libcute.Memory.BackingAllocator

/-- Put a block into the account; a null slice is no block. -/
def credit (block : Slice) (held : List Slice) : List Slice :=
  if block.ptr = 0 then held else block :: held

/-- Take a block out of the account, which has to hold it as it is named. -/
def debit (mem : Slice) (held : List Slice) : Option (List Slice) :=
  if mem.ptr = 0 then
    some held
  else if mem ∈ held then
    some (held.erase mem)
  else
    none

/-- One more call; a call that failed leaves the account alone. -/
def settle (held : List Slice) : Event → Option (List Slice)
  | .alloc _ none => some held
  | .alloc layout (some block) =>
      some (credit ⟨block.ptr, layout.elemSize⟩ held)
  | .grow _ _ none => some held
  | .grow old layout (some block) =>
      (debit old held).map (credit ⟨block.ptr, layout.elemSize⟩)
  | .shrink _ _ none => some held
  | .shrink old layout (some block) =>
      (debit old held).map (credit ⟨block.ptr, layout.elemSize⟩)
  | .free mem => debit mem held

/--
The blocks that are not returned yet, under the sizes they were last asked
for with; `none` if something was returned that is not in the account.
-/
def outstanding : List Event → Option (List Slice)
  | [] => some []
  | event :: earlier => (outstanding earlier).bind (settle · event)

/-- A successful call returned exactly the requested length. -/
def Exact : Event → Prop
  | .alloc layout (some block) => block.length = layout.elemSize
  | .grow _ layout (some block) => block.length = layout.elemSize
  | .shrink _ layout (some block) => block.length = layout.elemSize
  | _ => True

/-- The account holds the regions, if the lengths are exact. -/
def Accounted (backing : Backing) (regions : List Slice) : Prop :=
  (∀ event ∈ backing.log, Exact event) →
    ∃ held, outstanding backing.log = some held ∧ held.Perm regions

namespace Accounted

variable {backing after : Backing} {regions others : List Slice}
  {mem old block : Slice} {layout : Layout} {error : IoError}
  {event : Option Slice → Event}

theorem congr
    (accounted : Accounted backing regions) (same : after.log = backing.log) :
    Accounted after regions := by
  unfold Accounted
  rw [same]
  exact accounted

theorem perm
    (accounted : Accounted backing regions) (same : regions.Perm others) :
    Accounted backing others := by
  intro exactly
  rcases accounted exactly with ⟨held, out, perm⟩
  exact ⟨held, out, perm.trans same⟩

/-- The effect of one recorded call. -/
theorem record {call : Event}
    (accounted : Accounted backing regions)
    (log : after.log = call :: backing.log)
    (settles : ∀ held : List Slice, Exact call → held.Perm regions →
      ∃ rest, settle held call = some rest ∧ rest.Perm others) :
    Accounted after others := by
  intro exactly
  rw [log] at exactly
  rcases accounted fun event member =>
    exactly event (List.mem_cons_of_mem _ member) with ⟨held, out, perm⟩
  rcases settles held (exactly call List.mem_cons_self) perm with
    ⟨rest, settled, same⟩
  refine ⟨rest, ?_, same⟩
  rw [log, outstanding, out]
  exact settled

/-- A null slice can be returned at any time. -/
theorem free_null
    (accounted : Accounted backing regions) (null : mem.ptr = 0) :
    Accounted (backing.free mem) regions :=
  accounted.record rfl fun held _ perm => ⟨held, if_pos null, perm⟩

/-- A block that is in the account can be taken out of it. -/
theorem debit_of_perm {held : List Slice}
    (perm : held.Perm (mem :: regions)) (valid : mem.ptr ≠ 0) :
    ∃ rest, debit mem held = some rest ∧ rest.Perm regions := by
  have member : mem ∈ held := perm.mem_iff.mpr List.mem_cons_self
  refine ⟨held.erase mem, ?_, ?_⟩
  · unfold debit
    rw [if_neg valid, if_pos member]
  · have erased := perm.erase mem
    rwa [List.erase_cons_head] at erased

theorem free
    (accounted : Accounted backing (mem :: regions))
    (valid : mem.ptr ≠ 0) :
    Accounted (backing.free mem) regions :=
  accounted.record rfl fun _ _ perm => debit_of_perm perm valid

theorem alloc_error
    (accounted : Accounted backing regions)
    (answer : backing.alloc layout = (.error error, after)) :
    Accounted after regions := by
  have log : after.log = .alloc layout none :: backing.log := by
    unfold Backing.alloc at answer
    split at answer
    · split_ifs at answer <;> cases answer
      rfl
    · cases answer
      rfl
  exact accounted.record log fun held _ perm => ⟨held, rfl, perm⟩

theorem alloc_log
    (answer : backing.alloc layout = (.ok block, after)) :
    block.ptr ≠ 0 ∧
      after.log = .alloc layout (some block) :: backing.log := by
  unfold Backing.alloc at answer
  split at answer
  · split_ifs at answer with accepted <;> cases answer
    exact ⟨accepted.1, rfl⟩
  · cases answer

/-- A new block is in the account under the size that was asked for. -/
theorem alloc_size
    (accounted : Accounted backing regions)
    (answer : backing.alloc layout = (.ok block, after)) :
    Accounted after (⟨block.ptr, layout.elemSize⟩ :: regions) := by
  rcases alloc_log answer with ⟨valid, log⟩
  exact accounted.record log fun held _ perm =>
    ⟨_, congrArg some (if_neg valid), perm.cons _⟩

/-- If the length is exact, the block is in the account as it is. -/
theorem alloc_block
    (accounted : Accounted backing regions)
    (answer : backing.alloc layout = (.ok block, after)) :
    Accounted after (block :: regions) := by
  rcases alloc_log answer with ⟨valid, log⟩
  refine accounted.record log fun held exactly perm =>
    ⟨_, congrArg some (if_neg valid), ?_⟩
  rw [← exactly]
  exact perm.cons _

/-- A call that resizes a block. -/
def Resizes (event : Option Slice → Event) (old : Slice) (layout : Layout) :
    Prop :=
  event = .grow old layout ∨ event = .shrink old layout

theorem Resizes.settle {held : List Slice}
    (resizes : Resizes event old layout) (block : Slice) :
    settle held (event none) = some held ∧
      settle held (event (some block)) =
        (debit old held).map (credit ⟨block.ptr, layout.elemSize⟩) ∧
      (Exact (event (some block)) → block.length = layout.elemSize) := by
  rcases resizes with rfl | rfl
  · exact ⟨rfl, rfl, id⟩
  · exact ⟨rfl, rfl, id⟩

theorem resize_error
    (accounted : Accounted backing regions)
    (resizes : Resizes event old layout)
    (answer : backing.resize event old layout = (.error error, after)) :
    Accounted after regions := by
  have log : after.log = event none :: backing.log := by
    unfold Backing.resize at answer
    dsimp only at answer
    split at answer
    · split_ifs at answer <;> cases answer
      rfl
    · cases answer
      rfl
  exact accounted.record log fun held _ perm =>
    ⟨held, (resizes.settle old).1, perm⟩

theorem resize_log
    (answer : backing.resize event old layout = (.ok block, after)) :
    after.log = event (some block) :: backing.log := by
  unfold Backing.resize at answer
  dsimp only at answer
  split at answer
  · split_ifs at answer <;> cases answer <;> rfl
  · cases answer

/-- A resized block is in the account in place of the old one. -/
theorem resize_ok
    (accounted : Accounted backing (old :: regions))
    (valid : old.ptr ≠ 0) (resizes : Resizes event old layout)
    (answer : backing.resize event old layout = (.ok block, after)) :
    Accounted after (credit block regions) := by
  refine accounted.record (resize_log answer) fun held exactly perm => ?_
  rcases debit_of_perm perm valid with ⟨rest, taken, same⟩
  rcases resizes.settle block with ⟨_, settled, length⟩
  have named : (⟨block.ptr, layout.elemSize⟩ : Slice) = block := by
    rw [← length exactly]
  rw [taken, named] at settled
  refine ⟨_, settled, ?_⟩
  unfold credit
  split_ifs
  · exact same
  · exact same.cons _

/-- Nothing is recorded yet. -/
theorem start (fresh : backing.log = []) : Accounted backing [] := by
  intro _
  rw [fresh]
  exact ⟨[], rfl, List.Perm.refl _⟩

/-- An allocator that owns nothing has returned everything. -/
theorem outstanding_nil
    (accounted : Accounted backing [])
    (exactly : ∀ event ∈ backing.log, Exact event) :
    outstanding backing.log = some [] := by
  rcases accounted exactly with ⟨held, out, perm⟩
  rw [out, perm.eq_nil]

/-! ## Bitmaps -/

variable {bitmap : Bits} {bitCount : Nat}

/-- The bytes of a bitmap never wrap. -/
theorem bitmap_bytes (bitCount : Nat) :
    sizeMul (wordCount bitCount) 8 = wordCount bitCount * 8 := by
  have small : sizeSub (sizeAdd bitCount 64) 1 < sizeLimit :=
    Nat.mod_lt _ (by decide)
  apply sizeMul_eq
  unfold wordCount
  omega

theorem bitmapCreate_none
    (accounted : Accounted backing regions)
    (created : bitmapCreate backing bitCount = (none, after)) :
    Accounted after regions := by
  unfold bitmapCreate at created
  split at created
  · cases created
    exact accounted
  · dsimp only at created
    split at created
    · rename_i error failed answer
      cases created
      exact accounted.alloc_error answer
    · cases created

theorem bitmapCreate_some
    (accounted : Accounted backing regions)
    (created : bitmapCreate backing bitCount = (some bitmap, after)) :
    bitmap.addr ≠ 0 ∧ Accounted after (bitmap.region :: regions) := by
  unfold bitmapCreate at created
  split at created
  · cases created
  · dsimp only at created
    split at created
    · cases created
    · rename_i block taken answer
      cases created
      have asked : (Layout.create (sizeMul (wordCount bitCount) 8)
          8).elemSize = wordCount bitCount * 8 := by
        rw [Layout.create_elemSize _ (by decide), bitmap_bytes]
      have entered := accounted.alloc_size answer
      rw [asked] at entered
      exact ⟨(alloc_log answer).1, entered⟩

theorem destroyBitmap
    (accounted : Accounted backing (bitmap.region :: regions))
    (valid : bitmap.addr ≠ 0) :
    Accounted (bitmapDestroy backing bitmap) regions := by
  unfold bitmapDestroy
  rw [if_neg valid, bitmap_bytes]
  exact accounted.free valid

end Accounted

end Libcute.Memory.BackingAccount
