import Mathlib.Logic.Function.Basic
import Libcute.Core.Interface
import Libcute.Library.ByteMemory

/-!
# Byte copies of `nostd.c`

The copy loops move one byte at a time, upwards from the first byte or
downwards from the last.  Each loop equals the simultaneous `blit` when no
byte is overwritten before it is read.
-/

namespace Libcute.Core.NoStd

open Libcute.Core.Interface
open Libcute.Library.ByteMemory

/-- `while (n--) *d++ = *s++` -/
def copyForward (memory : Memory) (dest src : Nat) : Nat → Memory
  | 0 => memory
  | count + 1 =>
      copyForward (Function.update memory dest (memory src))
        (dest + 1) (src + 1) count

/-- `d += n; s += n; while (n--) *--d = *--s` -/
def copyBackward (memory : Memory) (dest src : Nat) : Nat → Memory
  | 0 => memory
  | count + 1 =>
      copyBackward
        (Function.update memory (dest + count) (memory (src + count)))
        dest src count

/-- `cu_Memory_memmove` -/
def memmove (memory : Memory) (dest : Nat) (src : Slice) : Memory :=
  if dest = 0 ∨ src.ptr = 0 then
    memory
  else if dest < src.ptr then
    copyForward memory dest src.ptr src.length
  else
    copyBackward memory dest src.ptr src.length

/-- `cu_Memory_memcpy` -/
def memcpy (memory : Memory) (dest : Nat) (src : Slice) : Memory :=
  if dest = 0 ∨ src.ptr = 0 then
    memory
  else
    copyForward memory dest src.ptr src.length

/-- `cu_Memory_smemcpy` -/
def smemcpy (memory : Memory) (dest src : Slice) : Memory :=
  if dest.ptr = 0 ∨ src.ptr = 0 then
    memory
  else
    copyForward memory dest.ptr src.ptr (min dest.length src.length)

/-- `cu_Memory_smemmove`: the length of the source counts. -/
def smemmove (memory : Memory) (dest src : Slice) : Memory :=
  if dest.ptr = 0 ∨ src.ptr = 0 then
    memory
  else if dest.ptr < src.ptr then
    copyForward memory dest.ptr src.ptr src.length
  else
    copyBackward memory dest.ptr src.ptr src.length

/--
Upwards copying is right when the target does not start inside the source.
-/
theorem copyForward_eq_blit
    {dest src count : Nat} (memory : Memory)
    (safe : dest ≤ src ∨ src + count ≤ dest) :
    copyForward memory dest src count = blit memory dest src count := by
  induction count generalizing memory dest src with
  | zero =>
      funext address
      simp [copyForward, blit]
  | succ count induction =>
      rw [copyForward, induction _ (by omega)]
      funext address
      unfold blit
      by_cases first : address = dest
      · subst first
        simp
      · by_cases inside :
            dest ≤ address ∧ address < dest + (count + 1)
        · have later :
              dest + 1 ≤ address ∧ address < dest + 1 + count := by
            omega
          have source :
              src + 1 + (address - (dest + 1)) =
                src + (address - dest) := by
            omega
          have unread : src + (address - dest) ≠ dest := by omega
          simp only [inside, later, and_self, if_true, source]
          exact Function.update_of_ne unread _ _
        · have outside :
              ¬ (dest + 1 ≤ address ∧ address < dest + 1 + count) := by
            omega
          simp only [inside, outside, if_false]
          exact Function.update_of_ne first _ _

/--
Downwards copying is right when the source does not start inside the target.
-/
theorem copyBackward_eq_blit
    {dest src count : Nat} (memory : Memory)
    (safe : src ≤ dest ∨ dest + count ≤ src) :
    copyBackward memory dest src count = blit memory dest src count := by
  induction count generalizing memory with
  | zero =>
      funext address
      simp [copyBackward, blit]
  | succ count induction =>
      rw [copyBackward, induction _ (by omega)]
      funext address
      unfold blit
      by_cases last : address = dest + count
      · subst last
        simp
      · by_cases inside :
            dest ≤ address ∧ address < dest + (count + 1)
        · have earlier :
              dest ≤ address ∧ address < dest + count := by omega
          have unread : src + (address - dest) ≠ dest + count := by omega
          simp only [inside, earlier, and_self, if_true]
          exact Function.update_of_ne unread _ _
        · have outside :
              ¬ (dest ≤ address ∧ address < dest + count) := by omega
          simp only [inside, outside, if_false]
          exact Function.update_of_ne last _ _

/-- `cu_Memory_memmove` is a simultaneous copy for every overlap. -/
theorem memmove_eq_blit
    {dest : Nat} {src : Slice} (memory : Memory)
    (destValid : dest ≠ 0) (srcValid : src.ptr ≠ 0) :
    memmove memory dest src =
      blit memory dest src.ptr src.length := by
  unfold memmove
  simp only [destValid, srcValid, or_self, if_false]
  split_ifs with below
  · exact copyForward_eq_blit memory (Or.inl below.le)
  · exact copyBackward_eq_blit memory (Or.inl (Nat.le_of_not_lt below))

theorem smemmove_eq_blit
    {dest src : Slice} (memory : Memory)
    (destValid : dest.ptr ≠ 0) (srcValid : src.ptr ≠ 0) :
    smemmove memory dest src =
      blit memory dest.ptr src.ptr src.length := by
  have same : smemmove memory dest src = memmove memory dest.ptr src := rfl
  rw [same, memmove_eq_blit memory destValid srcValid]

/-- Upwards copying does not write behind the bytes of the target. -/
theorem copyForward_below
    {dest src count address : Nat} (memory : Memory)
    (below : address < dest) :
    copyForward memory dest src count address = memory address := by
  induction count generalizing memory dest src with
  | zero => rfl
  | succ count induction =>
      rw [copyForward, induction _ (by omega),
        Function.update_of_ne below.ne]

/-- The bytes in front of the target are copied before they are overwritten. -/
theorem copyForward_head
    {dest src count offset : Nat} (memory : Memory)
    (inside : offset < count) (front : offset = 0 ∨ src + offset < dest) :
    copyForward memory dest src count (dest + offset) =
      memory (src + offset) := by
  induction count generalizing memory dest src offset with
  | zero => omega
  | succ count induction =>
      rw [copyForward]
      cases offset with
      | zero =>
          change copyForward _ (dest + 1) (src + 1) count dest = memory src
          rw [copyForward_below _ (Nat.lt_succ_self dest),
            Function.update_self]
      | succ offset =>
          have shifted : dest + (offset + 1) = dest + 1 + offset := by omega
          have source : src + (offset + 1) = src + 1 + offset := by omega
          rw [shifted, source,
            induction _ (by omega) (.inr (by omega)),
            Function.update_of_ne (by omega)]

theorem memcpy_eq_blit
    {dest : Nat} {src : Slice} (memory : Memory)
    (destValid : dest ≠ 0) (srcValid : src.ptr ≠ 0)
    (apart : Apart dest src.length src.ptr src.length) :
    memcpy memory dest src =
      blit memory dest src.ptr src.length := by
  unfold memcpy
  simp only [destValid, srcValid, or_self, if_false]
  apply copyForward_eq_blit
  unfold Apart at apart
  omega

/-- The sized copy is a copy of what both slices have room for. -/
theorem smemcpy_eq_blit
    {dest destLength src srcLength : Nat} (memory : Memory)
    (destValid : dest ≠ 0) (srcValid : src ≠ 0)
    (apart : Apart dest destLength src srcLength) :
    smemcpy memory ⟨dest, destLength⟩ ⟨src, srcLength⟩ =
      blit memory dest src (min destLength srcLength) := by
  have plain : smemcpy memory ⟨dest, destLength⟩ ⟨src, srcLength⟩ =
      memcpy memory dest ⟨src, min destLength srcLength⟩ := rfl
  rw [plain]
  apply memcpy_eq_blit memory destValid srcValid
  unfold Apart at apart ⊢
  dsimp only
  omega

end Libcute.Core.NoStd
