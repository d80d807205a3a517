import Libcute.Core.NoStd

/-!
# What the copies of `nostd.c` move

`memmove` and `smemmove` choose their direction by the order of the
addresses, so they are right for every overlap.  Of the two copies from slice
to slice, `smemcpy` looks at both lengths and `smemmove` at that of the source
only.
-/

namespace Libcute.Core.NoStd

open Libcute.Core.Interface
open Libcute.Library.ByteMemory

variable {before after memory : Memory} {dest src : Slice}

/-- The `length` bytes at `target` are those that were at `source`. -/
structure Moves (before after : Memory) (target source length : Nat) :
    Prop where
  copied : ∀ offset < length,
    after (target + offset) = before (source + offset)
  kept : ∀ address, address < target ∨ target + length ≤ address →
    after address = before address

theorem blit_moves (memory : Memory) (target source length : Nat) :
    Moves memory (blit memory target source length) target source length where
  copied _ inside := blit_inside memory source inside
  kept address outside := by
    unfold blit
    rw [if_neg (by omega)]

/-- The main result: both moves are right for every overlap. -/
theorem memmove_moves
    {dest src : Nat} (memory : Memory) (length : Nat)
    (destValid : dest ≠ 0) (srcValid : src ≠ 0) :
    Moves memory (memmove memory dest ⟨src, length⟩) dest src length ∧
      Moves memory (smemmove memory ⟨dest, length⟩ ⟨src, length⟩)
        dest src length := by
  have moved := blit_moves memory dest src length
  constructor
  · rw [memmove_eq_blit memory destValid srcValid]
    exact moved
  · rw [smemmove_eq_blit memory destValid srcValid]
    exact moved

/-- Three bytes move up by one, over themselves. -/
theorem memmove_moves_overlap :
    memmove (fun address => UInt8.ofNat address) 5 ⟨4, 3⟩ 7 = 6 ∧
      smemmove (fun address => UInt8.ofNat address) ⟨4, 3⟩ ⟨5, 3⟩ 4 = 5 := by
  have up := (@memmove_moves 5 4 (fun address => UInt8.ofNat address) 3
    (by decide) (by decide)).1
  have down := (@memmove_moves 4 5 (fun address => UInt8.ofNat address) 3
    (by decide) (by decide)).2
  exact ⟨up.copied 2 (by decide), down.copied 0 (by decide)⟩

/-! ## From slice to slice -/

/-- The copy moves as many bytes as both slices have, and no others. -/
def Copies (copy : Memory → Slice → Slice → Memory) (dest src : Slice) :
    Prop :=
  ∀ memory, Moves memory (copy memory dest src) dest.ptr src.ptr
    (min dest.length src.length)

/-- No byte is in both slices. -/
def Separate (dest src : Slice) : Prop :=
  ∀ address, dest.ptr ≤ address → address < dest.finish →
    src.ptr ≤ address → address < src.finish → False

/--
The target has room for all bytes of the source, or the bytes are copied onto
themselves; a null pointer is that of an empty slice.
-/
def Fits (dest src : Slice) : Prop :=
  dest.ptr = src.ptr ∨
    if dest.ptr = 0 ∨ src.ptr = 0 then
      min dest.length src.length = 0
    else
      src.length ≤ dest.length

theorem Separate.safe (separate : Separate dest src) :
    dest.ptr ≤ src.ptr ∨
      src.ptr + min dest.length src.length ≤ dest.ptr := by
  by_contra inside
  rw [not_or] at inside
  refine separate dest.ptr le_rfl ?_ (by omega) ?_
  · unfold Slice.finish
    omega
  · unfold Slice.finish
    omega

theorem Moves.refl (memory : Memory) (target length : Nat) :
    Moves memory memory target target length :=
  ⟨fun _ _ => rfl, fun _ _ => rfl⟩

theorem Moves.nothing (memory : Memory) (target source : Nat) :
    Moves memory memory target source 0 :=
  ⟨fun _ inside => absurd inside (Nat.not_lt_zero _), fun _ _ => rfl⟩

theorem blit_self (memory : Memory) (target length : Nat) :
    blit memory target target length = memory := by
  funext address
  unfold blit
  split_ifs with inside
  · rw [Nat.add_sub_of_le inside.1]
  · rfl

/-- A copy of bytes onto themselves changes nothing. -/
theorem smemmove_self (same : dest.ptr = src.ptr) :
    smemmove memory dest src = memory := by
  unfold smemmove
  split_ifs with null below
  · rfl
  · omega
  · rw [same, copyBackward_eq_blit memory (.inl le_rfl), blit_self]

theorem smemcpy_self (same : dest.ptr = src.ptr) :
    smemcpy memory dest src = memory := by
  unfold smemcpy
  split_ifs with null
  · rfl
  · rw [same, copyForward_eq_blit memory (.inl le_rfl), blit_self]

theorem smemmove_null (null : dest.ptr = 0 ∨ src.ptr = 0) :
    smemmove memory dest src = memory := by
  unfold smemmove
  exact if_pos null

theorem smemcpy_null (null : dest.ptr = 0 ∨ src.ptr = 0) :
    smemcpy memory dest src = memory := by
  unfold smemcpy
  exact if_pos null

theorem smemcpy_separate
    (valid : ¬ (dest.ptr = 0 ∨ src.ptr = 0)) (separate : Separate dest src) :
    smemcpy memory dest src =
      blit memory dest.ptr src.ptr (min dest.length src.length) := by
  unfold smemcpy
  rw [if_neg valid]
  exact copyForward_eq_blit memory separate.safe

theorem smemmove_valid (valid : ¬ (dest.ptr = 0 ∨ src.ptr = 0)) :
    smemmove memory dest src = blit memory dest.ptr src.ptr src.length := by
  rw [not_or] at valid
  exact smemmove_eq_blit memory valid.1 valid.2

/-- A memory in which one byte differs from all others. -/
def marked (address : Nat) : Memory := fun other =>
  if other = address then 1 else 0

theorem marked_ne {address other : Nat} (different : other ≠ address) :
    marked address other ≠ marked address address := by
  unfold marked
  rw [if_neg different, if_pos rfl]
  decide

/-- What does not fit is written behind the target. -/
theorem Copies.fits (copies : Copies smemmove dest src) : Fits dest src := by
  by_cases same : dest.ptr = src.ptr
  · exact .inl same
  right
  by_cases null : dest.ptr = 0 ∨ src.ptr = 0
  · rw [if_pos null]
    by_contra some'
    have first := (copies (marked src.ptr)).copied 0 (by omega)
    rw [smemmove_null null] at first
    exact marked_ne same first
  · rw [if_neg null]
    by_contra longer
    have kept := (copies (marked (src.ptr + dest.length))).kept
      (dest.ptr + dest.length) (.inr (by omega))
    rw [smemmove_valid null, blit_inside _ _ (by omega)] at kept
    exact marked_ne (by omega) kept.symm

/--
The main result about slices: for every pair of slices, `smemmove` copies what
both have room for, and like `smemcpy` if they are separate, exactly when the
target has room for the source.
-/
theorem slices_copied_iff (dest src : Slice) :
    (Copies smemmove dest src ∧
        (Separate dest src → Copies smemcpy dest src ∧
          ∀ memory, smemmove memory dest src = smemcpy memory dest src)) ↔
      Fits dest src := by
  constructor
  · rintro ⟨copies, -⟩
    exact copies.fits
  · rintro (same | fits)
    · refine ⟨fun memory => ?_, fun _ => ⟨fun memory => ?_, fun memory => ?_⟩⟩
      · rw [smemmove_self same, same]
        exact .refl memory _ _
      · rw [smemcpy_self same, same]
        exact .refl memory _ _
      · rw [smemmove_self same, smemcpy_self same]
    · by_cases null : dest.ptr = 0 ∨ src.ptr = 0
      · rw [if_pos null] at fits
        refine ⟨fun memory => ?_,
          fun _ => ⟨fun memory => ?_, fun memory => ?_⟩⟩
        · rw [smemmove_null null, fits]
          exact .nothing memory _ _
        · rw [smemcpy_null null, fits]
          exact .nothing memory _ _
        · rw [smemmove_null null, smemcpy_null null]
      · rw [if_neg null] at fits
        have fewer := Nat.min_eq_right fits
        refine ⟨fun memory => ?_,
          fun separate => ⟨fun memory => ?_, fun memory => ?_⟩⟩
        · rw [smemmove_valid null, fewer]
          exact blit_moves memory _ _ _
        · rw [smemcpy_separate null separate]
          exact blit_moves memory _ _ _
        · rw [smemmove_valid null, smemcpy_separate null separate, fewer]

/-- Two bytes are written into a slice of one byte. -/
theorem slices_not_copied :
    Separate ⟨8, 1⟩ ⟨16, 2⟩ ∧
      smemmove (marked 17) ⟨8, 1⟩ ⟨16, 2⟩ 9 = 1 ∧ marked 17 9 = 0 ∧
      ¬ Copies smemmove ⟨8, 1⟩ ⟨16, 2⟩ := by
  have written : smemmove (marked 17) ⟨8, 1⟩ ⟨16, 2⟩ 9 = 1 := by decide
  have before : marked 17 9 = 0 := by decide
  refine ⟨?_, written, before, fun copies => ?_⟩
  · intro address _ below above _
    unfold Slice.finish at below
    dsimp only at below above
    omega
  · have kept := (copies (marked 17)).kept 9 (.inr (by decide))
    rw [written, before] at kept
    exact absurd kept (by decide)

end Libcute.Core.NoStd
