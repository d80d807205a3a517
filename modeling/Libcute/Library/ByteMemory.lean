import Mathlib.Data.Nat.Basic
import Mathlib.Tactic.Ring

/-!
# Byte-addressed memory

A memory assigns a byte to every address.  This module defines the three
accesses a systems program makes to it and states what each of them leaves
unchanged:

* `loadBytes` and `storeBytes` read and write a little-endian integer of a
  fixed number of bytes;
* `blit` replaces a range of bytes by the bytes of another range; and
* `overwrite` replaces a range by bytes supplied from outside.

`SameBytes` is the frame relation: two memories agree on a range.  The run
of a program is described by stating on which ranges it holds.
-/

namespace Libcute.Library.ByteMemory

/-- A byte for every address. -/
abbrev Memory := Nat → UInt8

/-- Two memories agree on the `length` bytes that start at `address`. -/
def SameBytes (before after : Memory) (address length : Nat) : Prop :=
  ∀ offset < length, after (address + offset) = before (address + offset)

theorem SameBytes.refl (memory : Memory) (address length : Nat) :
    SameBytes memory memory address length :=
  fun _ _ => rfl

theorem SameBytes.trans
    {first second third : Memory} {address length : Nat}
    (left : SameBytes first second address length)
    (right : SameBytes second third address length) :
    SameBytes first third address length :=
  fun offset inside =>
    (right offset inside).trans (left offset inside)

/-- A frame restricts to every range inside it. -/
theorem SameBytes.inside
    {before after : Memory} {address length start size : Nat}
    (same : SameBytes before after address length)
    (lower : address ≤ start)
    (upper : start + size ≤ address + length) :
    SameBytes before after start size := by
  intro offset inside
  have shifted := same (start - address + offset) (by omega)
  rwa [show address + (start - address + offset) = start + offset by omega]
    at shifted

/-- Two byte ranges do not overlap; an empty one is not inside the other. -/
def Apart (left leftLength right rightLength : Nat) : Prop :=
  left + leftLength ≤ right ∨ right + rightLength ≤ left

instance (left leftLength right rightLength : Nat) :
    Decidable (Apart left leftLength right rightLength) :=
  inferInstanceAs (Decidable (_ ∨ _))

theorem Apart.symm {left leftLength right rightLength : Nat}
    (apart : Apart left leftLength right rightLength) :
    Apart right rightLength left leftLength :=
  Or.symm apart

/-- Parts of two ranges that do not overlap do not overlap either. -/
theorem Apart.inside
    {left leftLength right rightLength start size other otherSize : Nat}
    (apart : Apart left leftLength right rightLength)
    (lower : left ≤ start)
    (upper : start + size ≤ left + leftLength)
    (otherLower : right ≤ other)
    (otherUpper : other + otherSize ≤ right + rightLength) :
    Apart start size other otherSize := by
  unfold Apart at apart ⊢
  omega

/-! ## Little-endian integers -/

/-- Read `count` bytes at `address` as a little-endian integer. -/
def loadBytes (memory : Memory) (address : Nat) : Nat → Nat
  | 0 => 0
  | count + 1 =>
      (memory address).toNat + 256 * loadBytes memory (address + 1) count

/-- Write the low `count` bytes of `value` at `address`. -/
def storeBytes
    (memory : Memory) (address value count : Nat) : Memory :=
  fun target =>
    if address ≤ target ∧ target < address + count then
      UInt8.ofNat (value / 256 ^ (target - address))
    else
      memory target

theorem loadBytes_congr
    {before after : Memory} {address count : Nat}
    (same : SameBytes before after address count) :
    loadBytes after address count = loadBytes before address count := by
  induction count generalizing address with
  | zero => rfl
  | succ count induction =>
      have head := same 0 (by omega)
      have tail : SameBytes before after (address + 1) count :=
        same.inside (by omega) (by omega)
      simp only [Nat.add_zero] at head
      simp only [loadBytes, head, induction tail]

/-- A range that holds the digits of `value` is read back as `value`. -/
theorem loadBytes_of_digits
    {memory : Memory} {address count value : Nat}
    (digits : ∀ offset < count,
      memory (address + offset) = UInt8.ofNat (value / 256 ^ offset)) :
    loadBytes memory address count = value % 256 ^ count := by
  induction count generalizing address value with
  | zero => simp [loadBytes, Nat.mod_one]
  | succ count induction =>
      have head : (memory address).toNat = value % 256 := by
        have digit := digits 0 (by omega)
        simp only [Nat.add_zero, pow_zero, Nat.div_one] at digit
        simp [digit]
      have tail :
          loadBytes memory (address + 1) count =
            value / 256 % 256 ^ count := by
        apply induction
        intro offset inside
        have digit := digits (offset + 1) (by omega)
        rwa [show address + (offset + 1) = address + 1 + offset by omega,
          pow_succ', ← Nat.div_div_eq_div_mul] at digit
      rw [loadBytes, head, tail, pow_succ', Nat.mod_mul]

@[simp]
theorem loadBytes_storeBytes
    (memory : Memory) (address value count : Nat) :
    loadBytes (storeBytes memory address value count) address count =
      value % 256 ^ count := by
  apply loadBytes_of_digits
  intro offset inside
  simp [storeBytes, inside]

theorem loadBytes_storeBytes_of_lt
    {value count : Nat} (memory : Memory) (address : Nat)
    (fits : value < 256 ^ count) :
    loadBytes (storeBytes memory address value count) address count =
      value := by
  rw [loadBytes_storeBytes, Nat.mod_eq_of_lt fits]

theorem storeBytes_sameBytes
    {address count start length : Nat}
    (memory : Memory) (value : Nat)
    (apart : Apart address count start length) :
    SameBytes memory (storeBytes memory address value count)
      start length := by
  intro offset inside
  unfold Apart at apart
  have outside :
      ¬ (address ≤ start + offset ∧
        start + offset < address + count) := by omega
  simp [storeBytes, outside]

/-- A store does not change an integer that lies elsewhere. -/
theorem loadBytes_storeBytes_of_apart
    {address count start length : Nat}
    (memory : Memory) (value : Nat)
    (apart : Apart address count start length) :
    loadBytes (storeBytes memory address value count) start length =
      loadBytes memory start length :=
  loadBytes_congr (storeBytes_sameBytes memory value apart)

/-! ## Range updates -/

/-- Replace `length` bytes at `target` by the bytes that were at `source`. -/
def blit (memory : Memory) (target source length : Nat) : Memory :=
  fun address =>
    if target ≤ address ∧ address < target + length then
      memory (source + (address - target))
    else
      memory address

@[simp]
theorem blit_zero (memory : Memory) (target source : Nat) :
    blit memory target source 0 = memory := by
  funext address
  simp [blit]

theorem blit_inside
    {target length offset : Nat}
    (memory : Memory) (source : Nat)
    (inside : offset < length) :
    blit memory target source length (target + offset) =
      memory (source + offset) := by
  simp [blit, inside]

theorem blit_sameBytes
    {target length start size : Nat}
    (memory : Memory) (source : Nat)
    (apart : Apart target length start size) :
    SameBytes memory (blit memory target source length) start size := by
  intro offset inside
  unfold Apart at apart
  have outside :
      ¬ (target ≤ start + offset ∧
        start + offset < target + length) := by omega
  simp [blit, outside]

/-- Replace the `length` bytes at `target` by the bytes of `content`. -/
def overwrite
    (memory : Memory) (target length : Nat) (content : Memory) : Memory :=
  fun address =>
    if target ≤ address ∧ address < target + length then
      content address
    else
      memory address

theorem overwrite_sameBytes
    {target length start size : Nat}
    (memory content : Memory)
    (apart : Apart target length start size) :
    SameBytes memory (overwrite memory target length content)
      start size := by
  intro offset inside
  unfold Apart at apart
  have outside :
      ¬ (target ≤ start + offset ∧
        start + offset < target + length) := by omega
  simp [overwrite, outside]

end Libcute.Library.ByteMemory
