import Mathlib.Data.List.Nodup
import Mathlib.Data.List.Range
import Libcute.Library.ByteMemory

/-!
# Mapped pages

An address space is mapped in pages of one size.  A range of bytes that
starts at a page owns the pages that `covering` lists, up to the one of its
last byte, and ranges that own different pages do not overlap.

Which pages are mapped is a list of page numbers.  `unmap` takes out the
pages of a range; when the list consists of the pages of some ranges,
`perm_unmap` says that those of the other ranges stay.
-/

namespace Libcute.Library.PagedMemory

open Libcute.Library.ByteMemory

variable {size ptr length page : Nat} {mapped rest : List Nat}

/-- The number of pages that a length takes. -/
def pageCount (size length : Nat) : Nat := (length + (size - 1)) / size

/-- The pages of a range that starts at a page. -/
def covering (size ptr length : Nat) : List Nat :=
  List.range' (ptr / size) (pageCount size length)

/-- Take out the pages of a range. -/
def unmap (size : Nat) (mapped : List Nat) (ptr length : Nat) : List Nat :=
  mapped.filter fun page => page ∉ covering size ptr length

theorem mem_covering : page ∈ covering size ptr length ↔
    ptr / size ≤ page ∧ page < ptr / size + pageCount size length :=
  List.mem_range'_1

theorem covering_nodup (size ptr length : Nat) :
    (covering size ptr length).Nodup :=
  List.nodup_range'

theorem pageCount_eq_of_le (positive : 0 < size) {less more : Nat}
    (ordered : less ≤ more)
    (last : more ≤ pageCount size less * size) :
    pageCount size more = pageCount size less := by
  apply Nat.le_antisymm
  · apply Nat.le_of_lt_succ
    rw [pageCount, Nat.div_lt_iff_lt_mul positive, Nat.succ_mul]
    omega
  · exact Nat.div_le_div_right (by omega)

theorem le_pageCount_mul (positive : 0 < size) (length : Nat) :
    length ≤ pageCount size length * size := by
  have split := Nat.div_add_mod (length + (size - 1)) size
  have small := Nat.mod_lt (length + (size - 1)) positive
  rw [Nat.mul_comm] at split
  unfold pageCount
  omega

/-- A byte of a range lies in one of its pages. -/
theorem div_mem_covering (positive : 0 < size) (aligned : size ∣ ptr)
    {address : Nat} (low : ptr ≤ address) (high : address < ptr + length) :
    address / size ∈ covering size ptr length := by
  rw [mem_covering]
  refine ⟨Nat.div_le_div_right low, ?_⟩
  obtain ⟨first, rfl⟩ := aligned
  rw [Nat.mul_div_cancel_left _ positive, Nat.div_lt_iff_lt_mul positive,
    Nat.add_mul, Nat.mul_comm first size]
  have enough := le_pageCount_mul positive length
  omega

/-- Ranges with different pages do not overlap. -/
theorem apart_of_disjoint (positive : 0 < size)
    {left leftLength right rightLength : Nat}
    (leftAligned : size ∣ left) (rightAligned : size ∣ right)
    (leftFull : 0 < leftLength) (rightFull : 0 < rightLength)
    (disjoint : List.Disjoint (covering size left leftLength)
      (covering size right rightLength)) :
    Apart left leftLength right rightLength := by
  by_contra overlaps
  unfold Apart at overlaps
  have shared : ∃ address, left ≤ address ∧ address < left + leftLength ∧
      right ≤ address ∧ address < right + rightLength :=
    ⟨max left right, by omega, by omega, by omega, by omega⟩
  obtain ⟨address, low, high, low', high'⟩ := shared
  exact disjoint (div_mem_covering positive leftAligned low high)
    (div_mem_covering positive rightAligned low' high')

/-- The pages of the other ranges stay. -/
theorem perm_unmap (nodup : mapped.Nodup)
    (perm : mapped.Perm (covering size ptr length ++ rest)) :
    (unmap size mapped ptr length).Perm rest := by
  have disjoint := List.disjoint_of_nodup_append (perm.nodup_iff.mp nodup)
  unfold unmap
  refine (perm.filter _).trans ?_
  rw [List.filter_append, List.filter_eq_nil_iff.mpr, List.nil_append,
    List.filter_eq_self.mpr]
  · intro page inside
    exact decide_eq_true fun covered => disjoint covered inside
  · intro page inside
    simp [inside]

end Libcute.Library.PagedMemory
