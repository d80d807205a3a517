/-!
# Slices, layouts and errors

The value types that cross every interface of the library: `cu_Slice`
from `nostd.h`, `cu_Layout` from `utility.h` and the part of `cu_Io_Error`
from `io/error.h` that the allocators report.  The null pointer is address 0.
-/

namespace Libcute.Core.Interface

/-- A view of `length` bytes at address `ptr`. -/
structure Slice where
  ptr : Nat
  length : Nat
deriving DecidableEq, Repr

/-- The address just past the last byte of a slice. -/
def Slice.finish (slice : Slice) : Nat := slice.ptr + slice.length

/-- Size and alignment of an object. -/
structure Layout where
  elemSize : Nat
  alignment : Nat
deriving DecidableEq, Repr

/-- A layout without size or without alignment is the zero layout. -/
def Layout.create (elemSize alignment : Nat) : Layout :=
  if elemSize = 0 ∨ alignment = 0 then
    ⟨0, 0⟩
  else
    ⟨elemSize, alignment⟩

theorem Layout.create_of_pos {elemSize alignment : Nat}
    (size : elemSize ≠ 0) (align : alignment ≠ 0) :
    Layout.create elemSize alignment = ⟨elemSize, alignment⟩ := by
  simp [Layout.create, size, align]

/-- With an alignment the size is kept. -/
theorem Layout.create_elemSize {alignment : Nat}
    (elemSize : Nat) (align : alignment ≠ 0) :
    (Layout.create elemSize alignment).elemSize = elemSize := by
  by_cases empty : elemSize = 0
  · simp [Layout.create, empty]
  · rw [Layout.create_of_pos empty align]

/-- `CU_LAYOUT_CHECK`: the layout describes no object. -/
def Layout.Invalid (layout : Layout) : Prop :=
  layout.elemSize = 0 ∨ layout.alignment = 0

instance (layout : Layout) : Decidable layout.Invalid :=
  inferInstanceAs (Decidable (_ ∨ _))

/-- The kinds of `cu_Io_Error` that an allocator reports. -/
inductive IoErrorKind where
  | invalidInput
  | outOfMemory
deriving DecidableEq, Repr

structure IoError where
  kind : IoErrorKind
  errnum : Option Nat
deriving DecidableEq, Repr

def IoError.invalidInput : IoError := ⟨.invalidInput, none⟩

def IoError.outOfMemory : IoError := ⟨.outOfMemory, none⟩

end Libcute.Core.Interface
