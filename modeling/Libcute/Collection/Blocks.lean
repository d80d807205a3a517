import Libcute.Core.Interface

/-!
# Blocks of elements

The blocks that the containers keep their elements in.  An allocation is
decided by a `Grant`: it is refused, or it yields a block at an address with
some first contents.  Growing and shrinking keep what both blocks have room
for.
-/

namespace Libcute.Collection.Blocks

open Libcute.Core.Interface

variable {T : Type}

/-- A block with what its slots hold. -/
structure Storage (T : Type) where
  mem : Slice
  slots : List T

/-- The answer of the allocator to one request. -/
abbrev Grant (T : Type) := Option (Nat × (Nat → T))

/-- `cu_Allocator_Alloc`: a request without size is refused. -/
def alloc (grant : Grant T) (layout : Layout) (elemSize : Nat) :
    Option (Storage T) :=
  match grant with
  | none => none
  | some (ptr, fill) =>
      if layout.elemSize = 0 then
        none
      else
        some ⟨⟨ptr, layout.elemSize⟩,
          (List.range (layout.elemSize / elemSize)).map fill⟩

/-- Another block with the contents of the old one, as far as they fit. -/
def move
    (grant : Grant T) (old : List T) (layout : Layout) (elemSize : Nat) :
    Option (Storage T) :=
  grant.map fun (ptr, fill) =>
    ⟨⟨ptr, layout.elemSize⟩,
      (List.range (layout.elemSize / elemSize)).map fun i =>
        old[i]?.getD (fill i)⟩

/-- `cu_Allocator_Grow` -/
def grow
    (grant : Grant T) (old : List T) (layout : Layout) (elemSize : Nat) :
    Option (Storage T) :=
  move grant old layout elemSize

/-- `cu_Allocator_Shrink` -/
def shrink
    (grant : Grant T) (old : List T) (layout : Layout) (elemSize : Nat) :
    Option (Storage T) :=
  move grant old layout elemSize

/-- The first slots of a moved block hold what they held before. -/
theorem take_moved
    {old : List T} {fill : Nat → T} {count len : Nat}
    (within : len ≤ count) (stored : len ≤ old.length) :
    ((List.range count).map fun i => old[i]?.getD (fill i)).take len =
      old.take len := by
  apply List.ext_getElem
  · rw [List.length_take, List.length_take, List.length_map,
      List.length_range]
    omega
  · intro i left right
    rw [List.length_take] at right
    rw [List.getElem_take, List.getElem_take, List.getElem_map,
      List.getElem_range, List.getElem?_eq_getElem (by omega),
      Option.getD_some]

end Libcute.Collection.Blocks
