import Libcute.Collection.Blocks
import Libcute.Core.Size

/-!
# The growable vector

`vector.c` keeps its elements in one block, which it moves to a larger or a
smaller one as elements come and go.

A slot that is not in the block has no content; reading or writing one has no
result.  The null checks of the interface functions are not modelled.
-/

namespace Libcute.Collection.Vector

open Libcute.Collection.Blocks
open Libcute.Core.Interface
open Libcute.Core.Size

variable {T : Type}

/-- `cu_Vector_Error` -/
inductive Error where
  | oom
  | invalidLayout
  | invalid
  | oob
deriving DecidableEq, Repr

/--
`cu_Vector`.  `destroyed` lists what the destructor was called with, the
latest element first.
-/
structure Vec (T : Type) where
  data : Option (Storage T)
  length : Nat
  capacity : Nat
  layout : Layout
  destructor : Bool
  destroyed : List T

/-- `CU_VECTOR_GROW_FACTOR` -/
def growFactor : Nat := 2

/-- `CU_VECTOR_SHRINK_DIV` -/
def shrinkDiv : Nat := 4

namespace Vec

/-! ## Slots -/

/-- The element in a slot. -/
def slot (vector : Vec T) (i : Nat) : Option T :=
  vector.data.bind fun storage => storage.slots[i]?

/-- Copy an element into a slot. -/
def setSlot (vector : Vec T) (i : Nat) (elem : T) : Option (Vec T) :=
  match vector.data with
  | none => none
  | some storage =>
      if i < storage.slots.length then
        some { vector with
          data := some { storage with slots := storage.slots.set i elem } }
      else
        none

/-- Move the first `count` elements up by one slot. -/
def shiftUp (vector : Vec T) (count : Nat) : Option (Vec T) :=
  match vector.data with
  | none => none
  | some storage =>
      if count + 1 ≤ storage.slots.length then
        some { vector with
          data := some { storage with
            slots := storage.slots.take 1 ++ storage.slots.take count ++
              storage.slots.drop (count + 1) } }
      else
        none

/-- Call the destructor on the elements from slot `i` on. -/
def destructLoop (vector : Vec T) : Nat → Nat → Option (Vec T)
  | _, 0 => some vector
  | i, count + 1 =>
      match vector.slot i with
      | none => none
      | some elem =>
          ({ vector with destroyed := elem :: vector.destroyed } :
            Vec T).destructLoop (i + 1) count

/-- The loop, if there is a destructor. -/
def destruct (vector : Vec T) (i count : Nat) : Option (Vec T) :=
  if vector.destructor = true then
    vector.destructLoop i count
  else
    some vector

/--
The destructor runs on the element in a slot that is read again afterwards;
`leaves` is what it leaves of an element.
-/
def destructSlot (vector : Vec T) (leaves : T → T) (i : Nat) :
    Option (Vec T) :=
  if vector.destructor = true then
    match vector.slot i with
    | none => none
    | some elem =>
        ({ vector with destroyed := elem :: vector.destroyed } :
          Vec T).setSlot i (leaves elem)
  else
    some vector

/-! ## Capacity -/

/-- `cu_Vector_create` -/
def create
    (layout : Layout) (initialCapacity : Option Nat) (destructor : Bool)
    (grant : Grant T) : Except Error (Vec T) :=
  if layout.Invalid then
    .error .invalidLayout
  else
    match initialCapacity with
    | none => .ok ⟨none, 0, 0, layout, destructor, []⟩
    | some cap =>
        if 0 < cap then
          match alloc grant (Layout.create (sizeMul cap layout.elemSize)
              layout.alignment) layout.elemSize with
          | none => .error .oom
          | some data => .ok ⟨some data, 0, cap, layout, destructor, []⟩
        else
          .ok ⟨none, 0, 0, layout, destructor, []⟩

/-- `cu_Vector_destroy` -/
def destroy (vector : Vec T) : Option (Vec T) :=
  match vector.data with
  | none => some { vector with length := 0, capacity := 0 }
  | some _ =>
      (vector.destruct 0 vector.length).map fun vector =>
        { vector with data := none, length := 0, capacity := 0 }

/-- `cu_Vector_set_capacity` -/
def setCapacity (vector : Vec T) (capacity : Nat) (grant : Grant T) :
    Option (Option Error × Vec T) :=
  if vector.layout.Invalid then
    some (some .invalidLayout, vector)
  else if capacity = vector.capacity then
    some (none, vector)
  else if capacity = 0 then
    vector.destroy.map fun vector => (none, vector)
  else if capacity < vector.length then
    some (some .invalid, vector)
  else
    let layout := Layout.create
      (sizeMul capacity vector.layout.elemSize) vector.layout.alignment
    match vector.data with
    | some old =>
        let oldLength := sizeMul vector.capacity vector.layout.elemSize
        match
          if layout.elemSize > oldLength then
            grow grant old.slots layout vector.layout.elemSize
          else
            shrink grant old.slots layout vector.layout.elemSize
        with
        | none => some (some .oom, vector)
        | some data =>
            some (none,
              { vector with data := some data, capacity := capacity })
    | none =>
        match alloc grant layout vector.layout.elemSize with
        | none => some (some .oom, vector)
        | some data =>
            some (none,
              { vector with data := some data, capacity := capacity })

/-- `cu_Vector_reserve` -/
def reserve (vector : Vec T) (capacity : Nat) (grant : Grant T) :
    Option (Option Error × Vec T) :=
  if capacity ≤ vector.capacity then
    some (none, vector)
  else
    vector.setCapacity capacity grant

/-- `cu_Vector_shrink_to_fit` -/
def shrinkToFit (vector : Vec T) (grant : Grant T) :
    Option (Option Error × Vec T) :=
  vector.setCapacity vector.length grant

/-- `cu_Vector_maybe_shrink`, which ignores that it may fail. -/
def maybeShrink (vector : Vec T) (grant : Grant T) : Option (Vec T) :=
  if vector.length = 0 then
    (vector.shrinkToFit grant).map Prod.snd
  else if 1 < vector.capacity ∧
      vector.length ≤ vector.capacity / shrinkDiv then
    (vector.setCapacity (max (vector.capacity / 2) 1) grant).map Prod.snd
  else
    some vector

/-! ## Elements -/

/-- `cu_Vector_resize` -/
def resize (vector : Vec T) (size : Nat) (grant : Grant T) :
    Option (Option Error × Vec T) :=
  match
    if size > vector.capacity then
      vector.setCapacity size grant
    else
      some (none, vector)
  with
  | none => none
  | some (some error, vector) => some (some error, vector)
  | some (none, vector) =>
      let dropped :=
        if size < vector.length then
          vector.destruct size (vector.length - size)
        else
          some vector
      dropped.map fun vector => (none, { vector with length := size })

/-- What both push functions do first when there is no free slot. -/
def makeRoom (vector : Vec T) (grant : Grant T) :
    Option (Option Error × Vec T) :=
  if vector.length ≥ vector.capacity then
    vector.reserve
      (if vector.capacity = 0 then 1
        else sizeMul vector.capacity growFactor) grant
  else
    some (none, vector)

/-- `cu_Vector_push_back` -/
def pushBack (vector : Vec T) (elem : T) (grant : Grant T) :
    Option (Option Error × Vec T) :=
  if vector.layout.Invalid then
    some (some .invalidLayout, vector)
  else
    match vector.makeRoom grant with
    | none => none
    | some (some error, vector) => some (some error, vector)
    | some (none, vector) =>
        (vector.setSlot vector.length elem).map fun vector =>
          (none, { vector with length := vector.length + 1 })

/-- `cu_Vector_push_front` -/
def pushFront (vector : Vec T) (elem : T) (grant : Grant T) :
    Option (Option Error × Vec T) :=
  if vector.layout.Invalid then
    some (some .invalidLayout, vector)
  else
    match vector.makeRoom grant with
    | none => none
    | some (some error, vector) => some (some error, vector)
    | some (none, vector) =>
        match vector.shiftUp vector.length with
        | none => none
        | some vector =>
            (vector.setSlot 0 elem).map fun vector =>
              (none, { vector with length := vector.length + 1 })

/-- `cu_Vector_pop_back`: the inner `Except` carries `*out_elem`. -/
def popBack (vector : Vec T) (grant : Grant T) :
    Option (Except Error T × Vec T) :=
  if vector.layout.Invalid then
    some (.error .invalidLayout, vector)
  else if vector.length = 0 then
    some (.error .oob, vector)
  else
    let vector := { vector with length := vector.length - 1 }
    match vector.slot vector.length with
    | none => none
    | some elem =>
        match vector.destruct vector.length 1 with
        | none => none
        | some vector =>
            (vector.maybeShrink grant).map fun vector => (.ok elem, vector)

/--
`cu_Vector_pop_front`: the destructor runs on the first slot, and then the
elements in front of the last one are moved up by one slot.
-/
def popFront (vector : Vec T) (leaves : T → T) (grant : Grant T) :
    Option (Except Error T × Vec T) :=
  if vector.layout.Invalid then
    some (.error .invalidLayout, vector)
  else if vector.length = 0 then
    some (.error .oob, vector)
  else
    match vector.slot 0 with
    | none => none
    | some elem =>
        match vector.destructSlot leaves 0 with
        | none => none
        | some vector =>
            match vector.shiftUp (vector.length - 1) with
            | none => none
            | some vector =>
                (({ vector with length := vector.length - 1 } :
                  Vec T).maybeShrink grant).map fun vector =>
                    (.ok elem, vector)

/-- `cu_Vector_clear` -/
def clear (vector : Vec T) (grant : Grant T) : Option (Vec T) :=
  match vector.destruct 0 vector.length with
  | none => none
  | some vector => ({ vector with length := 0 } : Vec T).maybeShrink grant

/--
`cu_Vector_at`, read through the pointer: the inner level is `Ptr_Optional`.
-/
def at' (vector : Vec T) (index : Nat) : Option (Option T) :=
  if vector.layout.Invalid then
    some none
  else if index ≥ vector.length then
    some none
  else
    (vector.slot index).map some

/--
`cu_Vector_iter`: the inner `none` is the result false, a pair is the element
with the new `*index`.
-/
def iter (vector : Vec T) (index : Nat) : Option (Option (T × Nat)) :=
  if vector.layout.Invalid then
    some none
  else if index ≥ vector.length then
    some none
  else
    (vector.slot index).map fun elem => some (elem, index + 1)

/-- Call `cu_Vector_iter` until it returns false. -/
def iterateFrom (vector : Vec T) : Nat → Nat → Option (List T)
  | 0, _ => none
  | calls + 1, index =>
      match vector.iter index with
      | none => none
      | some none => some []
      | some (some (elem, index)) =>
          (vector.iterateFrom calls index).map (elem :: ·)

/-- All elements that iteration yields. -/
def iterate (vector : Vec T) : Option (List T) :=
  vector.iterateFrom (vector.length + 1) 0

/-! ## Views -/

/--
`cu_Vector_subslice`: the first slot of the view and how many it covers.
-/
def subslice (vector : Vec T) (index count : Nat) : Option (Nat × Nat) :=
  if vector.data.isNone ∨ index > vector.length then
    none
  else if sizeAdd index count > vector.length then
    some (index, vector.length - index)
  else
    some (index, count)

end Vec

end Libcute.Collection.Vector
