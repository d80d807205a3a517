import Libcute.Collection.RingBuffer
import Libcute.Text.Format

/-!
# Strings

`cu_String` keeps its characters in a block with one byte more than its
capacity, for the NUL.  A string without a block has no characters.  No
object is larger than `PTRDIFF_MAX` bytes, so no allocator grants a larger
block.
-/

namespace Libcute.Text.CuteString

open Libcute.Collection.Blocks
open Libcute.Collection.RingBuffer (objectLimit)
open Libcute.Core.Interface (Layout)
open Libcute.Core.Size
open Libcute.Text.Format (cString)

/-- `cu_String_Error`, without `CU_STRING_ERROR_NONE` -/
inductive Error where
  | oom
deriving DecidableEq, Repr

/-- `cu_String` -/
structure Str where
  data : Option (Storage UInt8)
  length : Nat
  capacity : Nat

/-- The answer to a request for so many bytes. -/
def bounded (grant : Grant UInt8) (size : Nat) : Grant UInt8 :=
  if objectLimit < size then none else grant

namespace Str

/-- `cu_String_init` -/
def init : Str := ⟨none, 0, 0⟩

/-- `cu_string_alloc` -/
def alloc (str : Str) (cap : Nat) (grant : Grant UInt8) :
    Option Error × Str :=
  let layout := Layout.create (sizeAdd cap 1) 1
  let grant := bounded grant layout.elemSize
  let mem :=
    match str.data with
    | none => Collection.Blocks.alloc grant layout 1
    | some old =>
        if layout.elemSize > sizeAdd str.capacity 1 then
          grow grant old.slots layout 1
        else
          shrink grant old.slots layout 1
  match mem with
  | none => (some .oom, str)
  | some mem => (none, { str with data := some mem, capacity := cap })

/-- `cu_String_destroy` -/
def destroy (_ : Str) : Str := ⟨none, 0, 0⟩

/-- `cu_String_reserve` -/
def reserve (str : Str) (capacity : Nat) (grant : Grant UInt8) :
    Option Error × Str :=
  if capacity ≤ str.capacity then
    (none, str)
  else
    str.alloc capacity grant

/-- Copy characters into the block. -/
def copyIn (str : Str) (pos : Nat) (slice : List UInt8) : Option Str :=
  if slice.length > 0 then
    match str.data with
    | none => none
    | some storage =>
        if pos + slice.length ≤ storage.slots.length then
          some { str with
            data := some { storage with
              slots := storage.slots.take pos ++ slice ++
                storage.slots.drop (pos + slice.length) } }
        else
          none
  else
    some str

/-- Write a NUL. -/
def terminate (str : Str) (pos : Nat) : Option Str :=
  match str.data with
  | none => none
  | some storage =>
      if pos < storage.slots.length then
        some { str with
          data := some { storage with slots := storage.slots.set pos 0 } }
      else
        none

/-- `cu_String_clear` -/
def clear (str : Str) : Option Str :=
  let str := { str with length := 0 }
  match str.data with
  | none => some str
  | some _ => str.terminate 0

/-- `cu_String_from_slice` -/
def fromSlice (slice : List UInt8) (grant : Grant UInt8) :
    Option (Except Error Str) :=
  match init.alloc slice.length grant with
  | (some _, _) => some (.error .oom)
  | (none, str) =>
      match str.copyIn 0 slice with
      | none => none
      | some str =>
          (str.terminate slice.length).map fun str =>
            .ok { str with length := slice.length }

/-- The characters of a C string that may be missing. -/
def characters (cstr : Option (List UInt8)) : List UInt8 :=
  match cstr with
  | none => []
  | some bytes => cString bytes

/-- `cu_String_from_cstr` -/
def fromCstr (cstr : Option (List UInt8)) (grant : Grant UInt8) :
    Option (Except Error Str) :=
  fromSlice (characters cstr) grant

/-- `cu_String_as_slice` -/
def asSlice (str : Str) : List UInt8 :=
  match str.data with
  | none => []
  | some storage => storage.slots.take str.length

/-- `cu_String_copy` -/
def copy (src : Str) (grant : Grant UInt8) : Option (Except Error Str) :=
  fromSlice src.asSlice grant

/-- `cu_String_append_slice` -/
def appendSlice (str : Str) (slice : List UInt8) (grant : Grant UInt8) :
    Option (Option Error × Str) :=
  let newLen := sizeAdd str.length slice.length
  let roomy :=
    if newLen > str.capacity then
      let newCap :=
        if str.capacity ≠ 0 then sizeMul str.capacity 2 else slice.length
      let newCap := if newCap < newLen then newLen else newCap
      str.alloc newCap grant
    else
      (none, str)
  match roomy with
  | (some err, str) => some (some err, str)
  | (none, str) =>
      match str.copyIn str.length slice with
      | none => none
      | some str =>
          ({ str with length := newLen }.terminate newLen).map fun str =>
            (none, str)

/-- `cu_String_append_cstr` -/
def appendCstr
    (str : Str) (cstr : Option (List UInt8)) (grant : Grant UInt8) :
    Option (Option Error × Str) :=
  str.appendSlice (characters cstr) grant

/-- `cu_String_append` -/
def append (str other : Str) (grant : Grant UInt8) :
    Option (Option Error × Str) :=
  str.appendSlice other.asSlice grant

/--
`cu_String_subslice`: the first position of the view and how many it covers,
or nothing for the view of the null pointer.
-/
def subslice (str : Str) (off len : Nat) : Option (Nat × Nat) :=
  if off > str.length then
    none
  else if sizeAdd off len > str.length then
    some (off, str.length - off)
  else
    some (off, len)

/-- The bytes of the block that a view covers. -/
def read (str : Str) (off len : Nat) : Option (List UInt8) :=
  if len = 0 then
    some []
  else
    str.data.bind fun storage =>
      if off + len ≤ storage.slots.length then
        some ((storage.slots.drop off).take len)
      else
        none

end Str

/-! ## The characters -/

variable {str str' : Str} {cap : Nat} {grant : Grant UInt8}

/-- The invariant of a string. -/
structure Sound (str : Str) : Prop where
  vacant : str.data = none → str.length = 0 ∧ str.capacity = 0
  slots : ∀ storage, str.data = some storage →
    storage.slots.length = str.capacity + 1
  within : str.length ≤ str.capacity
  limit : str.capacity < objectLimit

/-- The characters of a string. -/
def Str.bytes (str : Str) : List UInt8 :=
  match str.data with
  | none => []
  | some storage => storage.slots.take str.length

/-- The string can be read as a C string: there is a NUL at its end. -/
def Str.Terminated (str : Str) : Prop :=
  ∃ storage, str.data = some storage ∧ storage.slots[str.length]? = some 0

theorem init_sound : Sound Str.init where
  vacant _ := ⟨rfl, rfl⟩
  slots _ absent := nomatch absent
  within := le_rfl
  limit := by decide

theorem Sound.bytes_length (sound : Sound str) :
    str.bytes.length = str.length := by
  unfold Str.bytes
  cases data : str.data with
  | none => exact (sound.vacant data).1.symm
  | some storage =>
      have long := sound.slots storage data
      have within := sound.within
      dsimp only
      rw [List.length_take]
      omega

theorem bytes_of_data {storage : Storage UInt8}
    (data : str.data = some storage) :
    str.bytes = storage.slots.take str.length := by
  unfold Str.bytes
  rw [data]

/-- A new block has the size that was asked for, and the old characters. -/
theorem alloc_eq
    (fits : cap + 1 < sizeLimit)
    (allocates : str.alloc cap grant = (none, str')) :
    ∃ storage, str' = ⟨some storage, str.length, cap⟩ ∧
      cap < objectLimit ∧ storage.slots.length = cap + 1 ∧
      ∀ old, str.data = some old → ∀ len, len ≤ cap + 1 →
        len ≤ old.slots.length →
        storage.slots.take len = old.slots.take len := by
  have request : Layout.create (sizeAdd cap 1) 1 = ⟨cap + 1, 1⟩ := by
    rw [sizeAdd_eq fits, Layout.create_of_pos (by omega) (by omega)]
  unfold Str.alloc at allocates
  rw [request] at allocates
  dsimp only at allocates
  cases given : bounded grant (cap + 1) with
  | none =>
      rw [given] at allocates
      cases data : str.data with
      | none =>
          rw [data] at allocates
          cases allocates
      | some old =>
          rw [data] at allocates
          unfold grow shrink move at allocates
          dsimp only at allocates
          rw [ite_self] at allocates
          cases allocates
  | some granted =>
      have limit : cap < objectLimit := by
        unfold bounded at given
        split_ifs at given
        omega
      rcases granted with ⟨ptr, fill⟩
      rw [given] at allocates
      cases data : str.data with
      | none =>
          rw [data] at allocates
          dsimp only [Collection.Blocks.alloc] at allocates
          rw [if_neg (by omega), Nat.div_one] at allocates
          cases allocates
          exact ⟨_, rfl, limit, by rw [List.length_map, List.length_range],
            fun _ absent => nomatch absent⟩
      | some old =>
          rw [data] at allocates
          unfold grow shrink move at allocates
          dsimp only at allocates
          rw [ite_self] at allocates
          dsimp only [Option.map_some] at allocates
          rw [Nat.div_one] at allocates
          cases allocates
          refine ⟨_, rfl, limit, by rw [List.length_map, List.length_range],
            ?_⟩
          intro _ same len within stored
          cases same
          exact take_moved within stored

/-- A larger block keeps the characters. -/
theorem Sound.alloc_spec
    (sound : Sound str) (larger : str.length ≤ cap)
    (fits : cap + 1 < sizeLimit)
    (allocates : str.alloc cap grant = (none, str')) :
    Sound str' ∧ str'.bytes = str.bytes ∧ str'.length = str.length ∧
      str'.capacity = cap ∧ str'.data.isSome := by
  rcases alloc_eq fits allocates with ⟨storage, rfl, limit, long, same⟩
  refine ⟨⟨?_, ?_, larger, limit⟩, ?_, rfl, rfl, rfl⟩
  · intro absent
    cases absent
  · intro _ same
    cases same
    exact long
  · change storage.slots.take str.length = _
    cases data : str.data with
    | none =>
        unfold Str.bytes
        rw [data, (sound.vacant data).1, List.take_zero]
    | some old =>
        have stored := sound.slots old data
        have within := sound.within
        rw [bytes_of_data data, same old data _ (by omega) (by omega)]

/-- What is reserved is there, and the characters stay. -/
theorem Sound.reserve_spec
    (sound : Sound str) (fits : cap + 1 < sizeLimit)
    (reserves : str.reserve cap grant = (none, str')) :
    Sound str' ∧ str'.bytes = str.bytes ∧ str'.length = str.length ∧
      cap ≤ str'.capacity ∧
      (str'.data.isSome = true ↔ str.data.isSome = true ∨ 0 < cap) := by
  unfold Str.reserve at reserves
  split_ifs at reserves with enough
  · cases reserves
    refine ⟨sound, rfl, rfl, enough, Or.inl, fun stored => ?_⟩
    rcases stored with stored | positive
    · exact stored
    · cases data : str.data with
      | some _ => rfl
      | none =>
          have vacant := (sound.vacant data).2
          omega
  · have larger := sound.within
    rcases sound.alloc_spec (by omega) fits reserves with
      ⟨sound', bytes, length, capacity, stored⟩
    exact ⟨sound', bytes, length, capacity.ge, fun _ => .inr (by omega),
      fun _ => stored⟩

end Libcute.Text.CuteString
