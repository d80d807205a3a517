import Mathlib.Data.List.Rotate
import Mathlib.Data.Nat.ModEq
import Mathlib.Tactic.SplitIfs
import Libcute.Collection.Blocks
import Libcute.Core.Size

/-!
# The ring buffer

`ring_buffer.c` keeps a queue in a block of fixed size.  The oldest element
is at `head`, and the positions wrap at the end of the block.

A slot that is not in the block has no content; reading or writing one has no
result, and neither has a remainder by zero.  No object is larger than
`PTRDIFF_MAX` bytes, so no allocator grants a larger block.  The null checks
of the interface functions are not modelled.
-/

namespace Libcute.Collection.RingBuffer

open Libcute.Collection.Blocks
open Libcute.Core.Interface
open Libcute.Core.Size

variable {T : Type}

/-- `PTRDIFF_MAX` -/
def objectLimit : Nat := 2 ^ 63 - 1

/-- `cu_RingBuffer_Error` -/
inductive Error where
  | oom
  | invalidLayout
  | invalid
  | full
  | empty
deriving DecidableEq, Repr

/--
`cu_RingBuffer`.  `destroyed` lists what the destructor was called with, the
latest element first.
-/
structure RingBuf (T : Type) where
  data : Option (Storage T)
  capacity : Nat
  head : Nat
  length : Nat
  layout : Layout
  destructor : Bool
  destroyed : List T

/-- `cu_Allocator_Alloc` for a block that is an object. -/
def allocObject (grant : Grant T) (layout : Layout) (elemSize : Nat) :
    Option (Storage T) :=
  if objectLimit < layout.elemSize then none else alloc grant layout elemSize

namespace RingBuf

/-- `cu_RingBuffer_is_empty` -/
def isEmpty (rb : RingBuf T) : Bool := rb.length = 0

/-- `cu_RingBuffer_is_full` -/
def isFull (rb : RingBuf T) : Bool :=
  rb.length = rb.capacity ∧ rb.capacity > 0

/-- The element in a slot. -/
def slot (rb : RingBuf T) (i : Nat) : Option T :=
  rb.data.bind fun storage => storage.slots[i]?

/-- Copy an element into a slot. -/
def setSlot (rb : RingBuf T) (i : Nat) (elem : T) : Option (RingBuf T) :=
  match rb.data with
  | none => none
  | some storage =>
      if i < storage.slots.length then
        some { rb with
          data := some { storage with slots := storage.slots.set i elem } }
      else
        none

/-- Run the destructor, if there is one. -/
def destruct (rb : RingBuf T) (elem : T) : RingBuf T :=
  if rb.destructor = true then
    { rb with destroyed := elem :: rb.destroyed }
  else
    rb

/-- `cu_RingBuffer_create` -/
def create
    (layout : Layout) (capacity : Nat) (destructor : Bool)
    (grant : Grant T) : Except Error (RingBuf T) :=
  if layout.Invalid then
    .error .invalidLayout
  else if capacity > 0 then
    match allocObject grant (Layout.create
        (sizeMul capacity layout.elemSize) layout.alignment)
        layout.elemSize with
    | none => .error .oom
    | some data => .ok ⟨some data, capacity, 0, 0, layout, destructor, []⟩
  else
    .ok ⟨none, capacity, 0, 0, layout, destructor, []⟩

/-- `cu_RingBuffer_push` -/
def push (rb : RingBuf T) (elem : T) : Option (Option Error × RingBuf T) :=
  if rb.layout.Invalid then
    some (some .invalidLayout, rb)
  else if rb.isFull then
    some (some .full, rb)
  else if rb.capacity = 0 then
    none
  else
    let tail := sizeAdd rb.head rb.length % rb.capacity
    (rb.setSlot tail elem).map fun rb =>
      (none, { rb with length := rb.length + 1 })

/-- `cu_RingBuffer_pop`: the inner `Except` carries `*out_elem`. -/
def pop (rb : RingBuf T) : Option (Except Error T × RingBuf T) :=
  if rb.layout.Invalid then
    some (.error .invalidLayout, rb)
  else if rb.isEmpty then
    some (.error .empty, rb)
  else
    match rb.slot rb.head with
    | none => none
    | some elem =>
        if rb.capacity = 0 then
          none
        else
          let rb := rb.destruct elem
          some (.ok elem,
            { rb with
              head := sizeAdd rb.head 1 % rb.capacity
              length := rb.length - 1 })

/-- The loop that calls the destructor on the elements from one on. -/
def destructLoop (rb : RingBuf T) (i : Nat) : Nat → Option (RingBuf T)
  | 0 => some rb
  | count + 1 =>
      if rb.capacity = 0 then
        none
      else
        match rb.slot (sizeAdd rb.head i % rb.capacity) with
        | none => none
        | some elem => (rb.destruct elem).destructLoop (i + 1) count

/-- `cu_RingBuffer_clear` -/
def clear (rb : RingBuf T) : Option (RingBuf T) :=
  let destroyed :=
    if rb.destructor = true then rb.destructLoop 0 rb.length else some rb
  destroyed.map fun rb => { rb with head := 0, length := 0 }

/-- `cu_RingBuffer_destroy` -/
def destroy (rb : RingBuf T) : Option (RingBuf T) :=
  let destroyed :=
    if rb.data.isSome ∧ rb.destructor = true then
      rb.destructLoop 0 rb.length
    else
      some rb
  destroyed.map fun rb =>
    { rb with data := none, capacity := 0, head := 0, length := 0 }

end RingBuf

/-! ## The queue -/

variable {rb rb' : RingBuf T} {elem : T} {rest : List T} {storage : Storage T}

/-- The elements in the order in which they were pushed. -/
def RingBuf.contents (rb : RingBuf T) : List T :=
  match rb.data with
  | none => []
  | some storage => (storage.slots.rotate rb.head).take rb.length

/-- The invariant of a ring buffer with room for an element. -/
structure Sound (rb : RingBuf T) : Prop where
  layout : ¬ rb.layout.Invalid
  positive : 0 < rb.capacity
  limit : rb.capacity ≤ objectLimit
  head : rb.head < rb.capacity
  within : rb.length ≤ rb.capacity
  stored : ∃ storage, rb.data = some storage ∧
    storage.slots.length = rb.capacity

/-- What the calls do not change. -/
structure Alike (rb rb' : RingBuf T) : Prop where
  capacity : rb'.capacity = rb.capacity
  layout : rb'.layout = rb.layout
  destructor : rb'.destructor = rb.destructor

theorem contents_of_data (data : rb.data = some storage) :
    rb.contents = (storage.slots.rotate rb.head).take rb.length := by
  unfold RingBuf.contents
  rw [data]

theorem Sound.contents_length (sound : Sound rb) :
    rb.contents.length = rb.length := by
  rcases sound.stored with ⟨storage, data, long⟩
  rw [contents_of_data data, List.length_take, List.length_rotate, long,
    Nat.min_eq_left sound.within]

/-- The slot that is `i` places behind the head. -/
theorem Sound.place
    (sound : Sound rb) {i : Nat} (inside : i ≤ rb.capacity) :
    sizeAdd rb.head i % rb.capacity = (i + rb.head) % rb.capacity := by
  have head := sound.head
  have limit := sound.limit
  unfold objectLimit at limit
  rw [sizeAdd_eq (by unfold sizeLimit; omega), Nat.add_comm]

theorem isFull_iff (sound : Sound rb) :
    rb.isFull = true ↔ rb.length = rb.capacity := by
  have positive := sound.positive
  unfold RingBuf.isFull
  simp [positive]

theorem isEmpty_iff : rb.isEmpty = true ↔ rb.length = 0 := by
  unfold RingBuf.isEmpty
  simp

theorem Sound.push_full
    (sound : Sound rb) (full : rb.length = rb.capacity) (elem : T) :
    rb.push elem = some (some .full, rb) := by
  unfold RingBuf.push
  rw [if_neg sound.layout, if_pos ((isFull_iff sound).mpr full)]

/-- A pushed element is the last one. -/
theorem Sound.push_spec
    (sound : Sound rb) (room : rb.length < rb.capacity) (elem : T) :
    ∃ rb', rb.push elem = some (none, rb') ∧ Sound rb' ∧
      rb'.contents = rb.contents ++ [elem] ∧ Alike rb rb' ∧
      rb'.length = rb.length + 1 := by
  rcases sound.stored with ⟨storage, data, long⟩
  have positive := sound.positive
  have free : ¬ rb.isFull = true := by
    rw [isFull_iff sound]
    omega
  generalize spot : (rb.length + rb.head) % rb.capacity = tail
  have inside : tail < storage.slots.length := by
    rw [← spot, long]
    exact Nat.mod_lt _ positive
  refine ⟨{ rb with
      data := some { storage with slots := storage.slots.set tail elem }
      length := rb.length + 1 }, ?_,
    ⟨sound.layout, positive, sound.limit, sound.head, room, ?_⟩, ?_,
    ⟨rfl, rfl, rfl⟩, rfl⟩
  · unfold RingBuf.push
    rw [if_neg sound.layout, if_neg free, if_neg (by omega)]
    dsimp only
    rw [sound.place room.le, spot]
    unfold RingBuf.setSlot
    rw [data]
    dsimp only
    rw [if_pos inside]
    rfl
  · exact ⟨_, rfl, by rw [List.length_set]; exact long⟩
  · rw [contents_of_data data]
    change ((storage.slots.set tail elem).rotate rb.head).take
      (rb.length + 1) = _
    apply List.ext_getElem
    · rw [List.length_append, List.length_take, List.length_take,
        List.length_rotate, List.length_rotate, List.length_set]
      simp only [List.length_cons, List.length_nil]
      omega
    · intro i left right
      rw [List.length_take, List.length_rotate, List.length_set] at left
      rw [List.getElem_take, List.getElem_rotate, List.getElem_set,
        List.getElem_append]
      simp only [List.length_set, List.length_take, List.length_rotate, long]
      by_cases last : i < rb.length
      · have apart : tail ≠ (i + rb.head) % rb.capacity := by
          rw [← spot]
          intro same
          have cancel : rb.length % rb.capacity = i % rb.capacity :=
            Nat.ModEq.add_right_cancel' rb.head same
          rw [Nat.mod_eq_of_lt room, Nat.mod_eq_of_lt (by omega)] at cancel
          omega
        rw [if_neg apart, dif_pos (by omega), List.getElem_take,
          List.getElem_rotate]
        simp only [long]
      · have here : i = rb.length := by omega
        subst here
        rw [if_pos spot.symm, dif_neg (by omega)]
        simp

theorem Sound.pop_empty (sound : Sound rb) (empty : rb.length = 0) :
    rb.pop = some (.error .empty, rb) := by
  unfold RingBuf.pop
  rw [if_neg sound.layout, if_pos (isEmpty_iff.mpr empty)]

/-- The first element is popped. -/
theorem Sound.pop_spec
    (sound : Sound rb) (filled : rb.contents = elem :: rest) :
    ∃ rb', rb.pop = some (.ok elem, rb') ∧ Sound rb' ∧
      rb'.contents = rest ∧ Alike rb rb' ∧ rb'.length = rb.length - 1 := by
  rcases sound.stored with ⟨storage, data, long⟩
  have positive := sound.positive
  have head := sound.head
  have counted := sound.contents_length
  have within := sound.within
  rw [filled, List.length_cons] at counted
  have some' : ¬ rb.isEmpty = true := by
    rw [isEmpty_iff]
    omega
  have cells : ∀ i (inside : i < (elem :: rest).length),
      (elem :: rest)[i] = storage.slots.get
        ⟨(i + rb.head) % rb.capacity,
          (Nat.mod_lt _ positive).trans_eq long.symm⟩ := by
    intro i inside
    have shown := contents_of_data data
    rw [filled] at shown
    have reads := List.getElem_of_eq shown inside
    rw [List.getElem_take, List.getElem_rotate] at reads
    simp only [long] at reads
    exact reads
  have first := cells 0 (Nat.zero_lt_succ _)
  simp only [Nat.zero_add, Nat.mod_eq_of_lt head,
    List.getElem_cons_zero] at first
  have next : sizeAdd rb.head 1 % rb.capacity =
      (1 + rb.head) % rb.capacity := sound.place (by omega)
  have destructs : rb.destruct elem =
      { rb with destroyed := (rb.destruct elem).destroyed } := by
    unfold RingBuf.destruct
    split_ifs <;> rfl
  refine ⟨{ rb with
      head := (1 + rb.head) % rb.capacity
      length := rb.length - 1
      destroyed := (rb.destruct elem).destroyed }, ?_,
    ⟨sound.layout, positive, sound.limit, Nat.mod_lt _ positive, ?_, ?_⟩,
    ?_, ⟨rfl, rfl, rfl⟩, rfl⟩
  · have reads : rb.slot rb.head = some elem := by
      unfold RingBuf.slot
      rw [data, first]
      exact List.getElem?_eq_getElem (by omega)
    unfold RingBuf.pop
    rw [if_neg sound.layout, if_neg some', reads]
    dsimp only
    rw [if_neg (by omega), destructs]
    dsimp only
    rw [next]
  · dsimp only
    omega
  · exact ⟨storage, data, long⟩
  · have shown :
        ({ rb with
            head := (1 + rb.head) % rb.capacity
            length := rb.length - 1
            destroyed := (rb.destruct elem).destroyed } :
          RingBuf T).contents =
          (storage.slots.rotate ((1 + rb.head) % rb.capacity)).take
            (rb.length - 1) := contents_of_data data
    rw [shown]
    apply List.ext_getElem
    · rw [List.length_take, List.length_rotate]
      omega
    · intro i left right
      have later := cells (i + 1) (Nat.succ_lt_succ right)
      rw [List.getElem_cons_succ] at later
      rw [List.getElem_take, List.getElem_rotate, later, List.get_eq_getElem]
      have same : (i + (1 + rb.head) % rb.capacity) % rb.capacity =
          (i + 1 + rb.head) % rb.capacity := by
        rw [Nat.add_mod_mod, Nat.add_assoc]
      simp only [long, same]

/-- The element that is `i` places behind the head. -/
theorem Sound.slot_eq
    (sound : Sound rb) {i : Nat} (inside : i < rb.length) :
    rb.slot (sizeAdd rb.head i % rb.capacity) = rb.contents[i]? := by
  rcases sound.stored with ⟨storage, data, long⟩
  have within := sound.within
  have spot : (i + rb.head) % rb.capacity < storage.slots.length := by
    rw [long]
    exact Nat.mod_lt _ sound.positive
  rw [sound.place (by omega), contents_of_data data,
    List.getElem?_take_of_lt inside,
    List.getElem?_eq_getElem
      (by rw [List.length_rotate]; omega),
    List.getElem_rotate]
  unfold RingBuf.slot
  rw [data]
  dsimp only [Option.bind_some]
  simp only [long]
  exact List.getElem?_eq_getElem spot

/-- The loop calls the destructor on the elements in their order. -/
theorem Sound.destructLoop_eq
    (sound : Sound rb) (i count : Nat) (inside : i + count ≤ rb.length) :
    rb.destructLoop i count =
      some { rb with
        destroyed :=
          (if rb.destructor = true then
            ((rb.contents.drop i).take count).reverse
          else
            []) ++ rb.destroyed } := by
  induction count generalizing rb i with
  | zero =>
      unfold RingBuf.destructLoop
      simp
  | succ count induction =>
      have counted := sound.contents_length
      have positive := sound.positive
      have reads := sound.slot_eq (show i < rb.length by omega)
      rw [List.getElem?_eq_getElem (by omega)] at reads
      have split : rb.contents.drop i =
          rb.contents[i] :: rb.contents.drop (i + 1) :=
        List.drop_eq_getElem_cons (by omega)
      unfold RingBuf.destructLoop
      rw [if_neg (by omega), reads]
      dsimp only
      generalize rb.contents[i] = elem at split
      by_cases calls : rb.destructor = true
      · have sound' : Sound { rb with destroyed := elem :: rb.destroyed } :=
          ⟨sound.layout, positive, sound.limit, sound.head, sound.within,
            sound.stored⟩
        have rest := induction sound' (i + 1) (by dsimp only; omega)
        have same : ({ rb with destroyed := elem :: rb.destroyed } :
            RingBuf T).contents = rb.contents := rfl
        unfold RingBuf.destruct
        rw [if_pos calls, rest, same]
        dsimp only
        rw [if_pos calls, if_pos calls, split, List.take_succ_cons,
          List.reverse_cons, List.append_assoc]
        rfl
      · unfold RingBuf.destruct
        rw [if_neg calls, induction sound (i + 1) (by omega), if_neg calls,
          if_neg calls]

/-- What the destructor was called with when the loop has ended. -/
def RingBuf.drained (rb : RingBuf T) : List T :=
  (if rb.destructor = true then rb.contents.reverse else []) ++ rb.destroyed

theorem Sound.destructLoop_all (sound : Sound rb) :
    rb.destructLoop 0 rb.length = some { rb with destroyed := rb.drained } := by
  have counted := sound.contents_length
  rw [sound.destructLoop_eq 0 rb.length (by omega), List.drop_zero,
    ← counted, List.take_length]
  rfl

theorem Sound.clear_eq (sound : Sound rb) :
    rb.clear =
      some { rb with head := 0, length := 0, destroyed := rb.drained } := by
  unfold RingBuf.clear
  by_cases calls : rb.destructor = true
  · rw [if_pos calls, sound.destructLoop_all]
    rfl
  · rw [if_neg calls]
    unfold RingBuf.drained
    rw [if_neg calls]
    rfl

theorem Sound.clear_spec (sound : Sound rb) :
    ∃ rb', rb.clear = some rb' ∧ Sound rb' ∧ rb'.contents = [] ∧
      Alike rb rb' ∧ rb'.length = 0 := by
  rcases sound.stored with ⟨storage, data, long⟩
  refine ⟨_, sound.clear_eq,
    ⟨sound.layout, sound.positive, sound.limit, sound.positive,
      Nat.zero_le _, storage, data, long⟩, ?_, ⟨rfl, rfl, rfl⟩, rfl⟩
  unfold RingBuf.contents
  dsimp only
  rw [data]
  exact List.take_zero

theorem Sound.destroy_eq (sound : Sound rb) :
    rb.destroy =
      some { rb with
        data := none
        capacity := 0
        head := 0
        length := 0
        destroyed := rb.drained } := by
  rcases sound.stored with ⟨storage, data, _⟩
  have stored : rb.data.isSome = true := by
    rw [data]
    rfl
  unfold RingBuf.destroy
  by_cases calls : rb.destructor = true
  · rw [if_pos ⟨stored, calls⟩, sound.destructLoop_all]
    rfl
  · rw [if_neg fun both => calls both.2]
    unfold RingBuf.drained
    rw [if_neg calls]
    rfl

/-- A new ring buffer is empty. -/
theorem create_spec
    {layout : Layout} {capacity : Nat} {destructor : Bool}
    {grant : Grant T} (positive : capacity > 0)
    (fits : capacity * layout.elemSize < sizeLimit)
    (created : RingBuf.create layout capacity destructor grant = .ok rb) :
    Sound rb ∧ rb.contents = [] ∧ rb.capacity = capacity ∧
      rb.layout = layout ∧ rb.destructor = destructor := by
  unfold RingBuf.create at created
  rw [if_pos positive] at created
  split_ifs at created with invalid
  have sized : 0 < layout.elemSize := by
    unfold Layout.Invalid at invalid
    omega
  have aligned : layout.alignment ≠ 0 := by
    unfold Layout.Invalid at invalid
    omega
  have bytes : capacity * layout.elemSize ≠ 0 :=
    (Nat.mul_pos positive sized).ne'
  have request : Layout.create (sizeMul capacity layout.elemSize)
      layout.alignment =
        ⟨capacity * layout.elemSize, layout.alignment⟩ := by
    rw [sizeMul_eq fits, Layout.create_of_pos bytes aligned]
  rw [request] at created
  unfold allocObject alloc at created
  cases grant with
  | none => split_ifs at created
  | some granted =>
      rcases granted with ⟨ptr, fill⟩
      dsimp only at created
      split_ifs at created with large
      rw [Nat.mul_div_cancel _ sized] at created
      cases created
      have room : capacity ≤ capacity * layout.elemSize :=
        Nat.le_mul_of_pos_right _ sized
      refine ⟨⟨invalid, positive, by dsimp only; omega, positive,
        Nat.zero_le _, _, rfl, ?_⟩, ?_, rfl, rfl, rfl⟩
      · rw [List.length_map, List.length_range]
      · unfold RingBuf.contents
        exact List.take_zero

end Libcute.Collection.RingBuffer
