import Mathlib.Data.List.Basic
import Mathlib.Tactic.SplitIfs
import Libcute.Collection.Vector

/-!
# The calls of the vector

`Valid` is the invariant of a vector, and `elements` is the list that it
stands for.  Every change of the capacity keeps the elements, whether the
allocator grants it or not; what the other calls do to the elements follows
from that.
-/

namespace Libcute.Collection.Vector

open Libcute.Collection.Blocks
open Libcute.Core.Interface
open Libcute.Core.Size

variable {T : Type} {vector vector' : Vec T} {storage : Storage T}
  {grant : Grant T} {layout : Layout} {elem : T} {i count size : Nat}

/-- The elements of a vector. -/
def Vec.elements (vector : Vec T) : List T :=
  match vector.data with
  | none => []
  | some storage => storage.slots.take vector.length

/-- What the destructor log gains when some elements leave in their order. -/
def Vec.due (vector : Vec T) (left : List T) : List T :=
  if vector.destructor = true then left.reverse else []

/-- The invariant of a vector. -/
structure Valid (vector : Vec T) : Prop where
  layout : ¬ vector.layout.Invalid
  within : vector.length ≤ vector.capacity
  fits : vector.capacity * vector.layout.elemSize < sizeLimit
  vacant : vector.data = none → vector.capacity = 0
  positive : ∀ storage, vector.data = some storage → 0 < vector.capacity
  slots : ∀ storage, vector.data = some storage →
    storage.slots.length = vector.capacity
  bytes : ∀ storage, vector.data = some storage →
    storage.mem.length = vector.capacity * vector.layout.elemSize

/-- A valid vector with the same elements. -/
structure Keeps (vector vector' : Vec T) : Prop where
  valid : Valid vector'
  elements : vector'.elements = vector.elements
  length : vector'.length = vector.length
  layout : vector'.layout = vector.layout
  destructor : vector'.destructor = vector.destructor
  destroyed : vector'.destroyed = vector.destroyed

theorem Valid.keeps (valid : Valid vector) : Keeps vector vector :=
  ⟨valid, rfl, rfl, rfl, rfl, rfl⟩

theorem Valid.elemSize_pos (valid : Valid vector) :
    0 < vector.layout.elemSize := by
  have layout := valid.layout
  unfold Layout.Invalid at layout
  omega

/-! ## Reading -/

theorem elements_of_data (data : vector.data = some storage) :
    vector.elements = storage.slots.take vector.length := by
  unfold Vec.elements
  rw [data]

theorem slot_of_data (data : vector.data = some storage) (i : Nat) :
    vector.slot i = storage.slots[i]? := by
  unfold Vec.slot
  rw [data]
  rfl

theorem Valid.elements_length (valid : Valid vector) :
    vector.elements.length = vector.length := by
  cases data : vector.data with
  | none =>
      have empty := valid.vacant data
      have within := valid.within
      unfold Vec.elements
      rw [data, List.length_nil]
      omega
  | some storage =>
      rw [elements_of_data data, List.length_take, valid.slots _ data,
        Nat.min_eq_left valid.within]

theorem Valid.slot_eq (valid : Valid vector) (inside : i < vector.length) :
    vector.slot i = vector.elements[i]? := by
  cases data : vector.data with
  | none =>
      have empty := valid.vacant data
      have within := valid.within
      omega
  | some storage =>
      rw [elements_of_data data, slot_of_data data,
        List.getElem?_take_of_lt inside]

theorem Valid.at_eq (valid : Valid vector) (i : Nat) :
    vector.at' i = some vector.elements[i]? := by
  unfold Vec.at'
  rw [if_neg valid.layout]
  split_ifs with beyond
  · rw [List.getElem?_eq_none (by rw [valid.elements_length]; exact beyond)]
  · have inside : i < vector.elements.length := by
      rw [valid.elements_length]
      omega
    rw [valid.slot_eq (by omega), List.getElem?_eq_getElem inside]
    rfl

theorem Valid.iterateFrom_eq
    (valid : Valid vector) {calls : Nat}
    (start : i ≤ vector.length) (enough : vector.length < i + calls) :
    vector.iterateFrom calls i = some (vector.elements.drop i) := by
  induction calls generalizing i with
  | zero => omega
  | succ calls induction =>
      unfold Vec.iterateFrom Vec.iter
      rw [if_neg valid.layout]
      split_ifs with beyond
      · dsimp only
        rw [List.drop_eq_nil_of_le
          (by rw [valid.elements_length]; exact beyond)]
      · have inside : i < vector.elements.length := by
          rw [valid.elements_length]
          omega
        rw [valid.slot_eq (by omega), List.getElem?_eq_getElem inside,
          Option.map_some]
        dsimp only
        rw [induction (by omega) (by omega), Option.map_some,
          List.drop_eq_getElem_cons inside]

theorem Valid.iterate_eq (valid : Valid vector) :
    vector.iterate = some vector.elements := by
  unfold Vec.iterate
  rw [valid.iterateFrom_eq (Nat.zero_le _) (by omega), List.drop_zero]

/-! ## Destructors -/

theorem destructLoop_eq
    (data : vector.data = some storage)
    (inside : i + count ≤ storage.slots.length) :
    vector.destructLoop i count =
      some { vector with
        destroyed := ((storage.slots.drop i).take count).reverse ++
          vector.destroyed } := by
  induction count generalizing vector i with
  | zero => rfl
  | succ count induction =>
      have here : i < storage.slots.length := by omega
      have later :
          ({ vector with
              destroyed := storage.slots[i] :: vector.destroyed } :
            Vec T).destructLoop (i + 1) count =
              some { vector with
                destroyed :=
                  ((storage.slots.drop (i + 1)).take count).reverse ++
                    storage.slots[i] :: vector.destroyed } :=
        induction data (by omega)
      unfold Vec.destructLoop
      rw [slot_of_data data, List.getElem?_eq_getElem here]
      dsimp only
      rw [later, List.drop_eq_getElem_cons here, List.take_succ_cons,
        List.reverse_cons, List.append_assoc]
      rfl

theorem destruct_eq
    (data : vector.data = some storage)
    (inside : i + count ≤ storage.slots.length) :
    vector.destruct i count =
      some { vector with
        destroyed := vector.due ((storage.slots.drop i).take count) ++
          vector.destroyed } := by
  unfold Vec.destruct Vec.due
  split_ifs
  · exact destructLoop_eq data inside
  · rfl

theorem destruct_zero (vector : Vec T) (i : Nat) :
    vector.destruct i 0 = some vector := by
  unfold Vec.destruct
  split_ifs <;> rfl

/-! ## Changing the capacity -/

theorem layout_create_elemSize (size alignment : Nat) :
    (Layout.create size alignment).elemSize =
      if size = 0 ∨ alignment = 0 then 0 else size := by
  unfold Layout.create
  split_ifs <;> rfl

/-- A request for some elements is a request for their bytes. -/
theorem Valid.request
    (valid : Valid vector) {capacity : Nat} (positive : 0 < capacity)
    (fits : capacity * vector.layout.elemSize < sizeLimit) :
    (Layout.create (sizeMul capacity vector.layout.elemSize)
        vector.layout.alignment).elemSize =
      capacity * vector.layout.elemSize := by
  have layout := valid.layout
  unfold Layout.Invalid at layout
  have sized := Nat.mul_pos positive valid.elemSize_pos
  rw [layout_create_elemSize, sizeMul_eq fits, if_neg (by omega)]

/-- The vector after its elements have moved to a block of another size. -/
theorem Valid.moved
    (valid : Valid vector) {capacity : Nat} (slots : List T) (ptr : Nat)
    (positive : 0 < capacity) (within : vector.length ≤ capacity)
    (fits : capacity * vector.layout.elemSize < sizeLimit)
    (long : slots.length = capacity)
    (same : slots.take vector.length = vector.elements) :
    Keeps vector
      { vector with
        data := some ⟨⟨ptr, capacity * vector.layout.elemSize⟩, slots⟩
        capacity := capacity } := by
  refine ⟨⟨valid.layout, within, fits, ?_, ?_, ?_, ?_⟩, same, rfl, rfl, rfl,
    rfl⟩
  · intro none
    cases none
  · intro storage data
    exact positive
  · intro storage data
    cases data
    exact long
  · intro storage data
    cases data
    rfl

/-- Destroying a vector that has storage but no element keeps nothing. -/
theorem Valid.destroy_empty
    (valid : Valid vector) {storage : Storage T}
    (data : vector.data = some storage) (empty : vector.length = 0) :
    ∃ vector', vector.destroy = some vector' ∧
      Keeps vector vector' ∧ vector'.capacity = 0 := by
  refine ⟨{ vector with data := none, length := 0, capacity := 0 },
    ?_, ⟨⟨valid.layout, le_refl 0, ?_, fun _ => rfl, ?_, ?_, ?_⟩,
      ?_, empty.symm, rfl, rfl, rfl⟩, rfl⟩
  · unfold Vec.destroy
    rw [data]
    dsimp only
    rw [empty, destruct_zero]
    rfl
  · rw [Nat.zero_mul]
    decide
  · intro storage none
    cases none
  · intro storage none
    cases none
  · intro storage none
    cases none
  · rw [elements_of_data data, empty]
    rfl

theorem Valid.setCapacity_spec
    (valid : Valid vector) {capacity : Nat} (grant : Grant T)
    (within : vector.length ≤ capacity)
    (fits : capacity * vector.layout.elemSize < sizeLimit) :
    (∃ vector', (grant = none → capacity = vector.capacity ∨ capacity = 0) ∧
        vector.setCapacity capacity grant = some (none, vector') ∧
          Keeps vector vector' ∧ vector'.capacity = capacity) ∨
      (grant = none ∧ capacity ≠ vector.capacity ∧ capacity ≠ 0) ∧
        vector.setCapacity capacity grant = some (some .oom, vector) := by
  unfold Vec.setCapacity
  rw [if_neg valid.layout]
  split_ifs with same zero short
  · exact Or.inl ⟨vector, fun _ => .inl same, rfl, valid.keeps, same.symm⟩
  · left
    cases data : vector.data with
    | none => exact absurd (valid.vacant data) (by omega)
    | some storage =>
        rcases valid.destroy_empty data (by omega) with
          ⟨vector', destroys, keeps, none⟩
        rw [destroys]
        exact ⟨vector', fun _ => .inr zero, rfl, keeps,
          none.trans zero.symm⟩
  · omega
  · have request := valid.request (Nat.pos_of_ne_zero zero) fits
    have positive := Nat.pos_of_ne_zero zero
    have size := valid.elemSize_pos
    have sized : capacity * vector.layout.elemSize ≠ 0 :=
      (Nat.mul_pos positive size).ne'
    have room : capacity * vector.layout.elemSize /
        vector.layout.elemSize = capacity := Nat.mul_div_cancel _ size
    cases data : vector.data with
    | none =>
        dsimp only
        unfold alloc
        cases grant with
        | none => exact Or.inr ⟨⟨rfl, same, zero⟩, rfl⟩
        | some granted =>
            rcases granted with ⟨ptr, fill⟩
            left
            dsimp only
            rw [request, if_neg sized, room]
            refine ⟨_, nofun, rfl,
              valid.moved _ _ positive within fits ?_ ?_, rfl⟩
            · rw [List.length_map, List.length_range]
            · have empty := valid.vacant data
              have length := valid.within
              have none : vector.length = 0 := by omega
              unfold Vec.elements
              rw [data, none, List.take_zero]
    | some storage =>
        dsimp only
        have moves :
            (if (Layout.create
                  (sizeMul capacity vector.layout.elemSize)
                  vector.layout.alignment).elemSize >
                sizeMul vector.capacity vector.layout.elemSize then
              grow grant storage.slots
                (Layout.create (sizeMul capacity vector.layout.elemSize)
                  vector.layout.alignment) vector.layout.elemSize
            else
              shrink grant storage.slots
                (Layout.create (sizeMul capacity vector.layout.elemSize)
                  vector.layout.alignment) vector.layout.elemSize) =
              grant.map fun granted =>
                ⟨⟨granted.1, capacity * vector.layout.elemSize⟩,
                  (List.range capacity).map fun i =>
                    storage.slots[i]?.getD (granted.2 i)⟩ := by
          unfold grow shrink move
          rw [ite_self, request, room]
        rw [moves]
        cases grant with
        | none => exact Or.inr ⟨⟨rfl, same, zero⟩, rfl⟩
        | some granted =>
            left
            have stored : vector.length ≤ storage.slots.length :=
              (valid.slots _ data).ge.trans' valid.within
            refine ⟨_, nofun, rfl,
              valid.moved _ _ positive within fits ?_ ?_, rfl⟩
            · rw [List.length_map, List.length_range]
            · rw [elements_of_data data]
              exact take_moved within stored

theorem Valid.reserve_spec
    (valid : Valid vector) {capacity : Nat} (grant : Grant T)
    (fits : capacity * vector.layout.elemSize < sizeLimit) :
    (∃ vector', (grant = none → capacity ≤ vector.capacity) ∧
        vector.reserve capacity grant = some (none, vector') ∧
          Keeps vector vector' ∧ capacity ≤ vector'.capacity) ∨
      (grant = none ∧ vector.capacity < capacity) ∧
        vector.reserve capacity grant = some (some .oom, vector) := by
  unfold Vec.reserve
  split_ifs with enough
  · exact Or.inl ⟨vector, fun _ => enough, rfl, valid.keeps, enough⟩
  · have within := valid.within
    rcases valid.setCapacity_spec grant (by omega) fits with
      ⟨vector', granted, sets, keeps, capacity⟩ | ⟨denied, refused⟩
    · refine Or.inl ⟨vector', fun none => ?_, sets, keeps, capacity.ge⟩
      have given := granted none
      omega
    · exact Or.inr ⟨⟨denied.1, by omega⟩, refused⟩

theorem Valid.shrinkToFit_spec
    (valid : Valid vector) (grant : Grant T) :
    (∃ vector', (grant = none →
            vector.length = vector.capacity ∨ vector.length = 0) ∧
        vector.shrinkToFit grant = some (none, vector') ∧
          Keeps vector vector' ∧ vector'.capacity = vector.length) ∨
      (grant = none ∧ vector.length ≠ vector.capacity ∧
          vector.length ≠ 0) ∧
        vector.shrinkToFit grant = some (some .oom, vector) := by
  refine valid.setCapacity_spec grant (le_refl _) ?_
  exact lt_of_le_of_lt (Nat.mul_le_mul_right _ valid.within) valid.fits

/-- Automatic shrinking keeps the elements, also when it fails. -/
theorem Valid.maybeShrink_spec
    (valid : Valid vector) (grant : Grant T) :
    ∃ vector', vector.maybeShrink grant = some vector' ∧
      Keeps vector vector' := by
  unfold Vec.maybeShrink
  split_ifs with empty sparse
  · rcases valid.shrinkToFit_spec grant with
      ⟨vector', _, shrinks, keeps, _⟩ | ⟨_, refused⟩
    · exact ⟨vector', by rw [shrinks]; rfl, keeps⟩
    · exact ⟨vector, by rw [refused]; rfl, valid.keeps⟩
  · have within : vector.length ≤ max (vector.capacity / 2) 1 := by
      have quarter := sparse.2
      unfold shrinkDiv at quarter
      omega
    have smaller : max (vector.capacity / 2) 1 ≤ vector.capacity := by
      omega
    have fits := lt_of_le_of_lt
      (Nat.mul_le_mul_right vector.layout.elemSize smaller) valid.fits
    rcases valid.setCapacity_spec grant within fits with
      ⟨vector', _, sets, keeps, _⟩ | ⟨_, refused⟩
    · exact ⟨vector', by rw [sets]; rfl, keeps⟩
    · exact ⟨vector, by rw [refused]; rfl, valid.keeps⟩
  · exact ⟨vector, rfl, valid.keeps⟩

/-- The capacity that a push asks for. -/
def Vec.pushCapacity (vector : Vec T) : Nat :=
  if vector.length < vector.capacity then
    vector.capacity
  else if vector.capacity = 0 then
    1
  else
    vector.capacity * growFactor

theorem Valid.makeRoom_spec
    (valid : Valid vector) (grant : Grant T)
    (fits : vector.pushCapacity * vector.layout.elemSize < sizeLimit) :
    (∃ vector', (grant = none → vector.length ≠ vector.capacity) ∧
        vector.makeRoom grant = some (none, vector') ∧
          Keeps vector vector' ∧ vector'.length < vector'.capacity) ∨
      (grant = none ∧ vector.length = vector.capacity) ∧
        vector.makeRoom grant = some (some .oom, vector) := by
  unfold Vec.pushCapacity at fits
  unfold Vec.makeRoom
  have within := valid.within
  split_ifs with full empty
  · rw [if_neg (by omega), if_pos empty] at fits
    rcases valid.reserve_spec grant fits with
      ⟨vector', granted, reserves, keeps, capacity⟩ | ⟨denied, refused⟩
    · refine Or.inl ⟨vector', fun none => ?_, reserves, keeps, ?_⟩
      · have given := granted none
        omega
      · rw [keeps.length]
        omega
    · exact Or.inr ⟨⟨denied.1, by omega⟩, refused⟩
  · rw [if_neg (by omega), if_neg empty] at fits
    have doubled : sizeMul vector.capacity growFactor =
        vector.capacity * growFactor := by
      refine sizeMul_eq (lt_of_le_of_lt ?_ fits)
      exact Nat.le_mul_of_pos_right _ valid.elemSize_pos
    rw [doubled]
    rcases valid.reserve_spec grant fits with
      ⟨vector', granted, reserves, keeps, capacity⟩ | ⟨denied, refused⟩
    · unfold growFactor at capacity granted
      refine Or.inl ⟨vector', fun none => ?_, reserves, keeps, ?_⟩
      · have given := granted none
        omega
      · rw [keeps.length]
        omega
    · exact Or.inr ⟨⟨denied.1, by omega⟩, refused⟩
  · exact Or.inl ⟨vector, fun _ => by omega, rfl, valid.keeps, by omega⟩

/-! ## Changing the elements -/

/-- A vector whose elements have changed. -/
structure Becomes
    (vector vector' : Vec T) (elements left : List T) : Prop where
  valid : Valid vector'
  elements : vector'.elements = elements
  layout : vector'.layout = vector.layout
  destructor : vector'.destructor = vector.destructor
  destroyed : vector'.destroyed = vector.due left ++ vector.destroyed

theorem due_nil (vector : Vec T) : vector.due [] = [] := by
  unfold Vec.due
  split_ifs <;> rfl

theorem Keeps.becomes (keeps : Keeps vector vector') :
    Becomes vector vector' vector.elements [] := by
  refine ⟨keeps.valid, keeps.elements, keeps.layout, keeps.destructor, ?_⟩
  rw [due_nil]
  exact keeps.destroyed

theorem Becomes.due
    {elements left : List T}
    (becomes : Becomes vector vector' elements left) (gone : List T) :
    vector'.due gone = vector.due gone := by
  unfold Vec.due
  rw [becomes.destructor]

/-- A change that follows after the elements have been kept. -/
theorem Keeps.then
    {vector'' : Vec T} {elements left : List T}
    (keeps : Keeps vector vector')
    (becomes : Becomes vector' vector'' elements left) :
    Becomes vector vector'' elements left := by
  refine ⟨becomes.valid, becomes.elements,
    becomes.layout.trans keeps.layout,
    becomes.destructor.trans keeps.destructor, ?_⟩
  rw [becomes.destroyed, keeps.destroyed, keeps.becomes.due]

theorem Becomes.keeps
    {vector'' : Vec T} {elements left : List T}
    (becomes : Becomes vector vector' elements left)
    (keeps : Keeps vector' vector'') :
    Becomes vector vector'' elements left :=
  ⟨keeps.valid, keeps.elements.trans becomes.elements,
    keeps.layout.trans becomes.layout,
    keeps.destructor.trans becomes.destructor,
    keeps.destroyed.trans becomes.destroyed⟩

/-- Other contents of the slots, and another length. -/
theorem Valid.rewritten
    (valid : Valid vector) (data : vector.data = some storage)
    (slots : List T) (length : Nat) (gone : List T)
    (long : slots.length = storage.slots.length)
    (within : length ≤ vector.capacity) :
    Becomes vector
      { vector with
        data := some { storage with slots := slots }
        length := length
        destroyed := vector.due gone ++ vector.destroyed }
      (slots.take length) gone := by
  refine ⟨⟨valid.layout, within, valid.fits, ?_, ?_, ?_, ?_⟩, rfl, rfl, rfl,
    rfl⟩
  · intro none
    cases none
  · intro other same
    exact valid.positive _ data
  · intro other same
    cases same
    exact long.trans (valid.slots _ data)
  · intro other same
    cases same
    exact valid.bytes storage data

/-- The last elements are given up. -/
theorem Valid.shortened
    (valid : Valid vector) (length : Nat) (gone : List T)
    (shorter : length ≤ vector.length) :
    Becomes vector
      { vector with
        length := length
        destroyed := vector.due gone ++ vector.destroyed }
      (vector.elements.take length) gone := by
  refine ⟨⟨valid.layout, shorter.trans valid.within, valid.fits,
    valid.vacant, valid.positive, valid.slots, valid.bytes⟩, ?_, rfl, rfl,
    rfl⟩
  cases data : vector.data with
  | none =>
      unfold Vec.elements
      rw [data]
      exact List.take_nil.symm
  | some storage =>
      rw [elements_of_data data, List.take_take, Nat.min_eq_left shorter]
      rfl

theorem Valid.stored
    (valid : Valid vector) (room : vector.length < vector.capacity) :
    ∃ storage, vector.data = some storage := by
  cases data : vector.data with
  | none =>
      have empty := valid.vacant data
      omega
  | some storage => exact ⟨storage, rfl⟩

theorem take_set_succ {slots : List T} (inside : i < slots.length) :
    (slots.set i elem).take (i + 1) = slots.take i ++ [elem] := by
  rw [List.set_eq_take_append_cons_drop, if_pos inside, List.take_append,
    List.length_take, Nat.min_eq_left (Nat.le_of_lt inside),
    List.take_of_length_le (by rw [List.length_take]; omega),
    Nat.add_sub_cancel_left, List.take_succ_cons, List.take_zero]

theorem Valid.stored_of_pos
    (valid : Valid vector) (positive : 0 < vector.length) :
    ∃ storage, vector.data = some storage := by
  have within := valid.within
  cases data : vector.data with
  | none =>
      have empty := valid.vacant data
      omega
  | some storage => exact ⟨storage, rfl⟩

theorem Valid.pushBack_spec
    (valid : Valid vector) (elem : T) (grant : Grant T)
    (fits : vector.pushCapacity * vector.layout.elemSize < sizeLimit) :
    (∃ vector', (grant = none → vector.length ≠ vector.capacity) ∧
        vector.pushBack elem grant = some (none, vector') ∧
          Becomes vector vector' (vector.elements ++ [elem]) []) ∨
      (grant = none ∧ vector.length = vector.capacity) ∧
        vector.pushBack elem grant = some (some .oom, vector) := by
  unfold Vec.pushBack
  rw [if_neg valid.layout]
  rcases valid.makeRoom_spec grant fits with
    ⟨roomy, granted, makes, keeps, room⟩ | ⟨denied, refused⟩
  · left
    rw [makes]
    dsimp only
    rcases keeps.valid.stored room with ⟨storage, data⟩
    have long := keeps.valid.slots _ data
    have inside : roomy.length < storage.slots.length := by omega
    have pushed := keeps.valid.rewritten data
      (storage.slots.set roomy.length elem) (roomy.length + 1) []
      List.length_set room
    rw [due_nil, List.nil_append, take_set_succ inside,
      ← elements_of_data data, keeps.elements] at pushed
    refine ⟨_, granted, ?_, keeps.then pushed⟩
    unfold Vec.setSlot
    rw [data]
    dsimp only
    rw [if_pos inside]
    rfl
  · right
    rw [refused]
    exact ⟨denied, rfl⟩

theorem Valid.pushFront_spec
    (valid : Valid vector) (elem : T) (grant : Grant T)
    (fits : vector.pushCapacity * vector.layout.elemSize < sizeLimit) :
    (∃ vector', (grant = none → vector.length ≠ vector.capacity) ∧
        vector.pushFront elem grant = some (none, vector') ∧
          Becomes vector vector' (elem :: vector.elements) []) ∨
      (grant = none ∧ vector.length = vector.capacity) ∧
        vector.pushFront elem grant = some (some .oom, vector) := by
  unfold Vec.pushFront
  rw [if_neg valid.layout]
  rcases valid.makeRoom_spec grant fits with
    ⟨roomy, granted, makes, keeps, room⟩ | ⟨denied, refused⟩
  · left
    rw [makes]
    dsimp only
    rcases keeps.valid.stored room with ⟨storage, data⟩
    have long := keeps.valid.slots _ data
    have inside : roomy.length + 1 ≤ storage.slots.length := by omega
    generalize shifted : storage.slots.take 1 ++
      storage.slots.take roomy.length ++
        storage.slots.drop (roomy.length + 1) = slots
    have first : slots.set 0 elem =
        elem :: (storage.slots.take roomy.length ++
          storage.slots.drop (roomy.length + 1)) := by
      rw [← shifted]
      cases cells : storage.slots with
      | nil =>
          rw [cells, List.length_nil] at inside
          omega
      | cons head rest => rfl
    have whole : (slots.set 0 elem).length = storage.slots.length := by
      rw [first, List.length_cons, List.length_append, List.length_take,
        List.length_drop]
      omega
    have shown :
        (slots.set 0 elem).take (roomy.length + 1) =
          elem :: vector.elements := by
      rw [first, List.take_succ_cons,
        List.take_left' (by rw [List.length_take]; omega),
        ← elements_of_data data, keeps.elements]
    have pushed := keeps.valid.rewritten data (slots.set 0 elem)
      (roomy.length + 1) [] whole room
    rw [due_nil, List.nil_append, shown] at pushed
    refine ⟨_, granted, ?_, keeps.then pushed⟩
    unfold Vec.shiftUp
    rw [data]
    dsimp only
    rw [if_pos inside]
    dsimp only [Vec.setSlot]
    rw [List.length_set] at whole
    rw [shifted, if_pos (by omega)]
    rfl
  · right
    rw [refused]
    exact ⟨denied, rfl⟩

theorem Valid.popBack_spec
    (valid : Valid vector) (grant : Grant T) :
    (∃ elem rest vector',
        vector.elements = rest ++ [elem] ∧
          vector.popBack grant = some (.ok elem, vector') ∧
          Becomes vector vector' rest [elem]) ∨
      vector.elements = [] ∧
        vector.popBack grant = some (.error .oob, vector) := by
  unfold Vec.popBack
  rw [if_neg valid.layout]
  have counted := valid.elements_length
  split_ifs with empty
  · rw [empty] at counted
    exact Or.inr ⟨List.length_eq_zero_iff.mp counted, rfl⟩
  · left
    have within := valid.within
    rcases Nat.exists_eq_add_one_of_ne_zero empty with ⟨length, last⟩
    rcases valid.stored_of_pos (by omega) with ⟨storage, data⟩
    have long := valid.slots _ data
    have inside : length < storage.slots.length := by omega
    have popped := valid.shortened length
      [storage.slots[length]] (by omega)
    rcases popped.valid.maybeShrink_spec grant with
      ⟨vector', shrinks, keeps⟩
    refine ⟨storage.slots[length], vector.elements.take length, vector',
      ?_, ?_, popped.keeps keeps⟩
    · rw [elements_of_data data, List.take_take,
        Nat.min_eq_left (by omega), last,
        List.take_succ_eq_append_getElem inside]
    · have reads :
          ({ vector with length := length } : Vec T).slot length =
            some storage.slots[length] := by
        change vector.slot length = some storage.slots[length]
        rw [slot_of_data data, List.getElem?_eq_getElem inside]
      have one : (storage.slots.drop length).take 1 =
          [storage.slots[length]] := by
        rw [List.drop_eq_getElem_cons inside, List.take_succ_cons,
          List.take_zero]
      have destructs :
          ({ vector with length := length } : Vec T).destruct length 1 =
            some { vector with
              length := length
              destroyed := vector.due [storage.slots[length]] ++
                vector.destroyed } := by
        rw [← one]
        exact destruct_eq data (by omega)
      rw [last, Nat.add_sub_cancel]
      dsimp only
      rw [reads]
      dsimp only
      rw [destructs]
      dsimp only
      rw [shrinks]
      rfl

/-- What a loop over the last elements does to the destructor log. -/
theorem Valid.destruct_eq
    (valid : Valid vector) (shorter : size ≤ vector.length) :
    vector.destruct size (vector.length - size) =
      some { vector with
        destroyed := vector.due (vector.elements.drop size) ++
          vector.destroyed } := by
  have within := valid.within
  rcases Option.eq_none_or_eq_some vector.data with
    data | ⟨storage, data⟩
  · have empty := valid.vacant data
    have none : vector.length - size = 0 := by omega
    have nothing : vector.elements = [] :=
      List.length_eq_zero_iff.mp (by rw [valid.elements_length]; omega)
    rw [none, destruct_zero, nothing, List.drop_nil, due_nil]
    rfl
  · have long := valid.slots _ data
    rw [Vector.destruct_eq data (by omega), elements_of_data data,
      List.drop_take]

theorem Valid.resize_spec
    (valid : Valid vector) (size : Nat) (grant : Grant T)
    (fits : size * vector.layout.elemSize < sizeLimit) :
    (∃ extra vector', (grant = none → size ≤ vector.capacity) ∧
        vector.length < size ∧
          extra.length = size - vector.length ∧
          vector.resize size grant = some (none, vector') ∧
          Becomes vector vector' (vector.elements ++ extra) []) ∨
      (∃ vector',
        size ≤ vector.length ∧
          vector.resize size grant = some (none, vector') ∧
          Becomes vector vector' (vector.elements.take size)
            (vector.elements.drop size)) ∨
      (grant = none ∧ vector.capacity < size) ∧
        vector.resize size grant = some (some .oom, vector) := by
  have within := valid.within
  unfold Vec.resize
  by_cases shorter : size ≤ vector.length
  · right
    left
    rw [if_neg (by omega)]
    dsimp only
    refine ⟨_, shorter, ?_, valid.shortened size _ shorter⟩
    by_cases less : size < vector.length
    · rw [if_pos less, valid.destruct_eq shorter]
      rfl
    · have all : vector.elements.drop size = [] := by
        rw [List.drop_eq_nil_iff, valid.elements_length]
        omega
      rw [if_neg less, all, due_nil]
      rfl
  · have longer : vector.length < size := by omega
    have grows :
        (∃ roomy, (grant = none → size ≤ vector.capacity) ∧
          (if size > vector.capacity then
              vector.setCapacity size grant
            else
              some (none, vector)) = some (none, roomy) ∧
            Keeps vector roomy ∧ size ≤ roomy.capacity) ∨
          (grant = none ∧ vector.capacity < size) ∧
          (if size > vector.capacity then
              vector.setCapacity size grant
            else
              some (none, vector)) = some (some .oom, vector) := by
      split_ifs with more
      · rcases valid.setCapacity_spec grant longer.le fits with
          ⟨roomy, granted, sets, keeps, capacity⟩ | ⟨denied, refused⟩
        · refine Or.inl ⟨roomy, fun none => ?_, sets, keeps, capacity.ge⟩
          have given := granted none
          omega
        · exact Or.inr ⟨⟨denied.1, more⟩, refused⟩
      · exact Or.inl ⟨vector, fun _ => by omega, rfl, valid.keeps, by omega⟩
    rcases grows with ⟨roomy, granted, grows, keeps, room⟩ |
      ⟨denied, refused⟩
    · left
      have before := keeps.length
      rcases keeps.valid.stored (by omega) with ⟨storage, data⟩
      have long := keeps.valid.slots _ data
      have resized := keeps.valid.rewritten data storage.slots size [] rfl
        room
      refine ⟨(storage.slots.take size).drop vector.length,
        { roomy with length := size }, granted, longer, ?_, ?_, ?_⟩
      · rw [List.length_drop, List.length_take, long,
          Nat.min_eq_left room]
      · rw [grows]
        dsimp only
        rw [if_neg (by omega)]
        rfl
      · rw [due_nil, List.nil_append] at resized
        have split : storage.slots.take size =
            vector.elements ++
              (storage.slots.take size).drop vector.length := by
          rw [← keeps.elements, elements_of_data data, before]
          conv_lhs => rw [← List.take_append_drop vector.length
            (storage.slots.take size)]
          rw [List.take_take, Nat.min_eq_left longer.le]
        rw [← split]
        refine keeps.then ?_
        have shown : ({ roomy with length := size } : Vec T) =
            { roomy with data := some storage, length := size } := by
          rw [← data]
        rw [shown]
        exact resized
    · refine Or.inr (Or.inr ⟨denied, ?_⟩)
      rw [refused]

theorem Valid.clear_spec (valid : Valid vector) (grant : Grant T) :
    ∃ vector', vector.clear grant = some vector' ∧
      Becomes vector vector' [] vector.elements := by
  have cleared := valid.shortened 0 vector.elements (Nat.zero_le _)
  rcases cleared.valid.maybeShrink_spec grant with
    ⟨vector', shrinks, keeps⟩
  refine ⟨vector', ?_, cleared.keeps keeps⟩
  have destructs := valid.destruct_eq (Nat.zero_le _)
  rw [Nat.sub_zero, List.drop_zero] at destructs
  unfold Vec.clear
  rw [destructs]
  exact shrinks

theorem create_valid
    {initialCapacity : Option Nat} {destructor : Bool}
    (fits : ∀ capacity, initialCapacity = some capacity →
      capacity * layout.elemSize < sizeLimit)
    (created : Vec.create layout initialCapacity destructor grant =
      .ok vector) :
    Valid vector ∧ vector.elements = [] ∧ vector.destroyed = [] ∧
      vector.layout = layout ∧ vector.destructor = destructor ∧
      vector.capacity = initialCapacity.getD 0 := by
  have vacant (invalid : ¬ layout.Invalid) :
      Valid (⟨none, 0, 0, layout, destructor, []⟩ : Vec T) := by
    refine ⟨invalid, le_refl 0, ?_, fun _ => rfl, ?_, ?_, ?_⟩
    · rw [Nat.zero_mul]
      decide
    · intro storage none
      cases none
    · intro storage none
      cases none
    · intro storage none
      cases none
  unfold Vec.create at created
  split_ifs at created with invalid
  cases initialCapacity with
  | none =>
      cases created
      exact ⟨vacant invalid, rfl, rfl, rfl, rfl, rfl⟩
  | some capacity =>
      dsimp only at created
      split_ifs at created with positive
      · have request := (vacant invalid).request positive (fits _ rfl)
        have size := (vacant invalid).elemSize_pos
        dsimp only at request size
        have sized : capacity * layout.elemSize ≠ 0 :=
          (Nat.mul_pos positive size).ne'
        unfold alloc at created
        cases grant with
        | none => cases created
        | some granted =>
            rcases granted with ⟨ptr, fill⟩
            dsimp only at created
            rw [request, if_neg sized, Nat.mul_div_cancel _ size] at created
            have moved := (vacant invalid).moved
              ((List.range capacity).map fill) ptr positive
              (Nat.zero_le _) (fits _ rfl)
              (by rw [List.length_map, List.length_range]) List.take_zero
            cases created
            exact ⟨moved.valid, moved.elements, rfl, rfl, rfl, rfl⟩
      · cases created
        refine ⟨vacant invalid, rfl, rfl, rfl, rfl, ?_⟩
        exact (Nat.eq_zero_of_not_pos positive).symm

end Libcute.Collection.Vector
