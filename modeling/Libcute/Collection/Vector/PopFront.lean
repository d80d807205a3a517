import Libcute.Collection.Vector.Runs

/-!
# Taking elements from the front of a vector

`cu_Vector_pop_front` moves the elements that stay in the wrong direction:
what the destructor leaves of the first element stays where it is, and the
last two elements are lost.  The rest of the elements is left only when all of
them equal what stays.
-/

namespace Libcute.Collection.Vector

open Libcute.Collection.Blocks
open Libcute.Core.Size

variable {T : Type} {vector vector' : Vec T} {leaves : T → T}
  {grant : Grant T} {first : T} {rest : List T}

/-- What stays in the slot of an element that is popped. -/
def Vec.remains (vector : Vec T) (leaves : T → T) (elem : T) : T :=
  if vector.destructor = true then leaves elem else elem

/-- The elements that are left when `first` stays in the first slot. -/
def kept (first : T) (rest : List T) : List T :=
  (first :: first :: rest).take rest.length

theorem kept_cons (first elem : T) (rest : List T) :
    ∃ others, kept first (elem :: rest) = first :: others ∧
      others.length = rest.length := by
  refine ⟨(first :: elem :: rest).take rest.length, rfl, ?_⟩
  rw [List.length_take, List.length_cons, List.length_cons]
  omega

/-- The rest is left exactly when it repeats the first element. -/
theorem kept_eq_iff (first : T) (rest : List T) :
    kept first rest = rest ↔ ∀ elem ∈ rest, elem = first := by
  unfold kept
  induction rest generalizing first with
  | nil => simp
  | cons elem rest induction =>
      rw [List.length_cons, List.take_succ_cons, List.cons.injEq,
        List.forall_mem_cons]
      constructor
      · rintro ⟨same, others⟩
        subst same
        exact ⟨rfl, (induction first).mp others⟩
      · rintro ⟨same, others⟩
        subst same
        exact ⟨rfl, (induction elem).mpr others⟩

/-- Only the slots in front of the moved ones count. -/
theorem take_shifted
    {count : Nat} {slots behind : List T} (first : T)
    (stored : count ≤ slots.length) :
    ([first] ++ slots.take count ++ behind).take count =
      (first :: slots).take count := by
  have long : count ≤ ([first] ++ slots.take count).length := by
    rw [List.length_append, List.length_singleton, List.length_take]
    omega
  rw [List.take_append_of_le_length long]
  cases count with
  | zero => rfl
  | succ count =>
      rw [List.singleton_append, List.take_succ_cons, List.take_succ_cons,
        List.take_take, Nat.min_eq_left (Nat.le_succ count)]

/-- The destructor rewrites the slot that it runs on. -/
theorem destructSlot_eq
    {storage : Storage T} (data : vector.data = some storage)
    (cell : storage.slots[0]? = some first) (leaves : T → T) :
    vector.destructSlot leaves 0 =
      some { vector with
        data := some { storage with
          slots := storage.slots.set 0 (vector.remains leaves first) }
        destroyed := vector.due [first] ++ vector.destroyed } := by
  rcases List.getElem?_eq_some_iff.mp cell with ⟨inside, here⟩
  unfold Vec.destructSlot Vec.remains Vec.due
  split_ifs
  · rw [slot_of_data data, cell]
    dsimp only
    unfold Vec.setSlot
    dsimp only
    rw [data]
    dsimp only
    rw [if_pos inside]
    rfl
  · rw [← here, List.set_getElem_self, ← data]
    rfl

/-- The first element is popped, and of the others one too many moves. -/
theorem Valid.popFront_spec
    (valid : Valid vector) (filled : vector.elements = first :: rest)
    (leaves : T → T) (grant : Grant T) :
    ∃ vector', vector.popFront leaves grant = some (.ok first, vector') ∧
      Becomes vector vector' (kept (vector.remains leaves first) rest)
        [first] := by
  have counted := valid.elements_length
  rw [filled, List.length_cons] at counted
  rcases valid.stored_of_pos (by omega) with ⟨storage, data⟩
  have long := valid.slots _ data
  have within := valid.within
  have shown := elements_of_data data
  rw [filled] at shown
  have cell : storage.slots[0]? = some first := by
    rw [← List.getElem?_take_of_lt (show 0 < vector.length by omega),
      ← shown]
    rfl
  have destructs := destructSlot_eq data cell leaves
  generalize vector.remains leaves first = remains at destructs ⊢
  generalize written : storage.slots.set 0 remains = cells at destructs
  have wide : cells.length = storage.slots.length := by
    rw [← written, List.length_set]
  have one : cells.take 1 = [remains] := by
    rw [← written, List.take_one, List.head?_eq_getElem?,
      List.getElem?_set_self (by omega)]
    rfl
  generalize moved : cells.take 1 ++ cells.take rest.length ++
    cells.drop (rest.length + 1) = slots
  have whole : slots.length = storage.slots.length := by
    rw [← moved, one]
    simp only [List.length_append, List.length_take, List.length_drop,
      List.length_singleton]
    omega
  have left : slots.take rest.length = kept remains rest := by
    have front : cells.take rest.length =
        (remains :: rest).take rest.length := by
      have begins : storage.slots.take rest.length =
          (first :: rest).take rest.length := by
        rw [shown, List.take_take, Nat.min_eq_left (by omega)]
      rw [← written, List.take_set, begins]
      cases rest with
      | nil => rfl
      | cons elem rest => rfl
    rw [← moved, one, front]
    exact take_shifted remains (Nat.le_succ _)
  have popped := valid.rewritten data slots rest.length [first] whole
    (by omega)
  rw [left] at popped
  rcases popped.valid.maybeShrink_spec grant with ⟨vector', shrinks, keeps⟩
  refine ⟨vector', ?_, popped.keeps keeps⟩
  unfold Vec.popFront
  rw [if_neg valid.layout, if_neg (by omega), slot_of_data data, cell]
  dsimp only
  rw [destructs]
  dsimp only
  unfold Vec.shiftUp
  dsimp only
  rw [← counted, Nat.add_sub_cancel, if_pos (by omega), moved]
  dsimp only
  rw [Nat.add_sub_cancel, shrinks]
  rfl

/-! ## As a queue -/

/-- Some elements were appended, one after the other, each with success. -/
inductive Pushed (start : Vec T) : List T → Vec T → Prop where
  | nil : Pushed start [] start
  | push {elems : List T} {vector vector' : Vec T} {elem : T}
      {grant : Grant T}
      (earlier : Pushed start elems vector)
      (permitted : Permitted vector (.pushBack elem))
      (pushes : vector.pushBack elem grant = some (none, vector')) :
      Pushed start (elems ++ [elem]) vector'

/-- Pop an element for every answer of the allocator. -/
def Vec.popFrontAll (vector : Vec T) (leaves : T → T) :
    List (Grant T) → Option (List T × Vec T)
  | [] => some ([], vector)
  | grant :: grants =>
      match vector.popFront leaves grant with
      | some (.ok elem, vector) =>
          (vector.popFrontAll leaves grants).map fun (elems, vector) =>
            (elem :: elems, vector)
      | _ => none

theorem Pushed.spec
    {start : Vec T} {elems : List T}
    (pushed : Pushed start elems vector) (valid : Valid start) :
    Valid vector ∧ vector.elements = start.elements ++ elems := by
  induction pushed with
  | nil => exact ⟨valid, (List.append_nil _).symm⟩
  | push earlier permitted pushes induction =>
      rename_i elem grant
      rcases induction with ⟨valid, elements⟩
      rcases valid.pushBack_spec elem grant permitted with
        ⟨after, _, again, becomes⟩ | ⟨_, refused⟩
      · rw [again] at pushes
        cases pushes
        refine ⟨becomes.valid, ?_⟩
        rw [becomes.elements, elements, List.append_assoc]
      · rw [refused] at pushes
        cases pushes

/-- Every pop but the first yields what the one before it left. -/
theorem Valid.popFrontAll_spec
    (valid : Valid vector) (filled : vector.elements = first :: rest)
    (leaves : T → T) (grants : List (Grant T))
    (enough : grants.length = rest.length + 1) :
    ∃ vector', vector.popFrontAll leaves grants =
      some (List.iterate (vector.remains leaves) first (rest.length + 1),
        vector') := by
  induction grants generalizing vector first rest with
  | nil => cases enough
  | cons grant grants induction =>
      rcases valid.popFront_spec filled leaves grant with
        ⟨middle, pops, becomes⟩
      unfold Vec.popFrontAll
      rw [pops]
      dsimp only
      rw [List.length_cons, Nat.add_right_cancel_iff] at enough
      cases rest with
      | nil =>
          rw [List.length_eq_zero_iff.mp enough]
          exact ⟨middle, rfl⟩
      | cons elem rest =>
          rcases kept_cons (vector.remains leaves first) elem rest with
            ⟨others, same, counted⟩
          have elements := becomes.elements
          rw [same] at elements
          have again : middle.remains leaves = vector.remains leaves := by
            unfold Vec.remains
            rw [becomes.destructor]
          rcases induction becomes.valid elements
              (by rw [counted]; exact enough) with ⟨vector', rest'⟩
          rw [rest', counted, again]
          exact ⟨vector', rfl⟩

/--
The main result: a pop from the front succeeds and yields the first element.
It leaves the other elements exactly when all of them equal what the
destructor leaves of the first one.  The elements that were appended to an
empty vector come out in the same order exactly when each equals what the
destructor leaves of the one before it.
-/
theorem popFront_exact
    (valid : Valid vector) (filled : vector.elements = first :: rest)
    (leaves : T → T) (grant : Grant T) :
    (∃ elem vector',
      vector.popFront leaves grant = some (.ok elem, vector') ∧
      (elem = first ∧ vector'.elements = rest ↔
        ∀ other ∈ rest, other = vector.remains leaves first)) ∧
    ∀ start, Valid start → start.elements = [] →
      Pushed start (first :: rest) vector →
      ∀ grants, grants.length = (first :: rest).length →
        ∃ elems vector',
          vector.popFrontAll leaves grants = some (elems, vector') ∧
          (elems = first :: rest ↔
            rest = List.iterate (vector.remains leaves)
              (vector.remains leaves first) rest.length) := by
  constructor
  · rcases valid.popFront_spec filled leaves grant with
      ⟨vector', pops, becomes⟩
    refine ⟨first, vector', pops, ?_⟩
    rw [becomes.elements, kept_eq_iff, and_iff_right rfl]
  · intro start validStart empty pushed grants enough
    rcases valid.popFrontAll_spec filled leaves grants enough with
      ⟨vector', pops⟩
    refine ⟨_, vector', pops, ?_⟩
    rw [List.iterate, List.cons.injEq, and_iff_right rfl, eq_comm]

/-- An empty vector of words with room for three of them. -/
def tripleVector : Vec Nat where
  data := some ⟨⟨64, 24⟩, [0, 0, 0]⟩
  length := 0
  capacity := 3
  layout := ⟨8, 8⟩
  destructor := false
  destroyed := []

theorem tripleVector_valid : Valid tripleVector := by
  refine ⟨by decide, by decide, by decide, ?_, ?_, ?_, ?_⟩
  · intro none
    cases none
  · exact fun _ _ => by decide
  · intro storage same
    cases same
    rfl
  · intro storage same
    cases same
    rfl

/-- The vector in which three words were appended. -/
def filledVector (first second third : Nat) : Vec Nat :=
  { tripleVector with
    data := some ⟨⟨64, 24⟩, [first, second, third]⟩
    length := 3 }

theorem filledVector_pushed (first second third : Nat) :
    Pushed tripleVector [first, second, third]
      (filledVector first second third) := by
  have fits : 3 * 8 < sizeLimit := by decide
  have one : Pushed tripleVector [first]
      { tripleVector with
        data := some ⟨⟨64, 24⟩, [first, 0, 0]⟩
        length := 1 } :=
    @Pushed.push Nat _ [] _ _ first none .nil fits rfl
  have two : Pushed tripleVector [first, second]
      { tripleVector with
        data := some ⟨⟨64, 24⟩, [first, second, 0]⟩
        length := 2 } :=
    @Pushed.push Nat _ [first] _ _ second none one fits rfl
  exact @Pushed.push Nat _ [first, second] _ _ third none two fits rfl

/-- Of three equal words the pops yield what was pushed. -/
theorem popFront_exact_equal :
    (∃ elem vector',
      (filledVector 5 5 5).popFront id none = some (.ok elem, vector') ∧
        elem = 5 ∧ vector'.elements = [5, 5]) ∧
    ∃ elems vector',
      (filledVector 5 5 5).popFrontAll id [none, none, none] =
        some (elems, vector') ∧ elems = [5, 5, 5] := by
  have pushed := filledVector_pushed 5 5 5
  have valid := (pushed.spec tripleVector_valid).1
  have same : ∀ other ∈ [5, 5], other = 5 := by decide
  rcases popFront_exact valid rfl id none with
    ⟨⟨elem, vector', pops, once⟩, queue⟩
  rcases queue tripleVector tripleVector_valid rfl pushed
      [none, none, none] rfl with ⟨elems, emptied, popsAll, order⟩
  exact ⟨⟨elem, vector', pops, once.mpr same⟩,
    elems, emptied, popsAll, order.mpr rfl⟩

/--
The words 1, 2 and 3 are in the vector.  After a pop the words 1 and 1 are
left, and three pops yield 1 each time.
-/
theorem popFront_keeps_first :
    Valid (filledVector 1 2 3) ∧ (filledVector 1 2 3).elements = [1, 2, 3] ∧
      (∃ vector', (filledVector 1 2 3).popFront id none =
        some (.ok 1, vector') ∧ vector'.elements = [1, 1] ∧
          vector'.elements ≠ [2, 3]) ∧
      ∃ vector', (filledVector 1 2 3).popFrontAll id [none, none, none] =
        some ([1, 1, 1], vector') := by
  have valid :=
    ((filledVector_pushed 1 2 3).spec tripleVector_valid).1
  exact ⟨valid, rfl, ⟨_, rfl, rfl, by decide⟩, _, rfl⟩

end Libcute.Collection.Vector
