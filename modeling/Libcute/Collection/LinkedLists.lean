import Mathlib.Data.List.InsertIdx
import Libcute.Collection.DoublyLinked.Runs
import Libcute.Collection.SinglyLinked.Runs

/-!
# The linked lists in step

The same calls are made on a singly and on a doubly linked list that hold the
same elements.  A position is null or the index of a node, which has another
address in each list.  `lists_in_step` says that the answers are the same and
that iteration yields the same elements.
-/

namespace Libcute.Collection.LinkedLists

open Libcute.Library.LinkedList
open SinglyLinked (CuList)
open DoublyLinked (DList)

variable {T : Type} {list list' : CuList T} {dlist dlist' : DList T}
  {entries entries' : List (Nat × T)} {elems : List T} {index : Nat}

/-- A call that both lists have; the position `none` is null. -/
inductive Call (T : Type) where
  | pushFront (elem : T)
  | popFront
  | insertAfter (pos : Option Nat) (elem : T)
  | insertBefore (pos : Option Nat) (elem : T)

/-- The address of a position. -/
def place (entries : List (Nat × T)) : Option Nat → Nat
  | none => 0
  | some index => ((entries[index]?).map Prod.fst).getD 0

/-- The call on the singly linked list. -/
def Call.singly (call : Call T) (entries : List (Nat × T)) :
    SinglyLinked.Call T :=
  match call with
  | .pushFront elem => .pushFront elem
  | .popFront => .popFront
  | .insertAfter pos elem => .insertAfter (place entries pos) elem
  | .insertBefore pos elem => .insertBefore (place entries pos) elem

/-- The call on the doubly linked list. -/
def Call.doubly (call : Call T) (entries : List (Nat × T)) :
    DoublyLinked.Call T :=
  match call with
  | .pushFront elem => .pushFront elem
  | .popFront => .popFront
  | .insertAfter pos elem => .insertAfter (place entries pos) elem
  | .insertBefore pos elem => .insertBefore (place entries pos) elem

/-- The error of the doubly linked list that has the same name. -/
def sameError : SinglyLinked.Error → DoublyLinked.Error
  | .oom => .oom
  | .invalidLayout => .invalidLayout
  | .invalid => .invalid
  | .empty => .empty

/-- What a call does to the elements when it gets its memory. -/
def Call.reference (call : Call T) (elems : List T) :
    SinglyLinked.Answer T × List T :=
  match call with
  | .pushFront elem => (.ok none, elem :: elems)
  | .popFront =>
      match elems with
      | [] => (.error .empty, [])
      | elem :: rest => (.ok (some elem), rest)
  | .insertAfter none elem => (.ok none, elem :: elems)
  | .insertAfter (some index) elem =>
      (.ok none, elems.insertIdx (index + 1) elem)
  | .insertBefore none elem => (.ok none, elem :: elems)
  | .insertBefore (some index) elem =>
      (.ok none, elems.insertIdx index elem)

/-- A position is null or that of one of so many nodes. -/
def Call.Within (call : Call T) (length : Nat) : Prop :=
  match call with
  | .insertAfter (some index) _ | .insertBefore (some index) _ =>
      index < length
  | _ => True

/-! ## Positions -/

theorem place_eq (within : index < entries.length) :
    place entries (some index) = entries[index].1 := by
  dsimp only [place]
  rw [List.getElem?_eq_getElem within]
  rfl

theorem place_mem (within : index < entries.length) :
    place entries (some index) ∈ entries.map Prod.fst := by
  rw [place_eq within]
  exact List.mem_map_of_mem (List.getElem_mem within)

/-- The references of both lists are that of the elements. -/
theorem singly_reference
    (nodup : (entries.map Prod.fst).Nodup)
    (valid : 0 ∉ entries.map Prod.fst) (call : Call T)
    (within : call.Within entries.length) (node : Nat) :
    ((call.singly entries).reference (some node) entries).1 =
        (call.reference (entries.map Prod.snd)).1 ∧
      ((call.singly entries).reference (some node) entries).2.map Prod.snd =
        (call.reference (entries.map Prod.snd)).2 := by
  cases call with
  | pushFront elem => exact ⟨rfl, rfl⟩
  | popFront => cases entries <;> exact ⟨rfl, rfl⟩
  | insertAfter pos elem =>
      cases pos with
      | none => exact ⟨rfl, rfl⟩
      | some index =>
          have nonnull : place entries (some index) ≠ 0 := fun null =>
            valid (null ▸ place_mem within)
          refine ⟨rfl, ?_⟩
          dsimp only [Call.singly, SinglyLinked.Call.reference,
            Call.reference]
          rw [if_neg nonnull, place_eq within,
            insertBehind_getElem nodup within, List.map_insertIdx]
  | insertBefore pos elem =>
      cases pos with
      | none => exact ⟨rfl, rfl⟩
      | some index =>
          have nonnull : place entries (some index) ≠ 0 := fun null =>
            valid (null ▸ place_mem within)
          dsimp only [Call.singly, SinglyLinked.Call.reference,
            Call.reference]
          rw [if_neg nonnull, if_pos (place_mem within)]
          dsimp only
          rw [place_eq within, insertAhead_getElem nodup within,
            List.map_insertIdx]
          exact ⟨rfl, rfl⟩

theorem doubly_reference
    (nodup : (entries.map Prod.fst).Nodup)
    (valid : 0 ∉ entries.map Prod.fst) (call : Call T)
    (within : call.Within entries.length) (node : Nat) :
    ((call.doubly entries).reference (some node) entries).1 =
        (call.reference (entries.map Prod.snd)).1.mapError sameError ∧
      ((call.doubly entries).reference (some node) entries).2.map Prod.snd =
        (call.reference (entries.map Prod.snd)).2 := by
  cases call with
  | pushFront elem => exact ⟨rfl, rfl⟩
  | popFront => cases entries <;> exact ⟨rfl, rfl⟩
  | insertAfter pos elem =>
      cases pos with
      | none => exact ⟨rfl, rfl⟩
      | some index =>
          have nonnull : place entries (some index) ≠ 0 := fun null =>
            valid (null ▸ place_mem within)
          refine ⟨rfl, ?_⟩
          dsimp only [Call.doubly, DoublyLinked.Call.reference,
            Call.reference]
          rw [if_neg nonnull, place_eq within,
            insertBehind_getElem nodup within, List.map_insertIdx]
  | insertBefore pos elem =>
      cases pos with
      | none => exact ⟨rfl, rfl⟩
      | some index =>
          have nonnull : place entries (some index) ≠ 0 := fun null =>
            valid (null ▸ place_mem within)
          refine ⟨rfl, ?_⟩
          dsimp only [Call.doubly, DoublyLinked.Call.reference,
            Call.reference]
          rw [if_neg nonnull, place_eq within,
            insertAhead_getElem nodup within, List.map_insertIdx]

/-! ## Steps -/

/-- The allocators return memory that is not in use. -/
structure Granted (list : CuList T) (dlist : DList T)
    (node dnode : Nat) : Prop where
  valid : node ≠ 0
  fresh : list.nodes node = none
  dvalid : dnode ≠ 0
  dfresh : dlist.nodes dnode = none

theorem Granted.singly {node dnode : Nat} {call : Call T}
    (granted : Granted list dlist node dnode)
    (within : call.Within entries.length) :
    SinglyLinked.Permitted list entries (call.singly entries)
      (some node) := by
  refine ⟨?_, ?_⟩
  · rintro _ ⟨⟩
    exact ⟨granted.valid, granted.fresh⟩
  · rcases call with _ | _ | ⟨_ | index, _⟩ | _
    · trivial
    · trivial
    · exact Or.inl rfl
    · exact Or.inr (place_mem within)
    · trivial

theorem Granted.doubly {node dnode : Nat} {call : Call T}
    (granted : Granted list dlist node dnode)
    (within : call.Within entries.length) :
    DoublyLinked.Permitted dlist entries (call.doubly entries)
      (some dnode) := by
  refine ⟨?_, ?_⟩
  · rintro _ ⟨⟩
    exact ⟨granted.dvalid, granted.dfresh⟩
  · rcases call with _ | _ | ⟨_ | index, _⟩ | ⟨_ | index, _⟩
    · trivial
    · trivial
    · exact Or.inl rfl
    · exact Or.inr (place_mem within)
    · exact Or.inl rfl
    · exact Or.inr (place_mem within)

/--
Lists that hold the same elements, and what the same calls make of them.  The
entries name the nodes of each list.
-/
inductive InStep :
    CuList T → List (Nat × T) → DList T → List (Nat × T) → Prop where
  | started {list : CuList T} {dlist : DList T}
      {entries dentries : List (Nat × T)} {gone : List T}
      (singly : SinglyLinked.Reached list entries)
      (doubly : DoublyLinked.Reached dlist dentries gone)
      (same : entries.map Prod.snd = dentries.map Prod.snd) :
      InStep list entries dlist dentries
  | called {list after : CuList T} {dlist dafter : DList T}
      {entries dentries : List (Nat × T)} {call : Call T}
      {node dnode : Nat} {answer : SinglyLinked.Answer T}
      {danswer : DoublyLinked.Answer T}
      (earlier : InStep list entries dlist dentries)
      (within : call.Within entries.length)
      (granted : Granted list dlist node dnode)
      (performs : list.perform (call.singly entries) (some node) =
        some (answer, after))
      (dperforms : dlist.perform (call.doubly dentries) (some dnode) =
        some (danswer, dafter)) :
      InStep after ((call.singly entries).reference (some node) entries).2
        dafter ((call.doubly dentries).reference (some dnode) dentries).2

/-- Both lists hold their entries, with the same elements. -/
structure Alike (list : CuList T) (entries : List (Nat × T))
    (dlist : DList T) (dentries : List (Nat × T)) : Prop where
  singly : SinglyLinked.Holds list entries
  doubly : DoublyLinked.Holds dlist dentries
  same : entries.map Prod.snd = dentries.map Prod.snd

variable {dentries : List (Nat × T)}

theorem Alike.length (alike : Alike list entries dlist dentries) :
    entries.length = dentries.length := by
  have same := congrArg List.length alike.same
  rw [List.length_map, List.length_map] at same
  exact same

/-- The step lemma: the answers are the same, and the elements after it. -/
theorem Alike.perform_spec (alike : Alike list entries dlist dentries)
    (call : Call T) {node dnode : Nat}
    (within : call.Within entries.length)
    (granted : Granted list dlist node dnode) :
    ∃ answer after dafter,
      list.perform (call.singly entries) (some node) =
        some (answer, after) ∧
      dlist.perform (call.doubly dentries) (some dnode) =
        some (answer.mapError sameError, dafter) ∧
      answer = (call.reference (entries.map Prod.snd)).1 ∧
      Alike after ((call.singly entries).reference (some node) entries).2
        dafter
        ((call.doubly dentries).reference (some dnode) dentries).2 := by
  have dwithin : call.Within dentries.length := by
    rw [← alike.length]
    exact within
  have forward := alike.singly.forward
  have spells := alike.doubly.spells
  have reference :=
    singly_reference forward.nodup forward.valid call within node
  have dreference :=
    doubly_reference spells.nodup spells.valid call dwithin dnode
  rcases alike.singly.perform_spec _ _ (granted.singly within) with
    ⟨after, performs, holds⟩
  rcases alike.doubly.perform_spec _ _ (granted.doubly dwithin) with
    ⟨dafter, dperforms, follows⟩
  rw [reference.1] at performs
  rw [dreference.1, ← alike.same] at dperforms
  refine ⟨_, after, dafter, performs, dperforms, rfl, holds, follows.holds, ?_⟩
  rw [reference.2, dreference.2, alike.same]

theorem InStep.alike (inStep : InStep list entries dlist dentries) :
    Alike list entries dlist dentries := by
  induction inStep with
  | started singly doubly same => exact ⟨singly.holds, doubly.holds.1, same⟩
  | called _ within granted performs dperforms alike =>
      rcases alike.perform_spec _ within granted with
        ⟨answer, after, dafter, does, ddoes, _, following⟩
      rw [does] at performs
      rw [ddoes] at dperforms
      cases performs
      cases dperforms
      exact following

/--
The main result: in every run of the same calls on both lists the iterators
yield the same elements, and every call has the same answer on both.  The
entries are the nodes of the lists in their order.  A singly linked list
refuses to insert in front of a node that it does not have, and stays as it
is.
-/
theorem lists_in_step :
    (∀ (list : CuList T) (entries : List (Nat × T)) (dlist : DList T)
      (dentries : List (Nat × T)),
      InStep list entries dlist dentries →
        follow 0 (SinglyLinked.nextOf list.nodes) list.length list.head =
          entries.map Prod.fst ∧
        follow 0 (DoublyLinked.nextOf dlist.nodes) dlist.length dlist.head =
          dentries.map Prod.fst ∧
        list.iterate = some (entries.map Prod.snd) ∧
        dlist.iterate = list.iterate ∧
        ∀ (call : Call T) (node dnode : Nat),
          call.Within entries.length → Granted list dlist node dnode →
            ∃ answer after dafter,
              list.perform (call.singly entries) (some node) =
                some (answer, after) ∧
              dlist.perform (call.doubly dentries) (some dnode) =
                some (answer.mapError sameError, dafter) ∧
              answer = (call.reference (entries.map Prod.snd)).1 ∧
              after.iterate =
                some (call.reference (entries.map Prod.snd)).2 ∧
              dafter.iterate = after.iterate) ∧
      ∀ (list : CuList T) (entries : List (Nat × T)) (pos : Nat) (elem : T)
        (grant : Option Nat),
        SinglyLinked.Reached list entries → pos ≠ 0 →
          pos ∉ follow 0 (SinglyLinked.nextOf list.nodes) list.length
            list.head →
            list.insertBefore pos elem grant = some (some .invalid, list) := by
  have nodes {list : CuList T} {entries : List (Nat × T)}
      (holds : SinglyLinked.Holds list entries) :
      follow 0 (SinglyLinked.nextOf list.nodes) list.length list.head =
        entries.map Prod.fst := by
    apply holds.forward.follow_eq
    rw [List.length_map]
    exact Nat.le_of_eq holds.length.symm
  constructor
  · intro list entries dlist dentries inStep
    have alike := inStep.alike
    refine ⟨nodes alike.singly, ?_, alike.singly.iterate_spec, ?_, ?_⟩
    · apply alike.doubly.spells.follow_next
      rw [List.length_map]
      exact Nat.le_of_eq alike.doubly.length.symm
    · rw [alike.singly.iterate_spec, alike.doubly.iterate_spec, alike.same]
    · intro call node dnode within granted
      rcases alike.perform_spec call within granted with
        ⟨answer, after, dafter, performs, dperforms, reference, following⟩
      have forward := alike.singly.forward
      have elements :=
        (singly_reference forward.nodup forward.valid call within node).2
      refine ⟨answer, after, dafter, performs, dperforms, reference, ?_, ?_⟩
      · rw [following.singly.iterate_spec, elements]
      · rw [following.singly.iterate_spec, following.doubly.iterate_spec,
          following.same]
  · intro list entries pos elem grant reached valid foreign
    rw [nodes reached.holds] at foreign
    exact reached.holds.insertBefore_foreign valid foreign elem grant

/--
An element is pushed on both lists, and another one is put in front of it;
the nodes have other addresses in each list.  No node is at address 9.
-/
theorem lists_in_step_insertion :
    ∃ (list : CuList Nat) (dlist : DList Nat),
      InStep list [(2, 6), (1, 5)] dlist [(4, 6), (3, 5)] ∧
      list.iterate = some [6, 5] ∧ dlist.iterate = list.iterate ∧
      list.insertBefore 9 7 none = some (some .invalid, list) := by
  have creates : CuList.create ⟨8, 8⟩ true =
      .ok (⟨fun _ => none, 0, 0, ⟨8, 8⟩, true, []⟩ : CuList Nat) := rfl
  have dcreates : DList.create ⟨8, 8⟩ true =
      .ok (⟨fun _ => none, 0, 0, 0, ⟨8, 8⟩, true, []⟩ : DList Nat) := rfl
  have granted {list : CuList Nat} {node : Nat} (valid : node ≠ 0)
      (fresh : list.nodes node = none) (other : Nat)
      (same : some node = some other) :
      other ≠ 0 ∧ list.nodes other = none := by
    cases same
    exact ⟨valid, fresh⟩
  have started := InStep.started (.created creates) (.created dcreates) rfl
  have pushed := @InStep.called _ _ _ _ _ _ _ (.pushFront 5) 1 3 _ _ started
    trivial ⟨by decide, rfl, by decide, rfl⟩ rfl rfl
  have inserted := @InStep.called _ _ _ _ _ _ _ (.insertBefore (some 0) 6)
    2 4 _ _ pushed Nat.zero_lt_one ⟨by decide, rfl, by decide, rfl⟩ rfl rfl
  have reached := SinglyLinked.Reached.created creates
  have pushed₁ := @SinglyLinked.Reached.called _ _ _ _ (.pushFront 5)
    (some 1) _ reached ⟨granted (by decide) rfl, trivial⟩ rfl
  have inserted₁ := @SinglyLinked.Reached.called _ _ _ _ (.insertBefore 1 6)
    (some 2) _ pushed₁ ⟨granted (by decide) rfl, trivial⟩ rfl
  rcases lists_in_step.1 _ _ _ _ inserted with ⟨_, _, yields, alike, _⟩
  have refused := lists_in_step.2 _ _ 9 7 none inserted₁ (by decide)
    (by decide)
  exact ⟨_, _, inserted, yields, alike, refused⟩

end Libcute.Collection.LinkedLists
