import Libcute.Collection.SinglyLinked.Calls

/-!
# Runs of the singly linked list

A singly linked list refines a list of entries, the elements with the
addresses of their nodes.  `Holds.perform_spec` is the step lemma: every call
does what its reference says, also with a position that is not in the list.
-/

namespace Libcute.Collection.SinglyLinked

open Libcute.Core.Interface
open Libcute.Library.LinkedList

variable {T : Type} {list list' : CuList T}
  {entries left right : List (Nat × T)} {elem : T}

/-- A call on a list.  The position 0 is null. -/
inductive Call (T : Type) where
  | pushFront (elem : T)
  | popFront
  | insertAfter (pos : Nat) (elem : T)
  | insertBefore (pos : Nat) (elem : T)

/-- The answer to a call, with the element that it took out. -/
abbrev Answer (T : Type) := Except Error (Option T)

/-- The answer of a call that puts an element in. -/
def insertAnswer (result : Option Error × CuList T) :
    Answer T × CuList T :=
  match result with
  | (none, list) => (.ok none, list)
  | (some err, list) => (.error err, list)

/-- The answer of a call that takes an element out. -/
def popAnswer (result : Except Error T × CuList T) : Answer T × CuList T :=
  (result.1.map some, result.2)

/-- Make a call; the allocator answers with a node or with null. -/
def CuList.perform (list : CuList T) (call : Call T) (grant : Option Nat) :
    Option (Answer T × CuList T) :=
  match call with
  | .pushFront elem => (list.pushFront elem grant).map insertAnswer
  | .popFront => list.popFront.map popAnswer
  | .insertAfter pos elem => (list.insertAfter pos elem grant).map insertAnswer
  | .insertBefore pos elem =>
      (list.insertBefore pos elem grant).map insertAnswer

/-- What the name of a call requires of the entries. -/
def Call.reference (call : Call T) (grant : Option Nat)
    (entries : List (Nat × T)) : Answer T × List (Nat × T) :=
  let insertion (elem : T)
      (insert : Nat × T → List (Nat × T)) : Answer T × List (Nat × T) :=
    match grant with
    | none => (.error .oom, entries)
    | some node => (.ok none, insert (node, elem))
  match call with
  | .pushFront elem => insertion elem (· :: entries)
  | .popFront =>
      match entries with
      | [] => (.error .empty, [])
      | entry :: rest => (.ok (some entry.2), rest)
  | .insertAfter pos elem =>
      insertion elem fun new =>
        if pos = 0 then new :: entries else insertBehind pos new entries
  | .insertBefore pos elem =>
      if pos = 0 then
        insertion elem (· :: entries)
      else if pos ∈ entries.map Prod.fst then
        insertion elem (insertAhead pos · entries)
      else
        (.error .invalid, entries)

/--
The allocator returns memory that is not in use, and the position that
`cu_List_insert_after` is given is null or a node of the list.
-/
def Permitted (list : CuList T) (entries : List (Nat × T)) (call : Call T)
    (grant : Option Nat) : Prop :=
  (∀ node, grant = some node → node ≠ 0 ∧ list.nodes node = none) ∧
  match call with
  | .insertAfter pos _ => pos = 0 ∨ pos ∈ entries.map Prod.fst
  | _ => True

/-- The step lemma: every call does what its reference says. -/
theorem Holds.perform_spec
    (holds : Holds list entries) (call : Call T) (grant : Option Nat)
    (permitted : Permitted list entries call grant) :
    ∃ after,
      list.perform call grant =
        some ((call.reference grant entries).1, after) ∧
      Holds after (call.reference grant entries).2 := by
  rcases permitted with ⟨granted, position⟩
  have layout := holds.layout
  cases call with
  | pushFront elem =>
      dsimp only [CuList.perform, Call.reference]
      cases grant with
      | none =>
          rw [pushFront_refused layout]
          exact ⟨list, rfl, holds⟩
      | some node =>
          rcases granted node rfl with ⟨valid, fresh⟩
          rcases holds.pushFront_spec valid fresh elem with
            ⟨nodes, head, pushes, after⟩
          rw [pushes]
          exact ⟨_, rfl, after⟩
  | popFront =>
      dsimp only [CuList.perform, Call.reference]
      cases entries with
      | nil =>
          rw [popFront_empty holds]
          exact ⟨list, rfl, holds⟩
      | cons entry rest =>
          rcases holds.popFront_spec with ⟨nodes, head, pops, after⟩
          rw [pops]
          exact ⟨_, rfl, after⟩
  | insertAfter pos elem =>
      dsimp only [CuList.perform, Call.reference]
      cases grant with
      | none =>
          rw [insertAfter_refused layout]
          exact ⟨list, rfl, holds⟩
      | some node =>
          rcases granted node rfl with ⟨valid, fresh⟩
          by_cases null : pos = 0
          · subst null
            rcases holds.insertAfter_null_spec valid fresh elem with
              ⟨nodes, head, inserts, after⟩
            rw [inserts]
            exact ⟨_, rfl, after⟩
          · rcases split_at holds.forward.nodup
                (position.resolve_left null) with
              ⟨left, data, right, rfl, outside⟩
            rcases holds.insertAfter_spec valid fresh elem with
              ⟨nodes, head, inserts, after⟩
            rw [inserts]
            dsimp only
            rw [if_neg null, insertBehind_eq outside]
            exact ⟨_, rfl, after⟩
  | insertBefore pos elem =>
      dsimp only [CuList.perform, Call.reference]
      by_cases null : pos = 0
      · subst null
        rw [if_pos rfl]
        change ∃ after,
          (list.insertAfter 0 elem grant).map insertAnswer = _ ∧ _
        cases grant with
        | none =>
            rw [insertAfter_refused layout]
            exact ⟨list, rfl, holds⟩
        | some node =>
            rcases granted node rfl with ⟨valid, fresh⟩
            rcases holds.insertAfter_null_spec valid fresh elem with
              ⟨nodes, head, inserts, after⟩
            rw [inserts]
            exact ⟨_, rfl, after⟩
      · rw [if_neg null]
        by_cases member : pos ∈ entries.map Prod.fst
        · rw [if_pos member]
          rcases split_at holds.forward.nodup member with
            ⟨left, data, right, rfl, outside⟩
          cases grant with
          | none =>
              rw [holds.insertBefore_eq, insertAfter_refused layout]
              exact ⟨list, rfl, holds⟩
          | some node =>
              rcases granted node rfl with ⟨valid, fresh⟩
              rcases holds.insertBefore_spec valid fresh elem with
                ⟨nodes, head, inserts, after⟩
              rw [inserts]
              dsimp only
              rw [insertAhead_eq outside]
              exact ⟨_, rfl, after⟩
        · rw [if_neg member, holds.insertBefore_foreign null member]
          exact ⟨list, rfl, holds⟩

/-- The lists that runs reach, with the entries of the reference. -/
inductive Reached : CuList T → List (Nat × T) → Prop where
  | created {layout : Layout} {destructor : Bool} {list : CuList T}
      (creates : CuList.create layout destructor = .ok list) :
      Reached list []
  | called {list after : CuList T} {entries : List (Nat × T)}
      {call : Call T} {grant : Option Nat} {answer : Answer T}
      (earlier : Reached list entries)
      (permitted : Permitted list entries call grant)
      (performs : list.perform call grant = some (answer, after)) :
      Reached after (call.reference grant entries).2

theorem Reached.holds (reached : Reached list entries) :
    Holds list entries := by
  induction reached with
  | created creates =>
      unfold CuList.create at creates
      split at creates
      · cases creates
      · rename_i valid
        cases creates
        exact ⟨valid, .nil 0 _,
          fun _ member => absurd member List.not_mem_nil, rfl⟩
  | called _ permitted performs holds =>
      rename_i call grant answer _
      rcases holds.perform_spec call grant permitted with
        ⟨after, does, following⟩
      rw [does] at performs
      cases performs
      exact following

end Libcute.Collection.SinglyLinked
