import Libcute.Collection.DoublyLinked.Calls

/-!
# Runs of the doubly linked list

A doubly linked list refines a list of elements.  The reference is a list of
entries, the elements with the addresses of their nodes, so that a position
can be named.  `dlist_refines` says that in every run, whatever the allocator
refuses, the links spell the entries of the reference in both directions.
-/

namespace Libcute.Collection.DoublyLinked

open Libcute.Core.Interface
open Libcute.Library.LinkedList

variable {T : Type} {list list' : DList T}
  {entries left right : List (Nat × T)} {gone : List T} {node pos : Nat}
  {data elem : T}

/-! ## Calls and their reference -/

/-- A call on a list.  The position 0 is null. -/
inductive Call (T : Type) where
  | pushFront (elem : T)
  | pushBack (elem : T)
  | popFront
  | popBack
  | insertAfter (pos : Nat) (elem : T)
  | insertBefore (pos : Nat) (elem : T)

/-- The answer to a call, with the element that it took out. -/
abbrev Answer (T : Type) := Except Error (Option T)

/-- The answer of a call that puts an element in. -/
def insertAnswer (result : Option Error × DList T) : Answer T × DList T :=
  match result with
  | (none, list) => (.ok none, list)
  | (some err, list) => (.error err, list)

/-- The answer of a call that takes an element out. -/
def popAnswer (result : Except Error T × DList T) : Answer T × DList T :=
  (result.1.map some, result.2)

/-- Make a call; the allocator answers with a node or with null. -/
def DList.perform (list : DList T) (call : Call T) (grant : Option Nat) :
    Option (Answer T × DList T) :=
  match call with
  | .pushFront elem => (list.pushFront elem grant).map insertAnswer
  | .pushBack elem => (list.pushBack elem grant).map insertAnswer
  | .popFront => list.popFront.map popAnswer
  | .popBack => list.popBack.map popAnswer
  | .insertAfter pos elem => (list.insertAfter pos elem grant).map insertAnswer
  | .insertBefore pos elem => (list.insertBefore pos elem grant).map insertAnswer

/-- What the name of a call requires of the entries. -/
def Call.reference (call : Call T) (grant : Option Nat)
    (entries : List (Nat × T)) : Answer T × List (Nat × T) :=
  let insertion (elem : T)
      (insert : Nat × T → List (Nat × T)) : Answer T × List (Nat × T) :=
    match grant with
    | none => (.error .oom, entries)
    | some node => (.ok none, insert (node, elem))
  match call with
  | .pushFront elem => insertion elem (· :: entries)
  | .pushBack elem => insertion elem (entries ++ [·])
  | .popFront =>
      match entries with
      | [] => (.error .empty, [])
      | entry :: rest => (.ok (some entry.2), rest)
  | .popBack =>
      match entries.getLast? with
      | none => (.error .empty, [])
      | some entry => (.ok (some entry.2), entries.dropLast)
  | .insertAfter pos elem =>
      insertion elem fun new =>
        if pos = 0 then new :: entries else insertBehind pos new entries
  | .insertBefore pos elem =>
      insertion elem fun new =>
        if pos = 0 then new :: entries else insertAhead pos new entries

/-- The element that an answer hands out. -/
def handedOut : Answer T → List T
  | .ok (some elem) => [elem]
  | _ => []

/--
The allocator returns memory that is not in use, and a position is null or a
node of the list.
-/
def Permitted (list : DList T) (entries : List (Nat × T)) (call : Call T)
    (grant : Option Nat) : Prop :=
  (∀ node, grant = some node → node ≠ 0 ∧ list.nodes node = none) ∧
  match call with
  | .insertAfter pos _ | .insertBefore pos _ =>
      pos = 0 ∨ pos ∈ entries.map Prod.fst
  | _ => True

/-! ## One call -/

/-- The ends of a list have null behind them. -/
theorem Holds.outward
    (holds : Holds list entries) (filled : list.head ≠ 0) :
    prevOf list.nodes list.head = 0 ∧ nextOf list.nodes list.tail = 0 := by
  cases entries with
  | nil => exact absurd holds.head_eq filled
  | cons first rest =>
      have front : list.head = first.1 := holds.head_eq
      have whole : Holds list ([] ++ (first.1, first.2) :: rest) := holds
      constructor
      · rw [front, prevOf_of_content whole.content_eq]
        rfl
      · rcases List.eq_nil_or_concat' (first :: rest) with
          none | ⟨init, last, split⟩
        · cases none
        · rw [split] at holds
          have back : list.tail = last.1 := by
            rw [holds.tail_eq, List.map_append, List.map_cons,
              getLastD_append_cons]
            rfl
          have ends : Holds list (init ++ (last.1, last.2) :: []) := holds
          rw [back, nextOf_of_content ends.content_eq]
          rfl

/-- A call that fails leaves the entries. -/
theorem Call.reference_failed {call : Call T} {grant : Option Nat}
    {err : Error}
    (failed : (call.reference grant entries).1 = .error err) :
    (call.reference grant entries).2 = entries := by
  unfold Call.reference at failed ⊢
  cases call with
  | popFront =>
      cases entries with
      | nil => rfl
      | cons entry rest => cases failed
  | popBack =>
      rcases List.eq_nil_or_concat' entries with rfl | ⟨rest, entry, rfl⟩
      · rfl
      · dsimp only at failed
        rw [List.getLast?_concat] at failed
        cases failed
  | _ =>
      cases grant with
      | none => rfl
      | some node => cases failed

/-- A state that keeps the entries of the reference. -/
structure Follows (list : DList T) (result : Answer T × List (Nat × T))
    (after : DList T) : Prop where
  holds : Holds after result.2
  destructor : after.destructor = list.destructor
  destroyed : after.destroyed =
    if list.destructor = true then handedOut result.1 ++ list.destroyed
    else list.destroyed
  failed : ∀ err, result.1 = .error err → after = list

/-- A call that allocates and fails leaves the list as it is. -/
theorem Holds.refused (holds : Holds list entries) (err : Error) :
    Follows list (.error err, entries) list where
  holds := holds
  destructor := rfl
  destroyed := by split <;> rfl
  failed := fun _ _ => rfl

/-- A call that linked a new node. -/
theorem Holds.grown {nodes : Nodes T} {head tail : Nat}
    (holds : Holds (list.relinked nodes head tail (list.length + 1))
      entries) :
    Follows list (.ok none, entries)
      (list.relinked nodes head tail (list.length + 1)) where
  holds := holds
  destructor := rfl
  destroyed := by split <;> rfl
  failed := fun _ failed => by cases failed

/-- A call that took an element out. -/
theorem Holds.shrunk {nodes : Nodes T} {head tail : Nat}
    (holds : Holds (list.popped nodes head tail elem) entries) :
    Follows list (.ok (some elem), entries)
      (list.popped nodes head tail elem) where
  holds := holds
  destructor := rfl
  destroyed := rfl
  failed := fun _ failed => by cases failed

/-- The step lemma: every call does what its reference says. -/
theorem Holds.perform_spec
    (holds : Holds list entries) (call : Call T) (grant : Option Nat)
    (permitted : Permitted list entries call grant) :
    ∃ after,
      list.perform call grant =
        some ((call.reference grant entries).1, after) ∧
      Follows list (call.reference grant entries) after := by
  rcases permitted with ⟨granted, position⟩
  have layout := holds.layout
  cases call with
  | pushFront elem =>
      dsimp only [DList.perform, Call.reference]
      cases grant with
      | none =>
          rw [pushFront_refused layout]
          exact ⟨list, rfl, holds.refused .oom⟩
      | some node =>
          rcases granted node rfl with ⟨valid, fresh⟩
          rcases holds.pushFront_spec valid fresh elem with
            ⟨nodes, head, tail, pushes, after⟩
          rw [pushes]
          exact ⟨_, rfl, after.grown⟩
  | pushBack elem =>
      dsimp only [DList.perform, Call.reference]
      cases grant with
      | none =>
          rw [pushBack_refused layout]
          exact ⟨list, rfl, holds.refused .oom⟩
      | some node =>
          rcases granted node rfl with ⟨valid, fresh⟩
          rcases holds.pushBack_spec valid fresh elem with
            ⟨nodes, head, tail, pushes, after⟩
          rw [pushes]
          exact ⟨_, rfl, after.grown⟩
  | popFront =>
      dsimp only [DList.perform, Call.reference]
      cases entries with
      | nil =>
          rw [popFront_empty holds]
          exact ⟨list, rfl, holds.refused .empty⟩
      | cons entry rest =>
          rcases holds.popFront_spec with ⟨nodes, head, tail, pops, after⟩
          rw [pops]
          exact ⟨_, rfl, after.shrunk⟩
  | popBack =>
      dsimp only [DList.perform, Call.reference]
      rcases List.eq_nil_or_concat' entries with rfl | ⟨rest, entry, rfl⟩
      · rw [popBack_empty holds]
        exact ⟨list, rfl, holds.refused .empty⟩
      · rcases holds.popBack_spec with ⟨nodes, head, tail, pops, after⟩
        rw [pops, List.getLast?_concat, List.dropLast_concat]
        exact ⟨_, rfl, after.shrunk⟩
  | insertAfter pos elem =>
      dsimp only [DList.perform, Call.reference]
      cases grant with
      | none =>
          rw [insertAfter_refused layout]
          exact ⟨list, rfl, holds.refused .oom⟩
      | some node =>
          rcases granted node rfl with ⟨valid, fresh⟩
          by_cases null : pos = 0
          · subst null
            rcases holds.insertAfter_null_spec valid fresh elem with
              ⟨nodes, head, tail, inserts, after⟩
            rw [inserts]
            exact ⟨_, rfl, after.grown⟩
          · rcases split_at holds.spells.nodup (position.resolve_left null) with
              ⟨left, data, right, rfl, outside⟩
            rcases holds.insertAfter_spec valid fresh elem with
              ⟨nodes, head, tail, inserts, after⟩
            rw [inserts]
            dsimp only
            rw [if_neg null, insertBehind_eq outside]
            exact ⟨_, rfl, after.grown⟩
  | insertBefore pos elem =>
      dsimp only [DList.perform, Call.reference]
      cases grant with
      | none =>
          rw [insertBefore_refused layout]
          exact ⟨list, rfl, holds.refused .oom⟩
      | some node =>
          rcases granted node rfl with ⟨valid, fresh⟩
          by_cases null : pos = 0
          · subst null
            rcases holds.insertAfter_null_spec valid fresh elem with
              ⟨nodes, head, tail, inserts, after⟩
            rw [insertBefore_null, inserts]
            exact ⟨_, rfl, after.grown⟩
          · rcases split_at holds.spells.nodup (position.resolve_left null) with
              ⟨left, data, right, rfl, outside⟩
            rcases holds.insertBefore_spec valid fresh elem with
              ⟨nodes, head, tail, inserts, after⟩
            rw [inserts]
            dsimp only
            rw [if_neg null, insertAhead_eq outside]
            exact ⟨_, rfl, after.grown⟩

/-! ## Runs -/

/--
The lists that runs reach, with the entries of the reference and the elements
that were popped so far, the latest element first.
-/
inductive Reached :
    DList T → List (Nat × T) → List T → Prop where
  | created {layout : Layout} {destructor : Bool} {list : DList T}
      (creates : DList.create layout destructor = .ok list) :
      Reached list [] []
  | called {list after : DList T} {entries : List (Nat × T)}
      {gone : List T} {call : Call T} {grant : Option Nat}
      {answer : Answer T}
      (earlier : Reached list entries gone)
      (permitted : Permitted list entries call grant)
      (performs : list.perform call grant = some (answer, after)) :
      Reached after (call.reference grant entries).2
        (handedOut (call.reference grant entries).1 ++ gone)

/-- What holds of every list that a run reaches. -/
theorem Reached.holds (reached : Reached list entries gone) :
    Holds list entries ∧
      list.destroyed = (if list.destructor = true then gone else []) := by
  induction reached with
  | created creates =>
      unfold DList.create at creates
      split at creates
      · cases creates
      · rename_i valid
        cases creates
        refine ⟨⟨valid, .nil rfl rfl, ?_, rfl⟩, ?_⟩
        · exact fun _ member => absurd member List.not_mem_nil
        · split <;> rfl
  | called _ permitted performs hypothesis =>
      rename_i call grant answer _
      rcases hypothesis with ⟨holds, destroyed⟩
      rcases holds.perform_spec call grant permitted with
        ⟨after, does, follows⟩
      rw [does] at performs
      cases performs
      refine ⟨follows.holds, ?_⟩
      rw [follows.destroyed, follows.destructor, destroyed]
      split <;> rfl

/--
The main result: in every run the links of the list spell the entries of the
reference forwards and backwards, with null behind both ends; the length is
the number of nodes, and the destructor was run once on each element that was
popped.  Every call that may be made answers as the reference does, and
leaves the list unchanged if it fails; `cu_DList_destroy` runs the destructor
once on each element that is left.
-/
theorem dlist_refines (reached : Reached list entries gone) :
    (∀ fuel, entries.length ≤ fuel →
      follow 0 (nextOf list.nodes) fuel list.head = entries.map Prod.fst ∧
      follow 0 (prevOf list.nodes) fuel list.tail =
        (entries.map Prod.fst).reverse) ∧
      (∀ entry ∈ entries, dataOf list.nodes entry.1 = some entry.2) ∧
      (list.head ≠ 0 →
        prevOf list.nodes list.head = 0 ∧
          nextOf list.nodes list.tail = 0) ∧
      list.length = entries.length ∧
      (list.head = 0 ↔ list.length = 0) ∧
      (list.tail = 0 ↔ list.length = 0) ∧
      list.destroyed = (if list.destructor = true then gone else []) ∧
      (∀ call grant, Permitted list entries call grant →
        ∃ after,
          list.perform call grant =
            some ((call.reference grant entries).1, after) ∧
          ∀ err, (call.reference grant entries).1 = .error err →
            after = list ∧ (call.reference grant entries).2 = entries) ∧
      ∃ after, list.destroy = some after ∧ after.head = 0 ∧
        after.tail = 0 ∧ after.length = 0 ∧
        after.destroyed =
          if list.destructor = true then
            (entries.map Prod.snd).reverse ++ gone
          else [] := by
  rcases reached.holds with ⟨holds, destroyed⟩
  have count : (entries.map Prod.fst).length = list.length := by
    rw [List.length_map, holds.length]
  have nonempty : entries.map Prod.fst = [] ↔ list.length = 0 := by
    rw [← count, List.length_eq_zero_iff]
  refine ⟨?_, holds.data, ?_, holds.length, ?_, ?_, destroyed, ?_, ?_⟩
  · intro fuel enough
    have long : (entries.map Prod.fst).length ≤ fuel := by
      rw [List.length_map]
      exact enough
    exact ⟨holds.spells.follow_next long, holds.spells.follow_prev long⟩
  · intro filled
    exact holds.outward filled
  · exact holds.spells.head_eq_null_iff.trans nonempty
  · exact holds.spells.tail_eq_null_iff.trans nonempty
  · intro call grant permitted
    rcases holds.perform_spec call grant permitted with
      ⟨after, performs, follows⟩
    exact ⟨after, performs, fun err failed =>
      ⟨follows.failed err failed, call.reference_failed failed⟩⟩
  · rcases holds.destroy_spec with ⟨after, destroys, empty, _, ran, _⟩
    refine ⟨after, destroys, empty.head_eq, empty.tail_eq, empty.length, ?_⟩
    rw [ran, destroyed]
    split <;> rfl

/--
An element is pushed, another one is put in front of it when the allocator
has memory again, and the first one is popped from the back.
-/
theorem dlist_refines_insertion :
    ∃ list : DList Nat, Reached list [(2, 6)] [5] ∧
      follow 0 (nextOf list.nodes) 1 list.head = [2] ∧
      follow 0 (prevOf list.nodes) 1 list.tail = [2] ∧
      list.length = 1 ∧ list.destroyed = [5] := by
  have granted {list : DList Nat} {node : Nat} (valid : node ≠ 0)
      (fresh : list.nodes node = none) (other : Nat)
      (same : some node = some other) :
      other ≠ 0 ∧ list.nodes other = none := by
    cases same
    exact ⟨valid, fresh⟩
  have ungranted {list : DList Nat} (other : Nat)
      (same : none = some other) : other ≠ 0 ∧ list.nodes other = none := by
    cases same
  have creates : DList.create ⟨8, 8⟩ true =
      .ok (⟨fun _ => none, 0, 0, 0, ⟨8, 8⟩, true, []⟩ : DList Nat) := rfl
  have created := Reached.created creates
  have pushed := @Reached.called _ _ _ _ _ (.pushBack 5) (some 1) _ created
    ⟨granted (by decide) rfl, trivial⟩ rfl
  have refused := @Reached.called _ _ _ _ _ (.insertBefore 1 6) none _ pushed
    ⟨ungranted, Or.inr (List.mem_singleton.mpr rfl)⟩ rfl
  have inserted := @Reached.called _ _ _ _ _ (.insertBefore 1 6) (some 2) _
    refused
    ⟨granted (by decide) rfl, Or.inr (List.mem_singleton.mpr rfl)⟩ rfl
  have popped := @Reached.called _ _ _ _ _ .popBack none _ inserted
    ⟨ungranted, trivial⟩ rfl
  rcases dlist_refines popped with
    ⟨links, _, _, length, _, _, destroyed, _, _⟩
  rcases links 1 (Nat.le_refl 1) with ⟨next, prev⟩
  exact ⟨_, popped, next, prev, length, destroyed⟩

end Libcute.Collection.DoublyLinked
