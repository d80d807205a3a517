import Libcute.Collection.DoublyLinked

/-!
# Links of the doubly linked list

`Holds` is the invariant of a list: its nodes are linked in both directions
in the order of the entries, which are their addresses with their elements.
A node is linked between two others (`Holds.link`) or cut out
(`Holds.cut`).
-/

namespace Libcute.Collection.DoublyLinked

open Libcute.Core.Interface
open Libcute.Library.LinkedList

variable {T : Type} {nodes nodes' : Nodes T} {list : DList T}
  {entries left right : List (Nat × T)} {node pos value : Nat} {elem : T}

/-! ## Links -/

/-- The link of a node to the next one. -/
def nextOf (nodes : Nodes T) (node : Nat) : Nat :=
  ((nodes node).map Node.next).getD 0

/-- The link of a node to the previous one. -/
def prevOf (nodes : Nodes T) (node : Nat) : Nat :=
  ((nodes node).map Node.prev).getD 0

/-- The element of a node. -/
def dataOf (nodes : Nodes T) (node : Nat) : Option T :=
  (nodes node).map Node.data

theorem nextOf_of_content {content : Node T} (found : nodes node = some content) :
    nextOf nodes node = content.next := by
  unfold nextOf
  rw [found]
  rfl

theorem prevOf_of_content {content : Node T} (found : nodes node = some content) :
    prevOf nodes node = content.prev := by
  unfold prevOf
  rw [found]
  rfl

theorem exists_content (stored : dataOf nodes node = some elem) :
    ∃ content, nodes node = some content ∧ content.data = elem := by
  unfold dataOf at stored
  exact Option.map_eq_some_iff.mp stored

/-- The links and elements after a node was written. -/
theorem nextOf_update (nodes : Nodes T) (node : Nat) (content : Node T) :
    nextOf (Function.update nodes node (some content)) =
      Function.update (nextOf nodes) node content.next :=
  Function.comp_update
    (fun content : Option (Node T) => (content.map Node.next).getD 0)
    nodes node (some content)

theorem prevOf_update (nodes : Nodes T) (node : Nat) (content : Node T) :
    prevOf (Function.update nodes node (some content)) =
      Function.update (prevOf nodes) node content.prev :=
  Function.comp_update
    (fun content : Option (Node T) => (content.map Node.prev).getD 0)
    nodes node (some content)

theorem dataOf_update (nodes : Nodes T) (node : Nat) (content : Node T) :
    dataOf (Function.update nodes node (some content)) =
      Function.update (dataOf nodes) node (some content.data) :=
  Function.comp_update (Option.map Node.data) nodes node
    (some content)

/-- A written link is the only change. -/
theorem writeNext_spec (stored : (dataOf nodes node).isSome = true) (value : Nat) :
    ∃ nodes', writeNext nodes node value = some nodes' ∧
      nextOf nodes' = Function.update (nextOf nodes) node value ∧
      prevOf nodes' = prevOf nodes ∧ dataOf nodes' = dataOf nodes := by
  rcases Option.isSome_iff_exists.mp stored with ⟨elem, stored⟩
  rcases exists_content stored with ⟨content, found, same⟩
  refine ⟨Function.update nodes node (some { content with next := value }),
    ?_, ?_, ?_, ?_⟩
  · unfold writeNext
    rw [found]
    rfl
  · exact nextOf_update _ _ _
  · rw [prevOf_update, ← prevOf_of_content found, Function.update_eq_self]
  · rw [dataOf_update]
    dsimp only
    rw [same, ← stored, Function.update_eq_self]

theorem writePrev_spec (stored : (dataOf nodes node).isSome = true) (value : Nat) :
    ∃ nodes', writePrev nodes node value = some nodes' ∧
      nextOf nodes' = nextOf nodes ∧
      prevOf nodes' = Function.update (prevOf nodes) node value ∧
      dataOf nodes' = dataOf nodes := by
  rcases Option.isSome_iff_exists.mp stored with ⟨elem, stored⟩
  rcases exists_content stored with ⟨content, found, same⟩
  refine ⟨Function.update nodes node (some { content with prev := value }),
    ?_, ?_, ?_, ?_⟩
  · unfold writePrev
    rw [found]
    rfl
  · rw [nextOf_update, ← nextOf_of_content found, Function.update_eq_self]
  · exact prevOf_update _ _ _
  · rw [dataOf_update]
    dsimp only
    rw [same, ← stored, Function.update_eq_self]

/-! ## The invariant -/

/-- The links of a list. -/
def DList.chain (list : DList T) : Chain Nat :=
  ⟨nextOf list.nodes, prevOf list.nodes, list.head, list.tail⟩

/-- The list holds these elements in these nodes. -/
structure Holds (list : DList T) (entries : List (Nat × T)) : Prop where
  layout : ¬ list.layout.Invalid
  spells : list.chain.Spells 0 (entries.map Prod.fst)
  data : ∀ entry ∈ entries, dataOf list.nodes entry.1 = some entry.2
  length : list.length = entries.length

theorem Holds.stored
    (holds : Holds list entries) (member : node ∈ entries.map Prod.fst) :
    (dataOf list.nodes node).isSome = true :=
  stored_isSome holds.data member

theorem Holds.head_eq (holds : Holds list entries) :
    list.head = (entries.map Prod.fst).headD 0 :=
  holds.spells.head

theorem Holds.tail_eq (holds : Holds list entries) :
    list.tail = (entries.map Prod.fst).getLastD 0 :=
  holds.spells.tail

theorem Holds.head_mem
    (holds : Holds list entries) (filled : list.head ≠ 0) :
    list.head ∈ entries.map Prod.fst := by
  rw [holds.head_eq] at filled ⊢
  exact headD_mem (fun none => filled (by rw [none]; rfl)) 0

theorem Holds.tail_mem
    (holds : Holds list entries) (filled : list.tail ≠ 0) :
    list.tail ∈ entries.map Prod.fst := by
  rw [holds.tail_eq] at filled ⊢
  exact getLastD_mem (fun none => filled (by rw [none]; rfl)) 0

/-- A node that is not in memory is not in the list. -/
theorem Holds.not_mem
    (holds : Holds list entries) (fresh : list.nodes node = none) :
    node ∉ entries.map Prod.fst := by
  intro member
  have stored := holds.stored member
  unfold dataOf at stored
  rw [fresh] at stored
  cases stored

theorem Holds.ne_of_fresh
    (holds : Holds list entries) (fresh : list.nodes node = none)
    {other : Nat} (among : other ∈ entries.map Prod.fst) : other ≠ node := by
  rintro rfl
  exact holds.not_mem fresh among

/-- The nodes of the list are still stored beside a new one. -/
theorem Holds.stored_beside
    (holds : Holds list entries) (fresh : list.nodes node = none)
    (data : dataOf nodes' =
      Function.update (dataOf list.nodes) node (some elem))
    {other : Nat} (among : other ∈ entries.map Prod.fst) :
    (dataOf nodes' other).isSome = true := by
  rw [data, Function.update_of_ne (holds.ne_of_fresh fresh among)]
  exact holds.stored among

/-- The memory with a new node. -/
def DList.withNode (list : DList T) (node : Nat) (elem : T) : DList T :=
  { list with
    nodes := Function.update list.nodes node (some ⟨0, 0, elem⟩) }

/--
A new node between two others, or at an end: the node is linked to both
neighbours, and they or the ends of the list are linked to it.
-/
theorem Holds.link
    (holds : Holds list (left ++ right)) (valid : node ≠ 0)
    (fresh : list.nodes node = none) {before after head tail : Nat}
    (behind : before = (left.map Prod.fst).getLastD 0)
    (ahead : after = (right.map Prod.fst).headD 0)
    (nexts : nextOf nodes' =
      Function.update
        (if before = 0 then nextOf list.nodes
          else Function.update (nextOf list.nodes) before node) node after)
    (prevs : prevOf nodes' =
      Function.update
        (if after = 0 then prevOf list.nodes
          else Function.update (prevOf list.nodes) after node) node before)
    (data : dataOf nodes' =
      Function.update (dataOf list.nodes) node (some elem))
    (heads : head = if before = 0 then node else list.head)
    (tails : tail = if after = 0 then node else list.tail) :
    Holds { list with
        nodes := nodes', head := head, tail := tail,
        length := list.length + 1 }
      (left ++ (node, elem) :: right) where
  layout := holds.layout
  spells := by
    have spells := holds.spells
    have outside := holds.not_mem fresh
    rw [List.map_append] at spells outside
    rw [List.map_append, List.map_cons]
    have linked := spells.link outside valid behind ahead
    apply linked.congr heads tails
    · exact fun other _ => congrFun nexts other
    · exact fun other _ => congrFun prevs other
  data := by
    change ∀ entry ∈ left ++ (node, elem) :: right,
      dataOf nodes' entry.1 = some entry.2
    rw [data]
    exact stored_insert holds.data (holds.not_mem fresh) elem
  length := by
    have counted := holds.length
    rw [List.length_append] at counted ⊢
    rw [List.length_cons]
    dsimp only
    omega

/-- What a call leaves as it is, apart from the nodes and their count. -/
def DList.relinked
    (list : DList T) (nodes : Nodes T) (head tail length : Nat) : DList T :=
  { list with nodes := nodes, head := head, tail := tail, length := length }

/-- What is left of a list after a pop of an element. -/
def DList.popped
    (list : DList T) (nodes : Nodes T) (head tail : Nat) (elem : T) :
    DList T :=
  { list.relinked nodes head tail (list.length - 1) with
    destroyed :=
      if list.destructor = true then elem :: list.destroyed
      else list.destroyed }

/-- What the links have to be like for a node to be out of the list. -/
theorem Holds.cut
    (holds : Holds list (left ++ (node, elem) :: right))
    {nodes' : Nodes T} {head tail : Nat}
    (nexts : ∀ other ∈ (left ++ right).map Prod.fst,
      other ≠ (left.map Prod.fst).getLastD 0 →
        nextOf nodes' other = nextOf list.nodes other)
    (prevs : ∀ other ∈ (left ++ right).map Prod.fst,
      other ≠ (right.map Prod.fst).headD 0 →
        prevOf nodes' other = prevOf list.nodes other)
    (last : left ≠ [] →
      nextOf nodes' ((left.map Prod.fst).getLastD 0) =
        (right.map Prod.fst).headD 0)
    (first : right ≠ [] →
      prevOf nodes' ((right.map Prod.fst).headD 0) =
        (left.map Prod.fst).getLastD 0)
    (data : ∀ other ∈ (left ++ right).map Prod.fst,
      dataOf nodes' other = dataOf list.nodes other)
    (heads : head = ((left ++ right).map Prod.fst).headD 0)
    (tails : tail = ((left ++ right).map Prod.fst).getLastD 0) :
    Holds (list.popped nodes' head tail elem) (left ++ right) where
  layout := holds.layout
  spells := by
    have spells := holds.spells
    rw [List.map_append, List.map_cons] at spells
    rw [List.map_append] at nexts prevs heads tails ⊢
    apply spells.cut nexts prevs _ _ heads tails
    · exact fun filled => last fun none => filled (by rw [none]; rfl)
    · exact fun filled => first fun none => filled (by rw [none]; rfl)
  data := by
    intro entry member
    change dataOf nodes' entry.1 = some entry.2
    rw [data entry.1 (List.mem_map_of_mem member)]
    apply holds.data
    rw [List.mem_append] at member
    rw [List.mem_append, List.mem_cons]
    tauto
  length := by
    have counted := holds.length
    rw [List.length_append, List.length_cons] at counted
    rw [List.length_append]
    change list.length - 1 = _
    omega

/-- A node that is not in the list any more. -/
theorem Holds.others_ne
    (holds : Holds list (left ++ (node, elem) :: right)) :
    ∀ other ∈ (left ++ right).map Prod.fst, other ≠ node := by
  have nodup := holds.spells.nodup
  rw [List.map_append, List.map_cons, List.nodup_middle,
    ← List.map_append] at nodup
  rintro other member rfl
  exact (List.nodup_cons.mp nodup).1 member

end Libcute.Collection.DoublyLinked
