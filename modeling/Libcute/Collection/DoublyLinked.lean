import Libcute.Core.Interface
import Libcute.Library.LinkedList

/-!
# The doubly linked list

`dlist.c` allocates a node for every element and links the nodes in both
directions.  A pointer to a node is its address; reading or writing a node
that is not in memory has no result.  The length is a natural number, as no
memory has room for `2 ^ 64` nodes.  The null checks of the interface
functions are not modelled.
-/

namespace Libcute.Collection.DoublyLinked

open Libcute.Core.Interface
open Libcute.Library.LinkedList

variable {T : Type}

/-- `cu_DList_Error` -/
inductive Error where
  | oom
  | invalidLayout
  | invalid
  | empty
deriving DecidableEq, Repr

/-- `struct cu_DList_Node` -/
structure Node (T : Type) where
  prev : Nat
  next : Nat
  data : T

/-- The nodes that were allocated, by their addresses. -/
abbrev Nodes (T : Type) := Nat → Option (Node T)

/--
`cu_DList` with its nodes.  `destroyed` lists what the destructor was called
with, the latest element first.
-/
structure DList (T : Type) where
  nodes : Nodes T
  head : Nat
  tail : Nat
  length : Nat
  layout : Layout
  destructor : Bool
  destroyed : List T

/-! ## Nodes -/

/-- `node->prev = value` -/
def writePrev (nodes : Nodes T) (node value : Nat) : Option (Nodes T) :=
  (nodes node).map fun content =>
    Function.update nodes node (some { content with prev := value })

/-- `node->next = value` -/
def writeNext (nodes : Nodes T) (node value : Nat) : Option (Nodes T) :=
  (nodes node).map fun content =>
    Function.update nodes node (some { content with next := value })

namespace DList

/-- `cu_DList_create` -/
def create (layout : Layout) (destructor : Bool) : Except Error (DList T) :=
  if layout.Invalid then
    .error .invalidLayout
  else
    .ok ⟨fun _ => none, 0, 0, 0, layout, destructor, []⟩

/-- `cu_DList_alloc_node` with the answer of the allocator. -/
def allocNode (list : DList T) (elem : T) (grant : Option Nat) :
    Except Error Nat × DList T :=
  match grant with
  | none => (.error .oom, list)
  | some node =>
      (.ok node,
        { list with
          nodes := Function.update list.nodes node (some ⟨0, 0, elem⟩) })

/-- Run the destructor, if there is one, and free the node. -/
def dispose (list : DList T) (node : Nat) : Option (DList T) :=
  (list.nodes node).map fun content =>
    { list with
      nodes := Function.update list.nodes node none
      destroyed :=
        if list.destructor = true then content.data :: list.destroyed
        else list.destroyed }

/-- The loop over the nodes, which are not more than so many. -/
def destroyLoop (list : DList T) : Nat → Nat → Option (DList T)
  | 0, node => if node = 0 then some list else none
  | turns + 1, node =>
      if node = 0 then
        some list
      else
        match list.nodes node with
        | none => none
        | some content =>
            match list.dispose node with
            | none => none
            | some list => list.destroyLoop turns content.next

/-- `cu_DList_destroy` -/
def destroy (list : DList T) : Option (DList T) :=
  (list.destroyLoop list.length list.head).map fun list =>
    { list with head := 0, tail := 0, length := 0 }

/-- Link a new node in front of all others. -/
def linkFront (list : DList T) (node : Nat) : Option (DList T) :=
  match writeNext list.nodes node list.head with
  | none => none
  | some nodes =>
      if list.head ≠ 0 then
        (writePrev nodes list.head node).map fun nodes =>
          { list with nodes := nodes, head := node }
      else
        some { list with nodes := nodes, tail := node, head := node }

/-- `cu_DList_push_front` -/
def pushFront (list : DList T) (elem : T) (grant : Option Nat) :
    Option (Option Error × DList T) :=
  if list.layout.Invalid then
    some (some .invalidLayout, list)
  else
    match list.allocNode elem grant with
    | (.error err, list) => some (some err, list)
    | (.ok node, list) =>
        (list.linkFront node).map fun list =>
          (none, { list with length := list.length + 1 })

/-- `cu_DList_push_back` -/
def pushBack (list : DList T) (elem : T) (grant : Option Nat) :
    Option (Option Error × DList T) :=
  if list.layout.Invalid then
    some (some .invalidLayout, list)
  else
    match list.allocNode elem grant with
    | (.error err, list) => some (some err, list)
    | (.ok node, list) =>
        let linked :=
          match writePrev list.nodes node list.tail with
          | none => none
          | some nodes =>
              if list.tail ≠ 0 then
                (writeNext nodes list.tail node).map fun nodes =>
                  { list with nodes := nodes }
              else
                some { list with nodes := nodes, head := node }
        linked.map fun list =>
          (none, { list with tail := node, length := list.length + 1 })

/-- `cu_DList_pop_front`: the inner `Except` carries `*out_elem`. -/
def popFront (list : DList T) : Option (Except Error T × DList T) :=
  if list.layout.Invalid then
    some (.error .invalidLayout, list)
  else if list.length = 0 then
    some (.error .empty, list)
  else
    match list.nodes list.head with
    | none => none
    | some content =>
        let unlinked :=
          if content.next ≠ 0 then
            (writePrev list.nodes content.next 0).map fun nodes =>
              { list with nodes := nodes, head := content.next }
          else
            some { list with tail := 0, head := content.next }
        match unlinked with
        | none => none
        | some after =>
            ({ after with length := after.length - 1 }.dispose list.head).map
              fun list => (.ok content.data, list)

/-- `cu_DList_pop_back`: the inner `Except` carries `*out_elem`. -/
def popBack (list : DList T) : Option (Except Error T × DList T) :=
  if list.layout.Invalid then
    some (.error .invalidLayout, list)
  else if list.length = 0 then
    some (.error .empty, list)
  else
    match list.nodes list.tail with
    | none => none
    | some content =>
        let unlinked :=
          if content.prev ≠ 0 then
            (writeNext list.nodes content.prev 0).map fun nodes =>
              { list with nodes := nodes, tail := content.prev }
          else
            some { list with head := 0, tail := content.prev }
        match unlinked with
        | none => none
        | some after =>
            ({ after with length := after.length - 1 }.dispose list.tail).map
              fun list => (.ok content.data, list)

/-- Link a new node behind another one. -/
def linkAfter (list : DList T) (pos node : Nat) : Option (DList T) :=
  match list.nodes pos with
  | none => none
  | some content =>
      match (writeNext list.nodes node content.next).bind fun nodes =>
          writePrev nodes node pos with
      | none => none
      | some nodes =>
          let back :=
            if content.next ≠ 0 then
              (writePrev nodes content.next node).map fun nodes =>
                { list with nodes := nodes }
            else
              some { list with nodes := nodes, tail := node }
          back.bind fun list =>
            (writeNext list.nodes pos node).map fun nodes =>
              { list with nodes := nodes }

/-- `cu_DList_insert_after`; the position 0 is null. -/
def insertAfter (list : DList T) (pos : Nat) (elem : T)
    (grant : Option Nat) : Option (Option Error × DList T) :=
  if list.layout.Invalid then
    some (some .invalidLayout, list)
  else
    match list.allocNode elem grant with
    | (.error err, list) => some (some err, list)
    | (.ok node, list) =>
        (if pos = 0 then list.linkFront node else list.linkAfter pos node).map
          fun list => (none, { list with length := list.length + 1 })

/-- Link a new node in front of another one. -/
def linkBefore (list : DList T) (pos node : Nat) : Option (DList T) :=
  match list.nodes pos with
  | none => none
  | some content =>
      match (writePrev list.nodes node content.prev).bind fun nodes =>
          writeNext nodes node pos with
      | none => none
      | some nodes =>
          let forth :=
            if content.prev ≠ 0 then
              (writeNext nodes content.prev node).map fun nodes =>
                { list with nodes := nodes }
            else
              some { list with nodes := nodes, head := node }
          forth.bind fun list =>
            (writePrev list.nodes pos node).map fun nodes =>
              { list with nodes := nodes }

/-- `cu_DList_insert_before`; the position 0 is null. -/
def insertBefore (list : DList T) (pos : Nat) (elem : T)
    (grant : Option Nat) : Option (Option Error × DList T) :=
  if pos = 0 then
    list.insertAfter 0 elem grant
  else if list.layout.Invalid then
    some (some .invalidLayout, list)
  else
    match list.allocNode elem grant with
    | (.error err, list) => some (some err, list)
    | (.ok node, list) =>
        (list.linkBefore pos node).map fun list =>
          (none, { list with length := list.length + 1 })

/--
`cu_DList_iter`: the inner `none` is the result false, a pair is the new
`*node` with the element.
-/
def iter (list : DList T) (node : Nat) : Option (Option (Nat × T)) :=
  if list.layout.Invalid then
    some none
  else
    let cur :=
      if node ≠ 0 then (list.nodes node).map Node.next else some list.head
    cur.bind fun cur =>
      if cur = 0 then
        some none
      else
        (list.nodes cur).map fun content => some (cur, content.data)

/-- All elements that iteration with `cu_DList_iter` yields. -/
def iterate (list : DList T) : Option (List T) :=
  elements list.iter (list.length + 1) 0

end DList

end Libcute.Collection.DoublyLinked
