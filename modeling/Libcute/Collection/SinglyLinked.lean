import Libcute.Core.Interface
import Libcute.Library.LinkedList

/-!
# The singly linked list

`list.c` allocates a node for every element and links the nodes forwards.
The position in front of a node is found by a search from the head.  A
pointer to a node is its address; reading or writing a node that is not in
memory has no result.  The length is a natural number, as no memory has room
for `2 ^ 64` nodes.  The null checks of the interface functions are not
modelled.
-/

namespace Libcute.Collection.SinglyLinked

open Libcute.Core.Interface
open Libcute.Library.LinkedList

variable {T : Type}

/-- `cu_List_Error` -/
inductive Error where
  | oom
  | invalidLayout
  | invalid
  | empty
deriving DecidableEq, Repr

/-- `struct cu_List_Node` -/
structure Node (T : Type) where
  next : Nat
  data : T

/-- The nodes that were allocated, by their addresses. -/
abbrev Nodes (T : Type) := Nat → Option (Node T)

/--
`cu_List` with its nodes.  `destroyed` lists what the destructor was called
with, the latest element first.
-/
structure CuList (T : Type) where
  nodes : Nodes T
  head : Nat
  length : Nat
  layout : Layout
  destructor : Bool
  destroyed : List T

/-- `node->next = value` -/
def writeNext (nodes : Nodes T) (node value : Nat) : Option (Nodes T) :=
  (nodes node).map fun content =>
    Function.update nodes node (some { content with next := value })

namespace CuList

/-- `cu_List_create` -/
def create (layout : Layout) (destructor : Bool) :
    Except Error (CuList T) :=
  if layout.Invalid then
    .error .invalidLayout
  else
    .ok ⟨fun _ => none, 0, 0, layout, destructor, []⟩

/--
The list with a new node that holds an element.  The link of the node is
written before it is read.
-/
def withNode (list : CuList T) (node : Nat) (elem : T) : CuList T :=
  { list with nodes := Function.update list.nodes node (some ⟨0, elem⟩) }

/-- Link a new node in front of all others. -/
def linkFront (list : CuList T) (node : Nat) : Option (CuList T) :=
  (writeNext list.nodes node list.head).map fun nodes =>
    { list with nodes := nodes, head := node }

/-- Link a new node behind another one. -/
def linkAfter (list : CuList T) (pos node : Nat) : Option (CuList T) :=
  match list.nodes pos with
  | none => none
  | some content =>
      ((writeNext list.nodes node content.next).bind fun nodes =>
        writeNext nodes pos node).map fun nodes =>
          { list with nodes := nodes }

/-- `cu_List_push_front` with the answer of the allocator. -/
def pushFront (list : CuList T) (elem : T) (grant : Option Nat) :
    Option (Option Error × CuList T) :=
  if list.layout.Invalid then
    some (some .invalidLayout, list)
  else
    match grant with
    | none => some (some .oom, list)
    | some node =>
        ((list.withNode node elem).linkFront node).map fun list =>
          (none, { list with length := list.length + 1 })

/-- `cu_List_pop_front`: the inner `Except` carries `*out_elem`. -/
def popFront (list : CuList T) : Option (Except Error T × CuList T) :=
  if list.layout.Invalid then
    some (.error .invalidLayout, list)
  else if list.length = 0 then
    some (.error .empty, list)
  else
    (list.nodes list.head).map fun content =>
      (.ok content.data,
        { list with
          nodes := Function.update list.nodes list.head none
          head := content.next
          length := list.length - 1
          destroyed :=
            if list.destructor = true then content.data :: list.destroyed
            else list.destroyed })

/-- `cu_List_insert_after`; the position 0 is null. -/
def insertAfter (list : CuList T) (pos : Nat) (elem : T)
    (grant : Option Nat) : Option (Option Error × CuList T) :=
  if list.layout.Invalid then
    some (some .invalidLayout, list)
  else
    match grant with
    | none => some (some .oom, list)
    | some node =>
        let list := list.withNode node elem
        (if pos = 0 then list.linkFront node else list.linkAfter pos node).map
          fun list => (none, { list with length := list.length + 1 })

/--
The loop that looks for the node in front of a position, among not more than
so many nodes.  The inner `none` is null.
-/
def findPrev (list : CuList T) (pos : Nat) :
    Nat → Nat → Option (Option Nat)
  | 0, prev => if prev = 0 then some none else none
  | turns + 1, prev =>
      if prev = 0 then
        some none
      else
        match list.nodes prev with
        | none => none
        | some content =>
            if content.next ≠ pos then
              list.findPrev pos turns content.next
            else
              some (some prev)

/-- `cu_List_insert_before`; the position 0 is null. -/
def insertBefore (list : CuList T) (pos : Nat) (elem : T)
    (grant : Option Nat) : Option (Option Error × CuList T) :=
  if pos = 0 then
    list.insertAfter 0 elem grant
  else if list.layout.Invalid then
    some (some .invalidLayout, list)
  else if pos = list.head then
    list.insertAfter 0 elem grant
  else
    match list.findPrev pos list.length list.head with
    | none => none
    | some none => some (some .invalid, list)
    | some (some prev) => list.insertAfter prev elem grant

/--
`cu_List_iter`: the inner `none` is the result false, a pair is the new
`*node` with the element.
-/
def iter (list : CuList T) (node : Nat) : Option (Option (Nat × T)) :=
  if list.layout.Invalid then
    some none
  else
    let cur :=
      if node ≠ 0 then (list.nodes node).map Node.next else some list.head
    cur.bind fun cur =>
      if cur = 0 then
        some none
      else
        (list.nodes cur).map fun content => some (cur, content.data)

/-- All elements that iteration with `cu_List_iter` yields. -/
def iterate (list : CuList T) : Option (List T) :=
  elements list.iter (list.length + 1) 0

end CuList

end Libcute.Collection.SinglyLinked
