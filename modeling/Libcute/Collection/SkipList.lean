import Libcute.Core.Interface
import Libcute.Core.Size
import Libcute.Library.KeyedList

/-!
# The skip list

`skip_list.c` keeps its nodes sorted by key.  A node is linked on the levels
below its own, which is drawn at random, and a search goes from the top
level down.

The nodes live in a heap of records with an address.  Reading through an
address without a record, or beyond the `forward` array of a node, has no
result, and neither has a loop that runs for more steps than there are
nodes: the list does not change meanwhile, so such a loop never ends.  These
are the outer `none` results of the functions.

A key or a value that the list stores is a copy in a block of its own, a
`Cell`.  `Effects` records what the destructors and the allocator are called
with.  The null checks of the interface functions are not modelled.
-/

namespace Libcute.Collection.SkipList

open Libcute.Core.Interface
open Libcute.Core.Size
open Libcute.Library

variable {K V : Type}

/-- A block that holds a copy. -/
structure Cell (T : Type) where
  ptr : Nat
  content : T
deriving DecidableEq, Repr

/-- `struct cu_SkipList_Node`; null pointers are `none`. -/
structure Node (K V : Type) where
  address : Nat
  forward : List (Option Nat)
  level : Nat
  key : Option (Cell K)
  value : Option (Cell V)
deriving DecidableEq, Repr

/-- `sizeof(struct cu_SkipList_Node)` -/
def headerSize : Nat := 32

/-- `sizeof(struct cu_SkipList_Node *)` -/
def pointerSize : Nat := 8

/-- `alignof(struct cu_SkipList_Node)` -/
def nodeAlignment : Nat := 8

/-- The size of a node with its links. -/
def nodeSize (level : Nat) : Nat :=
  sizeAdd headerSize (sizeMul level pointerSize)

/-- `cu_SkipList_Error` -/
inductive Error where
  | oom
  | invalidLayout
  | invalid
deriving DecidableEq, Repr

/-- What destructors and the allocator were called with, the latest first. -/
structure Effects (K V : Type) where
  keys : List K
  values : List V
  obtained : List Slice
  released : List Slice

/-- The numbers that `cu_State_next` will return. -/
def Stream : Type := Nat → Nat

/-- `cu_SkipList` with its heap. -/
structure Skip (K V : Type) where
  heap : List (Node K V)
  head : Option Nat
  level : Nat
  maxLevel : Nat
  cmp : K → K → Int
  keyLayout : Layout
  valueLayout : Layout
  keyDestructor : Bool
  valueDestructor : Bool
  state : Stream
  effects : Effects K V

/-- The addresses that the allocator grants to one call. -/
structure Grants where
  node : Option Nat
  key : Option Nat
  value : Option Nat
deriving DecidableEq, Repr

/-- `cu_Allocator_Alloc`: a request without size is refused. -/
def alloc (grant : Option Nat) (layout : Layout) : Option Slice :=
  match grant with
  | none => none
  | some ptr =>
      if layout.elemSize = 0 then none else some ⟨ptr, layout.elemSize⟩

/--
The loop that clears the links of a new node.  They lie behind the header, in
the block of the node.
-/
def clearForward (mem : Slice) (level : Nat) : Option (List (Option Nat)) :=
  if headerSize + level * pointerSize ≤ mem.length then
    some (List.replicate level none)
  else
    none

/-- `cu_SkipList_default_cmp`, for keys that hold the given `int`. -/
def defaultCmp (asInt : K → Int) (a b : K) : Int :=
  if asInt a < asInt b then -1 else if asInt b < asInt a then 1 else 0

namespace Skip

/-! ## Nodes -/

/-- The node at an address. -/
def node (list : Skip K V) (x : Nat) : Option (Node K V) :=
  KeyedList.find Node.address list.heap x

/-- `x->forward[i]` -/
def forward (list : Skip K V) (i : Nat) (x : Nat) : Option (Option Nat) :=
  match list.node x with
  | none => none
  | some node => node.forward[i]?

/-- `x->forward[i] = target` -/
def setForward
    (list : Skip K V) (i : Nat) (x : Nat) (target : Option Nat) :
    Skip K V :=
  { list with
    heap := KeyedList.update Node.address list.heap x fun node =>
      { node with forward := node.forward.set i target } }

/-- `list->cmp(x->key, key)` -/
def compare (list : Skip K V) (key : K) (x : Nat) : Option Int :=
  match list.node x with
  | none => none
  | some node => node.key.map fun cell => list.cmp cell.content key

/-- More steps than a chain without repetition can have. -/
def steps (list : Skip K V) : Nat := list.heap.length + 1

/-! ## Searching -/

/-- `while (x->forward[i] && list->cmp(x->forward[i]->key, key) < 0)` -/
def walk (list : Skip K V) (key : K) (i : Nat) : Nat → Nat → Option Nat
  | 0, _ => none
  | fuel + 1, x =>
      match list.forward i x with
      | none => none
      | some none => some x
      | some (some next) =>
          match list.compare key next with
          | none => none
          | some order =>
              if order < 0 then list.walk key i fuel next else some x

/--
`for (size_t i = list->level; i-- > 0;)`: the last node and the array
`update`, from level 0 on.
-/
def descend (list : Skip K V) (key : K) :
    Nat → Nat → List Nat → Option (Nat × List Nat)
  | 0, x, update => some (x, update)
  | i + 1, x, update =>
      match list.walk key i list.steps x with
      | none => none
      | some x => list.descend key i x (x :: update)

/-- `x && list->cmp(x->key, key) == 0` -/
def holdsKey (list : Skip K V) (key : K) (x : Option Nat) : Option Bool :=
  match x with
  | none => some false
  | some x => (list.compare key x).map fun order => order = 0

/-! ## Random levels -/

/--
The loop of `cu_SkipList_random_level`, with `room = max_level - lvl`.  It
draws a number before it looks at the limit.
-/
def randomLevelLoop : Nat → Nat → Stream → Nat × Stream
  | 0, lvl, state => (lvl, fun i => state (i + 1))
  | room + 1, lvl, state =>
      if state 0 &&& 0xFFFF < 0x8000 then
        randomLevelLoop room (lvl + 1) fun i => state (i + 1)
      else
        (lvl, fun i => state (i + 1))

/-- `cu_SkipList_random_level` -/
def randomLevel (list : Skip K V) : Nat × Skip K V :=
  let drawn := randomLevelLoop (list.maxLevel - 1) 1 list.state
  (drawn.1, { list with state := drawn.2 })

/-! ## Effects -/

def obtain (list : Skip K V) (mem : Slice) : Skip K V :=
  { list with effects :=
    { list.effects with obtained := mem :: list.effects.obtained } }

/-- `cu_Allocator_Free` -/
def release (list : Skip K V) (mem : Slice) : Skip K V :=
  { list with effects :=
    { list.effects with released := mem :: list.effects.released } }

/-- Run the key destructor, if there is one. -/
def destructKey (list : Skip K V) (key : Cell K) : Skip K V :=
  if list.keyDestructor = true then
    { list with effects :=
      { list.effects with keys := key.content :: list.effects.keys } }
  else
    list

/-- Run the value destructor, if there is one. -/
def destructValue (list : Skip K V) (value : Cell V) : Skip K V :=
  if list.valueDestructor = true then
    { list with effects :=
      { list.effects with values := value.content :: list.effects.values } }
  else
    list

/-- The three `cu_Allocator_Free` calls for a node. -/
def releaseNode
    (list : Skip K V) (node : Node K V) (key : Cell K) (value : Cell V) :
    Skip K V :=
  ((list.release ⟨key.ptr, list.keyLayout.elemSize⟩).release
    ⟨value.ptr, list.valueLayout.elemSize⟩).release
      ⟨node.address, nodeSize node.level⟩

/-! ## The interface -/

/-- `cu_SkipList_create` -/
def create
    (asInt : K → Int) (keyLayout valueLayout : Layout) (maxLevel : Nat)
    (cmp : Option (K → K → Int))
    (keyDestructor valueDestructor : Bool)
    (state : Stream) (grant : Option Nat) :
    Option (Except Error (Skip K V)) :=
  if keyLayout.Invalid then
    some (.error .invalidLayout)
  else if valueLayout.Invalid then
    some (.error .invalidLayout)
  else if maxLevel = 0 then
    some (.error .invalid)
  else
    match alloc grant (Layout.create (nodeSize maxLevel) nodeAlignment) with
    | none => some (.error .oom)
    | some mem =>
        match clearForward mem maxLevel with
        | none => none
        | some forward =>
            some (.ok {
              heap := [⟨mem.ptr, forward, maxLevel, none, none⟩]
              head := some mem.ptr
              level := 1
              maxLevel := maxLevel
              cmp := cmp.getD (defaultCmp asInt)
              keyLayout := keyLayout
              valueLayout := valueLayout
              keyDestructor := keyDestructor
              valueDestructor := valueDestructor
              state := state
              effects := ⟨[], [], [mem], []⟩ })

/-- `cu_SkipList_alloc_node`; the last component is `*out`. -/
def allocNode
    (list : Skip K V) (level : Nat) (key : K) (value : V)
    (grants : Grants) : Option (Option Error × Skip K V × Nat) :=
  match alloc grants.node
      (Layout.create (nodeSize level) nodeAlignment) with
  | none => some (some .oom, list, 0)
  | some mem =>
      let list := list.obtain mem
      match clearForward mem level with
      | none => none
      | some forward =>
          match alloc grants.key (Layout.create
              list.keyLayout.elemSize list.keyLayout.alignment) with
          | none => some (some .oom, list.release mem, 0)
          | some k =>
              let list := list.obtain k
              match alloc grants.value (Layout.create
                  list.valueLayout.elemSize
                  list.valueLayout.alignment) with
              | none =>
                  some (some .oom, (list.release mem).release k, 0)
              | some v =>
                  let list := list.obtain v
                  let node : Node K V :=
                    ⟨mem.ptr, forward, level, some ⟨k.ptr, key⟩,
                      some ⟨v.ptr, value⟩⟩
                  some (none,
                    { list with heap := node :: list.heap }, mem.ptr)

/--
`node->forward[i] = update[i]->forward[i]; update[i]->forward[i] = node`, for
the entries of `update` from level `i` on.
-/
def link (list : Skip K V) (node : Nat) :
    List Nat → Nat → Option (Skip K V)
  | [], _ => some list
  | before :: rest, i =>
      match list.forward i before with
      | none => none
      | some next =>
          ((list.setForward i node next).setForward i before
            (some node)).link node rest (i + 1)

/-- Destroy the value of a node and copy another one over it. -/
def overwrite (list : Skip K V) (x : Nat) (value : V) :
    Option (Skip K V) :=
  match (list.node x).bind Node.value with
  | none => none
  | some cell =>
      let list := list.destructValue cell
      some { list with
        heap := KeyedList.update Node.address list.heap x fun node =>
          { node with value := some ⟨cell.ptr, value⟩ } }

/-- The levels above the present one start at the head. -/
def raise (list : Skip K V) (head lvl : Nat) (update : List Nat) :
    Skip K V × List Nat :=
  if list.level < lvl then
    ({ list with level := lvl },
      update ++ List.replicate (lvl - list.level) head)
  else
    (list, update)

/-- `cu_SkipList_insert` for a key that is not stored. -/
def insertNew
    (list : Skip K V) (head : Nat) (update : List Nat)
    (key : K) (value : V) (grants : Grants) :
    Option (Option Error × Skip K V) :=
  let drawn := list.randomLevel
  let raised := drawn.2.raise head drawn.1 update
  match raised.1.allocNode drawn.1 key value grants with
  | none => none
  | some (some error, list, _) => some (some error, list)
  | some (none, list, node) =>
      (list.link node (raised.2.take drawn.1) 0).map fun list => (none, list)

/-- `cu_SkipList_insert` -/
def insert
    (list : Skip K V) (key : K) (value : V) (grants : Grants) :
    Option (Option Error × Skip K V) :=
  if list.keyLayout.Invalid then
    some (some .invalidLayout, list)
  else if list.valueLayout.Invalid then
    some (some .invalidLayout, list)
  else
    match list.head with
    | none => none
    | some head =>
        match list.descend key list.level head [] with
        | none => none
        | some (x, update) =>
            match list.forward 0 x with
            | none => none
            | some found =>
                match found, list.holdsKey key found with
                | _, none => none
                | some x, some true =>
                    (list.overwrite x value).map fun list => (none, list)
                | _, some _ =>
                    list.insertNew head update key value grants

/--
`cu_SkipList_find`: the outer level says whether the search has a result, the
inner one is `Ptr_Optional`.
-/
def find (list : Skip K V) (key : K) : Option (Option V) :=
  match list.head with
  | none => none
  | some head =>
      match list.descend key list.level head [] with
      | none => none
      | some (x, _) =>
          match list.forward 0 x with
          | none => none
          | some found =>
              match found, list.holdsKey key found with
              | _, none => none
              | some x, some true =>
                  ((list.node x).bind Node.value).map fun cell =>
                    some cell.content
              | _, some _ => some none

/--
`if (update[i]->forward[i] != x) break;` and
`update[i]->forward[i] = x->forward[i]`, for the entries of `update` from
level `i` on.
-/
def unlink (list : Skip K V) (x : Nat) :
    List Nat → Nat → Option (Skip K V)
  | [], _ => some list
  | before :: rest, i =>
      match list.forward i before with
      | none => none
      | some next =>
          if next ≠ some x then
            some list
          else
            match list.forward i x with
            | none => none
            | some after =>
                (list.setForward i before after).unlink x rest (i + 1)

/-- `while (list->level > 1 && list->head->forward[list->level - 1] == NULL)` -/
def lower (list : Skip K V) (head : Nat) : Nat → Option Nat
  | 0 => some 0
  | 1 => some 1
  | level + 2 =>
      match list.forward (level + 1) head with
      | none => none
      | some none => list.lower head (level + 1)
      | some (some _) => some (level + 2)

/-- The end of `cu_SkipList_remove`: destroy the node and give it back. -/
def discard (list : Skip K V) (x : Nat) : Option (Skip K V) :=
  match list.node x with
  | none => none
  | some node =>
      match node.key, node.value with
      | some key, some value =>
          let list := (list.destructKey key).destructValue value
          let list := list.releaseNode node key value
          some { list with
            heap := KeyedList.erase Node.address list.heap x }
      | _, _ => none

/-- `cu_SkipList_remove` -/
def remove (list : Skip K V) (key : K) :
    Option (Option Error × Skip K V) :=
  match list.head with
  | none => none
  | some head =>
      match list.descend key list.level head [] with
      | none => none
      | some (x, update) =>
          match list.forward 0 x with
          | none => none
          | some found =>
              match found, list.holdsKey key found with
              | _, none => none
              | some x, some true =>
                  match list.unlink x update 0 with
                  | none => none
                  | some list =>
                      match list.lower head list.level with
                      | none => none
                      | some level =>
                          (({ list with level := level } :
                            Skip K V).discard x).map fun list =>
                              (none, list)
              | _, some _ => some (some .invalid, list)

/--
`cu_SkipList_iter`: the inner `none` is the result false, a pair is the new
`*node` with its key and value.
-/
def iter (list : Skip K V) (node : Option Nat) :
    Option (Option (Nat × K × V)) :=
  match node.or list.head with
  | none => none
  | some start =>
      match list.forward 0 start with
      | none => none
      | some none => some none
      | some (some cur) =>
          match list.node cur with
          | none => none
          | some found =>
              match found.key, found.value with
              | some key, some value =>
                  some (some (cur, key.content, value.content))
              | _, _ => none

/-- Call `cu_SkipList_iter` until it returns false. -/
def iterateFrom (list : Skip K V) :
    Nat → Option Nat → Option (List (K × V))
  | 0, _ => none
  | calls + 1, node =>
      match list.iter node with
      | none => none
      | some none => some []
      | some (some (cur, key, value)) =>
          (list.iterateFrom calls (some cur)).map ((key, value) :: ·)

/-- All pairs that iteration yields. -/
def iterate (list : Skip K V) : Option (List (K × V)) :=
  list.iterateFrom list.steps none

/-- The loop of `cu_SkipList_destroy`. -/
def destroyFrom (list : Skip K V) : Nat → Option Nat → Option (Skip K V)
  | _, none => some list
  | 0, some _ => none
  | fuel + 1, some x =>
      match list.forward 0 x with
      | none => none
      | some next =>
          match list.discard x with
          | none => none
          | some list => list.destroyFrom fuel next

/-- `cu_SkipList_destroy` -/
def destroy (list : Skip K V) : Option (Skip K V) :=
  match list.head with
  | none => none
  | some head =>
      match list.forward 0 head with
      | none => none
      | some first =>
          match list.destroyFrom list.steps first with
          | none => none
          | some list =>
              let list := list.release ⟨head, nodeSize list.maxLevel⟩
              some { list with
                heap := KeyedList.erase Node.address list.heap head
                head := none
                level := 0
                maxLevel := 0 }

end Skip

end Libcute.Collection.SkipList
