import Libcute.Collection.SinglyLinked

/-!
# Calls of the singly linked list

`Holds` is the invariant of a list: its nodes are linked forwards in the
order of the entries, which are their addresses with their elements.  For
every call there is one lemma that says which entries are left.
-/

namespace Libcute.Collection.SinglyLinked

open Libcute.Core.Interface
open Libcute.Library.LinkedList

variable {T : Type} {nodes nodes' : Nodes T} {list : CuList T}
  {entries left right : List (Nat × T)} {node pos value : Nat} {elem : T}

/-! ## Links -/

/-- The link of a node to the next one. -/
def nextOf (nodes : Nodes T) (node : Nat) : Nat :=
  ((nodes node).map Node.next).getD 0

/-- The element of a node. -/
def dataOf (nodes : Nodes T) (node : Nat) : Option T :=
  (nodes node).map Node.data

theorem nextOf_of_content {content : Node T}
    (found : nodes node = some content) :
    nextOf nodes node = content.next := by
  unfold nextOf
  rw [found]
  rfl

theorem exists_content (stored : dataOf nodes node = some elem) :
    ∃ content, nodes node = some content ∧ content.data = elem := by
  unfold dataOf at stored
  exact Option.map_eq_some_iff.mp stored

/-- The links and elements after a node was written. -/
theorem nextOf_update (nodes : Nodes T) (node : Nat) (content : Node T) :
    nextOf (Function.update nodes node (some content)) =
      Function.update (nextOf nodes) node content.next :=
  Function.comp_update
    (fun content : Option (Node T) => (content.map Node.next).getD 0)
    nodes node (some content)

theorem dataOf_update (nodes : Nodes T) (node : Nat) (content : Node T) :
    dataOf (Function.update nodes node (some content)) =
      Function.update (dataOf nodes) node (some content.data) :=
  Function.comp_update (Option.map Node.data) nodes node
    (some content)

/-- A written link is the only change. -/
theorem writeNext_spec
    (stored : (dataOf nodes node).isSome = true) (value : Nat) :
    ∃ nodes', writeNext nodes node value = some nodes' ∧
      nextOf nodes' = Function.update (nextOf nodes) node value ∧
      dataOf nodes' = dataOf nodes := by
  rcases Option.isSome_iff_exists.mp stored with ⟨elem, stored⟩
  rcases exists_content stored with ⟨content, found, same⟩
  refine ⟨Function.update nodes node (some { content with next := value }),
    ?_, ?_, ?_⟩
  · unfold writeNext
    rw [found]
    rfl
  · exact nextOf_update _ _ _
  · rw [dataOf_update]
    dsimp only
    rw [same, ← stored, Function.update_eq_self]

/-- A freed node is the only change. -/
theorem nextOf_free_of_ne (nodes : Nodes T) (different : pos ≠ node) :
    nextOf (Function.update nodes node none : Nodes T) pos =
      nextOf nodes pos := by
  unfold nextOf
  rw [Function.update_of_ne different]

theorem dataOf_free_of_ne (nodes : Nodes T) (different : pos ≠ node) :
    dataOf (Function.update nodes node none : Nodes T) pos =
      dataOf nodes pos := by
  unfold dataOf
  rw [Function.update_of_ne different]

/-! ## The invariant -/

/-- The list holds these elements in these nodes. -/
structure Holds (list : CuList T) (entries : List (Nat × T)) : Prop where
  layout : ¬ list.layout.Invalid
  forward : Forward 0 (nextOf list.nodes) list.head (entries.map Prod.fst)
  data : ∀ entry ∈ entries, dataOf list.nodes entry.1 = some entry.2
  length : list.length = entries.length

theorem Holds.stored
    (holds : Holds list entries) (member : node ∈ entries.map Prod.fst) :
    (dataOf list.nodes node).isSome = true :=
  stored_isSome holds.data member

/-- A node that is not in memory is not in the list. -/
theorem Holds.not_mem
    (holds : Holds list entries) (fresh : list.nodes node = none) :
    node ∉ entries.map Prod.fst := by
  intro member
  have stored := holds.stored member
  unfold dataOf at stored
  rw [fresh] at stored
  cases stored

theorem Holds.pos_ne_zero
    (holds : Holds list (left ++ (pos, elem) :: right)) : pos ≠ 0 :=
  fun none => holds.forward.valid (none ▸ mem_positions left right pos elem)

/-- A node of the list has the link that its place gives it. -/
theorem Holds.content_eq
    (holds : Holds list (left ++ (pos, elem) :: right)) :
    list.nodes pos = some ⟨(right.map Prod.fst).headD 0, elem⟩ := by
  have among : (pos, elem) ∈ left ++ (pos, elem) :: right :=
    List.mem_append_right _ List.mem_cons_self
  rcases exists_content (holds.data _ among) with ⟨content, found, same⟩
  have forward := holds.forward
  rw [List.map_append, List.map_cons] at forward
  have forth := forward.next_eq
  change nextOf list.nodes pos = _ at forth
  change content.data = elem at same
  rw [nextOf_of_content found] at forth
  rw [found, ← forth, ← same]

/-- What a call that links a node leaves as it is. -/
def CuList.relinked
    (list : CuList T) (nodes : Nodes T) (head length : Nat) : CuList T :=
  { list with nodes := nodes, head := head, length := length }

/--
A new node between two others, or at an end: it is linked to its successor,
and its predecessor or the head of the list is linked to it.
-/
theorem Holds.link
    (holds : Holds list (left ++ right)) (valid : node ≠ 0)
    (fresh : list.nodes node = none) {before head : Nat}
    (behind : before = (left.map Prod.fst).getLastD 0)
    (nexts : nextOf nodes' =
      Function.update
        (if before = 0 then nextOf list.nodes
          else Function.update (nextOf list.nodes) before node)
        node ((right.map Prod.fst).headD 0))
    (data : dataOf nodes' =
      Function.update (dataOf list.nodes) node (some elem))
    (heads : head = if before = 0 then node else list.head) :
    Holds (list.relinked nodes' head (list.length + 1))
      (left ++ (node, elem) :: right) where
  layout := holds.layout
  forward := by
    have forward := holds.forward
    have outside := holds.not_mem fresh
    rw [List.map_append] at forward outside
    rw [List.map_append, List.map_cons]
    have linked := forward.link outside valid behind
    rw [← nexts, ← heads] at linked
    exact linked
  data := by
    change ∀ entry ∈ left ++ (node, elem) :: right,
      dataOf nodes' entry.1 = some entry.2
    rw [data]
    exact stored_insert holds.data (holds.not_mem fresh) elem
  length := by
    have counted := holds.length
    rw [List.length_append] at counted ⊢
    rw [List.length_cons]
    change list.length + 1 = _
    omega

/-! ## New nodes -/

@[simp]
theorem withNode_nextOf (list : CuList T) (node : Nat) (elem : T) :
    nextOf (list.withNode node elem).nodes =
      Function.update (nextOf list.nodes) node 0 :=
  nextOf_update _ _ _

@[simp]
theorem withNode_dataOf (list : CuList T) (node : Nat) (elem : T) :
    dataOf (list.withNode node elem).nodes =
      Function.update (dataOf list.nodes) node (some elem) :=
  dataOf_update _ _ _

theorem withNode_stored (list : CuList T) (node : Nat) (elem : T) :
    (dataOf (list.withNode node elem).nodes node).isSome = true := by
  rw [withNode_dataOf, Function.update_self]
  rfl

/-- The new node is linked in front of all others. -/
theorem Holds.linkFront_spec
    (holds : Holds list entries) (valid : node ≠ 0)
    (fresh : list.nodes node = none) (elem : T) :
    ∃ nodes' head,
      (list.withNode node elem).linkFront node =
        some (list.relinked nodes' head list.length) ∧
      Holds (list.relinked nodes' head (list.length + 1))
        ((node, elem) :: entries) := by
  rcases writeNext_spec (withNode_stored list node elem) list.head with
    ⟨nodes', written, nexts, data⟩
  rw [withNode_nextOf, Function.update_idem, holds.forward.head_eq] at nexts
  rw [withNode_dataOf] at data
  have whole : Holds list ([] ++ entries) := holds
  have behind : 0 = (([] : List (Nat × T)).map Prod.fst).getLastD 0 := rfl
  refine ⟨nodes', node, ?_, ?_⟩
  · unfold CuList.linkFront
    change (writeNext _ node list.head).map _ = _
    rw [written]
    rfl
  · apply whole.link valid fresh behind _ data (if_pos rfl).symm
    rw [if_pos rfl]
    exact nexts

/-- The new node is linked behind a node of the list. -/
theorem Holds.linkAfter_spec {data : T}
    (holds : Holds list (left ++ (pos, data) :: right)) (valid : node ≠ 0)
    (fresh : list.nodes node = none) (elem : T) :
    ∃ nodes' head,
      (list.withNode node elem).linkAfter pos node =
        some (list.relinked nodes' head list.length) ∧
      Holds (list.relinked nodes' head (list.length + 1))
        (left ++ (pos, data) :: (node, elem) :: right) := by
  have posAmong := mem_positions left right pos data
  have posDifferent : pos ≠ node := by
    rintro rfl
    exact holds.not_mem fresh posAmong
  have posValid : pos ≠ 0 := holds.pos_ne_zero
  have whole : Holds list ((left ++ [(pos, data)]) ++ right) := by
    rw [List.append_assoc]
    exact holds
  have behind : pos =
      ((left ++ [(pos, data)]).map Prod.fst).getLastD 0 := by
    rw [List.map_append, List.map_cons, getLastD_append_cons]
    rfl
  have result : left ++ (pos, data) :: (node, elem) :: right =
      (left ++ [(pos, data)]) ++ (node, elem) :: right := by
    rw [List.append_assoc]
    rfl
  rw [result]
  rcases writeNext_spec (withNode_stored list node elem)
      ((right.map Prod.fst).headD 0) with ⟨nodes₁, written₁, nexts₁, data₁⟩
  rw [withNode_nextOf, Function.update_idem] at nexts₁
  rw [withNode_dataOf] at data₁
  have present : (dataOf nodes₁ pos).isSome = true := by
    rw [data₁, Function.update_of_ne posDifferent]
    exact holds.stored posAmong
  rcases writeNext_spec present node with ⟨nodes₂, written₂, nexts₂, data₂⟩
  have untouched : (list.withNode node elem).nodes pos = list.nodes pos :=
    Function.update_of_ne posDifferent _ _
  refine ⟨nodes₂, list.head, ?_, ?_⟩
  · unfold CuList.linkAfter
    rw [untouched, holds.content_eq]
    dsimp only
    rw [written₁, Option.bind_some, written₂]
    rfl
  · apply whole.link valid fresh behind
    · rw [if_neg posValid, nexts₂, nexts₁]
      exact Function.update_comm posDifferent.symm _ _ _
    · rw [data₂]
      exact data₁
    · exact (if_neg posValid).symm

/-! ## Calls -/

theorem Holds.pushFront_spec
    (holds : Holds list entries) (valid : node ≠ 0)
    (fresh : list.nodes node = none) (elem : T) :
    ∃ nodes' head,
      list.pushFront elem (some node) =
        some (none, list.relinked nodes' head (list.length + 1)) ∧
      Holds (list.relinked nodes' head (list.length + 1))
        ((node, elem) :: entries) := by
  rcases holds.linkFront_spec valid fresh elem with
    ⟨nodes', head, linked, after⟩
  refine ⟨nodes', head, ?_, after⟩
  unfold CuList.pushFront
  rw [if_neg holds.layout]
  dsimp only
  rw [linked]
  rfl

/-- At the null position an element is inserted in front of all others. -/
theorem Holds.insertAfter_null_spec
    (holds : Holds list entries) (valid : node ≠ 0)
    (fresh : list.nodes node = none) (elem : T) :
    ∃ nodes' head,
      list.insertAfter 0 elem (some node) =
        some (none, list.relinked nodes' head (list.length + 1)) ∧
      Holds (list.relinked nodes' head (list.length + 1))
        ((node, elem) :: entries) := by
  rcases holds.linkFront_spec valid fresh elem with
    ⟨nodes', head, linked, after⟩
  refine ⟨nodes', head, ?_, after⟩
  unfold CuList.insertAfter
  rw [if_neg holds.layout]
  dsimp only
  rw [if_pos rfl, linked]
  rfl

theorem Holds.insertAfter_spec {data : T}
    (holds : Holds list (left ++ (pos, data) :: right)) (valid : node ≠ 0)
    (fresh : list.nodes node = none) (elem : T) :
    ∃ nodes' head,
      list.insertAfter pos elem (some node) =
        some (none, list.relinked nodes' head (list.length + 1)) ∧
      Holds (list.relinked nodes' head (list.length + 1))
        (left ++ (pos, data) :: (node, elem) :: right) := by
  rcases holds.linkAfter_spec valid fresh elem with
    ⟨nodes', head, linked, after⟩
  refine ⟨nodes', head, ?_, after⟩
  unfold CuList.insertAfter
  rw [if_neg holds.layout]
  dsimp only
  rw [if_neg holds.pos_ne_zero, linked]
  rfl

/-- Without memory for a node nothing happens. -/
theorem pushFront_refused (valid : ¬ list.layout.Invalid) (elem : T) :
    list.pushFront elem none = some (some .oom, list) :=
  if_neg valid

theorem insertAfter_refused
    (valid : ¬ list.layout.Invalid) (pos : Nat) (elem : T) :
    list.insertAfter pos elem none = some (some .oom, list) :=
  if_neg valid

theorem popFront_empty (holds : Holds list []) :
    list.popFront = some (.error .empty, list) := by
  have none : list.length = 0 := holds.length
  unfold CuList.popFront
  rw [if_neg holds.layout, if_pos none]

/-- What is left of a list after a pop of an element. -/
def CuList.popped
    (list : CuList T) (nodes : Nodes T) (head : Nat) (elem : T) :
    CuList T :=
  { list.relinked nodes head (list.length - 1) with
    destroyed :=
      if list.destructor = true then elem :: list.destroyed
      else list.destroyed }

theorem Holds.popFront_spec
    (holds : Holds list ((node, elem) :: entries)) :
    ∃ nodes' head,
      list.popFront = some (.ok elem, list.popped nodes' head elem) ∧
      Holds (list.popped nodes' head elem) entries := by
  have whole : Holds list ([] ++ (node, elem) :: entries) := holds
  have headEq : list.head = node := holds.forward.head_eq
  have filled : ¬ list.length = 0 := by
    rw [holds.length]
    exact Nat.succ_ne_zero _
  have forward := holds.forward
  rw [List.map_cons] at forward
  have different : ∀ other ∈ entries.map Prod.fst, other ≠ node := by
    rintro other member rfl
    exact (List.nodup_cons.mp forward.nodup).1 member
  have following : nextOf list.nodes node =
      (entries.map Prod.fst).headD 0 :=
    nextOf_of_content whole.content_eq
  refine ⟨Function.update list.nodes node none,
    (entries.map Prod.fst).headD 0, ?_, ?_⟩
  · unfold CuList.popFront
    rw [if_neg holds.layout, if_neg filled, headEq, whole.content_eq]
    rfl
  · constructor
    · exact holds.layout
    · have popped := forward.pop
      change Forward 0 _ (nextOf list.nodes node) _ at popped
      rw [following] at popped
      exact popped.congr fun other member =>
        nextOf_free_of_ne _ (different other member)
    · intro entry member
      refine (dataOf_free_of_ne _
        (different _ (List.mem_map_of_mem member))).trans ?_
      exact holds.data entry (List.mem_cons_of_mem _ member)
    · have counted := holds.length
      rw [List.length_cons] at counted
      change list.length - 1 = _
      omega

/-! ## The search for a predecessor -/

/-- One turn of the search. -/
theorem findPrev_step {prev turns : Nat} {content : Node T}
    (valid : prev ≠ 0) (stored : list.nodes prev = some content) :
    list.findPrev pos (turns + 1) prev =
      if content.next ≠ pos then list.findPrev pos turns content.next
      else some (some prev) := by
  rw [CuList.findPrev, if_neg valid, stored]

/-- The search stops at the node in front of the position. -/
theorem Holds.findPrev_found {before : List (Nat × T)} {prev : Nat}
    {prevData data : T} {turns : Nat}
    (holds : Holds list
      (before ++ (left ++ (prev, prevData) :: (pos, data) :: right)))
    (enough : left.length < turns) :
    list.findPrev pos turns
      (((left ++ (prev, prevData) :: (pos, data) :: right).map
        Prod.fst).headD 0) = some (some prev) := by
  induction left generalizing before turns with
  | nil =>
      rcases turns with _ | turns
      · cases enough
      rw [List.nil_append] at holds
      refine (findPrev_step holds.pos_ne_zero holds.content_eq).trans ?_
      exact if_neg (not_not.mpr rfl)
  | cons entry rest hypothesis =>
      rcases entry with ⟨node, elem⟩
      rcases turns with _ | turns
      · cases enough
      rw [List.cons_append] at holds
      have later : ((rest ++ (prev, prevData) :: (pos, data) :: right).map
          Prod.fst).headD 0 ≠ pos := by
        have nodup := holds.forward.nodup
        rw [List.map_append, List.map_cons, List.map_append, List.map_cons,
          List.map_cons, List.nodup_append] at nodup
        have apart := (List.nodup_cons.mp nodup.2.1).2
        rw [List.nodup_append] at apart
        intro same
        cases rest with
        | nil =>
            apply (List.nodup_cons.mp apart.2.1).1
            rw [show prev = pos from same]
            exact List.mem_cons_self
        | cons second others =>
            apply apart.2.2 pos _ pos _ rfl
            · rw [← same]
              exact List.mem_cons_self
            · exact List.mem_cons_of_mem _ List.mem_cons_self
      refine (findPrev_step holds.pos_ne_zero holds.content_eq).trans ?_
      dsimp only
      rw [if_pos later]
      apply @hypothesis (before ++ [(node, elem)])
      · rw [List.append_assoc]
        exact holds
      · exact Nat.lt_of_succ_lt_succ enough

/-- The search runs to the end if the position is not in the list. -/
theorem Holds.findPrev_foreign {turns : Nat}
    (holds : Holds list (left ++ right)) (valid : pos ≠ 0)
    (foreign : pos ∉ (left ++ right).map Prod.fst)
    (enough : right.length ≤ turns) :
    list.findPrev pos turns ((right.map Prod.fst).headD 0) = some none := by
  induction right generalizing left turns with
  | nil =>
      cases turns with
      | zero => rfl
      | succ turns => exact if_pos rfl
  | cons entry rest hypothesis =>
      rcases entry with ⟨node, elem⟩
      rcases turns with _ | turns
      · cases enough
      have later : (rest.map Prod.fst).headD 0 ≠ pos := by
        cases rest with
        | nil => exact valid.symm
        | cons second others =>
            rintro rfl
            apply foreign
            rw [List.map_append, List.map_cons, List.map_cons]
            exact List.mem_append_right _
              (List.mem_cons_of_mem _ List.mem_cons_self)
      refine (findPrev_step holds.pos_ne_zero holds.content_eq).trans ?_
      dsimp only
      rw [if_pos later]
      have same : (left ++ [(node, elem)]) ++ rest =
          left ++ (node, elem) :: rest := by
        rw [List.append_assoc]
        rfl
      apply @hypothesis (left ++ [(node, elem)])
      · rw [same]
        exact holds
      · rw [same]
        exact foreign
      · exact Nat.le_of_succ_le_succ enough

theorem Holds.head_eq (holds : Holds list entries) :
    list.head = (entries.map Prod.fst).headD 0 :=
  holds.forward.head_eq

/-- In front of a node of the list, the first one or another one. -/
theorem Holds.insertBefore_eq {data : T}
    (holds : Holds list (left ++ (pos, data) :: right)) (elem : T)
    (grant : Option Nat) :
    list.insertBefore pos elem grant =
      list.insertAfter ((left.map Prod.fst).getLastD 0) elem grant := by
  unfold CuList.insertBefore
  rw [if_neg holds.pos_ne_zero, if_neg holds.layout]
  rcases List.eq_nil_or_concat' left with rfl | ⟨front, ⟨prev, prevData⟩, rfl⟩
  · exact if_pos holds.head_eq.symm
  · have whole : Holds list
        ([] ++ (front ++ (prev, prevData) :: (pos, data) :: right)) := by
      rw [List.append_assoc] at holds
      exact holds
    have behind : ((front ++ [(prev, prevData)]).map Prod.fst).getLastD 0 =
        prev := by
      rw [List.map_append, List.map_cons, getLastD_append_cons]
      rfl
    have notFirst : pos ≠ list.head := by
      have nodup := whole.forward.nodup
      rw [whole.head_eq]
      rw [List.nil_append, List.map_append, List.map_cons,
        List.map_cons] at nodup ⊢
      rw [List.nodup_append] at nodup
      intro same
      cases front with
      | nil =>
          apply (List.nodup_cons.mp nodup.2.1).1
          rw [show prev = pos from same.symm]
          exact List.mem_cons_self
      | cons first rest =>
          apply nodup.2.2 pos _ pos _ rfl
          · rw [show pos = first.1 from same]
            exact List.mem_cons_self
          · exact List.mem_cons_of_mem _ List.mem_cons_self
    have enough : front.length < list.length := by
      rw [whole.length, List.nil_append, List.length_append, List.length_cons]
      omega
    rw [if_neg notFirst, behind, whole.head_eq, List.nil_append,
      whole.findPrev_found enough]

/-- A position that is not in the list is refused. -/
theorem Holds.insertBefore_foreign
    (holds : Holds list entries) (valid : pos ≠ 0)
    (foreign : pos ∉ entries.map Prod.fst) (elem : T)
    (grant : Option Nat) :
    list.insertBefore pos elem grant = some (some .invalid, list) := by
  have whole : Holds list ([] ++ entries) := holds
  have notFirst : pos ≠ list.head := by
    rw [holds.head_eq]
    cases entries with
    | nil => exact valid
    | cons first rest =>
        rintro rfl
        exact foreign List.mem_cons_self
  have searched := whole.findPrev_foreign valid foreign
    (Nat.le_of_eq holds.length.symm)
  rw [← holds.head_eq] at searched
  unfold CuList.insertBefore
  rw [if_neg valid, if_neg holds.layout, if_neg notFirst, searched]

theorem Holds.insertBefore_spec {data : T}
    (holds : Holds list (left ++ (pos, data) :: right)) (valid : node ≠ 0)
    (fresh : list.nodes node = none) (elem : T) :
    ∃ nodes' head,
      list.insertBefore pos elem (some node) =
        some (none, list.relinked nodes' head (list.length + 1)) ∧
      Holds (list.relinked nodes' head (list.length + 1))
        (left ++ (node, elem) :: (pos, data) :: right) := by
  rw [holds.insertBefore_eq]
  rcases List.eq_nil_or_concat' left with rfl | ⟨front, ⟨prev, prevData⟩, rfl⟩
  · exact holds.insertAfter_null_spec valid fresh elem
  · have whole : Holds list
        (front ++ (prev, prevData) :: (pos, data) :: right) := by
      rw [List.append_assoc] at holds
      exact holds
    rw [List.map_append, List.map_cons, getLastD_append_cons,
      List.append_assoc]
    exact whole.insertAfter_spec valid fresh elem

/-! ## Iteration -/

/-- The iterator leads from every node to the next one. -/
theorem Holds.iter_spec (holds : Holds list (left ++ right)) :
    list.iter ((left.map Prod.fst).getLastD 0) = some right.head? := by
  have following :
      (if (left.map Prod.fst).getLastD 0 ≠ 0 then
        (list.nodes ((left.map Prod.fst).getLastD 0)).map Node.next
      else some list.head) = some ((right.map Prod.fst).headD 0) := by
    rcases List.eq_nil_or_concat' left with
      rfl | ⟨front, ⟨prev, prevData⟩, rfl⟩
    · exact (if_neg (not_not.mpr rfl)).trans (congrArg some holds.head_eq)
    · have whole : Holds list (front ++ (prev, prevData) :: right) := by
        rw [List.append_assoc] at holds
        exact holds
      rw [List.map_append, List.map_cons, getLastD_append_cons]
      change (if prev ≠ 0 then (list.nodes prev).map Node.next else _) = _
      rw [if_pos whole.pos_ne_zero, whole.content_eq]
      rfl
  unfold CuList.iter
  rw [if_neg holds.layout]
  dsimp only
  rw [following, Option.bind_some]
  cases right with
  | nil => exact if_pos rfl
  | cons entry rest =>
      rcases entry with ⟨node, elem⟩
      change (if node = 0 then _ else
        (list.nodes node).map fun content => some (node, content.data)) = _
      rw [if_neg holds.pos_ne_zero, holds.content_eq]
      rfl

/-- Iteration yields the elements in order. -/
theorem Holds.iterate_spec (holds : Holds list entries) :
    list.iterate = some (entries.map Prod.snd) := by
  unfold CuList.iterate
  rw [holds.length]
  apply elements_eq
  rintro left right rfl
  exact holds.iter_spec

end Libcute.Collection.SinglyLinked
