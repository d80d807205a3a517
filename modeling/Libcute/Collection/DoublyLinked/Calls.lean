import Libcute.Collection.DoublyLinked.Links

/-!
# Calls of the doubly linked list

For every call there is one lemma that says which entries are left.
-/

namespace Libcute.Collection.DoublyLinked

open Libcute.Core.Interface
open Libcute.Library.LinkedList

variable {T : Type} {nodes nodes' : Nodes T} {list : DList T}
  {entries left right : List (Nat × T)} {node pos value : Nat} {elem : T}

/-! ## New nodes -/

@[simp]
theorem withNode_head (list : DList T) (node : Nat) (elem : T) :
    (list.withNode node elem).head = list.head :=
  rfl

@[simp]
theorem withNode_tail (list : DList T) (node : Nat) (elem : T) :
    (list.withNode node elem).tail = list.tail :=
  rfl

@[simp]
theorem withNode_nextOf (list : DList T) (node : Nat) (elem : T) :
    nextOf (list.withNode node elem).nodes =
      Function.update (nextOf list.nodes) node 0 :=
  nextOf_update _ _ _

@[simp]
theorem withNode_prevOf (list : DList T) (node : Nat) (elem : T) :
    prevOf (list.withNode node elem).nodes =
      Function.update (prevOf list.nodes) node 0 :=
  prevOf_update _ _ _

@[simp]
theorem withNode_dataOf (list : DList T) (node : Nat) (elem : T) :
    dataOf (list.withNode node elem).nodes =
      Function.update (dataOf list.nodes) node (some elem) :=
  dataOf_update _ _ _

theorem withNode_stored (list : DList T) (node : Nat) (elem : T) :
    (dataOf (list.withNode node elem).nodes node).isSome = true := by
  rw [withNode_dataOf, Function.update_self]
  rfl

/-- The head of the list is linked behind the new node. -/
theorem Holds.linkFront_spec
    (holds : Holds list entries) (valid : node ≠ 0)
    (fresh : list.nodes node = none) (elem : T) :
    ∃ nodes' head tail,
      (list.withNode node elem).linkFront node =
        some (list.relinked nodes' head tail list.length) ∧
      Holds (list.relinked nodes' head tail (list.length + 1))
        ((node, elem) :: entries) := by
  have stored := withNode_stored list node elem
  rcases writeNext_spec stored list.head with
    ⟨nodes₁, written, nexts, prevs, data⟩
  rw [withNode_nextOf, Function.update_idem] at nexts
  rw [withNode_prevOf] at prevs
  rw [withNode_dataOf] at data
  have whole : Holds list ([] ++ entries) := holds
  have behind : 0 = (([] : List (Nat × T)).map Prod.fst).getLastD 0 := rfl
  unfold DList.linkFront
  rw [withNode_head, written]
  dsimp only
  by_cases empty : list.head = 0
  · rw [if_neg (not_not.mpr empty)]
    refine ⟨nodes₁, node, node, rfl, ?_⟩
    apply whole.link valid fresh behind holds.head_eq
    · rw [if_pos rfl]
      exact nexts
    · rw [if_pos empty]
      exact prevs
    · exact data
    · exact (if_pos rfl).symm
    · exact (if_pos empty).symm
  · have among := holds.head_mem empty
    have different := holds.ne_of_fresh fresh among
    have present := holds.stored_beside fresh data among
    rcases writePrev_spec present node with
      ⟨nodes₂, written₂, nexts₂, prevs₂, data₂⟩
    rw [if_pos empty]
    refine ⟨nodes₂, node, list.tail, ?_, ?_⟩
    · rw [written₂]
      rfl
    · apply whole.link valid fresh behind holds.head_eq
      · rw [if_pos rfl, nexts₂]
        exact nexts
      · rw [if_neg empty, prevs₂, prevs]
        exact Function.update_comm different.symm _ _ _
      · rw [data₂]
        exact data
      · exact (if_pos rfl).symm
      · exact (if_neg empty).symm

/-- Without memory for a node nothing happens. -/
theorem pushFront_refused (valid : ¬ list.layout.Invalid) (elem : T) :
    list.pushFront elem none = some (some .oom, list) :=
  if_neg valid

theorem pushBack_refused (valid : ¬ list.layout.Invalid) (elem : T) :
    list.pushBack elem none = some (some .oom, list) :=
  if_neg valid

theorem insertAfter_refused
    (valid : ¬ list.layout.Invalid) (pos : Nat) (elem : T) :
    list.insertAfter pos elem none = some (some .oom, list) :=
  if_neg valid

theorem insertBefore_refused
    (valid : ¬ list.layout.Invalid) (pos : Nat) (elem : T) :
    list.insertBefore pos elem none = some (some .oom, list) := by
  unfold DList.insertBefore
  by_cases null : pos = 0
  · rw [if_pos null, insertAfter_refused valid]
  · rw [if_neg null, if_neg valid]
    rfl

/-- In front of null is in front of all others. -/
theorem insertBefore_null
    (list : DList T) (elem : T) (grant : Option Nat) :
    list.insertBefore 0 elem grant = list.insertAfter 0 elem grant :=
  rfl

/-! ## Pushes -/

theorem Holds.pushFront_spec
    (holds : Holds list entries) (valid : node ≠ 0)
    (fresh : list.nodes node = none) (elem : T) :
    ∃ nodes' head tail,
      list.pushFront elem (some node) =
        some (none, list.relinked nodes' head tail (list.length + 1)) ∧
      Holds (list.relinked nodes' head tail (list.length + 1))
        ((node, elem) :: entries) := by
  rcases holds.linkFront_spec valid fresh elem with
    ⟨nodes', head, tail, linked, after⟩
  refine ⟨nodes', head, tail, ?_, after⟩
  unfold DList.pushFront
  rw [if_neg holds.layout]
  change ((list.withNode node elem).linkFront node).map _ = _
  rw [linked]
  rfl

theorem Holds.pushBack_spec
    (holds : Holds list entries) (valid : node ≠ 0)
    (fresh : list.nodes node = none) (elem : T) :
    ∃ nodes' head tail,
      list.pushBack elem (some node) =
        some (none, list.relinked nodes' head tail (list.length + 1)) ∧
      Holds (list.relinked nodes' head tail (list.length + 1))
        (entries ++ [(node, elem)]) := by
  have stored := withNode_stored list node elem
  rcases writePrev_spec stored list.tail with
    ⟨nodes₁, written, nexts, prevs, data⟩
  rw [withNode_nextOf] at nexts
  rw [withNode_prevOf, Function.update_idem] at prevs
  rw [withNode_dataOf] at data
  have whole : Holds list (entries ++ []) := by
    rw [List.append_nil]
    exact holds
  have ahead : 0 = (([] : List (Nat × T)).map Prod.fst).headD 0 := rfl
  have call : writePrev (list.withNode node elem).nodes node
      (list.withNode node elem).tail = some nodes₁ := written
  have allocates : list.allocNode elem (some node) =
      (.ok node, list.withNode node elem) := rfl
  unfold DList.pushBack
  rw [if_neg holds.layout, allocates]
  dsimp only
  rw [call, withNode_tail]
  dsimp only
  by_cases empty : list.tail = 0
  · rw [if_neg (not_not.mpr empty)]
    refine ⟨nodes₁, node, node, rfl, ?_⟩
    apply whole.link valid fresh holds.tail_eq ahead
    · rw [if_pos empty]
      exact nexts
    · rw [if_pos rfl]
      exact prevs
    · exact data
    · exact (if_pos empty).symm
    · exact (if_pos rfl).symm
  · have among := holds.tail_mem empty
    have different := holds.ne_of_fresh fresh among
    have present := holds.stored_beside fresh data among
    rcases writeNext_spec present node with
      ⟨nodes₂, written₂, nexts₂, prevs₂, data₂⟩
    rw [if_pos empty, written₂]
    refine ⟨nodes₂, list.head, node, rfl, ?_⟩
    apply whole.link valid fresh holds.tail_eq ahead
    · rw [if_neg empty, nexts₂, nexts]
      exact Function.update_comm different.symm _ _ _
    · rw [if_pos rfl, prevs₂]
      exact prevs
    · rw [data₂]
      exact data
    · exact (if_neg empty).symm
    · exact (if_pos rfl).symm

/-! ## Insertions -/

theorem Holds.pos_ne_zero
    (holds : Holds list (left ++ (pos, elem) :: right)) : pos ≠ 0 :=
  fun none => holds.spells.valid (none ▸ mem_positions left right pos elem)

/-- A node of the list has the links that its place gives it. -/
theorem Holds.content_eq
    (holds : Holds list (left ++ (pos, elem) :: right)) :
    list.nodes pos =
      some ⟨(left.map Prod.fst).getLastD 0, (right.map Prod.fst).headD 0,
        elem⟩ := by
  have among : (pos, elem) ∈ left ++ (pos, elem) :: right :=
    List.mem_append_right _ List.mem_cons_self
  rcases exists_content (holds.data _ among) with ⟨content, found, same⟩
  have spells := holds.spells
  rw [List.map_append, List.map_cons] at spells
  rcases spells.links with ⟨back, forth⟩
  change prevOf list.nodes pos = _ at back
  change nextOf list.nodes pos = _ at forth
  rw [prevOf_of_content found] at back
  rw [nextOf_of_content found] at forth
  change content.data = elem at same
  rw [found, ← back, ← forth, ← same]

/-- Another node than the new one is what it was. -/
theorem withNode_nodes_of_ne (different : pos ≠ node) :
    (list.withNode node elem).nodes pos = list.nodes pos :=
  Function.update_of_ne different _ _

/-- The new node is linked behind a node of the list. -/
theorem Holds.linkAfter_spec {data : T}
    (holds : Holds list (left ++ (pos, data) :: right)) (valid : node ≠ 0)
    (fresh : list.nodes node = none) (elem : T) :
    ∃ nodes' head tail,
      (list.withNode node elem).linkAfter pos node =
        some (list.relinked nodes' head tail list.length) ∧
      Holds (list.relinked nodes' head tail (list.length + 1))
        (left ++ (pos, data) :: (node, elem) :: right) := by
  have posAmong := mem_positions left right pos data
  have posDifferent : pos ≠ node := holds.ne_of_fresh fresh posAmong
  have posValid : pos ≠ 0 := holds.pos_ne_zero
  have whole : Holds list ((left ++ [(pos, data)]) ++ right) := by
    rw [List.append_assoc]
    exact holds
  have behind : pos =
      ((left ++ [(pos, data)]).map Prod.fst).getLastD 0 := by
    rw [List.map_append, List.map_cons, getLastD_append_cons]
    rfl
  have result : left ++ (pos, data) :: (node, elem) :: right =
      (left ++ [(pos, data)]) ++ (node, elem) :: right := by
    rw [List.append_assoc]
    rfl
  rw [result]
  obtain ⟨after, ahead⟩ : ∃ after, after = (right.map Prod.fst).headD 0 :=
    ⟨_, rfl⟩
  have stored := withNode_stored list node elem
  rcases writeNext_spec stored after with
    ⟨nodes₁, written₁, nexts₁, prevs₁, data₁⟩
  rcases writePrev_spec (data₁ ▸ stored) pos with
    ⟨nodes₂, written₂, nexts₂, prevs₂, data₂⟩
  rw [withNode_nextOf, Function.update_idem] at nexts₁
  rw [prevs₁, withNode_prevOf, Function.update_idem] at prevs₂
  rw [nexts₁] at nexts₂
  rw [data₁, withNode_dataOf] at data₂
  unfold DList.linkAfter
  rw [withNode_nodes_of_ne posDifferent, holds.content_eq]
  dsimp only
  rw [← ahead, written₁, Option.bind_some, written₂]
  dsimp only
  by_cases last : after = 0
  · rw [if_neg (not_not.mpr last), Option.bind_some]
    rcases writeNext_spec (holds.stored_beside fresh data₂ posAmong) node with
      ⟨nodes₃, written₃, nexts₃, prevs₃, data₃⟩
    refine ⟨nodes₃, list.head, node, ?_, ?_⟩
    · dsimp only
      rw [written₃]
      rfl
    · apply whole.link valid fresh behind ahead
      · rw [if_neg posValid, nexts₃, nexts₂]
        exact Function.update_comm posDifferent.symm _ _ _
      · rw [if_pos last, prevs₃]
        exact prevs₂
      · rw [data₃]
        exact data₂
      · exact (if_neg posValid).symm
      · exact (if_pos last).symm
  · have afterAmong :
        after ∈ (left ++ (pos, data) :: right).map Prod.fst := by
      rw [ahead] at last ⊢
      rw [List.map_append, List.map_cons]
      refine List.mem_append_right _ (List.mem_cons_of_mem _ ?_)
      exact headD_mem (fun none => last (by rw [none]; rfl)) 0
    have different := holds.ne_of_fresh fresh afterAmong
    have present := holds.stored_beside fresh data₂ afterAmong
    rcases writePrev_spec present node with
      ⟨nodes₃, written₃, nexts₃, prevs₃, data₃⟩
    rw [if_pos last, written₃, Option.map_some, Option.bind_some]
    rcases writeNext_spec
        (holds.stored_beside fresh (data₃.trans data₂) posAmong) node with
      ⟨nodes₄, written₄, nexts₄, prevs₄, data₄⟩
    refine ⟨nodes₄, list.head, list.tail, ?_, ?_⟩
    · dsimp only
      rw [written₄]
      rfl
    · apply whole.link valid fresh behind ahead
      · rw [if_neg posValid, nexts₄, nexts₃, nexts₂]
        exact Function.update_comm posDifferent.symm _ _ _
      · rw [if_neg last, prevs₄, prevs₃, prevs₂]
        exact Function.update_comm different.symm _ _ _
      · rw [data₄, data₃]
        exact data₂
      · exact (if_neg posValid).symm
      · exact (if_neg last).symm

/-- The new node is linked in front of a node of the list. -/
theorem Holds.linkBefore_spec {data : T}
    (holds : Holds list (left ++ (pos, data) :: right)) (valid : node ≠ 0)
    (fresh : list.nodes node = none) (elem : T) :
    ∃ nodes' head tail,
      (list.withNode node elem).linkBefore pos node =
        some (list.relinked nodes' head tail list.length) ∧
      Holds (list.relinked nodes' head tail (list.length + 1))
        (left ++ (node, elem) :: (pos, data) :: right) := by
  have posAmong := mem_positions left right pos data
  have posDifferent : pos ≠ node := holds.ne_of_fresh fresh posAmong
  have posValid : pos ≠ 0 := holds.pos_ne_zero
  have ahead : pos = (((pos, data) :: right).map Prod.fst).headD 0 := rfl
  obtain ⟨before, behind⟩ :
      ∃ before, before = (left.map Prod.fst).getLastD 0 := ⟨_, rfl⟩
  have stored := withNode_stored list node elem
  rcases writePrev_spec stored before with
    ⟨nodes₁, written₁, nexts₁, prevs₁, data₁⟩
  rcases writeNext_spec (data₁ ▸ stored) pos with
    ⟨nodes₂, written₂, nexts₂, prevs₂, data₂⟩
  rw [withNode_prevOf, Function.update_idem] at prevs₁
  rw [nexts₁, withNode_nextOf, Function.update_idem] at nexts₂
  rw [prevs₁] at prevs₂
  rw [data₁, withNode_dataOf] at data₂
  unfold DList.linkBefore
  rw [withNode_nodes_of_ne posDifferent, holds.content_eq]
  dsimp only
  rw [← behind, written₁, Option.bind_some, written₂]
  dsimp only
  by_cases first : before = 0
  · rw [if_neg (not_not.mpr first), Option.bind_some]
    rcases writePrev_spec (holds.stored_beside fresh data₂ posAmong) node with
      ⟨nodes₃, written₃, nexts₃, prevs₃, data₃⟩
    refine ⟨nodes₃, node, list.tail, ?_, ?_⟩
    · dsimp only
      rw [written₃]
      rfl
    · apply holds.link valid fresh behind ahead
      · rw [if_pos first, nexts₃]
        exact nexts₂
      · rw [if_neg posValid, prevs₃, prevs₂]
        exact Function.update_comm posDifferent.symm _ _ _
      · rw [data₃]
        exact data₂
      · exact (if_pos first).symm
      · exact (if_neg posValid).symm
  · have beforeAmong :
        before ∈ (left ++ (pos, data) :: right).map Prod.fst := by
      rw [behind] at first ⊢
      rw [List.map_append]
      refine List.mem_append_left _ ?_
      exact getLastD_mem (fun none => first (by rw [none]; rfl)) 0
    have different := holds.ne_of_fresh fresh beforeAmong
    have present := holds.stored_beside fresh data₂ beforeAmong
    rcases writeNext_spec present node with
      ⟨nodes₃, written₃, nexts₃, prevs₃, data₃⟩
    rw [if_pos first, written₃, Option.map_some, Option.bind_some]
    rcases writePrev_spec
        (holds.stored_beside fresh (data₃.trans data₂) posAmong) node with
      ⟨nodes₄, written₄, nexts₄, prevs₄, data₄⟩
    refine ⟨nodes₄, list.head, list.tail, ?_, ?_⟩
    · dsimp only
      rw [written₄]
      rfl
    · apply holds.link valid fresh behind ahead
      · rw [if_neg first, nexts₄, nexts₃, nexts₂]
        exact Function.update_comm different.symm _ _ _
      · rw [if_neg posValid, prevs₄, prevs₃, prevs₂]
        exact Function.update_comm posDifferent.symm _ _ _
      · rw [data₄, data₃]
        exact data₂
      · exact (if_neg first).symm
      · exact (if_neg posValid).symm

/-- At the null position an element is inserted in front of all others. -/
theorem Holds.insertAfter_null_spec
    (holds : Holds list entries) (valid : node ≠ 0)
    (fresh : list.nodes node = none) (elem : T) :
    ∃ nodes' head tail,
      list.insertAfter 0 elem (some node) =
        some (none, list.relinked nodes' head tail (list.length + 1)) ∧
      Holds (list.relinked nodes' head tail (list.length + 1))
        ((node, elem) :: entries) := by
  rcases holds.linkFront_spec valid fresh elem with
    ⟨nodes', head, tail, linked, after⟩
  refine ⟨nodes', head, tail, ?_, after⟩
  unfold DList.insertAfter
  rw [if_neg holds.layout]
  change ((list.withNode node elem).linkFront node).map _ = _
  rw [linked]
  rfl

theorem Holds.insertAfter_spec {data : T}
    (holds : Holds list (left ++ (pos, data) :: right)) (valid : node ≠ 0)
    (fresh : list.nodes node = none) (elem : T) :
    ∃ nodes' head tail,
      list.insertAfter pos elem (some node) =
        some (none, list.relinked nodes' head tail (list.length + 1)) ∧
      Holds (list.relinked nodes' head tail (list.length + 1))
        (left ++ (pos, data) :: (node, elem) :: right) := by
  rcases holds.linkAfter_spec valid fresh elem with
    ⟨nodes', head, tail, linked, after⟩
  refine ⟨nodes', head, tail, ?_, after⟩
  unfold DList.insertAfter
  rw [if_neg holds.layout]
  dsimp only [DList.allocNode]
  rw [if_neg holds.pos_ne_zero]
  change ((list.withNode node elem).linkAfter pos node).map _ = _
  rw [linked]
  rfl

theorem Holds.insertBefore_spec {data : T}
    (holds : Holds list (left ++ (pos, data) :: right)) (valid : node ≠ 0)
    (fresh : list.nodes node = none) (elem : T) :
    ∃ nodes' head tail,
      list.insertBefore pos elem (some node) =
        some (none, list.relinked nodes' head tail (list.length + 1)) ∧
      Holds (list.relinked nodes' head tail (list.length + 1))
        (left ++ (node, elem) :: (pos, data) :: right) := by
  rcases holds.linkBefore_spec valid fresh elem with
    ⟨nodes', head, tail, linked, after⟩
  refine ⟨nodes', head, tail, ?_, after⟩
  unfold DList.insertBefore
  rw [if_neg holds.pos_ne_zero, if_neg holds.layout]
  change ((list.withNode node elem).linkBefore pos node).map _ = _
  rw [linked]
  rfl

/-! ## Pops -/

/-- Freeing a node leaves the others as they are. -/
theorem nodes_free_of_ne (nodes : Nodes T) (different : pos ≠ node) :
    (Function.update nodes node none : Nodes T) pos = nodes pos :=
  Function.update_of_ne different _ _

theorem nextOf_free_of_ne (nodes : Nodes T) (different : pos ≠ node) :
    nextOf (Function.update nodes node none : Nodes T) pos =
      nextOf nodes pos := by
  unfold nextOf
  rw [nodes_free_of_ne nodes different]

theorem prevOf_free_of_ne (nodes : Nodes T) (different : pos ≠ node) :
    prevOf (Function.update nodes node none : Nodes T) pos =
      prevOf nodes pos := by
  unfold prevOf
  rw [nodes_free_of_ne nodes different]

theorem dataOf_free_of_ne (nodes : Nodes T) (different : pos ≠ node) :
    dataOf (Function.update nodes node none : Nodes T) pos =
      dataOf nodes pos := by
  unfold dataOf
  rw [nodes_free_of_ne nodes different]

/-- A node is freed, and the destructor was run on its element. -/
theorem DList.dispose_eq
    (list : DList T) (stored : dataOf list.nodes node = some elem) :
    list.dispose node =
      some { list with
        nodes := Function.update list.nodes node none
        destroyed :=
          if list.destructor = true then elem :: list.destroyed
          else list.destroyed } := by
  rcases exists_content stored with ⟨content, found, rfl⟩
  unfold DList.dispose
  rw [found]
  rfl

theorem popFront_empty (holds : Holds list []) :
    list.popFront = some (.error .empty, list) := by
  have none : list.length = 0 := holds.length
  unfold DList.popFront
  rw [if_neg holds.layout, if_pos none]

theorem popBack_empty (holds : Holds list []) :
    list.popBack = some (.error .empty, list) := by
  have none : list.length = 0 := holds.length
  unfold DList.popBack
  rw [if_neg holds.layout, if_pos none]

theorem Holds.popFront_spec
    (holds : Holds list ((node, elem) :: entries)) :
    ∃ nodes' head tail,
      list.popFront = some (.ok elem, list.popped nodes' head tail elem) ∧
      Holds (list.popped nodes' head tail elem) entries := by
  have whole : Holds list ([] ++ (node, elem) :: entries) := holds
  have different := whole.others_ne
  have headEq : list.head = node := holds.head_eq
  have tailEq : list.tail = (entries.map Prod.fst).getLastD node := by
    rw [holds.tail_eq, List.map_cons, List.getLastD_cons]
  have filled : ¬ list.length = 0 := by
    rw [holds.length]
    exact Nat.succ_ne_zero _
  obtain ⟨after, ahead⟩ :
      ∃ after, after = (entries.map Prod.fst).headD 0 := ⟨_, rfl⟩
  have stored : dataOf list.nodes node = some elem :=
    holds.data _ List.mem_cons_self
  unfold DList.popFront
  rw [if_neg holds.layout, if_neg filled, headEq, whole.content_eq]
  dsimp only
  rw [← ahead]
  by_cases single : after = 0
  · have none : entries = [] := by
      rw [single] at ahead
      have valid : 0 ∉ entries.map Prod.fst := fun member =>
        holds.spells.valid (List.mem_cons_of_mem _ member)
      exact List.map_eq_nil_iff.mp ((headD_eq_null_iff valid).mp ahead.symm)
    subst none
    rw [if_neg (not_not.mpr single)]
    dsimp only
    rw [DList.dispose_eq
      { list with head := after, tail := 0, length := list.length - 1 }
      stored]
    refine ⟨Function.update list.nodes node none, after, 0, rfl, ?_⟩
    apply whole.cut
    · exact fun _ member => absurd member List.not_mem_nil
    · exact fun _ member => absurd member List.not_mem_nil
    · exact fun nonempty => absurd rfl nonempty
    · exact fun nonempty => absurd rfl nonempty
    · exact fun _ member => absurd member List.not_mem_nil
    · exact single
    · rfl
  · have afterAmong : after ∈ entries.map Prod.fst := by
      rw [ahead] at single ⊢
      exact headD_mem (fun none => single (by rw [none]; rfl)) 0
    rcases writePrev_spec (holds.stored (List.mem_cons_of_mem _ afterAmong))
        0 with ⟨nodes₁, written, nexts, prevs, data⟩
    rw [if_pos single, written]
    dsimp only [Option.map_some]
    rw [DList.dispose_eq
      { list with
        nodes := nodes₁, head := after, length := list.length - 1 }
      ((congrFun data node).trans stored)]
    refine ⟨Function.update nodes₁ node none, after, list.tail, rfl, ?_⟩
    apply whole.cut
    · intro other member _
      rw [nextOf_free_of_ne _ (different other member), nexts]
    · intro other member notFirst
      rw [← ahead] at notFirst
      rw [prevOf_free_of_ne _ (different other member), prevs,
        Function.update_of_ne notFirst]
    · exact fun nonempty => absurd rfl nonempty
    · intro _
      rw [← ahead, prevOf_free_of_ne _ (different after afterAmong), prevs,
        Function.update_self]
      rfl
    · intro other member
      rw [dataOf_free_of_ne _ (different other member), data]
    · exact ahead
    · rw [tailEq]
      cases entries with
      | nil => exact absurd afterAmong List.not_mem_nil
      | cons first rest =>
          rw [List.nil_append, List.map_cons, List.getLastD_cons,
            List.getLastD_cons]

theorem Holds.popBack_spec
    (holds : Holds list (entries ++ [(node, elem)])) :
    ∃ nodes' head tail,
      list.popBack = some (.ok elem, list.popped nodes' head tail elem) ∧
      Holds (list.popped nodes' head tail elem) entries := by
  have different := holds.others_ne
  rw [List.append_nil] at different
  have headEq : list.head = (entries.map Prod.fst).headD node := by
    rw [holds.head_eq, List.map_append, headD_append]
    rfl
  have tailEq : list.tail = node := by
    rw [holds.tail_eq, List.map_append, List.map_cons, getLastD_append_cons]
    rfl
  have filled : ¬ list.length = 0 := by
    rw [holds.length, List.length_append]
    exact Nat.succ_ne_zero _
  obtain ⟨before, behind⟩ :
      ∃ before, before = (entries.map Prod.fst).getLastD 0 := ⟨_, rfl⟩
  have stored : dataOf list.nodes node = some elem :=
    holds.data _ (List.mem_append_right _ List.mem_cons_self)
  have old {other : Nat} (member : other ∈ entries.map Prod.fst) :
      other ∈ (entries ++ [(node, elem)]).map Prod.fst := by
    rw [List.map_append]
    exact List.mem_append_left _ member
  have result {list : DList T} (holds : Holds list (entries ++ [])) :
      Holds list entries := by
    rw [List.append_nil] at holds
    exact holds
  unfold DList.popBack
  rw [if_neg holds.layout, if_neg filled, tailEq, holds.content_eq]
  dsimp only
  rw [← behind]
  by_cases single : before = 0
  · have none : entries = [] := by
      rw [single] at behind
      have valid : 0 ∉ entries.map Prod.fst := fun member =>
        holds.spells.valid (old member)
      exact List.map_eq_nil_iff.mp
        ((getLastD_eq_null_iff valid).mp behind.symm)
    subst none
    rw [if_neg (not_not.mpr single)]
    dsimp only
    rw [DList.dispose_eq
      { list with head := 0, tail := before, length := list.length - 1 }
      stored]
    refine ⟨Function.update list.nodes node none, 0, before, rfl, ?_⟩
    apply result
    apply holds.cut
    · exact fun _ member => absurd member List.not_mem_nil
    · exact fun _ member => absurd member List.not_mem_nil
    · exact fun nonempty => absurd rfl nonempty
    · exact fun nonempty => absurd rfl nonempty
    · exact fun _ member => absurd member List.not_mem_nil
    · rfl
    · exact single
  · have beforeAmong : before ∈ entries.map Prod.fst := by
      rw [behind] at single ⊢
      exact getLastD_mem (fun none => single (by rw [none]; rfl)) 0
    rcases writeNext_spec (holds.stored (old beforeAmong)) 0 with
      ⟨nodes₁, written, nexts, prevs, data⟩
    rw [if_pos single, written]
    dsimp only [Option.map_some]
    rw [DList.dispose_eq
      { list with
        nodes := nodes₁, tail := before, length := list.length - 1 }
      ((congrFun data node).trans stored)]
    refine ⟨Function.update nodes₁ node none, list.head, before, rfl, ?_⟩
    apply result
    apply holds.cut
    · intro other member notLast
      rw [List.append_nil] at member
      rw [← behind] at notLast
      rw [nextOf_free_of_ne _ (different other member), nexts,
        Function.update_of_ne notLast]
    · intro other member _
      rw [List.append_nil] at member
      rw [prevOf_free_of_ne _ (different other member), prevs]
    · intro _
      rw [← behind, nextOf_free_of_ne _ (different before beforeAmong), nexts,
        Function.update_self]
      rfl
    · exact fun nonempty => absurd rfl nonempty
    · intro other member
      rw [List.append_nil] at member
      rw [dataOf_free_of_ne _ (different other member), data]
    · rw [headEq, List.append_nil]
      cases entries with
      | nil => exact absurd beforeAmong List.not_mem_nil
      | cons first rest => rfl
    · rw [List.append_nil]
      exact behind

/-! ## Destruction -/

/--
The loop runs the destructor on every element in order and frees the nodes.
-/
theorem Holds.destroyLoop_spec
    (holds : Holds list entries) {turns : Nat}
    (enough : entries.length ≤ turns) :
    ∃ after, list.destroyLoop turns list.head = some after ∧
      after.layout = list.layout ∧ after.destructor = list.destructor ∧
      after.destroyed =
        (if list.destructor = true then
          (entries.map Prod.snd).reverse ++ list.destroyed
        else list.destroyed) ∧
      (∀ node ∈ entries.map Prod.fst, after.nodes node = none) ∧
      ∀ node, list.nodes node = none → after.nodes node = none := by
  have general : ∀ (entries : List (Nat × T)) (list : DList T)
      (before turns : Nat),
      Segment (nextOf list.nodes) (prevOf list.nodes) before
        (entries.map Prod.fst) 0 →
      0 ∉ entries.map Prod.fst →
      (entries.map Prod.fst).Nodup →
      (∀ entry ∈ entries, dataOf list.nodes entry.1 = some entry.2) →
      entries.length ≤ turns →
      ∃ after,
        list.destroyLoop turns ((entries.map Prod.fst).headD 0) =
          some after ∧
        after.layout = list.layout ∧ after.destructor = list.destructor ∧
        after.destroyed =
          (if list.destructor = true then
            (entries.map Prod.snd).reverse ++ list.destroyed
          else list.destroyed) ∧
        (∀ node ∈ entries.map Prod.fst, after.nodes node = none) ∧
        ∀ node, list.nodes node = none → after.nodes node = none := by
    intro entries
    induction entries with
    | nil =>
        intro list before turns _ _ _ _ _
        refine ⟨list, ?_, rfl, rfl, ?_, ?_, fun _ free => free⟩
        · cases turns with
          | zero => rfl
          | succ turns => exact if_pos rfl
        · split <;> rfl
        · exact fun _ member => absurd member List.not_mem_nil
    | cons entry rest hypothesis =>
        intro list before turns segment valid nodup data enough
        rcases entry with ⟨node, elem⟩
        rcases segment with ⟨_, forth, segment⟩
        rcases turns with _ | turns
        · cases enough
        rw [List.map_cons, List.mem_cons, not_or] at valid
        rw [List.map_cons, List.nodup_cons] at nodup
        have stored : dataOf list.nodes node = some elem :=
          data _ List.mem_cons_self
        have different : ∀ other ∈ rest.map Prod.fst, other ≠ node := by
          rintro other member rfl
          exact nodup.1 member
        rcases exists_content stored with ⟨content, found, _⟩
        have following : content.next = (rest.map Prod.fst).headD 0 := by
          rw [← nextOf_of_content found]
          exact forth
        rcases hypothesis
            { list with
              nodes := Function.update list.nodes node none
              destroyed :=
                if list.destructor = true then elem :: list.destroyed
                else list.destroyed }
            node turns
            (segment.congr
              (fun other member => nextOf_free_of_ne _ (different other member))
              (fun other member =>
                prevOf_free_of_ne _ (different other member)))
            valid.2 nodup.2
            (fun other member => by
              refine (dataOf_free_of_ne _
                (different _ (List.mem_map_of_mem member))).trans ?_
              exact data other (List.mem_cons_of_mem _ member))
            (Nat.le_of_succ_le_succ enough) with
          ⟨after, run, layout, destructor, destroyed, freed, untouched⟩
        refine ⟨after, ?_, layout, destructor, ?_, ?_, ?_⟩
        · rw [List.map_cons, List.headD_cons, DList.destroyLoop,
            if_neg (Ne.symm valid.1), found]
          dsimp only
          rw [list.dispose_eq stored, following]
          exact run
        · rw [destroyed]
          dsimp only
          split
          · rw [List.map_cons, List.reverse_cons, List.append_assoc]
            rfl
          · rfl
        · intro other member
          rw [List.map_cons, List.mem_cons] at member
          rcases member with rfl | member
          · exact untouched _ (Function.update_self _ _ _)
          · exact freed other member
        · intro other free
          apply untouched
          by_cases same : other = node
          · rw [same]
            exact Function.update_self _ _ _
          · exact (nodes_free_of_ne _ same).trans free
  rw [holds.head_eq]
  exact general entries list 0 turns holds.spells.segment
    holds.spells.valid holds.spells.nodup holds.data enough

/-- `cu_DList_destroy` leaves the empty list. -/
theorem Holds.destroy_spec (holds : Holds list entries) :
    ∃ after, list.destroy = some after ∧ Holds after [] ∧
      after.destructor = list.destructor ∧
      after.destroyed =
        (if list.destructor = true then
          (entries.map Prod.snd).reverse ++ list.destroyed
        else list.destroyed) ∧
      ∀ node ∈ entries.map Prod.fst, after.nodes node = none := by
  rcases holds.destroyLoop_spec (Nat.le_of_eq holds.length.symm) with
    ⟨after, run, layout, destructor, destroyed, freed, _⟩
  refine ⟨{ after with head := 0, tail := 0, length := 0 }, ?_, ?_,
    destructor, destroyed, freed⟩
  · unfold DList.destroy
    rw [run]
    rfl
  · refine ⟨?_, .nil rfl rfl, fun _ member => absurd member List.not_mem_nil,
      rfl⟩
    change ¬ after.layout.Invalid
    rw [layout]
    exact holds.layout

/-! ## Iteration -/

/-- The iterator leads from every node to the next one. -/
theorem Holds.iter_spec (holds : Holds list (left ++ right)) :
    list.iter ((left.map Prod.fst).getLastD 0) = some right.head? := by
  have following :
      (if (left.map Prod.fst).getLastD 0 ≠ 0 then
        (list.nodes ((left.map Prod.fst).getLastD 0)).map Node.next
      else some list.head) = some ((right.map Prod.fst).headD 0) := by
    rcases List.eq_nil_or_concat' left with
      rfl | ⟨front, ⟨prev, prevData⟩, rfl⟩
    · exact (if_neg (not_not.mpr rfl)).trans (congrArg some holds.head_eq)
    · have whole : Holds list (front ++ (prev, prevData) :: right) := by
        rw [List.append_assoc] at holds
        exact holds
      rw [List.map_append, List.map_cons, getLastD_append_cons]
      change (if prev ≠ 0 then (list.nodes prev).map Node.next else _) = _
      rw [if_pos whole.pos_ne_zero, whole.content_eq]
      rfl
  unfold DList.iter
  rw [if_neg holds.layout]
  dsimp only
  rw [following, Option.bind_some]
  cases right with
  | nil => exact if_pos rfl
  | cons entry rest =>
      rcases entry with ⟨node, elem⟩
      change (if node = 0 then _ else
        (list.nodes node).map fun content => some (node, content.data)) = _
      rw [if_neg holds.pos_ne_zero, holds.content_eq]
      rfl

/-- Iteration yields the elements in order. -/
theorem Holds.iterate_spec (holds : Holds list entries) :
    list.iterate = some (entries.map Prod.snd) := by
  unfold DList.iterate
  rw [holds.length]
  apply elements_eq
  rintro left right rfl
  exact holds.iter_spec

end Libcute.Collection.DoublyLinked
