import Mathlib.Data.List.Nodup
import Mathlib.Logic.Function.Basic

/-!
# Doubly linked lists

Nodes are linked by two functions, `next` and `prev`, with a null node at
both ends.  A `Chain` adds the pointers to the first and the last node, and
`Spells` says that it is well formed and which nodes it runs through.

The operations are the pointer assignments of the usual code: append a node,
put one in front, take one out.  Each is right for `Spells`, and a search
that follows `next` from the first node sees the nodes in their order.
-/

namespace Libcute.Library.LinkedList

variable {Node : Type}

/-- Consecutive nodes point at each other. -/
def Segment (next prev : Node → Node) :
    (before : Node) → List Node → (after : Node) → Prop
  | _, [], _ => True
  | before, node :: rest, after =>
      prev node = before ∧ next node = rest.headD after ∧
        Segment next prev node rest after

section Ends

variable {null : Node} {nodes : List Node}

theorem getLastD_mem (nonempty : nodes ≠ []) (null : Node) :
    nodes.getLastD null ∈ nodes := by
  cases nodes with
  | nil => exact (nonempty rfl).elim
  | cons first rest =>
      rw [List.getLastD_cons]
      exact List.getLastD_mem_cons

theorem headD_mem (nonempty : nodes ≠ []) (null : Node) :
    nodes.headD null ∈ nodes := by
  cases nodes with
  | nil => exact (nonempty rfl).elim
  | cons first rest => exact List.mem_cons_self

theorem getLastD_eq_null_iff (valid : null ∉ nodes) :
    nodes.getLastD null = null ↔ nodes = [] := by
  constructor
  · intro none
    by_contra nonempty
    exact valid (none ▸ getLastD_mem nonempty null)
  · rintro rfl
    rfl

theorem headD_eq_null_iff (valid : null ∉ nodes) :
    nodes.headD null = null ↔ nodes = [] := by
  constructor
  · intro none
    by_contra nonempty
    exact valid (none ▸ headD_mem nonempty null)
  · rintro rfl
    rfl

end Ends

section Segment

variable {next prev next' prev' : Node → Node}
  {before before' after after' : Node} {nodes left right : List Node}

theorem headD_append (left right : List Node) (after : Node) :
    (left ++ right).headD after = left.headD (right.headD after) := by
  cases left <;> rfl

theorem getLastD_append_cons
    (left : List Node) (node : Node) (right : List Node) (before : Node) :
    (left ++ node :: right).getLastD before = right.getLastD node := by
  induction left generalizing before with
  | nil => exact List.getLastD_cons
  | cons first rest hypothesis =>
      rw [List.cons_append, List.getLastD_cons, hypothesis]

theorem segment_append :
    Segment next prev before (left ++ right) after ↔
      Segment next prev before left (right.headD after) ∧
        Segment next prev (left.getLastD before) right after := by
  induction left generalizing before with
  | nil => simp [Segment]
  | cons node rest hypothesis =>
      simp only [List.cons_append, Segment, headD_append, hypothesis,
        List.getLastD_cons]
      tauto

/-- A segment only reads the links of its nodes. -/
theorem Segment.congr
    (segment : Segment next prev before nodes after)
    (nexts : ∀ node ∈ nodes, next' node = next node)
    (prevs : ∀ node ∈ nodes, prev' node = prev node) :
    Segment next' prev' before nodes after := by
  induction nodes generalizing before with
  | nil => trivial
  | cons node rest hypothesis =>
      rcases segment with ⟨back, forth, tail⟩
      refine ⟨?_, ?_, ?_⟩
      · rw [prevs node List.mem_cons_self]
        exact back
      · rw [nexts node List.mem_cons_self]
        exact forth
      · exact hypothesis tail
          (fun other member => nexts other (List.mem_cons_of_mem _ member))
          (fun other member => prevs other (List.mem_cons_of_mem _ member))

/-- The last node may be linked to another successor. -/
theorem Segment.changeAfter
    (segment : Segment next prev before nodes after)
    (nodup : nodes.Nodup)
    (prevs : ∀ node ∈ nodes, prev' node = prev node)
    (nexts : ∀ node ∈ nodes, node ≠ nodes.getLastD before →
      next' node = next node)
    (last : nodes ≠ [] → next' (nodes.getLastD before) = after') :
    Segment next' prev' before nodes after' := by
  induction nodes generalizing before with
  | nil => trivial
  | cons node rest hypothesis =>
      rcases segment with ⟨back, forth, tail⟩
      rw [List.getLastD_cons] at nexts last
      have fresh := (List.nodup_cons.mp nodup).1
      refine ⟨?_, ?_, ?_⟩
      · rw [prevs node List.mem_cons_self]
        exact back
      · cases rest with
        | nil => exact last (List.cons_ne_nil _ _)
        | cons second others =>
            have different : node ≠ (second :: others).getLastD node := by
              rw [List.getLastD_cons]
              intro same
              apply fresh
              rw [same]
              exact List.getLastD_mem_cons
            rw [nexts node List.mem_cons_self different]
            exact forth
      · apply hypothesis tail (List.nodup_cons.mp nodup).2
        · exact fun other member =>
            prevs other (List.mem_cons_of_mem _ member)
        · exact fun other member =>
            nexts other (List.mem_cons_of_mem _ member)
        · intro nonempty
          exact last (List.cons_ne_nil _ _)

/-- The first node may be linked to another predecessor. -/
theorem Segment.changeBefore
    (segment : Segment next prev before nodes after)
    (nodup : nodes.Nodup)
    (nexts : ∀ node ∈ nodes, next' node = next node)
    (prevs : ∀ node ∈ nodes, node ≠ nodes.headD after →
      prev' node = prev node)
    (first : nodes ≠ [] → prev' (nodes.headD after) = before') :
    Segment next' prev' before' nodes after := by
  cases nodes with
  | nil => trivial
  | cons node rest =>
      rcases segment with ⟨back, forth, tail⟩
      refine ⟨first (List.cons_ne_nil _ _), ?_, ?_⟩
      · rw [nexts node List.mem_cons_self]
        exact forth
      · apply tail.congr
        · exact fun other member =>
            nexts other (List.mem_cons_of_mem _ member)
        · intro other member
          apply prevs other (List.mem_cons_of_mem _ member)
          rintro rfl
          exact (List.nodup_cons.mp nodup).1 member

/--
Two segments are linked anew where they meet: the successor of the last node
on the left and the predecessor of the first one on the right.
-/
theorem Segment.relink
    {null : Node}
    (leftSegment : Segment next prev null left after)
    (rightSegment : Segment next prev before right null)
    (leftNodup : left.Nodup) (rightNodup : right.Nodup)
    (validLeft : null ∉ left) (validRight : null ∉ right)
    (apart : ∀ old ∈ left, ∀ other ∈ right, old ≠ other)
    (nexts : ∀ other ∈ left ++ right, other ≠ left.getLastD null →
      next' other = next other)
    (prevs : ∀ other ∈ left ++ right, other ≠ right.headD null →
      prev' other = prev other)
    (last : left ≠ [] → next' (left.getLastD null) = after')
    (first : right ≠ [] → prev' (right.headD null) = before') :
    Segment next' prev' null left after' ∧
      Segment next' prev' before' right null := by
  constructor
  · apply leftSegment.changeAfter leftNodup
    · intro old member
      refine prevs old (List.mem_append_left _ member) ?_
      rintro rfl
      by_cases empty : right = []
      · subst empty
        exact validLeft member
      · exact apart _ member _ (headD_mem empty null) rfl
    · exact fun old member =>
        nexts old (List.mem_append_left _ member)
    · exact last
  · apply rightSegment.changeBefore rightNodup
    · intro old member
      refine nexts old (List.mem_append_right _ member) ?_
      rintro rfl
      by_cases empty : left = []
      · subst empty
        exact validRight member
      · exact apart _ (getLastD_mem empty null) _ member rfl
    · exact fun old member =>
        prevs old (List.mem_append_right _ member)
    · exact first

theorem getLastD_reverse (nodes : List Node) (before : Node) :
    nodes.reverse.getLastD before = nodes.headD before := by
  cases nodes with
  | nil => rfl
  | cons first rest =>
      rw [List.reverse_cons, getLastD_append_cons]
      rfl

/-- Seen from the other end the links change their roles. -/
theorem Segment.reverse
    (segment : Segment next prev before nodes after) :
    Segment prev next after nodes.reverse before := by
  induction nodes generalizing before with
  | nil => trivial
  | cons node rest hypothesis =>
      rcases segment with ⟨back, forth, tail⟩
      rw [List.reverse_cons, segment_append, getLastD_reverse]
      exact ⟨hypothesis tail, forth, back, trivial⟩

end Segment

/-- The links of a list with the pointers to its ends. -/
structure Chain (Node : Type) where
  next : Node → Node
  prev : Node → Node
  head : Node
  tail : Node

/-- The chain is well formed and runs through the nodes in this order. -/
structure Chain.Spells (null : Node) (chain : Chain Node)
    (nodes : List Node) : Prop where
  nodup : nodes.Nodup
  valid : null ∉ nodes
  head : chain.head = nodes.headD null
  tail : chain.tail = nodes.getLastD null
  segment : Segment chain.next chain.prev null nodes null

section Operations

variable [DecidableEq Node]

/-- Put a node between two nodes, or at an end where there is none. -/
def Chain.link (null : Node) (chain : Chain Node)
    (before node after : Node) : Chain Node where
  next :=
    Function.update
      (if before = null then chain.next
        else Function.update chain.next before node) node after
  prev :=
    Function.update
      (if after = null then chain.prev
        else Function.update chain.prev after node) node before
  head := if before = null then node else chain.head
  tail := if after = null then node else chain.tail

/-- Append a node. -/
def Chain.pushBack (null : Node) (chain : Chain Node) (node : Node) :
    Chain Node where
  next :=
    if chain.tail = null then
      Function.update chain.next node null
    else
      Function.update (Function.update chain.next node null)
        chain.tail node
  prev := Function.update chain.prev node chain.tail
  head := if chain.tail = null then node else chain.head
  tail := node

/-- Put a node in front. -/
def Chain.pushFront (null : Node) (chain : Chain Node) (node : Node) :
    Chain Node where
  next := Function.update chain.next node chain.head
  prev :=
    if chain.head = null then
      Function.update chain.prev node null
    else
      Function.update (Function.update chain.prev node null)
        chain.head node
  head := node
  tail := if chain.head = null then node else chain.tail

/-- Take a node out. -/
def Chain.unlink (null : Node) (chain : Chain Node) (node : Node) :
    Chain Node where
  next :=
    if chain.prev node = null then
      chain.next
    else
      Function.update chain.next (chain.prev node) (chain.next node)
  prev :=
    if chain.next node = null then
      chain.prev
    else
      Function.update chain.prev (chain.next node) (chain.prev node)
  head :=
    if chain.prev node = null then chain.next node else chain.head
  tail :=
    if chain.next node = null then chain.prev node else chain.tail

end Operations

/-- The first node on the way along `next` that passes the test. -/
def search (null : Node) (next : Node → Node) (test : Node → Bool)
    [DecidableEq Node] : (fuel : Nat) → Node → Option Node
  | 0, _ => none
  | fuel + 1, node =>
      if node = null then
        none
      else if test node then
        some node
      else
        search null next test fuel (next node)

/-- The nodes on the way along links, until the null node. -/
def follow (null : Node) (link : Node → Node) [DecidableEq Node] :
    (fuel : Nat) → Node → List Node
  | 0, _ => []
  | fuel + 1, node =>
      if node = null then [] else node :: follow null link fuel (link node)

/-- Nodes that are linked forwards: back links could be added. -/
def Forward (null : Node) (next : Node → Node) (head : Node)
    (nodes : List Node) : Prop :=
  ∃ prev tail, (⟨next, prev, head, tail⟩ : Chain Node).Spells null nodes

namespace Chain.Spells

variable {null : Node} {chain chain' : Chain Node} {nodes : List Node}
  {node : Node}

theorem nil {chain : Chain Node} (head : chain.head = null)
    (tail : chain.tail = null) : chain.Spells null [] where
  nodup := List.nodup_nil
  valid := List.not_mem_nil
  head := head
  tail := tail
  segment := trivial

/-- Links outside the list do not matter. -/
theorem congr
    (spells : chain.Spells null nodes)
    (head : chain'.head = chain.head) (tail : chain'.tail = chain.tail)
    (nexts : ∀ node ∈ nodes, chain'.next node = chain.next node)
    (prevs : ∀ node ∈ nodes, chain'.prev node = chain.prev node) :
    chain'.Spells null nodes where
  nodup := spells.nodup
  valid := spells.valid
  head := head.trans spells.head
  tail := tail.trans spells.tail
  segment := spells.segment.congr nexts prevs

theorem head_eq_null_iff (spells : chain.Spells null nodes) :
    chain.head = null ↔ nodes = [] := by
  rw [spells.head]
  exact headD_eq_null_iff spells.valid

theorem tail_eq_null_iff (spells : chain.Spells null nodes) :
    chain.tail = null ↔ nodes = [] := by
  rw [spells.tail]
  exact getLastD_eq_null_iff spells.valid

/-- The links of a node lead to its neighbours. -/
theorem links {left right : List Node}
    (spells : chain.Spells null (left ++ node :: right)) :
    chain.prev node = left.getLastD null ∧
      chain.next node = right.headD null := by
  have segment := segment_append.mp spells.segment
  exact ⟨segment.2.1, segment.2.2.1⟩

/-- The links of a node lead to nodes of the list, where there are any. -/
theorem neighbours (spells : chain.Spells null nodes)
    (member : node ∈ nodes) :
    (chain.prev node ≠ null → chain.prev node ∈ nodes) ∧
      (chain.next node ≠ null → chain.next node ∈ nodes) := by
  rcases List.append_of_mem member with ⟨left, right, rfl⟩
  rcases spells.links with ⟨back, forth⟩
  rw [back, forth]
  constructor
  · intro nonnull
    apply List.mem_append_left
    apply getLastD_mem
    rintro rfl
    exact nonnull rfl
  · intro nonnull
    apply List.mem_append_right
    apply List.mem_cons_of_mem
    apply headD_mem
    rintro rfl
    exact nonnull rfl

/-- The only node of a list is the first and has no successor. -/
theorem eq_singleton_iff
    (spells : chain.Spells null nodes) (member : node ∈ nodes) :
    chain.head = node ∧ chain.next node = null ↔ nodes = [node] := by
  rw [spells.head]
  constructor
  · rintro ⟨first, last⟩
    cases nodes with
    | nil => cases member
    | cons start rest =>
        simp only [List.headD_cons] at first
        subst first
        have forth := spells.segment.2.1
        rw [last] at forth
        cases rest with
        | nil => rfl
        | cons second others =>
            simp only [List.headD_cons] at forth
            exfalso
            apply spells.valid
            rw [forth]
            exact List.mem_cons_of_mem _ List.mem_cons_self
  · rintro rfl
    exact ⟨rfl, spells.segment.2.1⟩

/--
Put a node between two parts of a list: the links of the new node, the two
links that lead to it, and the ends.
-/
theorem splice {left right : List Node}
    (spells : chain.Spells null (left ++ right))
    (fresh : node ∉ left ++ right) (valid : node ≠ null)
    (nexts : ∀ other ∈ left ++ right, other ≠ left.getLastD null →
      chain'.next other = chain.next other)
    (prevs : ∀ other ∈ left ++ right, other ≠ right.headD null →
      chain'.prev other = chain.prev other)
    (last : left ≠ [] → chain'.next (left.getLastD null) = node)
    (first : right ≠ [] → chain'.prev (right.headD null) = node)
    (back : chain'.prev node = left.getLastD null)
    (forth : chain'.next node = right.headD null)
    (head : chain'.head = left.headD node)
    (tail : chain'.tail = right.getLastD node) :
    chain'.Spells null (left ++ node :: right) := by
  have nodup := spells.nodup
  rw [List.nodup_append] at nodup
  rcases nodup with ⟨leftNodup, rightNodup, apart⟩
  have nonnull := spells.valid
  rw [List.mem_append, not_or] at nonnull
  rw [List.mem_append, not_or] at fresh
  rcases segment_append.mp spells.segment with
    ⟨leftSegment, rightSegment⟩
  constructor
  · rw [List.nodup_append]
    refine ⟨leftNodup, List.nodup_cons.mpr ⟨fresh.2, rightNodup⟩, ?_⟩
    intro old member other otherMember
    rcases List.mem_cons.mp otherMember with rfl | otherMember
    · rintro rfl
      exact fresh.1 member
    · exact apart old member other otherMember
  · rw [List.mem_append, List.mem_cons]
    rintro (member | same | member)
    · exact nonnull.1 member
    · exact valid same.symm
    · exact nonnull.2 member
  · rw [head, headD_append, List.headD_cons]
  · rw [tail, getLastD_append_cons]
  · rw [segment_append]
    rcases leftSegment.relink rightSegment leftNodup rightNodup nonnull.1
      nonnull.2 apart nexts prevs last first with ⟨before, behind⟩
    exact ⟨before, back, forth, behind⟩

/-- Take a node out: the two links that led to it, and the ends. -/
theorem cut {left right : List Node}
    (spells : chain.Spells null (left ++ node :: right))
    (nexts : ∀ other ∈ left ++ right, other ≠ left.getLastD null →
      chain'.next other = chain.next other)
    (prevs : ∀ other ∈ left ++ right, other ≠ right.headD null →
      chain'.prev other = chain.prev other)
    (last : left ≠ [] → chain'.next (left.getLastD null) = right.headD null)
    (first : right ≠ [] → chain'.prev (right.headD null) =
      left.getLastD null)
    (head : chain'.head = (left ++ right).headD null)
    (tail : chain'.tail = (left ++ right).getLastD null) :
    chain'.Spells null (left ++ right) := by
  have nodup := spells.nodup
  rw [List.nodup_append, List.nodup_cons] at nodup
  rcases nodup with ⟨leftNodup, ⟨-, rightNodup⟩, disjoint⟩
  have nonnull := spells.valid
  simp only [List.mem_append, List.mem_cons, not_or] at nonnull
  rcases nonnull with ⟨validLeft, -, validRight⟩
  rcases segment_append.mp spells.segment with
    ⟨leftSegment, -, -, rightSegment⟩
  have apart : ∀ old ∈ left, ∀ other ∈ right, old ≠ other :=
    fun old member other otherMember =>
      disjoint old member other (List.mem_cons_of_mem _ otherMember)
  constructor
  · rw [List.nodup_append]
    exact ⟨leftNodup, rightNodup, apart⟩
  · rw [List.mem_append, not_or]
    exact ⟨validLeft, validRight⟩
  · exact head
  · exact tail
  · rw [segment_append]
    exact leftSegment.relink rightSegment leftNodup rightNodup validLeft
      validRight apart nexts prevs last first

variable [DecidableEq Node]

/-- A node is put between its neighbours. -/
theorem link {left right : List Node} {before after : Node}
    (spells : chain.Spells null (left ++ right))
    (fresh : node ∉ left ++ right) (valid : node ≠ null)
    (behind : before = left.getLastD null)
    (ahead : after = right.headD null) :
    (chain.link null before node after).Spells null
      (left ++ node :: right) := by
  have others : ∀ other ∈ left ++ right, other ≠ node := by
    rintro other member rfl
    exact fresh member
  have nonnull := spells.valid
  rw [List.mem_append, not_or] at nonnull
  have leftEmpty : before = null ↔ left = [] := by
    rw [behind]
    exact getLastD_eq_null_iff nonnull.1
  have rightEmpty : after = null ↔ right = [] := by
    rw [ahead]
    exact headD_eq_null_iff nonnull.2
  apply spells.splice fresh valid
  · intro other member notLast
    rw [← behind] at notLast
    refine (Function.update_of_ne (others other member) _ _).trans ?_
    split
    · rfl
    · exact Function.update_of_ne notLast _ _
  · intro other member notFirst
    rw [← ahead] at notFirst
    refine (Function.update_of_ne (others other member) _ _).trans ?_
    split
    · rfl
    · exact Function.update_of_ne notFirst _ _
  · intro filled
    have member : before ∈ left ++ right := by
      rw [behind]
      exact List.mem_append_left _ (getLastD_mem filled null)
    rw [← behind]
    refine (Function.update_of_ne (others before member) _ _).trans ?_
    rw [if_neg fun none => filled (leftEmpty.mp none), Function.update_self]
  · intro filled
    have member : after ∈ left ++ right := by
      rw [ahead]
      exact List.mem_append_right _ (headD_mem filled null)
    rw [← ahead]
    refine (Function.update_of_ne (others after member) _ _).trans ?_
    rw [if_neg fun none => filled (rightEmpty.mp none), Function.update_self]
  · rw [← behind]
    exact Function.update_self _ _ _
  · rw [← ahead]
    exact Function.update_self _ _ _
  · dsimp only [Chain.link]
    cases left with
    | nil => exact if_pos (leftEmpty.mpr rfl)
    | cons first rest =>
        rw [if_neg fun none => List.cons_ne_nil _ _ (leftEmpty.mp none)]
        exact spells.head
  · dsimp only [Chain.link]
    cases right with
    | nil => exact if_pos (rightEmpty.mpr rfl)
    | cons first rest =>
        rw [if_neg fun none => List.cons_ne_nil _ _ (rightEmpty.mp none),
          spells.tail, getLastD_append_cons, List.getLastD_cons]

theorem pushBack
    (spells : chain.Spells null nodes)
    (fresh : node ∉ nodes) (valid : node ≠ null) :
    (chain.pushBack null node).Spells null (nodes ++ [node]) := by
  have linked : chain.pushBack null node =
      chain.link null chain.tail node null := by
    unfold Chain.pushBack Chain.link
    rw [if_pos rfl, if_pos rfl]
    by_cases empty : chain.tail = null
    · rw [if_pos empty, if_pos empty, if_pos empty]
    · have different : node ≠ chain.tail := by
        rintro rfl
        rw [spells.tail] at fresh
        exact fresh (getLastD_mem
          (fun none => empty (spells.tail_eq_null_iff.mpr none)) null)
      rw [if_neg empty, if_neg empty, if_neg empty,
        Function.update_comm different]
  have whole : chain.Spells null (nodes ++ []) := by
    rw [List.append_nil]
    exact spells
  rw [linked]
  exact whole.link (by rw [List.append_nil]; exact fresh) valid
    spells.tail rfl

theorem pushFront
    (spells : chain.Spells null nodes)
    (fresh : node ∉ nodes) (valid : node ≠ null) :
    (chain.pushFront null node).Spells null (node :: nodes) := by
  have linked : chain.pushFront null node =
      chain.link null null node chain.head := by
    unfold Chain.pushFront Chain.link
    rw [if_pos rfl, if_pos rfl]
    by_cases empty : chain.head = null
    · rw [if_pos empty, if_pos empty, if_pos empty]
    · have different : node ≠ chain.head := by
        rintro rfl
        rw [spells.head] at fresh
        exact fresh (headD_mem
          (fun none => empty (spells.head_eq_null_iff.mpr none)) null)
      rw [if_neg empty, if_neg empty, if_neg empty,
        Function.update_comm different]
  have whole : chain.Spells null ([] ++ nodes) := spells
  rw [linked]
  exact whole.link fresh valid rfl spells.head

omit [DecidableEq Node] in
/-- The list is well formed from its other end, too. -/
theorem reverse (spells : chain.Spells null nodes) :
    (⟨chain.prev, chain.next, chain.tail, chain.head⟩ :
      Chain Node).Spells null nodes.reverse where
  nodup := List.nodup_reverse.mpr spells.nodup
  valid := fun member => spells.valid (List.mem_reverse.mp member)
  head := by
    rw [← getLastD_reverse, List.reverse_reverse]
    exact spells.tail
  tail := by
    rw [getLastD_reverse]
    exact spells.head
  segment := spells.segment.reverse

/-- Following the links forwards yields the nodes, and then null. -/
theorem follow_next
    (spells : chain.Spells null nodes) {fuel : Nat}
    (enough : nodes.length ≤ fuel) :
    follow null chain.next fuel chain.head = nodes := by
  have general : ∀ (nodes : List Node) (before : Node) (fuel : Nat),
      Segment chain.next chain.prev before nodes null →
      null ∉ nodes → nodes.length ≤ fuel →
        follow null chain.next fuel (nodes.headD null) = nodes := by
    intro nodes
    induction nodes with
    | nil =>
        intro before fuel _ _ _
        cases fuel with
        | zero => rfl
        | succ fuel => exact if_pos rfl
    | cons first rest hypothesis =>
        intro before fuel segment valid enough
        have nonnull : first ≠ null := by
          rintro rfl
          exact valid List.mem_cons_self
        cases fuel with
        | zero => cases enough
        | succ fuel =>
            have following := hypothesis first fuel segment.2.2
              (fun member => valid (List.mem_cons_of_mem _ member))
              (Nat.le_of_succ_le_succ enough)
            rw [← segment.2.1] at following
            rw [follow, List.headD_cons, if_neg nonnull, following]
  rw [spells.head]
  exact general nodes null fuel spells.segment spells.valid enough

/-- Following the links backwards yields the nodes in reverse order. -/
theorem follow_prev
    (spells : chain.Spells null nodes) {fuel : Nat}
    (enough : nodes.length ≤ fuel) :
    follow null chain.prev fuel chain.tail = nodes.reverse :=
  spells.reverse.follow_next
    (by rw [List.length_reverse]; exact enough)

/-- A search with enough fuel sees the nodes in order. -/
theorem search_eq
    (spells : chain.Spells null nodes) (test : Node → Bool) {fuel : Nat}
    (enough : nodes.length ≤ fuel) :
    search null chain.next test (fuel + 1) chain.head =
      nodes.find? test := by
  have general : ∀ (nodes : List Node) (before : Node) (fuel : Nat),
      Segment chain.next chain.prev before nodes null →
      null ∉ nodes → nodes.length ≤ fuel →
        search null chain.next test (fuel + 1) (nodes.headD null) =
          nodes.find? test := by
    intro nodes
    induction nodes with
    | nil =>
        intro before fuel segment valid enough
        simp [search]
    | cons first rest hypothesis =>
        intro before fuel segment valid enough
        have nonnull : first ≠ null := by
          rintro rfl
          exact valid List.mem_cons_self
        cases fuel with
        | zero => cases enough
        | succ fuel =>
            have following := hypothesis first fuel segment.2.2
              (fun member => valid (List.mem_cons_of_mem _ member))
              (Nat.le_of_succ_le_succ enough)
            rw [← segment.2.1] at following
            rw [search, List.headD_cons, if_neg nonnull,
              List.find?_cons, following]
            cases test first <;> rfl
  rw [spells.head]
  exact general nodes null fuel spells.segment spells.valid enough

/-- Taking a node out leaves the others in their order. -/
theorem unlink {left right : List Node}
    (spells : chain.Spells null (left ++ node :: right)) :
    (chain.unlink null node).Spells null (left ++ right) := by
  rcases spells.links with ⟨back, forth⟩
  have valid := spells.valid
  simp only [List.mem_append, List.mem_cons, not_or] at valid
  have leftEmpty := getLastD_eq_null_iff valid.1
  have rightEmpty := headD_eq_null_iff valid.2.2
  apply spells.cut
  · intro other _ notLast
    rw [← back] at notLast
    by_cases empty : chain.prev node = null
    · simp [Chain.unlink, empty]
    · simp [Chain.unlink, empty, notLast]
  · intro other _ notFirst
    rw [← forth] at notFirst
    by_cases empty : chain.next node = null
    · simp [Chain.unlink, empty]
    · simp [Chain.unlink, empty, notFirst]
  · intro nonempty
    have nonnull : chain.prev node ≠ null := by
      rw [back]
      exact fun none => nonempty (leftEmpty.mp none)
    rw [← back, ← forth]
    simp [Chain.unlink, nonnull]
  · intro nonempty
    have nonnull : chain.next node ≠ null := by
      rw [forth]
      exact fun none => nonempty (rightEmpty.mp none)
    rw [← back, ← forth]
    simp [Chain.unlink, nonnull]
  · rw [headD_append]
    cases left with
    | nil => simp [Chain.unlink, back, forth]
    | cons start rest =>
        have nonnull : chain.prev node ≠ null := by
          rw [back]
          exact fun none => List.cons_ne_nil _ _ (leftEmpty.mp none)
        simp [Chain.unlink, nonnull, spells.head]
  · cases right with
    | nil => simp [Chain.unlink, back, forth]
    | cons start rest =>
        have nonnull : chain.next node ≠ null := by
          rw [forth]
          exact fun none => List.cons_ne_nil _ _ (rightEmpty.mp none)
        simp [Chain.unlink, nonnull, spells.tail,
          List.getLastD_eq_getLast?]

end Chain.Spells

/-! ## Lists that are linked forwards only -/

namespace Forward

variable {null : Node} {next next' : Node → Node} {head node : Node}
  {nodes left right : List Node}

theorem nil (null : Node) (next : Node → Node) :
    Forward null next null [] :=
  ⟨next, null, .nil rfl rfl⟩

theorem congr
    (forward : Forward null next head nodes)
    (nexts : ∀ node ∈ nodes, next' node = next node) :
    Forward null next' head nodes := by
  rcases forward with ⟨prev, tail, spells⟩
  exact ⟨prev, tail, spells.congr rfl rfl nexts fun _ _ => rfl⟩

theorem nodup (forward : Forward null next head nodes) : nodes.Nodup := by
  rcases forward with ⟨_, _, spells⟩
  exact spells.nodup

theorem valid (forward : Forward null next head nodes) : null ∉ nodes := by
  rcases forward with ⟨_, _, spells⟩
  exact spells.valid

theorem head_eq (forward : Forward null next head nodes) :
    head = nodes.headD null := by
  rcases forward with ⟨_, _, spells⟩
  exact spells.head

/-- The link of a node leads to its successor. -/
theorem next_eq (forward : Forward null next head (left ++ node :: right)) :
    next node = right.headD null := by
  rcases forward with ⟨_, _, spells⟩
  exact spells.links.2

/-- A node is put behind another one, or in front of all. -/
theorem link [DecidableEq Node] {before : Node}
    (forward : Forward null next head (left ++ right))
    (fresh : node ∉ left ++ right) (valid : node ≠ null)
    (behind : before = left.getLastD null) :
    Forward null
      (Function.update
        (if before = null then next else Function.update next before node)
        node (right.headD null))
      (if before = null then node else head) (left ++ node :: right) := by
  rcases forward with ⟨prev, tail, spells⟩
  exact ⟨_, _, spells.link fresh valid behind rfl⟩

/-- The first node is taken out. -/
theorem pop [DecidableEq Node]
    (forward : Forward null next head (node :: nodes)) :
    Forward null next (next node) nodes := by
  rcases forward with ⟨prev, tail, spells⟩
  have whole : (⟨next, prev, head, tail⟩ : Chain Node).Spells null
      ([] ++ node :: nodes) := spells
  have first : prev node = null := whole.links.1
  have unlinked := whole.unlink
  refine ⟨_, _, unlinked.congr ?_ rfl ?_ fun _ _ => rfl⟩
  · exact (if_pos first).symm
  · intro other _
    exact (congrFun (if_pos first) other).symm

/-- Following the links yields the nodes, and then null. -/
theorem follow_eq [DecidableEq Node]
    (forward : Forward null next head nodes) {fuel : Nat}
    (enough : nodes.length ≤ fuel) :
    follow null next fuel head = nodes := by
  rcases forward with ⟨_, _, spells⟩
  exact spells.follow_next enough

end Forward

/-! ## Entries

The nodes of a list with what they hold.  A position is a node.
-/

section Entries

variable {Data : Type} [DecidableEq Node] {pos : Node} {data : Data}
  {new : Node × Data} {entries left right : List (Node × Data)}

/-- A new entry behind a position. -/
def insertBehind (pos : Node) (new : Node × Data) :
    List (Node × Data) → List (Node × Data)
  | [] => []
  | entry :: rest =>
      if entry.1 = pos then entry :: new :: rest
      else entry :: insertBehind pos new rest

/-- A new entry in front of a position. -/
def insertAhead (pos : Node) (new : Node × Data) :
    List (Node × Data) → List (Node × Data)
  | [] => []
  | entry :: rest =>
      if entry.1 = pos then new :: entry :: rest
      else entry :: insertAhead pos new rest

theorem insertBehind_eq (outside : pos ∉ left.map Prod.fst) :
    insertBehind pos new (left ++ (pos, data) :: right) =
      left ++ (pos, data) :: new :: right := by
  induction left with
  | nil => exact if_pos rfl
  | cons first rest hypothesis =>
      rw [List.map_cons, List.mem_cons, not_or] at outside
      exact (if_neg (Ne.symm outside.1)).trans
        (congrArg (first :: ·) (hypothesis outside.2))

theorem insertAhead_eq (outside : pos ∉ left.map Prod.fst) :
    insertAhead pos new (left ++ (pos, data) :: right) =
      left ++ new :: (pos, data) :: right := by
  induction left with
  | nil => exact if_pos rfl
  | cons first rest hypothesis =>
      rw [List.map_cons, List.mem_cons, not_or] at outside
      exact (if_neg (Ne.symm outside.1)).trans
        (congrArg (first :: ·) (hypothesis outside.2))

/-- The entry behind the one with an index has the next index. -/
theorem insertBehind_getElem
    (nodup : (entries.map Prod.fst).Nodup) {index : Nat}
    (within : index < entries.length) :
    insertBehind entries[index].1 new entries =
      entries.insertIdx (index + 1) new := by
  induction entries generalizing index with
  | nil => cases within
  | cons first rest hypothesis =>
      cases index with
      | zero => exact if_pos rfl
      | succ index =>
          rw [List.map_cons, List.nodup_cons] at nodup
          have inside : index < rest.length := Nat.lt_of_succ_lt_succ within
          have different : first.1 ≠ rest[index].1 := fun same =>
            nodup.1 (same ▸ List.mem_map_of_mem (List.getElem_mem inside))
          exact (if_neg different).trans
            (congrArg (first :: ·) (hypothesis nodup.2 inside))

/-- The entry in front of the one with an index takes its index. -/
theorem insertAhead_getElem
    (nodup : (entries.map Prod.fst).Nodup) {index : Nat}
    (within : index < entries.length) :
    insertAhead entries[index].1 new entries =
      entries.insertIdx index new := by
  induction entries generalizing index with
  | nil => cases within
  | cons first rest hypothesis =>
      cases index with
      | zero => exact if_pos rfl
      | succ index =>
          rw [List.map_cons, List.nodup_cons] at nodup
          have inside : index < rest.length := Nat.lt_of_succ_lt_succ within
          have different : first.1 ≠ rest[index].1 := fun same =>
            nodup.1 (same ▸ List.mem_map_of_mem (List.getElem_mem inside))
          exact (if_neg different).trans
            (congrArg (first :: ·) (hypothesis nodup.2 inside))

omit [DecidableEq Node] in
/-- A position splits the entries. -/
theorem split_at
    (nodup : (entries.map Prod.fst).Nodup)
    (member : pos ∈ entries.map Prod.fst) :
    ∃ left data right, entries = left ++ (pos, data) :: right ∧
      pos ∉ left.map Prod.fst := by
  rcases List.mem_map.mp member with ⟨⟨_, data⟩, among, rfl⟩
  rcases List.append_of_mem among with ⟨left, right, rfl⟩
  refine ⟨left, data, right, rfl, ?_⟩
  rw [List.map_append, List.map_cons, List.nodup_middle,
    List.nodup_cons, List.mem_append, not_or] at nodup
  exact nodup.1.1

omit [DecidableEq Node] in
theorem mem_positions
    (left right : List (Node × Data)) (pos : Node) (data : Data) :
    pos ∈ (left ++ (pos, data) :: right).map Prod.fst := by
  rw [List.map_append, List.map_cons]
  exact List.mem_append_right _ List.mem_cons_self

omit [DecidableEq Node] in
/-- The node of an entry stores something. -/
theorem stored_isSome {store : Node → Option Data}
    (stored : ∀ entry ∈ entries, store entry.1 = some entry.2)
    (member : pos ∈ entries.map Prod.fst) : (store pos).isSome = true := by
  rcases List.mem_map.mp member with ⟨entry, among, rfl⟩
  rw [stored entry among]
  rfl

/-- A new node stores its entry, and the others keep theirs. -/
theorem stored_insert {store : Node → Option Data}
    (stored : ∀ entry ∈ left ++ right, store entry.1 = some entry.2)
    (outside : pos ∉ (left ++ right).map Prod.fst) (data : Data) :
    ∀ entry ∈ left ++ (pos, data) :: right,
      Function.update store pos (some data) entry.1 = some entry.2 := by
  intro entry member
  have old (among : entry ∈ left ++ right) :
      Function.update store pos (some data) entry.1 = some entry.2 := by
    have different : entry.1 ≠ pos := by
      rintro rfl
      exact outside (List.mem_map_of_mem among)
    rw [Function.update_of_ne different]
    exact stored entry among
  rw [List.mem_append, List.mem_cons] at member
  rcases member with among | rfl | among
  · exact old (List.mem_append_left _ among)
  · exact Function.update_self _ _ _
  · exact old (List.mem_append_right _ among)

/--
Call an iterator until it has no further node, but not more than so many
times; `none` stands for a call that has no result.
-/
def elements (iter : Node → Option (Option (Node × Data))) :
    Nat → Node → Option (List Data)
  | 0, _ => none
  | calls + 1, node =>
      match iter node with
      | none => none
      | some none => some []
      | some (some (node, data)) =>
          (elements iter calls node).map (data :: ·)

omit [DecidableEq Node] in
/-- An iterator that leads from every entry to the next one yields all. -/
theorem elements_eq {null : Node}
    {iter : Node → Option (Option (Node × Data))}
    (leads : ∀ left right, entries = left ++ right →
      iter ((left.map Prod.fst).getLastD null) = some right.head?) :
    elements iter (entries.length + 1) null =
      some (entries.map Prod.snd) := by
  have general : ∀ right left, entries = left ++ right →
      elements iter (right.length + 1)
        ((left.map Prod.fst).getLastD null) =
          some (right.map Prod.snd) := by
    intro right
    induction right with
    | nil =>
        intro left split
        rw [elements, leads left [] split]
        rfl
    | cons entry rest hypothesis =>
        intro left split
        rw [elements, leads left (entry :: rest) split]
        have following := hypothesis (left ++ [entry])
          (by rw [List.append_assoc]; exact split)
        rw [List.map_append, List.map_cons, getLastD_append_cons]
          at following
        change (elements iter (rest.length + 1) entry.1).map _ = _
        change elements iter (rest.length + 1) entry.1 = _ at following
        rw [following]
        rfl
  exact general entries [] rfl

end Entries

end Libcute.Library.LinkedList
