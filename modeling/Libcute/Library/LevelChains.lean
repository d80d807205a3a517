import Mathlib.Data.List.Nodup
import Mathlib.Data.List.Sublists

/-!
# Chains on several levels

Nodes are linked on every level below their height, and on each level the
links lead from a common head through the nodes that are high enough.  A link
may also be unreadable, which is what following a wrong pointer amounts to.

`Follows` says which nodes the links of one level run through; `advance` and
`descend` search for the last nodes in front of a given place, from the top
level down.  The rules for one changed link are `Follows.insert` and
`Follows.remove`.
-/

namespace Libcute.Library.LevelChains

variable {Node : Type}

/-- The links lead from `start` through `nodes` to the end. -/
def Follows (link : Node → Option (Option Node)) :
    (start : Node) → List Node → Prop
  | start, [] => link start = some none
  | start, node :: rest =>
      link start = some (some node) ∧ Follows link node rest

/-- The nodes that the links lead through. -/
def collect (link : Node → Option (Option Node)) :
    Nat → Node → Option (List Node)
  | 0, _ => none
  | fuel + 1, start =>
      match link start with
      | none => none
      | some none => some []
      | some (some node) => (collect link fuel node).map (node :: ·)

/-- Go on while the next node is still `below` the place that is sought. -/
def advance
    (link : Node → Option (Option Node)) (below : Node → Option Bool) :
    Nat → Node → Option Node
  | 0, _ => none
  | fuel + 1, x =>
      match link x with
      | none => none
      | some none => some x
      | some (some next) =>
          match below next with
          | none => none
          | some true => advance link below fuel next
          | some false => some x

section OneLevel

variable {link link' : Node → Option (Option Node)}
  {below : Node → Option Bool} {fuel : Nat}
  {start node : Node} {nodes left right : List Node}

/-- What the first link of a chain says. -/
theorem Follows.link_eq (follows : Follows link start nodes) :
    link start = some nodes.head? := by
  cases nodes with
  | nil => exact follows
  | cons node rest => exact follows.1

theorem Follows.congr
    (follows : Follows link start nodes)
    (same : ∀ node ∈ start :: nodes, link' node = link node) :
    Follows link' start nodes := by
  induction nodes generalizing start with
  | nil =>
      unfold Follows
      rw [same start List.mem_cons_self]
      exact follows
  | cons node rest induction =>
      refine ⟨?_, induction follows.2 ?_⟩
      · rw [same start List.mem_cons_self]
        exact follows.1
      · intro other member
        exact same other (List.mem_cons_of_mem _ member)

/-- A chain can be entered at any of its nodes. -/
theorem Follows.suffix (follows : Follows link start (left ++ right)) :
    Follows link (left.getLastD start) right := by
  induction left generalizing start with
  | nil => exact follows
  | cons node rest induction =>
      rw [List.getLastD_cons]
      exact induction follows.2

theorem getLastD_mem_cons (start : Node) (nodes : List Node) :
    nodes.getLastD start ∈ start :: nodes := by
  cases nodes with
  | nil => exact List.mem_cons_self
  | cons node rest =>
      rw [List.getLastD_cons]
      exact List.mem_cons_of_mem _ List.getLastD_mem_cons

theorem Follows.ne_last
    (nodup : (start :: node :: (left ++ right)).Nodup) :
    start ≠ left.getLastD node := by
  have fresh := (List.nodup_cons.mp nodup).1
  rintro rfl
  apply fresh
  have member := getLastD_mem_cons node left
  rw [← List.cons_append]
  exact List.mem_append_left _ member

/-- Link a new node behind the last node of the front part. -/
theorem Follows.insert
    (follows : Follows link start (left ++ right))
    (nodup : (start :: (left ++ right)).Nodup)
    (fresh : node ∉ start :: (left ++ right))
    (enters : link' (left.getLastD start) = some (some node))
    (leaves : link' node = link (left.getLastD start))
    (others : ∀ other, other ≠ left.getLastD start → other ≠ node →
      link' other = link other) :
    Follows link' start (left ++ node :: right) := by
  induction left generalizing start with
  | nil =>
      refine ⟨enters, ?_⟩
      have avoids := List.nodup_cons.mp nodup
      cases right with
      | nil => exact leaves.trans follows
      | cons next rest =>
          refine ⟨leaves.trans follows.1, follows.2.congr ?_⟩
          intro other member
          apply others
          · rintro rfl
            exact avoids.1 member
          · rintro rfl
            exact fresh (List.mem_cons_of_mem _ member)
  | cons first rest induction =>
      rw [List.getLastD_cons] at enters leaves others
      have apart := Follows.ne_last nodup
      refine ⟨?_, ?_⟩
      · rw [others start apart]
        · exact follows.1
        · rintro rfl
          exact fresh List.mem_cons_self
      · refine induction follows.2 (List.nodup_cons.mp nodup).2 ?_
          enters leaves others
        intro member
        exact fresh (List.mem_cons_of_mem _ member)

/-- Link past a node. -/
theorem Follows.remove
    (follows : Follows link start (left ++ node :: right))
    (nodup : (start :: (left ++ node :: right)).Nodup)
    (passes : link' (left.getLastD start) = link node)
    (others : ∀ other, other ≠ left.getLastD start →
      link' other = link other) :
    Follows link' start (left ++ right) := by
  induction left generalizing start with
  | nil =>
      have avoids := List.nodup_cons.mp nodup
      cases right with
      | nil => exact passes.trans follows.2
      | cons next rest =>
          refine ⟨passes.trans follows.2.1, follows.2.2.congr ?_⟩
          intro other member
          apply others
          rintro rfl
          exact avoids.1 (List.mem_cons_of_mem _ member)
  | cons first rest induction =>
      rw [List.getLastD_cons] at passes others
      have apart := Follows.ne_last nodup
      refine ⟨?_, ?_⟩
      · rw [others start apart]
        exact follows.1
      · exact induction follows.2 (List.nodup_cons.mp nodup).2 passes others

theorem collect_eq
    (follows : Follows link start nodes) (enough : nodes.length < fuel) :
    collect link fuel start = some nodes := by
  induction fuel generalizing start nodes with
  | zero => omega
  | succ fuel induction =>
      unfold collect
      cases nodes with
      | nil =>
          have finished : link start = some none := follows
          rw [finished]
      | cons node rest =>
          rw [follows.1]
          dsimp only
          rw [List.length_cons] at enough
          rw [induction follows.2 (by omega)]
          rfl

/-- The search passes the nodes below and stops in front of the others. -/
theorem advance_eq
    (follows : Follows link start (left ++ right))
    (passes : ∀ node ∈ left, below node = some true)
    (stops : ∀ node ∈ right, below node = some false)
    (enough : left.length < fuel) :
    advance link below fuel start = some (left.getLastD start) := by
  induction fuel generalizing start left with
  | zero => omega
  | succ fuel induction =>
      unfold advance
      cases left with
      | nil =>
          rw [Follows.link_eq follows, List.nil_append]
          cases right with
          | nil => rfl
          | cons next rest =>
              dsimp only [List.head?_cons]
              rw [stops next List.mem_cons_self]
              rfl
      | cons node rest =>
          rw [Follows.link_eq follows, List.cons_append]
          dsimp only [List.head?_cons]
          rw [passes node List.mem_cons_self]
          dsimp only
          rw [List.length_cons] at enough
          rw [List.getLastD_cons]
          exact induction follows.2
            (fun other member => passes other
              (List.mem_cons_of_mem _ member))
            (by omega)

end OneLevel

/-! ## All levels -/

/-- The nodes of a level, in the order of all nodes. -/
def onLevel (height : Node → Nat) (nodes : List Node) (level : Nat) :
    List Node :=
  nodes.filter fun node => level < height node

/-- On every level the links lead through the nodes that are high enough. -/
def Chained
    (link : Nat → Node → Option (Option Node)) (head : Node) (top : Nat)
    (height : Node → Nat) (nodes : List Node) : Prop :=
  ∀ level < top, Follows (link level) head (onLevel height nodes level)

/-- Search from the top level down; the results are the lowest level first. -/
def descend
    (link : Nat → Node → Option (Option Node)) (below : Node → Option Bool)
    (fuel : Nat) : Nat → Node → List Node → Option (Node × List Node)
  | 0, x, update => some (x, update)
  | level + 1, x, update =>
      match advance (link level) below fuel x with
      | none => none
      | some x => descend link below fuel level x (x :: update)

section AllLevels

variable {link : Nat → Node → Option (Option Node)}
  {below : Node → Option Bool} {head : Node} {top fuel level : Nat}
  {height : Node → Nat} {before after nodes : List Node}

theorem onLevel_append :
    onLevel height (before ++ after) level =
      onLevel height before level ++ onLevel height after level :=
  List.filter_append ..

theorem onLevel_sublist_lower :
    (onLevel height nodes (level + 1)).Sublist
      (onLevel height nodes level) := by
  apply List.monotone_filter_right
  intro node high
  simp only [decide_eq_true_eq] at high ⊢
  omega

theorem mem_of_mem_onLevel {node : Node}
    (member : node ∈ onLevel height nodes level) :
    node ∈ nodes ∧ level < height node := by
  simpa [onLevel] using member

/-- Only the links and heights of the nodes matter. -/
theorem Chained.congr
    {link' : Nat → Node → Option (Option Node)} {height' : Node → Nat}
    (chained : Chained link head top height nodes)
    (same : ∀ level, ∀ node ∈ head :: nodes,
      link' level node = link level node)
    (heights : ∀ node ∈ nodes, height' node = height node) :
    Chained link' head top height' nodes := by
  intro level inside
  have measured : onLevel height' nodes level = onLevel height nodes level :=
    List.filter_congr fun node member => by rw [heights node member]
  rw [measured]
  refine (chained level inside).congr ?_
  intro node member
  apply same
  rcases List.mem_cons.mp member with rfl | later
  · exact List.mem_cons_self
  · exact List.mem_cons_of_mem _ (mem_of_mem_onLevel later).1

theorem onLevel_length_le :
    (onLevel height nodes level).length ≤ nodes.length :=
  List.length_filter_le ..

/-- The last node on a level in front of a place. -/
def lastBefore
    (head : Node) (height : Node → Nat) (before : List Node)
    (level : Nat) : Node :=
  (onLevel height before level).getLastD head

/-- A node that a higher level led to splits the chain of a level. -/
theorem split_at_lastBefore
    (head : Node) (higher : Nat) (above : level ≤ higher) :
    ∃ passed rest,
      onLevel height before level = passed ++ rest ∧
        passed.getLastD head = lastBefore head height before higher := by
  unfold lastBefore
  cases last : (onLevel height before higher).getLast? with
  | none =>
      rw [List.getLast?_eq_none_iff] at last
      rw [last]
      exact ⟨[], _, rfl, rfl⟩
  | some node =>
      have member := List.mem_of_getLast? last
      rcases mem_of_mem_onLevel member with ⟨present, high⟩
      have lower : node ∈ onLevel height before level := by
        simp only [onLevel, List.mem_filter, decide_eq_true_eq]
        exact ⟨present, by omega⟩
      rcases List.append_of_mem lower with ⟨left, right, split⟩
      refine ⟨left ++ [node], right, ?_, ?_⟩
      · rw [split, List.append_assoc, List.singleton_append]
      · rw [List.getLastD_eq_getLast?, List.getLastD_eq_getLast?, last,
          List.getLast?_append, List.getLast?_singleton]
        rfl

/-- The search on one level, from a node that a higher level led to. -/
theorem advance_on_level
    (follows : Follows (link level) head
      (onLevel height (before ++ after) level))
    (passes : ∀ node ∈ before, below node = some true)
    (stops : ∀ node ∈ after, below node = some false)
    (enough : before.length < fuel) {x : Node}
    (from' : x = head ∨
      ∃ higher ≥ level, x = lastBefore head height before higher) :
    advance (link level) below fuel x =
      some (lastBefore head height before level) := by
  have position : ∃ passed rest,
      onLevel height before level = passed ++ rest ∧
        passed.getLastD head = x := by
    rcases from' with rfl | ⟨higher, above, rfl⟩
    · exact ⟨[], _, rfl, rfl⟩
    · exact split_at_lastBefore head higher above
  rcases position with ⟨passed, rest, split, rfl⟩
  rw [onLevel_append, split, List.append_assoc] at follows
  have members : ∀ node ∈ rest, node ∈ before := by
    intro node member
    have among : node ∈ onLevel height before level := by
      rw [split]
      exact List.mem_append_right _ member
    exact (mem_of_mem_onLevel among).1
  have short : rest.length < fuel := by
    have total : (onLevel height before level).length ≤ before.length :=
      onLevel_length_le
    rw [split, List.length_append] at total
    omega
  rw [advance_eq follows.suffix
    (fun node member => passes node (members node member))
    (fun node member => stops node (mem_of_mem_onLevel member).1) short]
  unfold lastBefore
  rw [split]
  congr 1
  rw [List.getLastD_eq_getLast?, List.getLastD_eq_getLast?,
    List.getLastD_eq_getLast?, List.getLast?_append]
  cases rest.getLast? <;> rfl

/-- The search finds the last node in front of the place on every level. -/
theorem descend_eq
    (chained : Chained link head top height (before ++ after))
    (passes : ∀ node ∈ before, below node = some true)
    (stops : ∀ node ∈ after, below node = some false)
    (enough : before.length < fuel) :
    ∀ level ≤ top, ∀ x update,
      (x = head ∨
        ∃ higher ≥ level, x = lastBefore head height before higher) →
      descend link below fuel level x update =
        some (if level = 0 then x else lastBefore head height before 0,
          (List.range level).map (lastBefore head height before) ++
            update) := by
  intro level
  induction level with
  | zero =>
      intro _ x update _
      rfl
  | succ level induction =>
      intro bounded x update from'
      have nearer : x = head ∨
          ∃ higher ≥ level, x = lastBefore head height before higher := by
        rcases from' with here | ⟨higher, above, there⟩
        · exact Or.inl here
        · exact Or.inr ⟨higher, by omega, there⟩
      unfold descend
      rw [advance_on_level (chained level (by omega)) passes stops enough
        nearer]
      dsimp only
      rw [induction (by omega) _ _ (Or.inr ⟨level, le_refl _, rfl⟩),
        List.range_succ, List.map_append, List.append_assoc]
      cases level with
      | zero => rfl
      | succ level => rfl

end AllLevels

end Libcute.Library.LevelChains
