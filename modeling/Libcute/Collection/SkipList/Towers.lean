import Libcute.Collection.SkipList
import Libcute.Library.AssocList
import Libcute.Library.LevelChains

/-!
# Towers of linked nodes

The nodes of a list are described by towers, in the order of their keys: the
address of a node, its height and its cells.  `Built` says that the heap
holds exactly the head and the towers, and `Chained` of the library that the
links of every level run through the towers that are high enough.

The two loops that change links are handled level by level: below the
current level the links are already those of the new order, above it still
those of the old one.
-/

namespace Libcute.Collection.SkipList

open Libcute.Core.Interface
open Libcute.Core.Size
open Libcute.Library
open Libcute.Library.LevelChains

variable {K V : Type} {list list' : Skip K V} {key : K}
  {head x y i j fuel : Nat} {target : Option Nat}

/-- A stored pair: its node, how high it is linked, and its two copies. -/
structure Tower (K V : Type) where
  address : Nat
  height : Nat
  key : Cell K
  value : Cell V

/-- The pair that a tower stores. -/
def Tower.pair (tower : Tower K V) : K × V :=
  (tower.key.content, tower.value.content)

/-- The height of a node in the heap. -/
def Skip.heightOf (list : Skip K V) (x : Nat) : Nat :=
  ((list.node x).map Node.level).getD 0

/-- `list->cmp(x->key, key) < 0` -/
def Skip.below (list : Skip K V) (key : K) (x : Nat) : Option Bool :=
  (list.compare key x).map fun order => order < 0

/-- The node of a tower, apart from its links. -/
structure Stands (list : Skip K V) (tower : Tower K V) (node : Node K V) :
    Prop where
  found : list.node tower.address = some node
  level : node.level = tower.height
  links : node.forward.length = tower.height
  key : node.key = some tower.key
  value : node.value = some tower.value

/-- The heap holds the head and the towers. -/
structure Built
    (list : Skip K V) (head : Nat) (towers : List (Tower K V)) : Prop where
  start : list.head = some head
  unique : KeyedList.Unique Node.address list.heap
  addresses :
    (list.heap.map Node.address).Perm (head :: towers.map Tower.address)
  headNode : ∃ node,
    list.node head = some node ∧ node.forward.length = list.maxLevel
  stands : ∀ tower ∈ towers, ∃ node, Stands list tower node

theorem Stands.congr {list list' : Skip K V} {tower : Tower K V}
    {node : Node K V} (stands : Stands list tower node)
    (same : list'.node tower.address = list.node tower.address) :
    Stands list' tower node where
  found := same.trans stands.found
  level := stands.level
  links := stands.links
  key := stands.key
  value := stands.value

/-- The towers stand on the heap, whatever else the list has. -/
theorem Built.congr {list list' : Skip K V} {head : Nat}
    {towers : List (Tower K V)} (built : Built list head towers)
    (start : list'.head = list.head) (heap : list'.heap = list.heap)
    (maxLevel : list'.maxLevel = list.maxLevel) :
    Built list' head towers := by
  have nodes : ∀ x, list'.node x = list.node x := by
    intro x
    unfold Skip.node
    rw [heap]
  refine ⟨start.trans built.start, ?_, ?_, ?_, ?_⟩
  · rw [heap]
    exact built.unique
  · rw [heap]
    exact built.addresses
  · rw [nodes, maxLevel]
    exact built.headNode
  · intro tower member
    rcases built.stands tower member with ⟨node, stands⟩
    exact ⟨node, stands.congr (nodes _)⟩

/-! ## The search loops -/

theorem walk_eq (list : Skip K V) (key : K) (i fuel x : Nat) :
    list.walk key i fuel x =
      advance (list.forward i) (list.below key) fuel x := by
  induction fuel generalizing x with
  | zero => rfl
  | succ fuel induction =>
      unfold Skip.walk advance Skip.below
      cases list.forward i x with
      | none => rfl
      | some next =>
          cases next with
          | none => rfl
          | some next =>
              dsimp only
              cases list.compare key next with
              | none => rfl
              | some order =>
                  dsimp only [Option.map_some]
                  by_cases less : order < 0
                  · simp only [less, if_true, decide_true]
                    exact induction next
                  · simp only [less, if_false, decide_false]

theorem descend_eq_library
    (list : Skip K V) (key : K) (level x : Nat) (update : List Nat) :
    list.descend key level x update =
      LevelChains.descend list.forward (list.below key) list.steps level x
        update := by
  induction level generalizing x update with
  | zero => rfl
  | succ level induction =>
      unfold Skip.descend LevelChains.descend
      rw [walk_eq]
      cases advance (list.forward level) (list.below key) list.steps x with
      | none => rfl
      | some next => exact induction next _

/-! ## Changing a link -/

theorem node_setForward :
    (list.setForward i x target).node y =
      (list.node y).map fun node =>
        if y = x then { node with forward := node.forward.set i target }
        else node := by
  unfold Skip.node Skip.setForward
  apply KeyedList.find_update_eq
  intro node
  rfl

theorem heightOf_setForward :
    (list.setForward i x target).heightOf = list.heightOf := by
  funext y
  unfold Skip.heightOf
  rw [node_setForward]
  cases list.node y with
  | none => rfl
  | some node =>
      rw [Option.map_some, Option.map_some, Option.map_some]
      split_ifs <;> rfl

/-- Only the link that is set changes, and only to what it is set. -/
theorem forward_setForward (readable : list.forward i x ≠ none) :
    (list.setForward i x target).forward j y =
      if j = i ∧ y = x then some target else list.forward j y := by
  unfold Skip.forward at readable ⊢
  rw [node_setForward]
  cases found : list.node y with
  | none =>
      have other : y ≠ x := by
        rintro rfl
        rw [found] at readable
        contradiction
      simp [other]
  | some node =>
      rw [Option.map_some]
      dsimp only
      by_cases here : y = x
      · subst here
        rw [found] at readable
        dsimp only at readable
        rw [if_pos rfl]
        dsimp only
        rw [List.getElem?_set]
        by_cases level : i = j
        · subst level
          have inside : i < node.forward.length := by
            rw [ne_eq, List.getElem?_eq_none_iff] at readable
            omega
          simp [inside]
        · simp [level, Ne.symm level]
      · simp [here]

theorem Stands.setForward
    {tower : Tower K V} {node : Node K V} (stands : Stands list tower node) :
    Stands (list.setForward i x target) tower
      (if tower.address = x then
        { node with forward := node.forward.set i target }
      else node) := by
  have found :
      (list.setForward i x target).node tower.address =
        some (if tower.address = x then
          { node with forward := node.forward.set i target }
        else node) := by
    rw [node_setForward, stands.found]
    rfl
  refine ⟨found, ?_, ?_, ?_, ?_⟩
  all_goals split_ifs
  · exact stands.level
  · exact stands.level
  · rw [List.length_set]
    exact stands.links
  · exact stands.links
  · exact stands.key
  · exact stands.key
  · exact stands.value
  · exact stands.value

theorem Built.setForward
    {towers : List (Tower K V)} (built : Built list head towers)
    (i x : Nat) (target : Option Nat) :
    Built (list.setForward i x target) head towers where
  start := built.start
  unique := built.unique.update fun _ => rfl
  addresses := by
    have kept :
        (list.setForward i x target).heap.map Node.address =
          list.heap.map Node.address :=
      KeyedList.map_update Node.address fun _ => rfl
    rw [kept]
    exact built.addresses
  headNode := by
    rcases built.headNode with ⟨node, found, links⟩
    rw [node_setForward, found]
    refine ⟨_, rfl, ?_⟩
    split_ifs
    · rw [List.length_set]
      exact links
    · exact links
  stands := by
    intro tower member
    rcases built.stands tower member with ⟨node, stands⟩
    exact ⟨_, stands.setForward⟩

theorem Stands.readable
    {tower : Tower K V} {node : Node K V} (stands : Stands list tower node)
    (inside : i < tower.height) :
    list.forward i tower.address ≠ none := by
  unfold Skip.forward
  rw [stands.found]
  dsimp only
  rw [ne_eq, List.getElem?_eq_none_iff, stands.links]
  omega

/-! ## The loops that change links -/

/-- Below level `i` the links follow one order, from there on another. -/
def Partly
    (list : Skip K V) (head : Nat) (height : Nat → Nat) (i : Nat)
    (done left : List Nat) : Prop :=
  ∀ level < list.maxLevel,
    Follows (list.forward level) head
      (onLevel height (if level < i then done else left) level)

section Loops

variable {height : Nat → Nat} {before after done left : List Nat}
  {node : Nat}

theorem onLevel_middle_high (high : i < height node) :
    onLevel height (before ++ node :: after) i =
      onLevel height before i ++ node :: onLevel height after i := by
  rw [onLevel_append, onLevel, onLevel, onLevel,
    List.filter_cons_of_pos (by simpa using high)]

theorem onLevel_middle_low (low : ¬ i < height node) :
    onLevel height (before ++ node :: after) i =
      onLevel height (before ++ after) i := by
  rw [onLevel_append, onLevel_append, onLevel, onLevel, onLevel,
    List.filter_cons_of_neg (by simpa using low)]

theorem lastBefore_mem :
    lastBefore head height before i ∈ head :: before := by
  rcases List.mem_cons.mp
    (getLastD_mem_cons head (onLevel height before i)) with here | member
  · unfold lastBefore
    rw [here]
    exact List.mem_cons_self
  · exact List.mem_cons_of_mem _ (mem_of_mem_onLevel member).1

theorem nodup_level
    (nodup : (head :: left).Nodup) :
    (head :: onLevel height left i).Nodup := by
  refine List.Nodup.sublist ?_ nodup
  exact List.Sublist.cons_cons _ List.filter_sublist

theorem nodup_middle :
    (head :: (before ++ node :: after)).Nodup ↔
      (node :: head :: (before ++ after)).Nodup := by
  apply List.Perm.nodup_iff
  exact (List.perm_middle.cons head).trans (List.Perm.swap _ _ _)

/-- The node in the middle differs from the last one on a level. -/
theorem lastBefore_ne
    (nodup : (head :: (before ++ node :: after)).Nodup) :
    node ≠ lastBefore head height before i := by
  intro same
  have member : lastBefore head height before i ∈ head :: before :=
    lastBefore_mem
  rw [← same, List.mem_cons] at member
  rcases member with here | inside
  · apply (List.nodup_cons.mp nodup).1
    rw [← here]
    simp
  · have apart := (List.nodup_cons.mp nodup).2
    rw [List.nodup_append] at apart
    exact apart.2.2 node inside node List.mem_cons_self rfl

/-- One turn of the loop that links a node. -/
theorem Partly.link_step
    (partly : Partly list head height i (before ++ node :: after)
      (before ++ after))
    (inside : i < list.maxLevel) (high : i < height node)
    (nodup : (head :: (before ++ node :: after)).Nodup)
    (readable : list.forward i node ≠ none) :
    ∃ next,
      list.forward i (lastBefore head height before i) = some next ∧
        Partly
          ((list.setForward i node next).setForward i
            (lastBefore head height before i) (some node))
          head height (i + 1) (before ++ node :: after)
          (before ++ after) := by
  have apart : node ≠ lastBefore head height before i :=
    lastBefore_ne nodup
  have follows := partly i inside
  rw [if_neg (Nat.lt_irrefl i), onLevel_append] at follows
  have reads := follows.suffix.link_eq
  refine ⟨_, reads, ?_⟩
  have readable' :
      (list.setForward i node
        (onLevel height after i).head?).forward i
          (lastBefore head height before i) ≠ none := by
    rw [forward_setForward readable, if_neg (fun both => apart both.2.symm)]
    intro unreadable
    rw [lastBefore, reads] at unreadable
    contradiction
  intro level bounded
  by_cases here : level = i
  · subst level
    rw [if_pos (Nat.lt_succ_self i), onLevel_middle_high high]
    have whole : (head :: onLevel height (before ++ node :: after) i).Nodup :=
      nodup_level nodup
    rw [onLevel_middle_high high] at whole
    have moved := (nodup_middle.mp whole)
    refine follows.insert (List.nodup_cons.mp moved).2
      (List.nodup_cons.mp moved).1 ?_ ?_ ?_
    · rw [forward_setForward readable']
      exact if_pos ⟨rfl, rfl⟩
    · rw [forward_setForward readable', if_neg (fun both => apart both.2),
        forward_setForward readable, if_pos ⟨rfl, rfl⟩]
      exact reads.symm
    · intro other notLast notNode
      rw [forward_setForward readable',
        if_neg (fun both => notLast both.2), forward_setForward readable,
        if_neg (fun both => notNode both.2)]
  · have kept : (level < i + 1) = (level < i) := by
      rw [eq_iff_iff]
      omega
    simp only [kept]
    refine (partly level bounded).congr ?_
    intro other _
    rw [forward_setForward readable', if_neg (fun both => here both.1),
      forward_setForward readable, if_neg (fun both => here both.1)]

/-- What the loops do not change. -/
structure Relinked
    (list list' : Skip K V) (head : Nat) (towers : List (Tower K V)) :
    Prop where
  built : Built list' head towers
  heights : list'.heightOf = list.heightOf
  rest : list' = { list with heap := list'.heap }

theorem Relinked.refl
    {towers : List (Tower K V)} (built : Built list head towers) :
    Relinked list list head towers :=
  ⟨built, rfl, rfl⟩

theorem Relinked.trans
    {list'' : Skip K V} {towers : List (Tower K V)}
    (first : Relinked list list' head towers)
    (second : Relinked list' list'' head towers) :
    Relinked list list'' head towers := by
  refine ⟨second.built, second.heights.trans first.heights, ?_⟩
  rw [second.rest, first.rest]

theorem Relinked.setForward
    {towers : List (Tower K V)} (built : Built list head towers)
    (i x : Nat) (target : Option Nat) :
    Relinked list (list.setForward i x target) head towers :=
  ⟨built.setForward i x target, heightOf_setForward, rfl⟩

/-- The loop that links a node, from level `i` up to its height. -/
theorem Partly.link
    {towers : List (Tower K V)} {tower : Tower K V}
    (built : Built list head towers) (member : tower ∈ towers)
    (tall : tower.height = height tower.address)
    (bounded : tower.height ≤ list.maxLevel)
    (nodup : (head :: (before ++ tower.address :: after)).Nodup)
    (count : Nat) (reaches : i + count = tower.height)
    (partly : Partly list head height i
      (before ++ tower.address :: after) (before ++ after)) :
    ∃ list',
      list.link tower.address
          ((List.range' i count).map (lastBefore head height before)) i =
        some list' ∧
      Chained list'.forward head list'.maxLevel height
        (before ++ tower.address :: after) ∧
      Relinked list list' head towers := by
  induction count generalizing i list with
  | zero =>
      refine ⟨list, rfl, ?_, Relinked.refl built⟩
      intro level inside
      have follows := partly level inside
      by_cases lower : level < i
      · rw [if_pos lower] at follows
        exact follows
      · rw [if_neg lower] at follows
        rw [onLevel_middle_low (by omega)]
        exact follows
  | succ count induction =>
      rcases built.stands tower member with ⟨node, stands⟩
      have readable := stands.readable (i := i) (by omega)
      rcases partly.link_step (by omega) (by omega) nodup readable with
        ⟨next, reads, further⟩
      have first := Relinked.setForward built i tower.address next
      have second := first.trans (Relinked.setForward first.built i
        (lastBefore head height before i) (some tower.address))
      rcases induction second.built bounded (by omega) further with
        ⟨list', links, chained, relinked⟩
      refine ⟨list', ?_, chained, second.trans relinked⟩
      rw [List.range'_succ, List.map_cons]
      unfold Skip.link
      rw [reads]
      exact links

/-- One turn of the loop that unlinks a node. -/
theorem Partly.unlink_step
    (partly : Partly list head height i (before ++ after)
      (before ++ node :: after))
    (inside : i < list.maxLevel) (high : i < height node)
    (nodup : (head :: (before ++ node :: after)).Nodup) :
    ∃ next,
      list.forward i (lastBefore head height before i) =
          some (some node) ∧
        list.forward i node = some next ∧
        Partly
          (list.setForward i (lastBefore head height before i) next)
          head height (i + 1) (before ++ after)
          (before ++ node :: after) := by
  have follows := partly i inside
  rw [if_neg (Nat.lt_irrefl i), onLevel_middle_high high] at follows
  have reads := follows.suffix.link_eq
  have leaves := follows.suffix.2.link_eq
  have whole : (head :: onLevel height (before ++ node :: after) i).Nodup :=
    nodup_level nodup
  rw [onLevel_middle_high high] at whole
  have readable :
      list.forward i (lastBefore head height before i) ≠ none := by
    rw [lastBefore, reads]
    simp
  refine ⟨_, reads, leaves, ?_⟩
  intro level bounded
  by_cases here : level = i
  · subst level
    rw [if_pos (Nat.lt_succ_self i), onLevel_append]
    refine follows.remove whole ?_ ?_
    · rw [forward_setForward readable, leaves]
      exact if_pos ⟨rfl, rfl⟩
    · intro other notLast
      rw [forward_setForward readable, if_neg (fun both => notLast both.2)]
  · have kept : (level < i + 1) = (level < i) := by
      rw [eq_iff_iff]
      omega
    simp only [kept]
    refine (partly level bounded).congr ?_
    intro other _
    rw [forward_setForward readable, if_neg (fun both => here both.1)]

/-- Above the height of a node there is nothing to unlink. -/
theorem Partly.unlinked
    (partly : Partly list head height i (before ++ after)
      (before ++ node :: after))
    (beyond : ¬ i < height node) :
    Chained list.forward head list.maxLevel height (before ++ after) := by
  intro level inside
  have follows := partly level inside
  by_cases lower : level < i
  · rw [if_pos lower] at follows
    exact follows
  · rw [if_neg lower, onLevel_middle_low (by omega)] at follows
    exact follows

/-- The loop that unlinks a node stops at the height of the node. -/
theorem Partly.unlink
    {towers : List (Tower K V)} (built : Built list head towers)
    (tall : height node ≤ list.level) (bounded : list.level ≤ list.maxLevel)
    (nodup : (head :: (before ++ node :: after)).Nodup)
    (count : Nat) (reaches : i + count = list.level)
    (partly : Partly list head height i (before ++ after)
      (before ++ node :: after)) :
    ∃ list',
      list.unlink node
          ((List.range' i count).map (lastBefore head height before)) i =
        some list' ∧
      Chained list'.forward head list'.maxLevel height (before ++ after) ∧
      Relinked list list' head towers := by
  induction count generalizing i list with
  | zero =>
      exact ⟨list, rfl, partly.unlinked (by omega), Relinked.refl built⟩
  | succ count induction =>
      rw [List.range'_succ, List.map_cons]
      unfold Skip.unlink
      by_cases high : i < height node
      · rcases partly.unlink_step (by omega) high nodup with
          ⟨next, reads, leaves, further⟩
        have first := Relinked.setForward built i
          (lastBefore head height before i) next
        rcases induction first.built tall bounded (by
            change i + 1 + count = list.level
            omega) further with
          ⟨list', unlinks, chained, relinked⟩
        refine ⟨list', ?_, chained, first.trans relinked⟩
        rw [reads]
        dsimp only
        rw [if_neg (by simp), leaves]
        exact unlinks
      · refine ⟨list, ?_, partly.unlinked high, Relinked.refl built⟩
        have follows := partly i (by omega)
        rw [if_neg (Nat.lt_irrefl i), onLevel_middle_low high,
          onLevel_append] at follows
        have reads := follows.suffix.link_eq
        unfold lastBefore
        rw [reads]
        dsimp only
        rw [if_pos]
        intro same
        have member := List.mem_of_head? same
        have apart := (List.nodup_cons.mp (nodup_middle.mp nodup)).1
        apply apart
        refine List.mem_cons_of_mem _ (List.mem_append_right _ ?_)
        exact (mem_of_mem_onLevel member).1

end Loops

end Libcute.Collection.SkipList
