import Libcute.Collection.SkipList.Towers
import Libcute.Library.Comparators

/-!
# Sorted towers

`Shape` is the invariant of a skip list: its towers are sorted by key, the
links of every level run through them, and no tower is higher than the
present level.  A search splits the towers at the sought key, and what
`cu_SkipList_find` and `cu_SkipList_iter` answer is read off the towers.
-/

namespace Libcute.Collection.SkipList

open Libcute.Core.Interface
open Libcute.Core.Size
open Libcute.Library
open Libcute.Library.AssocList
open Libcute.Library.LevelChains

variable {K V : Type} {list list' : Skip K V} {key : K} {value : V}
  {head : Nat} {towers before after : List (Tower K V)}
  {tower : Tower K V}

/-! ## Comparison functions -/

/-- A comparison function that orders all keys. -/
structure TotalOrder (cmp : K → K → Int) : Prop where
  refl : ∀ a, cmp a a = 0
  swap : ∀ a b, cmp a b < 0 ↔ 0 < cmp b a
  trans : ∀ a b c, cmp a b ≤ 0 → cmp b c ≤ 0 → cmp a c ≤ 0

/-- The keys that a comparison function identifies. -/
def equal (cmp : K → K → Int) (left right : K) : Bool :=
  cmp left right = 0

theorem TotalOrder.symm
    {cmp : K → K → Int} (order : TotalOrder cmp) {a b : K}
    (same : cmp a b = 0) : cmp b a = 0 := by
  have forwards := order.swap a b
  have backwards := order.swap b a
  omega

theorem TotalOrder.lt_trans
    {cmp : K → K → Int} (order : TotalOrder cmp) {a b c : K}
    (first : cmp a b < 0) (second : cmp b c < 0) : cmp a c < 0 := by
  have atMost := order.trans a b c (by omega) (by omega)
  by_contra notLess
  have same := order.symm (a := a) (b := c) (by omega)
  have back := order.trans c a b (by omega) (by omega)
  have forwards := (order.swap b c).mp second
  omega

theorem TotalOrder.identifies
    {cmp : K → K → Int} (order : TotalOrder cmp) :
    Identifies (equal cmp) := by
  refine ⟨?_, ?_, ?_⟩
  · intro a
    simpa [equal] using order.refl a
  · intro a b same
    simp only [equal, decide_eq_true_eq] at same ⊢
    exact order.symm same
  · intro a b c first second
    simp only [equal, decide_eq_true_eq] at first second ⊢
    have forwards := order.trans a b c (by omega) (by omega)
    have first' := order.symm first
    have second' := order.symm second
    have backwards := order.trans c b a (by omega) (by omega)
    have swap := order.swap a c
    omega

/-- Equal keys lie at the same place. -/
theorem TotalOrder.congr_right
    {cmp : K → K → Int} (order : TotalOrder cmp) {a b c : K}
    (same : cmp b c = 0) : cmp a b < 0 ↔ cmp a c < 0 := by
  have same' := order.symm same
  have towards := order.trans a b c
  have away := order.trans a c b
  have equals : equal cmp a b = equal cmp a c :=
    order.identifies.congr_right (by simpa [equal] using same) a
  simp only [equal, decide_eq_decide] at equals
  omega

/-- A comparison function that compares ranks orders all keys. -/
theorem TotalOrder.of_follows {Rank : Type} [LinearOrder Rank]
    {cmp : K → K → Int} {rank : K → Rank}
    (follows : Comparators.Follows cmp rank) : TotalOrder cmp where
  refl a := (follows.same a a).mpr rfl
  swap a b := by
    rw [follows.less, follows.greater]
  trans _ _ _ first second := (follows.trans first second).1

/-- `cu_SkipList_default_cmp` compares the numbers that the keys hold. -/
theorem defaultCmp_follows (asInt : K → Int) :
    Comparators.Follows (defaultCmp asInt) asInt := by
  constructor
  · intro a b
    unfold defaultCmp
    split_ifs <;> omega
  · intro a b
    unfold defaultCmp
    split_ifs with below above
    · exact iff_of_false (by decide) below.ne
    · exact iff_of_false (by decide) above.ne'
    · exact iff_of_true rfl (by omega)

/-- `cu_SkipList_default_cmp` orders all keys. -/
theorem defaultCmp_order (asInt : K → Int) :
    TotalOrder (defaultCmp asInt) :=
  TotalOrder.of_follows (defaultCmp_follows asInt)

/-! ## The invariant -/

/-- The invariant of a skip list. -/
structure Shape
    (list : Skip K V) (head : Nat) (towers : List (Tower K V)) : Prop where
  built : Built list head towers
  chained :
    Chained list.forward head list.maxLevel list.heightOf
      (towers.map Tower.address)
  heights : ∀ tower ∈ towers,
    0 < tower.height ∧ tower.height ≤ list.level
  positive : 0 < list.level
  bounded : list.level ≤ list.maxLevel
  sorted : towers.Pairwise fun left right =>
    list.cmp left.key.content right.key.content < 0
  keyLayout : ¬ list.keyLayout.Invalid
  valueLayout : ¬ list.valueLayout.Invalid
  fits : headerSize + list.maxLevel * pointerSize < sizeLimit

/-- The invariant does not read the random state or the effects. -/
theorem Shape.withEffects
    (shape : Shape list head towers) (state : Stream)
    (effects : Effects K V) :
    Shape { list with state := state, effects := effects } head towers where
  built := shape.built.congr rfl rfl rfl
  chained := shape.chained
  heights := shape.heights
  positive := shape.positive
  bounded := shape.bounded
  sorted := shape.sorted
  keyLayout := shape.keyLayout
  valueLayout := shape.valueLayout
  fits := shape.fits

theorem Built.nodup (built : Built list head towers) :
    (head :: towers.map Tower.address).Nodup :=
  built.addresses.nodup_iff.mp built.unique

theorem Built.length (built : Built list head towers) :
    list.heap.length = towers.length + 1 := by
  have counted := built.addresses.length_eq
  rw [List.length_map, List.length_cons, List.length_map] at counted
  exact counted

theorem Built.heightOf
    (built : Built list head towers) (member : tower ∈ towers) :
    list.heightOf tower.address = tower.height := by
  rcases built.stands tower member with ⟨node, stands⟩
  unfold Skip.heightOf
  rw [stands.found]
  exact stands.level

theorem Built.compare
    (built : Built list head towers) (member : tower ∈ towers) (key : K) :
    list.compare key tower.address =
      some (list.cmp tower.key.content key) := by
  rcases built.stands tower member with ⟨node, stands⟩
  unfold Skip.compare
  rw [stands.found]
  dsimp only
  rw [stands.key]
  rfl

theorem Built.valueCell
    (built : Built list head towers) (member : tower ∈ towers) :
    (list.node tower.address).bind Node.value = some tower.value := by
  rcases built.stands tower member with ⟨node, stands⟩
  rw [stands.found]
  exact stands.value

/-- Every tower is linked on the lowest level. -/
theorem Shape.ground (shape : Shape list head towers) :
    onLevel list.heightOf (towers.map Tower.address) 0 =
      towers.map Tower.address := by
  unfold onLevel
  rw [List.filter_eq_self]
  intro x member
  rcases List.mem_map.mp member with ⟨tower, inside, rfl⟩
  rw [shape.built.heightOf inside]
  simpa using (shape.heights tower inside).1

theorem Shape.distinct (shape : Shape list head towers) :
    Distinct (equal list.cmp) (towers.map Tower.pair) := by
  unfold Distinct
  rw [List.pairwise_map]
  refine shape.sorted.imp ?_
  intro left right less
  have different : list.cmp left.key.content right.key.content ≠ 0 := by
    omega
  exact decide_eq_false different

/-! ## Searching -/

/-- The towers in front of a key, and those from the key on. -/
structure Splits
    (list : Skip K V) (key : K) (before after : List (Tower K V)) :
    Prop where
  below : ∀ tower ∈ before, list.cmp tower.key.content key < 0
  notBelow : ∀ tower ∈ after, ¬ list.cmp tower.key.content key < 0

theorem Shape.split
    (shape : Shape list head towers) (order : TotalOrder list.cmp)
    (key : K) :
    ∃ before after, towers = before ++ after ∧
      Splits list key before after := by
  have sorted := shape.sorted
  clear shape
  induction towers with
  | nil => exact ⟨[], [], rfl, by simp, by simp⟩
  | cons first rest induction =>
      rcases List.pairwise_cons.mp sorted with ⟨least, sorted⟩
      by_cases less : list.cmp first.key.content key < 0
      · rcases induction sorted with ⟨before, after, rfl, splits⟩
        refine ⟨first :: before, after, rfl, ?_, splits.notBelow⟩
        intro tower member
        rcases List.mem_cons.mp member with rfl | inside
        · exact less
        · exact splits.below tower inside
      · refine ⟨[], first :: rest, rfl, by simp, ?_⟩
        intro tower member
        rcases List.mem_cons.mp member with rfl | inside
        · exact less
        · intro below
          exact less (order.lt_trans (least tower inside) below)

/-- The last nodes in front of a key. -/
def Skip.last
    (list : Skip K V) (head : Nat) (before : List (Tower K V)) :
    Nat → Nat :=
  lastBefore head list.heightOf (before.map Tower.address)

/-- What a search for a key finds. -/
theorem Shape.search
    (shape : Shape list head (before ++ after))
    (splits : Splits list key before after) :
    list.descend key list.level head [] =
        some (list.last head before 0,
          (List.range list.level).map (list.last head before)) ∧
      list.forward 0 (list.last head before 0) =
        some (after.head?.map Tower.address) := by
  have chained := shape.chained
  rw [List.map_append] at chained
  have passes : ∀ x ∈ before.map Tower.address,
      list.below key x = some true := by
    intro x member
    rcases List.mem_map.mp member with ⟨tower, inside, rfl⟩
    unfold Skip.below
    rw [shape.built.compare (List.mem_append_left _ inside)]
    simpa using splits.below tower inside
  have stops : ∀ x ∈ after.map Tower.address,
      list.below key x = some false := by
    intro x member
    rcases List.mem_map.mp member with ⟨tower, inside, rfl⟩
    unfold Skip.below
    rw [shape.built.compare (List.mem_append_right _ inside)]
    simpa using splits.notBelow tower inside
  have enough : (before.map Tower.address).length < list.steps := by
    have size := shape.built.length
    rw [List.length_append] at size
    rw [List.length_map, Skip.steps]
    omega
  have positive := shape.positive
  constructor
  · rw [descend_eq_library, descend_eq chained passes stops enough list.level
      shape.bounded head [] (Or.inl rfl), if_neg (by omega),
      List.append_nil]
    rfl
  · have follows := chained 0 (by have := shape.bounded; omega)
    have ground := shape.ground
    rw [List.map_append] at ground
    rw [onLevel_append] at follows ground
    have reads := follows.suffix.link_eq
    have later :
        onLevel list.heightOf (after.map Tower.address) 0 =
          after.map Tower.address := by
      unfold onLevel
      rw [List.filter_eq_self]
      intro x member
      rcases List.mem_map.mp member with ⟨tower, inside, rfl⟩
      have here := List.mem_append_right before inside
      rw [shape.built.heightOf here]
      simpa using (shape.heights tower here).1
    rw [later, List.head?_map] at reads
    exact reads

/-- A key is either stored, right behind the smaller ones, or missing. -/
theorem Shape.hit_or_miss
    (shape : Shape list head towers) (order : TotalOrder list.cmp)
    (key : K) :
    (∃ before tower after, towers = before ++ tower :: after ∧
        Splits list key before (tower :: after) ∧
        list.cmp tower.key.content key = 0) ∨
      ∃ before after, towers = before ++ after ∧
        Splits list key before after ∧
        ∀ tower ∈ before ++ after,
          equal list.cmp tower.key.content key = false := by
  rcases shape.split order key with ⟨before, after, rfl, splits⟩
  cases after with
  | nil =>
      refine Or.inr ⟨before, [], rfl, splits, ?_⟩
      intro tower member
      rw [List.append_nil] at member
      have less := splits.below tower member
      exact decide_eq_false (by omega)
  | cons first rest =>
      by_cases same : list.cmp first.key.content key = 0
      · exact Or.inl ⟨before, first, rest, rfl, splits, same⟩
      · refine Or.inr ⟨before, first :: rest, rfl, splits, ?_⟩
        intro tower member
        apply decide_eq_false
        intro matching
        rcases List.mem_append.mp member with inFront | behind
        · have less := splits.below tower inFront
          omega
        · rcases List.mem_cons.mp behind with rfl | later
          · exact same matching
          · have sorted := (List.pairwise_append.mp shape.sorted).2.1
            have least := (List.pairwise_cons.mp sorted).1 tower later
            rw [order.congr_right matching] at least
            exact splits.notBelow first List.mem_cons_self least

theorem Shape.holdsKey_hit
    (shape : Shape list head (before ++ tower :: after))
    (same : list.cmp tower.key.content key = 0) :
    list.holdsKey key (some tower.address) = some true := by
  unfold Skip.holdsKey
  dsimp only
  rw [shape.built.compare
    (List.mem_append_right _ List.mem_cons_self), Option.map_some, same]
  rfl

theorem Shape.holdsKey_miss
    (shape : Shape list head (before ++ after))
    (missing : ∀ tower ∈ before ++ after,
      equal list.cmp tower.key.content key = false) :
    list.holdsKey key (after.head?.map Tower.address) = some false := by
  cases after with
  | nil => rfl
  | cons first rest =>
      have member : first ∈ before ++ first :: rest :=
        List.mem_append_right _ List.mem_cons_self
      have different := missing first member
      unfold Skip.holdsKey
      dsimp only [List.head?_cons, Option.map_some]
      rw [shape.built.compare member, Option.map_some]
      exact congrArg some different

/-- `cu_SkipList_find` looks the key up among the stored pairs. -/
theorem Shape.find_eq
    (shape : Shape list head towers) (order : TotalOrder list.cmp)
    (key : K) :
    list.find key =
      some (lookup (equal list.cmp) (towers.map Tower.pair) key) := by
  rcases shape.hit_or_miss order key with
    ⟨before, tower, after, rfl, splits, same⟩ |
      ⟨before, after, rfl, splits, missing⟩
  · have search := shape.search splits
    have member : tower ∈ before ++ tower :: after :=
      List.mem_append_right _ List.mem_cons_self
    have equals : equal list.cmp tower.pair.1 key = true :=
      decide_eq_true same
    have found := lookup_of_mem order.identifies shape.distinct
      (List.mem_map_of_mem member) equals
    unfold Skip.find
    rw [shape.built.start]
    dsimp only
    rw [search.1]
    dsimp only
    rw [search.2]
    dsimp only [List.head?_cons, Option.map_some]
    rw [shape.holdsKey_hit same]
    dsimp only
    rw [shape.built.valueCell member, found]
    rfl
  · have search := shape.search splits
    have none' :
        lookup (equal list.cmp) ((before ++ after).map Tower.pair) key =
          none := by
      rw [lookup_eq_none]
      intro entry member
      rcases List.mem_map.mp member with ⟨tower, inside, rfl⟩
      exact missing tower inside
    have holds := shape.holdsKey_miss missing
    unfold Skip.find
    rw [shape.built.start]
    dsimp only
    rw [search.1]
    dsimp only
    rw [search.2]
    dsimp only
    rw [holds, none']

/-! ## Iterating -/

/-- One call of `cu_SkipList_iter` moves to the next tower. -/
theorem Shape.iter_eq
    (shape : Shape list head towers) {start : Nat} {node : Option Nat}
    {rest : List (Tower K V)}
    (from' : node.or list.head = some start)
    (members : ∀ tower ∈ rest, tower ∈ towers)
    (follows : Follows (list.forward 0) start (rest.map Tower.address)) :
    list.iter node =
      some (rest.head?.map fun tower =>
        (tower.address, tower.key.content, tower.value.content)) := by
  unfold Skip.iter
  rw [from']
  dsimp only
  cases rest with
  | nil =>
      have reads : list.forward 0 start = some none := follows
      rw [reads]
      rfl
  | cons tower rest =>
      have reads : list.forward 0 start = some (some tower.address) :=
        follows.1
      rcases shape.built.stands tower
        (members tower List.mem_cons_self) with ⟨found, stands⟩
      rw [reads]
      dsimp only
      rw [stands.found]
      dsimp only
      rw [stands.key, stands.value]
      rfl

theorem Shape.iterateFrom_eq
    (shape : Shape list head towers) {start : Nat} {node : Option Nat}
    {calls : Nat} {rest : List (Tower K V)}
    (from' : node.or list.head = some start)
    (members : ∀ tower ∈ rest, tower ∈ towers)
    (follows : Follows (list.forward 0) start (rest.map Tower.address))
    (enough : rest.length < calls) :
    list.iterateFrom calls node = some (rest.map Tower.pair) := by
  induction calls generalizing start node rest with
  | zero => omega
  | succ calls induction =>
      unfold Skip.iterateFrom
      rw [shape.iter_eq from' members follows]
      cases rest with
      | nil => rfl
      | cons tower rest =>
          rw [List.length_cons] at enough
          have later :
              list.iterateFrom calls (some tower.address) =
                some (rest.map Tower.pair) :=
            induction rfl
              (fun other inside => members other
                (List.mem_cons_of_mem _ inside))
              follows.2 (by omega)
          rw [List.head?_cons, Option.map_some]
          dsimp only
          rw [later]
          rfl

/-- `cu_SkipList_iter` yields the stored pairs in their order. -/
theorem Shape.iterate_eq (shape : Shape list head towers) :
    list.iterate = some (towers.map Tower.pair) := by
  have follows := shape.chained 0 (by
    have := shape.positive
    have := shape.bounded
    omega)
  rw [shape.ground] at follows
  refine shape.iterateFrom_eq ?_ (fun _ member => member) follows ?_
  · rw [Option.none_or]
    exact shape.built.start
  · have size := shape.built.length
    unfold Skip.steps
    omega

/-! ## Levels -/

/-- The nodes that are linked on a level. -/
def Skip.chain (list : Skip K V) (level : Nat) : Option (List Nat) :=
  list.head.bind (collect (list.forward level) list.steps)

theorem Shape.chain_eq
    (shape : Shape list head towers) {level : Nat}
    (inside : level < list.maxLevel) :
    list.chain level =
      some (onLevel list.heightOf (towers.map Tower.address) level) := by
  unfold Skip.chain
  rw [shape.built.start, Option.bind_some]
  apply collect_eq (shape.chained level inside)
  refine lt_of_le_of_lt onLevel_length_le ?_
  rw [List.length_map, Skip.steps, shape.built.length]
  omega

/-- Each chain is a part of the one below it. -/
theorem Shape.chain_sublist
    (shape : Shape list head towers) {level : Nat}
    (inside : level + 1 < list.maxLevel) :
    ∃ upper lower,
      list.chain (level + 1) = some upper ∧
        list.chain level = some lower ∧ upper.Sublist lower :=
  ⟨_, _, shape.chain_eq inside, shape.chain_eq (by omega),
    onLevel_sublist_lower⟩

end Libcute.Collection.SkipList
