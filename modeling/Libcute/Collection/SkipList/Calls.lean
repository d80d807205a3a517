import Libcute.Collection.SkipList.Invariant

/-!
# The calls of the skip list

Each call is described by what it does to the towers and to the effects.
Growing the present level before an allocation that fails does no harm: no
tower reaches the new levels, so their links are those of an empty chain.
-/

namespace Libcute.Collection.SkipList

open Libcute.Core.Interface
open Libcute.Core.Size
open Libcute.Library
open Libcute.Library.AssocList
open Libcute.Library.LevelChains

variable {K V : Type} {list list' list'' : Skip K V} {key : K} {value : V}
  {head : Nat} {towers before after : List (Tower K V)}
  {tower : Tower K V} {grants : Grants}

/-- Effects that follow others. -/
def Effects.add
    (effects : Effects K V) (keys : List K) (values : List V)
    (obtained released : List Slice) : Effects K V :=
  ⟨keys ++ effects.keys, values ++ effects.values,
    obtained ++ effects.obtained, released ++ effects.released⟩

theorem Effects.add_add
    (effects : Effects K V) (keys keys' : List K) (values values' : List V)
    (obtained obtained' released released' : List Slice) :
    (effects.add keys values obtained released).add keys' values' obtained'
        released' =
      effects.add (keys' ++ keys) (values' ++ values)
        (obtained' ++ obtained) (released' ++ released) := by
  unfold Effects.add
  simp only [List.append_assoc]

/-- What no call changes. -/
structure SameSetup (list list' : Skip K V) : Prop where
  maxLevel : list'.maxLevel = list.maxLevel
  cmp : list'.cmp = list.cmp
  keyLayout : list'.keyLayout = list.keyLayout
  valueLayout : list'.valueLayout = list.valueLayout
  keyDestructor : list'.keyDestructor = list.keyDestructor
  valueDestructor : list'.valueDestructor = list.valueDestructor

theorem SameSetup.trans
    {list'' : Skip K V} (first : SameSetup list list')
    (second : SameSetup list' list'') : SameSetup list list'' :=
  ⟨second.maxLevel.trans first.maxLevel, second.cmp.trans first.cmp,
    second.keyLayout.trans first.keyLayout,
    second.valueLayout.trans first.valueLayout,
    second.keyDestructor.trans first.keyDestructor,
    second.valueDestructor.trans first.valueDestructor⟩

/-- The blocks of a tower. -/
def Tower.blocks (list : Skip K V) (tower : Tower K V) : List Slice :=
  [⟨tower.key.ptr, list.keyLayout.elemSize⟩,
    ⟨tower.value.ptr, list.valueLayout.elemSize⟩,
    ⟨tower.address, nodeSize tower.height⟩]

/-! ## Overwriting a value -/

theorem node_setValue (x y : Nat) (cell : Cell V) (effects : Effects K V) :
    ({ list with
        effects := effects
        heap := KeyedList.update Node.address list.heap x fun node =>
          { node with value := some cell } } : Skip K V).node y =
      (list.node y).map fun node =>
        if y = x then { node with value := some cell } else node := by
  unfold Skip.node
  apply KeyedList.find_update_eq
  intro node
  rfl

/-- Another value in the cell of a tower. -/
theorem Shape.setValue
    (shape : Shape list head (before ++ tower :: after))
    (cell : Cell V) (effects : Effects K V) :
    Shape
      { list with
        effects := effects
        heap := KeyedList.update Node.address list.heap tower.address
          fun node => { node with value := some cell } }
      head (before ++ { tower with value := cell } :: after) := by
  have nodes := fun y =>
    @node_setValue _ _ list tower.address y cell effects
  generalize changed :
    ({ list with
        effects := effects
        heap := KeyedList.update Node.address list.heap tower.address
          fun node => { node with value := some cell } } : Skip K V) =
      list' at nodes ⊢
  have forward : list'.forward = list.forward := by
    funext level y
    unfold Skip.forward
    rw [nodes]
    cases list.node y with
    | none => rfl
    | some node =>
        rw [Option.map_some]
        split_ifs <;> rfl
  have heights : list'.heightOf = list.heightOf := by
    funext y
    unfold Skip.heightOf
    rw [nodes]
    cases list.node y with
    | none => rfl
    | some node =>
        rw [Option.map_some, Option.map_some, Option.map_some]
        split_ifs <;> rfl
  have sameAddresses :
      (before ++ { tower with value := cell } :: after).map Tower.address =
        (before ++ tower :: after).map Tower.address := by
    rw [List.map_append, List.map_append, List.map_cons, List.map_cons]
  have heapAddresses :
      list'.heap.map Node.address = list.heap.map Node.address := by
    rw [← changed]
    exact KeyedList.map_update Node.address fun _ => rfl
  have apart := shape.built.nodup
  rw [List.map_append, List.map_cons, nodup_middle] at apart
  have elsewhere : ∀ y ∈ head :: (before.map Tower.address ++
      after.map Tower.address), list'.node y = list.node y := by
    intro y member
    have other : y ≠ tower.address := by
      rintro rfl
      exact (List.nodup_cons.mp apart).1 member
    rw [nodes]
    cases list.node y with
    | none => rfl
    | some node => rw [Option.map_some, if_neg other]
  have kept : ∀ other ∈ before ++ after,
      ∃ node, Stands list' other node := by
    intro other member
    have inside : other ∈ before ++ tower :: after := by
      rw [List.mem_append] at member ⊢
      exact member.imp_right (List.mem_cons_of_mem _)
    rcases shape.built.stands other inside with ⟨node, stands⟩
    refine ⟨node, stands.congr (elsewhere _ ?_)⟩
    rw [← List.map_append]
    exact List.mem_cons_of_mem _ (List.mem_map_of_mem member)
  have member : tower ∈ before ++ tower :: after :=
    List.mem_append_right _ List.mem_cons_self
  have fields : list'.head = list.head ∧ list'.level = list.level ∧
      list'.maxLevel = list.maxLevel ∧ list'.cmp = list.cmp ∧
      list'.keyLayout = list.keyLayout ∧
      list'.valueLayout = list.valueLayout := by
    rw [← changed]
    exact ⟨rfl, rfl, rfl, rfl, rfl, rfl⟩
  rcases fields with
    ⟨start, level, maxLevel, cmp, keyLayout, valueLayout⟩
  constructor
  · refine ⟨start.trans shape.built.start, ?_, ?_, ?_, ?_⟩
    · unfold KeyedList.Unique
      rw [heapAddresses]
      exact shape.built.unique
    · rw [heapAddresses, sameAddresses]
      exact shape.built.addresses
    · rw [elsewhere head List.mem_cons_self, maxLevel]
      exact shape.built.headNode
    · intro other inside
      rcases List.mem_append.mp inside with front | back
      · exact kept other (List.mem_append_left _ front)
      · rcases List.mem_cons.mp back with rfl | back
        · rcases shape.built.stands tower member with ⟨node, stands⟩
          refine ⟨{ node with value := some cell }, ?_, stands.level,
            stands.links, stands.key, rfl⟩
          rw [nodes]
          dsimp only
          rw [stands.found, Option.map_some, if_pos rfl]
        · exact kept other (List.mem_append_right _ back)
  · rw [forward, heights, sameAddresses, maxLevel]
    exact shape.chained
  · rw [level]
    intro other inside
    rcases List.mem_append.mp inside with front | back
    · exact shape.heights other (List.mem_append_left _ front)
    · rcases List.mem_cons.mp back with rfl | back
      · exact shape.heights tower member
      · exact shape.heights other
          (List.mem_append_right _ (List.mem_cons_of_mem _ back))
  · rw [level]
    exact shape.positive
  · rw [level, maxLevel]
    exact shape.bounded
  · have sorted := shape.sorted
    rw [cmp]
    rw [List.pairwise_append, List.pairwise_cons] at sorted ⊢
    refine ⟨sorted.1, sorted.2.1, ?_⟩
    intro left inLeft right inRight
    rcases List.mem_cons.mp inRight with rfl | later
    · exact sorted.2.2 left inLeft tower List.mem_cons_self
    · exact sorted.2.2 left inLeft right (List.mem_cons_of_mem _ later)
  · rw [keyLayout]
    exact shape.keyLayout
  · rw [valueLayout]
    exact shape.valueLayout
  · rw [maxLevel]
    exact shape.fits

/-- What an insertion does to a key that is stored. -/
theorem Shape.insert_hit
    (shape : Shape list head (before ++ tower :: after))
    (splits : Splits list key before (tower :: after))
    (same : list.cmp tower.key.content key = 0)
    (value : V) (grants : Grants) :
    ∃ list',
      list.insert key value grants = some (none, list') ∧
        Shape list' head
          (before ++
            { tower with value := ⟨tower.value.ptr, value⟩ } :: after) ∧
        SameSetup list list' ∧
        list'.heap.length = list.heap.length ∧
        list'.effects = list.effects.add []
          (if list.valueDestructor = true then [tower.value.content]
            else []) [] [] := by
  have search := shape.search splits
  have member : tower ∈ before ++ tower :: after :=
    List.mem_append_right _ List.mem_cons_self
  have inserts :
      list.insert key value grants =
        some (none, { list.destructValue tower.value with
          heap := KeyedList.update Node.address
            (list.destructValue tower.value).heap tower.address fun node =>
              { node with value := some ⟨tower.value.ptr, value⟩ } }) := by
    unfold Skip.insert
    rw [if_neg shape.keyLayout, if_neg shape.valueLayout,
      shape.built.start]
    dsimp only
    rw [search.1]
    dsimp only
    rw [search.2]
    dsimp only [List.head?_cons, Option.map_some]
    rw [shape.holdsKey_hit same]
    dsimp only
    unfold Skip.overwrite
    rw [shape.built.valueCell member]
    rfl
  refine ⟨_, inserts, ?_, ?_, ?_, ?_⟩
  · unfold Skip.destructValue
    split_ifs
    · exact shape.setValue ⟨tower.value.ptr, value⟩ _
    · exact shape.setValue ⟨tower.value.ptr, value⟩ list.effects
  · unfold Skip.destructValue
    split_ifs <;> exact ⟨rfl, rfl, rfl, rfl, rfl, rfl⟩
  · unfold Skip.destructValue
    split_ifs <;> exact List.length_map _
  · unfold Skip.destructValue
    split_ifs <;> rfl

/-! ## A new node -/

theorem alloc_create
    {size alignment : Nat} (grant : Option Nat)
    (sized : size ≠ 0) (aligned : alignment ≠ 0) :
    alloc grant (Layout.create size alignment) =
      grant.map fun ptr => ⟨ptr, size⟩ := by
  rw [Layout.create_of_pos sized aligned]
  cases grant with
  | none => rfl
  | some ptr => simp [alloc, sized]

theorem nodeSize_eq
    {level : Nat} (fits : headerSize + level * pointerSize < sizeLimit) :
    nodeSize level = headerSize + level * pointerSize := by
  unfold nodeSize
  rw [sizeMul_eq (by omega), sizeAdd_eq fits]

theorem clearForward_eq
    {level : Nat} (fits : headerSize + level * pointerSize < sizeLimit)
    (ptr : Nat) :
    clearForward ⟨ptr, nodeSize level⟩ level =
      some (List.replicate level none) := by
  unfold clearForward
  rw [nodeSize_eq fits, if_pos (le_refl _)]

/-- One of the blocks of a node is refused. -/
def Grants.Refused (grants : Grants) : Prop :=
  grants.node = none ∨ grants.key = none ∨ grants.value = none

/-- A node is allocated with its three blocks, or nothing is kept. -/
theorem allocNode_cases
    {level : Nat} (fits : headerSize + level * pointerSize < sizeLimit)
    (keyLayout : ¬ list.keyLayout.Invalid)
    (valueLayout : ¬ list.valueLayout.Invalid)
    (key : K) (value : V) (grants : Grants) :
    (∃ taken freed, grants.Refused ∧ freed.Perm taken ∧
        list.allocNode level key value grants =
          some (some .oom,
            { list with effects := list.effects.add [] [] taken freed },
            0)) ∨
      ∃ ptr k v, grants.node = some ptr ∧
        list.allocNode level key value grants =
          some (none,
            { list with
              heap := ⟨ptr, List.replicate level none, level,
                some ⟨k, key⟩, some ⟨v, value⟩⟩ :: list.heap
              effects := list.effects.add [] []
                [⟨v, list.valueLayout.elemSize⟩,
                  ⟨k, list.keyLayout.elemSize⟩, ⟨ptr, nodeSize level⟩] [] },
            ptr) := by
  have sized : nodeSize level ≠ 0 := by
    rw [nodeSize_eq fits]
    unfold headerSize
    omega
  unfold Layout.Invalid at keyLayout valueLayout
  rw [not_or] at keyLayout valueLayout
  unfold Skip.allocNode Grants.Refused
  rw [alloc_create grants.node sized (by decide)]
  cases grants.node with
  | none => exact Or.inl ⟨[], [], .inl rfl, List.Perm.refl _, rfl⟩
  | some ptr =>
      dsimp only [Option.map_some]
      rw [clearForward_eq fits]
      dsimp only [Skip.obtain]
      rw [alloc_create grants.key keyLayout.1 keyLayout.2]
      cases grants.key with
      | none =>
          exact Or.inl ⟨[⟨ptr, nodeSize level⟩], [⟨ptr, nodeSize level⟩],
            .inr (.inl rfl), List.Perm.refl _, rfl⟩
      | some k =>
          dsimp only [Option.map_some]
          rw [alloc_create grants.value valueLayout.1 valueLayout.2]
          cases grants.value with
          | none =>
              exact Or.inl
                ⟨[⟨k, list.keyLayout.elemSize⟩, ⟨ptr, nodeSize level⟩],
                  [⟨k, list.keyLayout.elemSize⟩, ⟨ptr, nodeSize level⟩],
                  .inr (.inr rfl), List.Perm.refl _, rfl⟩
          | some v => exact Or.inr ⟨ptr, k, v, rfl, rfl⟩

/-- A drawn level lies between one and the maximum. -/
theorem randomLevelLoop_bounds (room lvl : Nat) (state : Stream) :
    lvl ≤ (Skip.randomLevelLoop room lvl state).1 ∧
      (Skip.randomLevelLoop room lvl state).1 ≤ lvl + room := by
  induction room generalizing lvl state with
  | zero => exact ⟨le_refl _, le_refl _⟩
  | succ room induction =>
      unfold Skip.randomLevelLoop
      split_ifs
      · have bounds := induction (lvl + 1) fun i => state (i + 1)
        omega
      · exact ⟨le_refl _, Nat.le_add_right _ _⟩

/-- No tower reaches a level from the present one on. -/
theorem Shape.last_of_high
    (shape : Shape list head (before ++ after)) {level : Nat}
    (high : list.level ≤ level) : list.last head before level = head := by
  have vacant :
      onLevel list.heightOf (before.map Tower.address) level = [] := by
    unfold onLevel
    rw [List.filter_eq_nil_iff]
    intro x member
    rcases List.mem_map.mp member with ⟨tower, inside, rfl⟩
    have here := List.mem_append_left after inside
    rw [shape.built.heightOf here]
    have bound := (shape.heights tower here).2
    simp only [decide_eq_true_eq]
    omega
  unfold Skip.last lastBefore
  rw [vacant]
  rfl

/-- The present level may be any that no tower exceeds. -/
theorem Shape.withLevel
    (shape : Shape list head towers) {level : Nat}
    (heights : ∀ tower ∈ towers, tower.height ≤ level)
    (positive : 0 < level) (bounded : level ≤ list.maxLevel) :
    Shape { list with level := level } head towers where
  built := shape.built.congr rfl rfl rfl
  chained := shape.chained
  heights := fun tower member =>
    ⟨(shape.heights tower member).1, heights tower member⟩
  positive := positive
  bounded := bounded
  sorted := shape.sorted
  keyLayout := shape.keyLayout
  valueLayout := shape.valueLayout
  fits := shape.fits

theorem raise_fst (list : Skip K V) (head lvl : Nat) (update : List Nat) :
    (list.raise head lvl update).1 =
      { list with level := max list.level lvl } := by
  unfold Skip.raise
  split_ifs with higher
  · rw [Nat.max_eq_right (by omega)]
  · rw [Nat.max_eq_left (by omega)]

theorem raise_snd (list : Skip K V) (head lvl : Nat) (update : List Nat) :
    (list.raise head lvl update).2 =
      if list.level < lvl then
        update ++ List.replicate (lvl - list.level) head
      else
        update := by
  unfold Skip.raise
  split_ifs <;> rfl

/-- The entries of `update` below the drawn level. -/
theorem Shape.raise_update
    (shape : Shape list head (before ++ after)) (lvl : Nat) :
    (list.raise head lvl
        ((List.range list.level).map (list.last head before))).2.take lvl =
      (List.range' 0 lvl).map (list.last head before) := by
  rw [← List.range_eq_range']
  unfold Skip.raise
  split_ifs with higher
  · dsimp only
    have whole : lvl = list.level + (lvl - list.level) := by omega
    have extended :
        (List.range list.level).map (list.last head before) ++
            List.replicate (lvl - list.level) head =
          (List.range lvl).map (list.last head before) := by
      conv_rhs => rw [whole, List.range_add, List.map_append, List.map_map]
      congr 1
      symm
      rw [List.map_eq_replicate_iff.mpr]
      · rw [List.length_range]
      · intro offset _
        exact shape.last_of_high (Nat.le_add_right _ _)
    rw [extended]
    exact List.take_of_length_le (by simp)
  · dsimp only
    rw [← List.map_take, List.take_range, Nat.min_eq_left (by omega)]

/-- The heap after a node has been put into it. -/
def Skip.withNode
    (list : Skip K V) (node : Node K V) (effects : Effects K V) :
    Skip K V :=
  { list with heap := node :: list.heap, effects := effects }

theorem node_withNode (node : Node K V) (effects : Effects K V) (y : Nat) :
    (list.withNode node effects).node y =
      if y = node.address then some node else list.node y := by
  unfold Skip.node Skip.withNode KeyedList.find
  dsimp only
  rw [List.find?_cons]
  by_cases here : y = node.address
  · simp [here]
  · simp [here, Ne.symm here]

theorem Stands.withNode
    {node : Node K V} (stands : Stands list tower node) (new : Node K V)
    (effects : Effects K V) (apart : tower.address ≠ new.address) :
    Stands (list.withNode new effects) tower node :=
  stands.congr (by rw [node_withNode, if_neg apart])

/-- The new tower of an insertion. -/
def newTower
    (ptr lvl k v : Nat) (key : K) (value : V) : Tower K V :=
  ⟨ptr, lvl, ⟨k, key⟩, ⟨v, value⟩⟩

/-- The node of a new tower before it is linked. -/
def Tower.node (tower : Tower K V) : Node K V :=
  ⟨tower.address, List.replicate tower.height none, tower.height,
    some tower.key, some tower.value⟩

/-- A new node belongs to the heap, but not yet to a chain. -/
theorem Shape.withNode
    (shape : Shape list head (before ++ after))
    (fresh : tower.address ∉ list.heap.map Node.address)
    (effects : Effects K V) :
    Built (list.withNode tower.node effects) head
        (before ++ tower :: after) ∧
      (list.withNode tower.node effects).heightOf tower.address =
        tower.height ∧
      (∀ level, onLevel (list.withNode tower.node effects).heightOf
          (before.map Tower.address) level =
        onLevel list.heightOf (before.map Tower.address) level) ∧
      Partly (list.withNode tower.node effects) head
        (list.withNode tower.node effects).heightOf 0
        (before.map Tower.address ++
          tower.address :: after.map Tower.address)
        (before.map Tower.address ++ after.map Tower.address) := by
  have addresses := shape.built.addresses
  have apart : ∀ y ∈ head :: (before ++ after).map Tower.address,
      y ≠ tower.address := by
    rintro y member rfl
    exact fresh (addresses.mem_iff.mpr member)
  have nodes : ∀ y ∈ head :: (before ++ after).map Tower.address,
      (list.withNode tower.node effects).node y = list.node y := by
    intro y member
    rw [node_withNode]
    exact if_neg (apart y member)
  have own : (list.withNode tower.node effects).node tower.address =
      some tower.node := by
    rw [node_withNode]
    exact if_pos rfl
  have heights : ∀ y ∈ (before ++ after).map Tower.address,
      (list.withNode tower.node effects).heightOf y = list.heightOf y := by
    intro y member
    unfold Skip.heightOf
    rw [nodes y (List.mem_cons_of_mem _ member)]
  have inFront : ∀ {part : List Nat} (level : Nat),
      (∀ y ∈ part, y ∈ (before ++ after).map Tower.address) →
      onLevel (list.withNode tower.node effects).heightOf part level =
        onLevel list.heightOf part level := by
    intro part level inside
    unfold onLevel
    apply List.filter_congr
    intro y member
    rw [heights y (inside y member)]
  refine ⟨⟨shape.built.start, ?_, ?_, ?_, ?_⟩, ?_, ?_, ?_⟩
  · unfold KeyedList.Unique
    exact List.nodup_cons.mpr ⟨fresh, shape.built.unique⟩
  · rw [List.map_append, List.map_cons]
    refine (addresses.cons tower.address).trans ?_
    rw [List.map_append]
    refine (List.Perm.swap _ _ _).trans (List.Perm.cons _ ?_)
    exact List.perm_middle.symm
  · rw [nodes head List.mem_cons_self]
    exact shape.built.headNode
  · intro other member
    by_cases new : other = tower
    · subst other
      exact ⟨tower.node, own, rfl, List.length_replicate, rfl, rfl⟩
    · have inside : other ∈ before ++ after := by
        rw [List.mem_append, List.mem_cons] at member
        rw [List.mem_append]
        tauto
      rcases shape.built.stands other inside with ⟨node, stands⟩
      exact ⟨node, stands.withNode tower.node effects
        (apart _ (List.mem_cons_of_mem _ (List.mem_map_of_mem inside)))⟩
  · unfold Skip.heightOf
    rw [own]
    rfl
  · intro level
    apply inFront
    intro y member
    rw [List.map_append]
    exact List.mem_append_left _ member
  · intro level bounded
    rw [if_neg (Nat.not_lt_zero level), ← List.map_append,
      inFront level fun _ member => member]
    refine (shape.chained level bounded).congr ?_
    intro y member
    unfold Skip.forward
    rw [nodes]
    rcases List.mem_cons.mp member with rfl | inside
    · exact List.mem_cons_self
    · exact List.mem_cons_of_mem _ (mem_of_mem_onLevel inside).1

/-- Link a new tower at the place of its key. -/
theorem Shape.linkNew
    (shape : Shape list head (before ++ after))
    (order : TotalOrder list.cmp)
    (splits : Splits list tower.key.content before after)
    (missing : ∀ other ∈ before ++ after,
      equal list.cmp other.key.content tower.key.content = false)
    (tall : 0 < tower.height ∧ tower.height ≤ list.level)
    (fresh : tower.address ∉ list.heap.map Node.address)
    (effects : Effects K V) :
    ∃ list',
      (list.withNode tower.node effects).link tower.address
          ((List.range' 0 tower.height).map (list.last head before)) 0 =
        some list' ∧
      Shape list' head (before ++ tower :: after) ∧
      list' = { list.withNode tower.node effects with
        heap := list'.heap } := by
  rcases shape.withNode fresh effects with ⟨built, height, levels, partly⟩
  have member : tower ∈ before ++ tower :: after :=
    List.mem_append_right _ List.mem_cons_self
  have nodup := built.nodup
  rw [List.map_append, List.map_cons] at nodup
  have bounded : tower.height ≤
      (list.withNode tower.node effects).maxLevel :=
    tall.2.trans shape.bounded
  rcases partly.link built member height.symm bounded nodup tower.height
      (Nat.zero_add _) with
    ⟨list', links, chained, relinked⟩
  have lasts : list.last head before =
      lastBefore head (list.withNode tower.node effects).heightOf
        (before.map Tower.address) := by
    funext level
    unfold Skip.last lastBefore
    rw [levels]
  have rest := relinked.rest
  have fields : list'.level = list.level ∧
      list'.maxLevel = list.maxLevel ∧ list'.cmp = list.cmp ∧
      list'.keyLayout = list.keyLayout ∧
      list'.valueLayout = list.valueLayout := by
    rw [rest]
    exact ⟨rfl, rfl, rfl, rfl, rfl⟩
  rcases fields with ⟨level, maxLevel, cmp, keyLayout, valueLayout⟩
  refine ⟨list', ?_, ?_, rest⟩
  · rw [lasts]
    exact links
  · constructor
    · exact relinked.built
    · rw [relinked.heights, List.map_append, List.map_cons]
      exact chained
    · rw [level]
      intro other inside
      rw [List.mem_append, List.mem_cons] at inside
      rcases inside with front | rfl | back
      · exact shape.heights other (List.mem_append_left _ front)
      · exact tall
      · exact shape.heights other (List.mem_append_right _ back)
    · rw [level]
      exact shape.positive
    · rw [level, maxLevel]
      exact shape.bounded
    · have sorted := shape.sorted
      rw [cmp]
      rw [List.pairwise_append] at sorted ⊢
      refine ⟨sorted.1, ?_, ?_⟩
      · refine List.pairwise_cons.mpr ⟨?_, sorted.2.1⟩
        intro other behind
        have notBelow := splits.notBelow other behind
        have different :=
          of_decide_eq_false
            (missing other (List.mem_append_right _ behind))
        rw [order.swap]
        omega
      · intro left front right back
        rcases List.mem_cons.mp back with rfl | behind
        · exact splits.below left front
        · exact sorted.2.2 left front right behind
    · rw [keyLayout]
      exact shape.keyLayout
    · rw [valueLayout]
      exact shape.valueLayout
    · rw [maxLevel]
      exact shape.fits

/-- The address that the call would give to a node is not in use. -/
def Fresh (list : Skip K V) (grants : Grants) : Prop :=
  ∀ ptr, grants.node = some ptr → ptr ∉ list.heap.map Node.address

/-- A key that is missing gets a node behind the path of the search. -/
theorem Shape.insert_eq_insertNew
    (shape : Shape list head (before ++ after))
    (splits : Splits list key before after)
    (missing : ∀ tower ∈ before ++ after,
      equal list.cmp tower.key.content key = false) :
    list.insert key value grants =
      list.insertNew head
        ((List.range list.level).map (list.last head before))
        key value grants := by
  have search := shape.search splits
  have holds := shape.holdsKey_miss missing
  unfold Skip.insert
  rw [if_neg shape.keyLayout, if_neg shape.valueLayout, shape.built.start]
  dsimp only
  rw [search.1]
  dsimp only
  rw [search.2]
  dsimp only
  rw [holds]

/-- What an insertion does to a key that is missing. -/
theorem Shape.insert_miss
    (shape : Shape list head (before ++ after))
    (order : TotalOrder list.cmp)
    (splits : Splits list key before after)
    (missing : ∀ tower ∈ before ++ after,
      equal list.cmp tower.key.content key = false)
    (fresh : Fresh list grants) (value : V) :
    (∃ list' taken freed, grants.Refused ∧ freed.Perm taken ∧
        list.insert key value grants = some (some .oom, list') ∧
        Shape list' head (before ++ after) ∧ SameSetup list list' ∧
        list'.effects = list.effects.add [] [] taken freed) ∨
      ∃ list' tower taken, taken.Perm (tower.blocks list) ∧
        list.insert key value grants = some (none, list') ∧
        tower.pair = (key, value) ∧
        Shape list' head (before ++ tower :: after) ∧
        SameSetup list list' ∧
        list'.effects = list.effects.add [] [] taken [] := by
  rw [shape.insert_eq_insertNew splits missing]
  generalize drawn : list.randomLevel = draw
  have bounds :=
    randomLevelLoop_bounds (list.maxLevel - 1) 1 list.state
  have lvl : draw.1 =
      (Skip.randomLevelLoop (list.maxLevel - 1) 1 list.state).1 := by
    rw [← drawn]
    rfl
  have moved : draw.2 = { list with state := draw.2.state } := by
    rw [← drawn]
    rfl
  rw [← lvl] at bounds
  have positive := shape.positive
  have atMost := shape.bounded
  have drawnPositive : 0 < draw.1 := bounds.1
  have withinMax : draw.1 ≤ list.maxLevel := by omega
  have heights : ∀ tower ∈ before ++ after,
      tower.height ≤ max list.level draw.1 := fun tower member =>
    (shape.heights tower member).2.trans (Nat.le_max_left _ _)
  generalize raised :
    ({ list with level := max list.level draw.1, state := draw.2.state } :
      Skip K V) = high
  have raises :
      (draw.2.raise head draw.1
        ((List.range list.level).map (list.last head before))).1 =
        high := by
    rw [raise_fst, moved, ← raised]
  have updates :
      (draw.2.raise head draw.1
        ((List.range list.level).map (list.last head before))).2.take
          draw.1 =
        (List.range' 0 draw.1).map (high.last head before) := by
    have same := shape.raise_update draw.1
    rw [raise_snd] at same ⊢
    rw [moved, ← raised]
    exact same
  have shape' : Shape high head (before ++ after) := by
    rw [← raised]
    exact (shape.withEffects draw.2.state list.effects).withLevel heights
      (by omega) (max_le atMost withinMax)
  have setup : SameSetup list high ∧ high.effects = list.effects ∧
      high.heap = list.heap ∧ draw.1 ≤ high.level := by
    rw [← raised]
    exact ⟨⟨rfl, rfl, rfl, rfl, rfl, rfl⟩, rfl, rfl,
      Nat.le_max_right _ _⟩
  rcases setup with ⟨setup, effects, heap, tall⟩
  have fits : headerSize + draw.1 * pointerSize < sizeLimit := by
    have whole := shape.fits
    have scaled : draw.1 * pointerSize ≤ list.maxLevel * pointerSize :=
      Nat.mul_le_mul_right _ withinMax
    omega
  unfold Skip.insertNew
  rw [drawn]
  dsimp only
  rw [raises, updates]
  rcases allocNode_cases fits shape'.keyLayout shape'.valueLayout key value
      grants with
    ⟨taken, freed, refused, perm, fails⟩ | ⟨ptr, k, v, granted, allocates⟩
  · left
    rw [fails]
    refine ⟨_, taken, freed, refused, perm, rfl, ?_, ?_, ?_⟩
    · exact shape'.withEffects high.state _
    · exact setup.trans ⟨rfl, rfl, rfl, rfl, rfl, rfl⟩
    · rw [← effects]
  · right
    rw [allocates]
    dsimp only
    have splits' : Splits high
        (newTower ptr draw.1 k v key value).key.content before after := by
      constructor
      · rw [setup.cmp]
        exact splits.below
      · rw [setup.cmp]
        exact splits.notBelow
    rcases shape'.linkNew
        (by rw [setup.cmp]; exact order) splits'
        (by rw [setup.cmp]; exact missing) ⟨drawnPositive, tall⟩
        (by rw [heap]; exact fresh ptr granted)
        (high.effects.add [] []
          [⟨v, high.valueLayout.elemSize⟩, ⟨k, high.keyLayout.elemSize⟩,
            ⟨ptr, nodeSize draw.1⟩] []) with
      ⟨list', links, linked, rest⟩
    refine ⟨list', newTower ptr draw.1 k v key value,
      [⟨v, high.valueLayout.elemSize⟩, ⟨k, high.keyLayout.elemSize⟩,
        ⟨ptr, nodeSize draw.1⟩], ?_, ?_, rfl, linked, ?_, ?_⟩
    · unfold Tower.blocks newTower
      rw [setup.keyLayout, setup.valueLayout]
      exact List.Perm.swap _ _ _
    · exact congrArg _ links
    · rw [rest]
      exact setup.trans ⟨rfl, rfl, rfl, rfl, rfl, rfl⟩
    · rw [rest, ← effects]
      rfl

/-! ## Giving a node back -/

/-- What the destructors are called with for a tower. -/
def Skip.destroyedKeys (list : Skip K V) (towers : List (Tower K V)) :
    List K :=
  if list.keyDestructor = true then
    towers.map fun tower => tower.key.content
  else
    []

def Skip.destroyedValues (list : Skip K V) (towers : List (Tower K V)) :
    List V :=
  if list.valueDestructor = true then
    towers.map fun tower => tower.value.content
  else
    []

theorem SameSetup.destroyedKeys
    (setup : SameSetup list list') (towers : List (Tower K V)) :
    list'.destroyedKeys towers = list.destroyedKeys towers := by
  unfold Skip.destroyedKeys
  rw [setup.keyDestructor]

theorem SameSetup.destroyedValues
    (setup : SameSetup list list') (towers : List (Tower K V)) :
    list'.destroyedValues towers = list.destroyedValues towers := by
  unfold Skip.destroyedValues
  rw [setup.valueDestructor]

theorem SameSetup.blocks (setup : SameSetup list list') :
    Tower.blocks list' = Tower.blocks (K := K) (V := V) list := by
  funext tower
  unfold Tower.blocks
  rw [setup.keyLayout, setup.valueLayout]

/-- A list after nodes have been given back. -/
structure Discards
    (list list' : Skip K V) (towers : List (Tower K V))
    (keys : List K) (values : List V) (freed : List Slice) : Prop where
  ofKeys : keys.Perm (list.destroyedKeys towers)
  ofValues : values.Perm (list.destroyedValues towers)
  ofBlocks : freed.Perm (towers.flatMap (Tower.blocks list))
  rest : list' = { list with
    heap := list'.heap
    effects := list.effects.add keys values [] freed }

theorem destructKey_eq (list : Skip K V) (cell : Cell K) :
    list.destructKey cell =
      { list with
        effects := list.effects.add
          (if list.keyDestructor = true then [cell.content] else [])
          [] [] [] } := by
  unfold Skip.destructKey
  split_ifs <;> rfl

theorem destructValue_eq (list : Skip K V) (cell : Cell V) :
    list.destructValue cell =
      { list with
        effects := list.effects.add []
          (if list.valueDestructor = true then [cell.content] else [])
          [] [] } := by
  unfold Skip.destructValue
  split_ifs <;> rfl

theorem releaseNode_eq
    (list : Skip K V) (node : Node K V) (key : Cell K) (value : Cell V) :
    list.releaseNode node key value =
      { list with
        effects := list.effects.add [] [] []
          [⟨node.address, nodeSize node.level⟩,
            ⟨value.ptr, list.valueLayout.elemSize⟩,
            ⟨key.ptr, list.keyLayout.elemSize⟩] } :=
  rfl

theorem node_address {x : Nat} {node : Node K V}
    (found : list.node x = some node) : node.address = x :=
  (KeyedList.mem_of_find found).2

/-- Destroy the pair of a tower and erase its node. -/
theorem Built.discard
    (built : Built list head (before ++ tower :: after)) :
    ∃ list' freed,
      list.discard tower.address = some list' ∧
        Built list' head (before ++ after) ∧
        (∀ y, y ≠ tower.address → list'.node y = list.node y) ∧
        Discards list list' [tower] (list.destroyedKeys [tower])
          (list.destroyedValues [tower]) freed := by
  have member : tower ∈ before ++ tower :: after :=
    List.mem_append_right _ List.mem_cons_self
  rcases built.stands tower member with ⟨node, stands⟩
  have address := node_address stands.found
  have apart := built.nodup
  rw [List.map_append, List.map_cons, nodup_middle] at apart
  have discards :
      list.discard tower.address =
        some { list with
          heap := KeyedList.erase Node.address list.heap tower.address
          effects := list.effects.add (list.destroyedKeys [tower])
            (list.destroyedValues [tower]) []
            [⟨tower.address, nodeSize tower.height⟩,
              ⟨tower.value.ptr, list.valueLayout.elemSize⟩,
              ⟨tower.key.ptr, list.keyLayout.elemSize⟩] } := by
    unfold Skip.discard
    rw [stands.found]
    dsimp only
    rw [stands.key, stands.value]
    dsimp only
    rw [destructValue_eq, destructKey_eq, releaseNode_eq, stands.level,
      address, Effects.add_add, Effects.add_add]
    unfold Skip.destroyedKeys Skip.destroyedValues
    simp only [List.nil_append, List.append_nil, List.map_cons,
      List.map_nil]
  have others : ∀ y, y ≠ tower.address →
      KeyedList.find Node.address
          (KeyedList.erase Node.address list.heap tower.address) y =
        list.node y :=
    fun y different => KeyedList.find_erase_of_ne different
  refine ⟨_, (tower.blocks list).reverse, discards, ?_, others, ?_⟩
  · refine ⟨built.start, built.unique.erase _, ?_, ?_, ?_⟩
    · have erased := (KeyedList.perm_cons_erase stands.found).map
        Node.address
      rw [List.map_cons, address] at erased
      have split := built.addresses
      rw [List.map_append, List.map_cons] at split
      have front :
          (head :: (before.map Tower.address ++
              tower.address :: after.map Tower.address)).Perm
            (tower.address ::
              (head :: (before ++ after).map Tower.address)) := by
        rw [List.map_append]
        exact (List.perm_middle.cons head).trans (List.Perm.swap _ _ _)
      exact (erased.symm.trans (split.trans front)).cons_inv
    · have different : head ≠ tower.address := by
        intro same
        exact (List.nodup_cons.mp apart).1 (same ▸ List.mem_cons_self)
      rcases built.headNode with ⟨headNode, found, links⟩
      exact ⟨headNode, (others head different).trans found, links⟩
    · intro other inside
      have inside' : other ∈ before ++ tower :: after := by
        rw [List.mem_append] at inside ⊢
        exact inside.imp_right (List.mem_cons_of_mem _)
      have different : other.address ≠ tower.address := by
        intro same
        apply (List.nodup_cons.mp apart).1
        rw [← same, ← List.map_append]
        exact List.mem_cons_of_mem _ (List.mem_map_of_mem inside)
      rcases built.stands other inside' with ⟨node', stands'⟩
      exact ⟨node', stands'.congr (others _ different)⟩
  · refine ⟨List.Perm.refl _, List.Perm.refl _, ?_, rfl⟩
    rw [List.flatMap_singleton]
    exact List.reverse_perm _

/-- The loop that lowers the level stops above every tower. -/
theorem lower_spec
    (chained : Chained list.forward head list.maxLevel list.heightOf
      (towers.map Tower.address))
    (measured : ∀ tower ∈ towers,
      list.heightOf tower.address = tower.height)
    {level : Nat} (positive : 0 < level) (bounded : level ≤ list.maxLevel)
    (heights : ∀ tower ∈ towers, tower.height ≤ level) :
    ∃ level',
      list.lower head level = some level' ∧ 0 < level' ∧
        level' ≤ level ∧ ∀ tower ∈ towers, tower.height ≤ level' := by
  induction level with
  | zero => omega
  | succ level induction =>
      cases level with
      | zero => exact ⟨1, rfl, Nat.one_pos, le_refl _, heights⟩
      | succ level =>
          have follows := chained (level + 1) (by omega)
          unfold Skip.lower
          rw [follows.link_eq]
          cases nodes : onLevel list.heightOf
              (towers.map Tower.address) (level + 1) with
          | cons first rest =>
              exact ⟨level + 2, rfl, Nat.succ_pos _, le_refl _, heights⟩
          | nil =>
              have lower : ∀ tower ∈ towers, tower.height ≤ level + 1 := by
                intro tower member
                unfold onLevel at nodes
                rw [List.filter_eq_nil_iff] at nodes
                have low := nodes _ (List.mem_map_of_mem member)
                rw [measured tower member, decide_eq_true_eq] at low
                omega
              rcases induction (by omega) (by omega) lower with
                ⟨level', lowers, positive', atMost, heights'⟩
              exact ⟨level', lowers, positive', by omega, heights'⟩

theorem Shape.remove_miss
    (shape : Shape list head (before ++ after))
    (splits : Splits list key before after)
    (missing : ∀ tower ∈ before ++ after,
      equal list.cmp tower.key.content key = false) :
    list.remove key = some (some .invalid, list) := by
  have search := shape.search splits
  have holds := shape.holdsKey_miss missing
  unfold Skip.remove
  rw [shape.built.start]
  dsimp only
  rw [search.1]
  dsimp only
  rw [search.2]
  dsimp only
  rw [holds]

/-- What a removal does to a key that is stored. -/
theorem Shape.remove_hit
    (shape : Shape list head (before ++ tower :: after))
    (splits : Splits list key before (tower :: after))
    (same : list.cmp tower.key.content key = 0) :
    ∃ list' freed,
      list.remove key = some (none, list') ∧
        Shape list' head (before ++ after) ∧ SameSetup list list' ∧
        freed.Perm (tower.blocks list) ∧
        list'.effects = list.effects.add (list.destroyedKeys [tower])
          (list.destroyedValues [tower]) [] freed := by
  have search := shape.search splits
  have member : tower ∈ before ++ tower :: after :=
    List.mem_append_right _ List.mem_cons_self
  have kept : ∀ other ∈ before ++ after,
      other ∈ before ++ tower :: after := by
    intro other inside
    rw [List.mem_append] at inside ⊢
    exact inside.imp_right (List.mem_cons_of_mem _)
  have nodup := shape.built.nodup
  have chained := shape.chained
  rw [List.map_append, List.map_cons] at nodup chained
  have tall : list.heightOf tower.address ≤ list.level := by
    rw [shape.built.heightOf member]
    exact (shape.heights tower member).2
  have partly : Partly list head list.heightOf 0
      (before.map Tower.address ++ after.map Tower.address)
      (before.map Tower.address ++
        tower.address :: after.map Tower.address) := by
    intro level inside
    rw [if_neg (Nat.not_lt_zero _)]
    exact chained level inside
  rcases partly.unlink shape.built tall shape.bounded nodup list.level
      (Nat.zero_add _) with
    ⟨unlinked, unlinks, chained', relinked⟩
  have fields : unlinked.level = list.level ∧
      unlinked.maxLevel = list.maxLevel := by
    rw [relinked.rest]
    exact ⟨rfl, rfl⟩
  rw [← List.map_append, ← relinked.heights] at chained'
  have measured : ∀ other ∈ before ++ after,
      unlinked.heightOf other.address = other.height := by
    intro other inside
    rw [relinked.heights]
    exact shape.built.heightOf (kept other inside)
  rcases lower_spec chained' measured shape.positive
      (by rw [fields.2]; exact shape.bounded)
      (fun other inside => (shape.heights other (kept other inside)).2) with
    ⟨level', lowers, positive, lowered, heights⟩
  have built' : Built { unlinked with level := level' } head
      (before ++ tower :: after) :=
    relinked.built.congr rfl rfl rfl
  rcases built'.discard with
    ⟨list', freed, discards, built, others, discarded⟩
  have setup : SameSetup list { unlinked with level := level' } := by
    rw [relinked.rest]
    exact ⟨rfl, rfl, rfl, rfl, rfl, rfl⟩
  have effects : unlinked.effects = list.effects := by
    rw [relinked.rest]
  have away : ∀ y ∈ head :: (before ++ after).map Tower.address,
      list'.node y = unlinked.node y := by
    intro y inside
    apply others
    rintro rfl
    rw [nodup_middle, ← List.map_append] at nodup
    exact (List.nodup_cons.mp nodup).1 inside
  have removes : list.remove key = some (none, list') := by
    unfold Skip.remove
    rw [shape.built.start]
    dsimp only
    rw [search.1]
    dsimp only
    rw [search.2]
    dsimp only [List.head?_cons, Option.map_some]
    rw [shape.holdsKey_hit same]
    dsimp only
    have unlinks' :
        list.unlink tower.address
            ((List.range list.level).map (list.last head before)) 0 =
          some unlinked := by
      rw [List.range_eq_range']
      exact unlinks
    rw [unlinks']
    dsimp only
    rw [fields.1, lowers]
    dsimp only
    rw [discards]
    rfl
  have setup' : SameSetup list list' := by
    rw [discarded.rest]
    exact setup.trans ⟨rfl, rfl, rfl, rfl, rfl, rfl⟩
  have level : list'.level = level' := by
    rw [discarded.rest]
  refine ⟨list', freed, removes, ?_, ?_, ?_, ?_⟩
  · constructor
    · exact built
    · rw [setup'.maxLevel, ← fields.2]
      refine chained'.congr ?_ ?_
      · intro level y inside
        unfold Skip.forward
        rw [away y inside]
      · intro y inside
        unfold Skip.heightOf
        rw [away y (List.mem_cons_of_mem _ inside)]
    · rw [level]
      exact fun other inside =>
        ⟨(shape.heights other (kept other inside)).1, heights other inside⟩
    · rw [level]
      exact positive
    · rw [level, setup'.maxLevel]
      exact lowered.trans shape.bounded
    · rw [setup'.cmp]
      refine shape.sorted.sublist ?_
      exact (List.sublist_cons_self _ _).append_left _
    · rw [setup'.keyLayout]
      exact shape.keyLayout
    · rw [setup'.valueLayout]
      exact shape.valueLayout
    · rw [setup'.maxLevel]
      exact shape.fits
  · exact setup'
  · have blocks := discarded.ofBlocks
    rw [List.flatMap_singleton, setup.blocks] at blocks
    exact blocks
  · rw [discarded.rest]
    dsimp only
    rw [setup.destroyedKeys, setup.destroyedValues, effects]

/-! ## Destroying the list -/

theorem Discards.setup
    {keys : List K} {values : List V} {freed : List Slice}
    (discarded : Discards list list' towers keys values freed) :
    SameSetup list list' := by
  rw [discarded.rest]
  exact ⟨rfl, rfl, rfl, rfl, rfl, rfl⟩

theorem Discards.cons
    {keys keys' : List K} {values values' : List V}
    {freed freed' : List Slice}
    (first : Discards list list' [tower] keys values freed)
    (later : Discards list' list'' towers keys' values' freed') :
    Discards list list'' (tower :: towers) (keys' ++ keys)
      (values' ++ values) (freed' ++ freed) := by
  have setup := first.setup
  refine ⟨?_, ?_, ?_, ?_⟩
  · have keys := later.ofKeys.append first.ofKeys
    rw [setup.destroyedKeys] at keys
    refine keys.trans (List.perm_append_comm.trans ?_)
    unfold Skip.destroyedKeys
    split_ifs <;> exact List.Perm.refl _
  · have values := later.ofValues.append first.ofValues
    rw [setup.destroyedValues] at values
    refine values.trans (List.perm_append_comm.trans ?_)
    unfold Skip.destroyedValues
    split_ifs <;> exact List.Perm.refl _
  · have blocks := later.ofBlocks.append first.ofBlocks
    rw [setup.blocks, List.flatMap_singleton] at blocks
    rw [List.flatMap_cons]
    exact blocks.trans List.perm_append_comm
  · rw [later.rest, first.rest, Effects.add_add, List.append_nil]

/-- The loop that destroys the nodes from one on. -/
theorem Built.destroyFrom
    {fuel : Nat} (built : Built list head (tower :: towers))
    (follows : Follows (list.forward 0) tower.address
      (towers.map Tower.address))
    (enough : towers.length < fuel) :
    ∃ list' keys values freed,
      list.destroyFrom fuel (some tower.address) = some list' ∧
        Built list' head [] ∧
        Discards list list' (tower :: towers) keys values freed := by
  induction towers generalizing list tower fuel with
  | nil =>
      have positive : fuel ≠ 0 := by omega
      rcases Nat.exists_eq_add_one_of_ne_zero positive with ⟨fuel, rfl⟩
      have whole : Built list head ([] ++ [tower]) := built
      rcases whole.discard with
        ⟨list', freed, discards, built, -, discarded⟩
      refine ⟨list', _, _, freed, ?_, built, discarded⟩
      unfold Skip.destroyFrom
      rw [follows.link_eq, discards]
      dsimp only [List.map_nil, List.head?_nil]
      cases fuel <;> rfl
  | cons next towers induction =>
      rw [List.length_cons] at enough
      have positive : fuel ≠ 0 := by omega
      rcases Nat.exists_eq_add_one_of_ne_zero positive with ⟨fuel, rfl⟩
      have whole : Built list head ([] ++ tower :: next :: towers) := built
      rcases whole.discard with
        ⟨list', freed, discards, built', others, discarded⟩
      have apart := (List.nodup_cons.mp built.nodup).2
      rw [List.map_cons] at apart
      have follows' : Follows (list'.forward 0) next.address
          (towers.map Tower.address) := by
        refine follows.2.congr ?_
        intro y inside
        unfold Skip.forward
        rw [others y]
        rintro rfl
        exact (List.nodup_cons.mp apart).1 inside
      rcases induction built' follows' (Nat.lt_of_succ_lt_succ enough) with
        ⟨list'', keys, values, freed', destroys, empty, destroyed⟩
      refine ⟨list'', _, _, _, ?_, empty, discarded.cons destroyed⟩
      unfold Skip.destroyFrom
      rw [follows.link_eq, discards]
      exact destroys

/-- Destroying gives back every block, and destroys every stored pair. -/
theorem Shape.destroy_spec (shape : Shape list head towers) :
    ∃ list' keys values freed,
      list.destroy = some list' ∧ list'.heap = [] ∧
        keys.Perm (list.destroyedKeys towers) ∧
        values.Perm (list.destroyedValues towers) ∧
        freed.Perm (⟨head, nodeSize list.maxLevel⟩ ::
          towers.flatMap (Tower.blocks list)) ∧
        list'.effects = list.effects.add keys values [] freed := by
  have follows := shape.chained 0 (by
    have := shape.positive
    have := shape.bounded
    omega)
  rw [shape.ground] at follows
  have destroys : ∃ list' keys values freed,
      list.destroyFrom list.steps (towers.map Tower.address).head? =
          some list' ∧
        Built list' head [] ∧
        Discards list list' towers keys values freed := by
    cases towers with
    | nil =>
        refine ⟨list, [], [], [], ?_, shape.built, ?_, ?_, ?_, rfl⟩
        · exact Skip.destroyFrom.eq_1 list _
        · unfold Skip.destroyedKeys
          split_ifs <;> exact List.Perm.refl _
        · unfold Skip.destroyedValues
          split_ifs <;> exact List.Perm.refl _
        · exact List.Perm.refl _
    | cons tower towers =>
        refine shape.built.destroyFrom follows.2 ?_
        unfold Skip.steps
        rw [shape.built.length, List.length_cons]
        omega
  rcases destroys with
    ⟨list', keys, values, freed, destroys, empty, destroyed⟩
  have whole :
      list.destroy = some
        { list'.release ⟨head, nodeSize list'.maxLevel⟩ with
          heap := KeyedList.erase Node.address list'.heap head
          head := none
          level := 0
          maxLevel := 0 } := by
    unfold Skip.destroy
    rw [shape.built.start]
    dsimp only
    rw [follows.link_eq]
    dsimp only
    rw [destroys]
    rfl
  refine ⟨_, keys, values, ⟨head, nodeSize list.maxLevel⟩ :: freed, whole,
    ?_, destroyed.ofKeys, destroyed.ofValues,
    destroyed.ofBlocks.cons _, ?_⟩
  · rcases empty.headNode with ⟨node, found, -⟩
    have erased := (KeyedList.perm_cons_erase found).length_eq
    have counted := empty.length
    rw [List.length_nil] at counted
    rw [List.length_cons, counted] at erased
    exact List.length_eq_zero_iff.mp (Nat.succ.inj erased).symm
  · rw [destroyed.setup.maxLevel, destroyed.rest]
    rfl

end Libcute.Collection.SkipList
