import Libcute.Collection.SkipList.Calls
import Libcute.Library.Transition

/-!
# Runs of the skip list

The list refines a sorted finite map: `skipList_refines` reads the answers of
every run off the history of its changes, whatever levels are drawn and
whatever allocations are refused.

Besides the towers, the invariant accounts for every copy: what was stored is
in a tower or went to its destructor, and what was allocated is in a tower or
was given back.
-/

namespace Libcute.Collection.SkipList

open Libcute.Core.Interface
open Libcute.Core.Size
open Libcute.Library
open Libcute.Library.AssocList
open Libcute.Library.LevelChains
open Libcute.Library.Transition

variable {K V : Type} {list list' fresh : Skip K V} {key : K} {value : V}
  {head : Nat} {towers towers' before after : List (Tower K V)}
  {tower : Tower K V} {grants : Grants}
  {history : List (Event K V)}

/-- A call of the interface. -/
inductive Call (K V : Type) where
  | insert (key : K) (value : V) (grants : Grants)
  | remove (key : K)
  | find (key : K)

/-- A list and the changes that were made to it, the newest first. -/
structure Trace (K V : Type) where
  list : Skip K V
  history : List (Event K V)

/-- The list and the history after a call. -/
def Trace.step (trace : Trace K V) : Call K V → Trace K V
  | .insert key value grants =>
      match trace.list.insert key value grants with
      | some (none, list) => ⟨list, .stored key value :: trace.history⟩
      | some (some _, list) => ⟨list, trace.history⟩
      | none => trace
  | .remove key =>
      match trace.list.remove key with
      | some (none, list) => ⟨list, .removed key :: trace.history⟩
      | some (some _, list) => ⟨list, trace.history⟩
      | none => trace
  | .find _ => trace

/-- The allocator does not give out the block of a node. -/
def Permitted (trace : Trace K V) : Call K V → Prop
  | .insert _ _ grants => Fresh trace.list grants
  | .remove _ => True
  | .find _ => True

/-- What goes to the key destructor: nothing, if there is none. -/
def Skip.dueKeys (list : Skip K V) (keys : List K) : List K :=
  if list.keyDestructor = true then keys else []

/-- What goes to the value destructor. -/
def Skip.dueValues (list : Skip K V) (values : List V) : List V :=
  if list.valueDestructor = true then values else []

/--
The list is the sorted map of its history.  `same` holds for the keys that
compare as equal.
-/
structure Refines (same : K → K → Bool) (trace : Trace K V) : Prop where
  find : ∀ key,
    trace.list.find key = some (remembered same trace.history key)
  iterate : ∃ pairs,
    trace.list.iterate = some pairs ∧
      pairs.Perm (contents same trace.history) ∧
      pairs.Pairwise fun left right => trace.list.cmp left.1 right.1 < 0
  chains : ∀ level, level + 1 < trace.list.maxLevel →
    ∃ upper lower,
      trace.list.chain (level + 1) = some upper ∧
        trace.list.chain level = some lower ∧ upper.Sublist lower
  overwrites : ∀ key value grants old,
    remembered same trace.history key = some old →
      ∃ list', trace.list.insert key value grants = some (none, list') ∧
        list'.heap.length = trace.list.heap.length ∧
        list'.effects = trace.list.effects.add []
          (trace.list.dueValues [old]) [] []
  inserts : ∀ key value grants, Fresh trace.list grants →
    (trace.list.insert key value grants).isSome
  fails : ∀ key value grants error list', Fresh trace.list grants →
    trace.list.insert key value grants = some (some error, list') →
      error = .oom ∧ grants.Refused ∧
        list'.iterate = trace.list.iterate ∧
        (∀ sought, list'.find sought = trace.list.find sought) ∧
        ∃ taken freed, freed.Perm taken ∧
          list'.effects = trace.list.effects.add [] [] taken freed
  absent : ∀ key, remembered same trace.history key = none →
    trace.list.remove key = some (some .invalid, trace.list)
  removes : ∀ key old, remembered same trace.history key = some old →
    ∃ stored list' freed,
      trace.list.remove key = some (none, list') ∧
        same stored key = true ∧
        list'.effects = trace.list.effects.add
          (trace.list.dueKeys [stored]) (trace.list.dueValues [old])
          [] freed
  keys :
    (trace.list.dueKeys (storedKeys same trace.history)).Perm
      (trace.list.dueKeys ((contents same trace.history).map Prod.fst) ++
        trace.list.effects.keys)
  values :
    (trace.list.dueValues (storedValues trace.history)).Perm
      (trace.list.dueValues ((contents same trace.history).map Prod.snd) ++
        trace.list.effects.values)
  destroy : ∃ list',
    trace.list.destroy = some list' ∧ list'.heap = [] ∧
      list'.effects.keys.Perm
        (trace.list.dueKeys (storedKeys same trace.history)) ∧
      list'.effects.values.Perm
        (trace.list.dueValues (storedValues trace.history)) ∧
      list'.effects.released.Perm list'.effects.obtained

/-! ## The invariant of runs -/

/-- The towers hold what the history left, and every copy is accounted for. -/
structure Keeps
    (fresh list : Skip K V) (head : Nat) (towers : List (Tower K V))
    (history : List (Event K V)) : Prop where
  shape : Shape list head towers
  setup : SameSetup fresh list
  pairs : (towers.map Tower.pair).Perm (contents (equal fresh.cmp) history)
  keys :
    (list.dueKeys (storedKeys (equal fresh.cmp) history)).Perm
      (list.destroyedKeys towers ++ list.effects.keys)
  values :
    (list.dueValues (storedValues history)).Perm
      (list.destroyedValues towers ++ list.effects.values)
  blocks :
    list.effects.obtained.Perm
      (⟨head, nodeSize list.maxLevel⟩ ::
        towers.flatMap (Tower.blocks list) ++ list.effects.released)

theorem destroyedKeys_cons (tower : Tower K V) (towers : List (Tower K V)) :
    list.destroyedKeys (tower :: towers) =
      list.dueKeys [tower.key.content] ++ list.destroyedKeys towers := by
  unfold Skip.destroyedKeys Skip.dueKeys
  split_ifs <;> rfl

theorem destroyedValues_cons
    (tower : Tower K V) (towers : List (Tower K V)) :
    list.destroyedValues (tower :: towers) =
      list.dueValues [tower.value.content] ++
        list.destroyedValues towers := by
  unfold Skip.destroyedValues Skip.dueValues
  split_ifs <;> rfl

theorem dueKeys_cons (key : K) (keys : List K) :
    list.dueKeys (key :: keys) = list.dueKeys [key] ++ list.dueKeys keys := by
  unfold Skip.dueKeys
  split_ifs <;> rfl

theorem dueValues_cons (value : V) (values : List V) :
    list.dueValues (value :: values) =
      list.dueValues [value] ++ list.dueValues values := by
  unfold Skip.dueValues
  split_ifs <;> rfl

theorem destroyedKeys_perm (perm : towers.Perm towers') :
    (list.destroyedKeys towers).Perm (list.destroyedKeys towers') := by
  unfold Skip.destroyedKeys
  split_ifs
  · exact perm.map _
  · exact List.Perm.refl _

theorem destroyedValues_perm (perm : towers.Perm towers') :
    (list.destroyedValues towers).Perm (list.destroyedValues towers') := by
  unfold Skip.destroyedValues
  split_ifs
  · exact perm.map _
  · exact List.Perm.refl _

theorem SameSetup.dueKeys (setup : SameSetup list list') (keys : List K) :
    list'.dueKeys keys = list.dueKeys keys := by
  unfold Skip.dueKeys
  rw [setup.keyDestructor]

theorem SameSetup.dueValues
    (setup : SameSetup list list') (values : List V) :
    list'.dueValues values = list.dueValues values := by
  unfold Skip.dueValues
  rw [setup.valueDestructor]

/-- What the history says about a key is what the towers hold. -/
theorem Keeps.recall_eq
    (keeps : Keeps fresh list head towers history)
    (order : TotalOrder fresh.cmp) (key : K) :
    remembered (equal fresh.cmp) history key =
      lookup (equal fresh.cmp) (towers.map Tower.pair) key := by
  rw [← lookup_contents order.identifies]
  have distinct := keeps.shape.distinct
  rw [keeps.setup.cmp] at distinct
  exact lookup_perm order.identifies distinct keeps.pairs

/-- A key is in one tower and in the history, or in neither. -/
theorem Keeps.hit_or_miss
    (keeps : Keeps fresh list head towers history)
    (order : TotalOrder fresh.cmp) (key : K) :
    (∃ before tower after, towers = before ++ tower :: after ∧
        Splits list key before (tower :: after) ∧
        list.cmp tower.key.content key = 0 ∧
        remembered (equal fresh.cmp) history key =
          some tower.value.content) ∨
      ∃ before after, towers = before ++ after ∧
        Splits list key before after ∧
        (∀ tower ∈ before ++ after,
          equal list.cmp tower.key.content key = false) ∧
        remembered (equal fresh.cmp) history key = none := by
  have order' : TotalOrder list.cmp := by
    rw [keeps.setup.cmp]
    exact order
  have recalls := keeps.recall_eq order key
  rcases keeps.shape.hit_or_miss order' key with
    ⟨before, tower, after, rfl, splits, same⟩ |
      ⟨before, after, rfl, splits, missing⟩
  · refine Or.inl ⟨before, tower, after, rfl, splits, same, ?_⟩
    have distinct := keeps.shape.distinct
    rw [keeps.setup.cmp] at distinct same
    rw [recalls]
    exact lookup_of_mem order.identifies distinct
      (List.mem_map_of_mem
        (List.mem_append_right before List.mem_cons_self))
      (decide_eq_true same)
  · refine Or.inr ⟨before, after, rfl, splits, missing, ?_⟩
    rw [recalls, lookup_eq_none]
    intro entry member
    rcases List.mem_map.mp member with ⟨tower, inside, rfl⟩
    rw [← keeps.setup.cmp]
    exact missing tower inside

/-- The pairs of towers with one of them first. -/
theorem pairs_middle :
    ((before ++ tower :: after).map Tower.pair).Perm
      (tower.pair :: (before ++ after).map Tower.pair) :=
  List.perm_middle.map Tower.pair

theorem blocks_middle :
    ((before ++ tower :: after).flatMap (Tower.blocks list)).Perm
      (tower.blocks list ++
        (before ++ after).flatMap (Tower.blocks list)) :=
  List.perm_middle.flatMap_right _

/-! ## What every call keeps -/

/-- Storing a value over another one. -/
theorem Keeps.insert_hit
    (keeps : Keeps fresh list head (before ++ tower :: after) history)
    (order : TotalOrder fresh.cmp)
    (splits : Splits list key before (tower :: after))
    (same : list.cmp tower.key.content key = 0)
    (recalls : remembered (equal fresh.cmp) history key =
      some tower.value.content)
    (value : V) (grants : Grants) :
    ∃ list', list.insert key value grants = some (none, list') ∧
      Keeps fresh list' head
        (before ++ { tower with value := ⟨tower.value.ptr, value⟩ } :: after)
        (.stored key value :: history) := by
  rcases keeps.shape.insert_hit splits same value grants with
    ⟨list', inserts, shape, setup, -, effects⟩
  have whole := keeps.shape.distinct
  refine ⟨list', inserts, shape, keeps.setup.trans setup, ?_, ?_, ?_, ?_⟩
  · have pairs := pairs_middle.symm.trans keeps.pairs
    rw [keeps.setup.cmp] at same whole
    have first := whole.perm order.identifies pairs_middle
    refine pairs_middle.trans ?_
    refine (List.Perm.of_eq (insert_head order.identifies first
      (decide_eq_true same)).symm).trans ?_
    exact insert_perm pairs key value
  · rw [setup.dueKeys, setup.destroyedKeys, effects, storedKeys,
      recalls, Option.isSome_some, if_pos rfl]
    refine keeps.keys.trans (List.Perm.append_right _ ?_)
    refine (destroyedKeys_perm List.perm_middle).trans ?_
    refine List.Perm.trans ?_ (destroyedKeys_perm List.perm_middle).symm
    rw [destroyedKeys_cons, destroyedKeys_cons]
  · rw [setup.dueValues, setup.destroyedValues, effects, storedValues,
      dueValues_cons]
    have stored := keeps.values.trans
      ((destroyedValues_perm List.perm_middle).append_right _)
    have now := @destroyedValues_perm _ _ list _ _
      (@List.perm_middle _ { tower with
        value := ⟨tower.value.ptr, value⟩ } before after)
    rw [destroyedValues_cons] at stored now
    refine List.Perm.trans ?_ (now.append_right _).symm
    rw [List.append_assoc]
    refine List.Perm.append_left _ (stored.trans ?_)
    refine (List.perm_append_comm.append_right _).trans ?_
    rw [List.append_assoc]
    exact List.Perm.refl _
  · rw [setup.blocks, setup.maxLevel, effects]
    have sameBlocks :
        (before ++ { tower with
            value := ⟨tower.value.ptr, value⟩ } :: after).flatMap
              (Tower.blocks list) =
          (before ++ tower :: after).flatMap (Tower.blocks list) := by
      rw [List.flatMap_append, List.flatMap_append, List.flatMap_cons,
        List.flatMap_cons]
      rfl
    rw [sameBlocks]
    exact keeps.blocks

/-- Storing a new key, or failing to. -/
theorem Keeps.insert_miss
    (keeps : Keeps fresh list head (before ++ after) history)
    (order : TotalOrder fresh.cmp)
    (splits : Splits list key before after)
    (missing : ∀ tower ∈ before ++ after,
      equal list.cmp tower.key.content key = false)
    (recalls : remembered (equal fresh.cmp) history key = none)
    (unused : Fresh list grants) (value : V) :
    (∃ list' taken freed, grants.Refused ∧
        list.insert key value grants = some (some .oom, list') ∧
        Keeps fresh list' head (before ++ after) history ∧
        freed.Perm taken ∧
        list'.effects = list.effects.add [] [] taken freed) ∨
      ∃ list' towers',
        list.insert key value grants = some (none, list') ∧
        Keeps fresh list' head towers' (.stored key value :: history) := by
  have order' : TotalOrder list.cmp := by
    rw [keeps.setup.cmp]
    exact order
  rcases keeps.shape.insert_miss order' splits missing unused value with
    ⟨list', taken, freed, refused, balance, inserts, shape, setup,
        effects⟩ |
      ⟨list', tower, taken, balance, inserts, pair, shape, setup, effects⟩
  · refine Or.inl ⟨list', taken, freed, refused, inserts,
      ⟨shape, keeps.setup.trans setup, keeps.pairs, ?_, ?_, ?_⟩,
      balance, effects⟩
    · rw [setup.dueKeys, setup.destroyedKeys, effects]
      exact keeps.keys
    · rw [setup.dueValues, setup.destroyedValues, effects]
      exact keeps.values
    · rw [setup.blocks, setup.maxLevel, effects]
      refine (balance.symm.append keeps.blocks).trans ?_
      refine List.perm_append_comm.trans ?_
      rw [List.append_assoc]
      exact List.Perm.append_left _ List.perm_append_comm
  · refine Or.inr ⟨list', before ++ tower :: after, inserts,
      ⟨shape, keeps.setup.trans setup, ?_, ?_, ?_, ?_⟩⟩
    · refine pairs_middle.trans ?_
      rw [pair]
      have new : ∀ entry ∈ contents (equal fresh.cmp) history,
          equal fresh.cmp entry.1 key = false := by
        rw [← lookup_eq_none, lookup_contents order.identifies]
        exact recalls
      exact (keeps.pairs.cons _).trans
        (List.Perm.of_eq (insert_of_new new).symm)
    · rw [setup.dueKeys, setup.destroyedKeys, effects, storedKeys,
        recalls, Option.isSome_none, if_neg Bool.false_ne_true,
        dueKeys_cons]
      refine List.Perm.trans ?_
        ((destroyedKeys_perm List.perm_middle).symm.append_right _)
      have content : tower.key.content = key := congrArg Prod.fst pair
      rw [destroyedKeys_cons, content, List.append_assoc]
      exact List.Perm.append_left _ keeps.keys
    · rw [setup.dueValues, setup.destroyedValues, effects, storedValues,
        dueValues_cons]
      refine List.Perm.trans ?_
        ((destroyedValues_perm List.perm_middle).symm.append_right _)
      have content : tower.value.content = value :=
        congrArg Prod.snd pair
      rw [destroyedValues_cons, content, List.append_assoc]
      exact List.Perm.append_left _ keeps.values
    · rw [setup.blocks, setup.maxLevel, effects]
      refine (balance.append keeps.blocks).trans ?_
      refine List.Perm.trans ?_
        ((blocks_middle.symm.cons _).append_right _)
      rw [List.cons_append, List.cons_append, List.append_assoc]
      exact List.perm_middle

/-- Removing a key that is stored. -/
theorem Keeps.remove_hit
    (keeps : Keeps fresh list head (before ++ tower :: after) history)
    (order : TotalOrder fresh.cmp)
    (splits : Splits list key before (tower :: after))
    (same : list.cmp tower.key.content key = 0) :
    ∃ list' freed,
      list.remove key = some (none, list') ∧
        list'.effects = list.effects.add
          (list.dueKeys [tower.key.content])
          (list.dueValues [tower.value.content]) [] freed ∧
        Keeps fresh list' head (before ++ after)
          (.removed key :: history) := by
  rcases keeps.shape.remove_hit splits same with
    ⟨list', freed, removes, shape, setup, blocks, effects⟩
  refine ⟨list', freed, removes, effects, shape, keeps.setup.trans setup,
    ?_, ?_, ?_, ?_⟩
  · have whole := keeps.shape.distinct
    rw [keeps.setup.cmp] at same whole
    have first := whole.perm order.identifies pairs_middle
    have erased :=
      erase_head order.identifies first (decide_eq_true same)
    refine (List.Perm.of_eq erased.symm).trans ?_
    exact erase_perm (pairs_middle.symm.trans keeps.pairs) key
  · rw [setup.dueKeys, setup.destroyedKeys, effects, storedKeys]
    have stored := keeps.keys.trans
      ((destroyedKeys_perm List.perm_middle).append_right _)
    rw [destroyedKeys_cons] at stored
    refine stored.trans ((List.perm_append_comm.append_right _).trans ?_)
    rw [List.append_assoc]
    exact List.Perm.refl _
  · rw [setup.dueValues, setup.destroyedValues, effects, storedValues]
    have stored := keeps.values.trans
      ((destroyedValues_perm List.perm_middle).append_right _)
    rw [destroyedValues_cons] at stored
    refine stored.trans ((List.perm_append_comm.append_right _).trans ?_)
    rw [List.append_assoc]
    exact List.Perm.refl _
  · rw [setup.blocks, setup.maxLevel, effects]
    refine keeps.blocks.trans ?_
    refine ((blocks_middle.cons _).append_right _).trans ?_
    rw [List.cons_append, List.cons_append]
    refine List.Perm.cons _ ?_
    refine (List.perm_append_comm.append_right _).trans ?_
    rw [List.append_assoc]
    exact List.Perm.append_left _ (blocks.symm.append_right _)

/-- The step lemma: every call keeps the invariant. -/
theorem Keeps.step
    (keeps : Keeps fresh list head towers history)
    (order : TotalOrder fresh.cmp) {call : Call K V}
    (permitted : Permitted ⟨list, history⟩ call) :
    ∃ towers',
      Keeps fresh (Trace.step ⟨list, history⟩ call).list head towers'
        (Trace.step ⟨list, history⟩ call).history := by
  cases call with
  | insert key value grants =>
      unfold Trace.step
      dsimp only
      rcases keeps.hit_or_miss order key with
        ⟨before, tower, after, rfl, splits, same, recalls⟩ |
          ⟨before, after, rfl, splits, missing, recalls⟩
      · rcases keeps.insert_hit order splits same recalls value grants with
          ⟨list', inserts, kept⟩
        rw [inserts]
        exact ⟨_, kept⟩
      · rcases keeps.insert_miss order splits missing recalls permitted
            value with
          ⟨list', _, _, _, inserts, kept, _⟩ |
            ⟨list', towers', inserts, kept⟩
        · rw [inserts]
          exact ⟨_, kept⟩
        · rw [inserts]
          exact ⟨_, kept⟩
  | remove key =>
      unfold Trace.step
      dsimp only
      rcases keeps.hit_or_miss order key with
        ⟨before, tower, after, rfl, splits, same, recalls⟩ |
          ⟨before, after, rfl, splits, missing, recalls⟩
      · rcases keeps.remove_hit order splits same with
          ⟨list', _, removes, _, kept⟩
        rw [removes]
        exact ⟨_, kept⟩
      · rw [keeps.shape.remove_miss splits missing]
        exact ⟨_, keeps⟩
  | find key => exact ⟨towers, keeps⟩

/-! ## A new list -/

theorem create_cases
    {asInt : K → Int} {keyLayout valueLayout : Layout} {maxLevel : Nat}
    {cmp : Option (K → K → Int)} {keyDestructor valueDestructor : Bool}
    {state : Stream} {grant : Option Nat}
    (created : Skip.create asInt keyLayout valueLayout maxLevel cmp
      keyDestructor valueDestructor state grant = some (.ok fresh)) :
    ∃ mem : Slice,
      ¬ keyLayout.Invalid ∧ ¬ valueLayout.Invalid ∧ 0 < maxLevel ∧
        mem.length = nodeSize maxLevel ∧
        headerSize + maxLevel * pointerSize ≤ mem.length ∧
        fresh = {
          heap := [⟨mem.ptr, List.replicate maxLevel none, maxLevel,
            none, none⟩]
          head := some mem.ptr
          level := 1
          maxLevel := maxLevel
          cmp := cmp.getD (defaultCmp asInt)
          keyLayout := keyLayout
          valueLayout := valueLayout
          keyDestructor := keyDestructor
          valueDestructor := valueDestructor
          state := state
          effects := ⟨[], [], [mem], []⟩ } := by
  unfold Skip.create at created
  split_ifs at created with badKey badValue zero
  · simp at created
  · simp at created
  · simp at created
  · split at created
    · simp at created
    · rename_i mem allocated
      split at created
      · simp at created
      · rename_i forward cleared
        unfold clearForward at cleared
        split_ifs at cleared with inside
        cases cleared
        refine ⟨mem, badKey, badValue, Nat.pos_of_ne_zero zero, ?_, inside,
          ?_⟩
        · unfold alloc at allocated
          split at allocated
          · simp at allocated
          · split_ifs at allocated with sized
            cases allocated
            unfold Layout.create at sized ⊢
            split_ifs at sized ⊢ with invalid
            · simp at sized
            · rfl
        · simpa using created.symm

/-- A new list holds nothing. -/
theorem create_keeps
    {asInt : K → Int} {keyLayout valueLayout : Layout} {maxLevel : Nat}
    {cmp : Option (K → K → Int)} {keyDestructor valueDestructor : Bool}
    {state : Stream} {grant : Option Nat}
    (created : Skip.create asInt keyLayout valueLayout maxLevel cmp
      keyDestructor valueDestructor state grant = some (.ok fresh)) :
    ∃ head, Keeps fresh fresh head [] [] := by
  rcases create_cases created with
    ⟨mem, keyValid, valueValid, positive, length, inside, rfl⟩
  refine ⟨mem.ptr, ?_, ⟨rfl, rfl, rfl, rfl, rfl, rfl⟩,
    List.Perm.refl _, ?_, ?_, ?_⟩
  · constructor
    · refine ⟨rfl, ?_, List.Perm.refl _, ?_, by simp⟩
      · exact List.nodup_singleton _
      · refine ⟨_, by simp [Skip.node, KeyedList.find]; rfl, ?_⟩
        exact List.length_replicate
    · intro level below
      simp [onLevel, Follows, Skip.forward, Skip.node, KeyedList.find,
        below]
    · simp
    · exact Nat.one_pos
    · exact positive
    · exact List.Pairwise.nil
    · exact keyValid
    · exact valueValid
    · rw [length] at inside
      exact lt_of_le_of_lt inside (Nat.mod_lt _ (by decide))
  · unfold Skip.dueKeys Skip.destroyedKeys
    split_ifs <;> exact List.Perm.refl _
  · unfold Skip.dueValues Skip.destroyedValues
    split_ifs <;> exact List.Perm.refl _
  · rcases mem with ⟨ptr, size⟩
    dsimp only at length
    rw [length]
    exact List.Perm.refl _

/-! ## The main result -/

theorem contents_keys
    (keeps : Keeps fresh list head towers history) :
    (list.dueKeys ((contents (equal fresh.cmp) history).map Prod.fst)).Perm
      (list.destroyedKeys towers) := by
  have keys := (keeps.pairs.map Prod.fst).symm
  rw [List.map_map] at keys
  unfold Skip.dueKeys Skip.destroyedKeys
  split_ifs
  · exact keys
  · exact List.Perm.refl _

theorem contents_values
    (keeps : Keeps fresh list head towers history) :
    (list.dueValues
        ((contents (equal fresh.cmp) history).map Prod.snd)).Perm
      (list.destroyedValues towers) := by
  have values := (keeps.pairs.map Prod.snd).symm
  rw [List.map_map] at values
  unfold Skip.dueValues Skip.destroyedValues
  split_ifs
  · exact values
  · exact List.Perm.refl _

/-- What a list that keeps its history answers. -/
theorem Keeps.refines
    (keeps : Keeps fresh list head towers history)
    (order : TotalOrder fresh.cmp) :
    Refines (equal fresh.cmp) ⟨list, history⟩ := by
  have order' : TotalOrder list.cmp := by
    rw [keeps.setup.cmp]
    exact order
  constructor
  · intro key
    rw [keeps.recall_eq order, ← keeps.setup.cmp]
    exact keeps.shape.find_eq order' key
  · refine ⟨towers.map Tower.pair, keeps.shape.iterate_eq, keeps.pairs, ?_⟩
    rw [List.pairwise_map]
    exact keeps.shape.sorted
  · exact fun level inside => keeps.shape.chain_sublist inside
  · intro key value grants old recalled
    rcases keeps.hit_or_miss order key with
      ⟨before, tower, after, rfl, splits, same, recalls⟩ |
        ⟨before, after, rfl, splits, missing, recalls⟩
    · rcases keeps.shape.insert_hit splits same value grants with
        ⟨list', inserts, _, _, length, effects⟩
      rw [recalls] at recalled
      cases recalled
      exact ⟨list', inserts, length, effects⟩
    · rw [recalls] at recalled
      contradiction
  · intro key value grants unused
    rcases keeps.hit_or_miss order key with
      ⟨before, tower, after, rfl, splits, same, recalls⟩ |
        ⟨before, after, rfl, splits, missing, recalls⟩
    · rcases keeps.insert_hit order splits same recalls value grants with
        ⟨list', inserts, _⟩
      exact Option.isSome_of_eq_some inserts
    · rcases keeps.insert_miss order splits missing recalls unused value
        with ⟨list', _, _, _, inserts, _⟩ | ⟨list', towers', inserts, _⟩
      · exact Option.isSome_of_eq_some inserts
      · exact Option.isSome_of_eq_some inserts
  · intro key value grants error list' unused failed
    rcases keeps.hit_or_miss order key with
      ⟨before, tower, after, rfl, splits, same, recalls⟩ |
        ⟨before, after, rfl, splits, missing, recalls⟩
    · rcases keeps.insert_hit order splits same recalls value grants with
        ⟨other, inserts, _⟩
      dsimp only at failed
      rw [inserts] at failed
      simp at failed
    · rcases keeps.insert_miss order splits missing recalls unused value
        with ⟨other, taken, freed, refused, inserts, kept, balance,
            effects⟩ |
          ⟨other, towers', inserts, _⟩
      · dsimp only at failed
        rw [inserts] at failed
        cases failed
        refine ⟨rfl, refused, ?_, ?_, taken, freed, balance, effects⟩
        · dsimp only
          rw [kept.shape.iterate_eq, keeps.shape.iterate_eq]
        · intro sought
          have before' := keeps.shape.find_eq order' sought
          have after' := kept.shape.find_eq (by
            rw [kept.setup.cmp]
            exact order) sought
          dsimp only
          rw [before', after', kept.setup.cmp, keeps.setup.cmp]
      · dsimp only at failed
        rw [inserts] at failed
        simp at failed
  · intro key recalled
    rcases keeps.hit_or_miss order key with
      ⟨before, tower, after, rfl, splits, same, recalls⟩ |
        ⟨before, after, rfl, splits, missing, recalls⟩
    · rw [recalls] at recalled
      contradiction
    · exact keeps.shape.remove_miss splits missing
  · intro key old recalled
    rcases keeps.hit_or_miss order key with
      ⟨before, tower, after, rfl, splits, same, recalls⟩ |
        ⟨before, after, rfl, splits, missing, recalls⟩
    · rcases keeps.remove_hit order splits same with
        ⟨list', freed, removes, effects, _⟩
      rw [recalls] at recalled
      cases recalled
      rw [keeps.setup.cmp] at same
      exact ⟨tower.key.content, list', freed, removes,
        decide_eq_true same, effects⟩
    · rw [recalls] at recalled
      contradiction
  · exact keeps.keys.trans ((contents_keys keeps).symm.append_right _)
  · exact keeps.values.trans ((contents_values keeps).symm.append_right _)
  · rcases keeps.shape.destroy_spec with
      ⟨list', keys, values, freed, destroys, vacant, allKeys, allValues,
        allBlocks, effects⟩
    refine ⟨list', destroys, vacant, ?_, ?_, ?_⟩
    · rw [effects]
      exact (allKeys.append_right _).trans keeps.keys.symm
    · rw [effects]
      exact (allValues.append_right _).trans keeps.values.symm
    · rw [effects]
      exact (allBlocks.append_right _).trans keeps.blocks.symm

/-- The runs of a fresh list. -/
def Runs (fresh : Skip K V) : Trace K V → Prop :=
  Reachable (fun trace => trace = ⟨fresh, []⟩) Permitted Trace.step

/--
The main result: for every total order, every maximal level, all drawn
numbers and all refusals, the list refines the sorted map of its history.
-/
theorem skipList_refines
    {asInt : K → Int} {keyLayout valueLayout : Layout} {maxLevel : Nat}
    {cmp : Option (K → K → Int)} {keyDestructor valueDestructor : Bool}
    {state : Stream} {grant : Option Nat} {trace : Trace K V}
    (created : Skip.create asInt keyLayout valueLayout maxLevel cmp
      keyDestructor valueDestructor state grant = some (.ok fresh))
    (order : TotalOrder fresh.cmp) (run : Runs fresh trace) :
    Refines (equal fresh.cmp) trace := by
  have kept : ∃ head towers,
      Keeps fresh trace.list head towers trace.history := by
    refine Reachable.invariant
      (fun trace => ∃ head towers,
        Keeps fresh trace.list head towers trace.history) ?_ ?_ run
    · rintro _ rfl
      rcases create_keeps created with ⟨head, keeps⟩
      exact ⟨head, [], keeps⟩
    · rintro ⟨list, history⟩ call ⟨head, towers, keeps⟩ permitted
      rcases keeps.step order permitted with ⟨towers', kept⟩
      exact ⟨head, towers', kept⟩
  rcases kept with ⟨head, towers, keeps⟩
  exact keeps.refines order

/-- A new list with the default comparison and at most three levels. -/
def intList : Skip Int Nat where
  heap := [⟨64, [none, none, none], 3, none, none⟩]
  head := some 64
  level := 1
  maxLevel := 3
  cmp := defaultCmp id
  keyLayout := ⟨4, 4⟩
  valueLayout := ⟨8, 8⟩
  keyDestructor := true
  valueDestructor := true
  state := fun i => if i % 2 = 0 then 0 else 0xFFFF
  effects := ⟨[], [], [⟨64, 56⟩], []⟩

/-- One pair is stored, and another one is not. -/
def intTrace : Trace Int Nat :=
  Trace.step
    (Trace.step ⟨intList, []⟩ (.insert 5 10 ⟨some 256, some 512, some 520⟩))
    (.insert 3 20 ⟨some 1024, some 2048, none⟩)

theorem skipList_refines_calls :
    Refines (equal intList.cmp) (Trace.step intTrace (.remove 5)) := by
  have created :
      Skip.create id ⟨4, 4⟩ ⟨8, 8⟩ 3 none true true
        (fun i => if i % 2 = 0 then 0 else 0xFFFF) (some 64) =
          some (.ok intList) := rfl
  have run : Runs intList intTrace := by
    refine .step (.step (.start rfl) ?_) ?_
    · intro ptr granted
      cases granted
      decide +kernel
    · intro ptr granted
      cases granted
      decide +kernel
  exact skipList_refines created (defaultCmp_order id)
    (run.step trivial)

end Libcute.Collection.SkipList
