import Libcute.Collection.SkipList.Runs
import Libcute.Core.Random

/-!
# Heights of skip lists

A level is drawn by looking at bit 15 of the numbers that the list draws.
The low bits of the generator in `state.h` repeat after a short while, so
that bit is clear at most 17 times in a row: `skipList_heights` shows that no
node of a list with such a generator is higher than 18, whatever the seed and
the maximal level are.
-/

namespace Libcute.Collection.SkipList

open Libcute.Core.Interface
open Libcute.Core.Random
open Libcute.Library
open Libcute.Library.Transition

variable {K V : Type} {list list' list'' fresh : Skip K V}
  {draws state : Stream} {bound : Nat}

/-! ## Drawn levels -/

/-- The number `i` of the stream ends the loop that draws a level. -/
def Stream.Ends (state : Stream) (i : Nat) : Prop :=
  0x8000 ≤ state i &&& 0xFFFF

/-- The stream never raises a level `bound` times in a row. -/
def Stream.Settles (draws : Stream) (bound : Nat) : Prop :=
  ∀ start, ∃ k < bound, draws.Ends (start + k)

theorem randomLevelLoop_lt {k : Nat} (ends : state.Ends k)
    (room lvl : Nat) :
    (Skip.randomLevelLoop room lvl state).1 ≤ lvl + k := by
  induction k generalizing room lvl state with
  | zero =>
      cases room with
      | zero => exact le_refl _
      | succ room =>
          rw [Skip.randomLevelLoop, if_neg (Nat.not_lt.mpr ends)]
          exact le_refl _
  | succ k induction =>
      cases room with
      | zero => exact Nat.le_add_right _ _
      | succ room =>
          unfold Skip.randomLevelLoop
          split_ifs
          · have rest : Stream.Ends (fun i => state (i + 1)) k := ends
            have later := induction rest room (lvl + 1)
            omega
          · exact Nat.le_add_right _ _

/-- A limit that is out of reach does not matter. -/
theorem randomLevelLoop_eq {k room : Nat} (ends : state.Ends k)
    (enough : k ≤ room) (lvl extra : Nat) :
    Skip.randomLevelLoop (room + extra) lvl state =
      Skip.randomLevelLoop room lvl state := by
  induction room generalizing k lvl state with
  | zero =>
      obtain rfl : k = 0 := Nat.le_zero.mp enough
      cases extra with
      | zero => rfl
      | succ extra =>
          rw [Nat.zero_add]
          unfold Skip.randomLevelLoop
          exact if_neg (Nat.not_lt.mpr ends)
  | succ room induction =>
      rw [Nat.add_right_comm]
      unfold Skip.randomLevelLoop
      split_ifs with raised
      · obtain ⟨pred, rfl⟩ : ∃ pred, k = pred + 1 := by
          cases k with
          | zero => exact absurd raised (Nat.not_lt.mpr ends)
          | succ pred => exact ⟨pred, rfl⟩
        have rest : Stream.Ends (fun i => state (i + 1)) pred := ends
        exact induction rest (Nat.le_of_succ_le_succ enough) (lvl + 1)
      · rfl

/-- Drawing a level uses up a part of the stream. -/
theorem randomLevelLoop_snd (room lvl : Nat) (state : Stream) :
    ∃ used, (Skip.randomLevelLoop room lvl state).2 =
      fun i => state (used + i) := by
  induction room generalizing lvl state with
  | zero => exact ⟨1, funext fun i => congrArg state (Nat.add_comm i 1)⟩
  | succ room induction =>
      unfold Skip.randomLevelLoop
      split_ifs
      · rcases induction (lvl + 1) fun i => state (i + 1) with ⟨used, rest⟩
        refine ⟨used + 1, rest.trans (funext fun i => congrArg state ?_)⟩
        exact Nat.add_right_comm used i 1
      · exact ⟨1, funext fun i => congrArg state (Nat.add_comm i 1)⟩

/-! ## What the calls keep -/

/-- The address and the level of every node. -/
def Skip.heights (list : Skip K V) : List (Nat × Nat) :=
  list.heap.map fun node => (node.address, node.level)

/-- Nothing was drawn, and no node was added or raised. -/
structure Shrinks (list list' : Skip K V) : Prop where
  state : list'.state = list.state
  head : list'.head = list.head
  level : list'.level ≤ list.level
  heights : ∀ place ∈ list'.heights, place ∈ list.heights

theorem Shrinks.refl (list : Skip K V) : Shrinks list list :=
  ⟨rfl, rfl, le_refl _, fun _ inside => inside⟩

theorem Shrinks.trans (first : Shrinks list list')
    (second : Shrinks list' list'') : Shrinks list list'' :=
  ⟨second.state.trans first.state, second.head.trans first.head,
    second.level.trans first.level,
    fun place inside => first.heights place (second.heights place inside)⟩

theorem shrinks_update (list : Skip K V) (x : Nat)
    (change : Node K V → Node K V)
    (keeps : ∀ node, ((change node).address, (change node).level) =
      (node.address, node.level)) :
    Shrinks list { list with
      heap := KeyedList.update Node.address list.heap x change } := by
  refine ⟨rfl, rfl, le_refl _, ?_⟩
  unfold Skip.heights
  dsimp only
  rw [KeyedList.map_update _ keeps]
  exact fun _ inside => inside

theorem shrinks_setForward
    (list : Skip K V) (i x : Nat) (target : Option Nat) :
    Shrinks list (list.setForward i x target) :=
  shrinks_update list x _ fun _ => rfl

theorem shrinks_destructKey (list : Skip K V) (key : Cell K) :
    Shrinks list (list.destructKey key) := by
  rw [destructKey_eq]
  exact ⟨rfl, rfl, le_refl _, fun _ inside => inside⟩

theorem shrinks_destructValue (list : Skip K V) (value : Cell V) :
    Shrinks list (list.destructValue value) := by
  rw [destructValue_eq]
  exact ⟨rfl, rfl, le_refl _, fun _ inside => inside⟩

theorem shrinks_link {node : Nat} {update : List Nat} {i : Nat}
    (linked : list.link node update i = some list') :
    Shrinks list list' := by
  induction update generalizing list i with
  | nil =>
      cases linked
      exact Shrinks.refl _
  | cons before rest induction =>
      unfold Skip.link at linked
      split at linked
      · cases linked
      · exact ((shrinks_setForward _ _ _ _).trans
          (shrinks_setForward _ _ _ _)).trans (induction linked)

theorem shrinks_unlink {x : Nat} {update : List Nat} {i : Nat}
    (unlinked : list.unlink x update i = some list') :
    Shrinks list list' := by
  induction update generalizing list i with
  | nil =>
      cases unlinked
      exact Shrinks.refl _
  | cons before rest induction =>
      unfold Skip.unlink at unlinked
      split at unlinked
      · cases unlinked
      · split_ifs at unlinked
        · cases unlinked
          exact Shrinks.refl _
        · split at unlinked
          · cases unlinked
          · exact (shrinks_setForward _ _ _ _).trans (induction unlinked)

theorem shrinks_overwrite {x : Nat} {value : V}
    (overwritten : list.overwrite x value = some list') :
    Shrinks list list' := by
  unfold Skip.overwrite at overwritten
  split at overwritten
  · cases overwritten
  · cases overwritten
    exact (shrinks_destructValue list _).trans
      (shrinks_update _ x _ fun _ => rfl)

theorem shrinks_discard {x : Nat}
    (discarded : list.discard x = some list') : Shrinks list list' := by
  unfold Skip.discard at discarded
  split at discarded
  · cases discarded
  · rename_i node found
    split at discarded
    · rename_i key value _ _
      cases discarded
      have destroyed := (shrinks_destructKey list key).trans
        (shrinks_destructValue _ value)
      refine ⟨destroyed.state, destroyed.head, destroyed.level, ?_⟩
      intro place inside
      apply destroyed.heights
      exact List.map_subset _ List.eraseP_subset inside
    · cases discarded

theorem lower_le {head level lowered : Nat}
    (found : list.lower head level = some lowered) : lowered ≤ level := by
  fun_induction Skip.lower list head level with
  | case1 => cases found; exact le_refl _
  | case2 => cases found; exact le_refl _
  | case3 => cases found
  | case4 level _ induction => exact (induction found).trans (by omega)
  | case5 => cases found; exact le_refl _

theorem shrinks_remove {key : K} {error : Option Error}
    (removed : list.remove key = some (error, list')) :
    Shrinks list list' := by
  unfold Skip.remove at removed
  split at removed
  · cases removed
  · split at removed
    · cases removed
    · split at removed
      · cases removed
      · split at removed
        · cases removed
        · split at removed
          · cases removed
          · rename_i unlinked
            split at removed
            · cases removed
            · rename_i level lowered
              simp only [Option.map_eq_some_iff] at removed
              obtain ⟨_, discarded, equal⟩ := removed
              cases equal
              have unlinks := shrinks_unlink unlinked
              have lowers := lower_le lowered
              have discards := shrinks_discard discarded
              exact ⟨discards.state.trans unlinks.state,
                discards.head.trans unlinks.head,
                discards.level.trans (lowers.trans unlinks.level),
                fun place inside => unlinks.heights place
                  (discards.heights place inside)⟩
        · cases removed
          exact Shrinks.refl _

/-! ## Insertions -/

/-- No node but the head is above a bound, and neither is the list. -/
structure Within
    (draws : Stream) (bound : Nat) (list : Skip K V) : Prop where
  state : ∃ used, list.state = fun i => draws (used + i)
  level : list.level ≤ bound
  heights : ∀ place ∈ list.heights,
    list.head = some place.1 ∨ place.2 ≤ bound

theorem Within.shrinks (within : Within draws bound list)
    (shrinks : Shrinks list list') : Within draws bound list' := by
  refine ⟨?_, shrinks.level.trans within.level, ?_⟩
  · rw [shrinks.state]
    exact within.state
  · intro place inside
    rw [shrinks.head]
    exact within.heights place (shrinks.heights place inside)

theorem Within.randomLevel (within : Within draws bound list)
    (settles : draws.Settles bound) :
    list.randomLevel.1 ≤ bound ∧
      Within draws bound list.randomLevel.2 := by
  rcases within.state with ⟨used, state⟩
  rcases settles used with ⟨k, few, ends⟩
  constructor
  · have here : list.state.Ends k := by
      rw [state]
      exact ends
    have low := randomLevelLoop_lt here (list.maxLevel - 1) 1
    unfold Skip.randomLevel
    dsimp only
    omega
  · rcases randomLevelLoop_snd (list.maxLevel - 1) 1 list.state with
      ⟨more, rest⟩
    refine ⟨⟨used + more, ?_⟩, within.level, within.heights⟩
    unfold Skip.randomLevel
    dsimp only
    rw [rest, state]
    exact funext fun i => congrArg draws (Nat.add_assoc used more i).symm

theorem Within.allocNode {level address : Nat} {key : K} {value : V}
    {grants : Grants} {error : Option Error}
    (within : Within draws bound list) (low : level ≤ bound)
    (allocated : list.allocNode level key value grants =
      some (error, list', address)) : Within draws bound list' := by
  unfold Skip.allocNode at allocated
  split at allocated
  · cases allocated
    exact within
  · dsimp only at allocated
    split at allocated
    · cases allocated
    · split at allocated
      · cases allocated
        exact ⟨within.state, within.level, within.heights⟩
      · split at allocated
        · cases allocated
          exact ⟨within.state, within.level, within.heights⟩
        · cases allocated
          refine ⟨within.state, within.level, ?_⟩
          intro place inside
          rcases List.mem_cons.mp inside with rfl | inside
          · exact Or.inr low
          · exact within.heights place inside

theorem Within.insertNew {head : Nat} {update : List Nat} {key : K}
    {value : V} {grants : Grants} {error : Option Error}
    (within : Within draws bound list) (settles : draws.Settles bound)
    (inserted : list.insertNew head update key value grants =
      some (error, list')) : Within draws bound list' := by
  obtain ⟨low, drawn⟩ := within.randomLevel settles
  have raised : Within draws bound
      (list.randomLevel.2.raise head list.randomLevel.1 update).1 := by
    rw [raise_fst]
    exact ⟨drawn.state, Nat.max_le.mpr ⟨drawn.level, low⟩, drawn.heights⟩
  unfold Skip.insertNew at inserted
  dsimp only at inserted
  split at inserted
  · cases inserted
  · rename_i allocated
    cases inserted
    exact raised.allocNode low allocated
  · rename_i allocated
    simp only [Option.map_eq_some_iff] at inserted
    obtain ⟨_, linked, equal⟩ := inserted
    cases equal
    exact (raised.allocNode low allocated).shrinks (shrinks_link linked)

theorem Within.insert {key : K} {value : V} {grants : Grants}
    {error : Option Error} (within : Within draws bound list)
    (settles : draws.Settles bound)
    (inserted : list.insert key value grants = some (error, list')) :
    Within draws bound list' := by
  unfold Skip.insert at inserted
  split_ifs at inserted
  · cases inserted
    exact within
  · cases inserted
    exact within
  · split at inserted
    · cases inserted
    · split at inserted
      · cases inserted
      · split at inserted
        · cases inserted
        · split at inserted
          · cases inserted
          · simp only [Option.map_eq_some_iff] at inserted
            obtain ⟨_, overwritten, equal⟩ := inserted
            cases equal
            exact within.shrinks (shrinks_overwrite overwritten)
          · exact within.insertNew settles inserted

theorem Within.step {trace : Trace K V} (call : Call K V)
    (within : Within draws bound trace.list)
    (settles : draws.Settles bound) :
    Within draws bound (trace.step call).list := by
  cases call with
  | insert key value grants =>
      unfold Trace.step
      dsimp only
      split
      · rename_i inserted
        exact within.insert settles inserted
      · rename_i inserted
        exact within.insert settles inserted
      · exact within
  | remove key =>
      unfold Trace.step
      dsimp only
      split
      · rename_i removed
        exact within.shrinks (shrinks_remove removed)
      · rename_i removed
        exact within.shrinks (shrinks_remove removed)
      · exact within
  | find key => exact within

theorem create_within {asInt : K → Int} {keyLayout valueLayout : Layout}
    {maxLevel : Nat} {cmp : Option (K → K → Int)}
    {keyDestructor valueDestructor : Bool} {grant : Option Nat}
    (settles : draws.Settles bound)
    (created : Skip.create asInt keyLayout valueLayout maxLevel cmp
      keyDestructor valueDestructor draws grant = some (.ok fresh)) :
    Within draws bound fresh := by
  obtain ⟨k, few, _⟩ := settles 0
  unfold Skip.create at created
  split_ifs at created <;> try cases created
  split at created
  · cases created
  · split at created
    · cases created
    · cases created
      refine ⟨⟨0, funext fun i => congrArg draws (Nat.zero_add i).symm⟩,
        Nat.one_le_iff_ne_zero.mpr (by omega), ?_⟩
      intro place inside
      obtain rfl := List.mem_singleton.mp inside
      exact Or.inl rfl

/-! ## The generator of `state.h` -/

/--
One of the next numbers from one with the low bits `low` on ends it.  The
operations are those that the kernel computes with.
-/
def settlesFrom : Nat → Nat → Bool
  | 0, _ => false
  | fuel + 1, low =>
      (Nat.ble 0x8000 low).or
        (settlesFrom fuel
          (Nat.mod (Nat.add (Nat.mul low 1664525) 1013904223) 0x10000))

/-- All low bits, in two bytes. -/
theorem settlesFrom_all {high low : Nat} (inside : high < 256)
    (inside' : low < 256) : settlesFrom 18 (256 * high + low) = true := by
  have all : ((List.range 256).all fun high =>
      (List.range 256).all fun low => settlesFrom 18 (256 * high + low)) =
        true := by
    decide +kernel
  have row := List.all_eq_true.mp all high (List.mem_range.mpr inside)
  exact List.all_eq_true.mp row low (List.mem_range.mpr inside')

theorem advance_low (value : Nat) :
    advance value % 2 ^ 16 =
      (value % 2 ^ 16 * 1664525 + 1013904223) % 2 ^ 16 := by
  rw [advance, Nat.mod_mod_of_dvd _ (Nat.pow_dvd_pow 2 (by decide))]
  omega

theorem exists_end_of_settlesFrom {fuel value : Nat}
    (settles : settlesFrom fuel (value % 2 ^ 16) = true) :
    ∃ k < fuel, 0x8000 ≤ advance^[k] value % 2 ^ 16 := by
  induction fuel generalizing value with
  | zero => cases settles
  | succ fuel induction =>
      have next : advance value % 2 ^ 16 = Nat.mod (Nat.add (Nat.mul
          (value % 2 ^ 16) 1664525) 1013904223) 0x10000 := advance_low value
      rw [settlesFrom, Bool.or_eq_true, ← next] at settles
      rcases settles with ends | later
      · exact ⟨0, Nat.succ_pos fuel, Nat.le_of_ble_eq_true ends⟩
      · obtain ⟨k, few, ends⟩ := induction later
        refine ⟨k + 1, Nat.succ_lt_succ few, ?_⟩
        rw [Function.iterate_succ_apply]
        exact ends

/-- Bit 15 of the generator is clear at most 17 times in a row. -/
theorem randomState_settles (seed : Nat) :
    Stream.Settles (RandomState.init seed).draws 18 := by
  intro start
  have low : advance^[start + 1] seed % 2 ^ 16 < 2 ^ 16 :=
    Nat.mod_lt _ (by decide)
  have checked := settlesFrom_all
    (show advance^[start + 1] seed % 2 ^ 16 / 256 < 256 by omega)
    (show advance^[start + 1] seed % 2 ^ 16 % 256 < 256 by omega)
  rw [Nat.div_add_mod] at checked
  obtain ⟨k, few, ends⟩ := exists_end_of_settlesFrom checked
  refine ⟨k, few, ?_⟩
  have draw : (RandomState.init seed).draws (start + k) =
      advance^[k] (advance^[start + 1] seed) := by
    rw [draws_init, ← Function.iterate_add_apply, Nat.add_right_comm,
      Nat.add_comm k]
  unfold Stream.Ends
  rw [draw, Nat.and_two_pow_sub_one_eq_mod _ 16]
  exact ends

/--
With a generator of `state.h`, no node but the head is above level 18 and
neither is the list, and the maximal level does not matter from 18 on.
-/
theorem skipList_heights
    {asInt : K → Int} {keyLayout valueLayout : Layout} {maxLevel : Nat}
    {cmp : Option (K → K → Int)} {keyDestructor valueDestructor : Bool}
    {seed : Nat} {grant : Option Nat} {trace : Trace K V}
    (created : Skip.create asInt keyLayout valueLayout maxLevel cmp
      keyDestructor valueDestructor (RandomState.init seed).draws grant =
        some (.ok fresh))
    (run : Runs fresh trace) :
    trace.list.level ≤ 18 ∧
      (∀ node ∈ trace.list.heap,
        trace.list.head = some node.address ∨ node.level ≤ 18) ∧
      ∀ extra, Skip.randomLevelLoop (17 + extra) 1 trace.list.state =
        Skip.randomLevelLoop 17 1 trace.list.state := by
  have settles := randomState_settles seed
  have within : Within (RandomState.init seed).draws 18 trace.list :=
    Reachable.invariant
      (fun trace => Within (RandomState.init seed).draws 18 trace.list)
      (by
        rintro _ rfl
        exact create_within settles created)
      (fun _ call within _ => within.step call settles) run
  refine ⟨within.level, ?_, ?_⟩
  · intro node inside
    exact within.heights _ (List.mem_map_of_mem inside)
  · intro extra
    rcases within.state with ⟨used, state⟩
    rcases settles used with ⟨k, few, ends⟩
    have here : trace.list.state.Ends k := by
      rw [state]
      exact ends
    exact randomLevelLoop_eq here (Nat.le_of_lt_succ few) 1 extra

/-- A new list that draws from a generator. -/
def seededList : Skip Int Nat where
  heap := [⟨64, List.replicate 32 none, 32, none, none⟩]
  head := some 64
  level := 1
  maxLevel := 32
  cmp := defaultCmp id
  keyLayout := ⟨4, 4⟩
  valueLayout := ⟨8, 8⟩
  keyDestructor := false
  valueDestructor := false
  state := (RandomState.init 35717).draws
  effects := ⟨[], [], [⟨64, 288⟩], []⟩

/-- The seed draws the highest level at once. -/
example : seededList.randomLevel.1 = 18 := by decide +kernel

theorem skipList_heights_insert :
    (Trace.step ⟨seededList, []⟩
      (.insert 5 10 ⟨some 512, some 1024, some 2048⟩)).list.level ≤ 18 := by
  have created :
      Skip.create id ⟨4, 4⟩ ⟨8, 8⟩ 32 none false false
        (RandomState.init 35717).draws (some 64) =
          some (.ok seededList) := rfl
  have run : Runs seededList (Trace.step ⟨seededList, []⟩
      (.insert 5 10 ⟨some 512, some 1024, some 2048⟩)) := by
    refine .step (.start rfl) ?_
    intro ptr granted
    cases granted
    decide +kernel
  exact (skipList_heights created run).1

end Libcute.Collection.SkipList
