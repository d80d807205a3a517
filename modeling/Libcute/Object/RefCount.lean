import Mathlib.Data.List.Basic
import Mathlib.Logic.Function.Basic
import Libcute.Core.Interface
import Libcute.Core.Size
import Libcute.Library.Transition

/-!
# Reference counted pointers

`CU_RC_IMPL` of `rc.h` puts an item into a container with a counter.  Handles
are copies of one pointer to the container; the last one that is destroyed
calls the destructor of the item and frees the container.

A `World` is a program with any number of handles in variables.  It remembers
which container each handle came from and what was done to it, so that
`rc_shared` can say for every container, also when its address is used again,
what happens to it in any order of calls.
-/

namespace Libcute.Object.RefCount

open Libcute.Core.Interface
open Libcute.Core.Size
open Libcute.Library.Transition

variable {T : Type}

/-- `struct NAME_Rc_Container`.  All that matters of a destructor is that it
is there. -/
structure Container (T : Type) where
  item : T
  refCount : Nat
  destructor : Bool

/-- `NAME_Rc`.  An allocator is known by a number. -/
structure Rc where
  inner : Nat
  alloc : Nat
deriving DecidableEq

/-- The containers in memory, by their addresses. -/
abbrev Heap (T : Type) := Nat → Option (Container T)

/-- What a call asks of an allocator or of the destructor. -/
inductive Effect (T : Type) where
  | allocated (alloc : Nat) (mem : Slice)
  | destructed (item : T)
  | freed (alloc : Nat) (mem : Slice)

/--
`NAME_Rc_create`, with the answer of the allocator.  `layout` is that of the
container.
-/
def create
    (layout : Layout) (heap : Heap T) (alloc : Nat) (value : T)
    (destructor : Bool) (grant : Except IoError Nat) :
    Except IoError Rc × Heap T × List (Effect T) :=
  match grant with
  | .error error => (.error error, heap, [])
  | .ok cont =>
      (.ok ⟨cont, alloc⟩,
        Function.update heap cont (some ⟨value, 1, destructor⟩),
        [.allocated alloc ⟨cont, layout.elemSize⟩])

/-- `NAME_Rc_clone`: the inner level is `NAME_Rc_Optional`. -/
def clone (heap : Heap T) (rc : Rc) : Option (Option Rc × Heap T) :=
  if rc.inner = 0 then
    some (none, heap)
  else
    match heap rc.inner with
    | none => none
    | some inner =>
        some (some ⟨rc.inner, rc.alloc⟩,
          Function.update heap rc.inner
            (some { inner with refCount := sizeAdd inner.refCount 1 }))

/-- What the last handle does to its container. -/
def release (layout : Layout) (rc : Rc) (inner : Container T) :
    List (Effect T) :=
  (if inner.destructor then [.destructed inner.item] else []) ++
    [.freed rc.alloc ⟨rc.inner, layout.elemSize⟩]

/-- `NAME_Rc_destroy` -/
def destroy (layout : Layout) (heap : Heap T) (rc : Rc) :
    Option (Rc × Heap T × List (Effect T)) :=
  match heap rc.inner with
  | none => none
  | some inner =>
      let inner := { inner with refCount := sizeSub inner.refCount 1 }
      if inner.refCount = 0 then
        some ({ rc with inner := 0 }, Function.update heap rc.inner none,
          release layout rc inner)
      else
        some ({ rc with inner := 0 },
          Function.update heap rc.inner (some inner), [])

/-- `NAME_Rc_get`, read through the pointer: the inner level is that of null. -/
def get (heap : Heap T) (rc : Rc) : Option (Option T) :=
  if rc.inner = 0 then
    some none
  else
    (heap rc.inner).map fun inner => some inner.item

/-! ## Programs -/

/--
A variable with a handle, and the number of the container it was made for.
-/
structure Handle where
  rc : Rc
  origin : Nat

/-- How a container was created. -/
structure Birth (T : Type) where
  rc : Rc
  item : T
  destructor : Bool

/--
The memory, the handles and the containers in the order in which they were
made, and the effects of the calls with the number of the container.
-/
structure World (T : Type) where
  heap : Heap T
  handles : List Handle
  births : List (Birth T)
  log : List (Nat × Effect T)

/-- A call of the interface; a handle is meant by its number. -/
inductive Call (T : Type) where
  | create (alloc : Nat) (value : T) (destructor : Bool)
      (grant : Except IoError Nat)
  | clone (index : Nat)
  | get (index : Nat)
  | destroy (index : Nat)

namespace World

/-- No handle was made yet. -/
def start : World T := ⟨fun _ => none, [], [], []⟩

/-- Make a call. -/
def perform (layout : Layout) (world : World T) :
    Call T → Option (World T)
  | .create alloc value destructor grant =>
      match create layout world.heap alloc value destructor grant with
      | (.error _, heap, _) => some { world with heap := heap }
      | (.ok rc, heap, effects) =>
          some ⟨heap, world.handles ++ [⟨rc, world.births.length⟩],
            world.births ++ [⟨rc, value, destructor⟩],
            world.log ++ effects.map (world.births.length, ·)⟩
  | .clone index =>
      match world.handles[index]? with
      | none => none
      | some handle =>
          match clone world.heap handle.rc with
          | none => none
          | some (none, heap) => some { world with heap := heap }
          | some (some rc, heap) =>
              some { world with
                heap := heap
                handles := world.handles ++ [⟨rc, handle.origin⟩] }
  | .get index =>
      match world.handles[index]? with
      | none => none
      | some handle => (get world.heap handle.rc).map fun _ => world
  | .destroy index =>
      match world.handles[index]? with
      | none => none
      | some handle =>
          (destroy layout world.heap handle.rc).map
            fun (rc, heap, effects) =>
              { world with
                heap := heap
                handles := world.handles.set index { handle with rc := rc }
                log := world.log ++ effects.map (handle.origin, ·) }

/-- The handle is not destroyed and belongs to this container. -/
def owns (id : Nat) (handle : Handle) : Bool :=
  handle.rc.inner ≠ 0 ∧ handle.origin = id

/-- The number of live handles of a container. -/
def owners (world : World T) (id : Nat) : Nat :=
  world.handles.countP (owns id)

/-- What was done to a container. -/
def effects (world : World T) (id : Nat) : List (Effect T) :=
  (world.log.filter (·.1 = id)).map Prod.snd

end World

/--
What a program may do.  A granted container is new, a handle is destroyed
once, and a container has fewer than `2 ^ 64` handles at a time.
-/
def Permitted (world : World T) : Call T → Prop
  | .create _ _ _ grant =>
      ∀ cont, grant = .ok cont → cont ≠ 0 ∧ world.heap cont = none
  | .clone index =>
      ∃ handle, world.handles[index]? = some handle ∧
        world.owners handle.origin + 1 < sizeLimit
  | .get index => index < world.handles.length
  | .destroy index =>
      ∃ handle, world.handles[index]? = some handle ∧ handle.rc.inner ≠ 0

/-- The last effects on a container. -/
def Birth.ending (layout : Layout) (birth : Birth T) : List (Effect T) :=
  (if birth.destructor then [.destructed birth.item] else []) ++
    [.freed birth.rc.alloc ⟨birth.rc.inner, layout.elemSize⟩]

/-- The first effect on a container. -/
def Birth.beginning (layout : Layout) (birth : Birth T) : Effect T :=
  .allocated birth.rc.alloc ⟨birth.rc.inner, layout.elemSize⟩

/-- What holds of the containers and the handles of a program. -/
structure Shared (layout : Layout) (world : World T) : Prop where
  /-- The counter is the number of live handles, and nothing was done yet. -/
  live : ∀ id birth, world.births[id]? = some birth → 0 < world.owners id →
    world.heap birth.rc.inner =
        some ⟨birth.item, world.owners id, birth.destructor⟩ ∧
      world.effects id = [birth.beginning layout]
  /-- Without live handles the destructor was called and the block freed. -/
  dead : ∀ id birth, world.births[id]? = some birth → world.owners id = 0 →
    world.effects id = birth.beginning layout :: birth.ending layout
  /-- A live handle is that of its container, and yields the created item. -/
  handles : ∀ handle ∈ world.handles, handle.rc.inner ≠ 0 →
    ∃ birth, world.births[handle.origin]? = some birth ∧
      handle.rc = birth.rc ∧ get world.heap handle.rc = some (some birth.item)

/-! ## Counting handles -/

section Counting

variable {layout : Layout} {world : World T} {id index : Nat}
  {handle : Handle} {handles : List Handle}

theorem owns_iff :
    World.owns id handle = true ↔ handle.rc.inner ≠ 0 ∧ handle.origin = id := by
  unfold World.owns
  rw [decide_eq_true_iff]

theorem countP_append_one (handles : List Handle) (handle : Handle) :
    (handles ++ [handle]).countP (World.owns id) =
      handles.countP (World.owns id) +
        if World.owns id handle = true then 1 else 0 := by
  rw [List.countP_append, List.countP_singleton]

/-- A destroyed handle counts no more. -/
theorem countP_destroyed
    (found : handles[index]? = some handle) (live : handle.rc.inner ≠ 0) :
    handles.countP (World.owns id) =
      (handles.set index { handle with rc := { handle.rc with inner := 0 } }
        ).countP (World.owns id) +
        if handle.origin = id then 1 else 0 := by
  rcases List.getElem?_eq_some_iff.mp found with ⟨inside, same⟩
  have gone : World.owns id
      { handle with rc := { handle.rc with inner := 0 } } = false := by
    unfold World.owns
    simp
  have counted :
      World.owns id handles[index] = decide (handle.origin = id) := by
    rw [same]
    unfold World.owns
    simp [live]
  rw [List.countP_set inside, gone, counted]
  by_cases mine : handle.origin = id
  · have present : 0 < handles.countP (World.owns id) := by
      rw [List.countP_pos_iff]
      exact ⟨handles[index], List.getElem_mem inside,
        by rw [counted, decide_eq_true mine]⟩
    simp only [mine, decide_true, if_true, Bool.false_eq_true, if_false]
    omega
  · simp [mine]

/-- A live handle is one of its container's. -/
theorem owners_pos
    (found : world.handles[index]? = some handle)
    (live : handle.rc.inner ≠ 0) : 0 < world.owners handle.origin := by
  unfold World.owners
  rw [List.countP_pos_iff]
  exact ⟨handle, List.mem_of_getElem? found, owns_iff.mpr ⟨live, rfl⟩⟩

end Counting

/-! ## The invariant -/

/-- The invariant: containers in use are counted and do not meet. -/
structure Sound (layout : Layout) (world : World T) : Prop where
  live : ∀ id birth, world.births[id]? = some birth → 0 < world.owners id →
    world.heap birth.rc.inner =
        some ⟨birth.item, world.owners id, birth.destructor⟩ ∧
      world.effects id = [birth.beginning layout]
  dead : ∀ id birth, world.births[id]? = some birth → world.owners id = 0 →
    world.effects id = birth.beginning layout :: birth.ending layout
  handles : ∀ handle ∈ world.handles, handle.rc.inner ≠ 0 →
    ∃ birth, world.births[handle.origin]? = some birth ∧ handle.rc = birth.rc
  valid : ∀ birth ∈ world.births, birth.rc.inner ≠ 0
  apart : ∀ (id id' : Nat) (birth birth' : Birth T),
    world.births[id]? = some birth → world.births[id']? = some birth' →
      0 < world.owners id → 0 < world.owners id' →
        birth.rc.inner = birth'.rc.inner → id = id'
  bounded : ∀ id, world.owners id < sizeLimit
  logged : ∀ entry ∈ world.log, entry.1 < world.births.length

section Steps

variable {layout : Layout} {world : World T} {index : Nat} {handle : Handle}

theorem start_sound (layout : Layout) :
    Sound layout (World.start : World T) := by
  have none (id : Nat) (birth : Birth T) :
      (World.start : World T).births[id]? ≠ some birth := by
    intro born
    cases born
  refine ⟨?_, ?_, ?_, ?_, ?_, ?_, ?_⟩
  · exact fun id birth born => absurd born (none id birth)
  · exact fun id birth born => absurd born (none id birth)
  · exact fun _ absent => absurd absent List.not_mem_nil
  · exact fun _ absent => absurd absent List.not_mem_nil
  · exact fun id _ birth _ born => absurd born (none id birth)
  · exact fun _ => (by decide : 0 < sizeLimit)
  · exact fun _ absent => absurd absent List.not_mem_nil

theorem log_append
    (log : List (Nat × Effect T)) (origin : Nat) (effects : List (Effect T))
    (id : Nat) :
    ((log ++ effects.map (origin, ·)).filter (·.1 = id)).map Prod.snd =
      (log.filter (·.1 = id)).map Prod.snd ++
        if origin = id then effects else [] := by
  rw [List.filter_append, List.map_append, List.filter_map, List.map_map]
  congr 1
  have test : ((fun entry : Nat × Effect T => decide (entry.1 = id)) ∘
      fun effect => (origin, effect)) = fun _ => decide (origin = id) := rfl
  rw [test]
  by_cases mine : origin = id
  · rw [if_pos mine, decide_eq_true mine, List.filter_true]
    exact List.map_id _
  · rw [if_neg mine, decide_eq_false mine, List.filter_false]
    rfl

/-- A container that was not created has no owner and no history. -/
theorem Sound.unborn
    (sound : Sound layout world) {id : Nat}
    (absent : world.births.length ≤ id) :
    world.owners id = 0 ∧ world.effects id = [] := by
  constructor
  · unfold World.owners
    rw [List.countP_eq_zero]
    intro handle member owner
    rcases owns_iff.mp owner with ⟨live, rfl⟩
    rcases sound.handles handle member live with ⟨birth, born, _⟩
    have inside := (List.getElem?_eq_some_iff.mp born).1
    omega
  · unfold World.effects
    rw [List.map_eq_nil_iff, List.filter_eq_nil_iff]
    intro entry member same
    have inside := sound.logged entry member
    rw [decide_eq_true_iff] at same
    omega

/-- The container of a live handle. -/
theorem Sound.container
    (sound : Sound layout world) (found : world.handles[index]? = some handle)
    (live : handle.rc.inner ≠ 0) :
    ∃ birth, world.births[handle.origin]? = some birth ∧
      handle.rc = birth.rc ∧
      world.heap handle.rc.inner = some
        ⟨birth.item, world.owners handle.origin, birth.destructor⟩ := by
  rcases sound.handles handle (List.mem_of_getElem? found) live with
    ⟨birth, born, same⟩
  refine ⟨birth, born, same, ?_⟩
  rw [same]
  exact (sound.live _ birth born (owners_pos found live)).1

/-- Another container that is in use lies elsewhere. -/
theorem Sound.elsewhere
    (sound : Sound layout world) (found : world.handles[index]? = some handle)
    (live : handle.rc.inner ≠ 0) {id : Nat} {birth : Birth T}
    (born : world.births[id]? = some birth) (used : 0 < world.owners id)
    (other : handle.origin ≠ id) : birth.rc.inner ≠ handle.rc.inner := by
  rcases sound.container found live with ⟨own, ownBorn, same, _⟩
  intro meets
  rw [same] at meets
  exact other (sound.apart _ _ own birth ownBorn born
    (owners_pos found live) used meets.symm)

theorem of_append_one {α : Type} {items : List α} {item found : α} {i : Nat}
    (shown : (items ++ [item])[i]? = some found) :
    items[i]? = some found ∨ i = items.length ∧ found = item := by
  by_cases old : i < items.length
  · rw [List.getElem?_append_left old] at shown
    exact Or.inl shown
  · have inside := (List.getElem?_eq_some_iff.mp shown).1
    rw [List.length_append, List.length_singleton] at inside
    have last : i = items.length := by omega
    subst last
    rw [List.getElem?_append_right le_rfl, Nat.sub_self,
      List.getElem?_cons_zero, Option.some.injEq] at shown
    exact Or.inr ⟨rfl, shown.symm⟩

/-- A new container has one owner. -/
theorem Sound.create
    (sound : Sound layout world) {cont : Nat} (alloc : Nat) (value : T)
    (destructor : Bool) (valid : cont ≠ 0) (fresh : world.heap cont = none) :
    Sound layout
      ⟨Function.update world.heap cont (some ⟨value, 1, destructor⟩),
        world.handles ++ [⟨⟨cont, alloc⟩, world.births.length⟩],
        world.births ++ [⟨⟨cont, alloc⟩, value, destructor⟩],
        world.log ++ [Effect.allocated alloc ⟨cont, layout.elemSize⟩].map
          (world.births.length, ·)⟩ := by
  generalize after : (⟨Function.update world.heap cont
    (some ⟨value, 1, destructor⟩), _, _, _⟩ : World T) = world'
  have births : world'.births =
      world.births ++ [⟨⟨cont, alloc⟩, value, destructor⟩] := by rw [← after]
  have heap : world'.heap = Function.update world.heap cont
      (some ⟨value, 1, destructor⟩) := by rw [← after]
  have owners (id : Nat) : world'.owners id =
      world.owners id + if world.births.length = id then 1 else 0 := by
    rw [← after]
    unfold World.owners
    dsimp only
    rw [countP_append_one]
    simp [World.owns, valid]
  have effects (id : Nat) : world'.effects id = world.effects id ++
      if world.births.length = id then
        [.allocated alloc ⟨cont, layout.elemSize⟩] else [] := by
    rw [← after]
    exact log_append world.log _ _ id
  have unborn := sound.unborn (le_refl world.births.length)
  have older {id : Nat} {birth : Birth T}
      (born : world.births[id]? = some birth) :
      world'.owners id = world.owners id ∧
        world'.effects id = world.effects id := by
    have inside := (List.getElem?_eq_some_iff.mp born).1
    rw [owners, effects, if_neg (by omega), if_neg (by omega), Nat.add_zero,
      List.append_nil]
    exact ⟨rfl, rfl⟩
  have apart {id : Nat} {birth : Birth T}
      (born : world.births[id]? = some birth) (used : 0 < world.owners id) :
      birth.rc.inner ≠ cont := by
    intro same
    have kept := (sound.live id birth born used).1
    rw [same, fresh] at kept
    cases kept
  refine ⟨?_, ?_, ?_, ?_, ?_, ?_, ?_⟩
  · intro id birth born used
    rw [births] at born
    rcases of_append_one born with old | ⟨rfl, rfl⟩
    · rw [(older old).1] at used ⊢
      rw [(older old).2, heap, Function.update_of_ne (apart old used)]
      exact sound.live id birth old used
    · rw [owners, effects, heap, unborn.1, unborn.2, if_pos rfl, if_pos rfl]
      exact ⟨Function.update_self _ _ _, rfl⟩
  · intro id birth born unused
    rw [births] at born
    rcases of_append_one born with old | ⟨rfl, rfl⟩
    · rw [(older old).1] at unused
      rw [(older old).2]
      exact sound.dead id birth old unused
    · rw [owners, if_pos rfl] at unused
      omega
  · intro handle member live
    rw [births]
    rw [← after, List.mem_append, List.mem_singleton] at member
    rcases member with old | rfl
    · rcases sound.handles handle old live with ⟨birth, born, same⟩
      have inside := (List.getElem?_eq_some_iff.mp born).1
      exact ⟨birth, by rw [List.getElem?_append_left inside]; exact born,
        same⟩
    · exact ⟨_, List.getElem?_concat_length, rfl⟩
  · intro birth member
    rw [births, List.mem_append, List.mem_singleton] at member
    rcases member with old | rfl
    · exact sound.valid birth old
    · exact valid
  · intro id id' birth birth' born born' used used' same
    rw [births] at born born'
    rcases of_append_one born with old | ⟨rfl, rfl⟩ <;>
      rcases of_append_one born' with old' | ⟨rfl, rfl⟩
    · rw [(older old).1] at used
      rw [(older old').1] at used'
      exact sound.apart id id' birth birth' old old' used used' same
    · rw [(older old).1] at used
      exact absurd same (apart old used)
    · rw [(older old').1] at used'
      exact absurd same.symm (apart old' used')
    · rfl
  · intro id
    have bounded := sound.bounded id
    rw [owners]
    split_ifs with new
    · rw [← new, unborn.1]
      decide
    · exact bounded
  · intro entry member
    rw [births, List.length_append, List.length_singleton]
    rw [← after, List.mem_append] at member
    rcases member with old | new
    · exact (sound.logged entry old).trans (Nat.lt_succ_self _)
    · rw [List.map_singleton, List.mem_singleton] at new
      rw [new]
      exact Nat.lt_succ_self _

/-- A call through a live handle only matters to its own container. -/
theorem Sound.recount
    (sound : Sound layout world) {world' : World T} {birth : Birth T}
    (found : world.handles[index]? = some handle)
    (live : handle.rc.inner ≠ 0)
    (born : world.births[handle.origin]? = some birth)
    {cont : Option (Container T)}
    (heap : world'.heap = Function.update world.heap handle.rc.inner cont)
    (births : world'.births = world.births)
    (logged : ∀ entry ∈ world'.log, entry.1 < world.births.length)
    (others : ∀ id, handle.origin ≠ id →
      world'.owners id = world.owners id ∧
        world'.effects id = world.effects id)
    (handles : ∀ other ∈ world'.handles, other.rc.inner ≠ 0 →
      other ∈ world.handles ∨
        other.origin = handle.origin ∧ other.rc = handle.rc)
    (bounded : world'.owners handle.origin < sizeLimit)
    (used : 0 < world'.owners handle.origin →
      cont = some
          ⟨birth.item, world'.owners handle.origin, birth.destructor⟩ ∧
        world'.effects handle.origin = [birth.beginning layout])
    (unused : world'.owners handle.origin = 0 →
      world'.effects handle.origin =
        birth.beginning layout :: birth.ending layout) :
    Sound layout world' := by
  rcases sound.container found live with ⟨own, ownBorn, same, _⟩
  have inUse : ∀ id, 0 < world'.owners id → 0 < world.owners id := by
    intro id used
    by_cases mine : handle.origin = id
    · rw [← mine]
      exact owners_pos found live
    · rwa [(others id mine).1] at used
  refine ⟨?_, ?_, ?_, ?_, ?_, ?_, ?_⟩
  · intro id other otherBorn inUse'
    rw [births] at otherBorn
    by_cases mine : handle.origin = id
    · subst mine
      rw [born] at otherBorn ownBorn
      cases otherBorn
      cases ownBorn
      rw [heap, ← same, Function.update_self]
      exact used inUse'
    · have before := inUse id inUse'
      rw [heap, (others id mine).1, (others id mine).2,
        Function.update_of_ne
          (sound.elsewhere found live otherBorn before mine)]
      exact sound.live id other otherBorn before
  · intro id other otherBorn none
    rw [births] at otherBorn
    by_cases mine : handle.origin = id
    · subst mine
      rw [born] at otherBorn
      cases otherBorn
      exact unused none
    · rw [(others id mine).2]
      rw [(others id mine).1] at none
      exact sound.dead id other otherBorn none
  · intro other member otherLive
    rw [births]
    rcases handles other member otherLive with old | ⟨origin, rc⟩
    · exact sound.handles other old otherLive
    · rw [origin, rc]
      exact ⟨own, ownBorn, same⟩
  · rw [births]
    exact sound.valid
  · intro id id' first second firstBorn secondBorn firstUsed secondUsed
    rw [births] at firstBorn secondBorn
    exact sound.apart id id' first second firstBorn secondBorn
      (inUse id firstUsed) (inUse id' secondUsed)
  · intro id
    by_cases mine : handle.origin = id
    · rw [← mine]
      exact bounded
    · rw [(others id mine).1]
      exact sound.bounded id
  · rw [births]
    exact logged

/-- A clone is one more owner. -/
theorem Sound.clone
    (sound : Sound layout world)
    (found : world.handles[index]? = some handle)
    (live : handle.rc.inner ≠ 0)
    (few : world.owners handle.origin + 1 < sizeLimit) :
    ∃ world', world.perform layout (.clone index) = some world' ∧
      Sound layout world' ∧ world'.log = world.log ∧
      world'.handles = world.handles ++ [handle] := by
  rcases sound.container found live with ⟨birth, born, same, kept⟩
  refine ⟨{ world with
    heap := Function.update world.heap handle.rc.inner
      (some ⟨birth.item, world.owners handle.origin + 1, birth.destructor⟩)
    handles := world.handles ++ [⟨handle.rc, handle.origin⟩] }, ?_, ?_, rfl,
    rfl⟩
  · dsimp only [World.perform]
    rw [found]
    dsimp only
    unfold RefCount.clone
    rw [if_neg live, kept]
    dsimp only
    rw [sizeAdd_eq few]
  · generalize after : ({ world with heap := _, handles := _ } : World T) =
      world'
    have owners (id : Nat) : world'.owners id =
        world.owners id + if handle.origin = id then 1 else 0 := by
      rw [← after]
      unfold World.owners
      dsimp only
      rw [countP_append_one]
      simp [World.owns, live]
    have mine := owners handle.origin
    rw [if_pos rfl] at mine
    have effects (id : Nat) : world'.effects id = world.effects id := by
      rw [← after]
      rfl
    refine sound.recount found live born (by rw [← after])
      (by rw [← after]) (by rw [← after]; exact sound.logged) ?_ ?_ ?_ ?_ ?_
    · intro id other
      rw [owners, if_neg other, effects]
      exact ⟨rfl, rfl⟩
    · intro other member _
      rw [← after, List.mem_append, List.mem_singleton] at member
      rcases member with old | rfl
      · exact Or.inl old
      · exact Or.inr ⟨rfl, rfl⟩
    · rw [mine]
      exact few
    · intro _
      rw [mine, effects]
      exact ⟨rfl, (sound.live _ birth born (owners_pos found live)).2⟩
    · intro none
      omega

/-- What destroying a handle does to the log. -/
def World.ends
    (layout : Layout) (world : World T) (handle : Handle) (birth : Birth T) :
    List (Effect T) :=
  if world.owners handle.origin = 1 then birth.ending layout else []

/-- The last owner that is destroyed ends its container. -/
theorem Sound.destroy
    (sound : Sound layout world)
    (found : world.handles[index]? = some handle)
    (live : handle.rc.inner ≠ 0) :
    ∃ birth world', world.births[handle.origin]? = some birth ∧
      world.perform layout (.destroy index) = some world' ∧
      Sound layout world' ∧
      world'.log = world.log ++
        (world.ends layout handle birth).map (handle.origin, ·) := by
  rcases sound.container found live with ⟨birth, born, same, kept⟩
  have positive := owners_pos found live
  have bounded := sound.bounded handle.origin
  have less := sizeSub_eq positive bounded
  generalize counted : world.owners handle.origin = count at *
  have ending : release layout handle.rc
      ⟨birth.item, count - 1, birth.destructor⟩ = birth.ending layout := by
    unfold release Birth.ending
    rw [same]
  generalize rest : (if count - 1 = 0 then none
    else some (⟨birth.item, count - 1, birth.destructor⟩ : Container T)) =
      cont
  have last : count = 1 ↔ count - 1 = 0 := by omega
  refine ⟨birth, { world with
    heap := Function.update world.heap handle.rc.inner cont
    handles := world.handles.set index
      { handle with rc := { handle.rc with inner := 0 } }
    log := world.log ++
      (world.ends layout handle birth).map (handle.origin, ·) },
    born, ?_, ?_, rfl⟩
  · dsimp only [World.perform]
    rw [found]
    dsimp only
    unfold RefCount.destroy World.ends
    rw [kept]
    dsimp only
    rw [less, ending, counted, ← rest]
    by_cases single : count = 1
    · rw [if_pos (last.mp single), if_pos (last.mp single), if_pos single]
      rfl
    · rw [if_neg (mt last.mpr single), if_neg (mt last.mpr single),
        if_neg single]
      rfl
  · generalize after : ({ world with
      heap := _, handles := _, log := _ } : World T) = world'
    have owners (id : Nat) : world.owners id =
        world'.owners id + if handle.origin = id then 1 else 0 := by
      rw [← after]
      exact countP_destroyed found live
    have mine := owners handle.origin
    rw [if_pos rfl, counted] at mine
    have effects (id : Nat) : world'.effects id = world.effects id ++
        if handle.origin = id then world.ends layout handle birth
        else [] := by
      rw [← after]
      exact log_append world.log _ _ id
    have history := (sound.live _ birth born (by omega)).2
    refine sound.recount found live born (by rw [← after])
      (by rw [← after]) ?_ ?_ ?_ (by omega) ?_ ?_
    · intro entry member
      rw [← after, List.mem_append] at member
      rcases member with old | new
      · exact sound.logged entry old
      · rcases List.mem_map.mp new with ⟨effect, _, rfl⟩
        exact (List.getElem?_eq_some_iff.mp born).1
    · intro id other
      rw [owners id, if_neg other, effects, if_neg other, List.append_nil]
      exact ⟨rfl, rfl⟩
    · intro other member otherLive
      rw [← after] at member
      rcases List.mem_or_eq_of_mem_set member with old | rfl
      · exact Or.inl old
      · exact absurd rfl otherLive
    · intro used
      have fewer : world'.owners handle.origin = count - 1 := by omega
      rw [effects, if_pos rfl, history, World.ends, counted,
        if_neg (by omega), ← rest, if_neg (by omega), fewer]
      exact ⟨rfl, rfl⟩
    · intro unused
      rw [effects, if_pos rfl, history, World.ends, counted, if_pos (by omega)]
      rfl

/-! ## Calls -/

/-- A handle that was destroyed yields no clone. -/
theorem clone_destroyed
    (found : world.handles[index]? = some handle)
    (gone : handle.rc.inner = 0) :
    world.perform layout (.clone index) = some world := by
  dsimp only [World.perform]
  rw [found]
  dsimp only
  unfold RefCount.clone
  rw [if_pos gone]

/-- The item of a live handle. -/
theorem Sound.get
    (sound : Sound layout world) (member : handle ∈ world.handles)
    (live : handle.rc.inner ≠ 0) :
    ∃ birth, world.births[handle.origin]? = some birth ∧
      handle.rc = birth.rc ∧
      RefCount.get world.heap handle.rc = some (some birth.item) := by
  rcases List.mem_iff_getElem?.mp member with ⟨index, found⟩
  rcases sound.container found live with ⟨birth, born, same, kept⟩
  refine ⟨birth, born, same, ?_⟩
  unfold RefCount.get
  rw [if_neg live, kept]
  rfl

/-- The step lemma: a permitted call has a result and keeps the invariant. -/
theorem Sound.perform
    (sound : Sound layout world) {call : Call T}
    (permitted : Permitted world call) :
    ∃ world', world.perform layout call = some world' ∧
      Sound layout world' := by
  cases call with
  | create alloc value destructor grant =>
      cases grant with
      | error error => exact ⟨world, rfl, sound⟩
      | ok cont =>
          rcases permitted cont rfl with ⟨valid, fresh⟩
          exact ⟨_, rfl, sound.create alloc value destructor valid fresh⟩
  | clone index =>
      rcases permitted with ⟨handle, found, few⟩
      by_cases gone : handle.rc.inner = 0
      · exact ⟨world, clone_destroyed found gone, sound⟩
      · rcases sound.clone found gone few with ⟨world', clones, sound', _⟩
        exact ⟨world', clones, sound'⟩
  | get index =>
      refine ⟨world, ?_, sound⟩
      have found := List.getElem?_eq_getElem permitted
      dsimp only [World.perform]
      rw [found]
      dsimp only
      by_cases gone : world.handles[index].rc.inner = 0
      · unfold RefCount.get
        rw [if_pos gone]
        rfl
      · rcases sound.get (List.getElem_mem permitted) gone with
          ⟨birth, _, _, reads⟩
        rw [reads]
        rfl
  | destroy index =>
      rcases permitted with ⟨handle, found, live⟩
      rcases sound.destroy found live with
        ⟨_, world', _, destroys, sound', _⟩
      exact ⟨world', destroys, sound'⟩

end Steps

/-! ## Runs -/

/-- The program after a call. -/
def World.step (layout : Layout) (world : World T) (call : Call T) :
    World T :=
  (world.perform layout call).getD world

/-- The programs that runs of permitted calls reach. -/
def Reached (layout : Layout) : World T → Prop :=
  Reachable (fun world => world = World.start) Permitted (World.step layout)

theorem Reached.sound
    {layout : Layout} {world : World T} (reached : Reached layout world) :
    Sound layout world := by
  refine Reachable.invariant (Sound layout) ?_ ?_ reached
  · rintro _ rfl
    exact start_sound layout
  · intro world call sound permitted
    rcases sound.perform permitted with ⟨world', performs, sound'⟩
    unfold World.step
    rw [performs]
    exact sound'

/--
The main result: in every order of calls the counter of a container is the
number of its live handles and `_get` yields the created item.  Nothing is
done to a container before its last live handle is destroyed; that call runs
the destructor, if there is one, on the created item and then frees the
container with the size it was allocated with, and nothing follows.  A clone
of a live handle is one more handle of its container.  Every permitted call
has a result.
-/
theorem rc_shared
    {layout : Layout} {world : World T} (reached : Reached layout world) :
    Shared layout world ∧
      (∀ index handle, world.handles[index]? = some handle →
        handle.rc.inner ≠ 0 →
          ∃ birth world', world.births[handle.origin]? = some birth ∧
            world.perform layout (.destroy index) = some world' ∧
            world'.log = world.log ++
              (world.ends layout handle birth).map (handle.origin, ·)) ∧
      (∀ index handle, world.handles[index]? = some handle →
        handle.rc.inner ≠ 0 → world.owners handle.origin + 1 < sizeLimit →
          ∃ world', world.perform layout (.clone index) = some world' ∧
            world'.handles = world.handles ++ [handle]) ∧
      ∀ call, Permitted world call →
        (world.perform layout call).isSome = true := by
  have sound := reached.sound
  refine ⟨⟨sound.live, sound.dead, fun handle member live =>
    sound.get member live⟩, ?_, ?_, ?_⟩
  · intro index handle found live
    rcases sound.destroy found live with
      ⟨birth, world', born, destroys, _, log⟩
    exact ⟨birth, world', born, destroys, log⟩
  · intro index handle found live few
    rcases sound.clone found live few with
      ⟨world', clones, _, _, handles⟩
    exact ⟨world', clones, handles⟩
  · intro call permitted
    rcases sound.perform permitted with ⟨world', performs, _⟩
    rw [performs]
    rfl

/-- The layout of a container for a word. -/
def wordLayout : Layout := ⟨32, 8⟩

/-- A word, which is shared by two handles and another one. -/
def twoWords : World Nat :=
  ((World.start.step wordLayout (.create 1 42 true (.ok 64))).step wordLayout
    (.clone 0)).step wordLayout (.create 1 7 false (.ok 96))

theorem twoWords_reached : Reached wordLayout twoWords := by
  have first : Permitted (World.start : World Nat)
      (.create 1 42 true (.ok 64)) := by
    intro cont granted
    cases granted
    exact ⟨by decide, rfl⟩
  refine .step (.step (.step (.start rfl) first) ?_) ?_
  · exact ⟨⟨⟨64, 1⟩, 0⟩, rfl, by decide⟩
  · intro cont granted
    cases granted
    exact ⟨by decide, rfl⟩

/-- Both handles of the first word are destroyed. -/
theorem rc_shared_destroyed :
    ((twoWords.step wordLayout (.destroy 0)).step wordLayout
      (.destroy 1)).effects 0 =
        [.allocated 1 ⟨64, 32⟩, .destructed 42, .freed 1 ⟨64, 32⟩] := by
  have reached : Reached wordLayout
      ((twoWords.step wordLayout (.destroy 0)).step wordLayout
        (.destroy 1)) := by
    refine .step (.step twoWords_reached ?_) ?_
    · exact ⟨⟨⟨64, 1⟩, 0⟩, rfl, by decide⟩
    · exact ⟨⟨⟨64, 1⟩, 0⟩, rfl, by decide⟩
  exact (rc_shared reached).1.dead 0 ⟨⟨64, 1⟩, 42, true⟩ rfl (by decide)

end Libcute.Object.RefCount
