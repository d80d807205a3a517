import Libcute.Library.Transition
import Libcute.Memory.WasmAllocator.Calls

/-!
# Runs of the WebAssembly allocator

`Free` says which slots are on the free lists, by following the links.
`wasm_run_safe` is the main result: in every run, whatever `memory.grow`
answers, the slots of the live blocks, the free slots and the tails of the
current pages do not overlap, and every call is safe for the other blocks and
for the links.
-/

namespace Libcute.Memory.WasmAllocator

open Libcute.Core.Interface
open Libcute.Core.NoStd
open Libcute.Core.Size
open Libcute.Library.ByteMemory
open Libcute.Library.DividedMemory
open Libcute.Library.Transition
open Libcute.Memory.Client

variable {wasm : Wasm} {live : List Slice} {slots : Nat → List Nat}
  {layout : Layout} {mem old : Slice} {exponent addr : Nat}
  {memory memory' : Memory}

/-! ## Free slots -/

/-- The slot is on the free list of the exponent. -/
def Wasm.Free (wasm : Wasm) (exponent addr : Nat) : Prop :=
  minClass ≤ exponent ∧
    ∃ list, Threaded wasm.memory (2 ^ exponent) (wasm.freeHead exponent)
      list ∧ addr ∈ list

/-- The links determine the slots of a list. -/
theorem Threaded.unique {slotSize head : Nat} {left right : List Nat}
    (first : Threaded memory slotSize head left)
    (second : Threaded memory slotSize head right) : left = right := by
  induction left generalizing head right with
  | nil =>
      cases right with
      | nil => rfl
      | cons slot rest => exact absurd (second.1.symm.trans first) second.2.1
  | cons slot rest hypothesis =>
      cases right with
      | nil => exact absurd (first.1.symm.trans second) first.2.1
      | cons other others =>
          have same : slot = other := first.1.symm.trans second.1
          subst same
          rw [hypothesis first.2.2 second.2.2]

theorem Keeps.free_iff {loose : Option Region}
    (keeps : Keeps wasm live slots loose) :
    wasm.Free exponent addr ↔ addr ∈ slots exponent := by
  constructor
  · rintro ⟨least, list, threaded, member⟩
    rw [(keeps.threaded exponent least).unique threaded]
    exact member
  · intro member
    have least : minClass ≤ exponent :=
      Nat.le_of_lt (keeps.shapes exponent addr member).least
    exact ⟨least, slots exponent, keeps.threaded exponent least, member⟩

/-- The links of the slots that are free before and after a call. -/
def LinksStay (before after : Wasm) : Prop :=
  ∀ exponent addr, before.Free exponent addr → after.Free exponent addr →
    SameBytes before.memory after.memory (addr + 2 ^ exponent - wordSize)
      wordSize

/-! ## Calls as steps of a client -/

/-- The invariant of the allocator and its client. -/
def Holds (world : World Wasm) : Prop :=
  ∃ slots, Keeps world.state world.live slots none

/-- What a call that answers has to fulfil. -/
structure Good (wasm : Wasm) (live : List Slice) (old : Option Slice)
    (layout : Layout) (result : Except IoError Slice × Wasm) : Prop where
  outcome : Outcome wasmAllocator headerSize Unchanged Holds wasm live old
    result
  links : LinksStay wasm result.2
  answer : ∀ block, result.1 = .ok block →
    layout.alignment ∣ block.ptr ∧ block.length = layout.elemSize

theorem Unchanged.good {old : Option Slice} {after : Wasm}
    (same : Unchanged wasm after) (keeps : Keeps wasm live slots none)
    (err : IoError) : Good wasm live old layout (.error err, after) := by
  refine ⟨?_, ?_, fun block impossible => by cases impossible⟩
  · refine .failed err after same ⟨slots, same.keeps keeps⟩ ?_
    intro other _ _
    change SameBytes wasm.memory after.memory _ _
    rw [same.memory]
    exact .refl _ _ _
  · intro exponent addr _ _
    dsimp only
    rw [same.memory]
    exact .refl _ _ _

theorem Keeps.alloc_good (keeps : Keeps wasm live slots none)
    (aligned : Aligned layout) (fits : Fits layout) :
    Good wasm live none layout (wasm.alloc layout) := by
  rcases keeps.alloc_spec aligned fits with
    ⟨err, after, fails, same⟩ |
    ⟨ptr, after, slots', answers, keeps', multiple, links, blocks⟩
  · rw [fails]
    exact same.good keeps err
  · rw [answers]
    have valid : ptr ≠ 0 := by
      have below := (keeps'.placed _ List.mem_cons_self).below
      unfold headerSize at below
      dsimp only at below
      omega
    refine ⟨?_, ?_, ?_⟩
    · refine .answered _ after valid ⟨slots', keeps'⟩ ?_ ?_
      · exact fun other member _ => blocks other member
      · intro source impossible
        cases impossible
    · intro exponent addr _ freed
      exact links exponent addr (keeps'.free_iff.mp freed)
    · rintro block ⟨⟩
      exact ⟨multiple, rfl⟩

/-- Writes into a block keep the links and the other blocks. -/
theorem Keeps.writeBlock_kept (keeps : Keeps wasm live slots none)
    (member : mem ∈ live)
    (confined : Confined wasm.memory memory (regionOf mem)) :
    LinksKept wasm.memory memory slots ∧
      ∀ other ∈ live, other ≠ mem →
        SameBytes wasm.memory memory (other.ptr - headerSize)
          (headerSize + other.length) := by
  have within := (keeps.placed mem member).region_within
  constructor
  · intro exponent addr among
    apply confined.sameBytes
    have apart := keeps.divides.apart (.block mem) (.slot exponent addr)
      member among (by simp)
    exact apart.within within
      (link_within (keeps.shapes exponent addr among))
  · intro other among different
    apply confined.sameBytes
    have apart := keeps.divides.apart (.block mem) (.block other) member
      among (by simp [different.symm])
    exact apart.within within (keeps.placed other among).within

/-- The copy of the bytes of one block into another one. -/
theorem smemcpy_eq (keeps : Keeps wasm live slots none) {new : Slice}
    (oldMember : old ∈ live) (newMember : new ∈ live) (different : new ≠ old)
    {count : Nat} (bound : count ≤ old.length) :
    smemcpy wasm.memory new ⟨old.ptr, count⟩ =
      blit wasm.memory new.ptr old.ptr (min new.length count) := by
  have apart := keeps.divides.apart (.block new) (.block old) newMember
    oldMember (by simp [different])
  have newPlaced := keeps.placed new newMember
  have oldPlaced := keeps.placed old oldMember
  have newStart := newPlaced.start_eq
  have oldStart := oldPlaced.start_eq
  have newInside := newPlaced.inside
  have oldInside := oldPlaced.inside
  change Apart (slotOf wasm.memory new).start (slotOf wasm.memory new).size
    (slotOf wasm.memory old).start (slotOf wasm.memory old).size at apart
  unfold Apart at apart
  unfold headerSize at newStart oldStart
  unfold smemcpy
  rw [if_neg (by dsimp only; omega)]
  apply copyForward_eq_blit
  dsimp only
  omega

/-- A block that is moved: a new one, a copy, and the old one is freed. -/
theorem Keeps.move_good {after : Wasm} {slots' : Nat → List Nat}
    {new : Slice}
    (keeps : Keeps wasm live slots none) (member : old ∈ live)
    (keeps' : Keeps after (new :: live) slots' none)
    (multiple : layout.alignment ∣ new.ptr)
    (length : new.length = layout.elemSize)
    (links : LinksKept wasm.memory after.memory slots')
    (blocks : BlocksKept wasm.memory after.memory live) :
    Good wasm live (some old) layout
      (.ok new, (after.withMemory (smemcpy after.memory new
        ⟨old.ptr, min old.length new.length⟩)).free old) := by
  have fresh := (List.nodup_cons.mp keeps'.distinct).1
  have different : new ≠ old := by
    rintro rfl
    exact fresh member
  have oldMember : old ∈ new :: live := List.mem_cons_of_mem _ member
  have newMember : new ∈ new :: live := List.mem_cons_self
  have copies := smemcpy_eq keeps' oldMember newMember different
    (Nat.min_le_left old.length new.length)
  rw [copies]
  have confined : Confined after.memory (blit after.memory new.ptr old.ptr
      (min new.length (min old.length new.length))) (regionOf new) :=
    (Confined.blit after.memory new.ptr old.ptr _).widen
      ⟨Nat.le_refl _, Nat.add_le_add_left (Nat.min_le_left _ _) _⟩
  have carried : ∀ offset < min old.length new.length,
      blit after.memory new.ptr old.ptr
        (min new.length (min old.length new.length)) (new.ptr + offset) =
          after.memory (old.ptr + offset) :=
    fun offset inside => blit_inside _ _ (by omega)
  generalize blit after.memory new.ptr old.ptr
    (min new.length (min old.length new.length)) = copied at *
  rcases keeps'.writeBlock_kept newMember confined with
    ⟨copyLinks, copyBlocks⟩
  have keptCopy := keeps'.writeBlock newMember confined
  rcases keptCopy.free_spec oldMember with
    ⟨exponent, _, freed, freeLinks, freeBlocks⟩
  have erased : (new :: live).erase old = new :: live.erase old :=
    List.erase_cons_tail (by simp [different])
  rw [erased] at freed freeBlocks
  have valid : new.ptr ≠ 0 := by
    have below := (keeps'.placed new newMember).below
    unfold headerSize at below
    omega
  have slot : slotOf copied old = slotOf wasm.memory old := by
    have kept := (blocks old member).trans
      (copyBlocks old oldMember different.symm)
    exact (slotOf_congr (kept.inside (Nat.le_refl _) (by omega))).1
  generalize final : (after.withMemory copied).free old = last at *
  refine ⟨?_, ?_, ?_⟩
  · refine .answered new last valid ⟨_, freed⟩ ?_ ?_
    · intro other among notOld
      have distinct : other ≠ old := fun same =>
        notOld (congrArg some same.symm)
      have notNew : other ≠ new := by
        rintro rfl
        exact fresh among
      refine (blocks other among).trans ?_
      refine (copyBlocks other (List.mem_cons_of_mem _ among) notNew).trans ?_
      exact freeBlocks other (List.mem_cons_of_mem _
        ((List.mem_erase_of_ne distinct).mpr among))
    · rintro source ⟨⟩ offset inside
      have placed := keeps'.placed new newMember
      have kept := freeBlocks new List.mem_cons_self
      have start := placed.start_eq
      have bytes : SameBytes copied last.memory new.ptr new.length :=
        kept.inside (by omega) (by omega)
      have first := bytes offset (by omega)
      have oldStart := (keeps.placed old member).start_eq
      have oldBytes : SameBytes wasm.memory after.memory old.ptr old.length :=
        (blocks old member).inside (by omega) (by omega)
      exact first.trans ((carried offset inside).trans
        (oldBytes offset (by omega)))
  · intro other addr before behind
    have listed := freed.free_iff.mp behind
    have stillFree : addr ∈ slots' other := by
      by_cases same : other = exponent
      · subst same
        rw [Function.update_self, List.mem_cons] at listed
        rcases listed with returned | listed
        · exfalso
          have wasFree := keeps.free_iff.mp before
          have apart := keeps.divides.apart (.block old) (.slot other addr)
            member wasFree (by simp)
          change Apart (slotOf wasm.memory old).start
            (slotOf wasm.memory old).size addr (2 ^ other) at apart
          change addr = (slotOf copied old).start at returned
          rcases (keeps.placed old member).shape with ⟨exponent, shape⟩
          have room := shape.word_le
          have positive := Nat.two_pow_pos other
          unfold headerSize at room
          unfold Apart at apart
          rw [slot] at returned
          omega
        · exact listed
      · rw [Function.update_of_ne same] at listed
        exact listed
    exact ((links other addr stillFree).trans
      (copyLinks other addr stillFree)).trans
        (freeLinks other addr stillFree)
  · rintro block ⟨⟩
    exact ⟨multiple, length⟩

/-- A block that stays gets its new length. -/
theorem Keeps.stay_good (keeps : Keeps wasm live slots none)
    (member : old ∈ live) (multiple : old.ptr % layout.alignment = 0)
    (room : headerOffset wasm.memory old.ptr + headerSize +
      layout.elemSize + wordSize ≤ headerSlotSize wasm.memory old.ptr) :
    Good wasm live (some old) layout
      (.ok ⟨old.ptr, layout.elemSize⟩, wasm) := by
  have placed := keeps.placed old member
  have resized : Placed wasm.memory ⟨old.ptr, layout.elemSize⟩ := by
    refine ⟨placed.shape, placed.below, placed.offset, ?_⟩
    have start := placed.start_eq
    change old.ptr + layout.elemSize + wordSize ≤
      (slotOf wasm.memory old).start + headerSlotSize wasm.memory old.ptr
    omega
  have valid : old.ptr ≠ 0 := by
    have below := placed.below
    unfold headerSize at below
    omega
  have released : Keeps wasm (live.erase old) slots
      (some (slotOf wasm.memory ⟨old.ptr, layout.elemSize⟩)) :=
    keeps.release member
  refine ⟨?_, fun _ _ _ _ => .refl _ _ _, ?_⟩
  · refine .answered _ wasm valid ⟨slots, released.hand resized⟩ ?_ ?_
    · exact fun _ _ _ => .refl _ _ _
    · rintro source ⟨⟩ position _
      rfl
  · rintro block ⟨⟩
    exact ⟨Nat.dvd_of_mod_eq_zero multiple, rfl⟩

theorem Keeps.resize_good (keeps : Keeps wasm live slots none)
    (member : old ∈ live) (aligned : Aligned layout) (fits : Fits layout) :
    Good wasm live (some old) layout (wasm.resize old layout) := by
  have bounded := (keeps.placed old member).offset
  have small := fits
  unfold Fits at small
  unfold pageSize at bounded
  have offset : sizeAdd (headerOffset wasm.memory old.ptr) headerSize =
      headerOffset wasm.memory old.ptr + headerSize := by
    apply sizeAdd_eq
    unfold sizeLimit
    omega
  have inner : sizeAdd (headerOffset wasm.memory old.ptr + headerSize)
      layout.elemSize = headerOffset wasm.memory old.ptr + headerSize +
        layout.elemSize := by
    apply sizeAdd_eq
    unfold sizeLimit
    omega
  have total : sizeAdd (headerOffset wasm.memory old.ptr + headerSize +
      layout.elemSize) wordSize = headerOffset wasm.memory old.ptr +
        headerSize + layout.elemSize + wordSize := by
    apply sizeAdd_eq
    unfold wordSize sizeLimit at *
    omega
  unfold Wasm.resize
  rw [offset]
  dsimp only
  rw [inner, total]
  by_cases stays : old.ptr % layout.alignment = 0 ∧
      headerOffset wasm.memory old.ptr + headerSize + layout.elemSize +
        wordSize ≤ headerSlotSize wasm.memory old.ptr
  · rw [if_pos stays]
    exact keeps.stay_good member stays.1 stays.2
  · rw [if_neg stays]
    rcases keeps.alloc_spec aligned fits with
      ⟨err, after, fails, same⟩ |
      ⟨ptr, after, slots', answers, keeps', multiple, links, blocks⟩
    · rw [fails]
      exact same.good keeps err
    · rw [answers]
      exact keeps.move_good member keeps' multiple rfl links blocks

/-! ## Runs -/

/-- The layout that a call asks for. -/
def layoutOf : Call → Option Layout
  | .alloc layout | .grow _ layout | .shrink _ layout => some layout
  | .free _ | .write _ _ => none

/--
A call is about a live block, and asks for an alignment of at most 64 KiB and
for a size with which nothing wraps.
-/
def Permitted (world : World Wasm) (call : Call) : Prop :=
  (∀ target, call.target = some target → target ∈ world.live) ∧
    ∀ layout, layoutOf call = some layout → Aligned layout ∧ Fits layout

/-- At the start of the program there are no blocks. -/
def Start (world : World Wasm) : Prop :=
  ∃ memory answers, world = ⟨.start memory answers, []⟩

/-- What holds of a step. -/
structure StepGood (world : World Wasm) (call : Call) : Prop where
  /-- The other blocks and the bytes of resized ones are safe. -/
  safe : StepSafe wasmAllocator headerSize Unchanged world call
  /-- The links of slots that stay free are not overwritten. -/
  links : LinksStay world.state (wasmAllocator.step world call).state
  /-- Returned addresses are multiples of the alignment. -/
  answer : ∀ layout block after, layoutOf call = some layout →
    wasmAllocator.respond world.state call = some (.ok block, after) →
      layout.alignment ∣ block.ptr ∧ block.length = layout.elemSize

theorem start_holds {world : World Wasm} (start : Start world) :
    Holds world := by
  rcases start with ⟨memory, answers, rfl⟩
  refine ⟨fun _ => [], ⟨⟨?_, ?_⟩, ?_, ?_, ?_, ?_, ?_, ?_, ?_⟩⟩
  · intro left right leftPresent
    cases left with
    | block mem => cases leftPresent
    | slot exponent addr => cases leftPresent
    | tail cls => exact absurd rfl leftPresent.2
    | loose => exact absurd rfl leftPresent
  · intro owner present
    cases owner with
    | block mem => cases present
    | slot exponent addr => cases present
    | tail cls => exact absurd rfl present.2
    | loose => exact absurd rfl present
  · intro exponent _
    change (if exponent < 16 then 0 else 0) = 0
    split <;> rfl
  · exact fun _ _ member => absurd member List.not_mem_nil
  · exact fun _ => List.nodup_nil
  · exact fun _ member => absurd member List.not_mem_nil
  · exact List.nodup_nil
  · exact fun _ _ => Nat.dvd_zero _
  · exact fun _ member => absurd member List.not_mem_nil

/-- A call that answers is a step that is good. -/
theorem Good.step {world : World Wasm} {call : Call}
    {result : Except IoError Slice × Wasm}
    (responds : wasmAllocator.respond world.state call = some result)
    (asks : layoutOf call = some layout)
    (good : Good world.state world.live call.target layout result) :
    Holds (wasmAllocator.step world call) ∧ StepGood world call := by
  rcases good.outcome.safe responds with ⟨holds, safe⟩
  refine ⟨holds, safe, ?_, ?_⟩
  · rw [step_of_respond responds, World.receive_state]
    exact good.links
  · intro layout' block after asks' responds'
    rw [asks] at asks'
    rw [responds] at responds'
    cases asks'
    cases responds'
    exact good.answer block rfl

/-- The step lemma. -/
theorem Holds.step {world : World Wasm} {call : Call}
    (holds : Holds world) (permitted : Permitted world call) :
    Holds (wasmAllocator.step world call) ∧ StepGood world call := by
  rcases holds with ⟨slots, keeps⟩
  rcases permitted with ⟨among, sizes⟩
  have valid {old : Slice} (member : old ∈ world.live) : old.ptr ≠ 0 := by
    have below := (keeps.placed old member).below
    unfold headerSize at below
    omega
  cases call with
  | alloc layout =>
      rcases sizes layout rfl with ⟨aligned, fits⟩
      exact (keeps.alloc_good aligned fits).step rfl rfl
  | grow old layout =>
      rcases sizes layout rfl with ⟨aligned, fits⟩
      have member := among old rfl
      have resizes : world.state.grow old layout =
          world.state.resize old layout := if_neg (valid member)
      exact (keeps.resize_good member aligned fits).step
        (congrArg some resizes) rfl
  | shrink old layout =>
      rcases sizes layout rfl with ⟨aligned, fits⟩
      have member := among old rfl
      have resizes : world.state.shrink old layout =
          world.state.resize old layout := if_neg (valid member)
      exact (keeps.resize_good member aligned fits).step
        (congrArg some resizes) rfl
  | free mem =>
      have member := among mem rfl
      rcases keeps.free_spec member with ⟨exponent, _, freed, links, blocks⟩
      refine ⟨⟨_, freed⟩, ?_, ?_, ?_⟩
      · apply StepSafe.of_free
        intro block inLive different
        exact blocks block
          ((List.mem_erase_of_ne different.symm).mpr inLive)
      · intro exponent addr before _
        exact links exponent addr (keeps.free_iff.mp before)
      · intro layout block after impossible
        cases impossible
  | write block content =>
      have member := among block rfl
      have confined := Confined.overwrite world.state.memory content
        block.ptr block.length
      rcases keeps.writeBlock_kept member confined with ⟨links, blocks⟩
      refine ⟨⟨slots, keeps.writeBlock member confined⟩, ?_, ?_, ?_⟩
      · apply StepSafe.of_write fun _ _ => rfl
        intro other inLive different
        have apart := keeps.divides.apart (.block block) (.block other) member
          inLive (by simp [different])
        exact apart.within (keeps.placed block member).region_within
          (keeps.placed other inLive).within
      · intro exponent addr before _
        exact links exponent addr (keeps.free_iff.mp before)
      · intro layout block after impossible
        cases impossible

theorem holds_of_reachable {world : World Wasm}
    (reachable :
      Reachable Start Permitted wasmAllocator.step world) : Holds world :=
  reachable.invariant Holds (fun _ start => start_holds start)
    fun _ _ holds permitted => (holds.step permitted).1

/-- Who has a region: live blocks, free slots and tails of current pages. -/
def Owns (world : World Wasm) : Owner → Prop
  | .block mem => mem ∈ world.live
  | .slot exponent addr => world.state.Free exponent addr
  | .tail cls =>
      cls < sizeClassCount ∧ world.state.nextAddrs cls % pageSize ≠ 0
  | .loose => False

/-- The region of an owner. -/
def ownRegion (world : World Wasm) : Owner → Region
  | .block mem => slotOf world.state.memory mem
  | .slot exponent addr => ⟨addr, 2 ^ exponent⟩
  | .tail cls => tailOf (world.state.nextAddrs cls)
  | .loose => ⟨0, 0⟩

/--
The main result.  In every run the slots of the live blocks, the slots on all
free lists and the tails of all current pages are apart, and no free list has
a slot twice; a block and its header lie in their slot in front of its last
word; and every call keeps the other blocks, the links of the slots that stay
free and the common bytes of a resized block, and answers with an aligned
address.
-/
theorem wasm_run_safe {world : World Wasm}
    (reachable : Reachable Start Permitted wasmAllocator.step world) :
    (∀ left right, Owns world left → Owns world right → left ≠ right →
      (ownRegion world left).Apart (ownRegion world right)) ∧
      world.live.Nodup ∧
      (∀ exponent, minClass ≤ exponent → ∃ list,
        Threaded world.state.memory (2 ^ exponent)
          (world.state.freeHead exponent) list ∧ list.Nodup) ∧
      (∀ mem ∈ world.live,
        (ownRegion world (.block mem)).start + headerSize ≤ mem.ptr ∧
          mem.ptr + mem.length + wordSize ≤
            (ownRegion world (.block mem)).start +
              (ownRegion world (.block mem)).size) ∧
      ∀ call, Permitted world call → StepGood world call := by
  have holds := holds_of_reachable reachable
  have steps (call : Call) (permitted : Permitted world call) :
      StepGood world call := (holds.step permitted).2
  rcases holds with ⟨slots, keeps⟩
  refine ⟨?_, keeps.distinct, ?_, ?_, steps⟩
  · have present (owner : Owner) (owns : Owns world owner) :
        (division world.state world.live slots none).present owner ∧
          (division world.state world.live slots none).region owner =
            ownRegion world owner := by
      cases owner with
      | block mem => exact ⟨owns, rfl⟩
      | slot exponent addr => exact ⟨keeps.free_iff.mp owns, rfl⟩
      | tail cls => exact ⟨owns, rfl⟩
      | loose => cases owns
    intro left right leftOwns rightOwns different
    rcases present left leftOwns with ⟨leftPresent, leftSame⟩
    rcases present right rightOwns with ⟨rightPresent, rightSame⟩
    rw [← leftSame, ← rightSame]
    exact keeps.divides.apart left right leftPresent rightPresent different
  · exact fun exponent least =>
      ⟨slots exponent, keeps.threaded exponent least, keeps.nodup exponent⟩
  · intro mem member
    have placed := keeps.placed mem member
    have start := placed.start_eq
    refine ⟨?_, placed.inside⟩
    change (slotOf world.state.memory mem).start + headerSize ≤ mem.ptr
    omega

/-- The program asks for 64 bytes, and `memory.grow` answers with page 1. -/
def firstBlock : World Wasm :=
  wasmAllocator.step ⟨.start (fun _ => 0) [some 1], []⟩ (.alloc ⟨64, 8⟩)

/-- The block lies in front of the tail of its page, and may be freed. -/
theorem wasm_run_safe_firstBlock :
    firstBlock.live = [⟨65552, 64⟩] ∧
      (ownRegion firstBlock (.block ⟨65552, 64⟩)).Apart
        (ownRegion firstBlock (.tail 3)) ∧
      StepGood firstBlock (.free ⟨65552, 64⟩) := by
  have aligned : Aligned ⟨64, 8⟩ := ⟨3, by decide, rfl⟩
  have fits : Fits ⟨64, 8⟩ := by
    unfold Fits
    decide
  have live : firstBlock.live = [⟨65552, 64⟩] := rfl
  have reachable :
      Reachable Start Permitted wasmAllocator.step firstBlock := by
    refine .step (.start ⟨_, _, rfl⟩) ⟨?_, ?_⟩
    · rintro target ⟨⟩
    · rintro layout ⟨⟩
      exact ⟨aligned, fits⟩
  have safe := wasm_run_safe reachable
  refine ⟨live, ?_, safe.2.2.2.2 _ ⟨?_, ?_⟩⟩
  · apply safe.1
    · change _ ∈ firstBlock.live
      rw [live]
      exact List.mem_cons_self
    · exact ⟨by decide, by decide⟩
    · simp
  · rintro target ⟨⟩
    rw [live]
    exact List.mem_cons_self
  · rintro layout ⟨⟩

end Libcute.Memory.WasmAllocator
