import Libcute.Memory.FixedAllocator
import Libcute.Memory.NewestBlock

/-!
# Reclaiming the buffer in the order of allocation

The newest block of a client that only touches its newest block ends at the
top of the buffer, so it never moves, and freeing it puts the top back.
-/

namespace Libcute.Memory.FixedAllocator

open Libcute.Core.Interface
open Libcute.Core.Size
open Libcute.Library.BumpRegions
open Libcute.Library.ByteMemory
open Libcute.Library.Transition
open Libcute.Memory.Client
open Libcute.Memory.NewestBlock

variable {fixed before : Fixed} {live rest : List Slice} {block : Slice}
  {layout : Layout} {ledger : Ledger Fixed} {earlier : List Fixed}

/-- The buffer is as full as it was before. -/
def Restored (before after : Fixed) : Prop :=
  after.used = before.used

/-- Nothing is in use. -/
def Unused (fixed : Fixed) : Prop :=
  fixed.used = 0

/-- The calls of a client that does not reset the buffer. -/
def PermittedCall (world : World Fixed) (call : Call) : Prop :=
  Permitted world (.call call)

/-- The top of the buffer for a value of `used`. -/
def Fixed.topOf (fixed : Fixed) (used : Nat) (_ : Unit) : Nat :=
  fixed.buffer.ptr + used

/-- The tops unwind through the tops that were written down. -/
abbrev Unwound
    (fixed : Fixed) (live : List Slice) (before : List Fixed) : Prop :=
  Unwinds fixed.placement (fixed.topOf 0) (fixed.topOf fixed.used) live
    (before.map fun earlier => fixed.topOf earlier.used)

theorem Fixed.topOf_inj {left right : Nat}
    (same : fixed.topOf left = fixed.topOf right) : left = right :=
  Nat.add_left_cancel (congrFun same ())

theorem Unwound.topmost
    (unwound : Unwound fixed (block :: rest) earlier) :
    fixed.Topmost block :=
  Unwinds.topmost unwound

theorem Unwound.written
    (unwound : Unwound fixed (block :: rest) earlier) :
    ∃ before older, earlier = before :: older := by
  rcases Unwinds.written unwound with ⟨top, tops, written⟩
  rcases List.map_eq_cons_iff.mp written with ⟨before, older, same, _⟩
  exact ⟨before, older, same⟩

/-- Headers that stay keep the tops unwinding. -/
theorem unwinds_headers
    {memory : Memory} {top : Unit → Nat} {tops : List (Unit → Nat)}
    (unwinds : Unwinds fixed.placement (fixed.topOf 0) top live tops)
    (headers : ∀ block ∈ live,
      ({ fixed with memory } : Fixed).prevOffset block.ptr =
        fixed.prevOffset block.ptr) :
    Unwinds ({ fixed with memory } : Fixed).placement (fixed.topOf 0) top
      live tops := by
  apply unwinds.congr
  · intro block member
    rfl
  · intro block member
    simp only [Fixed.placement, headers block member]
  · intro block member
    rfl

/-- The new block is placed on the top of the buffer. -/
theorem Unwound.place {start size : Nat}
    (unwound : Unwound fixed live earlier) (holds : fixed.Holds live)
    (usedFits : fixed.used < sizeLimit)
    (above : fixed.used + headerSize ≤ start) :
    Unwound (fixed.place start size)
      (⟨fixed.buffer.ptr + start, size⟩ :: live) (fixed :: earlier) := by
  have marked :
      (fixed.place start size).prevOffset (fixed.buffer.ptr + start) =
        fixed.used :=
    loadBytes_storeBytes_of_lt fixed.memory _ usedFits
  refine .placed ?_ ?_ ?_ ?_
  · simp only [Fixed.placement, marked]
    rfl
  · simp only [Fixed.placement, Slice.finish, Fixed.topOf, place_used,
      place_buffer]
    omega
  · intro region different
    exact (different rfl).elim
  · refine unwinds_headers unwound ?_
    intro block member
    exact prevOffset_eq_of_withHeader
      (place_withHeader size holds above member)

/-- The newest block gets another end. -/
theorem Unwound.resize
    (unwound : Unwound fixed (block :: rest) (before :: earlier))
    (low : fixed.buffer.ptr ≤ block.ptr) (size : Nat) :
    Unwound { fixed with used := fixed.used - block.length + size }
      (⟨block.ptr, size⟩ :: rest) (before :: earlier) := by
  have topmost := unwound.topmost
  unfold Fixed.Topmost Slice.finish at topmost
  refine Unwinds.resize unwound rfl rfl ?_ ?_
  · simp only [Fixed.placement, Slice.finish, Fixed.topOf]
    omega
  · intro region different
    exact (different rfl).elim

/-- Freeing the newest block. -/
theorem Unwound.free
    (unwound : Unwound fixed (block :: rest) (before :: earlier))
    (valid : block.ptr ≠ 0) :
    (fixedFree fixed block).used = before.used ∧
      Unwound (fixedFree fixed block) rest earlier := by
  have topmost := unwound.topmost
  have released : fixedFree fixed block =
      { fixed with used := fixed.prevOffset block.ptr } := by
    simp [fixedFree, valid, topmost]
  have popped : fixed.topOf (fixed.prevOffset block.ptr) =
        fixed.topOf before.used ∧
      Unwinds fixed.placement (fixed.topOf 0) (fixed.topOf before.used) rest
        (earlier.map fun earlier => fixed.topOf earlier.used) := by
    apply Unwinds.pop unwound
    · rfl
    · intro region different
      exact (different rfl).elim
  have same := Fixed.topOf_inj popped.1
  rw [released, same]
  exact ⟨rfl, popped.2⟩

/--
A topmost block that does not grow in place does not fit behind itself
either, so nothing happens.
-/
theorem fixedGrow_topmost {world : World Fixed}
    (invariant : Invariant world) (member : block ∈ world.live)
    (topmost : world.state.Topmost block)
    (fits : ¬ world.state.GrowsInPlace block layout →
      world.state.SumsFit layout) :
    (∃ error, fixedGrow world.state block layout =
      (.error error, world.state)) ∨
    fixedGrow world.state block layout =
      (.ok ⟨block.ptr, layout.elemSize⟩,
        { world.state with
          used := world.state.used - block.length + layout.elemSize }) := by
  have bounds := invariant.bounds member
  have valid : block.ptr ≠ 0 := by
    unfold headerSize at bounds
    omega
  have free : sizeSub world.state.buffer.length world.state.used =
      world.state.buffer.length - world.state.used :=
    sizeSub_eq bounds.2.2.1 (by omega)
  have sum : sizeAdd block.length
      (world.state.buffer.length - world.state.used) =
      block.length + (world.state.buffer.length - world.state.used) :=
    sizeAdd_eq (by omega)
  by_cases inPlace : world.state.GrowsInPlace block layout
  · right
    have room := inPlace.2
    rw [free, sum] at room
    simp only [fixedGrow, valid, if_false, inPlace, if_true]
    rw [resizeTop_eq invariant member (by omega)]
  · left
    rcases fixedAlloc_cases layout (fits inPlace) with
      ⟨error, failed⟩ | ⟨start, above, inside, nonempty, placed⟩
    · exact ⟨error, by
        simp only [fixedGrow, valid, if_false, inPlace, failed]⟩
    · refine absurd ⟨topmost, ?_⟩ inPlace
      rw [free, sum]
      omega

/-! ## One step -/

/-- The invariant of the runs, and the tops unwind along the ledger. -/
structure LedgerOk (ledger : Ledger Fixed) : Prop where
  invariant : Invariant ledger.world
  unwound : Unwound ledger.world.state ledger.world.live ledger.before

theorem LedgerOk.alloc
    (good : LedgerOk ledger) (fits : ledger.world.state.SumsFit layout) :
    Unwound (ledger.step fixedAllocator (.alloc layout)).world.state
      (ledger.step fixedAllocator (.alloc layout)).world.live
      (ledger.step fixedAllocator (.alloc layout)).before := by
  rcases good with ⟨invariant, unwound⟩
  have used := invariant.used_le
  have fitsBuffer := invariant.buffer_fits
  unfold Ledger.step Allocator.step
  simp only [fixedAllocator]
  rcases fixedAlloc_cases layout fits with
    ⟨error, failed⟩ | ⟨start, above, inside, nonempty, placed⟩
  · rw [failed]
    exact unwound
  · have valid : ledger.world.state.buffer.ptr + start ≠ 0 := by
      unfold headerSize at above
      omega
    rw [placed, World.receive_ok _ _ _ _ valid]
    exact unwound.place invariant.holds (by omega) above

theorem LedgerOk.grow
    (good : LedgerOk ledger)
    (newest : ledger.world.live.head? = some block)
    (fits : ¬ ledger.world.state.GrowsInPlace block layout →
      ledger.world.state.SumsFit layout) :
    Unwound (ledger.step fixedAllocator (.grow block layout)).world.state
      (ledger.step fixedAllocator (.grow block layout)).world.live
      (ledger.step fixedAllocator (.grow block layout)).before := by
  rcases ledger with ⟨⟨fixed, live⟩, earlier⟩
  rcases good with ⟨invariant, unwound⟩
  dsimp only at newest fits unwound
  rcases List.head?_eq_some_iff.mp newest with ⟨rest, rfl⟩
  rcases unwound.written with ⟨before, older, rfl⟩
  have bounds := invariant.bounds List.mem_cons_self
  unfold headerSize at bounds
  dsimp only at bounds
  unfold Ledger.step Allocator.step
  simp only [fixedAllocator]
  rcases fixedGrow_topmost invariant List.mem_cons_self unwound.topmost
    fits with ⟨error, failed⟩ | grown
  · rw [failed]
    exact unwound
  · rw [grown, World.receive_ok _ _ _ _ (by omega), release,
      List.erase_cons_head]
    exact unwound.resize (by omega) _

theorem LedgerOk.shrink
    (good : LedgerOk ledger)
    (newest : ledger.world.live.head? = some block)
    (shorter : layout.elemSize ≤ block.length) :
    Unwound (ledger.step fixedAllocator (.shrink block layout)).world.state
      (ledger.step fixedAllocator (.shrink block layout)).world.live
      (ledger.step fixedAllocator (.shrink block layout)).before := by
  rcases ledger with ⟨⟨fixed, live⟩, earlier⟩
  rcases good with ⟨invariant, unwound⟩
  dsimp only at newest unwound
  rcases List.head?_eq_some_iff.mp newest with ⟨rest, rfl⟩
  rcases unwound.written with ⟨before, older, rfl⟩
  have bounds := invariant.bounds List.mem_cons_self
  unfold headerSize at bounds
  dsimp only at bounds
  have valid : block.ptr ≠ 0 := by omega
  have topmost := unwound.topmost
  have room : fixed.used + layout.elemSize ≤
      fixed.buffer.length + block.length := by omega
  have shrunk : fixedShrink fixed block layout =
      (.ok ⟨block.ptr, layout.elemSize⟩,
        { fixed with
          used := fixed.used - block.length + layout.elemSize }) := by
    simp only [fixedShrink, valid, if_false, topmost, if_true]
    rw [resizeTop_eq invariant List.mem_cons_self room]
  unfold Ledger.step Allocator.step
  simp only [fixedAllocator]
  rw [shrunk, World.receive_ok _ _ _ _ valid, release, List.erase_cons_head]
  exact unwound.resize (by omega) _

theorem LedgerOk.free
    (good : LedgerOk ledger)
    (newest : ledger.world.live.head? = some block) :
    Unwound (ledger.step fixedAllocator (.free block)).world.state
      (ledger.step fixedAllocator (.free block)).world.live
      (ledger.step fixedAllocator (.free block)).before := by
  rcases ledger with ⟨⟨fixed, live⟩, earlier⟩
  rcases good with ⟨invariant, unwound⟩
  dsimp only at newest unwound
  rcases List.head?_eq_some_iff.mp newest with ⟨rest, rfl⟩
  rcases unwound.written with ⟨before, older, rfl⟩
  have bounds := invariant.bounds List.mem_cons_self
  unfold headerSize at bounds
  unfold Ledger.step Allocator.step
  simp only [fixedAllocator, List.erase_cons_head, List.tail_cons]
  exact (unwound.free (by omega)).2

theorem LedgerOk.write
    (good : LedgerOk ledger) (member : block ∈ ledger.world.live)
    (content : Memory) :
    Unwound (ledger.step fixedAllocator (.write block content)).world.state
      (ledger.step fixedAllocator (.write block content)).world.live
      (ledger.step fixedAllocator (.write block content)).before := by
  rcases good with ⟨invariant, unwound⟩
  exact unwinds_headers unwound fun other otherMember =>
    invariant.holds.write_header member otherMember content

/-- A permitted call of a client that works on its newest block. -/
theorem LedgerOk.step
    {call : Call} (good : LedgerOk ledger)
    (allowed : OnNewest PermittedCall ledger call) :
    LedgerOk (ledger.step fixedAllocator call) := by
  have kept : Invariant (fixedStep ledger.world (.call call)) :=
    step_invariant good.invariant allowed.1
  refine ⟨kept, ?_⟩
  rcases allowed with ⟨permitted, newest⟩
  cases call with
  | alloc layout => exact good.alloc permitted
  | grow old layout => exact good.grow newest permitted.2
  | shrink old layout => exact good.shrink newest.1 permitted.2.1
  | free mem => exact good.free newest
  | write block content => exact good.write permitted content

/-! ## Runs -/

theorem fixed_reclaims
    {buffer : Slice} {memory : Memory}
    (fits : buffer.finish < sizeLimit)
    (kept : Kept fixedAllocator PermittedCall (fixedCreate buffer memory)
      ledger) :
    Reclaims fixedAllocator Restored Unused ledger := by
  have good : LedgerOk ledger := by
    refine Reachable.invariant LedgerOk ?_
      (fun _ _ good allowed => good.step allowed) kept
    rintro start rfl
    exact ⟨create_invariant memory fits, .empty⟩
  rcases ledger with ⟨⟨fixed, live⟩, earlier⟩
  rcases good with ⟨invariant, unwound⟩
  dsimp only at unwound
  constructor
  · rintro block rest ⟨rfl⟩
    rcases unwound.written with ⟨before, older, rfl⟩
    have bounds := invariant.bounds List.mem_cons_self
    unfold headerSize at bounds
    exact ⟨before, older, rfl, (unwound.free (by omega)).1⟩
  · rintro ⟨rfl⟩
    exact Fixed.topOf_inj (Unwinds.eq_base unwound)

end Libcute.Memory.FixedAllocator
