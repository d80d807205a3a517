import Libcute.Memory.Client

/-!
# Clients that work on their newest block

A client that grows, shrinks and frees only the block it allocated last
expects every release to undo an allocation.  A `Ledger` is a world together
with the states before the allocations of its blocks, and `Reclaims` compares
the state after a release with the one that was written down.
-/

namespace Libcute.Memory.NewestBlock

open Libcute.Core.Interface
open Libcute.Library.Transition
open Libcute.Memory.Client

variable {State : Type}

/--
A world and, for each of its blocks, the state before it was allocated; the
newest block comes first in both lists.
-/
structure Ledger (State : Type) where
  world : World State
  before : List State

/-- A successful allocation is written down, and a release crossed out. -/
def Ledger.step
    (allocator : Allocator State) (ledger : Ledger State) (call : Call) :
    Ledger State where
  world := allocator.step ledger.world call
  before :=
    match call with
    | .alloc layout =>
        match allocator.allocFn ledger.world.state layout with
        | (.ok _, _) => ledger.world.state :: ledger.before
        | (.error _, _) => ledger.before
    | .grow _ _ => ledger.before
    | .shrink _ _ => ledger.before
    | .free _ => ledger.before.tail
    | .write _ _ => ledger.before

/-- Blocks are resized, to a nonzero size, and freed when they are the newest. -/
def OnNewest
    (permitted : World State → Call → Prop) (ledger : Ledger State)
    (call : Call) : Prop :=
  permitted ledger.world call ∧
    match call with
    | .alloc _ => True
    | .grow old _ => ledger.world.live.head? = some old
    | .shrink old layout =>
        ledger.world.live.head? = some old ∧ layout.elemSize ≠ 0
    | .free mem => ledger.world.live.head? = some mem
    | .write _ _ => True

/-- The ledgers of all runs of such a client. -/
abbrev Kept
    (allocator : Allocator State)
    (permitted : World State → Call → Prop) (start : World State) :
    Ledger State → Prop :=
  Reachable (· = ⟨start, []⟩) (OnNewest permitted)
    (Ledger.step allocator)

/--
Freeing the newest block leads back to the state before it was allocated, as
far as `Restored` can tell, and without blocks nothing is in use.
-/
structure Reclaims
    (allocator : Allocator State) (Restored : State → State → Prop)
    (Unused : State → Prop) (ledger : Ledger State) : Prop where
  newest : ∀ block rest, ledger.world.live = block :: rest →
    ∃ before earlier, ledger.before = before :: earlier ∧
      Restored before (allocator.freeFn ledger.world.state block)
  none : ledger.world.live = [] → Unused ledger.world.state

/-- The world of a ledger is one of the worlds of the allocator. -/
theorem Kept.reachable
    {allocator : Allocator State}
    {permitted : World State → Call → Prop} {start : World State}
    {ledger : Ledger State}
    (kept : Kept allocator permitted start ledger) :
    Reachable (· = start) permitted allocator.step ledger.world := by
  induction kept with
  | start initial =>
      subst initial
      exact .start rfl
  | step _ allowed induction => exact .step induction allowed.1

end Libcute.Memory.NewestBlock
