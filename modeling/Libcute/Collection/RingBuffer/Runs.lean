import Libcute.Collection.RingBuffer
import Libcute.Library.BoundedQueue

/-!
# Runs of the ring buffer

The ring buffer refines a bounded queue.  `Holds` relates the two, and
`ringBuffer_refines` says that every run of calls gives the answers of the
queue, however often the window of elements wraps around the block.
-/

namespace Libcute.Collection.RingBuffer

open Libcute.Collection.Blocks
open Libcute.Core.Interface
open Libcute.Core.Size
open Libcute.Library.BoundedQueue

variable {T : Type} {rb rb' fresh : RingBuf T} {queue : Queue T}

/-- What a call of the ring buffer answers. -/
inductive Reply (T : Type) where
  | done
  | popped (elem : T)
  | failed (error : Error)
deriving DecidableEq

namespace RingBuf

/-- Make a call. -/
def perform (rb : RingBuf T) : Call T → Option (Reply T × RingBuf T)
  | .push elem =>
      (rb.push elem).map fun (error, rb) =>
        match error with
        | none => (.done, rb)
        | some error => (.failed error, rb)
  | .pop =>
      rb.pop.map fun (elem, rb) =>
        match elem with
        | .ok elem => (.popped elem, rb)
        | .error error => (.failed error, rb)
  | .clear => rb.clear.map fun rb => (.done, rb)

/-- Make several calls. -/
def performAll (rb : RingBuf T) :
    List (Call T) → Option (List (Reply T) × RingBuf T)
  | [] => some ([], rb)
  | call :: calls =>
      match rb.perform call with
      | none => none
      | some (reply, rb) =>
          (rb.performAll calls).map fun (replies, rb) =>
            (reply :: replies, rb)

end RingBuf

/-- The answer of the queue as an answer of the ring buffer. -/
def reply : Answer T → Reply T
  | .done => .done
  | .popped elem => .popped elem
  | .full => .failed .full
  | .empty => .failed .empty

/--
The ring buffer holds the elements of a queue, and its destructor was called
on those that left, in their order.
-/
structure Holds (rb : RingBuf T) (queue : Queue T) : Prop where
  contents : rb.contents = queue.items
  destroyed : rb.destroyed.reverse =
    if rb.destructor = true then queue.gone else []
  length : rb.length = queue.items.length
  within : rb.length ≤ rb.capacity
  head : rb.head < rb.capacity

/-- A ring buffer with room for its capacity, in which nothing was put. -/
structure Fresh
    (layout : Layout) (capacity : Nat) (destructor : Bool)
    (rb : RingBuf T) : Prop where
  stored : ∃ storage, rb.data = some storage ∧
    storage.slots.length = capacity
  capacity : rb.capacity = capacity
  head : rb.head = 0
  length : rb.length = 0
  layout : rb.layout = layout
  destructor : rb.destructor = destructor
  destroyed : rb.destroyed = []

/-- What `cu_RingBuffer_create` returns is a fresh ring buffer. -/
theorem create_fresh
    {layout : Layout} {capacity : Nat} {destructor : Bool}
    {grant : Grant T} (positive : capacity > 0)
    (fits : capacity * layout.elemSize < sizeLimit)
    (created : RingBuf.create layout capacity destructor grant = .ok rb) :
    Fresh layout capacity destructor rb ∧ ¬ layout.Invalid := by
  rcases create_spec positive fits created with
    ⟨sound, _, size, form, calls⟩
  have valid := sound.layout
  rw [form] at valid
  rcases sound.stored with ⟨storage, data, long⟩
  have untouched : rb.head = 0 ∧ rb.length = 0 ∧ rb.destroyed = [] := by
    unfold RingBuf.create at created
    rw [if_neg valid, if_pos positive] at created
    split at created
    · cases created
    · cases created
      exact ⟨rfl, rfl, rfl⟩
  exact ⟨⟨⟨storage, data, long.trans size⟩, size, untouched.1, untouched.2.1,
    form, calls, untouched.2.2⟩, valid⟩

theorem Fresh.sound
    {layout : Layout} {capacity : Nat} {destructor : Bool}
    (isFresh : Fresh layout capacity destructor rb)
    (valid : ¬ layout.Invalid)
    (positive : 1 ≤ capacity) (limit : capacity ≤ 2 ^ 62) :
    Sound rb where
  layout := by
    rw [isFresh.layout]
    exact valid
  positive := by
    rw [isFresh.capacity]
    exact positive
  limit := by
    rw [isFresh.capacity]
    unfold objectLimit
    omega
  head := by
    rw [isFresh.capacity, isFresh.head]
    exact positive
  within := by
    rw [isFresh.length]
    exact Nat.zero_le _
  stored := by
    rw [isFresh.capacity]
    exact isFresh.stored

theorem Fresh.holds
    {layout : Layout} {capacity : Nat} {destructor : Bool}
    (isFresh : Fresh layout capacity destructor rb)
    (sound : Sound rb) : Holds rb Queue.start where
  contents := by
    have counted := sound.contents_length
    rw [isFresh.length] at counted
    exact List.eq_nil_of_length_eq_zero counted
  destroyed := by
    rw [isFresh.destroyed]
    split_ifs <;> rfl
  length := isFresh.length
  within := sound.within
  head := sound.head

/-! ## One call -/

/-- What a sound ring buffer is to a queue, from its contents and its log. -/
theorem Sound.holds
    (sound : Sound rb) (contents : rb.contents = queue.items)
    (destroyed : rb.destroyed.reverse =
      if rb.destructor = true then queue.gone else []) :
    Holds rb queue :=
  ⟨contents, destroyed, by rw [← contents, sound.contents_length],
    sound.within, sound.head⟩

theorem push_destroyed
    {elem : T} {error : Option Error}
    (pushes : rb.push elem = some (error, rb')) :
    rb'.destroyed = rb.destroyed := by
  unfold RingBuf.push RingBuf.setSlot at pushes
  split at pushes
  · cases pushes
    rfl
  · split at pushes
    · cases pushes
      rfl
    · split at pushes
      · cases pushes
      · cases data : rb.data with
        | none =>
            rw [data] at pushes
            cases pushes
        | some storage =>
            rw [data] at pushes
            dsimp only at pushes
            split at pushes
            · cases pushes
              rfl
            · cases pushes

theorem pop_destroyed
    {elem : T} (pops : rb.pop = some (.ok elem, rb')) :
    rb'.destroyed =
      if rb.destructor = true then elem :: rb.destroyed
      else rb.destroyed := by
  unfold RingBuf.pop at pops
  split at pops
  · cases pops
  · split at pops
    · cases pops
    · split at pops
      · cases pops
      · split at pops
        · cases pops
        · cases pops
          dsimp only
          unfold RingBuf.destruct
          split_ifs <;> rfl

/-- The step lemma: every call answers like the queue. -/
theorem Holds.perform
    (holds : Holds rb queue) (sound : Sound rb) (call : Call T) :
    ∃ rb', rb.perform call =
        some (reply (queue.call rb.capacity call).1, rb') ∧
      Holds rb' (queue.call rb.capacity call).2 ∧ Sound rb' ∧
      Alike rb rb' ∧
      ∀ error, reply (queue.call rb.capacity call).1 = .failed error →
        rb' = rb := by
  have counted := holds.length
  cases call with
  | push elem =>
      dsimp only [Queue.call]
      by_cases full : queue.items.length = rb.capacity
      · rw [if_pos full]
        refine ⟨rb, ?_, holds, sound, ⟨rfl, rfl, rfl⟩, fun _ _ => rfl⟩
        dsimp only [RingBuf.perform]
        rw [sound.push_full (counted.trans full)]
        rfl
      · rw [if_neg full]
        have within := holds.within
        rcases sound.push_spec (by omega) elem with
          ⟨rb', pushes, sound', contents, alike, _⟩
        refine ⟨rb', ?_, sound'.holds ?_ ?_, sound', alike, ?_⟩
        · dsimp only [RingBuf.perform]
          rw [pushes]
          rfl
        · rw [contents, holds.contents]
        · rw [push_destroyed pushes, alike.destructor]
          exact holds.destroyed
        · intro error failed
          cases failed
  | pop =>
      dsimp only [Queue.call]
      cases items : queue.items with
      | nil =>
          rw [items] at counted
          refine ⟨rb, ?_, holds, sound, ⟨rfl, rfl, rfl⟩, fun _ _ => rfl⟩
          dsimp only [RingBuf.perform]
          rw [sound.pop_empty counted]
          rfl
      | cons elem rest =>
          rcases sound.pop_spec (holds.contents.trans items) with
            ⟨rb', pops, sound', contents, alike, _⟩
          refine ⟨rb', ?_, sound'.holds contents ?_, sound', alike, ?_⟩
          · dsimp only [RingBuf.perform]
            rw [pops]
            rfl
          · rw [pop_destroyed pops, alike.destructor]
            have destroyed := holds.destroyed
            split_ifs at destroyed ⊢
            · rw [List.reverse_cons, destroyed]
            · exact destroyed
          · intro error failed
            cases failed
  | clear =>
      dsimp only [Queue.call]
      rcases sound.clear_spec with ⟨rb', clears, sound', contents, alike, _⟩
      have log : rb'.destroyed = rb.drained := by
        rw [sound.clear_eq] at clears
        cases clears
        rfl
      refine ⟨rb', ?_, sound'.holds contents ?_, sound', alike, ?_⟩
      · dsimp only [RingBuf.perform]
        rw [clears]
        rfl
      · have destroyed := holds.destroyed
        rw [log, alike.destructor]
        unfold RingBuf.drained
        split_ifs at destroyed ⊢
        · rw [List.reverse_append, List.reverse_reverse, destroyed,
            holds.contents]
        · exact destroyed
      · intro error failed
        cases failed

/-! ## Runs -/

/-- The run lemma: several calls answer like the queue. -/
theorem Holds.performAll
    (holds : Holds rb queue) (sound : Sound rb) (calls : List (Call T)) :
    ∃ rb', rb.performAll calls =
        some ((queue.run rb.capacity calls).1.map reply, rb') ∧
      Holds rb' (queue.run rb.capacity calls).2 ∧ Sound rb' ∧
      Alike rb rb' := by
  induction calls generalizing rb queue with
  | nil => exact ⟨rb, rfl, holds, sound, rfl, rfl, rfl⟩
  | cons call calls induction =>
      rcases holds.perform sound call with
        ⟨middle, performs, holds', sound', alike, _⟩
      rcases induction holds' sound' with
        ⟨rb', rest, holds'', sound'', alike'⟩
      rw [alike.capacity] at rest holds''
      refine ⟨rb', ?_, holds'', sound'', alike'.capacity.trans alike.capacity,
        alike'.layout.trans alike.layout,
        alike'.destructor.trans alike.destructor⟩
      unfold RingBuf.performAll Queue.run
      rw [performs]
      dsimp only
      rw [rest]
      rfl

/--
The main result: for every capacity up to `2 ^ 62`, every element size for
which there is such a block, and every sequence of calls, the ring buffer
answers like a bounded queue and holds its elements.  A call that fails
changes nothing.  When the ring buffer is destroyed after the calls, the
destructor has run once on every element that was pushed, in that order.
-/
theorem ringBuffer_refines
    {layout : Layout} {capacity : Nat} {destructor : Bool}
    (positive : 1 ≤ capacity) (limit : capacity ≤ 2 ^ 62)
    (valid : ¬ layout.Invalid)
    (isFresh : Fresh layout capacity destructor fresh)
    (calls : List (Call T)) :
    ∃ rb, fresh.performAll calls =
        some ((Queue.start.run capacity calls).1.map reply, rb) ∧
      Holds rb (Queue.start.run capacity calls).2 ∧
      (∀ call error rb', rb.perform call = some (.failed error, rb') →
        rb' = rb) ∧
      ∃ released, rb.destroy = some released ∧ released.data = none ∧
        released.destroyed.reverse =
          if destructor = true then
            entered calls (Queue.start.run capacity calls).1
          else
            [] := by
  have sound := isFresh.sound valid positive limit
  rcases (isFresh.holds sound).performAll sound calls with
    ⟨rb, performs, holds, sound', alike⟩
  rw [isFresh.capacity] at performs holds
  have calling : rb.destructor = destructor :=
    alike.destructor.trans isFresh.destructor
  refine ⟨rb, performs, holds, ?_, _, sound'.destroy_eq, rfl, ?_⟩
  · intro call error rb' fails
    rcases holds.perform sound' call with
      ⟨after, performs, _, _, _, unchanged⟩
    rw [performs] at fails
    injection fails with fails
    injection fails with answer same
    rw [← same]
    exact unchanged error answer
  · have destroyed := holds.destroyed
    rw [calling] at destroyed
    rw [← Queue.run_start_order]
    dsimp only
    unfold RingBuf.drained
    rw [calling]
    split_ifs at destroyed ⊢
    · rw [List.reverse_append, List.reverse_reverse, destroyed,
        holds.contents]
    · exact destroyed

/-- A new ring buffer for two words. -/
def pairBuffer : RingBuf Nat where
  data := some ⟨⟨64, 16⟩, [7, 7]⟩
  capacity := 2
  head := 0
  length := 0
  layout := ⟨8, 8⟩
  destructor := true
  destroyed := []

/-- Five words go through the two slots, and one of them finds no room. -/
theorem ringBuffer_refines_wrapped :
    ∃ rb, pairBuffer.performAll
        [.push 1, .push 2, .push 9, .pop, .push 3, .pop, .push 4] =
          some ([.done, .done, .failed .full, .popped 1, .done, .popped 2,
            .done], rb) ∧
      ∃ released, rb.destroy = some released ∧
        released.destroyed.reverse = [1, 2, 3, 4] := by
  have isFresh : Fresh ⟨8, 8⟩ 2 true pairBuffer :=
    ⟨⟨_, rfl, rfl⟩, rfl, rfl, rfl, rfl, rfl, rfl⟩
  rcases ringBuffer_refines (by decide) (by decide) (by decide) isFresh
      [.push 1, .push 2, .push 9, .pop, .push 3, .pop, .push 4] with
    ⟨rb, performs, _, _, released, destroys, _, log⟩
  exact ⟨rb, performs, released, destroys, log⟩

end Libcute.Collection.RingBuffer
