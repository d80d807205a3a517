import Mathlib.Data.List.Basic

/-!
# Bounded queues

A queue of a fixed capacity: elements enter at the back as long as there is
room and leave at the front.  `Queue` also keeps what has left, so that the
order of all elements can be stated over whole runs: what entered is what
left, followed by what is still there.
-/

namespace Libcute.Library.BoundedQueue

variable {T : Type}

/-- The elements, the oldest first, and those that left, in that order. -/
structure Queue (T : Type) where
  items : List T
  gone : List T

/-- A use of a queue. -/
inductive Call (T : Type) where
  | push (elem : T)
  | pop
  | clear
deriving DecidableEq

/-- What a call answers. -/
inductive Answer (T : Type) where
  | done
  | popped (elem : T)
  | full
  | empty
deriving DecidableEq

/-- The queue without elements. -/
def Queue.start : Queue T := ⟨[], []⟩

/-- The effect of a call. -/
def Queue.call (capacity : Nat) (queue : Queue T) :
    Call T → Answer T × Queue T
  | .push elem =>
      if queue.items.length = capacity then
        (.full, queue)
      else
        (.done, { queue with items := queue.items ++ [elem] })
  | .pop =>
      match queue.items with
      | [] => (.empty, queue)
      | elem :: rest => (.popped elem, ⟨rest, queue.gone ++ [elem]⟩)
  | .clear => (.done, ⟨[], queue.gone ++ queue.items⟩)

/-- The effect of several calls. -/
def Queue.run (capacity : Nat) (queue : Queue T) :
    List (Call T) → List (Answer T) × Queue T
  | [] => ([], queue)
  | call :: calls =>
      let (answer, queue) := queue.call capacity call
      let (answers, queue) := queue.run capacity calls
      (answer :: answers, queue)

/-- The elements that were pushed with success. -/
def entered : List (Call T) → List (Answer T) → List T
  | .push elem :: calls, .done :: answers => elem :: entered calls answers
  | _ :: calls, _ :: answers => entered calls answers
  | _, _ => []

namespace Queue

variable {capacity : Nat} {queue : Queue T}

theorem call_order (queue : Queue T) (call : Call T) :
    (queue.call capacity call).2.gone ++ (queue.call capacity call).2.items =
      queue.gone ++ queue.items ++
        entered [call] [(queue.call capacity call).1] := by
  cases call with
  | push elem =>
      dsimp only [Queue.call]
      split
      · simp [entered]
      · simp [entered]
  | pop =>
      dsimp only [Queue.call]
      split
      · simp [entered]
      · rename_i elem rest items
        simp [entered, items]
  | clear => simp [Queue.call, entered]

theorem entered_cons
    (call : Call T) (calls : List (Call T))
    (answer : Answer T) (answers : List (Answer T)) :
    entered (call :: calls) (answer :: answers) =
      entered [call] [answer] ++ entered calls answers := by
  cases call <;> cases answer <;> rfl

/-- First in, first out: what entered is what left and then what is there. -/
theorem run_order (queue : Queue T) (calls : List (Call T)) :
    (queue.run capacity calls).2.gone ++
        (queue.run capacity calls).2.items =
      queue.gone ++ queue.items ++
        entered calls (queue.run capacity calls).1 := by
  induction calls generalizing queue with
  | nil => simp [Queue.run, entered]
  | cons call calls induction =>
      unfold Queue.run
      dsimp only
      rw [induction, call_order,
        entered_cons call calls _ _, List.append_assoc]

/-- From the start the elements that left are the first that entered. -/
theorem run_start_order (calls : List (Call T)) :
    (Queue.start.run capacity calls).2.gone ++
        (Queue.start.run capacity calls).2.items =
      entered calls (Queue.start.run capacity calls).1 :=
  run_order Queue.start calls

end Queue

end Libcute.Library.BoundedQueue
