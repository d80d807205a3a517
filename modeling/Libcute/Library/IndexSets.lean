import Mathlib.Data.Finset.Insert
import Mathlib.Data.Finset.Erase

/-!
# Sets of indices

A set of indices below a bound is changed by setting one index, clearing one
index, or clearing all of them.  An index at or above the bound is ignored.

`Simulates` compares one operation of an implementation with what it does to
the set, and `Simulates.represents` is the induction over sequences of
operations: from a cleared start, an implementation answers for every index
whether the last operation that touches it has set it.
-/

namespace Libcute.Library.IndexSets

inductive Operation where
  | set (index : Nat)
  | clear (index : Nat)
  | clearAll
deriving DecidableEq, Repr

/-- The operation determines whether the index is set. -/
def Operation.Touches (index : Nat) : Operation → Prop
  | .set own => own = index
  | .clear own => own = index
  | .clearAll => True

instance (index : Nat) :
    DecidablePred (Operation.Touches index) := fun operation =>
  match operation with
  | .set own => inferInstanceAs (Decidable (own = index))
  | .clear own => inferInstanceAs (Decidable (own = index))
  | .clearAll => inferInstanceAs (Decidable True)

/-- What an operation does to the set. -/
def Operation.apply (bound : Nat) (indices : Finset Nat) :
    Operation → Finset Nat
  | .set index => if index < bound then insert index indices else indices
  | .clear index => indices.erase index
  | .clearAll => ∅

/-- What an operation does to the answer for an index. -/
def Operation.answer (bound index : Nat) (before : Bool) :
    Operation → Bool
  | .set own => before || decide (index = own ∧ own < bound)
  | .clear own => before && decide (index ≠ own)
  | .clearAll => false

/-- The set after a sequence of operations. -/
def indices (bound : Nat) (operations : List Operation) : Finset Nat :=
  operations.foldl (Operation.apply bound) ∅

/-- The last of the operations that touch the index. -/
def lastTouching (operations : List Operation) (index : Nat) :
    Option Operation :=
  operations.reverse.find? fun operation => operation.Touches index

/--
The answers after every sequence of operations are those of the set of
indices.
-/
structure Represents (bound : Nat) (get : List Operation → Nat → Bool) :
    Prop where
  refines : ∀ operations index,
    get operations index = true ↔ index ∈ indices bound operations
  /-- The last operation on an index has set it or not. -/
  last : ∀ operations index, index < bound →
    (get operations index = true ↔
      lastTouching operations index = some (.set index))
  outside : ∀ operations index, bound ≤ index →
    get operations index = false
  /-- An operation on other indices does not change an answer. -/
  apart : ∀ operations operation index, ¬ operation.Touches index →
    get (operations ++ [operation]) index = get operations index

/-- One operation of an implementation does what it does to the set. -/
structure Simulates {Store : Type} (bound : Nat)
    (get : Store → Nat → Bool) (perform : Store → Operation → Store)
    (Valid : Store → Prop) : Prop where
  kept : ∀ store operation, Valid store → Valid (perform store operation)
  answers : ∀ store operation index, Valid store →
    get (perform store operation) index =
      operation.answer bound index (get store index)

variable {bound index : Nat} {operation : Operation}
  {operations : List Operation} {set : Finset Nat}

/-! ## The set -/

theorem mem_apply :
    index ∈ operation.apply bound set ↔
      operation.answer bound index (decide (index ∈ set)) = true := by
  cases operation with
  | set own =>
      simp only [Operation.apply, Operation.answer]
      split_ifs with inside
      · simp [inside, or_comm]
      · simp [inside]
  | clear own => simp [Operation.apply, Operation.answer, and_comm]
  | clearAll => simp [Operation.apply, Operation.answer]

theorem indices_append :
    indices bound (operations ++ [operation]) =
      operation.apply bound (indices bound operations) := by
  simp [indices]

theorem lastTouching_append :
    lastTouching (operations ++ [operation]) index =
      if operation.Touches index then some operation
      else lastTouching operations index := by
  unfold lastTouching
  rw [List.reverse_append, List.reverse_singleton, List.singleton_append,
    List.find?_cons]
  split_ifs with touches
  · simp [touches]
  · simp [touches]

/-- The set holds the indices that were set last. -/
theorem mem_indices_iff :
    index ∈ indices bound operations ↔
      index < bound ∧
        lastTouching operations index = some (.set index) := by
  induction operations using List.reverseRecOn with
  | nil => simp [indices, lastTouching]
  | append_singleton operations operation induction =>
      rw [indices_append, mem_apply, lastTouching_append]
      cases operation with
      | set own =>
          by_cases same : own = index
          · subst same
            have inside : own ∈ indices bound operations → own < bound :=
              fun member => (induction.mp member).1
            simpa [Operation.answer, Operation.Touches] using inside
          · have other : index ≠ own := fun equal => same equal.symm
            simp [Operation.answer, Operation.Touches, same, other,
              induction]
      | clear own =>
          by_cases same : own = index
          · subst same
            simp [Operation.answer, Operation.Touches]
          · have other : index ≠ own := fun equal => same equal.symm
            simp [Operation.answer, Operation.Touches, same, other,
              induction]
      | clearAll => simp [Operation.answer, Operation.Touches]

/-! ## Implementations -/

namespace Simulates

variable {Store : Type} {get : Store → Nat → Bool}
  {perform : Store → Operation → Store} {Valid : Store → Prop}
  {start : Store}

theorem valid_run (simulates : Simulates bound get perform Valid)
    (valid : Valid start) (operations : List Operation) :
    Valid (operations.foldl perform start) := by
  induction operations using List.reverseRecOn with
  | nil => exact valid
  | append_singleton operations operation induction =>
      rw [List.foldl_concat]
      exact simulates.kept _ _ induction

/-- After every run the answers are those of the set. -/
theorem get_run_iff (simulates : Simulates bound get perform Valid)
    (valid : Valid start) (cleared : ∀ index, get start index = false)
    (operations : List Operation) (index : Nat) :
    get (operations.foldl perform start) index = true ↔
      index ∈ indices bound operations := by
  induction operations using List.reverseRecOn with
  | nil => simp [cleared, indices]
  | append_singleton operations operation induction =>
      have answered : get (operations.foldl perform start) index =
          decide (index ∈ indices bound operations) := by
        rw [Bool.eq_iff_iff, induction, decide_eq_true_iff]
      rw [List.foldl_concat, simulates.answers _ _ _
        (simulates.valid_run valid operations), answered, indices_append,
        mem_apply]

theorem represents (simulates : Simulates bound get perform Valid)
    (valid : Valid start) (cleared : ∀ index, get start index = false) :
    Represents bound fun operations =>
      get (operations.foldl perform start) where
  refines := simulates.get_run_iff valid cleared
  last operations index inside := by
    rw [simulates.get_run_iff valid cleared, mem_indices_iff]
    exact and_iff_right inside
  outside operations index beyond := by
    rw [← Bool.not_eq_true, simulates.get_run_iff valid cleared,
      mem_indices_iff]
    omega
  apart operations operation index other := by
    rw [Bool.eq_iff_iff, simulates.get_run_iff valid cleared,
      simulates.get_run_iff valid cleared, mem_indices_iff, mem_indices_iff,
      lastTouching_append, if_neg other]

end Simulates

/-- Two implementations of one set agree. -/
theorem Represents.agree
    {left right : List Operation → Nat → Bool}
    (first : Represents bound left) (second : Represents bound right)
    (operations : List Operation) (index : Nat) :
    left operations index = right operations index := by
  rw [Bool.eq_iff_iff, first.refines, second.refines]

end Libcute.Library.IndexSets
