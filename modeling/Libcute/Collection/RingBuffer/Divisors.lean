import Libcute.Collection.RingBuffer.Runs

/-!
# The remainders of the ring buffer

Positions are taken modulo the capacity, which may be 0.  A ring buffer
without room is never full for `cu_RingBuffer_is_full`, so that a push goes on
to the remainder; all other calls look at the number of elements first.
-/

namespace Libcute.Collection.RingBuffer

open Libcute.Collection.Blocks
open Libcute.Core.Interface
open Libcute.Library.BoundedQueue

variable {T : Type} {rb rb' fresh : RingBuf T}

/-- The divisors of the remainders that a call takes. -/
def RingBuf.divisors (rb : RingBuf T) : Call T → List Nat
  | .push _ =>
      if rb.layout.Invalid ∨ rb.isFull = true then [] else [rb.capacity]
  | .pop =>
      if rb.layout.Invalid ∨ rb.isEmpty = true then [] else [rb.capacity]
  | .clear =>
      if rb.destructor = true then
        List.replicate rb.length rb.capacity
      else
        []

/-- The divisors of the remainders that `cu_RingBuffer_destroy` takes. -/
def RingBuf.destroyDivisors (rb : RingBuf T) : List Nat :=
  if rb.data.isSome ∧ rb.destructor = true then
    List.replicate rb.length rb.capacity
  else
    []

/-- The call is no push to a ring buffer without room. -/
def Spared (rb : RingBuf T) : Call T → Prop
  | .push _ => 0 < rb.capacity
  | .pop => True
  | .clear => True

instance (rb : RingBuf T) : DecidablePred (Spared rb)
  | .push _ => Nat.decLt _ _
  | .pop => instDecidableTrue
  | .clear => instDecidableTrue

/-- The ring buffers that spared calls make of a new one. -/
inductive Reached (fresh : RingBuf T) : RingBuf T → Prop where
  | fresh : Reached fresh fresh
  | call {rb rb' : RingBuf T} {call : Call T} {reply : Reply T}
      (earlier : Reached fresh rb) (spared : Spared rb call)
      (performs : rb.perform call = some (reply, rb')) : Reached fresh rb'

/--
No more elements than the capacity, no remainder by 0, and an error for a push
that finds no room, exactly as far as the calls are spared.
-/
structure Guarded (rb : RingBuf T) : Prop where
  within : rb.length ≤ rb.capacity
  divides : ∀ call, 0 ∉ rb.divisors call ↔ Spared rb call
  destroys : 0 ∉ rb.destroyDivisors
  refuses : ∀ elem, Spared rb (.push elem) → rb.length = rb.capacity →
    rb.push elem = some (some .full, rb)

/-! ## The loops -/

theorem destruct_fields (rb : RingBuf T) (elem : T) :
    ∃ destroyed, rb.destruct elem = { rb with destroyed } := by
  unfold RingBuf.destruct
  split_ifs
  · exact ⟨_, rfl⟩
  · exact ⟨rb.destroyed, rfl⟩

/-- Calling the destructor changes nothing but its log. -/
theorem destructLoop_fields {first count : Nat}
    (done : rb.destructLoop first count = some rb') :
    ∃ destroyed, rb' = { rb with destroyed } := by
  induction count generalizing rb first with
  | zero =>
      cases done
      exact ⟨_, rfl⟩
  | succ count induction =>
      unfold RingBuf.destructLoop at done
      split at done
      · cases done
      · split at done
        · cases done
        · rename_i elem _
          rcases destruct_fields rb elem with ⟨destroyed, destructs⟩
          rw [destructs] at done
          rcases induction done with ⟨later, rfl⟩
          exact ⟨later, rfl⟩

/-- A remainder by 0 has no result. -/
theorem perform_divisors {call : Call T} (divides : 0 ∈ rb.divisors call) :
    rb.perform call = none := by
  cases call with
  | push elem =>
      unfold RingBuf.divisors at divides
      dsimp only at divides
      split_ifs at divides with stops
      · cases divides
      · rw [not_or] at stops
        dsimp only [RingBuf.perform]
        unfold RingBuf.push
        rw [if_neg stops.1, if_neg stops.2,
          if_pos (List.mem_singleton.mp divides).symm]
        rfl
  | pop =>
      unfold RingBuf.divisors at divides
      dsimp only at divides
      split_ifs at divides with stops
      · cases divides
      · rw [not_or] at stops
        dsimp only [RingBuf.perform]
        unfold RingBuf.pop
        rw [if_neg stops.1, if_neg stops.2]
        split
        · rfl
        · rw [if_pos (List.mem_singleton.mp divides).symm]
          rfl
  | clear =>
      unfold RingBuf.divisors at divides
      dsimp only at divides
      split_ifs at divides with calls
      · rcases List.mem_replicate.mp divides with ⟨filled, none⟩
        rcases Nat.exists_eq_succ_of_ne_zero filled with ⟨count, counted⟩
        dsimp only [RingBuf.perform]
        unfold RingBuf.clear
        rw [if_pos calls, counted]
        unfold RingBuf.destructLoop
        rw [if_pos none.symm]
        rfl
      · cases divides

/-! ## One call -/

/-- The invariant of all ring buffers, with and without room. -/
structure Bounded (rb : RingBuf T) : Prop where
  layout : ¬ rb.layout.Invalid
  within : rb.length ≤ rb.capacity

theorem create_bounded
    {layout : Layout} {capacity : Nat} {destructor : Bool} {grant : Grant T}
    (created : RingBuf.create layout capacity destructor grant = .ok fresh) :
    Bounded fresh := by
  unfold RingBuf.create at created
  split_ifs at created with invalid positive
  · split at created
    · cases created
    · cases created
      exact ⟨invalid, Nat.zero_le _⟩
  · cases created
    exact ⟨invalid, Nat.zero_le _⟩

theorem isFull_of_positive (positive : 0 < rb.capacity) :
    rb.isFull = true ↔ rb.length = rb.capacity := by
  unfold RingBuf.isFull
  simp [positive]

theorem Bounded.push {error : Option Error} {elem : T}
    (bounded : Bounded rb) (positive : 0 < rb.capacity)
    (pushes : rb.push elem = some (error, rb')) : Bounded rb' := by
  unfold RingBuf.push at pushes
  rw [if_neg bounded.layout, if_neg (show rb.capacity ≠ 0 by omega)] at pushes
  split_ifs at pushes with full
  · cases pushes
    exact bounded
  · rw [isFull_of_positive positive] at full
    have within := bounded.within
    unfold RingBuf.setSlot at pushes
    cases data : rb.data with
    | none =>
        rw [data] at pushes
        cases pushes
    | some storage =>
        rw [data] at pushes
        dsimp only at pushes
        split_ifs at pushes
        · cases pushes
          refine ⟨bounded.layout, ?_⟩
          dsimp only
          omega
        · cases pushes

theorem Bounded.pop {result : Except Error T}
    (bounded : Bounded rb) (pops : rb.pop = some (result, rb')) :
    Bounded rb' := by
  have within := bounded.within
  unfold RingBuf.pop at pops
  rw [if_neg bounded.layout] at pops
  split at pops
  · cases pops
    exact bounded
  · split at pops
    · cases pops
    · rename_i elem _
      rcases destruct_fields rb elem with ⟨destroyed, destructs⟩
      rw [destructs] at pops
      split at pops
      · cases pops
      · cases pops
        refine ⟨bounded.layout, ?_⟩
        dsimp only
        omega

theorem Bounded.clear
    (bounded : Bounded rb) (clears : rb.clear = some rb') : Bounded rb' := by
  unfold RingBuf.clear at clears
  dsimp only at clears
  split_ifs at clears
  · rcases Option.map_eq_some_iff.mp clears with ⟨drained, loops, rfl⟩
    rcases destructLoop_fields loops with ⟨destroyed, rfl⟩
    exact ⟨bounded.layout, Nat.zero_le _⟩
  · cases clears
    exact ⟨bounded.layout, Nat.zero_le _⟩

/-- The step lemma: a spared call keeps the invariant. -/
theorem Bounded.perform {call : Call T} {reply : Reply T}
    (bounded : Bounded rb) (spared : Spared rb call)
    (performs : rb.perform call = some (reply, rb')) : Bounded rb' := by
  cases call with
  | push elem =>
      dsimp only [RingBuf.perform] at performs
      rcases Option.map_eq_some_iff.mp performs with
        ⟨⟨error, pushed⟩, pushes, same⟩
      have kept := bounded.push spared pushes
      cases error <;> cases same <;> exact kept
  | pop =>
      dsimp only [RingBuf.perform] at performs
      rcases Option.map_eq_some_iff.mp performs with
        ⟨⟨result, popped⟩, pops, same⟩
      have kept := bounded.pop pops
      cases result <;> cases same <;> exact kept
  | clear =>
      dsimp only [RingBuf.perform] at performs
      rcases Option.map_eq_some_iff.mp performs with ⟨cleared, clears, same⟩
      cases same
      exact bounded.clear clears

/-- The run lemma. -/
theorem Reached.bounded (reached : Reached fresh rb)
    (bounded : Bounded fresh) : Bounded rb := by
  induction reached with
  | fresh => exact bounded
  | call _ spared performs induction => exact induction.perform spared performs

/-- What is kept as the capacity is no divisor 0 where elements are. -/
theorem Bounded.not_mem_replicate (bounded : Bounded rb) :
    0 ∉ List.replicate rb.length rb.capacity := by
  intro among
  rcases List.mem_replicate.mp among with ⟨filled, none⟩
  have within := bounded.within
  omega

theorem Bounded.divisors_iff (bounded : Bounded rb) (call : Call T) :
    0 ∉ rb.divisors call ↔ Spared rb call := by
  have within := bounded.within
  unfold RingBuf.divisors Spared
  cases call with
  | push elem =>
      dsimp only
      split_ifs with stops
      · refine ⟨fun _ => ?_, fun _ => List.not_mem_nil⟩
        rcases stops with invalid | full
        · exact absurd invalid bounded.layout
        · unfold RingBuf.isFull at full
          exact (of_decide_eq_true full).2
      · rw [List.mem_singleton]
        omega
  | pop =>
      dsimp only
      split_ifs with stops
      · exact ⟨fun _ => trivial, fun _ => List.not_mem_nil⟩
      · rw [not_or, isEmpty_iff] at stops
        rw [List.mem_singleton]
        exact ⟨fun _ => trivial, fun _ => by omega⟩
  | clear =>
      dsimp only
      split_ifs
      · exact ⟨fun _ => trivial, fun _ => bounded.not_mem_replicate⟩
      · exact ⟨fun _ => trivial, fun _ => List.not_mem_nil⟩

theorem Bounded.guarded (bounded : Bounded rb) : Guarded rb where
  within := bounded.within
  divides := bounded.divisors_iff
  destroys := by
    unfold RingBuf.destroyDivisors
    split_ifs
    · exact bounded.not_mem_replicate
    · exact List.not_mem_nil
  refuses elem positive full := by
    unfold RingBuf.push
    rw [if_neg bounded.layout, if_pos ((isFull_of_positive positive).mpr full)]

end Libcute.Collection.RingBuffer
