import Mathlib.Data.Nat.Bitwise
import Libcute.Library.Congruential

/-!
# Pseudo-random states

The generator of `state.h` and the seeds that `state.c` makes in a
freestanding build, where the result also depends on three addresses of the
call.  On a hosted system a seed comes from `getrandom` or from `rand`, which
are not modelled: what is proved of a generator holds for every seed.
-/

namespace Libcute.Core.Random

open Libcute.Library

/-- `cu_State`; its function may change the context. -/
structure State (Context : Type) where
  ctx : Context
  next : Context → Nat × Context

/-- `cu_State_next` -/
def State.draw {Context : Type} (st : State Context) : Nat × State Context :=
  let drawn := st.next st.ctx
  (drawn.1, { st with ctx := drawn.2 })

/-- What the calls of `cu_State_next` return, one after the other. -/
def State.draws {Context : Type} (st : State Context) : Nat → Nat
  | 0 => st.draw.1
  | i + 1 => st.draw.2.draws i

/-- `st->value * 1664525u + 1013904223u`, in 32 bits -/
def advance (value : Nat) : Nat := (value * 1664525 + 1013904223) % 2 ^ 32

/-- `cu_RandomState` -/
structure RandomState where
  value : Nat
deriving DecidableEq, Repr

/-- `cu_RandomState_next` -/
def RandomState.next (st : RandomState) : Nat × RandomState :=
  let value := advance st.value
  (value, ⟨value⟩)

/-- `cu_RandomState_init` -/
def RandomState.init (seed : Nat) : State RandomState :=
  ⟨⟨seed⟩, RandomState.next⟩

/-- The addresses that a freestanding `cu_random_seed` mixes in. -/
structure Frame where
  sp : Nat
  fn : Nat
  ret : Nat

/-- The freestanding `cu_random_seed`, with its static variable. -/
def randomSeed (frame : Frame) (seed : Nat) : Nat × Nat :=
  let seed := advance seed
  ((seed ^^^ frame.sp ^^^ frame.fn ^^^ frame.ret) % 2 ^ 32, seed)

/-- What calls with the same addresses return, one after the other. -/
def randomSeeds (frame : Frame) (seed i : Nat) : Nat :=
  (randomSeed frame ((fun seed => (randomSeed frame seed).2)^[i] seed)).1

/-- `cu_RandomState_new` in a freestanding build. -/
def RandomState.new (frame : Frame) (seed : Nat) : State RandomState × Nat :=
  let seeded := randomSeed frame seed
  (RandomState.init seeded.1, seeded.2)

/--
The low bits of the values go through all patterns, each once, before they
repeat.
-/
structure Equidistributed (bits : Nat) (values : Nat → Nat) : Prop where
  repeats : ∀ i j, values i ≡ values j [MOD 2 ^ bits] ↔
    i ≡ j [MOD 2 ^ bits]
  shows : ∀ start pattern, pattern < 2 ^ bits →
    ∃! i, (start ≤ i ∧ i < start + 2 ^ bits) ∧
      values i % 2 ^ bits = pattern

/-! ## The generator as a congruential generator -/

theorem full : Congruential.Full 1664525 1013904223 :=
  ⟨by decide, by decide⟩

theorem advance_eq :
    advance = Congruential.next (2 ^ 32) 1664525 1013904223 := by
  funext value
  rw [advance, Congruential.next, Nat.mul_comm]

theorem draws_init (seed i : Nat) :
    (RandomState.init seed).draws i = advance^[i + 1] seed := by
  induction i generalizing seed with
  | zero => rfl
  | succ i induction =>
      rw [Function.iterate_succ_apply, ← induction, State.draws]
      rfl

theorem randomSeeds_eq (frame : Frame) (seed i : Nat) :
    randomSeeds frame seed i = (advance^[i + 1] seed ^^^
      (frame.sp ^^^ frame.fn ^^^ frame.ret)) % 2 ^ 32 := by
  have kept : (fun seed => (randomSeed frame seed).2) = advance := rfl
  rw [randomSeeds, kept, randomSeed, Nat.xor_assoc, Nat.xor_assoc,
    ← Nat.xor_assoc frame.sp, Function.iterate_succ_apply']

/-! ## Low bits -/

theorem equidistributed_iterate
    {bits : Nat} (low : bits ≤ 32) (seed : Nat) :
    Equidistributed bits fun i => advance^[i + 1] seed := by
  rw [advance_eq]
  constructor
  · intro i j
    rw [Congruential.modEq_iff full low]
    exact ⟨Nat.ModEq.add_right_cancel' 1, Nat.ModEq.add_right 1⟩
  · intro start pattern inside
    obtain ⟨i, ⟨⟨first, last⟩, found⟩, unique⟩ :=
      Congruential.existsUnique_low full low seed (start + 1) inside
    obtain ⟨i, rfl⟩ : ∃ pred, i = pred + 1 := ⟨i - 1, by omega⟩
    refine ⟨i, ⟨⟨by omega, by omega⟩, found⟩, ?_⟩
    rintro j ⟨⟨first', last'⟩, found'⟩
    have equal := unique (j + 1) ⟨⟨by omega, by omega⟩, found'⟩
    omega

/-- A fixed mask only permutes the patterns. -/
theorem Equidistributed.xor {bits : Nat} {values : Nat → Nat}
    (equidistributed : Equidistributed bits values)
    (low : bits ≤ 32) (mask : Nat) :
    Equidistributed bits fun i => (values i ^^^ mask) % 2 ^ 32 := by
  have masks : ∀ i, (values i ^^^ mask) % 2 ^ 32 % 2 ^ bits =
      values i % 2 ^ bits ^^^ mask % 2 ^ bits := by
    intro i
    rw [Nat.mod_mod_of_dvd _ (Nat.pow_dvd_pow 2 low), Nat.xor_mod_two_pow]
  constructor
  · intro i j
    rw [← equidistributed.repeats i j]
    simp only [Nat.ModEq, masks]
    exact Nat.xor_left_inj
  · intro start pattern inside
    have masked : pattern ^^^ mask % 2 ^ bits < 2 ^ bits :=
      Nat.xor_lt_two_pow inside (Nat.mod_lt _ (Nat.pow_pos (by decide)))
    have moves : ∀ i, (values i ^^^ mask) % 2 ^ 32 % 2 ^ bits = pattern ↔
        values i % 2 ^ bits = pattern ^^^ mask % 2 ^ bits := by
      intro i
      rw [masks]
      constructor
      · rintro rfl
        rw [Nat.xor_assoc, Nat.xor_self, Nat.xor_zero]
      · intro found
        rw [found, Nat.xor_assoc, Nat.xor_self, Nat.xor_zero]
    simp only [moves]
    exact equidistributed.shows start _ masked

/--
A generator with any seed repeats its low bits only after all patterns, and so
do the seeds of a freestanding build: those that successive calls get with one
stack address and one return address.
-/
theorem randomState_equidistributed (bits : Nat) (low : bits ≤ 32) :
    (∀ seed, Equidistributed bits (RandomState.init seed).draws) ∧
      ∀ frame seed, Equidistributed bits (randomSeeds frame seed) := by
  constructor
  · intro seed
    have draws : (RandomState.init seed).draws =
        fun i => advance^[i + 1] seed := funext (draws_init seed)
    rw [draws]
    exact equidistributed_iterate low seed
  · intro frame seed
    have seeds : randomSeeds frame seed = fun i =>
        (advance^[i + 1] seed ^^^
          (frame.sp ^^^ frame.fn ^^^ frame.ret)) % 2 ^ 32 :=
      funext (randomSeeds_eq frame seed)
    rw [seeds]
    exact (equidistributed_iterate low seed).xor low _

theorem randomState_equidistributed_sixteen :
    Equidistributed 16 (RandomState.init 1).draws ∧
      Equidistributed 16 (randomSeeds ⟨4096, 512, 520⟩ 1) :=
  ⟨(randomState_equidistributed 16 (by decide)).1 1,
    (randomState_equidistributed 16 (by decide)).2 ⟨4096, 512, 520⟩ 1⟩

end Libcute.Core.Random
