import Mathlib.Data.Fintype.EquivFin
import Mathlib.Data.Nat.ModEq
import Mathlib.Data.Nat.Prime.Basic
import Mathlib.Logic.Function.Iterate
import Mathlib.Tactic.Ring

/-!
# Linear congruential generators

A generator multiplies its state, adds a constant and reduces the sum modulo
a power of two.  If the multiplier leaves remainder 1 by 4 and the constant
is odd, the generator has full period, and so has every block of low bits of
its state: `modEq_iff` says which steps agree in their low bits, and
`existsUnique_low` that every window of `2 ^ bits` steps shows every pattern
of that many low bits exactly once.

The argument is about `geometric`, the sum of the powers of the multiplier:
it is divisible by the same powers of two as the number of its terms.
-/

namespace Libcute.Library.Congruential

/-- One step of a generator. -/
def next (modulus multiplier increment state : Nat) : Nat :=
  (multiplier * state + increment) % modulus

/-- The sum of the first powers of the multiplier. -/
def geometric (multiplier : Nat) : (count : Nat) → Nat
  | 0 => 0
  | count + 1 => multiplier * geometric multiplier count + 1

/-- The constants for which a generator has full period. -/
structure Full (multiplier increment : Nat) : Prop where
  multiplier : multiplier % 4 = 1
  increment : increment % 2 = 1

variable {multiplier increment width bits : Nat} {state count i j : Nat}

/-! ## Sums of powers -/

theorem pow_eq_geometric (positive : 0 < multiplier) (count : Nat) :
    multiplier ^ count =
      (multiplier - 1) * geometric multiplier count + 1 := by
  obtain ⟨pred, rfl⟩ : ∃ pred, multiplier = pred + 1 :=
    ⟨multiplier - 1, by omega⟩
  rw [Nat.add_sub_cancel]
  induction count with
  | zero => rfl
  | succ count induction =>
      rw [pow_succ, induction, geometric]
      ring

theorem geometric_add (multiplier left right : Nat) :
    geometric multiplier (left + right) =
      multiplier ^ left * geometric multiplier right +
        geometric multiplier left := by
  induction left with
  | zero => simp [geometric]
  | succ left induction =>
      rw [Nat.add_right_comm, geometric, induction, geometric, pow_succ]
      ring

theorem geometric_double (multiplier count : Nat) :
    geometric multiplier (count + count) =
      geometric multiplier count * (multiplier ^ count + 1) := by
  rw [geometric_add]
  ring

theorem pow_mod_four (multiplierOne : multiplier % 4 = 1) (count : Nat) :
    multiplier ^ count % 4 = 1 := by
  rw [Nat.pow_mod, multiplierOne, one_pow]
  rfl

theorem geometric_mod_two (multiplierOne : multiplier % 4 = 1)
    (count : Nat) : geometric multiplier count % 2 = count % 2 := by
  have odd : multiplier % 2 = 1 := by omega
  induction count with
  | zero => rfl
  | succ count induction =>
      rw [geometric, Nat.add_mod, Nat.mul_mod, odd, induction]
      omega

/-- A sum of powers has as many factors 2 as the number of its terms. -/
theorem two_pow_dvd_geometric_iff (multiplierOne : multiplier % 4 = 1)
    (bits count : Nat) :
    2 ^ bits ∣ geometric multiplier count ↔ 2 ^ bits ∣ count := by
  induction bits generalizing count with
  | zero => simp
  | succ bits induction =>
      have parity := geometric_mod_two multiplierOne count
      have two : 2 ∣ 2 ^ (bits + 1) := dvd_pow_self 2 (Nat.succ_ne_zero bits)
      rcases Nat.even_or_odd' count with ⟨half, rfl | rfl⟩
      · obtain ⟨quarter, odd⟩ :
            ∃ quarter, multiplier ^ half + 1 = 2 * (2 * quarter + 1) := by
          have one := pow_mod_four multiplierOne half
          exact ⟨multiplier ^ half / 4, by omega⟩
        have coprime : Nat.Coprime (2 ^ bits) (2 * quarter + 1) := by
          apply Nat.Coprime.pow_left
          simp
        rw [Nat.two_mul half, geometric_double, odd, pow_succ',
          Nat.mul_left_comm, ← Nat.two_mul half,
          Nat.mul_dvd_mul_iff_left (by decide),
          Nat.mul_dvd_mul_iff_left (by decide),
          coprime.dvd_mul_right, induction]
      · constructor
        · intro divides
          have even := two.trans divides
          omega
        · intro divides
          have even := two.trans divides
          omega

/-! ## Steps -/

/-- A number of steps at once, before the reduction. -/
theorem iterate_modEq (modulus multiplier increment state count : Nat) :
    (next modulus multiplier increment)^[count] state ≡
      multiplier ^ count * state +
        increment * geometric multiplier count [MOD modulus] := by
  induction count with
  | zero => simp [geometric, Nat.ModEq.refl]
  | succ count induction =>
      rw [Function.iterate_succ_apply', next, geometric]
      refine (Nat.mod_modEq _ _).trans ?_
      refine ((induction.mul_left multiplier).add_right increment).trans ?_
      rw [pow_succ]
      exact congrArg (· % modulus) (by ring)

/-- Steps that return to the same low bits. -/
theorem return_iff (full : Full multiplier increment)
    (low : bits ≤ width) (state count : Nat) :
    (next (2 ^ width) multiplier increment)^[count] state ≡ state
        [MOD 2 ^ bits] ↔ 2 ^ bits ∣ count := by
  have positive : 0 < multiplier := by
    have one := full.multiplier
    omega
  have steps := (iterate_modEq (2 ^ width) multiplier increment state
    count).of_dvd (Nat.pow_dvd_pow 2 low)
  have sum : multiplier ^ count * state +
      increment * geometric multiplier count =
        state + ((multiplier - 1) * state + increment) *
          geometric multiplier count := by
    rw [pow_eq_geometric positive]
    ring
  rw [sum] at steps
  have coprime : Nat.Coprime (2 ^ bits)
      ((multiplier - 1) * state + increment) := by
    apply Nat.Coprime.pow_left
    rw [Nat.coprime_two_left, Nat.odd_iff, Nat.add_mod, Nat.mul_mod,
      full.increment]
    have even : (multiplier - 1) % 2 = 0 := by
      have one := full.multiplier
      omega
    rw [even, Nat.zero_mul]
  rw [← two_pow_dvd_geometric_iff full.multiplier, ← coprime.dvd_mul_left]
  constructor
  · intro returns
    exact (Nat.modEq_zero_iff_dvd).mp
      (Nat.ModEq.add_left_cancel' state (steps.symm.trans returns))
  · intro divides
    exact steps.trans
      (((Nat.modEq_zero_iff_dvd).mpr divides).add_left state)

/-- Two steps agree in their low bits exactly when their numbers do. -/
theorem modEq_iff (full : Full multiplier increment) (low : bits ≤ width)
    (state i j : Nat) :
    (next (2 ^ width) multiplier increment)^[i] state ≡
        (next (2 ^ width) multiplier increment)^[j] state
          [MOD 2 ^ bits] ↔ i ≡ j [MOD 2 ^ bits] := by
  have ordered : ∀ {i j : Nat}, i ≤ j →
      ((next (2 ^ width) multiplier increment)^[i] state ≡
          (next (2 ^ width) multiplier increment)^[j] state
            [MOD 2 ^ bits] ↔ i ≡ j [MOD 2 ^ bits]) := by
    intro i j before
    obtain ⟨later, rfl⟩ := Nat.exists_eq_add_of_le before
    rw [Nat.add_comm i later, Function.iterate_add_apply, Nat.ModEq.comm,
      return_iff full low, ← Nat.modEq_zero_iff_dvd]
    constructor
    · intro zero
      simpa using (zero.add_right i).symm
    · intro same
      have moved : 0 + i ≡ later + i [MOD 2 ^ bits] := by simpa using same
      exact (Nat.ModEq.add_right_cancel' i moved).symm
  rcases Nat.le_total i j with before | after
  · exact ordered before
  · rw [Nat.ModEq.comm, ordered after, Nat.ModEq.comm]

/-- Every window of `2 ^ bits` steps shows every pattern of low bits once. -/
theorem existsUnique_low (full : Full multiplier increment)
    (low : bits ≤ width) (state start : Nat) {pattern : Nat}
    (inside : pattern < 2 ^ bits) :
    ∃! i, (start ≤ i ∧ i < start + 2 ^ bits) ∧
      (next (2 ^ width) multiplier increment)^[i] state % 2 ^ bits =
        pattern := by
  have positive : 0 < 2 ^ bits := Nat.pow_pos (by decide)
  have unique : ∀ {i j : Nat}, i ≡ j [MOD 2 ^ bits] →
      start ≤ i → i < start + 2 ^ bits →
      start ≤ j → j < start + 2 ^ bits → i = j := by
    intro i j same first last first' last'
    have moved : i - start ≡ j - start [MOD 2 ^ bits] := by
      apply Nat.ModEq.add_right_cancel' start
      rw [Nat.sub_add_cancel first, Nat.sub_add_cancel first']
      exact same
    have equal := moved.eq_of_lt_of_lt (by omega) (by omega)
    omega
  let value : Fin (2 ^ bits) → Fin (2 ^ bits) := fun offset =>
    ⟨(next (2 ^ width) multiplier increment)^[start + offset] state %
      2 ^ bits, Nat.mod_lt _ positive⟩
  have injective : Function.Injective value := by
    intro left right same
    have agree := (modEq_iff full low state (start + left)
      (start + right)).mp (congrArg Fin.val same)
    have equal := unique agree (by omega) (by omega) (by omega) (by omega)
    exact Fin.ext (by omega)
  obtain ⟨offset, shown⟩ :=
    (Finite.injective_iff_surjective.mp injective) ⟨pattern, inside⟩
  refine ⟨start + offset, ⟨by omega, congrArg Fin.val shown⟩, ?_⟩
  rintro other ⟨⟨first, last⟩, found⟩
  have agree := (modEq_iff full low state other (start + offset)).mp
    (found.trans (congrArg Fin.val shown).symm)
  exact unique agree first last (by omega) (by omega)

end Libcute.Library.Congruential
