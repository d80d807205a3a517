import Mathlib.Data.Nat.Bitwise
import Mathlib.Logic.Function.Iterate

/-!
# Linear probing

A probe follows a successor function from a home index to the first index at
which a stop condition holds.  `walk` runs it for a number of steps; on a
ring whose size is a power of two, a walk of that many steps sees every index
once, so a walk that finds nothing there never ends.

The walks of an open addressing table have to survive the filling of an
index.  `walk_stable` says when they do: what was passed is still passed, and
the index where the walk stopped still stops it.
-/

namespace Libcute.Library.Probing

variable {next : Nat → Nat} {stop stop' : Nat → Bool}
  {fuel start index : Nat}

/-- The first of `fuel` indices, followed from `start`, that stops the walk. -/
def walk (next : Nat → Nat) (stop : Nat → Bool) : Nat → Nat → Option Nat
  | 0, _ => none
  | fuel + 1, index =>
      if stop index then some index else walk next stop fuel (next index)

theorem walk_eq_some :
    walk next stop fuel start = some index ↔
      ∃ distance < fuel, next^[distance] start = index ∧
        stop index = true ∧
        ∀ earlier < distance, stop (next^[earlier] start) = false := by
  induction fuel generalizing start with
  | zero => simp [walk]
  | succ fuel induction =>
      rw [walk]
      by_cases here : stop start = true
      · rw [if_pos here, Option.some.injEq]
        constructor
        · rintro rfl
          exact ⟨0, Nat.succ_pos _, rfl, here, by simp⟩
        · rintro ⟨distance, -, reached, -, passed⟩
          cases distance with
          | zero => exact reached
          | succ distance =>
              have stopped := passed 0 (Nat.succ_pos _)
              rw [Function.iterate_zero_apply, here] at stopped
              contradiction
      · rw [if_neg here, induction]
        rw [Bool.not_eq_true] at here
        constructor
        · rintro ⟨distance, inside, reached, stops, passed⟩
          refine ⟨distance + 1, by omega, reached, stops, ?_⟩
          intro earlier before
          cases earlier with
          | zero => exact here
          | succ earlier => exact passed earlier (by omega)
        · rintro ⟨distance, inside, reached, stops, passed⟩
          cases distance with
          | zero =>
              rw [Function.iterate_zero_apply] at reached
              rw [← reached, here] at stops
              contradiction
          | succ distance =>
              exact ⟨distance, by omega, reached, stops,
                fun earlier before => passed (earlier + 1) (by omega)⟩

theorem walk_eq_none :
    walk next stop fuel start = none ↔
      ∀ distance < fuel, stop (next^[distance] start) = false := by
  induction fuel generalizing start with
  | zero => simp [walk]
  | succ fuel induction =>
      rw [walk]
      by_cases here : stop start = true
      · rw [if_pos here]
        constructor
        · intro impossible
          contradiction
        · intro passed
          have stopped := passed 0 (Nat.succ_pos _)
          rw [Function.iterate_zero_apply, here] at stopped
          contradiction
      · rw [if_neg here, induction]
        rw [Bool.not_eq_true] at here
        constructor
        · intro passed distance inside
          cases distance with
          | zero => exact here
          | succ distance => exact passed distance (by omega)
        · intro passed distance inside
          exact passed (distance + 1) (by omega)

theorem stop_of_walk (found : walk next stop fuel start = some index) :
    stop index = true := by
  rcases walk_eq_some.mp found with ⟨_, _, _, stops, _⟩
  exact stops

/-- A walk outlives a change that frees no index it passed. -/
theorem walk_stable
    (found : walk next stop fuel start = some index)
    (stops : stop' index = true)
    (passes : ∀ other, stop other = false → stop' other = false) :
    walk next stop' fuel start = some index := by
  rcases walk_eq_some.mp found with ⟨distance, inside, reached, _, passed⟩
  exact walk_eq_some.mpr ⟨distance, inside, reached, stops,
    fun earlier before => passes _ (passed earlier before)⟩

/-! ## Rings -/

/-- The successor on a ring of `mask + 1` indices. -/
def ringNext (mask : Nat) (index : Nat) : Nat := (index + 1) &&& mask

theorem ringNext_iterate (exponent home distance : Nat) :
    (ringNext (2 ^ exponent - 1))^[distance]
        (home &&& (2 ^ exponent - 1)) =
      (home + distance) % 2 ^ exponent := by
  induction distance with
  | zero =>
      rw [Function.iterate_zero_apply, Nat.and_two_pow_sub_one_eq_mod,
        Nat.add_zero]
  | succ distance induction =>
      rw [Function.iterate_succ_apply', induction, ringNext,
        Nat.and_two_pow_sub_one_eq_mod, Nat.mod_add_mod, Nat.add_assoc]

/-- Every index lies within one turn of the ring. -/
theorem ringNext_reaches {exponent : Nat} (home : Nat)
    (inside : index < 2 ^ exponent) :
    ∃ distance < 2 ^ exponent,
      (ringNext (2 ^ exponent - 1))^[distance]
        (home &&& (2 ^ exponent - 1)) = index := by
  have positive := Nat.two_pow_pos exponent
  have reduced := Nat.mod_lt home positive
  refine ⟨(index + (2 ^ exponent - home % 2 ^ exponent)) % 2 ^ exponent,
    Nat.mod_lt _ positive, ?_⟩
  have turn :
      home % 2 ^ exponent + (index + (2 ^ exponent - home % 2 ^ exponent)) =
        index + 2 ^ exponent := by
    omega
  rw [ringNext_iterate, Nat.add_mod_mod, ← Nat.mod_add_mod, turn,
    Nat.add_mod_right, Nat.mod_eq_of_lt inside]

/-- A walk around a ring stays on it. -/
theorem lt_of_ring_walk {exponent home : Nat}
    (found : walk (ringNext (2 ^ exponent - 1)) stop fuel
      (home &&& (2 ^ exponent - 1)) = some index) :
    index < 2 ^ exponent := by
  rcases walk_eq_some.mp found with ⟨distance, _, reached, _⟩
  rw [ringNext_iterate] at reached
  rw [← reached]
  exact Nat.mod_lt _ (Nat.two_pow_pos exponent)

/-- One turn finds a stop exactly when the ring has one. -/
theorem ring_walk_ends (exponent home : Nat) :
    (walk (ringNext (2 ^ exponent - 1)) stop (2 ^ exponent)
        (home &&& (2 ^ exponent - 1))).isSome ↔
      ∃ index < 2 ^ exponent, stop index = true := by
  constructor
  · intro ends
    rcases Option.isSome_iff_exists.mp ends with ⟨index, found⟩
    exact ⟨index, lt_of_ring_walk found, stop_of_walk found⟩
  · rintro ⟨index, inside, stops⟩
    rw [Option.isSome_iff_ne_none]
    intro endless
    rcases ringNext_reaches home inside with ⟨distance, within, reached⟩
    have passed := walk_eq_none.mp endless distance within
    rw [reached, stops] at passed
    contradiction

/-- A walk that finds no stop within one turn finds none at all. -/
theorem ring_walk_endless {exponent home : Nat}
    (endless : walk (ringNext (2 ^ exponent - 1)) stop (2 ^ exponent)
      (home &&& (2 ^ exponent - 1)) = none)
    (fuel : Nat) :
    walk (ringNext (2 ^ exponent - 1)) stop fuel
      (home &&& (2 ^ exponent - 1)) = none := by
  rw [walk_eq_none]
  intro distance _
  have onRing :
      (home + distance) % 2 ^ exponent < 2 ^ exponent :=
    Nat.mod_lt _ (Nat.two_pow_pos exponent)
  rcases ringNext_reaches home onRing with ⟨within, turn, reached⟩
  rw [ringNext_iterate, ← reached]
  exact walk_eq_none.mp endless within turn

end Libcute.Library.Probing
