import Mathlib.Order.WithBot
import Mathlib.Data.Int.Order.Basic
import Mathlib.Order.Defs.LinearOrder

/-!
# Comparison functions

A comparison function answers with a number whose sign says which of two
items comes first.  It `Follows` a rank if it answers as a linear order
compares the ranks of the items; everything that a sorted structure asks of
a comparison function follows from that.
-/

namespace Libcute.Library.Comparators

variable {Item Rank : Type} [LinearOrder Rank] {cmp : Item → Item → Int}
  {rank : Item → Rank} {a b c : Item}

/-- The comparison function compares the ranks of the items. -/
structure Follows (cmp : Item → Item → Int) (rank : Item → Rank) :
    Prop where
  less : ∀ a b, cmp a b < 0 ↔ rank a < rank b
  same : ∀ a b, cmp a b = 0 ↔ rank a = rank b

namespace Follows

theorem greater (follows : Follows cmp rank) (a b : Item) :
    0 < cmp a b ↔ rank b < rank a := by
  have less := follows.less a b
  have same := follows.same a b
  constructor
  · intro positive
    have notLess : ¬ rank a < rank b := by
      rw [← less]
      omega
    have notSame : rank a ≠ rank b := by
      rw [ne_eq, ← same]
      omega
    exact lt_of_le_of_ne (le_of_not_gt notLess) notSame.symm
  · intro above
    have notLess : ¬ cmp a b < 0 := by
      rw [less]
      exact above.asymm
    have notSame : cmp a b ≠ 0 := by
      rw [ne_eq, same]
      exact above.ne'
    omega

theorem atMost (follows : Follows cmp rank) (a b : Item) :
    cmp a b ≤ 0 ↔ rank a ≤ rank b := by
  rw [← not_lt, follows.greater, not_lt]

/-- The sign is antisymmetric. -/
theorem swap (follows : Follows cmp rank) (a b : Item) :
    (cmp b a).sign = -(cmp a b).sign := by
  rcases lt_trichotomy (rank a) (rank b) with below | equal | above
  · rw [Int.sign_eq_neg_one_of_neg ((follows.less a b).mpr below),
      Int.sign_eq_one_of_pos ((follows.greater b a).mpr below)]
    rfl
  · rw [(follows.same a b).mpr equal, (follows.same b a).mpr equal.symm]
    rfl
  · rw [Int.sign_eq_one_of_pos ((follows.greater a b).mpr above),
      Int.sign_eq_neg_one_of_neg ((follows.less b a).mpr above)]

/-- The sign is transitive, also where one of the two pairs is equal. -/
theorem trans (follows : Follows cmp rank)
    (first : cmp a b ≤ 0) (second : cmp b c ≤ 0) :
    cmp a c ≤ 0 ∧ (cmp a b < 0 ∨ cmp b c < 0 → cmp a c < 0) := by
  rw [follows.atMost] at first second
  rw [follows.atMost, follows.less, follows.less, follows.less]
  refine ⟨first.trans second, ?_⟩
  rintro (strict | strict)
  · exact strict.trans_le second
  · exact first.trans_lt strict

end Follows

end Libcute.Library.Comparators
