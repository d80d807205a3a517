import Mathlib.Data.List.Basic
import Mathlib.Tactic.SplitIfs

/-!
# Contents that are written at a position

`overwrite` replaces what a list holds from a position on.  It extends the
list where the new part reaches past its end, and a part that starts behind
the end leaves a gap.  Two parts that follow each other are written as one.
-/

namespace Libcute.Library.ByteFile

variable {Item : Type}

/-- The list after `part` has been written at `pos`. -/
def overwrite
    (gap : Item) (content : List Item) (pos : Nat) (part : List Item) :
    List Item :=
  if part.isEmpty then
    content
  else
    content.take pos ++ List.replicate (pos - content.length) gap ++ part ++
      content.drop (pos + part.length)

variable {gap : Item} {content part later : List Item} {pos i : Nat}

theorem overwrite_nil : overwrite gap content pos [] = content := rfl

/-- A part that starts inside leaves no gap. -/
theorem overwrite_of_le (inside : pos ≤ content.length) :
    overwrite gap content pos part =
      content.take pos ++ part ++ content.drop (pos + part.length) := by
  unfold overwrite
  rw [Nat.sub_eq_zero_of_le inside, List.replicate_zero, List.append_nil]
  split_ifs with empty
  · rw [List.isEmpty_iff.mp empty, List.append_nil, List.length_nil,
      Nat.add_zero, List.take_append_drop]
  · rfl

theorem length_overwrite (filled : part ≠ []) :
    (overwrite gap content pos part).length =
      max content.length (pos + part.length) := by
  unfold overwrite
  rw [if_neg (by simpa using filled), List.length_append,
    List.length_append, List.length_append, List.length_take,
    List.length_replicate, List.length_drop]
  omega

/-- What an overwritten list holds at an index. -/
theorem getElem?_overwrite (filled : part ≠ []) :
    (overwrite gap content pos part)[i]? =
      if i < pos then
        if i < content.length then content[i]? else some gap
      else if i < pos + part.length then
        part[i - pos]?
      else
        content[i]? := by
  unfold overwrite
  rw [if_neg (by simpa using filled)]
  simp only [List.getElem?_append, List.length_append, List.length_take,
    List.length_replicate, List.getElem?_replicate, List.getElem?_take,
    List.getElem?_drop]
  split_ifs
  all_goals first
    | omega
    | rfl
    | (congr 1; omega)

/-- Two parts in a row. -/
theorem overwrite_append :
    overwrite gap (overwrite gap content pos part) (pos + part.length)
        later =
      overwrite gap content pos (part ++ later) := by
  by_cases first : part = []
  · subst first
    rfl
  by_cases second : later = []
  · subst second
    rw [overwrite_nil, List.append_nil]
  have both : part ++ later ≠ [] := by
    simp [first]
  apply List.ext_getElem?
  intro i
  rw [getElem?_overwrite second, getElem?_overwrite first,
    getElem?_overwrite both, length_overwrite first, List.length_append,
    List.getElem?_append]
  split_ifs
  all_goals first
    | omega
    | rfl
    | (congr 1; omega)

end Libcute.Library.ByteFile
