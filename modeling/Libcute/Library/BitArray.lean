import Mathlib.Data.BitVec
import Mathlib.Data.List.Basic
import Mathlib.Tactic.SplitIfs

/-!
# Arrays of bits

Bit `index` of an array of words of any width is bit `index % width` of word
`index / width`.  Changing one bit of one word changes one bit of the array,
as division and remainder together determine the index.

`lookup` and `write` are for an array that holds `bound` bits, which need not
fill the last word: an index at or above the bound reads as clear, and
writing there has no effect.
-/

namespace Libcute.Library.BitArray

variable {width : Nat} {words : List (BitVec width)}
  {word : BitVec width} {change : BitVec width → BitVec width}
  {value : Bool} {position index other bound count start : Nat}

/-- One bit of an array of words; behind the array all bits are clear. -/
def read (words : List (BitVec width)) (index : Nat) : Bool :=
  (words.getD (index / width) 0).getLsbD (index % width)

/-- The change gives one bit of a word a value and keeps the others. -/
def Writes (change : BitVec width → BitVec width) (position : Nat)
    (value : Bool) : Prop :=
  ∀ word offset, offset < width →
    (change word).getLsbD offset =
      if offset = position then value else word.getLsbD offset

/-- One bit of an array that holds `bound` bits. -/
def lookup (words : List (BitVec width)) (bound index : Nat) : Bool :=
  decide (index < bound) && read words index

/-- Change the word of an index, if the array holds a bit for it. -/
def write (words : List (BitVec width)) (bound index : Nat)
    (change : BitVec width → BitVec width) : List (BitVec width) :=
  if index < bound then words.modify (index / width) change else words

/-- Clear `remaining` words, one after the other, from `start` on. -/
def clearFrom (words : List (BitVec width)) :
    (remaining start : Nat) → List (BitVec width)
  | 0, _ => words
  | remaining + 1, start =>
      clearFrom (words.set start 0) remaining (start + 1)

/-! ## One word -/

theorem and_twoPow_ne_zero (word : BitVec width) (inside : position < width) :
    (word &&& BitVec.twoPow width position != 0) = word.getLsbD position := by
  rw [BitVec.and_twoPow]
  cases selected : word.getLsbD position with
  | false => simp
  | true =>
      simp only [if_true, bne_iff_ne, ne_eq]
      intro zero
      have bit := congrArg (BitVec.getLsbD · position) zero
      simp [inside] at bit

theorem writes_or_twoPow (position : Nat) :
    Writes (fun word : BitVec width => word ||| BitVec.twoPow width position)
      position true := by
  intro word offset inside
  rw [BitVec.getLsbD_or, BitVec.getLsbD_twoPow]
  by_cases same : offset = position
  · subst same
    simp [inside]
  · simp [same, Ne.symm same]

theorem writes_and_not_twoPow (position : Nat) :
    Writes
      (fun word : BitVec width => word &&& ~~~BitVec.twoPow width position)
      position false := by
  intro word offset inside
  rw [BitVec.getLsbD_and, BitVec.getLsbD_not, BitVec.getLsbD_twoPow]
  by_cases same : offset = position
  · subst same
    simp [inside]
  · simp [inside, same, Ne.symm same]

/-! ## The array -/

theorem index_eq_iff (word : index / width = other / width) :
    other % width = index % width ↔ other = index := by
  constructor
  · intro offset
    rw [← Nat.div_add_mod other width, ← Nat.div_add_mod index width, word,
      offset]
  · rintro rfl
    rfl

theorem getD_modify (inside : position < words.length) (item : Nat) :
    (words.modify position change).getD item 0 =
      if position = item then change (words.getD item 0)
      else words.getD item 0 := by
  simp only [List.getD_eq_getElem?_getD, List.getElem?_modify]
  by_cases same : position = item
  · subst same
    simp [inside]
  · simp [same]

/-- Writing one bit of a word writes one bit of the array. -/
theorem read_modify (positive : 0 < width)
    (inside : index / width < words.length)
    (writes : Writes change (index % width) value) (other : Nat) :
    read (words.modify (index / width) change) other =
      if other = index then value else read words other := by
  unfold read
  rw [getD_modify inside]
  by_cases word : index / width = other / width
  · rw [if_pos word, writes _ _ (Nat.mod_lt _ positive)]
    simp only [index_eq_iff word]
  · have different : other ≠ index := by
      rintro rfl
      exact word rfl
    rw [if_neg word, if_neg different]

theorem read_replicate (count index : Nat) :
    read (List.replicate count (0 : BitVec width)) index = false := by
  unfold read
  rw [List.getD_eq_getElem?_getD, List.getElem?_replicate]
  split_ifs <;> simp

theorem lookup_replicate (count bound index : Nat) :
    lookup (List.replicate count (0 : BitVec width)) bound index = false := by
  rw [lookup, read_replicate, Bool.and_false]

@[simp]
theorem length_write (words : List (BitVec width)) (bound index : Nat)
    (change : BitVec width → BitVec width) :
    (write words bound index change).length = words.length := by
  unfold write
  split_ifs
  · exact List.length_modify _ _ _
  · rfl

/-- Setting one bit of a word sets one bit of the array. -/
theorem lookup_set (positive : 0 < width)
    (inside : index < bound → index / width < words.length)
    (writes : Writes change (index % width) true) (other : Nat) :
    lookup (write words bound index change) bound other =
      (lookup words bound other ||
        decide (other = index ∧ index < bound)) := by
  unfold lookup write
  split_ifs with below
  · rw [read_modify positive (inside below) writes]
    by_cases same : other = index
    · subst same
      simp [below]
    · simp [same]
  · simp [below]

/-- Clearing one bit of a word clears one bit of the array. -/
theorem lookup_clear (positive : 0 < width)
    (inside : index < bound → index / width < words.length)
    (writes : Writes change (index % width) false) (other : Nat) :
    lookup (write words bound index change) bound other =
      (lookup words bound other && decide (other ≠ index)) := by
  unfold lookup write
  split_ifs with below
  · rw [read_modify positive (inside below) writes]
    by_cases same : other = index
    · simp [same]
    · simp [same]
  · by_cases same : other = index
    · subst same
      simp [below]
    · simp [same]

/-! ## Clearing -/

@[simp]
theorem length_clearFrom (words : List (BitVec width))
    (remaining start : Nat) :
    (clearFrom words remaining start).length = words.length := by
  induction remaining generalizing words start with
  | zero => rfl
  | succ remaining induction =>
      rw [clearFrom, induction, List.length_set]

/-- The loop clears the words from `start` on. -/
theorem clearFrom_eq (words : List (BitVec width))
    (remaining start : Nat) :
    clearFrom words remaining start =
      words.mapIdx fun position word =>
        if start ≤ position ∧ position < start + remaining then 0
        else word := by
  induction remaining generalizing words start with
  | zero =>
      apply List.ext_getElem (by simp [clearFrom])
      intro position _ inside
      rw [List.getElem_mapIdx, if_neg (by omega)]
      rfl
  | succ remaining induction =>
      rw [clearFrom, induction]
      apply List.ext_getElem (by simp)
      intro position _ inside
      rw [List.getElem_mapIdx, List.getElem_mapIdx, List.getElem_set]
      split_ifs <;> first | rfl | omega

/-- An array that is cleared word by word has no bit set. -/
theorem clearFrom_all (enough : words.length ≤ count) :
    clearFrom words count 0 = List.replicate words.length 0 := by
  rw [clearFrom_eq]
  apply List.ext_getElem (by simp)
  intro position inside _
  rw [List.length_mapIdx] at inside
  rw [List.getElem_mapIdx, List.getElem_replicate, if_pos (by omega)]

end Libcute.Library.BitArray
