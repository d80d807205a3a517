import Mathlib.Data.List.Lex
import Libcute.Collection.SkipList.Invariant
import Libcute.Library.Comparators
import Libcute.Text.Format

/-!
# The order of C strings

`cu_CString_cmp` of `nostd.c` compares two strings byte by byte and answers
with the difference of the first two bytes that are not the same, or of the
two terminators.  The bytes are compared as `unsigned char`, and a null
pointer comes before every string.

A pointer is the bytes from there to the end of the object it points into.
A byte behind the end has no value, and a call that reads one has no result.
-/

namespace Libcute.Text.CString

open Libcute.Collection.SkipList
open Libcute.Library.Comparators
open Libcute.Text.Format (cString)

/-- The loop of `cu_CString_cmp` and the difference behind it. -/
def cmpBytes : (p1 p2 : List UInt8) → Option Int
  | byte1 :: rest1, byte2 :: rest2 =>
      if byte1 ≠ 0 ∧ byte1 = byte2 then
        cmpBytes rest1 rest2
      else
        some ((byte1.toNat : Int) - byte2.toNat)
  | _, _ => none

/-- `cu_CString_cmp`, with `none` for a null pointer. -/
def cstringCmp : (a b : Option (List UInt8)) → Option Int
  | none, none => some 0
  | none, some _ => some (-1)
  | some _, none => some 1
  | some p1, some p2 => cmpBytes p1 p2

/-- A string: bytes with a terminator, and perhaps more behind it. -/
structure Terminated where
  bytes : List UInt8
  ends : 0 ∈ bytes

/-- `const char *`, null or a string -/
abbrev Pointer := Option Terminated

/-- The bytes in front of the terminator. -/
def Terminated.text (string : Terminated) : List UInt8 :=
  cString string.bytes

/-- `cu_CString_cmp` on pointers to strings. -/
def answer (a b : Pointer) : Option Int :=
  cstringCmp (a.map Terminated.bytes) (b.map Terminated.bytes)

/-- What a caller sees of the answer. -/
def order (a b : Pointer) : Int := (answer a b).getD 0

/-- The values of the bytes as `unsigned char`. -/
def unsigned (text : List UInt8) : List Nat := text.map UInt8.toNat

/-- Texts by their unsigned bytes, with the null pointer at the bottom. -/
def rank (pointer : Pointer) : WithBot (List Nat) :=
  pointer.map fun string => unsigned string.text

/-- The first position with a terminator or a difference. -/
structure Stops (left right : List UInt8) (stop : Nat) : Prop where
  before : ∀ position < stop,
    left[position]? = right[position]? ∧ left[position]? ≠ some 0
  there : left[stop]? = some 0 ∨ left[stop]? ≠ right[stop]?

/-- The comparison is a total order. -/
structure Orders : Prop where
  /-- The loop ends, and no byte behind an object is read. -/
  answered : ∀ a b, answer a b = some (order a b)
  /-- The order is that of the unsigned bytes, with null below all. -/
  less : ∀ a b, order a b < 0 ↔ rank a < rank b
  /-- Zero stands for two null pointers or the same text. -/
  same : ∀ a b, order a b = 0 ↔
    a.map Terminated.text = b.map Terminated.text
  /-- The sign is antisymmetric. -/
  swap : ∀ a b, (order b a).sign = -(order a b).sign
  /-- The sign is transitive. -/
  trans : ∀ a b c, order a b ≤ 0 → order b c ≤ 0 →
    order a c ≤ 0 ∧ (order a b < 0 ∨ order b c < 0 → order a c < 0)
  /-- Two objects that end at the first stop are enough. -/
  reads : ∀ left right : Terminated, ∃ stop,
    Stops left.bytes right.bytes stop ∧
      cmpBytes (left.bytes.take (stop + 1)) (right.bytes.take (stop + 1)) =
        answer (some left) (some right)

variable {left right rest1 rest2 : List UInt8} {byte byte1 byte2 : UInt8}
  {a b : Pointer}

/-! ## Texts -/

theorem toNat_injective : Function.Injective UInt8.toNat :=
  fun _ _ same => UInt8.toNat_inj.mp same

theorem unsigned_cons (nonzero : byte ≠ 0) (rest : List UInt8) :
    unsigned (cString (byte :: rest)) =
      byte.toNat :: unsigned (cString rest) := by
  unfold cString
  rw [List.takeWhile_cons_of_pos (by simpa using nonzero)]
  rfl

theorem unsigned_zero (rest : List UInt8) :
    unsigned (cString (0 :: rest)) = [] := by
  unfold cString
  rw [List.takeWhile_cons_of_neg (by simp)]
  rfl

/-- Pointers have the same rank if they are null or hold the same text. -/
theorem rank_eq_iff :
    rank a = rank b ↔ a.map Terminated.text = b.map Terminated.text := by
  have values : ∀ pointer, rank pointer =
      (pointer.map Terminated.text).map unsigned := by
    intro pointer
    cases pointer <;> rfl
  have injective := Option.map_injective
    (List.map_injective_iff.mpr toNat_injective)
  rw [values, values]
  exact injective.eq_iff

/-! ## The loop -/

/-- A byte that is not the terminator has the terminator behind it. -/
theorem ends_of_cons (nonzero : byte ≠ 0) (ends : 0 ∈ byte :: rest1) :
    0 ∈ rest1 :=
  (List.mem_cons.mp ends).resolve_left nonzero.symm

theorem toNat_pos (nonzero : byte ≠ 0) : 0 < byte.toNat :=
  Nat.pos_of_ne_zero fun zero => nonzero (toNat_injective zero)

/-- Where the loop ends, the two bytes decide. -/
theorem difference_spec (ends : ¬ (byte1 ≠ 0 ∧ byte1 = byte2)) :
    ((byte1.toNat : Int) - byte2.toNat < 0 ↔
      unsigned (cString (byte1 :: rest1)) <
        unsigned (cString (byte2 :: rest2))) ∧
    ((byte1.toNat : Int) - byte2.toNat = 0 ↔
      unsigned (cString (byte1 :: rest1)) =
        unsigned (cString (byte2 :: rest2))) := by
  by_cases first : byte1 = 0
  · subst first
    by_cases second : byte2 = 0
    · subst second
      simp [unsigned_zero]
    · have positive := toNat_pos second
      rw [unsigned_zero, unsigned_cons second, UInt8.toNat_zero]
      exact ⟨iff_of_true (by omega) (List.nil_lt_cons _ _),
        iff_of_false (by omega) (List.cons_ne_nil _ _).symm⟩
  · have positive := toNat_pos first
    have differ : byte1.toNat ≠ byte2.toNat :=
      fun same => ends ⟨first, toNat_injective same⟩
    by_cases second : byte2 = 0
    · subst second
      rw [unsigned_zero, unsigned_cons first, UInt8.toNat_zero]
      exact ⟨iff_of_false (by omega) (List.not_lt_nil _),
        iff_of_false (by omega) (List.cons_ne_nil _ _)⟩
    · rw [unsigned_cons first, unsigned_cons second,
        List.cons_lt_cons_iff, List.cons.injEq]
      constructor
      · constructor
        · intro negative
          exact Or.inl (by omega)
        · rintro (less | ⟨same, _⟩)
          · omega
          · exact absurd same differ
      · exact iff_of_false (by omega) fun same => differ same.1

/-- The loop compares the two texts by their unsigned bytes. -/
theorem cmpBytes_spec (leftEnds : 0 ∈ left) (rightEnds : 0 ∈ right) :
    ∃ difference, cmpBytes left right = some difference ∧
      (difference < 0 ↔
        unsigned (cString left) < unsigned (cString right)) ∧
      (difference = 0 ↔
        unsigned (cString left) = unsigned (cString right)) := by
  induction left generalizing right with
  | nil => cases leftEnds
  | cons byte1 rest1 induction =>
      cases right with
      | nil => cases rightEnds
      | cons byte2 rest2 =>
          rw [cmpBytes]
          split_ifs with goesOn
          · rcases goesOn with ⟨nonzero, rfl⟩
            rcases induction (ends_of_cons nonzero leftEnds)
              (ends_of_cons nonzero rightEnds) with
              ⟨difference, answered, less, same⟩
            refine ⟨difference, answered, ?_, ?_⟩
            · rw [less, unsigned_cons nonzero, unsigned_cons nonzero,
                List.cons_lt_cons_iff]
              simp
            · rw [same, unsigned_cons nonzero, unsigned_cons nonzero,
                List.cons.injEq]
              simp
          · exact ⟨_, rfl, difference_spec goesOn⟩

/-- The loop does not look behind the first terminator or difference. -/
theorem cmpBytes_take (leftEnds : 0 ∈ left) (rightEnds : 0 ∈ right) :
    ∃ stop, Stops left right stop ∧
      cmpBytes (left.take (stop + 1)) (right.take (stop + 1)) =
        cmpBytes left right := by
  induction left generalizing right with
  | nil => cases leftEnds
  | cons byte1 rest1 induction =>
      cases right with
      | nil => cases rightEnds
      | cons byte2 rest2 =>
          by_cases goesOn : byte1 ≠ 0 ∧ byte1 = byte2
          · rcases goesOn with ⟨nonzero, rfl⟩
            rcases induction (ends_of_cons nonzero leftEnds)
              (ends_of_cons nonzero rightEnds) with
              ⟨stop, stops, same⟩
            refine ⟨stop + 1, ⟨?_, ?_⟩, ?_⟩
            · intro position inside
              cases position with
              | zero => simp [nonzero]
              | succ position =>
                  simpa using stops.before position
                    (Nat.lt_of_succ_lt_succ inside)
            · simpa using stops.there
            · rw [List.take_succ_cons, List.take_succ_cons, cmpBytes,
                cmpBytes, same]
          · refine ⟨0, ⟨?_, ?_⟩, ?_⟩
            · intro position inside
              exact absurd inside (Nat.not_lt_zero position)
            · by_cases terminator : byte1 = 0
              · exact Or.inl (congrArg some terminator)
              · right
                intro same
                exact goesOn ⟨terminator, Option.some.inj same⟩
            · simp only [Nat.zero_add, List.take_succ_cons, List.take_zero,
                cmpBytes, if_neg goesOn]

/-! ## The order -/

/-- Every pair of pointers has an answer, which follows the ranks. -/
theorem answer_spec (a b : Pointer) :
    answer a b = some (order a b) ∧
      (order a b < 0 ↔ rank a < rank b) ∧
      (order a b = 0 ↔ rank a = rank b) := by
  cases a with
  | none =>
      cases b with
      | none =>
          exact ⟨rfl, iff_of_false (by decide) (lt_irrefl _),
            iff_of_true rfl rfl⟩
      | some right =>
          refine ⟨rfl, ?_, ?_⟩
          · exact iff_of_true (by decide : (-1 : Int) < 0)
              (WithBot.bot_lt_coe _)
          · exact iff_of_false (by decide : ¬ (-1 : Int) = 0)
              WithBot.bot_ne_coe
  | some left =>
      cases b with
      | none =>
          refine ⟨rfl, ?_, ?_⟩
          · exact iff_of_false (by decide : ¬ (1 : Int) < 0)
              (WithBot.not_lt_bot _)
          · exact iff_of_false (by decide : ¬ (1 : Int) = 0)
              WithBot.coe_ne_bot
      | some right =>
          rcases cmpBytes_spec left.ends right.ends with
            ⟨difference, answered, less, same⟩
          have value : answer (some left) (some right) = some difference :=
            answered
          have seen : order (some left) (some right) = difference := by
            unfold order
            rw [value]
            rfl
          rw [seen]
          exact ⟨value, less.trans WithBot.coe_lt_coe.symm,
            same.trans WithBot.coe_inj.symm⟩

theorem order_follows : Follows order rank where
  less a b := (answer_spec a b).2.1
  same a b := (answer_spec a b).2.2

/-- Strings can be the keys of a skip list. -/
theorem order_total : TotalOrder order :=
  TotalOrder.of_follows order_follows

/--
`cu_CString_cmp` is a total order on null pointers and strings of any length,
and reads no byte behind the first terminator or difference.
-/
theorem cstringCmp_orders : Orders where
  answered a b := (answer_spec a b).1
  less := order_follows.less
  same a b := (order_follows.same a b).trans rank_eq_iff
  swap := order_follows.swap
  trans _ _ _ first second := order_follows.trans first second
  reads left right := cmpBytes_take left.ends right.ends

/-- Bytes above 127 come last, and what is behind a terminator is not read. -/
example : cstringCmp (some [97, 200, 0]) (some [97, 0, 255]) = some 200 := by
  decide

end Libcute.Text.CString
