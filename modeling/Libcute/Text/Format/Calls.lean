import Mathlib.Data.List.TakeWhile
import Libcute.Text.Format.Numerals

/-!
# What the formatter produces

For arguments that match the format, a call produces a text that does not
depend on the buffer, and counts its characters; a format that ends inside a
specifier is counted one more (`loop_emits`).  The results on the three kinds
of buffers follow: the text of a buffer without end is `rendering`, a bounded
one holds its beginning and a NUL, and a measuring call returns the count.
-/

namespace Libcute.Text.Format

open Libcute.Core.Size
open Libcute.Library.ByteFile

variable {target : Target} {out : Out} {text first second : List UInt8}
  {length : Length} {fmt p : List UInt8} {args : List Arg}

/-! ## Writing texts -/

/-- Counting and writing commute. -/
theorem put_count (target : Target) (out : Out) (c : UInt8) (n : Nat) :
    put target (out.count n) c = (put target out c).map fun out =>
      out.count n := by
  unfold put Out.count
  cases target with
  | measuring => rfl
  | unbounded => rfl
  | bounded size =>
      dsimp only
      split_ifs <;> rfl

theorem putAll_count
    (target : Target) (out : Out) (text : List UInt8) (n : Nat) :
    putAll target (out.count n) text =
      (putAll target out text).map fun out => out.count n := by
  induction text generalizing out with
  | nil => rfl
  | cons c rest induction =>
      unfold putAll
      rw [put_count]
      cases put target out c with
      | none => rfl
      | some next => exact induction next

theorem putAll_append
    (target : Target) (out : Out) (first second : List UInt8) :
    putAll target out (first ++ second) =
      (putAll target out first).bind fun out =>
        putAll target out second := by
  induction first generalizing out with
  | nil => rfl
  | cons c rest induction =>
      rw [List.cons_append, putAll, putAll]
      cases put target out c with
      | none => rfl
      | some next => exact induction next

theorem count_count (out : Out) (first second : Nat) :
    (out.count first).count second = out.count (first + second) := by
  unfold Out.count
  dsimp only
  rw [Nat.add_assoc]

/-- Write a text and count so many characters. -/
def emit (target : Target) (out : Out) (text : List UInt8) (n : Nat) :
    Option Out :=
  (putAll target out text).map fun out => out.count n

theorem emit_emit
    (target : Target) (out : Out) (first second : List UInt8)
    (m n : Nat) :
    ((emit target out first m).bind fun out => emit target out second n) =
      emit target out (first ++ second) (m + n) := by
  unfold emit
  rw [putAll_append]
  cases putAll target out first with
  | none => rfl
  | some next =>
      dsimp only [Option.map_some, Option.bind_some]
      rw [putAll_count, Option.map_map]
      congr 1
      funext out
      exact count_count out m n

theorem putCounted_eq (target : Target) (out : Out) (c : UInt8) :
    putCounted target out c = emit target out [c] 1 := by
  unfold putCounted emit putAll putAll
  cases put target out c <;> rfl

theorem putString_eq (target : Target) (out : Out) (text : List UInt8) :
    putString target out text = emit target out text text.length := by
  induction text generalizing out with
  | nil => rfl
  | cons c rest induction =>
      unfold putString
      rw [putCounted_eq]
      simp only [induction]
      rw [emit_emit, List.length_cons, Nat.add_comm, List.singleton_append]

/-! ## Numbers -/

theorem cString_of_nonzero (nonzero : ∀ c ∈ text, c ≠ 0) :
    cString text = text := by
  unfold cString
  rw [List.takeWhile_eq_self_iff]
  simpa using nonzero

/-- A number of 64 bits fits in the buffer, and its length is returned. -/
theorem formatNumber_spec
    {num base : Nat} (fits : num < sizeLimit) (ten : 10 ≤ base)
    (small : base ≤ 16) (isSigned isNegative uppercase : Bool) :
    ∃ text, formatNumber 64 num isSigned isNegative base uppercase =
        some (text, text.length) ∧ cString text = text :=
  ⟨_, formatNumber_eq ten small fits isSigned isNegative uppercase,
    cString_of_nonzero
      (signed_nonzero (numeral_nonzero (by omega) small) _)⟩

/-- A number emits its text. -/
theorem putNumber_spec
    {num base : Nat} (fits : num < 2 ^ 64) (ten : 10 ≤ base)
    (small : base ≤ 16) (isSigned isNegative uppercase : Bool) :
    ∃ text, ∀ target out,
      ((formatNumber 64 num isSigned isNegative base uppercase).bind
        (putNumber target out)) = emit target out text text.length := by
  rcases formatNumber_spec fits ten small isSigned isNegative uppercase with
    ⟨text, shown, whole⟩
  refine ⟨text, fun target out => ?_⟩
  rw [shown]
  dsimp only [Option.bind_some]
  unfold putNumber emit
  dsimp only
  rw [whole]

/-! ## Arguments -/

/-- The types that arguments have and specifiers ask for. -/
inductive Kind where
  | word
  | long
  | longLong
  | string
  | pointer
deriving DecidableEq, Repr

def Arg.kind : Arg → Kind
  | .word _ => .word
  | .long _ => .long
  | .longLong _ => .longLong
  | .string _ => .string
  | .pointer _ => .pointer

def Length.kind : Length → Kind
  | .int => .word
  | .long => .long
  | .longLong => .longLong

/-- What a specifier asks for. -/
def request (length : Length) (c : UInt8) : Option Kind :=
  if c = ascii 'd' ∨ c = ascii 'i' ∨ c = ascii 'u' ∨ c = ascii 'x' ∨
      c = ascii 'X' then
    some length.kind
  else if c = ascii 'c' then
    some .word
  else if c = ascii 's' then
    some .string
  else if c = ascii 'p' then
    some .pointer
  else
    none

/-- What the specifiers of a format ask for, in their order. -/
def asks : Nat → List UInt8 → List Kind
  | 0, _ => []
  | turns + 1, p =>
      if p.headD 0 = 0 then
        []
      else if p.headD 0 = ascii '%' then
        let (length, p) := modifiers p.tail
        (request length (p.headD 0)).toList ++
          asks turns (if p.headD 0 = 0 then p else p.tail)
      else
        asks turns p.tail

/-- The arguments are of the types that the format asks for. -/
def Matches (fmt : List UInt8) (args : List Arg) : Prop :=
  asks fmt.length fmt <+: args.map Arg.kind

instance (fmt : List UInt8) (args : List Arg) : Decidable (Matches fmt args) :=
  inferInstanceAs (Decidable (_ <+: _))

/-- A format ends behind `%` or a length modifier. -/
def endsInside : Nat → List UInt8 → Bool
  | 0, _ => false
  | turns + 1, p =>
      if p.headD 0 = 0 then
        false
      else if p.headD 0 = ascii '%' then
        let p := (modifiers p.tail).2
        if p.headD 0 = 0 then true else endsInside turns p.tail
      else
        endsInside turns p.tail

theorem cons_of_asked
    {kind : Kind} (asked : [kind] <+: args.map Arg.kind) :
    ∃ arg rest, args = arg :: rest ∧ arg.kind = kind := by
  cases args with
  | nil =>
      rw [List.map_nil, List.prefix_nil] at asked
      cases asked
  | cons arg rest =>
      rw [List.map_cons, List.cons_prefix_cons] at asked
      exact ⟨arg, rest, rfl, asked.1.symm⟩

theorem magnitude_lt {w : Nat} (bits : BitVec w) (wide : w ≤ 64) :
    (magnitude bits).1 < 2 ^ 64 := by
  have bound : 2 ^ w ≤ 2 ^ 64 := Nat.pow_le_pow_right (by decide) wide
  unfold magnitude
  split_ifs
  · exact (-bits).isLt.trans_le bound
  · exact bits.isLt.trans_le bound

theorem nextSigned_spec
    (asked : [length.kind] <+: args.map Arg.kind) :
    ∃ num negative, nextSigned length args =
      some ((num, negative), args.tail) ∧ num < 2 ^ 64 := by
  rcases cons_of_asked asked with ⟨arg, rest, rfl, kind⟩
  cases length <;> cases arg <;> cases kind
  · exact ⟨_, _, rfl, magnitude_lt _ (by decide)⟩
  · exact ⟨_, _, rfl, magnitude_lt _ (by decide)⟩
  · exact ⟨_, _, rfl, magnitude_lt _ (by decide)⟩

theorem nextUnsigned_spec
    (asked : [length.kind] <+: args.map Arg.kind) :
    ∃ num, nextUnsigned length args = some (num, args.tail) ∧
      num < 2 ^ 64 := by
  rcases cons_of_asked asked with ⟨arg, rest, rfl, kind⟩
  cases length <;> cases arg <;> cases kind
  · rename_i bits
    have word := bits.isLt
    exact ⟨_, rfl, by omega⟩
  · exact ⟨_, rfl, BitVec.isLt _⟩
  · exact ⟨_, rfl, BitVec.isLt _⟩

/-! ## Specifiers -/

/-- What a specifier leaves of the arguments. -/
def remaining (length : Length) (c : UInt8) (args : List Arg) : List Arg :=
  if (request length c).isSome then args.tail else args

/-- A specifier emits a text that does not depend on the buffer. -/
def Emits
    (length : Length) (c : UInt8) (args : List Arg) (text : List UInt8)
    (n : Nat) : Prop :=
  ∀ target out, specifier target length c out args =
    (emit target out text n).map (·, remaining length c args)

theorem specifier_signed
    {c : UInt8} (signed : c = ascii 'd' ∨ c = ascii 'i')
    (asked : (request length c).toList <+: args.map Arg.kind) :
    ∃ text, Emits length c args text text.length := by
  have wants : request length c = some length.kind := by
    unfold request
    rw [if_pos (by tauto)]
  rw [wants] at asked
  rcases nextSigned_spec asked with ⟨num, negative, next, fits⟩
  rcases putNumber_spec fits (le_refl 10) (by decide) true negative false
    with ⟨text, puts⟩
  refine ⟨text, fun target out => ?_⟩
  unfold specifier remaining
  rw [if_pos signed, next, wants]
  dsimp only
  rw [puts]
  rfl

theorem specifier_unsigned
    (asked : (request length (ascii 'u')).toList <+: args.map Arg.kind) :
    ∃ text, Emits length (ascii 'u') args text text.length := by
  rcases nextUnsigned_spec asked with ⟨num, next, fits⟩
  rcases putNumber_spec fits (le_refl 10) (by decide) false false false
    with ⟨text, puts⟩
  refine ⟨text, fun target out => ?_⟩
  unfold specifier
  rw [if_neg (by decide), if_pos rfl, next]
  dsimp only
  rw [puts]
  rfl

theorem specifier_hexadecimal
    {c : UInt8} (hexadecimal : c = ascii 'x' ∨ c = ascii 'X')
    (asked : (request length c).toList <+: args.map Arg.kind) :
    ∃ text, Emits length c args text text.length := by
  have wants : request length c = some length.kind := by
    unfold request
    rw [if_pos (by tauto)]
  have others : ¬ (c = ascii 'd' ∨ c = ascii 'i') ∧ c ≠ ascii 'u' := by
    rcases hexadecimal with rfl | rfl <;> decide
  rw [wants] at asked
  rcases nextUnsigned_spec asked with ⟨num, next, fits⟩
  rcases putNumber_spec fits (by decide) (le_refl 16) false false
    (c = ascii 'X') with ⟨text, puts⟩
  refine ⟨text, fun target out => ?_⟩
  unfold specifier remaining
  rw [if_neg others.1, if_neg others.2, if_pos hexadecimal, next, wants]
  dsimp only
  rw [puts]
  rfl

theorem specifier_character
    (asked : (request length (ascii 'c')).toList <+: args.map Arg.kind) :
    ∃ text, Emits length (ascii 'c') args text text.length := by
  rcases cons_of_asked asked with ⟨arg, rest, rfl, kind⟩
  cases arg <;> cases kind
  rename_i bits
  refine ⟨[UInt8.ofNat bits.toNat], fun target out => ?_⟩
  unfold specifier
  rw [if_neg (by decide), if_neg (by decide), if_neg (by decide),
    if_pos rfl]
  dsimp only
  rw [putCounted_eq]
  rfl

theorem specifier_string
    (asked : (request length (ascii 's')).toList <+: args.map Arg.kind) :
    ∃ text, Emits length (ascii 's') args text text.length := by
  rcases cons_of_asked asked with ⟨arg, rest, rfl, kind⟩
  cases arg <;> cases kind
  rename_i bytes
  refine ⟨cString (bytes.getD nullText), fun target out => ?_⟩
  unfold specifier
  rw [if_neg (by decide), if_neg (by decide), if_neg (by decide),
    if_neg (by decide), if_pos rfl]
  dsimp only
  rw [putString_eq]
  rfl

/-- A pointer has a prefix and a number. -/
theorem specifier_pointer
    (asked : (request length (ascii 'p')).toList <+: args.map Arg.kind) :
    ∃ text, Emits length (ascii 'p') args text text.length := by
  rcases cons_of_asked asked with ⟨arg, rest, rfl, kind⟩
  cases arg <;> cases kind
  rename_i addr
  rcases putNumber_spec addr.isLt (by decide) (le_refl 16) false false false
    with ⟨text, puts⟩
  refine ⟨[ascii '0', ascii 'x'] ++ text, fun target out => ?_⟩
  unfold specifier
  rw [if_neg (by decide), if_neg (by decide), if_neg (by decide),
    if_neg (by decide), if_neg (by decide), if_pos rfl]
  dsimp only
  simp only [puts]
  change (((emit target out [ascii '0', ascii 'x'] 2).bind fun out =>
    emit target out text text.length)).map _ = _
  rw [emit_emit, List.length_append]
  rfl

theorem specifier_percent :
    Emits length (ascii '%') args [ascii '%'] 1 := by
  intro target out
  unfold specifier
  rw [if_neg (by decide), if_neg (by decide), if_neg (by decide),
    if_neg (by decide), if_neg (by decide), if_neg (by decide), if_pos rfl,
    putCounted_eq]
  rfl

/-- The characters that `cu_CString_vsnprintf` knows. -/
def Known (c : UInt8) : Prop :=
  (c = ascii 'd' ∨ c = ascii 'i') ∨ c = ascii 'u' ∨
    (c = ascii 'x' ∨ c = ascii 'X') ∨ c = ascii 'c' ∨ c = ascii 's' ∨
    c = ascii 'p' ∨ c = ascii '%'

/--
An unknown specifier is copied and counted as two characters, also when the
format ends there.
-/
theorem specifier_unknown {c : UInt8} (unknown : ¬ Known c) :
    Emits length c args (if c = 0 then [ascii '%'] else [ascii '%', c])
      2 := by
  unfold Known at unknown
  push Not at unknown
  rcases unknown with
    ⟨signed, unsigned, hexadecimal, character, string, pointer, percent⟩
  have wants : request length c = none := by
    unfold request
    rw [if_neg (by tauto), if_neg character, if_neg string, if_neg pointer]
  intro target out
  unfold specifier remaining
  rw [if_neg (by tauto), if_neg unsigned, if_neg (by tauto),
    if_neg character, if_neg string, if_neg pointer, if_neg percent, wants]
  unfold emit
  congr 2
  split_ifs
  · unfold putAll putAll
    rfl
  · unfold putAll putAll putAll
    simp

/-- A specifier that ends the format is counted one more than its text. -/
theorem specifier_emits
    (c : UInt8)
    (asked : (request length c).toList <+: args.map Arg.kind) :
    ∃ text, Emits length c args text
      (text.length + if c = 0 then 1 else 0) := by
  by_cases known : Known c
  · have filled : c ≠ 0 := by
      rcases known with (rfl | rfl) | rfl | (rfl | rfl) | rfl | rfl | rfl | rfl
        <;> decide
    rw [if_neg filled]
    rcases known with signed | rfl | hexadecimal | rfl | rfl | rfl | rfl
    · exact specifier_signed signed asked
    · exact specifier_unsigned asked
    · exact specifier_hexadecimal hexadecimal asked
    · exact specifier_character asked
    · exact specifier_string asked
    · exact specifier_pointer asked
    · exact ⟨_, specifier_percent⟩
  · refine ⟨_, (?_ : Emits length c args
      (if c = 0 then [ascii '%'] else [ascii '%', c]) _)⟩
    have counts : (if c = 0 then [ascii '%'] else [ascii '%', c]).length +
        (if c = 0 then 1 else 0) = 2 := by
      split_ifs <;> rfl
    rw [counts]
    exact specifier_unknown known

/-! ## The format -/

theorem modifiers_length (p : List UInt8) :
    (modifiers p).2.length ≤ p.length := by
  unfold modifiers
  split_ifs
  · rw [List.length_tail, List.length_tail]
    omega
  · rw [List.length_tail]
    omega
  · exact le_rfl

theorem filled_of_head (filled : p.headD 0 ≠ 0) : 0 < p.length := by
  cases p with
  | nil => exact absurd rfl filled
  | cons c rest => exact Nat.zero_lt_succ _

/-- The loop ends at a NUL. -/
theorem loop_over (ended : p.headD 0 = 0) (turns : Nat) :
    loop target turns p out args = some out := by
  cases turns <;> unfold loop <;> rw [if_pos ended]

theorem asked_behind
    {c : UInt8} {kinds : List Kind}
    (asked : (request length c).toList ++ kinds <+: args.map Arg.kind) :
    kinds <+: (remaining length c args).map Arg.kind := by
  unfold remaining
  cases wants : request length c with
  | none =>
      rw [wants] at asked
      exact asked
  | some kind =>
      rw [wants] at asked
      rcases cons_of_asked ((List.prefix_append _ _).trans asked) with
        ⟨arg, rest, rfl, _⟩
      exact (List.cons_prefix_cons.mp asked).2

/-- One specifier, and what follows it. -/
theorem loop_specifier
    {turns n m : Nat} {after : List UInt8} {rest : List Arg}
    (filled : p.headD 0 ≠ 0) (percent : p.headD 0 = ascii '%')
    (shown : modifiers p.tail = (length, after))
    (emits : specifier target length (after.headD 0) out args =
      (emit target out first n).map (·, rest))
    (follows : ∀ out, loop target turns
      (if after.headD 0 = 0 then after else after.tail) out rest =
        emit target out second m) :
    loop target (turns + 1) p out args =
      emit target out (first ++ second) (n + m) := by
  unfold loop
  rw [if_neg filled, if_pos percent, shown, ← emit_emit]
  dsimp only
  rw [emits]
  cases emit target out first n with
  | none => rfl
  | some next => exact follows next

/-- What a format produces that is read from some character on. -/
theorem loop_emits
    (turns : Nat) (enough : p.length ≤ turns)
    (asked : asks turns p <+: args.map Arg.kind) :
    ∃ text, ∀ target out, loop target turns p out args =
      emit target out text
        (text.length + if endsInside turns p = true then 1 else 0) := by
  induction turns generalizing p args with
  | zero =>
      have nothing : p = [] := List.length_eq_zero_iff.mp (by omega)
      subst nothing
      exact ⟨[], fun target out => rfl⟩
  | succ turns induction =>
      by_cases ended : p.headD 0 = 0
      · refine ⟨[], fun target out => ?_⟩
        rw [loop_over ended]
        unfold endsInside
        rw [if_pos ended]
        rfl
      have long := filled_of_head ended
      by_cases percent : p.headD 0 = ascii '%'
      · rcases shown : modifiers p.tail with ⟨length, after⟩
        have short := modifiers_length p.tail
        rw [shown, List.length_tail] at short
        dsimp only at short
        have asked' : (request length (after.headD 0)).toList ++
            asks turns (if after.headD 0 = 0 then after else after.tail) <+:
              args.map Arg.kind := by
          unfold asks at asked
          rw [if_neg ended, if_pos percent, shown] at asked
          exact asked
        rcases specifier_emits _ ((List.prefix_append _ _).trans asked') with
          ⟨first, emits⟩
        have ends : endsInside (turns + 1) p =
            if after.headD 0 = 0 then true else endsInside turns after.tail := by
          rw [endsInside, if_neg ended, if_pos percent, shown]
        rw [ends]
        by_cases last : after.headD 0 = 0
        · refine ⟨first ++ [], fun target out => ?_⟩
          rw [if_pos last] at emits ⊢
          have follows : ∀ out, loop target turns
              (if after.headD 0 = 0 then after else after.tail) out
              (remaining length (after.headD 0) args) =
                emit target out [] 0 := by
            intro out
            rw [if_pos last, loop_over last]
            rfl
          rw [loop_specifier ended percent shown (emits target out) follows,
            List.append_nil]
          rfl
        · have asked'' := asked_behind asked'
          rw [if_neg last] at asked''
          rcases induction (by rw [List.length_tail]; omega) asked'' with
            ⟨second, loops⟩
          refine ⟨first ++ second, fun target out => ?_⟩
          rw [if_neg last] at emits ⊢
          rw [loop_specifier ended percent shown (emits target out)
            (by rw [if_neg last]; exact loops target), List.length_append,
            Nat.add_zero, Nat.add_assoc]
      · have asked' : asks turns p.tail <+: args.map Arg.kind := by
          unfold asks at asked
          rw [if_neg ended, if_neg percent] at asked
          exact asked
        rcases induction (by rw [List.length_tail]; omega) asked' with
          ⟨second, loops⟩
        refine ⟨p.headD 0 :: second, fun target out => ?_⟩
        have ends : endsInside (turns + 1) p = endsInside turns p.tail := by
          rw [endsInside, if_neg ended, if_neg percent]
        unfold loop
        rw [if_neg ended, if_neg percent, ends, putCounted_eq]
        simp only [loops]
        rw [emit_emit, List.singleton_append, List.length_cons,
          Nat.add_comm 1, Nat.add_right_comm]

/-! ## The three kinds of buffers -/

theorem putAll_measuring (out : Out) (text : List UInt8) :
    putAll .measuring out text =
      some { out with pos := out.pos + text.length } := by
  induction text generalizing out with
  | nil => rfl
  | cons c rest induction =>
      rw [putAll, List.length_cons]
      dsimp only [put, Option.bind_some]
      rw [induction, Nat.add_comm rest.length, ← Nat.add_assoc]

theorem putAll_unbounded (out : Out) (text : List UInt8) :
    putAll .unbounded out text =
      some { out with
        dst := out.dst ++ text
        pos := out.pos + text.length } := by
  induction text generalizing out with
  | nil =>
      rw [putAll, List.append_nil]
      rfl
  | cons c rest induction =>
      rw [putAll, List.length_cons]
      dsimp only [put, Option.bind_some]
      rw [induction, List.append_assoc, List.singleton_append,
        Nat.add_comm rest.length, ← Nat.add_assoc]

theorem set_eq_overwrite
    {dst : List UInt8} {pos : Nat} (inside : pos < dst.length) (c : UInt8) :
    dst.set pos c = overwrite 0 dst pos [c] := by
  rw [overwrite_of_le inside.le, List.set_eq_take_append_cons_drop,
    if_pos inside, List.append_assoc, List.singleton_append,
    List.length_singleton]

/-- A bounded buffer gets the characters up to its last byte. -/
theorem putAll_bounded
    {size : Nat} (out : Out) (text : List UInt8)
    (room : min (out.pos + text.length) (size - 1) ≤ out.dst.length) :
    putAll (.bounded size) out text =
      some { out with
        dst := overwrite 0 out.dst out.pos
          (text.take (size - 1 - out.pos))
        pos := out.pos + text.length } := by
  induction text generalizing out with
  | nil =>
      rw [List.take_nil, overwrite_nil]
      rfl
  | cons c rest induction =>
      rw [List.length_cons] at room ⊢
      rw [putAll]
      unfold put
      dsimp only
      split_ifs with inside stored
      · have kept : (overwrite 0 out.dst out.pos [c]).length =
            out.dst.length := by
          rw [← set_eq_overwrite stored, List.length_set]
        have ahead : size - 1 - out.pos = size - 1 - (out.pos + 1) + 1 := by
          omega
        dsimp only [Option.bind_some]
        rw [set_eq_overwrite stored, induction _ (by
          dsimp only
          rw [kept]
          omega)]
        dsimp only
        rw [ahead, List.take_succ_cons, Nat.add_comm rest.length,
          ← Nat.add_assoc]
        congr 2
        exact overwrite_append
      · omega
      · have full : size - 1 - out.pos = 0 := by omega
        have full' : size - 1 - (out.pos + 1) = 0 := by omega
        dsimp only [Option.bind_some]
        rw [induction _ (by dsimp only; omega)]
        dsimp only
        rw [full, full', List.take_zero, List.take_zero, overwrite_nil,
          overwrite_nil, Nat.add_comm rest.length, ← Nat.add_assoc]

/-! ## Calls -/

/-- The format ends inside a specifier. -/
def Unfinished (fmt : List UInt8) : Prop := endsInside fmt.length fmt = true

instance (fmt : List UInt8) : Decidable (Unfinished fmt) :=
  inferInstanceAs (Decidable (_ = _))

/-- What a call counts: an unfinished specifier is counted one more. -/
def counted (fmt text : List UInt8) : Nat :=
  text.length + if Unfinished fmt then 1 else 0

/-- Arguments that match have a rendering, which every call emits. -/
theorem rendering_of_matches (matching : Matches fmt args) :
    ∃ text, rendering fmt args = some text ∧ ∀ target out,
      loop target fmt.length fmt out args =
        emit target out text (counted fmt text) := by
  rcases loop_emits fmt.length le_rfl matching with ⟨text, loops⟩
  refine ⟨text, ?_, loops⟩
  unfold rendering
  rw [loops]
  unfold emit
  rw [putAll_unbounded]
  rfl

theorem vsnprintf_measures
    (loops : ∀ target out, loop target fmt.length fmt out args =
      emit target out text (counted fmt text)) (size : Nat) :
    vsnprintf none size fmt args = some (asInt (counted fmt text), none) := by
  unfold vsnprintf
  dsimp only
  rw [loops]
  unfold emit
  rw [putAll_measuring]
  dsimp only [Option.map_some, Out.count]
  rw [Nat.zero_add]

/-- A bounded call writes the beginning of the text and a NUL. -/
theorem vsnprintf_bounded
    (loops : ∀ target out, loop target fmt.length fmt out args =
      emit target out text (counted fmt text))
    {dst : List UInt8} {size : Nat} (positive : 1 ≤ size)
    (room : min text.length (size - 1) < dst.length) :
    vsnprintf (some dst) size fmt args =
      some (asInt (counted fmt text),
        some (text.take (size - 1) ++
          0 :: dst.drop (min text.length (size - 1) + 1))) := by
  have writes : putAll (.bounded size) ⟨dst, 0, 0⟩ text =
      some ⟨overwrite 0 dst 0 (text.take (size - 1)), text.length, 0⟩ := by
    rw [putAll_bounded _ _ (by dsimp only; omega)]
    dsimp only
    rw [Nat.zero_add, Nat.sub_zero]
  have idx : (if text.length < size then text.length else size - 1) =
      (text.take (size - 1)).length := by
    rw [List.length_take]
    split_ifs <;> omega
  have spot : (text.take (size - 1)).length < dst.length := by
    rw [List.length_take]
    omega
  have buffer : overwrite 0 dst 0 (text.take (size - 1)) =
      text.take (size - 1) ++ dst.drop (text.take (size - 1)).length := by
    rw [overwrite_of_le (Nat.zero_le _), List.take_zero, List.nil_append,
      Nat.zero_add]
  have last : (min text.length (size - 1)) =
      (text.take (size - 1)).length := by
    rw [List.length_take, Nat.min_comm]
  generalize shown : text.take (size - 1) = front at *
  unfold vsnprintf
  dsimp only
  rw [if_neg (by omega), loops]
  unfold emit
  rw [writes]
  dsimp only [Option.map_some, Option.bind_some, Out.count]
  rw [idx, buffer, if_pos (by
    rw [List.length_append, List.length_drop]
    omega), List.set_append_right _ _ le_rfl, Nat.sub_self, last,
    List.drop_eq_getElem_cons spot, List.set_cons_zero, Nat.zero_add]

/--
The main result on bounded buffers: a call writes nothing behind the `size`
bytes of the buffer, which then holds the beginning of the text, as far as
there is room, and a NUL.
-/
theorem vsnprintf_truncates
    (matching : Matches fmt args) {dst : List UInt8} {size : Nat}
    (positive : 1 ≤ size) (room : size ≤ dst.length) :
    ∃ text ret dst', rendering fmt args = some text ∧
      vsnprintf (some dst) size fmt args = some (ret, some dst') ∧
      dst'.take (min text.length (size - 1)) =
        text.take (min text.length (size - 1)) ∧
      dst'[min text.length (size - 1)]? = some 0 ∧
      dst'.drop size = dst.drop size ∧ dst'.length = dst.length := by
  rcases rendering_of_matches matching with ⟨text, renders, loops⟩
  refine ⟨text, _, _, renders, vsnprintf_bounded loops positive (by omega),
    ?_⟩
  have front : text.take (size - 1) =
      text.take (min text.length (size - 1)) := by
    rw [List.take_eq_take_min, Nat.min_comm]
  have long : (text.take (min text.length (size - 1))).length =
      min text.length (size - 1) := by
    rw [List.length_take]
    omega
  have inside : min text.length (size - 1) < size := by omega
  rw [front]
  generalize min text.length (size - 1) = k at *
  refine ⟨?_, ?_, ?_, ?_⟩
  · exact List.take_left' long
  · rw [List.getElem?_append_right long.le, long, Nat.sub_self]
    rfl
  · have behind : size - k = size - (k + 1) + 1 := by omega
    rw [List.drop_append, List.drop_of_length_le (by omega), long,
      List.nil_append, behind, List.drop_succ_cons, List.drop_drop]
    congr 1
    omega
  · rw [List.length_append, List.length_cons, List.length_drop, long]
    omega

/-- Formats and arguments of the tests: `"number %d"` and 10. -/
def numberFormat : List UInt8 :=
  ['n', 'u', 'm', 'b', 'e', 'r', ' ', '%', 'd'].map ascii

/-- The number is cut off. -/
theorem vsnprintf_truncates_number :
    ∃ ret dst', vsnprintf (some (List.replicate 12 170)) 9 numberFormat
        [.word 10] = some (ret, some dst') ∧
      dst'[8]? = some 0 ∧ dst'.drop 9 = [170, 170, 170] := by
  have matching : Matches numberFormat [.word 10] := by decide
  have room : 9 ≤ (List.replicate 12 (170 : UInt8)).length := by decide
  rcases vsnprintf_truncates matching (by decide : 1 ≤ 9) room with
    ⟨text, ret, dst', renders, calls, _, last, others, _⟩
  have shown : rendering numberFormat [.word 10] =
      some (['n', 'u', 'm', 'b', 'e', 'r', ' ', '1', '0'].map ascii) := by
    decide +kernel
  rw [shown] at renders
  cases renders
  exact ⟨ret, dst', calls, last, others⟩

end Libcute.Text.Format
