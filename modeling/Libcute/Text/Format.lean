import Mathlib.Tactic.IntervalCases
import Mathlib.Tactic.SplitIfs
import Libcute.Library.ByteFile

/-!
# The formatter

`cu_CString_vsnprintf` of `nostd.c` goes through a format byte by byte.  It
counts twice: `pos` is the position of the next character, and `total` is what
the call returns.

A C string is the bytes of a list up to the first NUL.  An argument that is
not of the type that is asked for has no value, and a character outside of
the buffer cannot be written: such a call has no result.  The negation of the
smallest number wraps, as does a conversion to `int`.  The counters are
natural numbers, as no text has `2 ^ 64` characters.
-/

namespace Libcute.Text.Format

open Libcute.Library.ByteFile

/-- A character of the source. -/
def ascii (c : Char) : UInt8 := c.toNat.toUInt8

/-- The bytes of a C string. -/
def cString (bytes : List UInt8) : List UInt8 := bytes.takeWhile (· ≠ 0)

/-- A `size_t` converted to `int`. -/
def asInt (value : Nat) : Int :=
  let low : Nat := value % 2 ^ 32
  if low < 2 ^ 31 then low else (low : Int) - 2 ^ 32

theorem asInt_small {n : Nat} (small : n < 2 ^ 31) : asInt n = n := by
  unfold asInt
  dsimp only
  rw [Nat.mod_eq_of_lt (by omega), if_pos small]

/-! ## Numbers -/

/-- The digits that `format_number` chooses from. -/
def digits (uppercase : Bool) : List UInt8 :=
  (if uppercase then
    ['0', '1', '2', '3', '4', '5', '6', '7', '8', '9', 'A', 'B', 'C', 'D',
      'E', 'F']
  else
    ['0', '1', '2', '3', '4', '5', '6', '7', '8', '9', 'a', 'b', 'c', 'd',
      'e', 'f']).map ascii

/--
The loop that writes the digits of a number, the last one first, to an array
that has room for so many.
-/
def digitLoop (base : Nat) (uppercase : Bool) :
    Nat → Nat → Option (List UInt8)
  | _, 0 => some []
  | 0, _ + 1 => none
  | room + 1, num + 1 =>
      match (digits uppercase)[(num + 1) % base]? with
      | none => none
      | some digit =>
          (digitLoop base uppercase room ((num + 1) / base)).map (digit :: ·)

/--
`format_number`: the text that is written to the buffer and the length that
is returned.
-/
def formatNumber
    (bufsize num : Nat) (isSigned isNegative : Bool) (base : Nat)
    (uppercase : Bool) : Option (List UInt8 × Nat) :=
  if bufsize = 0 then
    some ([], 0)
  else
    let temp :=
      if num = 0 then some [ascii '0'] else digitLoop base uppercase 64 num
    temp.bind fun temp =>
      let temp := if isSigned && isNegative then temp ++ [ascii '-'] else temp
      if 64 < temp.length then
        none
      else
        some (temp.reverse.take (bufsize - 1), temp.length)

/-! ## The output -/

/--
What becomes of the characters: with a null pointer they are counted only.  A
buffer has so many bytes, or no end.
-/
inductive Target where
  | measuring
  | bounded (size : Nat)
  | unbounded
deriving DecidableEq, Repr

/-- The buffer and the two counters. -/
structure Out where
  dst : List UInt8
  pos : Nat
  total : Nat
deriving DecidableEq, Repr

/-- Write a character and advance. -/
def put (target : Target) (out : Out) (c : UInt8) : Option Out :=
  match target with
  | .measuring => some { out with pos := out.pos + 1 }
  | .unbounded => some { out with dst := out.dst ++ [c], pos := out.pos + 1 }
  | .bounded size =>
      if out.pos < size - 1 then
        if out.pos < out.dst.length then
          some { out with dst := out.dst.set out.pos c, pos := out.pos + 1 }
        else
          none
      else
        some { out with pos := out.pos + 1 }

/-- Write the characters of a list. -/
def putAll (target : Target) (out : Out) : List UInt8 → Option Out
  | [] => some out
  | c :: rest => (put target out c).bind fun out => putAll target out rest

/-- Add to the total. -/
def Out.count (out : Out) (n : Nat) : Out :=
  { out with total := out.total + n }

/-- Write a character and count it. -/
def putCounted (target : Target) (out : Out) (c : UInt8) : Option Out :=
  (put target out c).map fun out => out.count 1

/-- The loop over a string: every character is written and counted. -/
def putString (target : Target) (out : Out) : List UInt8 → Option Out
  | [] => some out
  | c :: rest =>
      (putCounted target out c).bind fun out => putString target out rest

/-- Write a number and count its length. -/
def putNumber (target : Target) (out : Out) (number : List UInt8 × Nat) :
    Option Out :=
  (putAll target out (cString number.1)).map fun out => out.count number.2

/-! ## Arguments -/

/-- An argument: the bits of a number, a string or a pointer. -/
inductive Arg where
  | word (bits : BitVec 32)
  | long (bits : BitVec 64)
  | longLong (bits : BitVec 64)
  | string (bytes : Option (List UInt8))
  | pointer (addr : BitVec 64)
deriving DecidableEq, Repr

/-- The length modifier of a specifier. -/
inductive Length where
  | int
  | long
  | longLong
deriving DecidableEq, Repr

/-- A number of which the magnitude is formatted. -/
def magnitude {w : Nat} (bits : BitVec w) : Nat × Bool :=
  if bits.slt 0 then ((-bits).toNat, true) else (bits.toNat, false)

/-- `va_arg` of a signed number. -/
def nextSigned (length : Length) (args : List Arg) :
    Option ((Nat × Bool) × List Arg) :=
  match length, args with
  | .int, .word bits :: args => some (magnitude bits, args)
  | .long, .long bits :: args => some (magnitude bits, args)
  | .longLong, .longLong bits :: args => some (magnitude bits, args)
  | _, _ => none

/-- `va_arg` of an unsigned number. -/
def nextUnsigned (length : Length) (args : List Arg) :
    Option (Nat × List Arg) :=
  match length, args with
  | .int, .word bits :: args => some (bits.toNat, args)
  | .long, .long bits :: args => some (bits.toNat, args)
  | .longLong, .longLong bits :: args => some (bits.toNat, args)
  | _, _ => none

/-! ## The format -/

/-- The length modifiers in front of a specifier, and what follows. -/
def modifiers (p : List UInt8) : Length × List UInt8 :=
  if p.headD 0 = ascii 'l' then
    if p.tail.headD 0 = ascii 'l' then
      (.longLong, p.tail.tail)
    else
      (.long, p.tail)
  else
    (.int, p)

/-- `"(null)"` -/
def nullText : List UInt8 := ['(', 'n', 'u', 'l', 'l', ')'].map ascii

/--
The branches for the character of a specifier.  It is NUL when the format
ends inside the specifier.
-/
def specifier
    (target : Target) (length : Length) (c : UInt8) (out : Out)
    (args : List Arg) : Option (Out × List Arg) :=
  if c = ascii 'd' ∨ c = ascii 'i' then
    match nextSigned length args with
    | none => none
    | some ((num, negative), args) =>
        ((formatNumber 64 num true negative 10 false).bind
          (putNumber target out)).map (·, args)
  else if c = ascii 'u' then
    match nextUnsigned length args with
    | none => none
    | some (num, args) =>
        ((formatNumber 64 num false false 10 false).bind
          (putNumber target out)).map (·, args)
  else if c = ascii 'x' ∨ c = ascii 'X' then
    match nextUnsigned length args with
    | none => none
    | some (num, args) =>
        ((formatNumber 64 num false false 16 (c = ascii 'X')).bind
          (putNumber target out)).map (·, args)
  else if c = ascii 'c' then
    match args with
    | .word bits :: args =>
        (putCounted target out (UInt8.ofNat bits.toNat)).map (·, args)
    | _ => none
  else if c = ascii 's' then
    match args with
    | .string bytes :: args =>
        (putString target out (cString (bytes.getD nullText))).map (·, args)
    | _ => none
  else if c = ascii 'p' then
    match args with
    | .pointer addr :: args =>
        (((putAll target out [ascii '0', ascii 'x']).map
          fun out => out.count 2).bind fun out =>
            (formatNumber 64 addr.toNat false false 16 false).bind
              (putNumber target out)).map (·, args)
    | _ => none
  else if c = ascii '%' then
    (putCounted target out (ascii '%')).map (·, args)
  else
    (((put target out (ascii '%')).bind fun out =>
      if c = 0 then some out else put target out c).map
        fun out => out.count 2).map (·, args)

/--
The loop over the format.  Every turn consumes a character, so there are no
more turns than the format has characters.
-/
def loop (target : Target) :
    Nat → List UInt8 → Out → List Arg → Option Out
  | 0, p, out, _ => if p.headD 0 = 0 then some out else none
  | turns + 1, p, out, args =>
      if p.headD 0 = 0 then
        some out
      else if p.headD 0 = ascii '%' then
        let (length, p) := modifiers p.tail
        match specifier target length (p.headD 0) out args with
        | none => none
        | some (out, args) =>
            loop target turns (if p.headD 0 = 0 then p else p.tail) out args
      else
        (putCounted target out (p.headD 0)).bind fun out =>
          loop target turns p.tail out args

/--
`cu_CString_vsnprintf`: what it returns, and what the memory at `dst` holds
then.
-/
def vsnprintf
    (dst : Option (List UInt8)) (size : Nat) (fmt : List UInt8)
    (args : List Arg) : Option (Int × Option (List UInt8)) :=
  match dst with
  | none =>
      (loop .measuring fmt.length fmt ⟨[], 0, 0⟩ args).map fun out =>
        (asInt out.total, none)
  | some dst =>
      if size = 0 then
        some (0, some dst)
      else
        (loop (.bounded size) fmt.length fmt ⟨dst, 0, 0⟩ args).bind fun out =>
          let idx := if out.pos < size then out.pos else size - 1
          if idx < out.dst.length then
            some (asInt out.total, some (out.dst.set idx 0))
          else
            none

/-- The text that is produced in a buffer without end. -/
def rendering (fmt : List UInt8) (args : List Arg) : Option (List UInt8) :=
  (loop .unbounded fmt.length fmt ⟨[], 0, 0⟩ args).map Out.dst

end Libcute.Text.Format
