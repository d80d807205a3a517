import Libcute.Text.Format.Calls

/-!
# Reading numbers

`cu_CString_strtoul` of `nostd.c` skips white space, takes a sign and a
prefix, and then reads digits until the next character is none.

A pointer into the text is the rest of the text from there on, and behind its
last byte there is a NUL.  An `unsigned long` has 64 bits, and the negation
of the smallest `long` wraps.
-/

namespace Libcute.Text.Strtoul

open Libcute.Core.Size
open Libcute.Text.Format

/-- `ULONG_MAX` -/
def ulongMax : Nat := sizeLimit - 1

/-- Space, tab, line feed, carriage return, form feed and vertical tab. -/
def isSpace (c : UInt8) : Bool :=
  c = ascii ' ' ∨ c = 9 ∨ c = 10 ∨ c = 13 ∨ c = 12 ∨ c = 11

/-- The value of a digit or a letter. -/
def digitValue (c : UInt8) : Option Nat :=
  if ascii '0' ≤ c ∧ c ≤ ascii '9' then
    some (c.toNat - (ascii '0').toNat)
  else if ascii 'a' ≤ c ∧ c ≤ ascii 'z' then
    some (c.toNat - (ascii 'a').toNat + 10)
  else if ascii 'A' ≤ c ∧ c ≤ ascii 'Z' then
    some (c.toNat - (ascii 'A').toNat + 10)
  else
    none

/-- The sign, and what follows. -/
def sign (s : List UInt8) : Bool × List UInt8 :=
  if s.headD 0 = ascii '+' then
    (false, s.tail)
  else if s.headD 0 = ascii '-' then
    (true, s.tail)
  else
    (false, s)

/-- The text starts with `0x` or `0X`. -/
def hexPrefix (s : List UInt8) : Bool :=
  s.headD 0 = ascii '0' ∧
    (s.tail.headD 0 = ascii 'x' ∨ s.tail.headD 0 = ascii 'X')

/-- The base, and what follows its prefix. -/
def radix (base : Int) (s : List UInt8) : Int × List UInt8 :=
  if base = 0 then
    if hexPrefix s then
      (16, s.drop 2)
    else if s.headD 0 = ascii '0' then
      (8, s.tail)
    else
      (10, s)
  else if base = 16 ∧ hexPrefix s then
    (base, s.drop 2)
  else
    (base, s)

/-- The loop that only looks for the end of the digits. -/
def skipDigits (base : Nat) : List UInt8 → List UInt8
  | [] => []
  | c :: rest =>
      if c ≠ 0 ∧ (digitValue c).any (· < base) then
        skipDigits base rest
      else
        c :: rest

/-- The loop over the digits: the number and the rest of the text. -/
def digitsLoop (base result : Nat) : List UInt8 → Nat × List UInt8
  | [] => (result, [])
  | c :: rest =>
      if c = 0 then
        (result, c :: rest)
      else
        match digitValue c with
        | none => (result, c :: rest)
        | some digit =>
            if digit ≥ base then
              (result, c :: rest)
            else if result > ulongMax / base ∨
                result = ulongMax / base ∧ digit > ulongMax % base then
              (ulongMax, skipDigits base rest)
            else
              digitsLoop base (sizeAdd (sizeMul result base) digit) rest

/-- `cu_CString_strtoul`: the number and `*endptr`. -/
def strtoul (nptr : Option (List UInt8)) (base : Int) :
    Nat × Option (List UInt8) :=
  match nptr with
  | none => (0, none)
  | some text =>
      let (neg, s) := sign (text.dropWhile isSpace)
      let (base, start) := radix base s
      if base < 2 ∨ base > 36 then
        (0, some text)
      else
        let (result, s) := digitsLoop base.toNat 0 start
        if s.length = start.length then
          (0, some text)
        else
          (if neg then sizeSub 0 result else result, some s)

/-! ## Digits -/

section Digits

variable {base num : Nat} {uppercase : Bool} {rest : List UInt8}

/-- What the reader makes of a character that the formatter writes. -/
theorem digitChar_spec {digit : Nat} (small : digit < 16) (uppercase : Bool) :
    digitValue (digitChar uppercase digit) = some digit ∧
      digitChar uppercase digit ≠ 0 ∧
      isSpace (digitChar uppercase digit) = false ∧
      digitChar uppercase digit ∉
        [ascii '+', ascii '-', ascii 'x', ascii 'X'] := by
  have all : ∀ digit : Fin 16, ∀ uppercase,
      digitValue (digitChar uppercase digit) = some digit.val ∧
        digitChar uppercase digit ≠ 0 ∧
        isSpace (digitChar uppercase digit) = false ∧
        digitChar uppercase digit ∉
          [ascii '+', ascii '-', ascii 'x', ascii 'X'] := by
    decide
  exact all ⟨digit, small⟩ uppercase

/-- The value of a sequence of digits that follows a number. -/
def value (base : Nat) (result : Nat) (digits : List Nat) : Nat :=
  digits.foldl (fun result digit => result * base + digit) result

theorem value_leading (base num : Nat) :
    value base 0 (leading base num) = num := by
  unfold value leading
  split_ifs with zero
  · rw [zero]
    exact Nat.zero_mul base
  · have same : (fun digit result => result * base + digit) =
        fun digit result : Nat => digit + base * result := by
      funext digit result
      rw [Nat.mul_comm, Nat.add_comm]
    rw [List.foldl_reverse, same]
    exact (Nat.ofDigits_eq_foldr base _).symm.trans
      (Nat.ofDigits_digits base num)

theorem le_value (two : 2 ≤ base) (result : Nat) (digits : List Nat) :
    result ≤ value base result digits := by
  induction digits generalizing result with
  | nil => exact le_rfl
  | cons digit rest induction =>
      have grows : result ≤ result * base + digit :=
        (Nat.le_mul_of_pos_right result (by omega)).trans
          (Nat.le_add_right _ _)
      exact grows.trans (induction _)

/-! ## Reading -/

/-- The test before a digit finds exactly the sums that leave 64 bits. -/
theorem overflows_iff
    (two : 2 ≤ base) {result digit : Nat} (small : digit < base) :
    (result > ulongMax / base ∨
        result = ulongMax / base ∧ digit > ulongMax % base) ↔
      ulongMax < result * base + digit := by
  have divided := Nat.div_add_mod ulongMax base
  have remainder := Nat.mod_lt ulongMax (show base > 0 by omega)
  rw [Nat.mul_comm] at divided
  constructor
  · rintro (more | ⟨same, more⟩)
    · have product : (ulongMax / base + 1) * base ≤ result * base :=
        Nat.mul_le_mul_right base more
      rw [Nat.add_mul] at product
      omega
    · rw [same]
      omega
  · intro large
    by_contra within
    rw [not_or] at within
    rcases within with ⟨fewer, last⟩
    by_cases same : result = ulongMax / base
    · rw [same] at large
      have exceeds : digit > ulongMax % base := by omega
      exact last ⟨same, exceeds⟩
    · have product : (result + 1) * base ≤ ulongMax / base * base :=
        Nat.mul_le_mul_right base (by omega)
      rw [Nat.add_mul] at product
      omega

/-- The text stops at a NUL. -/
theorem digitsLoop_eq
    (two : 2 ≤ base) (small : base ≤ 16) {digits : List Nat}
    (each : ∀ digit ∈ digits, digit < base) {result : Nat}
    (fits : value base result digits ≤ ulongMax) (rest : List UInt8) :
    digitsLoop base result (digits.map (digitChar uppercase) ++ 0 :: rest) =
      (value base result digits, 0 :: rest) := by
  induction digits generalizing result with
  | nil =>
      unfold digitsLoop
      exact if_pos rfl
  | cons digit others induction =>
      rcases List.forall_mem_cons.mp each with ⟨below, each⟩
      rcases digitChar_spec (below.trans_le small) uppercase with
        ⟨shown, filled, _⟩
      have bounded : result * base + digit ≤ ulongMax :=
        (le_value two _ others).trans fits
      have within := mt (overflows_iff two below).mp bounded.not_gt
      have exactly : sizeAdd (sizeMul result base) digit =
          result * base + digit := by
        unfold ulongMax sizeLimit at bounded
        rw [sizeMul_eq (by unfold sizeLimit; omega),
          sizeAdd_eq (by unfold sizeLimit; omega)]
      rw [List.map_cons, List.cons_append]
      unfold digitsLoop
      rw [if_neg filled, shown]
      dsimp only
      rw [if_neg (by omega), if_neg within, exactly]
      exact induction each fits

theorem numeral_spec (two : 2 ≤ base) (small : base ≤ 16) :
    ∀ c ∈ numeral base uppercase num, c ≠ 0 ∧ isSpace c = false ∧
      c ∉ [ascii '+', ascii '-', ascii 'x', ascii 'X'] := by
  intro c member
  rcases List.mem_map.mp member with ⟨digit, among, rfl⟩
  rcases digitChar_spec ((leading_lt two digit among).trans_le small)
      uppercase with ⟨_, filled, dark, plain⟩
  exact ⟨filled, dark, plain⟩

theorem numeral_cons (base num : Nat) (uppercase : Bool) :
    ∃ c others, numeral base uppercase num = c :: others := by
  apply List.exists_cons_of_ne_nil
  unfold numeral
  rw [Ne, List.map_eq_nil_iff]
  exact leading_ne_nil base num

/-- A numeral has no prefix. -/
theorem hexPrefix_numeral
    (two : 2 ≤ base) (small : base ≤ 16) (rest : List UInt8) :
    hexPrefix (numeral base uppercase num ++ 0 :: rest) = false := by
  have each := @numeral_spec base num uppercase two small
  rcases numeral_cons base num uppercase with ⟨first, others, shown⟩
  rw [shown] at each ⊢
  unfold hexPrefix
  rw [decide_eq_false_iff_not]
  rintro ⟨-, second⟩
  rw [List.cons_append, List.tail_cons] at second
  cases others with
  | nil =>
      rw [List.nil_append, List.headD_cons] at second
      exact absurd second (by decide)
  | cons c others =>
      have plain := (each c (List.mem_cons_of_mem _ List.mem_cons_self)).2.2
      simp only [List.cons_append, List.headD_cons] at second
      simp only [List.mem_cons, not_or] at plain
      rcases second with x | x
      · exact plain.2.2.1 x
      · exact plain.2.2.2.1 x

/-- What is formatted with a sign is read as the number or its negation. -/
theorem strtoul_signed
    (ten : 10 ≤ base) (small : base ≤ 16) (fits : num < sizeLimit)
    (negative : Bool) (rest : List UInt8) :
    strtoul (some (signed negative (numeral base uppercase num) ++ 0 :: rest))
        base =
      (if negative then sizeSub 0 num else num, some (0 :: rest)) := by
  have two : 2 ≤ base := by omega
  have each := @numeral_spec base num uppercase two small
  have plain := @hexPrefix_numeral base num uppercase two small rest
  have reads := @digitsLoop_eq base uppercase two small (leading base num)
    (leading_lt two) 0 (by rw [value_leading]; exact Nat.le_pred_of_lt fits)
    rest
  rw [value_leading] at reads
  change digitsLoop base 0 (numeral base uppercase num ++ 0 :: rest) = _
    at reads
  have radixes : radix base (numeral base uppercase num ++ 0 :: rest) =
      ((base : Int), numeral base uppercase num ++ 0 :: rest) := by
    unfold radix
    rw [plain, if_neg (by omega), if_neg (by simp)]
  have signs : sign ((signed negative (numeral base uppercase num) ++
      0 :: rest).dropWhile isSpace) =
        (negative, numeral base uppercase num ++ 0 :: rest) := by
    rcases numeral_cons base num uppercase with ⟨first, others, shown⟩
    rw [shown] at each ⊢
    rcases each first List.mem_cons_self with ⟨_, dark, other⟩
    simp only [List.mem_cons, not_or] at other
    unfold signed sign
    cases negative with
    | true => rfl
    | false =>
        rw [if_neg Bool.false_ne_true, List.cons_append,
          List.dropWhile_cons_of_neg (by rw [dark]; exact Bool.false_ne_true),
          List.headD_cons, if_neg other.1, if_neg other.2.1]
  have longer : (0 :: rest).length ≠
      (numeral base uppercase num ++ 0 :: rest).length := by
    rcases numeral_cons base num uppercase with ⟨first, others, shown⟩
    rw [shown, List.length_append, List.length_cons, List.length_cons]
    omega
  unfold strtoul
  dsimp only
  rw [signs]
  dsimp only
  rw [radixes]
  dsimp only
  rw [if_neg (by omega), Int.toNat_natCast, reads]
  dsimp only
  rw [if_neg longer]

end Digits

/-! ## The round trip -/

/-- The formats for one long argument: `%lu`, `%lx`, `%lX` and `%ld`. -/
inductive Form where
  | unsigned
  | lowerHex
  | upperHex
  | signed
deriving DecidableEq

/-- The conversion character. -/
def Form.letter : Form → Char
  | .unsigned => 'u'
  | .lowerHex => 'x'
  | .upperHex => 'X'
  | .signed => 'd'

/-- The format. -/
def Form.format (form : Form) : List UInt8 :=
  ['%', 'l', form.letter].map ascii

/-- The base in which the text is read. -/
def Form.base : Form → Nat
  | .unsigned => 10
  | .lowerHex => 16
  | .upperHex => 16
  | .signed => 10

/-- The text of an argument. -/
def Form.text (form : Form) (bits : BitVec 64) : List UInt8 :=
  match form with
  | .unsigned => Format.signed false (numeral 10 false bits.toNat)
  | .lowerHex => Format.signed false (numeral 16 false bits.toNat)
  | .upperHex => Format.signed false (numeral 16 true bits.toNat)
  | .signed =>
      Format.signed (magnitude bits).2 (numeral 10 false (magnitude bits).1)

theorem putNumber_eq
    {base num : Nat} (ten : 10 ≤ base) (small : base ≤ 16)
    (fits : num < sizeLimit) (isSigned isNegative uppercase : Bool)
    (target : Target) (out : Out) :
    ((formatNumber 64 num isSigned isNegative base uppercase).bind
        (putNumber target out)) =
      emit target out
        (Format.signed (isSigned && isNegative) (numeral base uppercase num))
        (Format.signed (isSigned && isNegative)
          (numeral base uppercase num)).length := by
  rw [formatNumber_eq ten small fits]
  dsimp only [Option.bind_some]
  unfold putNumber emit
  dsimp only
  rw [cString_of_nonzero
    (signed_nonzero (numeral_nonzero (by omega) small) _)]

/-- The specifier emits the text of its argument. -/
theorem Form.specifier_eq
    (form : Form) (bits : BitVec 64) (target : Target) (out : Out) :
    specifier target .long (ascii form.letter) out [.long bits] =
      (emit target out (form.text bits) (form.text bits).length).map
        (·, []) := by
  have fits : bits.toNat < sizeLimit := bits.isLt
  have magnitudeFits : (magnitude bits).1 < sizeLimit :=
    magnitude_lt bits (le_refl 64)
  unfold specifier Form.text
  cases form with
  | unsigned =>
      rw [if_neg (by decide), if_pos (by decide)]
      dsimp only [nextUnsigned]
      rw [putNumber_eq (le_refl 10) (by decide) fits]
      rfl
  | lowerHex =>
      rw [if_neg (by decide), if_neg (by decide), if_pos (by decide)]
      dsimp only [nextUnsigned]
      rw [putNumber_eq (by decide) (le_refl 16) fits]
      rfl
  | upperHex =>
      rw [if_neg (by decide), if_neg (by decide), if_pos (by decide)]
      dsimp only [nextUnsigned]
      rw [putNumber_eq (by decide) (le_refl 16) fits]
      rfl
  | signed =>
      rw [if_pos (by decide)]
      dsimp only [nextSigned]
      rw [putNumber_eq (le_refl 10) (by decide) magnitudeFits]
      rfl

theorem Form.loop_eq
    (form : Form) (bits : BitVec 64) (target : Target) (out : Out) :
    loop target form.format.length form.format out [.long bits] =
      emit target out (form.text bits)
        (counted form.format (form.text bits)) := by
  have filled : form.format.headD 0 ≠ 0 := by
    cases form <;> decide
  have percent : form.format.headD 0 = ascii '%' := by
    cases form <;> rfl
  have shown : modifiers form.format.tail =
      (.long, [ascii form.letter]) := by
    cases form <;> rfl
  have follows : ∀ out, loop target 2
      (if [ascii form.letter].headD 0 = 0 then [ascii form.letter]
        else [ascii form.letter].tail) out [] = emit target out [] 0 := by
    cases form <;> exact fun _ => rfl
  have finished : counted form.format (form.text bits) =
      (form.text bits).length := by
    unfold counted
    rw [if_neg (by cases form <;> decide), Nat.add_zero]
  have looped := loop_specifier filled percent shown
    (form.specifier_eq bits target out) follows
  rw [List.append_nil, Nat.add_zero] at looped
  rw [finished]
  exact looped

/-- The sign is taken back, also from the smallest number. -/
theorem magnitude_value (bits : BitVec 64) :
    (if (magnitude bits).2 then sizeSub 0 (magnitude bits).1
      else (magnitude bits).1) = bits.toNat := by
  have fits := bits.isLt
  unfold magnitude
  by_cases negative : bits.slt 0 = true
  · have positive : bits.toNat ≠ 0 := by
      intro zero
      have none : bits = 0#64 := BitVec.eq_of_toNat_eq zero
      rw [none] at negative
      exact absurd negative (by decide)
    rw [if_pos negative]
    dsimp only
    rw [if_pos rfl]
    unfold sizeSub sizeLimit
    rw [BitVec.toNat_neg]
    omega
  · rw [if_neg negative]
    exact if_neg Bool.false_ne_true

/-- The text is read as the bits of the argument. -/
theorem Form.strtoul_text
    (form : Form) (bits : BitVec 64) (rest : List UInt8) :
    strtoul (some (form.text bits ++ 0 :: rest)) form.base =
      (bits.toNat, some (0 :: rest)) := by
  have fits : bits.toNat < sizeLimit := bits.isLt
  unfold Form.text Form.base
  cases form with
  | unsigned => exact strtoul_signed (le_refl 10) (by decide) fits false rest
  | lowerHex => exact strtoul_signed (by decide) (le_refl 16) fits false rest
  | upperHex => exact strtoul_signed (by decide) (le_refl 16) fits false rest
  | signed =>
      dsimp only
      rw [strtoul_signed (le_refl 10) (by decide)
        (magnitude_lt bits (le_refl 64))]
      rw [magnitude_value]

theorem Form.text_nonzero (form : Form) (bits : BitVec 64) :
    ∀ c ∈ form.text bits, c ≠ 0 := by
  unfold Form.text
  cases form <;>
    exact signed_nonzero (numeral_nonzero (by decide) (by decide)) _

theorem Form.text_length (form : Form) (bits : BitVec 64) :
    (form.text bits).length ≤ 21 := by
  have bounds (base num : Nat) (uppercase negative : Bool) (ten : 10 ≤ base)
      (fits : num < sizeLimit) :
      (Format.signed negative (numeral base uppercase num)).length ≤ 21 := by
    have short := leading_length ten fits
    have counted : (numeral base uppercase num).length =
        (leading base num).length := List.length_map _
    unfold Format.signed
    split_ifs
    · rw [List.length_cons]
      omega
    · omega
  unfold Form.text
  cases form with
  | unsigned => exact bounds _ _ _ _ (by decide) bits.isLt
  | lowerHex => exact bounds _ _ _ _ (by decide) bits.isLt
  | upperHex => exact bounds _ _ _ _ (by decide) bits.isLt
  | signed => exact bounds _ _ _ _ (by decide) (magnitude_lt bits le_rfl)

/--
The main result: for every number and every buffer with room for its text,
reading the text in the base of the format gives the number back, and
`*endptr` is the NUL at the end of the text.
-/
theorem strtoul_vsnprintf (form : Form) (bits : BitVec 64) :
    ∃ text, rendering form.format [.long bits] = some text ∧
      (∀ c ∈ text, c ≠ 0) ∧
      ∀ dst size, text.length < size → size ≤ dst.length →
        ∃ dst', vsnprintf (some dst) size form.format [.long bits] =
            some ((text.length : Int), some dst') ∧
          dst'.take text.length = text ∧ dst'[text.length]? = some 0 ∧
          strtoul (some dst') form.base =
            (bits.toNat, some (dst'.drop text.length)) := by
  have loops := form.loop_eq bits
  have short := form.text_length bits
  have whole : counted form.format (form.text bits) =
      (form.text bits).length := by
    unfold counted
    rw [if_neg (by cases form <;> decide), Nat.add_zero]
  refine ⟨form.text bits, ?_, form.text_nonzero bits, ?_⟩
  · unfold rendering
    rw [loops]
    unfold emit
    rw [putAll_unbounded]
    rfl
  · intro dst size room within
    have writes := @vsnprintf_bounded _ _ _ loops dst size (by omega)
      (by omega)
    rw [whole, asInt_small (by omega), List.take_of_length_le (by omega)] at writes
    refine ⟨_, writes, ?_, ?_, ?_⟩
    · exact List.take_left
    · rw [List.getElem?_append_right le_rfl, Nat.sub_self]
      rfl
    · rw [form.strtoul_text, List.drop_left]

/-- The smallest `long` is read as `2 ^ 63`. -/
theorem strtoul_vsnprintf_smallest :
    ∃ dst', vsnprintf (some (List.replicate 32 1)) 32 Form.signed.format
        [.long (BitVec.intMin 64)] = some (20, some dst') ∧
      strtoul (some dst') 10 = (2 ^ 63, some (dst'.drop 20)) := by
  rcases strtoul_vsnprintf .signed (BitVec.intMin 64) with
    ⟨text, renders, _, reads⟩
  have shown : rendering Form.signed.format [.long (BitVec.intMin 64)] =
      some (['-', '9', '2', '2', '3', '3', '7', '2', '0', '3', '6', '8', '5',
        '4', '7', '7', '5', '8', '0', '8'].map ascii) := by
    decide +kernel
  rw [shown] at renders
  cases renders
  rcases reads (List.replicate 32 1) 32 (by decide) (by decide) with
    ⟨dst', writes, _, _, parses⟩
  exact ⟨dst', writes, parses⟩

end Libcute.Text.Strtoul
