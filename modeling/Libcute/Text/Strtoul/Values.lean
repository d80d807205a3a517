import Libcute.Text.Strtoul

/-!
# The numbers that are read

`cu_CString_strtoul` over texts of every length: the number before and after
it leaves 64 bits, with each sign.  `digitsLoop_run` is the lemma about both
loops; the rest of the module says what stands in front of the digits.
-/

namespace Libcute.Text.Strtoul

open Libcute.Core.Size
open Libcute.Text.Format

/-- The character is a digit of the base. -/
def isDigit (base : Nat) (c : UInt8) : Bool := (digitValue c).any (· < base)

/-- The exact value of a run of digits. -/
def runValue (base : Nat) (run : List UInt8) : Nat :=
  value base 0 (run.map fun c => (digitValue c).getD 0)

/-- The text does not start with a digit of the base. -/
def Stops (base : Nat) (rest : List UInt8) : Prop :=
  ∀ c ∈ rest.head?, isDigit base c = false

/-- A run of one or more digits of the base. -/
structure Run (base : Nat) (run : List UInt8) : Prop where
  filled : run ≠ []
  digits : ∀ c ∈ run, isDigit base c = true

/-- White space. -/
def Blank (spaces : List UInt8) : Prop := ∀ c ∈ spaces, isSpace c = true

variable {base result : Nat} {c : UInt8}
  {text spaces signs number run rest : List UInt8}

/-! ## Characters -/

/-- A digit is no NUL, no space and no sign. -/
theorem isDigit_spec (digit : isDigit base c = true) :
    c ≠ 0 ∧ isSpace c = false ∧ c ≠ ascii '+' ∧ c ≠ ascii '-' := by
  have shown : (digitValue c).isSome = true := by
    unfold isDigit at digit
    cases reads : digitValue c with
    | none =>
        rw [reads] at digit
        cases digit
    | some _ => rfl
  refine ⟨?_, ?_, ?_, ?_⟩
  · rintro rfl
    exact absurd shown (by decide)
  · by_contra space
    rw [Bool.not_eq_false] at space
    unfold isSpace at space
    rw [decide_eq_true_iff] at space
    rcases space with rfl | rfl | rfl | rfl | rfl | rfl <;>
      exact absurd shown (by decide)
  · rintro rfl
    exact absurd shown (by decide)
  · rintro rfl
    exact absurd shown (by decide)

theorem isDigit_mono {larger : Nat} (le : base ≤ larger)
    (digit : isDigit base c = true) : isDigit larger c = true := by
  unfold isDigit at digit ⊢
  cases reads : digitValue c with
  | none =>
      rw [reads] at digit
      cases digit
  | some value =>
      rw [reads] at digit
      simp only [Option.any_some, decide_eq_true_eq] at digit ⊢
      omega

theorem isDigit_zero (two : 2 ≤ base) : isDigit base (ascii '0') = true :=
  isDigit_mono two (by decide)

/-- A sign is no space. -/
theorem isSpace_sign : isSpace (ascii '+') = false ∧
    isSpace (ascii '-') = false := by
  decide

/-! ## The loops -/

theorem skipDigits_eq (base : Nat) (text : List UInt8) :
    skipDigits base text = text.dropWhile (isDigit base) := by
  induction text with
  | nil => rfl
  | cons c rest induction =>
      unfold skipDigits
      cases digit : isDigit base c with
      | true =>
          rw [if_pos ⟨(isDigit_spec digit).1, digit⟩, induction,
            List.dropWhile_cons_of_pos digit]
      | false =>
          rw [List.dropWhile_cons_of_neg (by rw [digit]; decide), if_neg]
          rintro ⟨-, among⟩
          change isDigit base c = true at among
          rw [digit] at among
          cases among

/-- A run of digits ends where the rest stops. -/
theorem dropWhile_run (digits : ∀ c ∈ run, isDigit base c = true)
    (stops : Stops base rest) :
    (run ++ rest).dropWhile (isDigit base) = rest := by
  rw [List.dropWhile_append_of_pos digits]
  cases rest with
  | nil => rfl
  | cons c rest =>
      have other := stops c rfl
      exact List.dropWhile_cons_of_neg (by rw [other]; decide)

theorem digitsLoop_stops (stops : Stops base rest) :
    digitsLoop base result rest = (result, rest) := by
  cases rest with
  | nil => rfl
  | cons c rest =>
      have other := stops c rfl
      unfold digitsLoop
      by_cases ends : c = 0
      · exact if_pos ends
      · rw [if_neg ends]
        unfold isDigit at other
        cases reads : digitValue c with
        | none => rfl
        | some digit =>
            rw [reads] at other
            simp only [Option.any_some, decide_eq_false_iff_not] at other
            dsimp only
            rw [if_pos (by omega)]

/--
The loops read the whole run, and the number is the smaller one of its exact
value and `ULONG_MAX`.
-/
theorem digitsLoop_run
    (two : 2 ≤ base) (digits : ∀ c ∈ run, isDigit base c = true)
    (stops : Stops base rest) (fits : result ≤ ulongMax) :
    digitsLoop base result (run ++ rest) =
      (min (value base result (run.map fun c => (digitValue c).getD 0))
        ulongMax, rest) := by
  induction run generalizing result with
  | nil =>
      rw [List.nil_append, digitsLoop_stops stops]
      exact Prod.ext (Nat.min_eq_left fits).symm rfl
  | cons c others induction =>
      rcases List.forall_mem_cons.mp digits with ⟨first, digits⟩
      have filled := (isDigit_spec first).1
      have shown : ∃ digit, digitValue c = some digit ∧ digit < base := by
        unfold isDigit at first
        cases reads : digitValue c with
        | none =>
            rw [reads] at first
            cases first
        | some digit =>
            rw [reads] at first
            exact ⟨digit, rfl, of_decide_eq_true first⟩
      rcases shown with ⟨digit, reads, small⟩
      rw [List.cons_append, List.map_cons, reads, Option.getD_some]
      unfold digitsLoop
      rw [if_neg filled, reads]
      dsimp only
      rw [if_neg (by omega)]
      by_cases large : ulongMax < result * base + digit
      · have grows := le_value two (result * base + digit)
          (others.map fun c => (digitValue c).getD 0)
        rw [if_pos ((overflows_iff two small).mpr large), skipDigits_eq,
          dropWhile_run digits stops]
        refine Prod.ext (Nat.min_eq_right ?_).symm rfl
        exact large.le.trans grows
      · have bounded : result * base + digit < sizeLimit := by
          unfold ulongMax at large
          unfold sizeLimit at large ⊢
          omega
        rw [if_neg (mt (overflows_iff two small).mp large),
          sizeMul_eq (by omega), sizeAdd_eq bounded]
        exact induction digits (by omega)

/-! ## White space and signs -/

/-- The head of the text is none of the characters in front of a number. -/
def Plain (text : List UInt8) : Prop :=
  ∀ c ∈ text.head?, isSpace c = false ∧ c ≠ ascii '+' ∧ c ≠ ascii '-'

theorem Run.plain (digits : Run base run) (rest : List UInt8) :
    Plain (run ++ rest) := by
  intro c head
  cases run with
  | nil => exact absurd rfl digits.filled
  | cons first others =>
      cases head
      exact (isDigit_spec (digits.digits c List.mem_cons_self)).2

theorem dropWhile_blank (blank : Blank spaces)
    (dark : ∀ c ∈ text.head?, isSpace c = false) :
    (spaces ++ text).dropWhile isSpace = text := by
  rw [List.dropWhile_append_of_pos blank]
  cases text with
  | nil => rfl
  | cons c rest =>
      exact List.dropWhile_cons_of_neg (by rw [dark c rfl]; decide)

/-- The sign of a number: there may be none. -/
inductive Sign : List UInt8 → Bool → Prop where
  | none : Sign [] false
  | plus : Sign [ascii '+'] false
  | minus : Sign [ascii '-'] true

/-- The reader finds the sign behind the white space. -/
theorem sign_eq {negative : Bool} (blank : Blank spaces)
    (signed : Sign signs negative)
    (plain : signs = [] → Plain text) :
    sign ((spaces ++ (signs ++ text)).dropWhile isSpace) =
      (negative, text) := by
  cases signed with
  | none =>
      have plain := plain rfl
      rw [List.nil_append,
        dropWhile_blank blank fun c head => (plain c head).1]
      unfold sign
      cases text with
      | nil => rfl
      | cons c rest =>
          rcases plain c rfl with ⟨-, plus, minus⟩
          rw [List.headD_cons, if_neg plus, if_neg minus]
  | plus =>
      rw [dropWhile_blank blank]
      · rfl
      · intro c head
        cases head
        exact isSpace_sign.1
  | minus =>
      rw [dropWhile_blank blank]
      · rfl
      · intro c head
        cases head
        exact isSpace_sign.2

/-! ## Whole texts -/

/-- What is read behind the white space, the sign and the prefix. -/
theorem strtoul_run
    {wanted : Int} {negative : Bool}
    (two : 2 ≤ base) (small : base ≤ 36)
    (signed : sign (text.dropWhile isSpace) = (negative, number))
    (radixes : radix wanted number = ((base : Int), run ++ rest))
    (digits : Run base run) (stops : Stops base rest) :
    strtoul (some text) wanted =
      (if negative then sizeSub 0 (min (runValue base run) ulongMax)
        else min (runValue base run) ulongMax, some rest) := by
  have looped := digitsLoop_run two digits.digits stops (Nat.zero_le ulongMax)
  have longer : rest.length ≠ (run ++ rest).length := by
    have positive := List.length_pos_iff.mpr digits.filled
    rw [List.length_append]
    omega
  unfold strtoul
  dsimp only
  rw [signed]
  dsimp only
  rw [radixes]
  dsimp only
  rw [if_neg (by omega), Int.toNat_natCast, looped]
  dsimp only
  rw [if_neg longer]
  rfl

/-- Without a digit nothing is read. -/
theorem strtoul_nothing
    {wanted : Int} {negative : Bool}
    (two : 2 ≤ base) (small : base ≤ 36)
    (signed : sign (text.dropWhile isSpace) = (negative, number))
    (radixes : radix wanted number = ((base : Int), rest))
    (stops : Stops base rest) :
    strtoul (some text) wanted = (0, some text) := by
  unfold strtoul
  dsimp only
  rw [signed]
  dsimp only
  rw [radixes]
  dsimp only
  rw [if_neg (by omega), Int.toNat_natCast, digitsLoop_stops stops]
  dsimp only
  rw [if_pos rfl]

/-- A base that is given stays, unless a prefix stands there. -/
theorem radix_eq (two : 2 ≤ base)
    (bare : base = 16 → hexPrefix text = false) :
    radix base text = ((base : Int), text) := by
  unfold radix
  rw [if_neg (by omega), if_neg]
  rintro ⟨sixteen, shown⟩
  rw [bare (by omega)] at shown
  cases shown

/-- A text that does not start with a digit has no prefix. -/
theorem hexPrefix_stops (two : 2 ≤ base) (stops : Stops base text) :
    hexPrefix text = false := by
  unfold hexPrefix
  rw [decide_eq_false_iff_not]
  rintro ⟨zero, -⟩
  cases text with
  | nil => exact absurd zero (by decide)
  | cons c rest =>
      rw [List.headD_cons] at zero
      have other := stops c rfl
      rw [zero, isDigit_zero two] at other
      cases other

/--
The main result for positive numbers: for every base and every text, the
number is the exact value of the digits or `ULONG_MAX`, and `*endptr` is the
character behind them; without digits nothing is read.
-/
theorem strtoul_saturates (two : 2 ≤ base) (small : base ≤ 36) :
    (∀ spaces signs run rest, Blank spaces → Sign signs false →
      Run base run → Stops base rest →
      (base = 16 → hexPrefix (run ++ rest) = false) →
      strtoul (some (spaces ++ (signs ++ (run ++ rest)))) base =
        (min (runValue base run) ulongMax, some rest)) ∧
    ∀ spaces signs negative rest, Blank spaces → Sign signs negative →
      (signs = [] → Plain rest) → Stops base rest →
      strtoul (some (spaces ++ (signs ++ rest))) base =
        (0, some (spaces ++ (signs ++ rest))) := by
  constructor
  · intro spaces signs run rest blank signed digits stops bare
    exact strtoul_run two small
      (sign_eq blank signed fun _ => digits.plain rest)
      (radix_eq two bare) digits stops
  · intro spaces signs negative rest blank signed plain stops
    exact strtoul_nothing two small (sign_eq blank signed plain)
      (radix_eq two fun _ => hexPrefix_stops two stops) stops

/-- The text `" +18446744073709551616z"`. -/
def justTooLarge : List UInt8 :=
  (" +18446744073709551616z".toList).map ascii

/-- The smallest number that is too large, and a text without digits. -/
theorem strtoul_saturates_justTooLarge :
    strtoul (some justTooLarge) (10 : Nat) =
        (ulongMax, some [ascii 'z']) ∧
      strtoul (some [ascii '-', ascii 'z']) (10 : Nat) =
        (0, some [ascii '-', ascii 'z']) := by
  have both := @strtoul_saturates 10 (by decide) (by decide)
  constructor
  · have reads := both.1 [ascii ' '] [ascii '+']
      (("18446744073709551616".toList).map ascii) [ascii 'z']
      (List.all_eq_true.mp (by decide)) .plus
      ⟨by decide, List.all_eq_true.mp (by decide)⟩
      (by rintro c ⟨⟩; decide) (by decide)
    have large : min (runValue 10
        (("18446744073709551616".toList).map ascii)) ulongMax = ulongMax := by
      decide +kernel
    rw [large] at reads
    exact reads
  · exact both.2 [] [ascii '-'] true [ascii 'z']
      (List.all_eq_true.mp (by decide)) .minus (fun absent => nomatch absent)
      (by rintro c ⟨⟩; decide)

/-! ## Negative numbers -/

/--
What may stand between the sign and the digits: in base 16 a prefix that
digits follow.
-/
inductive Prefix (base : Nat) (digits : List UInt8) : List UInt8 → Prop where
  | none
      (bare : base = 16 → hexPrefix digits = true →
        Stops 16 (digits.drop 2)) :
      Prefix base digits []
  | hex {x : UInt8} (sixteen : base = 16)
      (letter : x = ascii 'x' ∨ x = ascii 'X') :
      Prefix base digits [ascii '0', x]

/-- The number that C prescribes for a minus sign and digits of this value. -/
def negated (m : Nat) : Nat :=
  if m ≤ ulongMax then (sizeLimit - m) % sizeLimit else ulongMax

theorem sizeSub_zero (fits : result ≤ ulongMax) :
    sizeSub 0 result = (sizeLimit - result) % sizeLimit := by
  unfold ulongMax at fits
  unfold sizeSub
  unfold sizeLimit at fits ⊢
  omega

/-- The digits of a number that starts like a prefix are a single zero. -/
theorem run_of_hexPrefix
    (digits : Run 16 run)
    (shown : hexPrefix (run ++ rest) = true) : runValue 16 run = 0 := by
  unfold hexPrefix at shown
  rw [decide_eq_true_iff] at shown
  rcases shown with ⟨zero, letter⟩
  cases run with
  | nil => exact absurd rfl digits.filled
  | cons first others =>
      rw [List.cons_append, List.headD_cons] at zero
      subst zero
      cases others with
      | nil => decide
      | cons second others =>
          have digit := digits.digits second (by simp)
          simp only [List.cons_append, List.tail_cons,
            List.headD_cons] at letter
          rcases letter with rfl | rfl <;> exact absurd digit (by decide)

theorem strtoul_negative
    (two : 2 ≤ base) (small : base ≤ 36) (blank : Blank spaces)
    {front : List UInt8} (prefixed : Prefix base (run ++ rest) front)
    (digits : Run base run) (stops : Stops base rest) :
    (strtoul (some (spaces ++ ([ascii '-'] ++ (front ++ (run ++ rest)))))
      base).1 = sizeSub 0 (min (runValue base run) ulongMax) := by
  have signed := @sign_eq (front ++ (run ++ rest)) spaces _ true blank .minus
    (fun absent => nomatch absent)
  cases prefixed with
  | none bare =>
      rw [List.nil_append] at signed ⊢
      cases shown : hexPrefix (run ++ rest) with
      | false =>
          rw [strtoul_run two small signed (radix_eq two fun _ => shown)
            digits stops]
          rfl
      | true =>
          by_cases sixteen : base = 16
          · subst sixteen
            have radixes : radix (16 : Nat) (run ++ rest) =
                (((16 : Nat) : Int), (run ++ rest).drop 2) := by
              unfold radix
              rw [if_neg (by decide), if_pos ⟨rfl, shown⟩]
            rw [strtoul_nothing two small signed radixes (bare rfl shown),
              run_of_hexPrefix digits shown]
            exact (by decide : (0 : Nat) = sizeSub 0 (min 0 ulongMax))
          · rw [strtoul_run two small signed
              (radix_eq two fun same => absurd same sixteen) digits stops]
            rfl
  | @hex x sixteen letter =>
      subst sixteen
      have radixes : radix (16 : Nat) ([ascii '0', x] ++ (run ++ rest)) =
          (((16 : Nat) : Int), run ++ rest) := by
        unfold radix
        rw [if_neg (by decide), if_pos]
        · rfl
        · refine ⟨rfl, ?_⟩
          unfold hexPrefix
          rw [decide_eq_true_iff]
          exact ⟨rfl, letter⟩
      rw [strtoul_run two small signed radixes digits stops]
      rfl

/--
The main result for negative numbers: for every base and every run of digits,
the number is the one that C prescribes exactly when the value of the digits
is at most `ULONG_MAX`.
-/
theorem strtoul_negated_iff
    (two : 2 ≤ base) (small : base ≤ 36) (blank : Blank spaces)
    {front : List UInt8} (prefixed : Prefix base (run ++ rest) front)
    (digits : Run base run) (stops : Stops base rest) :
    (strtoul (some (spaces ++ ([ascii '-'] ++ (front ++ (run ++ rest)))))
        base).1 = negated (runValue base run) ↔
      runValue base run ≤ ulongMax := by
  rw [strtoul_negative two small blank prefixed digits stops,
    sizeSub_zero (Nat.min_le_right _ _)]
  unfold negated
  by_cases fits : runValue base run ≤ ulongMax
  · rw [if_pos fits, Nat.min_eq_left fits]
    exact ⟨fun _ => fits, fun _ => rfl⟩
  · rw [if_neg fits, Nat.min_eq_right (by omega)]
    exact ⟨fun same => absurd same (by decide), fun within =>
      absurd within fits⟩

/-- The number behind the minus sign of `"-0x1f"`. -/
theorem strtoul_negated_iff_hex :
    (strtoul (some (['-', '0', 'x', '1', 'f'].map ascii)) (16 : Nat)).1 =
      negated 31 := by
  have reads := (@strtoul_negated_iff 16 [] [ascii '1', ascii 'f'] []
    (by decide) (by decide) (List.all_eq_true.mp (by decide))
    [ascii '0', ascii 'x'] (.hex rfl (.inl rfl))
    ⟨by decide, List.all_eq_true.mp (by decide)⟩
    (fun c absent => nomatch absent)).mpr (by decide)
  exact reads

/-- The smallest value that is too large is reported as 1. -/
theorem strtoul_negated_one :
    runValue 10 (("18446744073709551616".toList).map ascii) = 2 ^ 64 ∧
      (strtoul (some (("-18446744073709551616".toList).map ascii)) 10).1 = 1 ∧
      negated (2 ^ 64) ≠ 1 := by
  decide +kernel

end Libcute.Text.Strtoul
