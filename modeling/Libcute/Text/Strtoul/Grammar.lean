import Libcute.Library.LongestPrefix
import Libcute.Text.Strtoul.Values

/-!
# The texts that are read

The C grammar of the numbers that `strtoul` accepts, and how far
`cu_CString_strtoul` follows it.  The prefix of a number is taken before the
code looks for digits; `Cut` says when none follow.
-/

namespace Libcute.Text.Strtoul

open Libcute.Library.LongestPrefix
open Libcute.Text.Format

variable {base : Nat} {text spaces signs number run rest : List UInt8}

/-- A number in a base, or in the base that its prefix shows. -/
inductive Number : Nat → List UInt8 → Prop where
  | digits {base : Nat} {run : List UInt8} (given : base ≠ 0)
      (digits : Run base run) : Number base run
  | hex {base : Nat} {x : UInt8} {run : List UInt8}
      (wanted : base = 0 ∨ base = 16)
      (letter : x = ascii 'x' ∨ x = ascii 'X') (digits : Run 16 run) :
      Number base (ascii '0' :: x :: run)
  | octal {run : List UInt8} (digits : ∀ c ∈ run, isDigit 8 c = true) :
      Number 0 (ascii '0' :: run)
  | decimal {run : List UInt8} (digits : Run 10 run)
      (other : run.head? ≠ some (ascii '0')) : Number 0 run

/-- White space, an optional sign and a number. -/
inductive Subject (base : Nat) : List UInt8 → Prop where
  | made {spaces signs number : List UInt8} {negative : Bool}
      (blank : Blank spaces) (signed : Sign signs negative)
      (reads : Number base number) :
      Subject base (spaces ++ (signs ++ number))

/-- A prefix of a number behind which there is no digit of its base. -/
inductive Cut (base : Nat) (number : List UInt8) : Prop where
  | hex (wanted : base = 0 ∨ base = 16) (shown : hexPrefix number = true)
      (stops : Stops 16 (number.drop 2))
  | octal (wanted : base = 0) (shown : number.head? = some (ascii '0'))
      (bare : hexPrefix number = false) (stops : Stops 8 number.tail)

/-- The text behind the white space and the sign. -/
def numberOf (text : List UInt8) : List UInt8 :=
  (sign (text.dropWhile isSpace)).2

/-! ## In front of the number -/

theorem Number.head (valid : base ≤ 36) (reads : Number base number) :
    ∃ c others, number = c :: others ∧ isDigit 36 c = true := by
  have first (base : Nat) (small : base ≤ 36) (run : List UInt8)
      (digits : Run base run) :
      ∃ c others, run = c :: others ∧ isDigit 36 c = true := by
    cases run with
    | nil => exact absurd rfl digits.filled
    | cons c others =>
        exact ⟨c, others, rfl,
          isDigit_mono small (digits.digits c List.mem_cons_self)⟩
  cases reads with
  | digits given digits => exact first base valid number digits
  | hex wanted letter digits => exact ⟨_, _, rfl, by decide⟩
  | octal digits => exact ⟨_, _, rfl, by decide⟩
  | decimal digits other => exact first 10 (by decide) number digits

theorem Number.plain (valid : base ≤ 36) (reads : Number base number)
    (rest : List UInt8) : Plain (number ++ rest) := by
  rcases reads.head valid with ⟨c, others, rfl, digit⟩
  intro _ head
  cases head
  exact (isDigit_spec digit).2

/-- The text is white space, a sign and the rest. -/
theorem numberOf_spec (text : List UInt8) :
    ∃ spaces signs negative, Blank spaces ∧ Sign signs negative ∧
      text = (spaces ++ signs) ++ numberOf text ∧
      sign (text.dropWhile isSpace) = (negative, numberOf text) := by
  have blank : Blank (text.takeWhile isSpace) := by
    have all := @List.all_takeWhile _ isSpace text
    rw [List.all_eq_true] at all
    exact all
  have split := (@List.takeWhile_append_dropWhile _ isSpace text).symm
  unfold numberOf
  generalize text.dropWhile isSpace = behind at split
  unfold sign
  split_ifs with plus minus
  · cases behind with
    | nil => exact absurd plus (by decide)
    | cons c rest =>
        rw [List.headD_cons] at plus
        subst plus
        refine ⟨_, _, _, blank, .plus, ?_, rfl⟩
        rw [List.append_assoc]
        exact split
  · cases behind with
    | nil => exact absurd minus (by decide)
    | cons c rest =>
        rw [List.headD_cons] at minus
        subst minus
        refine ⟨_, _, _, blank, .minus, ?_, rfl⟩
        rw [List.append_assoc]
        exact split
  · refine ⟨_, _, _, blank, .none, ?_, rfl⟩
    rw [List.append_nil]
    exact split

/-- Every accepted prefix of a text has the same front. -/
theorem subject_splits
    (valid : base ≤ 36) {front word : List UInt8}
    (whole : text = front ++ numberOf text) (subject : Subject base word)
    (before : word <+: text) :
    ∃ number, Number base number ∧ word = front ++ number := by
  rcases subject with ⟨blank, signed, reads⟩
  rename_i spaces signs number negative
  rcases before with ⟨rest, joined⟩
  have found := @sign_eq (number ++ rest) spaces signs negative blank signed
    fun _ => reads.plain valid rest
  have same : text = spaces ++ (signs ++ (number ++ rest)) := by
    rw [← joined, List.append_assoc, List.append_assoc]
  have behind : numberOf text = number ++ rest := by
    unfold numberOf
    rw [same, found]
  refine ⟨number, reads, ?_⟩
  rw [behind] at whole
  have fronts : front ++ (number ++ rest) =
      (spaces ++ signs) ++ (number ++ rest) := by
    rw [← whole, List.append_assoc]
    exact same
  rw [List.append_cancel_right fronts, List.append_assoc]

/-! ## The base and the digits -/

theorem hexPrefix_iff :
    hexPrefix number = true ↔ ∃ x start, (x = ascii 'x' ∨ x = ascii 'X') ∧
      number = ascii '0' :: x :: start := by
  constructor
  · intro shown
    unfold hexPrefix at shown
    rw [decide_eq_true_iff] at shown
    rcases shown with ⟨zero, letter⟩
    cases number with
    | nil => exact absurd zero (by decide)
    | cons first behind =>
        rw [List.headD_cons] at zero
        rw [List.tail_cons] at letter
        cases behind with
        | nil => exact absurd letter (by decide)
        | cons x start =>
            rw [List.headD_cons] at letter
            exact ⟨x, start, letter, by rw [zero]⟩
  · rintro ⟨x, start, letter, rfl⟩
    unfold hexPrefix
    rw [decide_eq_true_iff]
    exact ⟨rfl, letter⟩

/-- Where the digits start, and in which base. -/
inductive Starts (base : Nat) (number : List UInt8) :
    Nat → List UInt8 → Prop where
  | hex {x : UInt8} {start : List UInt8} (wanted : base = 0 ∨ base = 16)
      (letter : x = ascii 'x' ∨ x = ascii 'X')
      (split : number = ascii '0' :: x :: start) :
      Starts base number 16 start
  | octal {start : List UInt8} (wanted : base = 0)
      (split : number = ascii '0' :: start)
      (bare : hexPrefix number = false) : Starts base number 8 start
  | decimal (wanted : base = 0) (other : number.head? ≠ some (ascii '0')) :
      Starts base number 10 number
  | given (wanted : base ≠ 0)
      (bare : base = 16 → hexPrefix number = false) :
      Starts base number base number

theorem radix_starts (base : Nat) (number : List UInt8) :
    ∃ (found : Nat) (start : List UInt8),
      radix base number = ((found : Int), start) ∧
      Starts base number found start := by
  unfold radix
  by_cases zero : base = 0
  · subst zero
    rw [if_pos (by decide)]
    cases shown : hexPrefix number with
    | true =>
        rcases hexPrefix_iff.mp shown with ⟨x, start, letter, rfl⟩
        exact ⟨16, start, rfl, .hex (.inl rfl) letter rfl⟩
    | false =>
        rw [if_neg Bool.false_ne_true]
        cases number with
        | nil => exact ⟨10, [], rfl, .decimal rfl (by decide)⟩
        | cons c start =>
            rw [List.headD_cons]
            by_cases octal : c = ascii '0'
            · subst octal
              rw [if_pos rfl]
              exact ⟨8, start, rfl, .octal rfl rfl shown⟩
            · rw [if_neg octal]
              refine ⟨10, _, rfl, .decimal rfl ?_⟩
              rw [List.head?_cons]
              simpa using octal
  · rw [if_neg (by omega)]
    by_cases sixteen : base = 16
    · subst sixteen
      cases shown : hexPrefix number with
      | true =>
          rcases hexPrefix_iff.mp shown with ⟨x, start, letter, rfl⟩
          exact ⟨16, start, if_pos ⟨rfl, rfl⟩, .hex (.inr rfl) letter rfl⟩
      | false =>
          exact ⟨16, number, if_neg (by simp),
            .given (by decide) fun _ => shown⟩
    · exact ⟨base, number, if_neg (by omega),
        .given zero fun same => absurd same sixteen⟩

theorem Starts.valid {found : Nat} {start : List UInt8}
    (valid : base = 0 ∨ 2 ≤ base ∧ base ≤ 36)
    (starts : Starts base number found start) : 2 ≤ found ∧ found ≤ 36 := by
  cases starts with
  | hex => decide
  | octal => decide
  | decimal => decide
  | given wanted bare => omega

theorem not_isDigit_letter {x : UInt8} {small : Nat} (le : small ≤ 16)
    (letter : x = ascii 'x' ∨ x = ascii 'X') : isDigit small x = false := by
  by_contra digit
  rw [Bool.not_eq_false] at digit
  have digit := isDigit_mono le digit
  rcases letter with rfl | rfl <;> exact absurd digit (by decide)

/-- A run that is a prefix of a zero and a letter is the zero. -/
theorem length_of_letter {x : UInt8} {small : Nat} {start : List UInt8}
    (le : small ≤ 16) (letter : x = ascii 'x' ∨ x = ascii 'X')
    (digits : ∀ c ∈ run, isDigit small c = true)
    (before : run <+: ascii '0' :: x :: start) : run.length ≤ 1 := by
  have short := length_le_takeWhile digits before
  have other := not_isDigit_letter le letter
  rw [List.takeWhile_cons] at short
  split at short
  · rw [List.takeWhile_cons_of_neg (by rw [other]; decide)] at short
    exact short
  · exact short.trans (Nat.zero_le 1)

theorem run_takeWhile {start : List UInt8} {found : Nat}
    (moves : ¬ Stops found start) :
    Run found (start.takeWhile (isDigit found)) where
  filled := by
    intro empty
    apply moves
    intro c head
    cases start with
    | nil => cases head
    | cons first others =>
        cases head
        by_contra digit
        rw [Bool.not_eq_false] at digit
        rw [List.takeWhile_cons_of_pos digit] at empty
        cases empty
  digits := by
    have all := @List.all_takeWhile _ (isDigit found) start
    rw [List.all_eq_true] at all
    exact all

theorem stops_dropWhile {found : Nat} (start : List UInt8) :
    Stops found (start.dropWhile (isDigit found)) := by
  intro c head
  have first := @List.head?_dropWhile_not _ (isDigit found) start
  rw [Option.mem_def.mp head] at first
  exact first

/-- A run of digits in the text means that the text starts with one. -/
theorem Run.moves {found : Nat} (digits : Run found run)
    (before : run <+: text) : ¬ Stops found text := by
  intro stops
  rcases before with ⟨rest, rfl⟩
  cases run with
  | nil => exact digits.filled rfl
  | cons c others =>
      have other := stops c rfl
      rw [digits.digits c List.mem_cons_self] at other
      cases other

/--
What the numbers in front of a text look like: `front` is the prefix that
the base takes, and the text may start with a zero that is no prefix.
-/
structure Shape (base : Nat) (number : List UInt8) (found : Nat)
    (front start : List UInt8) : Prop where
  split : number = front ++ start
  joins : ∀ run, Run found run → run <+: start → Number base (front ++ run)
  splits : ∀ word, Number base word → word <+: number →
    word.length ≤ front.length ∨ ∃ run, Run found run ∧ word = front ++ run
  zero : front ≠ [] → Number base [ascii '0'] ∧ [ascii '0'] <+: number
  cut : Cut base number ↔ front ≠ [] ∧ Stops found start

/-- Nothing that starts with a zero is a decimal number of base 0. -/
theorem head_of_before {word : List UInt8} (digits : Run 10 word)
    (before : word <+: ascii '0' :: text) :
    word.head? = some (ascii '0') := by
  cases word with
  | nil => exact absurd rfl digits.filled
  | cons c others =>
      rw [List.cons_prefix_cons] at before
      rw [before.1]
      rfl

theorem shape_hex {x : UInt8} {start : List UInt8}
    (wanted : base = 0 ∨ base = 16)
    (letter : x = ascii 'x' ∨ x = ascii 'X') :
    Shape base (ascii '0' :: x :: start) 16 [ascii '0', x] start where
  split := rfl
  joins run digits _ := .hex wanted letter digits
  splits word reads before := by
    cases reads with
    | digits given digits =>
        have sixteen := wanted.resolve_left given
        subst sixteen
        have short := length_of_letter le_rfl letter digits.digits before
        exact .inl (short.trans (Nat.le_succ 1))
    | hex wanted' letter' digits =>
        rw [List.cons_prefix_cons, List.cons_prefix_cons] at before
        rw [before.2.1]
        exact .inr ⟨_, digits, rfl⟩
    | @octal run digits =>
        have all : ∀ c ∈ ascii '0' :: run, isDigit 8 c = true :=
          List.forall_mem_cons.mpr ⟨by decide, digits⟩
        have short := length_of_letter (by decide) letter all before
        exact .inl (short.trans (Nat.le_succ 1))
    | decimal digits other => exact absurd (head_of_before digits before) other
  zero _ := by
    refine ⟨?_, ⟨x :: start, rfl⟩⟩
    rcases wanted with rfl | rfl
    · exact .octal fun c absent => nomatch absent
    · exact .digits (by decide)
        ⟨by decide, List.all_eq_true.mp (by decide)⟩
  cut := by
    constructor
    · rintro (⟨_, _, stops⟩ | ⟨_, _, bare, _⟩)
      · exact ⟨List.cons_ne_nil _ _, stops⟩
      · rw [hexPrefix_iff.mpr ⟨x, start, letter, rfl⟩] at bare
        cases bare
    · rintro ⟨-, stops⟩
      exact .hex wanted (hexPrefix_iff.mpr ⟨x, start, letter, rfl⟩) stops

theorem shape_octal {start : List UInt8}
    (bare : hexPrefix (ascii '0' :: start) = false) :
    Shape 0 (ascii '0' :: start) 8 [ascii '0'] start where
  split := rfl
  joins run digits _ := .octal digits.digits
  splits word reads before := by
    cases reads with
    | digits given digits => exact absurd rfl given
    | @hex _ x run wanted letter digits =>
        rcases before with ⟨rest, joined⟩
        have shown := hexPrefix_iff.mpr ⟨x, run ++ rest, letter, rfl⟩
        rw [← joined] at bare
        exact absurd (shown.symm.trans bare) (by decide)
    | @octal run digits =>
        cases run with
        | nil => exact .inl le_rfl
        | cons c others =>
            exact .inr ⟨_, ⟨List.cons_ne_nil _ _, digits⟩, rfl⟩
    | decimal digits other => exact absurd (head_of_before digits before) other
  zero _ := ⟨.octal (fun c absent => nomatch absent), ⟨start, rfl⟩⟩
  cut := by
    constructor
    · rintro (⟨_, shown, _⟩ | ⟨_, _, _, stops⟩)
      · rw [shown] at bare
        cases bare
      · exact ⟨List.cons_ne_nil _ _, stops⟩
    · rintro ⟨-, stops⟩
      exact .octal rfl rfl bare stops

/-- A prefix starts like its text. -/
theorem head_of_extended {word : List UInt8} (filled : word ≠ [])
    (before : word <+: text) : text.head? = word.head? := by
  rcases before with ⟨rest, rfl⟩
  exact List.head?_append_of_ne_nil _ filled

theorem shape_decimal (other : number.head? ≠ some (ascii '0')) :
    Shape 0 number 10 [] number where
  split := rfl
  joins run digits before := by
    rw [head_of_extended digits.filled before] at other
    exact .decimal digits other
  splits word reads before := by
    cases reads with
    | digits given digits => exact absurd rfl given
    | hex wanted letter digits =>
        exact absurd (head_of_extended (List.cons_ne_nil _ _) before) other
    | octal digits =>
        exact absurd (head_of_extended (List.cons_ne_nil _ _) before) other
    | decimal digits _ => exact .inr ⟨word, digits, rfl⟩
  zero absent := absurd rfl absent
  cut := by
    constructor
    · rintro (⟨_, shown, _⟩ | ⟨_, shown, _, _⟩)
      · rcases hexPrefix_iff.mp shown with ⟨x, start, _, rfl⟩
        exact absurd rfl other
      · exact absurd shown other
    · rintro ⟨absent, -⟩
      exact absurd rfl absent

theorem shape_given (wanted : base ≠ 0)
    (bare : base = 16 → hexPrefix number = false) :
    Shape base number base [] number where
  split := rfl
  joins run digits _ := .digits wanted digits
  splits word reads before := by
    cases reads with
    | digits _ digits => exact .inr ⟨word, digits, rfl⟩
    | @hex _ x run wanted' letter digits =>
        rcases before with ⟨rest, joined⟩
        have shown := hexPrefix_iff.mpr ⟨x, run ++ rest, letter, rfl⟩
        have bare := bare (wanted'.resolve_left wanted)
        rw [← joined] at bare
        exact absurd (shown.symm.trans bare) (by decide)
    | octal digits => exact absurd rfl wanted
    | decimal digits other => exact absurd rfl wanted
  zero absent := absurd rfl absent
  cut := by
    constructor
    · rintro (⟨wanted', shown, _⟩ | ⟨zero, _, _, _⟩)
      · rw [bare (wanted'.resolve_left wanted)] at shown
        cases shown
      · exact absurd zero wanted
    · rintro ⟨absent, -⟩
      exact absurd rfl absent

theorem Starts.shape {found : Nat} {start : List UInt8}
    (starts : Starts base number found start) :
    ∃ front, Shape base number found front start := by
  cases starts with
  | hex wanted letter split =>
      subst split
      exact ⟨_, shape_hex wanted letter⟩
  | octal wanted split bare =>
      subst wanted split
      exact ⟨_, shape_octal bare⟩
  | decimal wanted other =>
      subst wanted
      exact ⟨_, shape_decimal other⟩
  | given wanted bare => exact ⟨_, shape_given wanted bare⟩

/-! ## The end of the number -/

section Shape

variable {found : Nat} {front start : List UInt8}

/-- With a digit behind the prefix, all the digits are taken. -/
theorem Shape.longest
    (shape : Shape base number found front start)
    (moves : ¬ Stops found start) :
    Longest (Number base) number
      (front ++ start.takeWhile (isDigit found)) where
  among :=
    shape.joins _ (run_takeWhile moves) (List.takeWhile_prefix _)
  before := by
    rw [shape.split]
    exact (List.prefix_append_right_inj front).mpr (List.takeWhile_prefix _)
  longest word reads before := by
    rw [List.length_append]
    rcases shape.splits word reads before with short | ⟨run, digits, rfl⟩
    · omega
    · rw [shape.split] at before
      have short := length_le_takeWhile digits.digits
        ((List.prefix_append_right_inj front).mp before)
      rw [List.length_append]
      omega

/-- Without a prefix and without a digit there is no number. -/
theorem Shape.lacks
    (shape : Shape base number found [] start)
    (valid : base ≤ 36) (stops : Stops found start) :
    Lacks (Number base) number := by
  intro word reads before
  rcases shape.splits word reads before with short | ⟨run, digits, rfl⟩
  · rcases reads.head valid with ⟨c, others, rfl, _⟩
    exact absurd short (by simp)
  · rw [shape.split] at before
    exact digits.moves before stops

end Shape

theorem Subject.filled (valid : base ≤ 36) {word : List UInt8}
    (subject : Subject base word) : word ≠ [] := by
  rcases subject with ⟨_, _, reads⟩
  rcases reads.head valid with ⟨c, others, rfl, _⟩
  simp

/--
The main result about the accepted texts: for every base and every text,
`*endptr` is the end of the longest prefix that C accepts, or the start if
there is none, exactly when no prefix of the number is cut off from its
digits.
-/
theorem strtoul_ends_iff
    (valid : base = 0 ∨ 2 ≤ base ∧ base ≤ 36) (text : List UInt8) :
    (∃ rest, (strtoul (some text) base).2 = some rest ∧
        Ends (Subject base) text rest ∧
        (rest = text ↔ Lacks (Subject base) text)) ↔
      ¬ Cut base (numberOf text) := by
  have small : base ≤ 36 := by omega
  rcases numberOf_spec text with
    ⟨spaces, signs, negative, blank, signed, whole, found⟩
  rcases radix_starts base (numberOf text) with
    ⟨wanted, start, radixes, starts⟩
  rcases starts.valid valid with ⟨two, limit⟩
  rcases starts.shape with ⟨front, shape⟩
  have joins : ∀ word, Number base word →
      Subject base ((spaces ++ signs) ++ word) := by
    intro word reads
    rw [List.append_assoc]
    exact .made blank signed reads
  have splits : ∀ word, Subject base word →
      word <+: (spaces ++ signs) ++ numberOf text →
      ∃ tail, Number base tail ∧ word = (spaces ++ signs) ++ tail := by
    intro word subject before
    rw [← whole] at before
    exact subject_splits small whole subject before
  rw [shape.cut]
  by_cases stops : Stops wanted start
  · rw [strtoul_nothing two limit found radixes stops]
    by_cases bare : front = []
    · subst bare
      have lacks := Lacks.behind splits (shape.lacks small stops)
      rw [← whole] at lacks
      exact ⟨fun _ both => both.1 rfl, fun _ =>
        ⟨text, rfl, .inr ⟨lacks, rfl⟩, fun _ => lacks, fun _ => rfl⟩⟩
    · rcases shape.zero bare with ⟨zero, rest, before⟩
      refine ⟨?_, fun uncut => absurd ⟨bare, stops⟩ uncut⟩
      rintro ⟨rest', same, -, start⟩
      cases same
      have lacks := start.mp rfl
      refine absurd ?_ (lacks _ (joins _ zero))
      rw [whole]
      exact (List.prefix_append_right_inj _).mpr ⟨rest, before⟩
  · have longest := (shape.longest stops).behind joins splits
    rw [← whole] at longest
    have split := @List.takeWhile_append_dropWhile _ (isDigit wanted) start
    have ends : Ends (Subject base) text
        (start.dropWhile (isDigit wanted)) := by
      refine .inl ⟨_, longest, ?_⟩
      rw [List.append_assoc, List.append_assoc front, split, ← shape.split]
      exact whole
    rw [← split] at radixes
    rw [strtoul_run two limit found radixes (run_takeWhile stops)
      (stops_dropWhile start)]
    exact ⟨fun _ both => stops both.2, fun _ =>
      ⟨_, rfl, ends, ends.start_iff fun _ => Subject.filled small⟩⟩

/-- The end of `" -0x1fg"` in base 0. -/
theorem strtoul_ends_iff_hex :
    ∃ rest, (strtoul (some ([' ', '-', '0', 'x', '1', 'f', 'g'].map ascii))
        (0 : Nat)).2 = some rest ∧
      Ends (Subject 0) ([' ', '-', '0', 'x', '1', 'f', 'g'].map ascii)
        rest := by
  have uncut : ¬ Cut 0
      (numberOf ([' ', '-', '0', 'x', '1', 'f', 'g'].map ascii)) := by
    rintro (⟨_, _, stops⟩ | ⟨_, _, bare, _⟩)
    · exact absurd (stops (ascii '1') rfl) (by decide)
    · exact absurd bare (by decide)
  rcases (strtoul_ends_iff (.inl rfl)
    ([' ', '-', '0', 'x', '1', 'f', 'g'].map ascii)).mpr uncut with
    ⟨rest, reads, ends, _⟩
  exact ⟨rest, reads, ends⟩

/--
In base 0 the text `"0"` is a number, but it is taken for a prefix and nothing
is read; neither is anything of `"08"` or, in base 16, of `"0xg"`.
-/
theorem strtoul_ends_cut :
    ¬ Lacks (Subject 0) [ascii '0'] ∧
      (strtoul (some [ascii '0']) 0).2 = some [ascii '0'] ∧
      (strtoul (some [ascii '0', ascii '8']) 0).2 =
        some [ascii '0', ascii '8'] ∧
      (strtoul (some [ascii '0', ascii 'x', ascii 'g']) 16).2 =
        some [ascii '0', ascii 'x', ascii 'g'] := by
  refine ⟨fun lacks => ?_, by decide, by decide, by decide⟩
  have zero : Subject 0 ([] ++ ([] ++ [ascii '0'])) :=
    .made (fun c absent => nomatch absent) .none
      (.octal fun c absent => nomatch absent)
  exact lacks _ zero (List.prefix_refl _)

end Libcute.Text.Strtoul
