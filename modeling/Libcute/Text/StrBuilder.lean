import Libcute.Text.CuteString
import Libcute.Text.Format.Calls

/-!
# The string builder

`cu_StrBuilder_appendf` of `fmt.c` measures the text, reserves room for it and
formats it behind the characters of the string.  `appendf_appends` says that
the two calls of the formatter agree unless the format ends inside a
specifier, and that the text is then appended, with its NUL.

The arguments do not point into the string of the builder.
-/

namespace Libcute.Text.StrBuilder

open Libcute.Collection.Blocks
open Libcute.Collection.RingBuffer (objectLimit)
open Libcute.Core.Size
open Libcute.Text.CuteString
open Libcute.Text.Format

/-- An `int` that is the sum of two, when sums wrap. -/
def wrapInt (value : Int) : Int := asInt (value % 2 ^ 32).toNat

/-- An `int` converted to `size_t`. -/
def sizeOfInt (value : Int) : Nat := (value % 2 ^ 64).toNat

/-- The text that is formatted at the end of a string. -/
def formatBehind
    (str : Str) (size : Nat) (fmt : List UInt8) (args : List Arg) :
    Option Str :=
  match str.data with
  | none =>
      if str.length = 0 then
        (vsnprintf none size fmt args).map fun _ => str
      else
        none
  | some storage =>
      match vsnprintf (some (storage.slots.drop str.length)) size fmt args with
      | some (_, some dst) =>
          some { str with
            data := some { storage with
              slots := storage.slots.take str.length ++ dst } }
      | _ => none

/-- `cu_StrBuilder_appendf` -/
def appendf
    (str : Str) (fmt : List UInt8) (args : List Arg) (grant : Grant UInt8) :
    Option (Option Error × Str) :=
  match vsnprintf none 0 fmt args with
  | none => none
  | some (needed, _) =>
      if needed < 0 then
        some (some .oom, str)
      else
        let newLen := sizeAdd str.length (sizeOfInt needed)
        match str.reserve newLen grant with
        | (some err, str) => some (some err, str)
        | (none, str) =>
            (formatBehind str (sizeOfInt (wrapInt (needed + 1))) fmt args).map
              fun str => (none, { str with length := newLen })

/-! ## Appending -/

variable {str str' : Str} {fmt text : List UInt8} {args : List Arg}
  {grant : Grant UInt8}

/-- The text was appended, with a NUL behind it. -/
def Appends (str str' : Str) (text : List UInt8) : Prop :=
  str'.bytes = str.bytes ++ text ∧
    str'.length = str.length + text.length ∧ str'.Terminated

theorem asInt_half : asInt (2 ^ 31) = -2 ^ 31 := by decide

theorem sizeOfInt_natCast {n : Nat} (small : n < 2 ^ 31) :
    sizeOfInt n = n := by
  unfold sizeOfInt
  omega

/-- The size that is passed has room for the text and a NUL. -/
theorem size_suffices {n : Nat} (small : n < 2 ^ 31) :
    n + 1 ≤ sizeOfInt (wrapInt ((n : Int) + 1)) := by
  unfold sizeOfInt wrapInt asInt
  dsimp only
  split_ifs <;> omega

/-- A text behind the characters, when the block has room for it. -/
theorem formatBehind_spec
    (loops : ∀ target out, loop target fmt.length fmt out args =
      emit target out text (counted fmt text))
    (sound : Sound str) {size : Nat} (enough : text.length + 1 ≤ size)
    (room : str.length + text.length ≤ str.capacity)
    (stored : str.data.isSome = true) :
    ∃ storage slots, str.data = some storage ∧
      formatBehind str size fmt args =
        some { str with data := some { storage with slots := slots } } ∧
      slots.take (str.length + text.length) = str.bytes ++ text ∧
      slots[str.length + text.length]? = some 0 ∧
      slots.length = str.capacity + 1 := by
  rcases Option.isSome_iff_exists.mp stored with ⟨storage, data⟩
  have long := sound.slots storage data
  have behind : (storage.slots.drop str.length).length =
      str.capacity + 1 - str.length := by
    rw [List.length_drop, long]
  have writes := vsnprintf_bounded loops
    (show 1 ≤ size by omega)
    (show min text.length (size - 1) < (storage.slots.drop str.length).length
      by omega)
  have all : text.take (size - 1) = text :=
    List.take_of_length_le (by omega)
  have least : min text.length (size - 1) = text.length := by omega
  rw [all, least, List.drop_drop] at writes
  generalize rest : storage.slots.drop (str.length + (text.length + 1)) =
    others at writes
  have front : (storage.slots.take str.length ++ text).length =
      str.length + text.length := by
    rw [List.length_append, List.length_take]
    omega
  refine ⟨storage, storage.slots.take str.length ++ text ++ 0 :: others,
    data, ?_, ?_, ?_, ?_⟩
  · unfold formatBehind
    rw [data]
    dsimp only
    rw [writes]
    dsimp only
    rw [List.append_assoc]
  · rw [bytes_of_data data]
    exact List.take_left' front
  · rw [List.getElem?_append_right front.le, front, Nat.sub_self]
    rfl
  · rw [List.length_append, front, List.length_cons, ← rest,
      List.length_drop]
    omega

/-- Without a block nothing is formatted. -/
theorem formatBehind_vacant
    (loops : ∀ target out, loop target fmt.length fmt out args =
      emit target out text (counted fmt text))
    (sound : Sound str) (size : Nat) (vacant : str.data = none) :
    formatBehind str size fmt args = some str := by
  unfold formatBehind
  rw [vacant]
  dsimp only
  rw [if_pos (sound.vacant vacant).1, vsnprintf_measures loops]
  rfl

/--
What a call that succeeds does, when `n` characters were counted: the text
and a NUL are behind the old characters of a block.
-/
structure Formats (str str' : Str) (text : List UInt8) (n : Nat) : Prop where
  sound : Sound str'
  length : str'.length = str.length + n
  stored : str'.data.isSome = true ↔ str.data.isSome = true ∨ 0 < n
  text : ∀ storage, str'.data = some storage →
    storage.slots.take (str.length + text.length) = str.bytes ++ text ∧
      storage.slots[str.length + text.length]? = some 0

theorem appendf_eq
    {n : Nat} (measured : vsnprintf none 0 fmt args = some ((n : Int), none))
    (small : n < 2 ^ 31) (sound : Sound str) (grant : Grant UInt8) :
    appendf str fmt args grant =
      match str.reserve (str.length + n) grant with
      | (some err, str) => some (some err, str)
      | (none, reserved) =>
          (formatBehind reserved (sizeOfInt (wrapInt ((n : Int) + 1))) fmt
            args).map fun s => (none, { s with length := str.length + n }) := by
  have limit := sound.limit
  have within := sound.within
  unfold objectLimit at limit
  have sum : sizeAdd str.length (sizeOfInt n) = str.length + n := by
    rw [sizeOfInt_natCast small, sizeAdd_eq]
    unfold sizeLimit
    omega
  unfold appendf
  rw [measured]
  dsimp only
  rw [if_neg (by omega), sum]

theorem appendf_formats
    (loops : ∀ target out, loop target fmt.length fmt out args =
      emit target out text (counted fmt text))
    {n : Nat} (counts : counted fmt text = n) (long : text.length ≤ n)
    (small : n < 2 ^ 31) (sound : Sound str) (grant : Grant UInt8) :
    ∃ err str', appendf str fmt args grant = some (err, str') ∧
      (err = none → Formats str str' text n) := by
  have limit := sound.limit
  have within := sound.within
  unfold objectLimit at limit
  have measured : vsnprintf none 0 fmt args = some ((n : Int), none) := by
    rw [vsnprintf_measures loops, counts, asInt_small small]
  rw [appendf_eq measured small sound grant]
  rcases reserves : str.reserve (str.length + n) grant with ⟨err, reserved⟩
  cases err with
  | some err => exact ⟨some err, reserved, rfl, fun absent => nomatch absent⟩
  | none =>
      rcases sound.reserve_spec (by unfold sizeLimit; omega) reserves with
        ⟨sound', bytes, length, capacity, stored⟩
      have stored' : reserved.data.isSome = true ↔
          str.data.isSome = true ∨ 0 < n := by
        rw [stored]
        cases data : str.data with
        | none =>
            have empty := (sound.vacant data).1
            rw [empty, Nat.zero_add]
        | some _ => simp
      have room : str.length + text.length ≤ reserved.capacity := by omega
      by_cases given : reserved.data.isSome = true
      · rw [← length] at room
        rcases formatBehind_spec loops sound'
          (Nat.le_trans (Nat.succ_le_succ long) (size_suffices small)) room
          given with ⟨storage, slots, data, formats, shown, last, size⟩
        refine ⟨none, ⟨some { storage with slots := slots },
          str.length + n, reserved.capacity⟩, ?_, fun _ =>
            ⟨⟨?_, ?_, capacity, sound'.limit⟩, rfl, ?_, ?_⟩⟩
        · dsimp only
          rw [formats]
          rfl
        · intro absent
          cases absent
        · intro _ same
          cases same
          exact size
        · exact ⟨fun _ => stored'.mp given, fun _ => rfl⟩
        · intro _ same
          cases same
          rw [length, bytes] at shown
          rw [length] at last
          exact ⟨shown, last⟩
      · have vacant : reserved.data = none :=
          Option.not_isSome_iff_eq_none.mp given
        have none' : ¬ (str.data.isSome = true ∨ 0 < n) :=
          fun stored => given (stored'.mpr stored)
        have same : str.length + n = reserved.length := by omega
        refine ⟨none, reserved, ?_, fun _ =>
          ⟨sound', same.symm, stored', ?_⟩⟩
        · dsimp only
          rw [formatBehind_vacant loops sound' _ vacant, same]
          rfl
        · intro storage data
          rw [vacant] at data
          cases data

/-- The text was appended if it was counted right and there is a block. -/
theorem Formats.append_succeeds_iff
    {n : Nat} (formats : Formats str str' text n) :
    Appends str str' text ↔
      n = text.length ∧ (text ≠ [] ∨ str.data.isSome = true) := by
  constructor
  · rintro ⟨_, length, storage, data, _⟩
    have same : n = text.length := by
      have grown := formats.length
      omega
    have given := formats.stored.mp (by rw [data]; rfl)
    refine ⟨same, given.symm.imp_left fun positive empty => ?_⟩
    rw [empty, List.length_nil] at same
    omega
  · rintro ⟨same, filled⟩
    have given : str'.data.isSome = true := by
      rw [formats.stored, same]
      exact filled.symm.imp_right List.length_pos_iff.mpr
    rcases Option.isSome_iff_exists.mp given with ⟨storage, data⟩
    rcases formats.text storage data with ⟨shown, last⟩
    have length := formats.length
    rw [same] at length
    refine ⟨?_, length, storage, data, ?_⟩
    · rw [bytes_of_data data, length, shown]
    · rw [length, last]

theorem counted_eq_iff :
    counted fmt text = text.length ↔ ¬ Unfinished fmt := by
  unfold counted
  split_ifs with unfinished
  · constructor
    · omega
    · exact fun finished => absurd unfinished finished
  · exact ⟨fun _ => unfinished, fun _ => rfl⟩

theorem length_le_counted (fmt text : List UInt8) :
    text.length ≤ counted fmt text :=
  Nat.le_add_right _ _

/--
The main result, for arguments that match and a text that an `int` counts:
the count of a measuring call is the length of the text unless the format
ends inside a specifier.  A call of the builder that succeeds appends the
text under the same condition, if there is a block for its NUL: an empty text
in a string without one leaves no NUL.
-/
theorem appendf_appends
    (matching : Matches fmt args) (renders : rendering fmt args = some text)
    (short : text.length < 2 ^ 31) :
    (vsnprintf none 0 fmt args = some ((text.length : Int), none) ↔
        ¬ Unfinished fmt) ∧
      ∀ str grant, Sound str →
        ∃ err str', appendf str fmt args grant = some (err, str') ∧
          (err = none → (Appends str str' text ↔
            ¬ Unfinished fmt ∧ (text ≠ [] ∨ str.data.isSome = true))) := by
  rcases rendering_of_matches matching with ⟨text', renders', loops⟩
  rw [renders] at renders'
  cases renders'
  have long := length_le_counted fmt text
  have more : counted fmt text ≤ text.length + 1 := by
    unfold counted
    split_ifs <;> omega
  rw [vsnprintf_measures loops]
  rcases Nat.lt_or_ge (counted fmt text) (2 ^ 31) with small | large
  · rw [asInt_small small]
    constructor
    · rw [← counted_eq_iff, Option.some.injEq, Prod.mk.injEq,
        Int.natCast_inj]
      exact ⟨fun same => same.1, fun same => ⟨same, rfl⟩⟩
    · intro str grant sound
      rcases appendf_formats loops rfl long small sound grant with
        ⟨err, str', appends, formats⟩
      refine ⟨err, str', appends, fun succeeds => ?_⟩
      rw [← counted_eq_iff]
      exact (formats succeeds).append_succeeds_iff
  · have whole : counted fmt text = 2 ^ 31 := by omega
    have unfinished : ¬ ¬ Unfinished fmt := by
      intro finished
      have same : counted fmt text = text.length :=
        counted_eq_iff.mpr finished
      omega
    rw [whole, asInt_half]
    refine ⟨⟨fun same => ?_, fun finished => absurd finished unfinished⟩,
      fun str grant _ => ⟨some .oom, str, ?_, fun absent => nomatch absent⟩⟩
    · rw [Option.some.injEq, Prod.mk.injEq] at same
      omega
    · unfold appendf
      rw [vsnprintf_measures loops, whole, asInt_half]
      rfl

/-- A number is appended. -/
theorem appendf_appends_number :
    ∃ err str', appendf Str.init numberFormat [.word 10]
        (some (64, fun _ => 170)) = some (err, str') ∧
      (err = none → Appends Str.init str'
        (['n', 'u', 'm', 'b', 'e', 'r', ' ', '1', '0'].map ascii)) := by
  have matching : Matches numberFormat [.word 10] := by decide
  have renders : rendering numberFormat [.word 10] =
      some (['n', 'u', 'm', 'b', 'e', 'r', ' ', '1', '0'].map ascii) := by
    decide +kernel
  rcases (appendf_appends matching renders (by decide)).2 Str.init
    (some (64, fun _ => 170)) init_sound with
    ⟨err, str', appends, appends_iff⟩
  exact ⟨err, str', appends, fun succeeds =>
    (appends_iff succeeds).mpr ⟨by decide, .inl (by decide)⟩⟩

/-- The format `"100%"` has four characters and is counted as five. -/
theorem appendf_unfinished :
    rendering (['1', '0', '0', '%'].map ascii) [] =
        some (['1', '0', '0', '%'].map ascii) ∧
      (vsnprintf none 0 (['1', '0', '0', '%'].map ascii) []).map Prod.fst =
        some 5 ∧
      ∃ str', appendf Str.init (['1', '0', '0', '%'].map ascii) []
          (some (64, fun _ => 170)) = some (none, str') ∧
        str'.length = 5 ∧
        str'.bytes = (['1', '0', '0', '%'].map ascii) ++ [0] := by
  refine ⟨by decide, by decide, ?_⟩
  refine ⟨_, rfl, ?_, ?_⟩
  · decide
  · decide

end Libcute.Text.StrBuilder
