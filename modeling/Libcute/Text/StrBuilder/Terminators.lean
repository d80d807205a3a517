import Libcute.Text.CuteString.Runs
import Libcute.Text.StrBuilder

/-!
# Storage and terminators of strings

Whether a string has storage, and a NUL in it, depends on how it was reached.
`Made` are the strings that successful calls make of an empty one, under a
rule for the calls.  `appends_iff` says for which of them an append is safe,
and `made_readable` that a string can be read as a C string as long as no
storage is reserved ahead of its first characters.
-/

namespace Libcute.Text.StrBuilder

open Libcute.Collection.RingBuffer (objectLimit)
open Libcute.Core.Size
open Libcute.Text.CuteString
open Libcute.Text.Format

variable {str str' : Str} {fmt text slice : List UInt8} {args : List Arg}
  {grant : Collection.Blocks.Grant UInt8}

/-- A call on a string or on the builder around it. -/
inductive BuilderCall where
  | string (call : Call)
  | appendf (fmt : List UInt8) (args : List Arg)
  | destroy

/-- Make a call. -/
def performs (str : Str) (call : BuilderCall)
    (grant : Collection.Blocks.Grant UInt8) : Option (Option Error × Str) :=
  match call with
  | .string call => str.perform call grant
  | .appendf fmt args => appendf str fmt args grant
  | .destroy => some (none, str.destroy)

/-- The strings that successful calls make of an empty string. -/
inductive Made (allowed : Str → BuilderCall → Prop) : Str → Prop where
  | init : Made allowed Str.init
  | call {str str' : Str} {call : BuilderCall}
      {grant : Collection.Blocks.Grant UInt8}
      (earlier : Made allowed str) (permitted : allowed str call)
      (done : performs str call grant = some (none, str')) :
      Made allowed str'

/-- A text for the arguments that an `int` counts. -/
def Countable (fmt : List UInt8) (args : List Arg) : Prop :=
  Matches fmt args ∧
    ∃ text, rendering fmt args = some text ∧ text.length < 2 ^ 31

/--
The texts are objects in memory, formatted ones can be counted, and the
largest `size_t` is not reserved.
-/
def Allowed : BuilderCall → Prop
  | .string (.reserve capacity) => capacity + 1 < sizeLimit
  | .string call => call.text.length ≤ objectLimit
  | .appendf fmt args => Countable fmt args
  | .destroy => True

/-! ## One call -/

theorem sums_fit (sound : Sound str) (object : text.length ≤ objectLimit) :
    str.length + text.length + 1 < sizeLimit := by
  have within := sound.within
  have limit := sound.limit
  unfold objectLimit at *
  unfold sizeLimit
  omega

/-- Nothing is appended to nothing: there is no place for the NUL. -/
theorem appendSlice_vacant
    (sound : Sound str) (vacant : str.data = none)
    (grant : Collection.Blocks.Grant UInt8) :
    str.appendSlice [] grant = none := by
  have enough : ¬ sizeAdd str.length ([] : List UInt8).length >
      str.capacity := by
    rw [(sound.vacant vacant).1, (sound.vacant vacant).2]
    decide
  unfold Str.appendSlice
  dsimp only
  rw [if_neg enough]
  dsimp only [Str.copyIn]
  rw [if_neg (by decide)]
  unfold Str.terminate
  dsimp only
  rw [vacant]
  rfl

/-- Storage is there, or there is something to store. -/
theorem stored_of_appendSlice
    (sound : Sound str)
    (done : str.appendSlice slice grant = some (none, str')) :
    str.data.isSome = true ∨ slice ≠ [] := by
  by_contra neither
  rw [not_or, not_not] at neither
  have vacant := Option.not_isSome_iff_eq_none.mp neither.1
  rw [neither.2, appendSlice_vacant sound vacant] at done
  cases done

theorem kept_of_appendSlice
    (sound : Sound str) (object : slice.length ≤ objectLimit)
    (done : str.appendSlice slice grant = some (none, str')) :
    Kept str' (str.bytes ++ slice) := by
  rcases sound.appendSlice_spec grant (stored_of_appendSlice sound done)
      (sums_fit sound object) with ⟨again, appends, kept⟩ | refused
  · rw [appends] at done
    cases done
    exact kept
  · rw [refused] at done
    cases done

/-- What a formatted append that succeeds does. -/
theorem formats_of_appendf
    (sound : Sound str) (countable : Countable fmt args)
    (done : appendf str fmt args grant = some (none, str')) :
    ∃ text, Formats str str' text (counted fmt text) := by
  rcases countable with ⟨matching, text, renders, short⟩
  rcases rendering_of_matches matching with ⟨text', renders', loops⟩
  rw [renders] at renders'
  cases renders'
  refine ⟨text, ?_⟩
  rcases Nat.lt_or_ge (counted fmt text) (2 ^ 31) with small | large
  · rcases appendf_formats loops rfl (length_le_counted fmt text) small
        sound grant with ⟨error, again, appends, formats⟩
    rw [appends] at done
    cases done
    exact formats rfl
  · have whole : counted fmt text = 2 ^ 31 := by
      unfold counted at *
      split_ifs at * <;> omega
    unfold appendf at done
    rw [vsnprintf_measures loops, whole, asInt_half] at done
    cases done

/-- Clearing leaves a NUL, or neither data nor length. -/
theorem clear_cases
    (sound : Sound str) (clears : str.clear = some str') :
    Sound str' ∧
      ((str'.data = none ∧ str'.length = 0) ∨ str'.Terminated) := by
  cases data : str.data with
  | none =>
      unfold Str.clear at clears
      dsimp only at clears
      rw [data] at clears
      cases clears
      refine ⟨⟨fun _ => ⟨rfl, (sound.vacant data).2⟩, ?_,
        Nat.zero_le _, sound.limit⟩, .inl ⟨rfl, rfl⟩⟩
      intro storage absent
      cases absent
  | some storage =>
      rcases sound.clear_spec data with ⟨again, makes, kept⟩
      rw [makes] at clears
      cases clears
      exact ⟨kept.sound, .inr kept.terminated⟩

/-- Successful calls keep the invariant. -/
theorem performs_sound
    (sound : Sound str) {call : BuilderCall} (allowed : Allowed call)
    (done : performs str call grant = some (none, str')) : Sound str' := by
  rcases call with ⟨_ | _ | _ | _⟩ | _ | _
  · rename_i slice
    exact (kept_of_appendSlice sound allowed done).sound
  · rename_i cstr
    exact (kept_of_appendSlice sound allowed done).sound
  · rename_i other
    exact (kept_of_appendSlice sound allowed done).sound
  · rename_i capacity
    exact (sound.reserve_spec allowed (Option.some.inj done)).1
  · rcases Option.map_eq_some_iff.mp done with ⟨cleared, clears, same⟩
    cases same
    exact (clear_cases sound clears).1
  · rcases formats_of_appendf sound allowed done with ⟨text, formats⟩
    exact formats.sound
  · cases done
    exact init_sound

theorem Made.sound
    (made : Made (fun _ call => Allowed call) str) : Sound str := by
  induction made with
  | init => exact init_sound
  | call earlier permitted done sound =>
      exact performs_sound sound permitted done

/-! ## Appending -/

/--
The text was appended and stands in a block with a NUL behind it, or there
was no memory and nothing has changed.
-/
def Appended (str : Str) (text : List UInt8)
    (result : Option (Option Error × Str)) : Prop :=
  (∃ str', result = some (none, str') ∧ Kept str' (str.bytes ++ text)) ∨
    result = some (some .oom, str)

theorem appended_iff
    (sound : Sound str) (object : slice.length ≤ objectLimit)
    (grant : Collection.Blocks.Grant UInt8) :
    Appended str slice (str.appendSlice slice grant) ↔
      str.data.isSome = true ∨ slice ≠ [] := by
  constructor
  · intro appended
    by_contra neither
    rw [not_or, not_not] at neither
    have vacant := Option.not_isSome_iff_eq_none.mp neither.1
    rw [neither.2, appendSlice_vacant sound vacant] at appended
    rcases appended with ⟨_, appends, _⟩ | refused
    · cases appends
    · cases refused
  · intro stored
    exact sound.appendSlice_spec grant stored (sums_fit sound object)

/--
An append to a string that successful calls made of an empty one is safe
exactly if the string has storage or the text is not empty.
-/
theorem appends_iff
    (made : Made (fun _ call => Allowed call) str)
    (grant : Collection.Blocks.Grant UInt8) :
    (∀ slice : List UInt8, slice.length ≤ objectLimit →
      (Appended str slice (str.appendSlice slice grant) ↔
        str.data.isSome = true ∨ slice ≠ [])) ∧
      (∀ cstr, (Str.characters cstr).length ≤ objectLimit →
        (Appended str (Str.characters cstr) (str.appendCstr cstr grant) ↔
          str.data.isSome = true ∨ Str.characters cstr ≠ [])) ∧
      ∀ other : Str, other.asSlice.length ≤ objectLimit →
        (Appended str other.asSlice (str.append other grant) ↔
          str.data.isSome = true ∨ other.asSlice ≠ []) :=
  ⟨fun _ object => appended_iff made.sound object grant,
    fun _ object => appended_iff made.sound object grant,
    fun _ object => appended_iff made.sound object grant⟩

/-- The string `ab` in a block of three bytes. -/
def twoCharacters : Str := ⟨some ⟨⟨64, 3⟩, [97, 98, 0]⟩, 2, 2⟩

theorem twoCharacters_made :
    Made (fun _ call => Allowed call) twoCharacters :=
  @Made.call _ Str.init twoCharacters (.string (.appendSlice [97, 98]))
    (block 64) .init
    (show ([97, 98] : List UInt8).length ≤ objectLimit by decide) rfl

theorem appends_iff_characters :
    Appended twoCharacters [] (twoCharacters.appendSlice [] none) ↔
      twoCharacters.data.isSome = true ∨ ([] : List UInt8) ≠ [] :=
  (appends_iff twoCharacters_made none).1 [] (by decide)

/--
An empty C string, a missing one and an empty string are appended to an
empty string: the NUL is stored through the null pointer.
-/
theorem appends_nothing :
    Made (fun _ call => Allowed call) Str.init ∧
      (∀ grant, Str.init.appendSlice [] grant = none ∧
        Str.init.appendCstr (some [0]) grant = none ∧
        Str.init.appendCstr none grant = none ∧
        Str.init.append Str.init grant = none) ∧
      ¬ Appended Str.init [] none := by
  refine ⟨.init, fun grant => ?_, ?_⟩
  · have nothing := appendSlice_vacant init_sound rfl grant
    exact ⟨nothing, nothing, nothing, nothing⟩
  · rintro (⟨_, appends, _⟩ | refused)
    · cases appends
    · cases refused

/-! ## Terminators -/

/-- The string can be read as a C string, or has neither data nor length. -/
def Readable (str : Str) : Prop :=
  (str.data = none ∧ str.length = 0) ∨ str.Terminated

/--
Texts are appended that are not empty, and formats that are finished.
Reserving is for strings that have storage.
-/
def KeepsNul (str : Str) : BuilderCall → Prop
  | .string (.reserve capacity) =>
      capacity + 1 < sizeLimit ∧ (str.data.isSome = true ∨ capacity = 0)
  | .string .clear => True
  | .string call => call.text ≠ [] ∧ call.text.length ≤ objectLimit
  | .appendf fmt args => Countable fmt args ∧ ¬ Unfinished fmt
  | .destroy => False

theorem KeepsNul.allowed {call : BuilderCall}
    (keeps : KeepsNul str call) : Allowed call := by
  rcases call with ⟨_ | _ | _ | _⟩ | _ | _
  · exact keeps.2
  · exact keeps.2
  · exact keeps.2
  · exact keeps.1
  · exact Nat.zero_le _
  · exact keeps.1
  · exact trivial

/-- Formatting leaves a NUL behind the text, or a string without storage. -/
theorem readable_of_appendf
    (sound : Sound str) (countable : Countable fmt args)
    (finished : ¬ Unfinished fmt)
    (done : appendf str fmt args grant = some (none, str')) :
    Readable str' := by
  rcases formats_of_appendf sound countable done with ⟨text, formats⟩
  have counts : counted fmt text = text.length :=
    counted_eq_iff.mpr finished
  have length := formats.length
  rw [counts] at length
  cases data : str'.data with
  | none => exact .inl ⟨data, (formats.sound.vacant data).1⟩
  | some storage =>
      right
      refine ⟨storage, data, ?_⟩
      rw [length]
      exact (formats.text storage data).2

/-- A block that grows or shrinks carries the NUL along. -/
theorem readable_of_reserve
    (sound : Sound str) (readable : Readable str) {capacity : Nat}
    (fits : capacity + 1 < sizeLimit)
    (stored : str.data.isSome = true ∨ capacity = 0)
    (reserves : str.reserve capacity grant = (none, str')) :
    Readable str' := by
  rcases readable with vacant | terminated
  · have none' : capacity = 0 := by
      rw [vacant.1] at stored
      rcases stored with absent | none'
      · cases absent
      · exact none'
    subst none'
    unfold Str.reserve at reserves
    rw [if_pos (Nat.zero_le _)] at reserves
    cases reserves
    exact .inl vacant
  · have kept : Kept str str.bytes := ⟨sound, rfl, terminated⟩
    exact .inr (kept.reserve_spec fits reserves).terminated

theorem performs_readable
    (sound : Sound str) (readable : Readable str) {call : BuilderCall}
    (keeps : KeepsNul str call)
    (done : performs str call grant = some (none, str')) :
    Readable str' := by
  rcases call with ⟨_ | _ | _ | _⟩ | _ | _
  · exact .inr (kept_of_appendSlice sound keeps.2 done).terminated
  · exact .inr (kept_of_appendSlice sound keeps.2 done).terminated
  · exact .inr (kept_of_appendSlice sound keeps.2 done).terminated
  · exact readable_of_reserve sound readable keeps.1 keeps.2
      (Option.some.inj done)
  · rcases Option.map_eq_some_iff.mp done with ⟨cleared, clears, same⟩
    cases same
    exact (clear_cases sound clears).2
  · exact readable_of_appendf sound keeps.1 keeps.2 done
  · exact keeps.elim

/--
In every run of non-empty appends, finished formats and clears that reserves
only for strings with storage, the string can be read as a C string, or has
neither data nor length.
-/
theorem made_readable (made : Made KeepsNul str) : Readable str := by
  have both : Sound str ∧ Readable str := by
    induction made with
    | init => exact ⟨init_sound, .inl ⟨rfl, rfl⟩⟩
    | call earlier permitted done good =>
        exact ⟨performs_sound good.1 permitted.allowed done,
          performs_readable good.1 good.2 permitted done⟩
  exact both.2

/-- Two characters, and storage for four that is reserved behind them. -/
theorem made_readable_characters :
    ∃ str, Made KeepsNul str ∧ Readable str ∧ str.capacity = 4 := by
  have appended : Made KeepsNul twoCharacters :=
    @Made.call _ Str.init twoCharacters (.string (.appendSlice [97, 98]))
      (block 64) .init
      (show ([97, 98] : List UInt8) ≠ [] ∧
        ([97, 98] : List UInt8).length ≤ objectLimit by decide) rfl
  have reserved : Made KeepsNul
      ⟨some ⟨⟨128, 5⟩, [97, 98, 0, 170, 170]⟩, 2, 4⟩ :=
    @Made.call _ twoCharacters _ (.string (.reserve 4)) (block 128) appended
      (show 4 + 1 < sizeLimit ∧ (true = true ∨ 4 = 0) by decide) rfl
  exact ⟨_, reserved, made_readable reserved, rfl⟩

/--
An empty string for which four characters are reserved has data, and what
the allocator left in the block stands at its end.
-/
theorem reserve_not_readable :
    ∃ str, Str.init.perform (.reserve 4) (block 64) = some (none, str) ∧
      str.data.isSome = true ∧ ¬ Readable str := by
  refine ⟨_, rfl, rfl, ?_⟩
  rintro (⟨absent, -⟩ | ⟨storage, data, last⟩)
  · cases absent
  · cases data
    exact absurd last (by decide)

end Libcute.Text.StrBuilder
