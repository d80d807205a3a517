import Mathlib.Data.List.Basic

/-!
# The longest prefix in a language

A reader that accepts words of a language stops behind the longest prefix of
its text that is a word, or at the start of the text if there is none.
-/

namespace Libcute.Library.LongestPrefix

variable {α : Type} {language inner : List α → Prop} {accept : α → Bool}
  {text front word rest : List α}

/-- The longest prefix of the text that is a word. -/
structure Longest (language : List α → Prop) (text word : List α) : Prop where
  among : language word
  before : word <+: text
  longest : ∀ other, language other → other <+: text →
    other.length ≤ word.length

/-- No prefix of the text is a word. -/
def Lacks (language : List α → Prop) (text : List α) : Prop :=
  ∀ word, language word → ¬ word <+: text

/-- The rest of the text behind the longest word. -/
def Ends (language : List α → Prop) (text rest : List α) : Prop :=
  (∃ word, Longest language text word ∧ text = word ++ rest) ∨
    Lacks language text ∧ rest = text

/-- A prefix whose items are all accepted is not longer than the span. -/
theorem length_le_takeWhile
    (accepted : ∀ a ∈ word, accept a = true) (before : word <+: text) :
    word.length ≤ (text.takeWhile accept).length := by
  rcases before with ⟨rest, rfl⟩
  rw [List.takeWhile_append_of_pos accepted, List.length_append]
  exact Nat.le_add_right _ _

/-- The span of accepted items is the longest word, if all words are spans. -/
theorem Longest.span
    (among : language (text.takeWhile accept))
    (spans : ∀ word, language word → word <+: text →
      ∀ a ∈ word, accept a = true) :
    Longest language text (text.takeWhile accept) where
  among := among
  before := List.takeWhile_prefix accept
  longest other member before :=
    length_le_takeWhile (spans other member before) before

/-- The longest word behind a front that every word has. -/
theorem Longest.behind
    (joins : ∀ word, inner word → language (front ++ word))
    (splits : ∀ word, language word → word <+: front ++ text →
      ∃ tail, inner tail ∧ word = front ++ tail)
    (longest : Longest inner text word) :
    Longest language (front ++ text) (front ++ word) where
  among := joins word longest.among
  before := (List.prefix_append_right_inj front).mpr longest.before
  longest := by
    intro other member before
    rcases splits other member before with ⟨tail, among, rfl⟩
    have shorter := longest.longest tail among
      ((List.prefix_append_right_inj front).mp before)
    rw [List.length_append, List.length_append]
    omega

theorem Lacks.behind
    (splits : ∀ word, language word → word <+: front ++ text →
      ∃ tail, inner tail ∧ word = front ++ tail)
    (lacks : Lacks inner text) : Lacks language (front ++ text) := by
  intro word member before
  rcases splits word member before with ⟨tail, among, rfl⟩
  exact lacks tail among ((List.prefix_append_right_inj front).mp before)

/-- The reader stays at the start exactly when there is no word. -/
theorem Ends.start_iff
    (filled : ∀ word, language word → word ≠ [])
    (ends : Ends language text rest) :
    rest = text ↔ Lacks language text := by
  rcases ends with ⟨word, longest, split⟩ | ⟨lacks, same⟩
  · constructor
    · intro same
      rw [same] at split
      exact absurd (List.self_eq_append_left.mp split)
        (filled word longest.among)
    · intro lacks
      exact absurd longest.before (lacks word longest.among)
  · exact ⟨fun _ => lacks, fun _ => same⟩

end Libcute.Library.LongestPrefix
