import Mathlib.Data.List.Perm.Basic
import Mathlib.Data.List.Pairwise

/-!
# Finite maps as association lists

A finite map over keys that a test `same` identifies is a list of entries no
two of which have the same key.  `insert` changes the value of a stored key
and keeps the key itself; `erase` drops the entry of a key.

`replay` runs a history of insertions, newest first.  Its lookup is the
newest insertion of the key, and it has one entry for every distinct key of
the history.
-/

namespace Libcute.Library.AssocList

variable {Key Value : Type} {same : Key → Key → Bool}
  {entries entries' : List (Key × Value)} {key key' : Key} {value : Value}

/-- The test identifies keys as an equivalence does. -/
def Identifies (same : Key → Key → Bool) : Prop :=
  Equivalence fun left right => same left right = true

/-- The value of a key. -/
def lookup
    (same : Key → Key → Bool) (entries : List (Key × Value)) (key : Key) :
    Option Value :=
  (entries.find? fun entry => same entry.1 key).map Prod.snd

/-- Change the value of a stored key, or store a new key. -/
def insert
    (same : Key → Key → Bool) (entries : List (Key × Value))
    (key : Key) (value : Value) : List (Key × Value) :=
  if entries.any fun entry => same entry.1 key then
    entries.map fun entry =>
      if same entry.1 key then (entry.1, value) else entry
  else
    (key, value) :: entries

/-- Drop the entry of a key. -/
def erase
    (same : Key → Key → Bool) (entries : List (Key × Value)) (key : Key) :
    List (Key × Value) :=
  entries.filter fun entry => !same entry.1 key

/-- No two entries have the same key. -/
def Distinct
    (same : Key → Key → Bool) (entries : List (Key × Value)) : Prop :=
  entries.Pairwise fun left right => same left.1 right.1 = false

/-- The map after a history of insertions, the newest first. -/
def replay
    (same : Key → Key → Bool) (history : List (Key × Value)) :
    List (Key × Value) :=
  history.foldr
    (fun entry entries => insert same entries entry.1 entry.2) []

/-- The newest value that a history gives to a key. -/
def newest
    (same : Key → Key → Bool) (history : List (Key × Value)) (key : Key) :
    Option Value :=
  lookup same history key

/-- One key of every class of a history. -/
def distinctKeys
    (same : Key → Key → Bool) (history : List (Key × Value)) : List Key :=
  (history.map Prod.fst).pwFilter fun left right => same left right = false

/-! ## The test -/

theorem Identifies.congr_right
    (identifies : Identifies same) (equal : same key key' = true)
    (other : Key) : same other key = same other key' := by
  rw [Bool.eq_iff_iff]
  constructor
  · intro first
    exact identifies.trans first equal
  · intro second
    exact identifies.trans second (identifies.symm equal)

theorem Identifies.comm
    (identifies : Identifies same) (left right : Key) :
    same left right = same right left := by
  rw [Bool.eq_iff_iff]
  exact ⟨identifies.symm, identifies.symm⟩

theorem Identifies.congr_left
    (identifies : Identifies same) (equal : same key key' = true)
    (other : Key) : same key other = same key' other := by
  rw [identifies.comm key other, identifies.comm key' other]
  exact identifies.congr_right equal other

/-! ## Lookup -/

theorem lookup_cons (entry : Key × Value) :
    lookup same (entry :: entries) key =
      if same entry.1 key then some entry.2 else lookup same entries key := by
  unfold lookup
  rw [List.find?_cons]
  cases same entry.1 key <;> rfl

theorem lookup_eq_none :
    lookup same entries key = none ↔
      ∀ entry ∈ entries, same entry.1 key = false := by
  simp [lookup]

theorem mem_of_lookup (found : lookup same entries key = some value) :
    ∃ entry ∈ entries, same entry.1 key = true ∧ entry.2 = value := by
  unfold lookup at found
  rcases Option.map_eq_some_iff.mp found with ⟨entry, first, rfl⟩
  have equal := List.find?_some first
  exact ⟨entry, List.mem_of_find?_eq_some first, equal, rfl⟩

/-- In a map every entry is the one found under its key. -/
theorem lookup_of_mem
    (identifies : Identifies same) (distinct : Distinct same entries)
    {entry : Key × Value} (member : entry ∈ entries)
    (equal : same entry.1 key = true) :
    lookup same entries key = some entry.2 := by
  induction entries with
  | nil => simp at member
  | cons first rest induction =>
      rcases List.pairwise_cons.mp distinct with ⟨apart, distinct⟩
      rw [lookup_cons]
      rcases List.mem_cons.mp member with rfl | later
      · rw [if_pos equal]
      · have different : same first.1 key = false := by
          rw [← identifies.congr_right equal]
          exact apart entry later
        rw [different, if_neg (by simp)]
        exact induction distinct later

/-- The order of the entries does not matter. -/
theorem lookup_perm
    (identifies : Identifies same) (distinct : Distinct same entries)
    (perm : entries.Perm entries') :
    lookup same entries' key = lookup same entries key := by
  cases found : lookup same entries' key with
  | none =>
      rw [lookup_eq_none] at found
      symm
      rw [lookup_eq_none]
      intro entry member
      exact found entry (perm.mem_iff.mp member)
  | some value =>
      rcases mem_of_lookup found with ⟨entry, member, equal, rfl⟩
      symm
      exact lookup_of_mem identifies distinct (perm.mem_iff.mpr member) equal

theorem Distinct.perm
    (identifies : Identifies same) (distinct : Distinct same entries)
    (perm : entries.Perm entries') : Distinct same entries' := by
  refine List.Pairwise.perm distinct perm ?_
  intro left right different
  rw [identifies.comm]
  exact different

/-! ## Insertion -/

theorem insert_of_new
    (new : ∀ entry ∈ entries, same entry.1 key = false) :
    insert same entries key value = (key, value) :: entries := by
  unfold insert
  rw [if_neg]
  intro stored
  rcases List.any_eq_true.mp stored with ⟨entry, member, equal⟩
  rw [new entry member] at equal
  contradiction

theorem insert_of_stored
    {entry : Key × Value} (member : entry ∈ entries)
    (equal : same entry.1 key = true) :
    insert same entries key value =
      entries.map fun other =>
        if same other.1 key then (other.1, value) else other := by
  unfold insert
  rw [if_pos (List.any_eq_true.mpr ⟨entry, member, equal⟩)]

/-- What is stored is either stored under a key or not. -/
theorem stored_or_new
    (same : Key → Key → Bool) (entries : List (Key × Value)) (key : Key) :
    (∃ entry ∈ entries, same entry.1 key = true) ∨
      ∀ entry ∈ entries, same entry.1 key = false := by
  by_cases stored : ∃ entry ∈ entries, same entry.1 key = true
  · exact Or.inl stored
  · right
    intro entry member
    rw [← Bool.not_eq_true]
    exact fun equal => stored ⟨entry, member, equal⟩

theorem lookup_change (identifies : Identifies same) :
    lookup same
        (entries.map fun entry =>
          if same entry.1 key then (entry.1, value) else entry) key' =
      (lookup same entries key').map fun old =>
        if same key key' then value else old := by
  induction entries with
  | nil => rfl
  | cons first rest induction =>
      rw [List.map_cons, lookup_cons, lookup_cons, induction]
      by_cases changed : same first.1 key = true
      · rw [if_pos changed, identifies.congr_left changed]
        by_cases here : same key key' = true
        · simp [here]
        · simp [here]
      · rw [if_neg changed]
        by_cases here : same first.1 key' = true
        · have other : same key key' = false := by
            rw [← Bool.not_eq_true]
            intro equal
            rw [← identifies.congr_right equal] at here
            exact changed here
          simp [here, other]
        · simp [here]

/-- Insertion changes the value of its key and of no other. -/
theorem lookup_insert (identifies : Identifies same) :
    lookup same (insert same entries key value) key' =
      if same key key' then some value
      else lookup same entries key' := by
  rcases stored_or_new same entries key with
    ⟨entry, member, equal⟩ | new
  · rw [insert_of_stored member equal, lookup_change identifies]
    by_cases here : same key key' = true
    · cases found : lookup same entries key' with
      | some old => simp [here]
      | none =>
          have missing := lookup_eq_none.mp found entry member
          rw [← identifies.congr_right here, equal] at missing
          contradiction
    · simp [here]
  · rw [insert_of_new new, lookup_cons]

theorem Distinct.insert
    (identifies : Identifies same) (distinct : Distinct same entries) :
    Distinct same (AssocList.insert same entries key value) := by
  rcases stored_or_new same entries key with
    ⟨entry, member, equal⟩ | new
  · rw [insert_of_stored member equal]
    unfold Distinct at distinct ⊢
    rw [List.pairwise_map]
    refine distinct.imp ?_
    intro left right different
    have keeps (other : Key × Value) :
        (if same other.1 key then (other.1, value) else other).1 =
          other.1 := by
      split_ifs <;> rfl
    rw [keeps, keeps]
    exact different
  · rw [insert_of_new new]
    refine List.Pairwise.cons ?_ distinct
    intro entry member
    rw [identifies.comm]
    exact new entry member

theorem insert_perm
    (perm : entries.Perm entries') (key : Key) (value : Value) :
    (insert same entries key value).Perm (insert same entries' key value) := by
  rcases stored_or_new same entries key with
    ⟨entry, member, equal⟩ | new
  · rw [insert_of_stored member equal,
      insert_of_stored (perm.mem_iff.mp member) equal]
    exact perm.map _
  · rw [insert_of_new new, insert_of_new
      fun entry member => new entry (perm.mem_iff.mpr member)]
    exact perm.cons _

/-- Changing the first entry of a map. -/
theorem insert_head
    (identifies : Identifies same) {stored : Key} {old : Value}
    (distinct : Distinct same ((stored, old) :: entries))
    (equal : same stored key = true) :
    insert same ((stored, old) :: entries) key value =
      (stored, value) :: entries := by
  rcases List.pairwise_cons.mp distinct with ⟨apart, _⟩
  rw [insert_of_stored List.mem_cons_self equal, List.map_cons,
    if_pos equal]
  congr 1
  conv_rhs => rw [← List.map_id entries]
  refine List.map_congr_left ?_
  intro entry member
  have different : same entry.1 key = false := by
    rw [identifies.comm, ← identifies.congr_left equal]
    exact apart entry member
  rw [different]
  rfl

theorem length_insert_of_stored
    {entry : Key × Value} (member : entry ∈ entries)
    (equal : same entry.1 key = true) :
    (insert same entries key value).length = entries.length := by
  rw [insert_of_stored member equal, List.length_map]

/-! ## Removal -/

theorem Distinct.erase (distinct : Distinct same entries) :
    Distinct same (AssocList.erase same entries key) :=
  distinct.filter _

/-- Removal drops its key and no other. -/
theorem lookup_erase (identifies : Identifies same) :
    lookup same (erase same entries key) key' =
      if same key key' then none else lookup same entries key' := by
  unfold erase
  induction entries with
  | nil => simp [lookup]
  | cons first rest induction =>
      rw [List.filter_cons, lookup_cons]
      by_cases dropped : same first.1 key = true
      · rw [if_neg (by simp [dropped]), induction,
          identifies.congr_left dropped]
        by_cases here : same key key' = true
        · simp [here]
        · simp [here]
      · rw [if_pos (by simp [dropped]), lookup_cons, induction]
        by_cases here : same first.1 key' = true
        · have other : same key key' = false := by
            rw [← Bool.not_eq_true]
            intro equal
            rw [← identifies.congr_right equal] at here
            exact dropped here
          simp [here, other]
        · simp [here]

theorem erase_perm (perm : entries.Perm entries') (key : Key) :
    (erase same entries key).Perm (erase same entries' key) :=
  perm.filter _

/-- Dropping the first entry of a map. -/
theorem erase_head
    (identifies : Identifies same) {stored : Key} {old : Value}
    (distinct : Distinct same ((stored, old) :: entries))
    (equal : same stored key = true) :
    erase same ((stored, old) :: entries) key = entries := by
  rcases List.pairwise_cons.mp distinct with ⟨apart, _⟩
  unfold erase
  rw [List.filter_cons_of_neg (by simp [equal]), List.filter_eq_self]
  intro entry member
  rw [identifies.comm, ← identifies.congr_left equal, apart entry member]
  rfl

/-! ## Histories -/

theorem replay_cons (entry : Key × Value) (history : List (Key × Value)) :
    replay same (entry :: history) =
      insert same (replay same history) entry.1 entry.2 := rfl

theorem replay_distinct
    (identifies : Identifies same) (history : List (Key × Value)) :
    Distinct same (replay same history) := by
  induction history with
  | nil => exact List.Pairwise.nil
  | cons entry history induction => exact induction.insert identifies

/-- The replayed map answers with the newest insertion of the key. -/
theorem lookup_replay
    (identifies : Identifies same) (history : List (Key × Value))
    (key : Key) :
    lookup same (replay same history) key = newest same history key := by
  induction history with
  | nil => rfl
  | cons entry history induction =>
      rw [replay_cons, lookup_insert identifies, induction]
      exact (lookup_cons entry).symm

/-- A stored key is one that the history inserted. -/
theorem stored_replay_iff
    (identifies : Identifies same) (history : List (Key × Value))
    (key : Key) :
    (∃ entry ∈ replay same history, same entry.1 key = true) ↔
      ∃ entry ∈ history, same entry.1 key = true := by
  have answers := lookup_replay identifies history key
  constructor
  · rintro ⟨entry, member, equal⟩
    rw [lookup_of_mem identifies (replay_distinct identifies history)
      member equal] at answers
    rcases mem_of_lookup answers.symm with ⟨other, inside, same, _⟩
    exact ⟨other, inside, same⟩
  · rintro ⟨entry, member, equal⟩
    cases found : newest same history key with
    | none =>
        have missing := lookup_eq_none.mp found entry member
        rw [equal] at missing
        contradiction
    | some value =>
        rw [found] at answers
        rcases mem_of_lookup answers with ⟨other, inside, same, _⟩
        exact ⟨other, inside, same⟩

/-- The replayed map has one entry for every distinct key. -/
theorem length_replay
    (identifies : Identifies same) (history : List (Key × Value)) :
    (replay same history).length = (distinctKeys same history).length := by
  induction history with
  | nil => rfl
  | cons entry history induction =>
      have transfers : ∀ left middle right : Key,
          same left right = false →
            same left middle = false ∨ same middle right = false := by
        intro left middle right different
        by_cases equal : same left middle = true
        · right
          rw [← identifies.congr_left equal]
          exact different
        · exact Or.inl (by simpa using equal)
      have fresh :
          (∀ other ∈ distinctKeys same history,
              same entry.1 other = false) ↔
            ∀ other ∈ history.map Prod.fst, same entry.1 other = false :=
        List.forall_mem_pwFilter (fun {left middle right} =>
          transfers left middle right) _ _
      rcases stored_or_new same (replay same history) entry.1 with
        ⟨stored, member, equal⟩ | new
      · have repeated :
            ¬ ∀ other ∈ distinctKeys same history,
              same entry.1 other = false := by
          rw [fresh]
          intro none
          rcases (stored_replay_iff identifies history entry.1).mp
            ⟨stored, member, equal⟩ with ⟨other, inside, alike⟩
          have different := none other.1 (List.mem_map_of_mem inside)
          rw [identifies.comm, alike] at different
          contradiction
        rw [replay_cons, length_insert_of_stored member equal, induction]
        unfold distinctKeys at repeated ⊢
        rw [List.map_cons, List.pwFilter_cons_of_neg repeated]
      · have unseen :
            ∀ other ∈ distinctKeys same history,
              same entry.1 other = false := by
          rw [fresh]
          intro other inside
          rcases List.mem_map.mp inside with ⟨first, member, rfl⟩
          rw [identifies.comm, ← Bool.not_eq_true]
          intro alike
          rcases (stored_replay_iff identifies history entry.1).mpr
            ⟨first, member, alike⟩ with ⟨stored, kept, equal⟩
          rw [new stored kept] at equal
          contradiction
        rw [replay_cons, insert_of_new new, List.length_cons, induction]
        unfold distinctKeys at unseen ⊢
        rw [List.map_cons, List.pwFilter_cons_of_pos unseen,
          List.length_cons]

/-! ## Histories with removals -/

/-- A change of a map. -/
inductive Event (Key Value : Type) where
  | stored (key : Key) (value : Value)
  | removed (key : Key)

/-- Make a change. -/
def perform
    (same : Key → Key → Bool) (entries : List (Key × Value)) :
    Event Key Value → List (Key × Value)
  | .stored key value => insert same entries key value
  | .removed key => erase same entries key

/-- The map after a history of changes, the newest first. -/
def contents
    (same : Key → Key → Bool) (history : List (Event Key Value)) :
    List (Key × Value) :=
  history.foldr (fun event entries => perform same entries event) []

/-- What the newest change of a key left there. -/
def remembered
    (same : Key → Key → Bool) : List (Event Key Value) → Key → Option Value
  | [], _ => none
  | .stored key value :: earlier, sought =>
      if same key sought then some value else remembered same earlier sought
  | .removed key :: earlier, sought =>
      if same key sought then none else remembered same earlier sought

/-- The keys that were stored while no equal key was there. -/
def storedKeys
    (same : Key → Key → Bool) : List (Event Key Value) → List Key
  | [] => []
  | .stored key _ :: earlier =>
      if (remembered same earlier key).isSome then storedKeys same earlier
      else key :: storedKeys same earlier
  | .removed _ :: earlier => storedKeys same earlier

/-- All values that were stored. -/
def storedValues : List (Event Key Value) → List Value
  | [] => []
  | .stored _ value :: earlier => value :: storedValues earlier
  | .removed _ :: earlier => storedValues earlier

/-- The map answers with the newest change of the key. -/
theorem lookup_contents
    (identifies : Identifies same) (history : List (Event Key Value))
    (key : Key) :
    lookup same (contents same history) key = remembered same history key := by
  induction history with
  | nil => rfl
  | cons event history induction =>
      cases event with
      | stored other value =>
          rw [remembered, ← induction]
          exact lookup_insert identifies
      | removed other =>
          rw [remembered, ← induction]
          exact lookup_erase identifies

end Libcute.Library.AssocList
