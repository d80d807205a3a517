import Mathlib.Data.List.Nodup
import Mathlib.Data.List.Perm.Basic
import Mathlib.Logic.Function.Basic

/-!
# Lists of records with a key

A record that other parts of a state refer to by a key, such as an address,
is kept in a list.  `Unique` says that a key determines the record, `find`
looks a key up, and `update` changes the record of one key in place.
-/

namespace Libcute.Library.KeyedList

variable {Item Key Value : Type} [DecidableEq Key]

/-- No two records have the same key. -/
def Unique (key : Item → Key) (items : List Item) : Prop :=
  (items.map key).Nodup

/-- The record of a key. -/
def find (key : Item → Key) (items : List Item) (name : Key) :
    Option Item :=
  items.find? fun item => key item = name

/-- Change the record of one key. -/
def update
    (key : Item → Key) (items : List Item) (name : Key)
    (change : Item → Item) : List Item :=
  items.map fun item => if key item = name then change item else item

/-- Drop the record of one key. -/
def erase (key : Item → Key) (items : List Item) (name : Key) :
    List Item :=
  items.eraseP fun item => key item = name

/-- A field of the record of a key. -/
def read
    (key : Item → Key) (view : Item → Value) (default : Value)
    (items : List Item) (name : Key) : Value :=
  match find key items name with
  | some item => view item
  | none => default

variable {key : Item → Key} {items : List Item} {item : Item}
  {name : Key} {change : Item → Item}

omit [DecidableEq Key] in
/-- A key determines the record. -/
theorem Unique.eq_of_key
    (unique : Unique key items) {left right : Item}
    (leftMember : left ∈ items) (rightMember : right ∈ items)
    (same : key left = key right) : left = right :=
  List.inj_on_of_nodup_map unique leftMember rightMember same

theorem find_of_mem
    (unique : Unique key items) (member : item ∈ items) :
    find key items (key item) = some item := by
  unfold find
  cases found : items.find? fun other => key other = key item with
  | none =>
      have missing := List.find?_eq_none.mp found item member
      simp at missing
  | some other =>
      have same := List.find?_some found
      simp only [decide_eq_true_eq] at same
      rw [unique.eq_of_key (List.mem_of_find?_eq_some found) member same]

theorem mem_of_find (found : find key items name = some item) :
    item ∈ items ∧ key item = name := by
  have same := List.find?_some found
  exact ⟨List.mem_of_find?_eq_some found, by simpa using same⟩

theorem mem_update {other : Item} :
    other ∈ update key items name change ↔
      ∃ item ∈ items,
        (if key item = name then change item else item) = other := by
  simp [update]

/-- Looking up the changed record. -/
theorem find_update
    (found : find key items name = some item)
    (keeps : key (change item) = key item) :
    find key (update key items name change) name =
      some (change item) := by
  unfold find update at *
  induction items with
  | nil => simp at found
  | cons first rest hypothesis =>
      rw [List.find?_cons] at found
      rw [List.map_cons, List.find?_cons]
      by_cases here : key first = name
      · simp only [here, decide_true] at found
        cases found
        rw [here] at keeps
        simp [here, keeps]
      · simp only [here, decide_false] at found
        simp only [here, if_false, decide_false]
        exact hypothesis found

/-- The other records stay as they are. -/
theorem find_update_of_ne
    {other : Key} (different : other ≠ name)
    (keeps : ∀ item, key (change item) = key item) :
    find key (update key items name change) other =
      find key items other := by
  unfold find update
  induction items with
  | nil => rfl
  | cons first rest hypothesis =>
      rw [List.map_cons, List.find?_cons, List.find?_cons, hypothesis]
      by_cases here : key first = name
      · have elsewhere : name ≠ other := fun same => different same.symm
        simp [here, keeps, elsewhere]
      · simp [here]

/-- Looking any record up after a change. -/
theorem find_update_eq
    (keeps : ∀ item, key (change item) = key item) (other : Key) :
    find key (update key items name change) other =
      (find key items other).map fun item =>
        if other = name then change item else item := by
  by_cases here : other = name
  · subst here
    cases found : find key items other with
    | some item =>
        rw [find_update found (keeps item)]
        simp
    | none =>
        unfold find update at *
        rw [List.find?_eq_none] at found
        rw [Option.map_none, List.find?_eq_none]
        intro item member
        rcases List.mem_map.mp member with ⟨old, oldMember, rfl⟩
        have absent := found old oldMember
        simp only [decide_eq_true_eq] at absent ⊢
        simp [absent]
  · rw [find_update_of_ne here keeps]
    simp [here]

/-- What a change does not touch is the same for the whole list. -/
theorem map_update
    (view : Item → Value) (keeps : ∀ item, view (change item) = view item) :
    (update key items name change).map view = items.map view := by
  unfold update
  rw [List.map_map]
  apply List.map_congr_left
  intro item member
  simp only [Function.comp_apply]
  split_ifs
  · exact keeps item
  · rfl

/-- A change that keeps the keys keeps them unique. -/
theorem Unique.update
    (unique : Unique key items)
    (keeps : ∀ item, key (change item) = key item) :
    Unique key (update key items name change) := by
  unfold Unique
  rw [map_update key keeps]
  exact unique

/-- A property of all records holds after a change that preserves it. -/
theorem forall_update
    {Holds : Item → Prop} (every : ∀ item ∈ items, Holds item)
    (changed : ∀ item ∈ items, key item = name →
      Holds item → Holds (change item)) :
    ∀ item ∈ update key items name change, Holds item := by
  intro other member
  rcases mem_update.mp member with ⟨item, itemMember, rfl⟩
  split_ifs with here
  · exact changed item itemMember here (every item itemMember)
  · exact every item itemMember

/-! ## Erasing -/

theorem perm_cons_erase (found : find key items name = some item) :
    items.Perm (item :: erase key items name) := by
  unfold find erase at *
  induction items with
  | nil => simp at found
  | cons first rest hypothesis =>
      rw [List.find?_cons] at found
      rw [List.eraseP_cons]
      by_cases here : key first = name
      · simp only [here, decide_true, Option.some.injEq] at found
        subst found
        simp [here]
      · simp only [here, decide_false] at found ⊢
        exact ((hypothesis found).cons first).trans
          (List.Perm.swap _ _ _)

theorem Unique.erase (unique : Unique key items) (name : Key) :
    Unique key (erase key items name) :=
  List.Nodup.sublist (List.eraseP_sublist.map key) unique

theorem mem_erase_of_ne
    (member : item ∈ items) (different : key item ≠ name) :
    item ∈ erase key items name :=
  (List.mem_eraseP_of_neg (by simpa using different)).mpr member

/-- The record of the key is gone. -/
theorem Unique.key_ne_of_mem_erase
    (unique : Unique key items)
    (member : item ∈ KeyedList.erase key items name) :
    key item ≠ name := by
  rintro rfl
  have inItems : item ∈ items := List.mem_of_mem_eraseP member
  have split := (perm_cons_erase (find_of_mem unique inItems)).map key
  have nodup := split.nodup_iff.mp unique
  rw [List.map_cons, List.nodup_cons] at nodup
  exact nodup.1 (List.mem_map_of_mem member)

theorem mem_of_mem_erase (member : item ∈ erase key items name) :
    item ∈ items :=
  List.mem_of_mem_eraseP member

theorem Unique.mem_erase_iff (unique : Unique key items) :
    item ∈ KeyedList.erase key items name ↔
      item ∈ items ∧ key item ≠ name := by
  constructor
  · intro member
    exact ⟨mem_of_mem_erase member, unique.key_ne_of_mem_erase member⟩
  · rintro ⟨member, different⟩
    exact mem_erase_of_ne member different

theorem find_erase_of_ne {other : Key} (different : other ≠ name) :
    find key (erase key items name) other = find key items other := by
  unfold find erase
  induction items with
  | nil => rfl
  | cons first rest hypothesis =>
      rw [List.eraseP_cons]
      by_cases here : key first = name
      · have elsewhere : key first ≠ other := by
          rw [here]
          exact different.symm
        simp [here, different.symm]
      · simp only [here, decide_false, cond_false]
        rw [List.find?_cons, List.find?_cons, hypothesis]

/-- Erasing commutes with a map that keeps the keys. -/
theorem map_erase {Other : Type} (otherKey : Other → Key)
    (view : Item → Other) (keeps : ∀ item, otherKey (view item) = key item) :
    (erase key items name).map view =
      erase otherKey (items.map view) name := by
  unfold erase
  induction items with
  | nil => rfl
  | cons first rest hypothesis =>
      rw [List.map_cons, List.eraseP_cons, List.eraseP_cons, keeps]
      by_cases here : key first = name
      · simp [here]
      · simp only [here, decide_false, cond_false, List.map_cons,
          hypothesis]

/-- Changing the record of a key only concerns that record. -/
theorem perm_update (change : Item → Item)
    (unique : Unique key items) (member : item ∈ items) :
    (update key items (key item) change).Perm
      (change item :: erase key items (key item)) := by
  have split := perm_cons_erase (find_of_mem unique member)
  have rest : (erase key items (key item)).map (fun other =>
      if key other = key item then change other else other) =
      erase key items (key item) := by
    rw [List.map_congr_left (g := id), List.map_id]
    intro other otherMember
    exact if_neg (unique.key_ne_of_mem_erase otherMember)
  have changed := split.map fun other =>
    if key other = key item then change other else other
  rwa [List.map_cons, if_pos rfl, rest] at changed

/-! ## Reading a field -/

section Read

variable {view : Item → Value} {default : Value}

theorem read_of_mem
    (unique : Unique key items) (member : item ∈ items) :
    read key view default items (key item) = view item := by
  unfold read
  rw [find_of_mem unique member]

theorem read_cons (view : Item → Value) (default : Value)
    (item : Item) (items : List Item) :
    read key view default (item :: items) =
      Function.update (read key view default items)
        (key item) (view item) := by
  funext name
  unfold read find
  rw [List.find?_cons]
  by_cases here : key item = name
  · subst here
    simp
  · have elsewhere : name ≠ key item := fun same => here same.symm
    simp [here, elsewhere]

/-- Changing a field of one record updates the field as a function. -/
theorem read_update {value : Value}
    (present : name ∈ items.map key)
    (keeps : ∀ item, key (change item) = key item)
    (written : ∀ item, view (change item) = value) :
    read key view default (update key items name change) =
      Function.update (read key view default items) name value := by
  funext other
  unfold read
  by_cases here : other = name
  · subst here
    cases found : find key items other with
    | none =>
        rcases List.mem_map.mp present with ⟨item, member, same⟩
        have missing := List.find?_eq_none.mp found item member
        simp [same] at missing
    | some item =>
        rw [find_update found (keeps item), Function.update_self]
        exact written item
  · rw [find_update_of_ne here keeps, Function.update_of_ne here]

/-- Other fields are not affected by a change. -/
theorem read_update_of_view
    (keeps : ∀ item, key (change item) = key item)
    (same : ∀ item, view (change item) = view item) :
    read key view default (update key items name change) =
      read key view default items := by
  funext other
  unfold read
  by_cases here : other = name
  · subst here
    cases found : find key items other with
    | none =>
        rw [find_update_eq keeps, found]
        rfl
    | some item =>
        rw [find_update found (keeps item)]
        exact same item
  · rw [find_update_of_ne here keeps]

theorem read_erase_of_ne {other : Key} (different : other ≠ name) :
    read key view default (erase key items name) other =
      read key view default items other := by
  unfold read
  rw [find_erase_of_ne different]

end Read

end Libcute.Library.KeyedList
