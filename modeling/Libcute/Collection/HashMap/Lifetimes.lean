import Libcute.Collection.HashMap.Pointers

/-!
# The lifetime of the blocks of a hash map

In every run the blocks that were obtained and not given back are those that
the map has pointers to, and `cu_HashMap_destroy` gives back every one of them
once.  It also passes the null pointer to the allocator, twice for each bucket
that an insertion without memory left behind.

A pointer that `cu_HashMap_get` returned is good until the map is destroyed:
later insertions may overwrite the value, but they do not move it.
-/

namespace Libcute.Collection.HashMap

open Libcute.Core.Interface
open Libcute.Core.Size
open Libcute.Library.AssocList
open Libcute.Library.Ledger
open Libcute.Library.Transition

variable {K V : Type} {map moved fresh : Map (Cell K) (Cell V)}
  {owned owned' : Owned K V} {key : Cell K} {value : V} {answers : Answers}
  {error : Option Error}

/-! ## Tables with pointers -/

theorem Blind.probe_contents
    (blind : Blind map) (sought : Option (Cell K)) (hash : Nat) :
    map.contents.probe (sought.map Cell.content) hash =
      map.probe sought hash := by
  have stops :
      map.contents.stops (sought.map Cell.content) hash =
        map.stops sought hash := by
    funext idx
    unfold Map.stops
    rw [contents_bucket]
    cases map.buckets[idx]? with
    | none => rfl
    | some b =>
        dsimp only [Option.map_some, Bucket.contents]
        rw [blind.keyEquals_contents]
  unfold Map.probe
  rw [stops]
  rfl

theorem Blind.nullSafe
    (blind : Blind map) (nullSafe : NullSafe map.contents) :
    NullSafe map := by
  intro key
  rw [← blind.keyEquals_contents none (some key),
    ← blind.keyEquals_contents (some key) none]
  exact nullSafe key.content

theorem Blind.same_contents (blind : Blind map) (left right : Cell K) :
    map.contents.same left.content right.content = map.same left right :=
  blind.keyEquals_contents (some left) (some right)

theorem Blind.lawful
    (blind : Blind map) (lawful : Lawful map.contents) : Lawful map where
  identifies := by
    rcases lawful.identifies with ⟨reflexive, symmetric, transitive⟩
    constructor
    · intro key
      rw [← blind.same_contents]
      exact reflexive _
    · intro left right equal
      rw [← blind.same_contents] at equal ⊢
      exact symmetric equal
    · intro left middle right first second
      rw [← blind.same_contents] at first second ⊢
      exact transitive first second
  hashes := by
    intro left right equal
    rw [← blind.same_contents] at equal
    rw [← blind.hashOf_contents, ← blind.hashOf_contents]
    exact lawful.hashes _ _ equal

/-- The invariant of the contents is that of the map with its pointers. -/
theorem Blind.table
    (blind : Blind map) (table : Table map.contents) : Table map where
  keyLayout := table.keyLayout
  valueLayout := table.valueLayout
  size := by
    have size := table.size
    simpa [Map.contents] using size
  power := table.power
  live := fun b member => table.live b.contents (List.mem_map_of_mem member)
  blank := by
    intro b member unused
    exact Option.map_eq_none_iff.mp
      (table.blank b.contents (List.mem_map_of_mem member) unused)
  paired := by
    intro b member
    have paired := table.paired b.contents (List.mem_map_of_mem member)
    simpa [Bucket.contents] using paired
  hashed := by
    intro b member key holds
    rw [← blind.hashOf_contents]
    exact table.hashed b.contents (List.mem_map_of_mem member) key.content
      (by simp [Bucket.contents, holds])
  located := by
    intro idx b key bucket holds
    rw [← blind.hashOf_contents, ← blind.probe_contents]
    exact table.located idx b.contents key.content
      (by rw [contents_bucket, bucket]; rfl)
      (by simp [Bucket.contents, holds])
  silent := by
    rintro ⟨b, member, used, empty⟩
    exact blind.nullSafe (table.silent
      ⟨b.contents, List.mem_map_of_mem member, used,
        by simp [Bucket.contents, empty]⟩)

/-! ## Copies -/

theorem copies_perm
    (map : Map (Cell K) (Cell V)) {entries entries' : List (Cell K × Cell V)}
    (perm : entries'.Perm entries) :
    (Owned.copies map entries').Perm (Owned.copies map entries) :=
  perm.flatMap_right _

theorem copies_append (map : Map (Cell K) (Cell V))
    (entries entries' : List (Cell K × Cell V)) :
    Owned.copies map (entries ++ entries') =
      Owned.copies map entries ++ Owned.copies map entries' :=
  List.flatMap_append

/-- The entries of the table before and after a bucket is replaced. -/
theorem entries_replaced
    {idx : Nat} {b : Bucket (Cell K) (Cell V)}
    (bucket : map.buckets[idx]? = some b)
    (filled : Bucket (Cell K) (Cell V)) :
    ∃ rest,
      map.entries.Perm (b.entry.toList ++ rest) ∧
        ((map.buckets.set idx filled).filterMap Bucket.entry).Perm
          (filled.entry.toList ++ rest) := by
  have perms := buckets_set_perm bucket filled
  refine ⟨(map.buckets.eraseIdx idx).filterMap Bucket.entry, ?_, ?_⟩
  · refine (perms.1.filterMap Bucket.entry).trans ?_
    rw [List.filterMap_cons]
    cases b.entry <;> exact List.Perm.refl _
  · refine (perms.2.filterMap Bucket.entry).trans ?_
    rw [List.filterMap_cons]
    cases filled.entry <;> exact List.Perm.refl _

/-- Every entry is still there, with the pointers it had. -/
def Stays (map moved : Map (Cell K) (Cell V)) : Prop :=
  ∀ entry ∈ map.entries, ∃ entry' ∈ moved.entries,
    entry'.1 = entry.1 ∧ entry'.2.ptr = entry.2.ptr

theorem Stays.of_perm (perm : moved.entries.Perm map.entries) :
    Stays map moved := by
  intro entry member
  exact ⟨entry, perm.mem_iff.mpr member, rfl, rfl⟩

theorem Stays.trans
    (first : Stays map moved) (second : Stays moved fresh) :
    Stays map fresh := by
  intro entry member
  rcases first entry member with ⟨middle, inside, key, value⟩
  rcases second middle inside with ⟨last, inside', key', value'⟩
  exact ⟨last, inside', key'.trans key, value'.trans value⟩

/-! ## The calls -/

/-- The books of a map: what it holds is what it has pointers to. -/
def Balanced (owned : Owned K V) : Prop :=
  Settles [] owned.trace owned.live

theorem rehash_eq_some
    {newCap : Nat} {answer : Option Nat}
    (result : owned.rehash newCap answer = some (none, owned')) :
    ∃ mem,
      alloc answer (tableLayout (Map.rehashCapacity newCap)) = some mem ∧
        (owned.map.renewed (Map.rehashCapacity newCap)).moveBuckets
            owned.map.buckets = some owned'.map ∧
        owned'.table = some mem.ptr ∧
        owned'.trace = owned.trace ++ .obtain mem ::
          if owned.table.isSome then [.release owned.tableBlock] else [] := by
  unfold Owned.rehash at result
  dsimp only at result
  cases served : alloc answer
      (tableLayout (Map.rehashCapacity newCap)) with
  | none =>
      rw [served] at result
      cases result
  | some mem =>
      rw [served] at result
      rcases Option.map_eq_some_iff.mp result with ⟨map, moves, equal⟩
      cases equal
      exact ⟨mem, rfl, moves, rfl, rfl⟩

/-- A rehash that keeps the entries exchanges the tables. -/
theorem Balanced.rehash
    (balanced : Balanced owned) {newCap : Nat} {answer : Option Nat}
    (result : owned.rehash newCap answer = some (none, owned'))
    (alike : Alike owned.map owned'.map)
    (entries : owned'.map.entries.Perm owned.map.entries)
    (capacity : owned'.map.capacity = Map.rehashCapacity newCap) :
    Balanced owned' := by
  rcases rehash_eq_some result with ⟨mem, served, _, table, trace⟩
  have size := (alloc_eq_some served).2
  have block : owned'.tableBlock = some mem := by
    unfold Owned.tableBlock
    rw [table, Option.map_some, capacity]
    unfold tableLayout at size
    rw [Layout.create_elemSize _ (by decide)] at size
    rw [← size]
  have held : (mem :: owned.live).Perm
      (owned.tableBlock.toList ++ owned'.live) := by
    unfold Owned.live
    rw [block]
    have copies : (Owned.copies owned'.map owned'.map.entries).Perm
        (Owned.copies owned.map owned.map.entries) := by
      refine (copies_perm owned'.map entries).trans ?_
      unfold Owned.copies
      rw [alike.keyLayout, alike.valueLayout]
    rw [Option.toList_some]
    refine List.Perm.trans ?_ (List.Perm.append_left _
      (copies.symm.cons mem))
    exact (List.perm_middle).symm
  unfold Balanced at balanced ⊢
  rw [trace]
  refine balanced.append (.obtain ?_)
  cases absent : owned.table with
  | none =>
      have null : owned.tableBlock = none := by
        unfold Owned.tableBlock
        rw [absent]
        rfl
      rw [null] at held
      exact .done held
  | some ptr =>
      have old : ∃ mem, owned.tableBlock = some mem := by
        unfold Owned.tableBlock
        rw [absent]
        exact ⟨_, rfl⟩
      rcases old with ⟨old, known⟩
      rw [known] at held ⊢
      exact .release held (.done (List.Perm.refl _))

/-- What storing a pair in a table does. -/
structure Stored (owned owned' : Owned K V) : Prop where
  balanced : Balanced owned → Balanced owned'
  stays : Stays owned.map owned'.map
  alike : Alike owned.map owned'.map
  table : owned'.table = owned.table

/-- A bucket is replaced: what follows for the entries and the books. -/
theorem stored_of_set
    {idx : Nat} {b : Bucket (Cell K) (Cell V)}
    (bucket : owned.map.buckets[idx]? = some b)
    (filled : Bucket (Cell K) (Cell V)) (length : Nat)
    (events : List (Event Slice))
    (kept : ∀ entry, b.entry = some entry →
      ∃ entry', filled.entry = some entry' ∧ entry'.1 = entry.1 ∧
        entry'.2.ptr = entry.2.ptr)
    (settles : ∀ rest,
      Settles (Owned.copies owned.map b.entry.toList ++ rest) events
        (Owned.copies owned.map filled.entry.toList ++ rest)) :
    Stored owned ⟨{ owned.map with
        buckets := owned.map.buckets.set idx filled, length := length },
      owned.table, owned.trace ++ events⟩ where
  balanced := by
    intro balanced
    rcases entries_replaced bucket filled with ⟨rest, before, after⟩
    unfold Balanced at balanced ⊢
    have held := (copies_perm owned.map before).append_left
      owned.tableBlock.toList
    have left := (copies_perm owned.map after).append_left
      owned.tableBlock.toList
    rw [copies_append] at held left
    refine (balanced.to_perm held).append ?_
    refine ((settles (owned.tableBlock.toList ++
      Owned.copies owned.map rest)).from_perm ?_).to_perm
        (List.Perm.trans ?_ left.symm)
    · exact List.perm_append_comm_assoc _ _ _
    · exact List.perm_append_comm_assoc _ _ _
  stays := by
    rcases entries_replaced bucket filled with ⟨rest, before, after⟩
    intro entry member
    rcases List.mem_append.mp (before.mem_iff.mp member) with here | there
    · rcases kept entry (Option.mem_toList.mp here) with
        ⟨entry', fills, key, ptr⟩
      refine ⟨entry', after.mem_iff.mpr ?_, key, ptr⟩
      exact List.mem_append_left _ (Option.mem_toList.mpr fills)
    · exact ⟨entry, after.mem_iff.mpr (List.mem_append_right _ there),
        rfl, rfl⟩
  alike := ⟨rfl, rfl, rfl, rfl, rfl⟩
  table := rfl

/-- Overwriting a value leaves the pointers as they are. -/
theorem stored_of_overwrite
    {idx : Nat} {b : Bucket (Cell K) (Cell V)}
    (bucket : owned.map.buckets[idx]? = some b) (value : V) :
    Stored owned { owned with
      map := { owned.map with
        buckets := owned.map.buckets.set idx
          { b with
            value := b.value.map fun cell =>
              { cell with content := value } } } } := by
  have stored := stored_of_set bucket
    { b with
      value := b.value.map fun cell => { cell with content := value } }
    owned.map.length [] ?_ ?_
  · rw [List.append_nil] at stored
    exact stored
  · rintro ⟨held, cell⟩ entry
    rcases Bucket.entry_eq_some.mp entry with ⟨holds, carries⟩
    refine ⟨(held, { cell with content := value }), ?_, rfl, rfl⟩
    simp [Bucket.entry, holds, carries]
  · intro rest
    refine .done (List.Perm.append_right rest ?_)
    cases holds : b.key <;> cases carries : b.value <;>
      simp [Bucket.entry, holds, carries, Owned.copies]

/-- A bucket without a key is filled. -/
theorem stored_of_fill
    {idx : Nat} {b : Bucket (Cell K) (Cell V)}
    (bucket : owned.map.buckets[idx]? = some b) (noKey : b.key = none)
    (filled : Bucket (Cell K) (Cell V)) (length : Nat)
    (events : List (Event Slice))
    (settles : ∀ rest,
      Settles rest events
        (Owned.copies owned.map filled.entry.toList ++ rest)) :
    Stored owned ⟨{ owned.map with
        buckets := owned.map.buckets.set idx filled, length := length },
      owned.table, owned.trace ++ events⟩ := by
  have entry : b.entry = none := Bucket.entry_eq_none noKey
  refine stored_of_set bucket filled length events ?_ ?_
  · intro other holds
    rw [entry] at holds
    contradiction
  · rw [entry]
    exact settles

/-- A block for a copy has the size of its layout. -/
theorem alloc_copy
    {answer : Option Nat} {layout : Layout} {mem : Slice}
    (valid : ¬ layout.Invalid)
    (served : alloc answer
      (Layout.create layout.elemSize layout.alignment) = some mem) :
    mem = ⟨mem.ptr, layout.elemSize⟩ := by
  have length := (alloc_eq_some served).2
  rw [Layout.create_elemSize _ fun zero => valid (Or.inr zero)] at length
  rw [← length]

/-- The step lemma for storing a pair. -/
theorem Owned.place_stored
    (table : Table owned.map)
    (result : owned.place key value answers = some (error, owned')) :
    Stored owned owned' := by
  unfold Owned.place at result
  dsimp only at result
  split at result
  · contradiction
  rename_i idx _
  split at result
  · contradiction
  rename_i b bucket
  split at result
  · cases result
    exact stored_of_overwrite bucket value
  rename_i vacant
  have member := List.mem_of_getElem? bucket
  have unused : b.used = false := by
    by_contra used
    exact vacant ⟨by simpa using used, table.live b member⟩
  have noKey := table.blank b member unused
  have blank : ∀ rest : List Slice,
      rest.Perm (Owned.copies owned.map
        (Bucket.mk true false (owned.map.hashOf key) b.key
          b.value).entry.toList ++ rest) := by
    intro rest
    simp [Bucket.entry, noKey, Owned.copies]
  split at result
  · cases result
    have stored := stored_of_fill bucket noKey
      ⟨true, false, owned.map.hashOf key, b.key, b.value⟩
      owned.map.length [] fun rest => .done (blank rest)
    rw [List.append_nil] at stored
    exact stored
  rename_i keyMem gotKey
  split at result
  · cases result
    exact stored_of_fill bucket noKey _ owned.map.length _ fun rest =>
      .obtain (.release (List.Perm.refl _) (.done (blank rest)))
  rename_i valueMem gotValue
  cases result
  refine stored_of_fill bucket noKey _ _ _ fun rest =>
    .obtain (.obtain (.done ?_))
  rw [alloc_copy table.keyLayout gotKey, alloc_copy table.valueLayout gotValue]
  exact List.Perm.swap _ _ _

/-- There is no table, as after `cu_HashMap_destroy`. -/
structure Gone (owned : Owned K V) : Prop where
  lawful : Lawful owned.map.contents
  nullSafe : NullSafe owned.map.contents
  keyLayout : ¬ owned.map.keyLayout.Invalid
  valueLayout : ¬ owned.map.valueLayout.Invalid
  buckets : owned.map.buckets = []
  capacity : owned.map.capacity = 0
  length : owned.map.length = 0
  table : owned.table = none

/-- What holds of a map after any calls. -/
structure Kept (owned : Owned K V) : Prop where
  blind : Blind owned.map
  state : Sound owned.map.contents ∧ owned.table.isSome ∨ Gone owned
  balanced : Balanced owned

/-- What an insertion that returns does. -/
structure Inserts (owned owned' : Owned K V) : Prop where
  kept : Kept owned'
  stays : Stays owned.map owned'.map
  alike : Alike owned.map owned'.map
  table : owned.table.isSome → owned'.table.isSome

/-- What a rehash that returns does. -/
structure Rehashes (owned owned' : Owned K V) : Prop where
  balanced : Balanced owned'
  stays : Stays owned.map owned'.map
  alike : Alike owned.map owned'.map
  invariant : Table owned'.map
  table : owned'.table.isSome

theorem Kept.rehash
    (kept : Kept owned) {answer : Option Nat}
    (result : owned.rehash (sizeMul owned.map.capacity 2) answer =
      some (none, owned')) : Rehashes owned owned' := by
  rcases rehash_eq_some result with ⟨mem, served, moves, table, _⟩
  have given := (alloc_eq_some served).1
  have something : owned'.table.isSome := by
    rw [table]
    rfl
  rcases kept.state with ⟨sound, _⟩ | gone
  · have grants : owned.map.roomGranted ⟨answer.isSome, true, true⟩ = true :=
      given
    rcases (kept.blind.table sound.table).rehash_granted
        (kept.blind.lawful sound.lawful) grants with
      ⟨map, used, rehashes, _, becomes⟩
    have same : map = owned'.map := by
      unfold Map.rehash at rehashes
      have granted' : ¬ granted answer.isSome (tableLayout
          (Map.rehashCapacity (sizeMul owned.map.capacity 2))) = false := by
        simp [given]
      rw [if_neg granted'] at rehashes
      rcases Option.map_eq_some_iff.mp rehashes with ⟨other, moves', equal⟩
      cases equal
      exact Option.some.inj (moves'.symm.trans moves)
    subst same
    exact ⟨kept.balanced.rehash result becomes.alike becomes.entries
        becomes.capacity,
      .of_perm becomes.entries, becomes.alike, becomes.table, something⟩
  · rw [gone.buckets] at moves
    have renewed := Option.some.inj moves
    rw [gone.capacity] at renewed
    have power : ∃ exponent ≤ 58,
        Map.rehashCapacity (sizeMul 0 2) = 2 ^ exponent :=
      ⟨4, by decide, by decide⟩
    have moved := renewed_moved owned.map gone.keyLayout gone.valueLayout power
    rw [renewed] at moved
    have empty : owned.map.entries = [] := by
      unfold Map.entries
      rw [gone.buckets]
      rfl
    have entries : owned'.map.entries.Perm owned.map.entries := by
      rw [empty]
      exact moved.entries
    have capacity : owned'.map.capacity =
        Map.rehashCapacity (sizeMul owned.map.capacity 2) := by
      rw [gone.capacity, ← renewed]
      rfl
    exact ⟨kept.balanced.rehash result moved.alike entries capacity,
      .of_perm entries, moved.alike, moved.table, something⟩

/-- The table that an insertion allocates for a map without one. -/
theorem Gone.sound
    (gone : Gone owned) (blind : Blind owned.map) {answer : Option Nat}
    {moved : Owned K V}
    (rehashes : owned.rehash (sizeMul owned.map.capacity 2) answer =
      some (none, moved))
    (result : moved.place key value answers = some (error, owned')) :
    Sound owned'.map.contents := by
  rcases rehash_eq_some rehashes with ⟨mem, _, moves, _, _⟩
  rw [gone.buckets, gone.capacity] at moves
  have renewed := Option.some.inj moves
  have blind' := blind.rehash_functions rehashes
  have places := blind'.place_contents key value answers
  rw [result, Option.map_some, ← renewed, renewed_contents] at places
  have power : ∃ exponent ≤ 58,
      Map.rehashCapacity (sizeMul 0 2) = 2 ^ exponent :=
    ⟨4, by decide, by decide⟩
  have moved := renewed_moved owned.map.contents gone.keyLayout
    gone.valueLayout power
  refine (moved.table.placed (moved.alike.lawful gone.lawful)
    (moved.alike.nullSafe gone.nullSafe) places.symm).sound
      (moved.alike.lawful gone.lawful) (moved.alike.nullSafe gone.nullSafe) ?_
  rw [moved.length]
  exact (by decide : 0 + 1 < Map.rehashCapacity (sizeMul 0 2))

theorem rehash_eq_error
    {newCap : Nat} {answer : Option Nat} {failed : Error}
    (result : owned.rehash newCap answer = some (some failed, owned')) :
    owned' = owned := by
  unfold Owned.rehash at result
  dsimp only at result
  split at result
  · cases result
    rfl
  · rcases Option.map_eq_some_iff.mp result with ⟨map, _, equal⟩
    cases equal

theorem Kept.keyLayout (kept : Kept owned) :
    ¬ owned.map.keyLayout.Invalid := by
  rcases kept.state with ⟨sound, _⟩ | gone
  · exact sound.table.keyLayout
  · exact gone.keyLayout

theorem Kept.valueLayout (kept : Kept owned) :
    ¬ owned.map.valueLayout.Invalid := by
  rcases kept.state with ⟨sound, _⟩ | gone
  · exact sound.table.valueLayout
  · exact gone.valueLayout

/-- The step lemma for insertions. -/
theorem Kept.insert
    (kept : Kept owned)
    (result : owned.insert key value answers = some (error, owned')) :
    Inserts owned owned' := by
  have follows := kept.blind.insert_contents key value answers
  rw [result, Option.map_some] at follows
  unfold Owned.insert at result
  rw [if_neg kept.keyLayout, if_neg kept.valueLayout] at result
  split at result
  · cases rehashes : owned.rehash (sizeMul owned.map.capacity 2)
        answers.buckets with
    | none =>
        rw [rehashes] at result
        contradiction
    | some outcome =>
        rcases outcome with ⟨_ | failed, moved⟩
        · rw [rehashes] at result
          have moves := kept.rehash rehashes
          have stored := Owned.place_stored moves.invariant result
          have table : owned'.table.isSome := by
            rw [stored.table]
            exact moves.table
          refine ⟨⟨?_, Or.inl ⟨?_, table⟩, stored.balanced moves.balanced⟩,
            moves.stays.trans stored.stays, moves.alike.trans stored.alike,
            fun _ => table⟩
          · have alike := moves.alike.trans stored.alike
            exact kept.blind.congr alike.hashFn alike.equalsFn
          · rcases kept.state with ⟨sound, _⟩ | gone
            · exact (sound.inserted follows.symm).sound sound
            · exact gone.sound kept.blind rehashes result
        · rw [rehashes] at result
          cases result
          rw [rehash_eq_error rehashes]
          exact ⟨kept, .of_perm (List.Perm.refl _), Alike.refl _, id⟩
  · rename_i sparse
    rcases kept.state with ⟨sound, table⟩ | gone
    · have stored :=
        Owned.place_stored (kept.blind.table sound.table) result
      have table' : owned'.table.isSome := by
        rw [stored.table]
        exact table
      exact ⟨⟨kept.blind.congr stored.alike.hashFn stored.alike.equalsFn,
          Or.inl ⟨(sound.inserted follows.symm).sound sound, table'⟩,
          stored.balanced kept.balanced⟩,
        stored.stays, stored.alike, fun _ => table'⟩
    · exact absurd (by simp [Map.rehashDue, gone.capacity]) sparse

/-! ## Destruction -/

/-- The loop gives back the copies of the buckets it visits. -/
theorem releases_settles
    (map : Map (Cell K) (Cell V)) (buckets : List (Bucket (Cell K) (Cell V)))
    (live : ∀ b ∈ buckets, b.deleted = false)
    (blank : ∀ b ∈ buckets, b.used = false → b.key = none)
    (paired : ∀ b ∈ buckets, b.key.isSome = b.value.isSome)
    (rest : List Slice) :
    Settles (Owned.copies map (buckets.filterMap Bucket.entry) ++ rest)
      (Owned.releases map buckets) rest := by
  induction buckets with
  | nil => exact .done (List.Perm.refl _)
  | cons b buckets induction =>
      have later := induction
        (fun other member => live other (List.mem_cons_of_mem b member))
        (fun other member => blank other (List.mem_cons_of_mem b member))
        (fun other member => paired other (List.mem_cons_of_mem b member))
      have deleted := live b List.mem_cons_self
      have pair := paired b List.mem_cons_self
      unfold Owned.releases
      cases holds : b.key with
      | none =>
          rw [holds] at pair
          have carries : b.value = none := by
            simpa using pair.symm
          rw [List.filterMap_cons, Bucket.entry_eq_none holds, carries]
          by_cases used : b.used = true ∧ b.deleted = false
          · rw [if_pos used]
            exact .null (.null later)
          · rw [if_neg used]
            exact later
      | some key =>
          rw [holds] at pair
          rcases Option.isSome_iff_exists.mp pair.symm with ⟨value, carries⟩
          have used : b.used = true := by
            by_contra unused
            have noKey := blank b List.mem_cons_self (by simpa using unused)
            rw [holds] at noKey
            contradiction
          have entry : b.entry = some (key, value) :=
            Bucket.entry_eq_some.mpr ⟨holds, carries⟩
          rw [List.filterMap_cons, entry, if_pos ⟨used, deleted⟩, carries]
          exact .release (List.Perm.refl _)
            (.release (List.Perm.refl _) later)

/-- The null pointer is given back for the buckets without a key. -/
theorem releases_nulls
    (map : Map (Cell K) (Cell V)) (buckets : List (Bucket (Cell K) (Cell V)))
    (live : ∀ b ∈ buckets, b.deleted = false)
    (blank : ∀ b ∈ buckets, b.used = false → b.key = none)
    (paired : ∀ b ∈ buckets, b.key.isSome = b.value.isSome) :
    (Owned.releases map buckets).count (.release none) +
        2 * (buckets.filterMap Bucket.entry).length =
      2 * buckets.countP Bucket.used := by
  induction buckets with
  | nil => rfl
  | cons b buckets induction =>
      have later := induction
        (fun other member => live other (List.mem_cons_of_mem b member))
        (fun other member => blank other (List.mem_cons_of_mem b member))
        (fun other member => paired other (List.mem_cons_of_mem b member))
      have deleted := live b List.mem_cons_self
      have pair := paired b List.mem_cons_self
      unfold Owned.releases
      cases used : b.used with
      | false =>
          have noKey := blank b List.mem_cons_self used
          rw [List.filterMap_cons, Bucket.entry_eq_none noKey,
            List.countP_cons_of_neg (by simp [used])]
          rw [if_neg (by simp)]
          exact later
      | true =>
          rw [List.countP_cons_of_pos used, if_pos ⟨rfl, deleted⟩,
            List.filterMap_cons]
          cases holds : b.key with
          | none =>
              rw [holds] at pair
              have carries : b.value = none := by
                simpa using pair.symm
              rw [Bucket.entry_eq_none holds, carries]
              have null : block (none : Option (Cell K))
                  map.keyLayout.elemSize = none := rfl
              have null' : block (none : Option (Cell V))
                  map.valueLayout.elemSize = none := rfl
              rw [null, null', List.count_cons_self, List.count_cons_self]
              dsimp only
              omega
          | some key =>
              rw [holds] at pair
              rcases Option.isSome_iff_exists.mp pair.symm with
                ⟨value, carries⟩
              have entry : b.entry = some (key, value) :=
                Bucket.entry_eq_some.mpr ⟨holds, carries⟩
              rw [entry, carries, List.count_cons_of_ne (by simp [block]),
                List.count_cons_of_ne (by simp [block])]
              dsimp only
              rw [List.length_cons]
              omega

/-- Destruction settles the books. -/
theorem Kept.destroy
    (kept : Kept owned) :
    Settles [] owned.destroy.trace [] ∧ Gone owned.destroy := by
  rcases kept.state with ⟨sound, some⟩ | gone
  · have table := kept.blind.table sound.table
    constructor
    · rcases Option.isSome_iff_exists.mp some with ⟨ptr, known⟩
      have settles := releases_settles owned.map owned.map.buckets
        table.live table.blank table.paired owned.tableBlock.toList
      have block : owned.tableBlock = .some
          ⟨ptr, sizeMul owned.map.capacity bucketSize⟩ := by
        unfold Owned.tableBlock
        rw [known]
        rfl
      unfold Owned.destroy
      dsimp only
      refine (kept.balanced.append (settles.from_perm ?_)).append ?_
      · exact List.perm_append_comm
      · rw [block]
        exact .release (List.Perm.refl _) (.done (List.Perm.refl _))
    · have contents :
          owned.destroy.map.contents = { owned.map.contents with
            buckets := [], capacity := 0, length := 0 } := rfl
      have alike : Alike owned.map.contents owned.destroy.map.contents :=
        ⟨rfl, rfl, rfl, rfl, rfl⟩
      exact ⟨alike.lawful sound.lawful, alike.nullSafe sound.nullSafe,
        sound.table.keyLayout, sound.table.valueLayout, rfl, rfl, rfl, rfl⟩
  · have held : owned.live = [] := by
      unfold Owned.live Owned.tableBlock Map.entries
      rw [gone.table, gone.buckets]
      rfl
    have null : owned.tableBlock = none := by
      unfold Owned.tableBlock
      rw [gone.table]
      rfl
    have balanced := kept.balanced
    unfold Balanced at balanced
    rw [held] at balanced
    constructor
    · unfold Owned.destroy
      dsimp only
      rw [gone.buckets, null]
      refine (balanced.append (.done (List.Perm.refl _))).append
        (.null (.done (List.Perm.refl _)))
    · have alike : Alike owned.map.contents owned.destroy.map.contents :=
        ⟨rfl, rfl, rfl, rfl, rfl⟩
      exact ⟨alike.lawful gone.lawful, alike.nullSafe gone.nullSafe,
        gone.keyLayout, gone.valueLayout, rfl, rfl, rfl, rfl⟩

theorem Kept.destroyed (kept : Kept owned) : Kept owned.destroy where
  blind := kept.blind.congr rfl rfl
  state := Or.inr kept.destroy.2
  balanced := by
    have held : owned.destroy.live = [] := rfl
    unfold Balanced
    rw [held]
    exact kept.destroy.1

/-- How often destruction gives back the null pointer. -/
theorem Kept.nulls (kept : Kept owned) :
    owned.destroy.trace.count (.release none) =
      owned.trace.count (.release none) +
        2 * (owned.map.usedCount - owned.map.entries.length) +
        (if owned.table.isSome then 0 else 1) := by
  unfold Owned.destroy
  dsimp only
  rw [List.count_append, List.count_append]
  rcases kept.state with ⟨sound, table⟩ | gone
  · have invariant := kept.blind.table sound.table
    have nulls := releases_nulls owned.map owned.map.buckets
      invariant.live invariant.blank invariant.paired
    have most : owned.map.entries.length ≤ owned.map.usedCount :=
      invariant.entries_length_le
    rcases Option.isSome_iff_exists.mp table with ⟨ptr, known⟩
    have block : owned.tableBlock = some
        ⟨ptr, sizeMul owned.map.capacity bucketSize⟩ := by
      unfold Owned.tableBlock
      rw [known]
      rfl
    rw [block, if_pos table, List.count_cons_of_ne (by simp), List.count_nil]
    unfold Map.usedCount Map.entries at most ⊢
    omega
  · have null : owned.tableBlock = none := by
      unfold Owned.tableBlock
      rw [gone.table]
      rfl
    have absent : ¬ owned.table.isSome = true := by
      simp [gone.table]
    rw [null, if_neg absent]
    unfold Map.usedCount Map.entries
    rw [gone.buckets]
    rfl

/-! ## Runs -/

/-- A call of the interface. -/
inductive Use (K V : Type) where
  | insert (key : Cell K) (value : V) (answers : Answers)
  | destroy

/-- The map after a call; a call that does not end leaves no map to use. -/
def Owned.step (owned : Owned K V) : Use K V → Owned K V
  | .insert key value answers =>
      match owned.insert key value answers with
      | some (_, owned) => owned
      | none => owned
  | .destroy => owned.destroy

/-- The maps that insertions and destructions reach. -/
def Uses (fresh : Owned K V) : Owned K V → Prop :=
  Reachable (fun owned => owned = fresh) (fun _ (_ : Use K V) => True)
    Owned.step

/-- The maps that insertions reach. -/
def Insertions (fresh : Owned K V) : Owned K V → Prop :=
  Reachable (fun owned => owned = fresh) (fun _ use => use ≠ .destroy)
    Owned.step

theorem Kept.step (kept : Kept owned) (use : Use K V) :
    Kept (owned.step use) := by
  cases use with
  | insert key value answers =>
      unfold Owned.step
      dsimp only
      cases result : owned.insert key value answers with
      | none => exact kept
      | some outcome => exact (kept.insert result).kept
  | destroy => exact kept.destroyed

theorem Kept.uses (kept : Kept owned) (uses : Uses owned owned') :
    Kept owned' := by
  refine Reachable.invariant Kept ?_ ?_ uses
  · rintro _ rfl
    exact kept
  · intro owned use kept _
    exact kept.step use

/-- A new map, without its pointers, is the one that was created there. -/
theorem create_contents
    {bytes : K → List UInt8} {keyLayout valueLayout : Layout}
    {initialCapacity : Option Nat} {hashFn : Option (K → Nat → Nat)}
    {equalsFn : Option (Option K → Option K → Nat → Bool)}
    {seed : Nat} {answer : Option Nat} {fresh : Owned K V}
    (created : Owned.create bytes keyLayout valueLayout initialCapacity
      hashFn equalsFn seed answer = .ok fresh) :
    Map.create bytes keyLayout valueLayout initialCapacity hashFn equalsFn
        seed answer.isSome = .ok fresh.map.contents ∧
      Blind fresh.map ∧ fresh.table.isSome ∧ Balanced fresh := by
  unfold Owned.create at created
  unfold Map.create
  by_cases badKey : keyLayout.Invalid
  · rw [if_pos badKey] at created
    contradiction
  rw [if_neg badKey] at created ⊢
  by_cases badValue : valueLayout.Invalid
  · rw [if_pos badValue] at created
    contradiction
  rw [if_neg badValue] at created ⊢
  dsimp only at created ⊢
  cases served : alloc answer
      (tableLayout (nextPow2 (initialCapacity.getD 16))) with
  | none =>
      rw [served] at created
      contradiction
  | some mem =>
      rw [served] at created
      cases created
      have given : ¬ granted answer.isSome
          (tableLayout (nextPow2 (initialCapacity.getD 16))) = false := by
        simp [(alloc_eq_some served).1]
      rw [if_neg given]
      refine ⟨?_, ⟨fun _ => rfl, ?_⟩, rfl, ?_⟩
      · simp [Map.contents, Bucket.contents, Bucket.empty,
          Function.comp_def]
      · intro a b
        simp [Function.comp_def]
      · have size := (alloc_eq_some served).2
        unfold tableLayout at size
        rw [Layout.create_elemSize _ (by decide)] at size
        refine .obtain (.done ?_)
        simp [Owned.live, Owned.tableBlock, Owned.copies, Map.entries,
          Bucket.entry, Bucket.empty, ← size]

theorem Kept.created
    {bytes : K → List UInt8} {keyLayout valueLayout : Layout}
    {initialCapacity : Option Nat} {hashFn : Option (K → Nat → Nat)}
    {equalsFn : Option (Option K → Option K → Nat → Bool)}
    {seed : Nat} {answer : Option Nat} {fresh : Owned K V}
    (fits : ∀ wanted, initialCapacity = some wanted → wanted < sizeLimit)
    (created : Owned.create bytes keyLayout valueLayout initialCapacity
      hashFn equalsFn seed answer = .ok fresh)
    (lawful : Lawful fresh.map.contents)
    (nullSafe : NullSafe fresh.map.contents) : Kept fresh := by
  rcases create_contents created with ⟨creates, blind, table, balanced⟩
  exact ⟨blind, Or.inl ⟨Sound.created fits creates lawful nullSafe, table⟩,
    balanced⟩

/-- What every run guarantees about the blocks. -/
structure Repaid (owned : Owned K V) : Prop where
  balanced : Settles [] owned.trace owned.live
  distinct : Fresh Slice.ptr owned.trace →
    (owned.live.map Slice.ptr).Nodup
  settled : Settles [] owned.destroy.trace []
  once : ∀ block,
    owned.destroy.trace.count (.obtain block) =
      owned.destroy.trace.count (.release (some block))
  nulls :
    owned.destroy.trace.count (.release none) =
      owned.trace.count (.release none) +
        2 * (owned.map.usedCount - owned.map.entries.length) +
        (if owned.table.isSome then 0 else 1)

/--
In every run of insertions, granted or refused, and destructions the map
holds exactly the blocks that it has pointers to, and its destruction gives
back each block that was ever obtained once.
-/
theorem hashMap_blocks_repaid
    {bytes : K → List UInt8} {keyLayout valueLayout : Layout}
    {initialCapacity : Option Nat} {hashFn : Option (K → Nat → Nat)}
    {equalsFn : Option (Option K → Option K → Nat → Bool)}
    {seed : Nat} {answer : Option Nat} {fresh : Owned K V}
    (fits : ∀ wanted, initialCapacity = some wanted → wanted < sizeLimit)
    (created : Owned.create bytes keyLayout valueLayout initialCapacity
      hashFn equalsFn seed answer = .ok fresh)
    (lawful : Lawful fresh.map.contents)
    (nullSafe : NullSafe fresh.map.contents)
    (uses : Uses fresh owned) : Repaid owned := by
  have kept := (Kept.created fits created lawful nullSafe).uses uses
  refine ⟨kept.balanced, ?_, kept.destroy.1, ?_, kept.nulls⟩
  · intro promise
    exact promise.distinct kept.balanced
  · intro block
    have counted := kept.destroy.1.counted block
    simpa using counted

/-- A map of numbers with four buckets at address 1000. -/
def numberOwned : Owned Nat Nat where
  map := {
    buckets := List.replicate 4 Bucket.empty
    capacity := 4
    length := 0
    keyLayout := ⟨8, 8⟩
    valueLayout := ⟨8, 8⟩
    hashFn := fun key _ => key.content
    equalsFn := fun a b _ => a.map Cell.content = b.map Cell.content
    seed := 0 }
  table := some 1000
  trace := [.obtain ⟨1000, 128⟩]

theorem numberOwned_created :
    Owned.create (fun _ => []) ⟨8, 8⟩ ⟨8, 8⟩ (some 4)
      (some fun key _ => key) (some fun left right _ => left = right)
      0 (some 1000) = .ok numberOwned := by
  have power : nextPow2 4 = 4 := by decide
  have served :
      alloc (some 1000) (tableLayout 4) = some ⟨1000, 128⟩ := by decide
  simp [Owned.create, Layout.Invalid, numberOwned, power, served]

theorem numberOwned_contents :
    numberOwned.map.contents = numberMap 4 := by
  simp [Map.contents, numberOwned, numberMap, Bucket.contents, Bucket.empty,
    Function.comp_def]

/-- A value is refused, then a pair is stored. -/
def numberStored : Owned Nat Nat :=
  (numberOwned.step (.insert ⟨8, 1⟩ 10 ⟨none, some 2000, none⟩)).step
    (.insert ⟨8, 2⟩ 20 ⟨none, some 2000, some 3000⟩)

/-- The next insertion moves the table; its key lies where the table lay. -/
def numberMoved : Owned Nat Nat :=
  numberStored.step (.insert ⟨8, 3⟩ 30 ⟨some 4000, some 1000, some 5000⟩)

theorem numberStored_uses : Uses numberOwned numberStored :=
  .step (.step (.start rfl) trivial) trivial

theorem hashMap_blocks_repaid_numbers : Repaid numberMoved :=
  hashMap_blocks_repaid
    (by
      intro wanted asked
      cases asked
      decide)
    numberOwned_created
    (by
      rw [numberOwned_contents]
      exact numberMap_lawful 4)
    (by
      rw [numberOwned_contents]
      exact numberMap_nullSafe 4)
    (.step numberStored_uses trivial)

/-! ## Pointers to values -/

/-- What insertions do to a map with a table. -/
structure Extends (owned owned' : Owned K V) : Prop where
  kept : Kept owned'
  stays : Stays owned.map owned'.map
  alike : Alike owned.map owned'.map
  table : owned'.table.isSome

theorem Extends.insertions
    (kept : Kept owned) (table : owned.table.isSome)
    (later : Insertions owned owned') : Extends owned owned' := by
  refine Reachable.invariant (Extends owned) ?_ ?_ later
  · rintro _ rfl
    exact ⟨kept, .of_perm (List.Perm.refl _), Alike.refl _, table⟩
  · intro middle use extends' remains
    cases use with
    | insert key value answers =>
        unfold Owned.step
        dsimp only
        cases result : middle.insert key value answers with
        | none => exact extends'
        | some outcome =>
            have inserts := extends'.kept.insert result
            exact ⟨inserts.kept, extends'.stays.trans inserts.stays,
              extends'.alike.trans inserts.alike,
              inserts.table extends'.table⟩
    | destroy => exact absurd rfl remains

/-- A value that is found is the copy of an entry. -/
theorem Kept.entry_of_get
    (kept : Kept owned) {cell : Cell V}
    (found : owned.map.get key = some (some (some cell))) :
    owned.table.isSome ∧
      ∃ entry ∈ owned.map.entries,
        owned.map.same entry.1 key = true ∧ entry.2 = cell := by
  rcases kept.state with ⟨sound, table⟩ | gone
  · refine ⟨table, ?_⟩
    rw [(kept.blind.table sound.table).get_eq
      (kept.blind.lawful sound.lawful)] at found
    split at found
    · rename_i other stored
      cases found
      exact mem_of_lookup stored
    · split at found
      · cases found
      · contradiction
  · unfold Map.get at found
    rw [if_neg gone.keyLayout, if_pos gone.capacity] at found
    cases found

theorem Kept.get_of_entry
    (kept : Kept owned) (table : owned.table.isSome)
    {entry : Cell K × Cell V} (member : entry ∈ owned.map.entries)
    (equal : owned.map.same entry.1 key = true) :
    owned.map.get key = some (some (some entry.2)) := by
  rcases kept.state with ⟨sound, _⟩ | gone
  · have invariant := kept.blind.table sound.table
    have lawful := kept.blind.lawful sound.lawful
    rw [invariant.get_eq lawful,
      lookup_of_mem lawful.identifies (invariant.distinct lawful) member
        equal]
  · rw [gone.table] at table
    contradiction

/--
The pointer that `cu_HashMap_get` returned for a key stays what it returns
for that key, and its block stays allocated, whatever is inserted.
-/
theorem get_pointer_stays
    {bytes : K → List UInt8} {keyLayout valueLayout : Layout}
    {initialCapacity : Option Nat} {hashFn : Option (K → Nat → Nat)}
    {equalsFn : Option (Option K → Option K → Nat → Bool)}
    {seed : Nat} {answer : Option Nat} {fresh : Owned K V}
    {cell : Cell V} {key' : Cell K}
    (fits : ∀ wanted, initialCapacity = some wanted → wanted < sizeLimit)
    (created : Owned.create bytes keyLayout valueLayout initialCapacity
      hashFn equalsFn seed answer = .ok fresh)
    (lawful : Lawful fresh.map.contents)
    (nullSafe : NullSafe fresh.map.contents)
    (uses : Uses fresh owned)
    (found : owned.map.get key = some (some (some cell)))
    (later : Insertions owned owned')
    (same : owned.map.same key key' = true) :
    ∃ cell', owned'.map.get key' = some (some (some cell')) ∧
      cell'.ptr = cell.ptr ∧
      ⟨cell.ptr, owned.map.valueLayout.elemSize⟩ ∈ owned'.live := by
  have kept := (Kept.created fits created lawful nullSafe).uses uses
  rcases kept.entry_of_get found with ⟨table, entry, member, equal, rfl⟩
  have after := Extends.insertions kept table later
  rcases after.stays entry member with ⟨entry', inside, key, ptr⟩
  have identifies : Identifies owned.map.same := by
    rcases kept.state with ⟨sound, _⟩ | gone
    · exact (kept.blind.lawful sound.lawful).identifies
    · exact (kept.blind.lawful gone.lawful).identifies
  have equal' : owned'.map.same entry'.1 key' = true := by
    rw [after.alike.same, key]
    exact identifies.trans equal same
  refine ⟨entry'.2, after.kept.get_of_entry after.table inside equal', ptr, ?_⟩
  unfold Owned.live Owned.copies
  refine List.mem_append_right _ (List.mem_flatMap.mpr ⟨entry', inside, ?_⟩)
  rw [← after.alike.valueLayout, ← ptr]
  exact List.mem_cons_of_mem _ List.mem_cons_self

/-- The value of key 2 stays at address 3000 when the table is moved. -/
theorem get_pointer_stays_numbers :
    ∃ cell',
      numberMoved.map.get ⟨9, 2⟩ = some (some (some cell')) ∧
        cell'.ptr = 3000 ∧ ⟨3000, 8⟩ ∈ numberMoved.live := by
  have found : numberStored.map.get ⟨7, 2⟩ = some (some (some ⟨3000, 20⟩)) := by
    decide +kernel
  have same : numberStored.map.same ⟨7, 2⟩ ⟨9, 2⟩ = true := by
    decide +kernel
  have later : Insertions numberStored numberMoved :=
    .step (.start rfl) (by simp)
  refine get_pointer_stays ?_ numberOwned_created ?_ ?_ numberStored_uses
    found later same
  · intro wanted asked
    cases asked
    decide
  · rw [numberOwned_contents]
    exact numberMap_lawful 4
  · rw [numberOwned_contents]
    exact numberMap_nullSafe 4

end Libcute.Collection.HashMap
