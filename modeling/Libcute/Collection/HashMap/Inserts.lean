import Libcute.Collection.HashMap.Probes

/-!
# Filling buckets and moving tables

Three changes make up an insertion: an unused bucket on the probe of its key
is filled, the value of a stored key is replaced, and all entries move to a
larger table.  `Becomes` states the outcome of each in terms of the entries,
the number of used buckets and the length.
-/

namespace Libcute.Collection.HashMap

open Libcute.Core.Interface
open Libcute.Core.Size
open Libcute.Library.AssocList
open Libcute.Library.Probing

variable {K V : Type} {map map' map'' : Map K V} {key : K} {value : V}
  {idx : Nat} {b : Bucket K V} {grants : Grants}

/-! ## What insertions leave alone -/

/-- Two maps with the same parameters. -/
structure Alike (map map' : Map K V) : Prop where
  keyLayout : map'.keyLayout = map.keyLayout
  valueLayout : map'.valueLayout = map.valueLayout
  hashFn : map'.hashFn = map.hashFn
  equalsFn : map'.equalsFn = map.equalsFn
  seed : map'.seed = map.seed

theorem Alike.refl (map : Map K V) : Alike map map :=
  ⟨rfl, rfl, rfl, rfl, rfl⟩

theorem Alike.trans
    (first : Alike map map') (second : Alike map' map'') :
    Alike map map'' where
  keyLayout := second.keyLayout.trans first.keyLayout
  valueLayout := second.valueLayout.trans first.valueLayout
  hashFn := second.hashFn.trans first.hashFn
  equalsFn := second.equalsFn.trans first.equalsFn
  seed := second.seed.trans first.seed

theorem Alike.keyEquals (alike : Alike map map') :
    map'.keyEquals = map.keyEquals := by
  funext stored sought
  unfold Map.keyEquals
  rw [alike.equalsFn, alike.keyLayout]

theorem Alike.same (alike : Alike map map') : map'.same = map.same := by
  funext left right
  unfold Map.same
  rw [alike.keyEquals]

theorem Alike.hashOf (alike : Alike map map') :
    map'.hashOf = map.hashOf := by
  funext key
  unfold Map.hashOf
  rw [alike.hashFn, alike.keyLayout, alike.seed]

theorem Alike.lawful (alike : Alike map map') (lawful : Lawful map) :
    Lawful map' where
  identifies := by
    rw [alike.same]
    exact lawful.identifies
  hashes := by
    rw [alike.same, alike.hashOf]
    exact lawful.hashes

theorem Alike.nullSafe (alike : Alike map map') (nullSafe : NullSafe map) :
    NullSafe map' := by
  unfold NullSafe
  rw [alike.keyEquals]
  exact nullSafe

/-- The outcome of a change. -/
structure Becomes
    (map map' : Map K V) (entries : List (K × V))
    (capacity used length : Nat) : Prop where
  table : Table map'
  alike : Alike map map'
  entries : map'.entries.Perm entries
  capacity : map'.capacity = capacity
  used : map'.usedCount = used
  length : map'.length = length

/-! ## One bucket -/

theorem stops_set_of_ne
    {filled : Bucket K V} {length other : Nat} (elsewhere : other ≠ idx)
    (sought : Option K) (hash : Nat) :
    ({ map with
        buckets := map.buckets.set idx filled
        length := length } : Map K V).stops sought hash other =
      map.stops sought hash other := by
  unfold Map.stops
  dsimp only
  rw [List.getElem?_set_ne elsewhere.symm]
  rfl

/-- A probe passes the same buckets after an unused one is filled. -/
theorem passes_set
    (bucket : map.buckets[idx]? = some b) (unused : b.used = false)
    (filled : Bucket K V) (length : Nat) (sought : Option K) (hash : Nat)
    (passed : Nat) (passes : map.stops sought hash passed = false) :
    ({ map with
        buckets := map.buckets.set idx filled
        length := length } : Map K V).stops sought hash passed = false := by
  have elsewhere : passed ≠ idx := by
    rintro rfl
    rw [stops_eq bucket, unused] at passes
    contradiction
  rw [← passes]
  exact stops_set_of_ne elsewhere _ _

theorem buckets_set_perm
    (bucket : map.buckets[idx]? = some b) (filled : Bucket K V) :
    map.buckets.Perm (b :: map.buckets.eraseIdx idx) ∧
      (map.buckets.set idx filled).Perm
        (filled :: map.buckets.eraseIdx idx) := by
  rcases List.getElem?_eq_some_iff.mp bucket with ⟨inside, rfl⟩
  exact ⟨(List.getElem_cons_eraseIdx_perm inside).symm,
    List.set_perm_cons_eraseIdx inside filled⟩

/-- A bucket without an entry gives its place to the entry of another. -/
theorem entries_set
    (bucket : map.buckets[idx]? = some b) (vacant : b.entry = none)
    (filled : Bucket K V) :
    ((map.buckets.set idx filled).filterMap Bucket.entry).Perm
      (filled.entry.toList ++ map.entries) := by
  have perms := buckets_set_perm bucket filled
  have before := perms.1.filterMap Bucket.entry
  have after := perms.2.filterMap Bucket.entry
  rw [List.filterMap_cons, vacant] at before
  rw [List.filterMap_cons] at after
  refine after.trans ?_
  cases filled.entry with
  | none => exact before.symm
  | some entry => exact before.symm.cons entry

theorem usedCount_set
    {filled : Bucket K V} (bucket : map.buckets[idx]? = some b)
    (unused : b.used = false) (used : filled.used = true) :
    (map.buckets.set idx filled).countP Bucket.used =
      map.usedCount + 1 := by
  have perms := buckets_set_perm bucket filled
  rw [perms.2.countP_eq, List.countP_cons_of_pos used, Map.usedCount,
    perms.1.countP_eq, List.countP_cons_of_neg (by simp [unused])]

/-- What is true of all buckets stays true when one is replaced. -/
theorem forall_set
    {holds : Bucket K V → Prop} {filled : Bucket K V}
    (all : ∀ b ∈ map.buckets, holds b) (new : holds filled) :
    ∀ b ∈ map.buckets.set idx filled, holds b := by
  intro b member
  rcases List.mem_or_eq_of_mem_set member with old | rfl
  · exact all b old
  · exact new

/--
Fill an unused bucket.  A key has to be filled in where its probe ends;
without a key the bucket must not be mistaken for one.
-/
theorem Table.fill
    (table : Table map) (lawful : Lawful map)
    (bucket : map.buckets[idx]? = some b) (unused : b.used = false)
    (filled : Bucket K V)
    (used : filled.used = true) (live : filled.deleted = false)
    (paired : filled.key.isSome = filled.value.isSome)
    (hashed : ∀ key, filled.key = some key →
      filled.hash = map.hashOf key ∧
        map.probe (some key) (map.hashOf key) = some idx)
    (silent : filled.key = none → NullSafe map) (length : Nat) :
    Becomes map
      { map with
        buckets := map.buckets.set idx filled
        length := length }
      (filled.entry.toList ++ map.entries)
      map.capacity (map.usedCount + 1) length where
  table := {
    keyLayout := table.keyLayout
    valueLayout := table.valueLayout
    size := by rw [← table.size, List.length_set]
    power := table.power
    live := forall_set table.live live
    blank := forall_set table.blank fun unused => by
      rw [used] at unused
      contradiction
    paired := forall_set table.paired paired
    hashed := forall_set table.hashed fun key holds =>
      (hashed key holds).1
    located := by
      intro other kept key found holds
      dsimp only at found
      by_cases here : other = idx
      · subst other
        have inside := (List.getElem?_eq_some_iff.mp bucket).1
        rw [List.getElem?_set_self inside, Option.some.injEq] at found
        subst kept
        rcases hashed key holds with ⟨hash, probed⟩
        refine walk_stable probed ?_
          (passes_set bucket unused filled length _ _)
        rw [stops_eq (List.getElem?_set_self inside), used, holds]
        have reflexive : map.keyEquals (some key) (some key) = true :=
          lawful.identifies.refl key
        have matching :
            (decide (filled.hash = map.hashOf key) &&
              map.keyEquals (some key) (some key)) = true := by
          simp [hash, reflexive]
        exact matching
      · rw [List.getElem?_set_ne (Ne.symm here)] at found
        have probed := table.located other kept key found holds
        refine walk_stable probed ?_
          (passes_set bucket unused filled length _ _)
        rw [← stop_of_walk probed]
        exact stops_set_of_ne here _ _
    silent := by
      rintro ⟨kept, member, isUsed, empty⟩
      rcases List.mem_or_eq_of_mem_set member with old | rfl
      · exact table.silent ⟨kept, old, isUsed, empty⟩
      · exact silent empty }
  alike := ⟨rfl, rfl, rfl, rfl, rfl⟩
  entries := entries_set bucket
    (Bucket.entry_eq_none
      (table.blank b (List.mem_of_getElem? bucket) unused)) filled
  capacity := rfl
  used := usedCount_set bucket unused used
  length := rfl

theorem Table.withLength (table : Table map) (length : Nat) :
    Table { map with length := length } where
  keyLayout := table.keyLayout
  valueLayout := table.valueLayout
  size := table.size
  power := table.power
  live := table.live
  blank := table.blank
  paired := table.paired
  hashed := table.hashed
  located := table.located
  silent := table.silent

/-- Replace the value of a stored key. -/
theorem Table.replace
    (table : Table map) (lawful : Lawful map)
    (bucket : map.buckets[idx]? = some b) {stored : K}
    (holds : b.key = some stored) (equal : map.same stored key = true)
    (filled : Bucket K V) (used : filled.used = b.used)
    (live : filled.deleted = b.deleted) (hash : filled.hash = b.hash)
    (keeps : filled.key = b.key) (carries : filled.value = some value) :
    Becomes map { map with buckets := map.buckets.set idx filled }
      (insert map.same map.entries key value)
      map.capacity map.usedCount map.length := by
  have member := List.mem_of_getElem? bucket
  have inside := (List.getElem?_eq_some_iff.mp bucket).1
  have perms := buckets_set_perm bucket filled
  rcases table.entry_of_key member holds with ⟨old, carried, _⟩
  have probes : ∀ sought hash,
      ({ map with buckets := map.buckets.set idx filled } :
        Map K V).stops sought hash = map.stops sought hash := by
    intro sought hash'
    funext other
    by_cases here : other = idx
    · subst other
      rw [stops_eq bucket, stops_eq (List.getElem?_set_self inside), used,
        hash, keeps]
      rfl
    · exact stops_set_of_ne here _ _
  constructor
  · constructor
    · exact table.keyLayout
    · exact table.valueLayout
    · rw [← table.size, List.length_set]
    · exact table.power
    · exact forall_set table.live (live.trans (table.live b member))
    · refine forall_set table.blank ?_
      rw [used, keeps]
      exact table.blank b member
    · refine forall_set table.paired ?_
      rw [keeps, holds, carries]
      rfl
    · refine forall_set table.hashed ?_
      rw [keeps, hash]
      exact table.hashed b member
    · intro other found known bucketOther keyOther
      unfold Map.probe
      rw [probes]
      dsimp only at bucketOther
      by_cases here : other = idx
      · subst other
        rw [List.getElem?_set_self inside, Option.some.injEq] at bucketOther
        subst found
        rw [keeps] at keyOther
        exact table.located _ b known bucket keyOther
      · rw [List.getElem?_set_ne (Ne.symm here)] at bucketOther
        exact table.located other found known bucketOther keyOther
    · rintro ⟨other, present, isUsed, empty⟩
      rcases List.mem_or_eq_of_mem_set present with before | rfl
      · exact table.silent ⟨other, before, isUsed, empty⟩
      · rw [keeps, holds] at empty
        contradiction
  · exact ⟨rfl, rfl, rfl, rfl, rfl⟩
  · have before := perms.1.filterMap Bucket.entry
    have after := perms.2.filterMap Bucket.entry
    rw [List.filterMap_cons,
      Bucket.entry_eq_some.mpr ⟨holds, carried⟩] at before
    rw [List.filterMap_cons,
      Bucket.entry_eq_some.mpr ⟨keeps.trans holds, carries⟩] at after
    have distinct := (table.distinct lawful).perm lawful.identifies before
    have changed :
        (insert map.same map.entries key value).Perm _ :=
      insert_perm before key value
    rw [insert_head lawful.identifies distinct equal] at changed
    exact after.trans changed.symm
  · rfl
  · rw [Map.usedCount, perms.2.countP_eq, Map.usedCount,
      perms.1.countP_eq, List.countP_cons, List.countP_cons, used]
  · rfl

/-! ## Storing a pair -/

theorem granted_create
    {grant : Bool} {layout : Layout} (valid : ¬ layout.Invalid) :
    granted grant (Layout.create layout.elemSize layout.alignment) =
      grant := by
  unfold Layout.Invalid at valid
  rw [not_or] at valid
  rw [Layout.create_of_pos valid.1 valid.2]
  simp [granted, valid.1]

theorem Table.place_stored
    (table : Table map) (lawful : Lawful map)
    (stored : ∃ entry ∈ map.entries, map.same entry.1 key = true)
    (value : V) (grants : Grants) :
    ∃ map', map.place key value grants = some (none, map') ∧
      Becomes map map' (insert map.same map.entries key value)
        map.capacity map.usedCount map.length := by
  rcases stored with ⟨⟨other, old⟩, present, equal⟩
  rcases mem_entries.mp present with ⟨b, member, holds, carries⟩
  rcases List.mem_iff_getElem?.mp member with ⟨idx, bucket⟩
  have found := table.probe_stored lawful bucket holds equal
  rw [← table.findSlot_eq] at found
  refine ⟨_, ?_, table.replace lawful bucket holds equal
    { b with value := b.value.map fun _ => value } rfl rfl rfl rfl ?_⟩
  · unfold Map.place
    dsimp only
    rw [found]
    dsimp only
    rw [bucket]
    dsimp only
    rw [if_pos ⟨table.used_of_key member holds, table.live b member⟩]
  · rw [carries]
    rfl

theorem Table.value_null
    (table : Table map) (member : b ∈ map.buckets) (empty : b.key = none) :
    b.value = none := by
  have paired := table.paired b member
  rw [empty, Option.isSome_none, eq_comm, Option.isSome_eq_false_iff,
    Option.isNone_iff_eq_none] at paired
  exact paired

/-- A missing key: the probe ends at an unused bucket, if there is one. -/
theorem Table.place_eq
    (table : Table map)
    (found : map.probe (some key) (map.hashOf key) = some idx)
    (bucket : map.buckets[idx]? = some b) (unused : b.used = false)
    (value : V) (grants : Grants) :
    map.place key value grants =
      if grants.key = true ∧ grants.value = true then
        some (none, { map with
          buckets := map.buckets.set idx
            ⟨true, false, map.hashOf key, some key, some value⟩
          length := map.length + 1 })
      else
        some (some .oom, { map with
          buckets := map.buckets.set idx
            ⟨true, false, map.hashOf key, none, none⟩ }) := by
  have member := List.mem_of_getElem? bucket
  have keyNull := table.blank b member unused
  have valueNull := table.value_null member keyNull
  unfold Map.place
  dsimp only
  rw [table.findSlot_eq, found]
  dsimp only
  rw [bucket]
  dsimp only
  rw [if_neg (by simp [unused]), granted_create table.keyLayout,
    granted_create table.valueLayout, keyNull, valueNull]
  cases grants.key with
  | false => simp
  | true => cases grants.value <;> simp

theorem Table.place_new
    (table : Table map) (lawful : Lawful map)
    (new : ∀ entry ∈ map.entries, map.same entry.1 key = false)
    (vacancy : map.usedCount < map.capacity)
    (given : grants.key = true ∧ grants.value = true) (value : V) :
    ∃ map', map.place key value grants = some (none, map') ∧
      Becomes map map' ((key, value) :: map.entries)
        map.capacity (map.usedCount + 1) (map.length + 1) := by
  rcases table.probe_ends vacancy (some key) (map.hashOf key) with
    ⟨idx, found⟩
  rcases table.probe_new new found with ⟨b, bucket, unused⟩
  rw [table.place_eq found bucket unused, if_pos given]
  refine ⟨_, rfl, table.fill lawful bucket unused _ rfl rfl rfl
    ?_ ?_ _⟩
  · rintro other holds
    cases holds
    exact ⟨rfl, found⟩
  · intro empty
    contradiction

/-- A refused key or value leaves a used bucket behind. -/
theorem Table.place_refused
    (table : Table map) (lawful : Lawful map) (nullSafe : NullSafe map)
    (new : ∀ entry ∈ map.entries, map.same entry.1 key = false)
    (vacancy : map.usedCount < map.capacity)
    (refused : ¬ (grants.key = true ∧ grants.value = true)) (value : V) :
    ∃ map', map.place key value grants = some (some .oom, map') ∧
      Becomes map map' map.entries
        map.capacity (map.usedCount + 1) map.length := by
  rcases table.probe_ends vacancy (some key) (map.hashOf key) with
    ⟨idx, found⟩
  rcases table.probe_new new found with ⟨b, bucket, unused⟩
  rw [table.place_eq found bucket unused, if_neg refused]
  refine ⟨_, rfl, table.fill lawful bucket unused _ rfl rfl rfl
    ?_ ?_ _⟩
  · intro other holds
    contradiction
  · intro _
    exact nullSafe

/-- Without an unused bucket the probe of a missing key does not end. -/
theorem Table.place_full
    (table : Table map)
    (new : ∀ entry ∈ map.entries, map.same entry.1 key = false)
    (full : ¬ map.usedCount < map.capacity)
    (value : V) (grants : Grants) :
    map.place key value grants = none := by
  have endless : map.probe (some key) (map.hashOf key) = none := by
    cases ends : map.probe (some key) (map.hashOf key) with
    | none => rfl
    | some idx =>
        rcases table.probe_new new ends with ⟨b, bucket, unused⟩
        exact absurd (table.vacancy_iff.mpr ⟨idx, b, bucket, unused⟩) full
  unfold Map.place
  dsimp only
  rw [table.findSlot_eq, endless]

/-! ## Moving to a larger table -/

/--
Where the new table stands after some buckets of the old one: it has their
entries, and its length counts their used buckets.
-/
structure Moved
    (map fresh : Map K V) (done : List (Bucket K V)) : Prop where
  table : Table fresh
  alike : Alike map fresh
  entries : fresh.entries.Perm (done.filterMap Bucket.entry)
  used : fresh.usedCount ≤ done.countP Bucket.used
  length : fresh.length = done.countP Bucket.used

/-- The fresh table of a rehash. -/
def Map.renewed (map : Map K V) (capacity : Nat) : Map K V :=
  { map with
    buckets := List.replicate capacity Bucket.empty
    capacity := capacity
    length := 0 }

theorem renewed_moved
    (map : Map K V) (keyLayout : ¬ map.keyLayout.Invalid)
    (valueLayout : ¬ map.valueLayout.Invalid) {capacity : Nat}
    (power : ∃ exponent ≤ 58, capacity = 2 ^ exponent) :
    Moved map (map.renewed capacity) [] := by
  have empty : ∀ b ∈ (map.renewed capacity).buckets,
      b = Bucket.empty := fun b member => List.eq_of_mem_replicate member
  constructor
  · constructor
    · exact keyLayout
    · exact valueLayout
    · exact List.length_replicate
    · exact power
    · intro b member
      rw [empty b member]
      rfl
    · intro b member _
      rw [empty b member]
      rfl
    · intro b member
      rw [empty b member]
      rfl
    · intro b member key holds
      rw [empty b member] at holds
      contradiction
    · intro idx b key bucket holds
      rw [empty b (List.mem_of_getElem? bucket)] at holds
      contradiction
    · rintro ⟨b, member, used, _⟩
      rw [empty b member] at used
      contradiction
  · exact ⟨rfl, rfl, rfl, rfl, rfl⟩
  · have none : (map.renewed capacity).entries = [] := by
      rw [Map.entries, List.filterMap_eq_nil_iff]
      intro b member
      rw [empty b member]
      rfl
    rw [none]
    exact List.Perm.nil
  · rw [Map.usedCount, List.countP_eq_zero.mpr]
    · exact Nat.zero_le _
    · intro b member
      rw [empty b member]
      simp [Bucket.empty]
  · rfl

/-- The keys moved so far differ from the next one. -/
theorem Moved.new
    {fresh : Map K V} {done rest : List (Bucket K V)}
    (moved : Moved map fresh done) (table : Table map)
    (lawful : Lawful map) (split : map.buckets = done ++ b :: rest)
    (holds : b.key = some key) :
    ∀ entry ∈ fresh.entries, fresh.same entry.1 key = false := by
  intro entry member
  have member' := moved.entries.mem_iff.mp member
  have present : b ∈ map.buckets := by
    rw [split]
    exact List.mem_append_right _ List.mem_cons_self
  rcases table.entry_of_key present holds with ⟨value, carries, _⟩
  have distinct := table.distinct lawful
  unfold Distinct Map.entries at distinct
  rw [split, List.filterMap_append, List.pairwise_append] at distinct
  rw [moved.alike.same]
  refine distinct.2.2 entry member' (key, value) ?_
  rw [List.filterMap_cons_some
    (Bucket.entry_eq_some.mpr ⟨holds, carries⟩)]
  exact List.mem_cons_self

/-- The move of one bucket. -/
theorem Moved.step
    {fresh : Map K V} {done rest : List (Bucket K V)}
    (moved : Moved map fresh done) (table : Table map)
    (lawful : Lawful map) (split : map.buckets = done ++ b :: rest)
    (room : map.usedCount < fresh.capacity) :
    ∃ fresh', fresh.moveBucket b = some fresh' ∧
      Moved map fresh' (done ++ [b]) ∧ fresh'.capacity = fresh.capacity := by
  have member : b ∈ map.buckets := by
    rw [split]
    exact List.mem_append_right _ List.mem_cons_self
  have live := table.live b member
  have lawful' := moved.alike.lawful lawful
  cases used : b.used with
  | false =>
      have vacant := Bucket.entry_eq_none (table.blank b member used)
      refine ⟨fresh, ?_, ⟨moved.table, moved.alike, ?_, ?_, ?_⟩, rfl⟩
      · unfold Map.moveBucket
        rw [if_pos (Or.inl used)]
      · rw [List.filterMap_append, List.filterMap_cons_none vacant,
          List.filterMap_nil, List.append_nil]
        exact moved.entries
      · rw [List.countP_append, List.countP_singleton, used]
        simpa using moved.used
      · rw [List.countP_append, List.countP_singleton, used]
        simpa using moved.length
  | true =>
      have total : map.usedCount =
          done.countP Bucket.used + (1 + rest.countP Bucket.used) := by
        rw [Map.usedCount, split, List.countP_append,
          List.countP_cons_of_pos used, Nat.add_comm 1]
      have counted :
          (done ++ [b]).countP Bucket.used =
            done.countP Bucket.used + 1 := by
        rw [List.countP_append, List.countP_singleton, used, if_pos rfl]
      have bound := moved.used
      have vacancy : fresh.usedCount < fresh.capacity := by omega
      rcases moved.table.probe_ends vacancy b.key b.hash with ⟨idx, found⟩
      rcases probe_found found with ⟨at', bucket, state⟩
      have opened :
          fresh.moveBucket b =
            some { fresh with
              buckets := fresh.buckets.set idx
                ⟨true, false, b.hash, b.key, b.value⟩
              length := fresh.length + 1 } := by
        unfold Map.moveBucket
        rw [if_neg (by simp [used, live]), moved.table.findSlot_eq, found]
      have keyed : ∀ key, b.key = some key →
          b.hash = fresh.hashOf key ∧
            fresh.probe (some key) (fresh.hashOf key) = some idx := by
        intro key holds
        have hash : b.hash = fresh.hashOf key := by
          rw [moved.alike.hashOf]
          exact table.hashed b member key holds
        rw [← hash, ← holds]
        exact ⟨rfl, found⟩
      refine ⟨_, opened, ?_, rfl⟩
      have fill (unused : at'.used = false) :
          Moved map
            { fresh with
              buckets := fresh.buckets.set idx
                ⟨true, false, b.hash, b.key, b.value⟩
              length := fresh.length + 1 }
            (done ++ [b]) := by
        have filled := moved.table.fill lawful' bucket unused
          ⟨true, false, b.hash, b.key, b.value⟩
          rfl rfl (table.paired b member) keyed
          (fun empty => moved.alike.nullSafe
            (table.silent ⟨b, member, used, empty⟩))
          (fresh.length + 1)
        refine ⟨filled.table, moved.alike.trans filled.alike, ?_, ?_, ?_⟩
        · refine filled.entries.trans ?_
          rw [List.filterMap_append]
          refine (List.perm_append_comm).trans ?_
          refine moved.entries.append ?_
          have toList : [b].filterMap Bucket.entry = b.entry.toList := by
            cases entry : b.entry <;> simp [entry]
          rw [toList]
          exact List.Perm.refl _
        · rw [filled.used, counted]
          omega
        · rw [counted, ← moved.length]
      rcases state with unused | ⟨usedAt, hashAt, equal⟩
      · exact fill unused
      · cases holds : b.key with
        | some key =>
            rcases keyed key holds with ⟨_, probed⟩
            rcases moved.table.probe_new
                (moved.new table lawful split holds) probed with
              ⟨other, bucketOther, unused⟩
            rw [bucket, Option.some.injEq] at bucketOther
            subst other
            rw [← holds]
            exact fill unused
        | none =>
            have nullSafe := moved.alike.nullSafe
              (table.silent ⟨b, member, used, holds⟩)
            have present := List.mem_of_getElem? bucket
            have emptyAt : at'.key = none := by
              cases keyAt : at'.key with
              | none => rfl
              | some other =>
                  rw [holds, keyAt, (nullSafe other).2] at equal
                  contradiction
            have restored :
                fresh.buckets.set idx
                    ⟨true, false, b.hash, none, b.value⟩ =
                  fresh.buckets := by
              rcases List.getElem?_eq_some_iff.mp bucket with ⟨inside, rfl⟩
              conv_rhs => rw [← List.set_getElem_self inside]
              congr 1
              have liveAt := moved.table.live _ present
              have valueAt := moved.table.value_null present emptyAt
              rw [table.value_null member holds, ← hashAt]
              generalize fresh.buckets[idx] = kept at *
              cases kept
              simp_all
            rw [restored]
            refine ⟨moved.table.withLength _,
              moved.alike.trans ⟨rfl, rfl, rfl, rfl, rfl⟩, ?_, ?_, ?_⟩
            · rw [List.filterMap_append, List.filterMap_cons_none
                (Bucket.entry_eq_none holds), List.filterMap_nil,
                List.append_nil]
              exact moved.entries
            · rw [counted]
              exact Nat.le_succ_of_le moved.used
            · rw [counted, ← moved.length]

/-- The copy loop, by induction over the buckets still to move. -/
theorem Moved.run
    {fresh : Map K V} {done rest : List (Bucket K V)}
    (moved : Moved map fresh done) (table : Table map)
    (lawful : Lawful map) (split : map.buckets = done ++ rest)
    (room : map.usedCount < fresh.capacity) :
    ∃ fresh', fresh.moveBuckets rest = some fresh' ∧
      Moved map fresh' map.buckets ∧ fresh'.capacity = fresh.capacity := by
  induction rest generalizing fresh done with
  | nil =>
      rw [List.append_nil] at split
      rw [split]
      exact ⟨fresh, rfl, moved, rfl⟩
  | cons b rest induction =>
      rcases moved.step table lawful split room with
        ⟨fresh', one, moved', capacity⟩
      have split' : map.buckets = (done ++ [b]) ++ rest := by
        rw [split, List.append_assoc, List.singleton_append]
      rcases induction moved' split' (by rw [capacity]; exact room) with
        ⟨last, others, finished, same⟩
      refine ⟨last, ?_, finished, same.trans capacity⟩
      unfold Map.moveBuckets
      rw [one]
      exact others

/-- A table that is granted has a power of two of buckets. -/
theorem table_capacity
    {wanted : Nat} (fits : wanted < sizeLimit) {grant : Bool}
    (given : granted grant (tableLayout (nextPow2 wanted)) = true) :
    ∃ exponent ≤ 58, nextPow2 wanted = 2 ^ exponent := by
  have bounded : Nat.clog 2 wanted ≤ 58 := by
    by_contra large
    have rest : 2 ^ Nat.clog 2 wanted =
        2 ^ 59 * 2 ^ (Nat.clog 2 wanted - 59) := by
      rw [← pow_add]
      congr 1
      omega
    have wraps : sizeMul (nextPow2 wanted) bucketSize = 0 := by
      have whole :
          2 ^ Nat.clog 2 wanted * bucketSize =
            sizeLimit * 2 ^ (Nat.clog 2 wanted - 59) := by
        rw [rest]
        unfold bucketSize sizeLimit
        ring
      rw [nextPow2_eq_mod fits, sizeMul, Nat.mod_mul_mod, whole,
        Nat.mul_mod_right]
    simp [granted, tableLayout, wraps, Layout.create] at given
  refine ⟨Nat.clog 2 wanted, bounded, ?_⟩
  rw [nextPow2_eq_mod fits]
  apply Nat.mod_eq_of_lt
  exact Nat.pow_lt_pow_right (by decide) (by omega)

/-- The capacity after a rehash of a table. -/
theorem Table.doubled
    (table : Table map) :
    16 ≤ Map.rehashCapacity (sizeMul map.capacity 2) ∧
      map.capacity * 2 ≤ Map.rehashCapacity (sizeMul map.capacity 2) ∧
      ∃ wanted < sizeLimit,
        Map.rehashCapacity (sizeMul map.capacity 2) = nextPow2 wanted := by
  rcases table.power with ⟨exponent, bounded, capacity⟩
  have small : map.capacity ≤ 2 ^ 58 := by
    rw [capacity]
    exact Nat.pow_le_pow_right (by decide) bounded
  have exactly : sizeMul map.capacity 2 = map.capacity * 2 :=
    sizeMul_eq (by unfold sizeLimit; omega)
  rw [exactly]
  unfold Map.rehashCapacity
  generalize wants : (if map.capacity * 2 < 16 then 16
    else map.capacity * 2) = wanted
  have atLeast : 16 ≤ wanted ∧ map.capacity * 2 ≤ wanted ∧
      wanted ≤ 2 ^ 63 := by
    rw [← wants]
    split_ifs <;> omega
  have grows := le_nextPow2 atLeast.2.2
  refine ⟨by omega, by omega, wanted, ?_, rfl⟩
  unfold sizeLimit
  omega

/-- The request for the doubled table is granted. -/
def Map.roomGranted (map : Map K V) (grants : Grants) : Bool :=
  granted grants.buckets
    (tableLayout (Map.rehashCapacity (sizeMul map.capacity 2)))

theorem rehash_refused (refused : map.roomGranted grants = false) :
    map.rehash (sizeMul map.capacity 2) grants.buckets =
      some (some .oom, map) := by
  unfold Map.rehash
  unfold Map.roomGranted at refused
  rw [if_pos refused]

/--
A rehash keeps the entries.  The length afterwards is the number of used
buckets before, with and without a key.
-/
theorem Table.rehash_granted
    (table : Table map) (lawful : Lawful map)
    (given : map.roomGranted grants = true) :
    ∃ map' used,
      map.rehash (sizeMul map.capacity 2) grants.buckets =
          some (none, map') ∧
        used ≤ map.usedCount ∧
        Becomes map map' map.entries
          (Map.rehashCapacity (sizeMul map.capacity 2))
          used map.usedCount := by
  rcases table.doubled with ⟨atLeast, doubles, wanted, fits, asked⟩
  have power :
      ∃ exponent ≤ 58,
        Map.rehashCapacity (sizeMul map.capacity 2) = 2 ^ exponent := by
    rw [asked]
    unfold Map.roomGranted at given
    rw [asked] at given
    exact table_capacity fits given
  have positive := table.positive
  have most := table.usedCount_le
  have room :
      map.usedCount <
        (map.renewed
          (Map.rehashCapacity (sizeMul map.capacity 2))).capacity := by
    have capacity :
        (map.renewed
          (Map.rehashCapacity (sizeMul map.capacity 2))).capacity =
          Map.rehashCapacity (sizeMul map.capacity 2) := rfl
    omega
  rcases (renewed_moved map table.keyLayout table.valueLayout power).run
      table lawful rfl room with
    ⟨map', moves, moved, capacity⟩
  refine ⟨map', map'.usedCount, ?_, moved.used, ?_⟩
  · unfold Map.rehash
    unfold Map.roomGranted at given
    dsimp only
    rw [if_neg (by simp [given])]
    exact congrArg _ moves
  · exact ⟨moved.table, moved.alike, moved.entries, capacity, rfl,
      moved.length⟩

/-! ## The call -/

/-- Without wraparound: is the table too full for one more entry? -/
theorem Table.rehashDue_iff
    (table : Table map) (short : map.length < map.capacity) :
    map.rehashDue = true ↔ map.capacity ≤ (map.length + 1) * 2 := by
  rcases table.power with ⟨exponent, bounded, capacity⟩
  have small : map.capacity ≤ 2 ^ 58 := by
    rw [capacity]
    exact Nat.pow_le_pow_right (by decide) bounded
  unfold Map.rehashDue
  rw [sizeAdd_eq (by unfold sizeLimit; omega),
    sizeMul_eq (by unfold sizeLimit; omega), decide_eq_true_eq]

/-- The layouts of a table pass the checks of the call. -/
theorem Table.insert_eq
    (table : Table map) (key : K) (value : V) (grants : Grants) :
    map.insert key value grants =
      if map.rehashDue = true then
        match map.rehash (sizeMul map.capacity 2) grants.buckets with
        | none => none
        | some (some error, map) => some (some error, map)
        | some (none, map) => map.place key value grants
      else
        map.place key value grants := by
  unfold Map.insert
  exact (if_neg table.keyLayout).trans (if_neg table.valueLayout)

/-- Which of its branches a call takes, and from which table it stores. -/
theorem Table.insert_cases
    (table : Table map) (lawful : Lawful map)
    (key : K) (value : V) (grants : Grants) :
    (map.rehashDue = true ∧ map.roomGranted grants = false ∧
        map.insert key value grants = some (some .oom, map)) ∨
      (map.rehashDue = true ∧ map.roomGranted grants = true ∧
        ∃ map' used,
          map.rehash (sizeMul map.capacity 2) grants.buckets =
              some (none, map') ∧
            map.insert key value grants = map'.place key value grants ∧
            used ≤ map.usedCount ∧
            Becomes map map' map.entries
              (Map.rehashCapacity (sizeMul map.capacity 2))
              used map.usedCount) ∨
      (map.rehashDue = false ∧
        map.insert key value grants = map.place key value grants) := by
  rw [table.insert_eq]
  cases due : map.rehashDue with
  | false =>
      right
      right
      exact ⟨rfl, if_neg (by simp)⟩
  | true =>
      rw [if_pos rfl]
      cases given : map.roomGranted grants with
      | false =>
          left
          rw [rehash_refused given]
          exact ⟨rfl, rfl, rfl⟩
      | true =>
          right
          left
          rcases table.rehash_granted lawful given with
            ⟨map', used, rehashes, fewer, becomes⟩
          rw [rehashes]
          exact ⟨rfl, rfl, map', used, rfl, rfl, fewer, becomes⟩

/-- The map that `cu_HashMap_create` returns. -/
theorem create_spec
    {bytes : K → List UInt8} {keyLayout valueLayout : Layout}
    {initialCapacity : Option Nat} {hashFn : Option (K → Nat → Nat)}
    {equalsFn : Option (Option K → Option K → Nat → Bool)}
    {seed : Nat} {grant : Bool}
    (fits : ∀ wanted, initialCapacity = some wanted → wanted < sizeLimit)
    (created : Map.create bytes keyLayout valueLayout initialCapacity
      hashFn equalsFn seed grant = .ok map) :
    Table map ∧ map.entries = [] ∧ map.usedCount = 0 ∧ map.length = 0 := by
  unfold Map.create at created
  by_cases badKey : keyLayout.Invalid
  · rw [if_pos badKey] at created
    contradiction
  rw [if_neg badKey] at created
  by_cases badValue : valueLayout.Invalid
  · rw [if_pos badValue] at created
    contradiction
  rw [if_neg badValue] at created
  dsimp only at created
  cases given :
      granted grant (tableLayout (nextPow2 (initialCapacity.getD 16))) with
  | false =>
      rw [if_pos given] at created
      contradiction
  | true =>
      rw [if_neg (by simp [given])] at created
      have wanted : initialCapacity.getD 16 < sizeLimit := by
        cases initialCapacity with
        | none => decide
        | some wanted => exact fits wanted rfl
      have power := table_capacity wanted given
      rw [Except.ok.injEq] at created
      have keys : map.keyLayout = keyLayout := by rw [← created]
      have values : map.valueLayout = valueLayout := by rw [← created]
      have itself :
          map = map.renewed (nextPow2 (initialCapacity.getD 16)) := by
        rw [← created]
        rfl
      have moved := renewed_moved map (by rw [keys]; exact badKey)
        (by rw [values]; exact badValue) power
      rw [← itself] at moved
      exact ⟨moved.table, List.perm_nil.mp moved.entries,
        Nat.le_zero.mp moved.used, moved.length⟩

end Libcute.Collection.HashMap
