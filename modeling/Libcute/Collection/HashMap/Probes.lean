import Libcute.Collection.HashMap
import Libcute.Library.Probing

/-!
# Tables and their probes

`Table` is the invariant of a map.  Its main field is `located`: the probe
of a stored key ends at the bucket of the key.  That no unused bucket lies
in between, that a key is stored once and that a lookup finds it are
consequences.

A bucket may be used without holding a key: an insertion that runs out of
memory leaves one behind.  Such a bucket is passed by every probe for a key,
provided that the equality function tells the null pointer from a key.

`get_eq` reads a lookup off the entries of the table.  What it answers for a
missing key depends on the number of used buckets alone: with all of them
used the probe does not end.
-/

namespace Libcute.Collection.HashMap

open Libcute.Core.Interface
open Libcute.Library.AssocList
open Libcute.Library.Probing

variable {K V : Type} {map : Map K V} {key : K} {value : V}
  {idx : Nat} {b : Bucket K V}

/-- The entry of a bucket. -/
def Bucket.entry (b : Bucket K V) : Option (K × V) :=
  match b.key, b.value with
  | some key, some value => some (key, value)
  | _, _ => none

namespace Map

/-- The keys that the equality function identifies. -/
def same (map : Map K V) (left right : K) : Bool :=
  map.keyEquals (some left) (some right)

/-- The entries of the table in bucket order. -/
def entries (map : Map K V) : List (K × V) :=
  map.buckets.filterMap Bucket.entry

/-- The number of used buckets. -/
def usedCount (map : Map K V) : Nat :=
  map.buckets.countP Bucket.used

/-- A probe for a key ends here: the bucket is unused or holds the key. -/
def stops
    (map : Map K V) (sought : Option K) (hash : Nat) (idx : Nat) : Bool :=
  match map.buckets[idx]? with
  | none => false
  | some b =>
      !b.used || (b.hash = hash && map.keyEquals b.key sought)

/-- One turn of probing. -/
def probe
    (map : Map K V) (sought : Option K) (hash : Nat) : Option Nat :=
  walk (ringNext (map.capacity - 1)) (map.stops sought hash) map.capacity
    (hash &&& (map.capacity - 1))

end Map

/-- Equality is an equivalence on keys, and equal keys hash equally. -/
structure Lawful (map : Map K V) : Prop where
  identifies : Identifies map.same
  hashes : ∀ left right,
    map.same left right = true → map.hashOf left = map.hashOf right

/-- The equality function tells the null pointer from a key. -/
def NullSafe (map : Map K V) : Prop :=
  ∀ key,
    map.keyEquals none (some key) = false ∧
      map.keyEquals (some key) none = false

/-- The default functions have both properties. -/
theorem lawful_default
    {bytes : K → List UInt8}
    (hashFn : map.hashFn = defaultHash bytes)
    (equalsFn : map.equalsFn = defaultEquals bytes) :
    Lawful map ∧ NullSafe map := by
  have same : ∀ left right,
      map.same left right = true ↔
        (bytes left).take map.keyLayout.elemSize =
          (bytes right).take map.keyLayout.elemSize := by
    intro left right
    simp [Map.same, Map.keyEquals, equalsFn, defaultEquals]
  refine ⟨⟨⟨?_, ?_, ?_⟩, ?_⟩, ?_⟩
  · intro key
    rw [same]
  · intro left right equal
    rw [same] at equal ⊢
    exact equal.symm
  · intro left middle right first second
    rw [same] at first second ⊢
    exact first.trans second
  · intro left right equal
    rw [same] at equal
    simp only [Map.hashOf, hashFn, defaultHash, equal]
  · intro key
    simp [Map.keyEquals, equalsFn, defaultEquals]

/-- The invariant of a map. -/
structure Table (map : Map K V) : Prop where
  keyLayout : ¬ map.keyLayout.Invalid
  valueLayout : ¬ map.valueLayout.Invalid
  size : map.buckets.length = map.capacity
  power : ∃ exponent ≤ 58, map.capacity = 2 ^ exponent
  live : ∀ b ∈ map.buckets, b.deleted = false
  blank : ∀ b ∈ map.buckets, b.used = false → b.key = none
  paired : ∀ b ∈ map.buckets, b.key.isSome = b.value.isSome
  hashed : ∀ b ∈ map.buckets, ∀ key,
    b.key = some key → b.hash = map.hashOf key
  located : ∀ (idx : Nat) (b : Bucket K V) (key : K),
    map.buckets[idx]? = some b → b.key = some key →
      map.probe (some key) (map.hashOf key) = some idx
  silent :
    (∃ b ∈ map.buckets, b.used = true ∧ b.key = none) → NullSafe map

/-! ## The loops of the source -/

theorem Table.positive (table : Table map) : 0 < map.capacity := by
  rcases table.power with ⟨exponent, _, capacity⟩
  rw [capacity]
  exact Nat.two_pow_pos exponent

/-- The next index of a probe lies in the table. -/
theorem Table.next_lt (table : Table map) (idx : Nat) :
    (idx + 1) &&& (map.capacity - 1) < map.buckets.length := by
  have below : (idx + 1) &&& (map.capacity - 1) ≤ map.capacity - 1 :=
    Nat.and_le_right
  have positive := table.positive
  have size := table.size
  omega

theorem Table.home_lt (table : Table map) (hash : Nat) :
    hash &&& (map.capacity - 1) < map.buckets.length := by
  have below : hash &&& (map.capacity - 1) ≤ map.capacity - 1 :=
    Nat.and_le_right
  have positive := table.positive
  have size := table.size
  omega

theorem stops_eq
    (bucket : map.buckets[idx]? = some b)
    (sought : Option K) (hash : Nat) :
    map.stops sought hash idx =
      (!b.used || (b.hash = hash && map.keyEquals b.key sought)) := by
  simp only [Map.stops, bucket]

/-- Without deleted buckets `cu_HashMap_find_slot` is a plain walk. -/
theorem Table.findSlotLoop_eq
    (table : Table map) (sought : Option K) (hash fuel : Nat)
    (inside : idx < map.buckets.length) :
    map.findSlotLoop sought hash fuel none idx =
      walk (ringNext (map.capacity - 1)) (map.stops sought hash) fuel idx := by
  induction fuel generalizing idx with
  | zero => rfl
  | succ fuel induction =>
      have bucket := List.getElem?_eq_getElem inside
      have live := table.live _ (List.getElem_mem inside)
      have later := induction (table.next_lt idx)
      unfold Map.findSlotLoop walk
      rw [stops_eq bucket, bucket]
      dsimp only
      generalize map.buckets[idx] = b at live
      by_cases unused : b.used = false
      · rw [if_pos unused, if_pos (by simp [unused])]
        rfl
      · rw [if_neg unused, if_neg (by simp [live])]
        rw [Bool.not_eq_false] at unused
        by_cases found : b.hash = hash ∧ map.keyEquals b.key sought = true
        · rw [if_pos found, if_pos (by simp [found])]
        · rw [if_neg found, later, if_neg]
          · rfl
          · simpa [unused] using found

theorem Table.findSlot_eq
    (table : Table map) (sought : Option K) (hash : Nat) :
    map.findSlot sought hash = map.probe sought hash :=
  table.findSlotLoop_eq sought hash map.capacity (table.home_lt hash)

theorem Table.lookupLoop_eq
    (table : Table map) (sought : Option K) (hash fuel : Nat)
    (inside : idx < map.buckets.length) :
    map.lookupLoop sought hash fuel idx =
      (walk (ringNext (map.capacity - 1)) (map.stops sought hash) fuel
        idx).map fun found =>
          if (map.buckets[found]?.any Bucket.used) = true then some found
          else none := by
  induction fuel generalizing idx with
  | zero => rfl
  | succ fuel induction =>
      have bucket := List.getElem?_eq_getElem inside
      have live := table.live _ (List.getElem_mem inside)
      have later := induction (table.next_lt idx)
      unfold Map.lookupLoop walk
      rw [stops_eq bucket, bucket]
      dsimp only
      by_cases unused : map.buckets[idx].used = false
      · rw [if_pos unused, if_pos (by simp [unused])]
        simp [bucket, unused]
      · rw [if_neg unused]
        rw [Bool.not_eq_false] at unused
        by_cases found :
            map.buckets[idx].hash = hash ∧
              map.keyEquals map.buckets[idx].key sought = true
        · rw [if_pos ⟨live, found⟩, if_pos (by simp [found])]
          simp [bucket, unused]
        · rw [if_neg (fun all => found all.2), later, if_neg]
          · rfl
          · simpa [unused] using found

theorem Table.lookupBucket_eq
    (table : Table map) (sought : Option K) (hash : Nat) :
    map.lookupBucket sought hash =
      (map.probe sought hash).map fun found =>
        if (map.buckets[found]?.any Bucket.used) = true then some found
        else none :=
  table.lookupLoop_eq sought hash map.capacity (table.home_lt hash)

/-! ## Entries -/

theorem Bucket.entry_eq_some :
    b.entry = some (key, value) ↔
      b.key = some key ∧ b.value = some value := by
  unfold Bucket.entry
  cases b.key <;> cases b.value <;> simp

theorem Bucket.entry_eq_none (empty : b.key = none) : b.entry = none := by
  unfold Bucket.entry
  rw [empty]

theorem mem_entries :
    (key, value) ∈ map.entries ↔
      ∃ b ∈ map.buckets, b.key = some key ∧ b.value = some value := by
  simp only [Map.entries, List.mem_filterMap, Bucket.entry_eq_some]

/-- A bucket with a key has an entry. -/
theorem Table.entry_of_key
    (table : Table map) (member : b ∈ map.buckets)
    (holds : b.key = some key) :
    ∃ value, b.value = some value ∧ (key, value) ∈ map.entries := by
  have paired := table.paired b member
  rw [holds, Option.isSome_some, eq_comm, Option.isSome_iff_exists] at paired
  rcases paired with ⟨value, stored⟩
  exact ⟨value, stored, mem_entries.mpr ⟨b, member, holds, stored⟩⟩

theorem Table.used_of_key
    (table : Table map) (member : b ∈ map.buckets)
    (holds : b.key = some key) : b.used = true := by
  rw [← Bool.not_eq_false]
  intro unused
  rw [table.blank b member unused] at holds
  contradiction

theorem Table.entries_length_le (table : Table map) :
    map.entries.length ≤ map.usedCount := by
  have subset : map.buckets.countP (fun b => b.entry.isSome) ≤
      map.buckets.countP Bucket.used := by
    apply List.countP_mono_left
    intro b member holds
    rcases Option.isSome_iff_exists.mp holds with ⟨entry, found⟩
    exact table.used_of_key member (Bucket.entry_eq_some.mp found).1
  rw [← List.length_filterMap_eq_countP] at subset
  exact subset

theorem Table.usedCount_le (table : Table map) :
    map.usedCount ≤ map.capacity := by
  rw [← table.size]
  exact List.countP_le_length

/-- The table has an unused bucket. -/
theorem Table.vacancy_iff (table : Table map) :
    map.usedCount < map.capacity ↔
      ∃ (idx : Nat) (b : Bucket K V),
        map.buckets[idx]? = some b ∧ b.used = false := by
  rw [Nat.lt_iff_le_and_ne, and_iff_right table.usedCount_le,
    ← table.size, Map.usedCount, ne_eq, List.countP_eq_length]
  constructor
  · intro some_unused
    simp only [not_forall] at some_unused
    rcases some_unused with ⟨b, member, unused⟩
    rcases List.mem_iff_getElem?.mp member with ⟨idx, bucket⟩
    exact ⟨idx, b, bucket, by simpa using unused⟩
  · rintro ⟨idx, b, bucket, unused⟩ all_used
    rw [all_used b (List.mem_of_getElem? bucket)] at unused
    contradiction

/-! ## Probes -/

theorem probe_found
    {sought : Option K} {hash : Nat}
    (found : map.probe sought hash = some idx) :
    ∃ b, map.buckets[idx]? = some b ∧
      (b.used = false ∨
        b.used = true ∧ b.hash = hash ∧
          map.keyEquals b.key sought = true) := by
  have stops := stop_of_walk found
  cases bucket : map.buckets[idx]? with
  | none => simp [Map.stops, bucket] at stops
  | some b =>
      refine ⟨b, rfl, ?_⟩
      rw [stops_eq bucket] at stops
      cases used : b.used with
      | false => exact Or.inl rfl
      | true =>
          right
          simpa [used] using stops

/-- With an unused bucket every probe ends. -/
theorem Table.probe_ends
    (table : Table map) (vacancy : map.usedCount < map.capacity)
    (sought : Option K) (hash : Nat) :
    ∃ idx, map.probe sought hash = some idx := by
  rcases table.vacancy_iff.mp vacancy with ⟨idx, b, bucket, unused⟩
  rcases table.power with ⟨exponent, _, capacity⟩
  have inside := (List.getElem?_eq_some_iff.mp bucket).1
  rw [table.size, capacity] at inside
  rw [← Option.isSome_iff_exists, Map.probe, capacity, ring_walk_ends]
  refine ⟨idx, inside, ?_⟩
  rw [stops_eq bucket, unused]
  rfl

/-- A loop that does not end within one turn never ends. -/
theorem Table.endless
    (table : Table map) {sought : Option K} {hash : Nat}
    (full : map.probe sought hash = none) (fuel : Nat) :
    map.lookupLoop sought hash fuel (hash &&& (map.capacity - 1)) = none ∧
      map.findSlotLoop sought hash fuel none
        (hash &&& (map.capacity - 1)) = none := by
  have never :
      walk (ringNext (map.capacity - 1)) (map.stops sought hash) fuel
        (hash &&& (map.capacity - 1)) = none := by
    rcases table.power with ⟨exponent, _, capacity⟩
    unfold Map.probe at full
    rw [capacity] at full ⊢
    exact ring_walk_endless full fuel
  rw [table.lookupLoop_eq sought hash fuel (table.home_lt hash),
    table.findSlotLoop_eq sought hash fuel (table.home_lt hash), never]
  exact ⟨rfl, rfl⟩

theorem Table.key_not_null_matches
    (table : Table map) (member : b ∈ map.buckets) (used : b.used = true)
    (equal : map.keyEquals b.key (some key) = true) :
    ∃ stored, b.key = some stored ∧ map.same stored key = true := by
  cases holds : b.key with
  | none =>
      have nullSafe := table.silent ⟨b, member, used, holds⟩
      rw [holds, (nullSafe key).1] at equal
      contradiction
  | some stored =>
      rw [holds] at equal
      exact ⟨stored, rfl, equal⟩

/-- Equal keys are probed alike. -/
theorem Table.stops_congr
    (table : Table map) (lawful : Lawful map) {left right : K}
    (equal : map.same left right = true) :
    map.stops (some left) (map.hashOf left) =
      map.stops (some right) (map.hashOf right) := by
  funext idx
  cases bucket : map.buckets[idx]? with
  | none => simp only [Map.stops, bucket]
  | some b =>
      rw [stops_eq bucket, stops_eq bucket, lawful.hashes left right equal]
      cases used : b.used with
      | false => rfl
      | true =>
          have member := List.mem_of_getElem? bucket
          cases holds : b.key with
          | none =>
              have nullSafe := table.silent ⟨b, member, used, holds⟩
              rw [(nullSafe left).1, (nullSafe right).1]
          | some stored =>
              have congruent :=
                lawful.identifies.congr_right equal stored
              unfold Map.same at congruent
              rw [congruent]

/-- The probe of a key ends at the bucket of an equal stored key. -/
theorem Table.probe_stored
    (table : Table map) (lawful : Lawful map)
    (bucket : map.buckets[idx]? = some b) {stored : K}
    (holds : b.key = some stored) (equal : map.same stored key = true) :
    map.probe (some key) (map.hashOf key) = some idx := by
  have located := table.located idx b stored bucket holds
  unfold Map.probe at located ⊢
  rw [← table.stops_congr lawful equal,
    ← lawful.hashes stored key equal]
  exact located

/-- The probe of a missing key ends at an unused bucket. -/
theorem Table.probe_new
    (table : Table map)
    (new : ∀ entry ∈ map.entries, map.same entry.1 key = false)
    (found : map.probe (some key) (map.hashOf key) = some idx) :
    ∃ b, map.buckets[idx]? = some b ∧ b.used = false := by
  rcases probe_found found with ⟨b, bucket, unused | ⟨used, _, equal⟩⟩
  · exact ⟨b, bucket, unused⟩
  · have member := List.mem_of_getElem? bucket
    rcases table.key_not_null_matches member used equal with
      ⟨stored, holds, alike⟩
    rcases table.entry_of_key member holds with ⟨value, _, inside⟩
    have different := new _ inside
    rw [alike] at different
    contradiction

/-- No key is stored twice. -/
theorem Table.distinct (table : Table map) (lawful : Lawful map) :
    Distinct map.same map.entries := by
  unfold Distinct Map.entries
  rw [List.pairwise_filterMap, List.pairwise_iff_getElem]
  intro first second firstInside secondInside before
  rintro ⟨left, leftValue⟩ leftEntry ⟨right, rightValue⟩ rightEntry
  rw [← Bool.not_eq_true]
  intro equal
  have leftHolds := (Bucket.entry_eq_some.mp leftEntry).1
  have rightHolds := (Bucket.entry_eq_some.mp rightEntry).1
  have leftBucket := List.getElem?_eq_getElem firstInside
  have rightBucket := List.getElem?_eq_getElem secondInside
  have one := table.probe_stored lawful leftBucket leftHolds equal
  rw [table.located second _ right rightBucket rightHolds] at one
  cases one
  exact Nat.lt_irrefl _ before

/--
A lookup answers from the entries; for a missing key it needs an unused
bucket to end.
-/
theorem Table.get_eq
    (table : Table map) (lawful : Lawful map) (key : K) :
    map.get key =
      match lookup map.same map.entries key with
      | some value => some (some (some value))
      | none =>
          if map.usedCount < map.capacity then some none else none := by
  unfold Map.get
  rw [if_neg table.keyLayout, if_neg table.positive.ne',
    table.lookupBucket_eq]
  cases stored : lookup map.same map.entries key with
  | some value =>
      rcases mem_of_lookup stored with ⟨⟨other, kept⟩, member, equal, rfl⟩
      rcases mem_entries.mp member with ⟨b, inside, holds, carries⟩
      rcases List.mem_iff_getElem?.mp inside with ⟨idx, bucket⟩
      rw [table.probe_stored lawful bucket holds equal]
      simp [bucket, table.used_of_key inside holds, carries]
  | none =>
      have new := lookup_eq_none.mp stored
      cases ends : map.probe (some key) (map.hashOf key) with
      | none =>
          rw [if_neg]
          · rfl
          · intro vacancy
            rcases table.probe_ends vacancy (some key) (map.hashOf key) with
              ⟨idx, found⟩
            rw [ends] at found
            contradiction
      | some idx =>
          rcases table.probe_new new ends with ⟨b, bucket, unused⟩
          rw [if_pos (table.vacancy_iff.mpr ⟨idx, b, bucket, unused⟩)]
          simp [bucket, unused]

/-! ## Iteration -/

/-- What iteration shows of a list of buckets. -/
def shown (buckets : List (Bucket K V)) : List (Option K × Option V) :=
  (buckets.filter Bucket.used).map fun b => (b.key, b.value)

theorem shown_cons (b : Bucket K V) (rest : List (Bucket K V)) :
    shown (b :: rest) =
      if b.used then (b.key, b.value) :: shown rest else shown rest := by
  unfold shown
  cases used : b.used <;> simp [used]

/-- One call skips the unused buckets. -/
theorem Table.iterLoop_spec
    (table : Table map) {fuel : Nat}
    (within : idx + fuel = map.buckets.length) :
    (shown (map.buckets.drop idx) = [] ∧
        (map.iterLoop fuel idx).2 = none) ∨
      ∃ later pair,
        map.iterLoop fuel idx = (later, some pair) ∧
          idx < later ∧ later ≤ map.buckets.length ∧
          shown (map.buckets.drop idx) =
            pair :: shown (map.buckets.drop later) := by
  induction fuel generalizing idx with
  | zero =>
      left
      rw [List.drop_eq_nil_of_le (by omega)]
      exact ⟨rfl, rfl⟩
  | succ fuel induction =>
      have inside : idx < map.buckets.length := by omega
      have bucket := List.getElem?_eq_getElem inside
      have live := table.live _ (List.getElem_mem inside)
      rw [List.drop_eq_getElem_cons inside, shown_cons]
      unfold Map.iterLoop
      rw [bucket]
      dsimp only
      by_cases used : map.buckets[idx].used = true
      · right
        rw [if_pos ⟨used, live⟩, if_pos used]
        exact ⟨idx + 1, _, rfl, by omega, by omega, rfl⟩
      · rw [if_neg used, if_neg (fun both => used both.1)]
        have rest : idx + 1 + fuel = map.buckets.length := by omega
        rcases induction rest with
          finished | ⟨later, pair, yields, after, bounded, shows⟩
        · exact Or.inl finished
        · exact Or.inr ⟨later, pair, yields, by omega, bounded, shows⟩

theorem Table.iterateFrom_eq
    (table : Table map) {calls : Nat} (inside : idx ≤ map.buckets.length)
    (enough : map.buckets.length - idx < calls) :
    map.iterateFrom calls idx = shown (map.buckets.drop idx) := by
  induction calls generalizing idx with
  | zero => omega
  | succ calls induction =>
      have size := table.size
      unfold Map.iterateFrom Map.iter
      have within :
          idx + (map.capacity - idx) = map.buckets.length := by
        omega
      rcases table.iterLoop_spec within with
        ⟨finished, ends⟩ | ⟨later, pair, yields, after, bounded, rest⟩
      · rw [finished]
        cases result : map.iterLoop (map.capacity - idx) idx with
        | mk last pair =>
            rw [result] at ends
            dsimp only at ends
            rw [ends]
      · rw [yields, rest]
        dsimp only
        rw [induction bounded (by omega)]

/-- Iteration yields every used bucket once. -/
theorem Table.iterate_eq (table : Table map) :
    map.iterate = shown map.buckets := by
  have size := table.size
  unfold Map.iterate
  rw [table.iterateFrom_eq (Nat.zero_le _) (by omega), List.drop_zero]

/-- A pair of pointers to a stored key and its value. -/
def pointers (entry : K × V) : Option K × Option V :=
  (some entry.1, some entry.2)

/-- The pairs without null pointers are the entries. -/
theorem Table.iterate_filter (table : Table map) :
    map.iterate.filter (fun pair => pair.1.isSome && pair.2.isSome) =
      map.entries.map pointers := by
  rw [table.iterate_eq, Map.entries]
  have used : ∀ b ∈ map.buckets, ∀ key,
      b.key = some key → b.used = true :=
    fun b member key => table.used_of_key member
  generalize map.buckets = buckets at used
  induction buckets with
  | nil => rfl
  | cons b rest induction =>
      have later := induction fun other member =>
        used other (List.mem_cons_of_mem _ member)
      rw [shown_cons, List.filterMap_cons]
      cases holds : b.key with
      | none =>
          rw [Bucket.entry_eq_none holds]
          cases b.used <;> simp [later]
      | some key =>
          rw [used b (List.mem_cons_self ..) key holds, if_pos rfl]
          cases carries : b.value with
          | none => simp [Bucket.entry, holds, carries, later]
          | some value =>
              simp [Bucket.entry, holds, carries, later, pointers]

/-- Without buckets left behind iteration yields the entries. -/
theorem Table.iterate_entries
    (table : Table map) (exactly : map.entries.length = map.usedCount) :
    map.iterate = map.entries.map pointers := by
  rw [← table.iterate_filter, eq_comm, List.filter_eq_self,
    ← List.length_filter_eq_length_iff, table.iterate_filter,
    table.iterate_eq, List.length_map, exactly, Map.usedCount, shown,
    List.length_map, List.countP_eq_length_filter]

end Libcute.Collection.HashMap
