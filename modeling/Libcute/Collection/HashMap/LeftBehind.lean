import Mathlib.Data.List.Dedup
import Libcute.Collection.HashMap.Runs

/-!
# Buckets left behind

A refused key or value leaves a used bucket without a key, and iteration
yields a pair of null pointers for it.  A rehash moves these buckets as well:
it looks for the null pointer under the hash of the bucket, so that buckets
with one hash fall together when the equality function takes the null pointer
to be equal to itself.  `Table.rehash_survivors` counts those that remain.
-/

namespace Libcute.Collection.HashMap

open Libcute.Core.Interface
open Libcute.Core.Size
open Libcute.Library.Probing

variable {K V : Type} {map fresh fresh' : Map K V} {b filled : Bucket K V}
  {idx : Nat} {grants : Grants}

/-- The hash of a bucket that is used and has no key. -/
def Bucket.leftHash (b : Bucket K V) : Option Nat :=
  if b.used && b.key.isNone then some b.hash else none

/-- The hashes of the buckets left behind. -/
def leftHashes (buckets : List (Bucket K V)) : List Nat :=
  buckets.filterMap Bucket.leftHash

/-- The hashes of the buckets of a map that were left behind. -/
def Map.leftBehind (map : Map K V) : List Nat := leftHashes map.buckets

/-- How many buckets left behind there are after a rehash. -/
def Map.survivors (map : Map K V) : Nat :=
  if map.keyEquals none none = true then
    map.leftBehind.dedup.length
  else
    map.leftBehind.length

/-! ## Counting -/

theorem leftHash_of_key {key : K} (holds : b.key = some key) :
    b.leftHash = none := by
  unfold Bucket.leftHash
  rw [holds, Option.isNone_some, Bool.and_false]
  rfl

theorem leftHash_of_unused (unused : b.used = false) :
    b.leftHash = none := by
  unfold Bucket.leftHash
  rw [unused]
  rfl

theorem leftHash_of_null (used : b.used = true) (empty : b.key = none) :
    b.leftHash = some b.hash := by
  unfold Bucket.leftHash
  rw [used, empty]
  rfl

/-- A used bucket holds an entry or was left behind. -/
theorem Table.used_split (table : Table map) :
    map.usedCount = map.entries.length + map.leftBehind.length := by
  have paired := table.paired
  have blank := table.blank
  unfold Map.usedCount Map.entries Map.leftBehind leftHashes
  generalize map.buckets = buckets at paired blank
  induction buckets with
  | nil => rfl
  | cons b rest induction =>
      have later := induction
        (fun other member => paired other (List.mem_cons_of_mem _ member))
        (fun other member => blank other (List.mem_cons_of_mem _ member))
      have pair := paired b List.mem_cons_self
      have empty := blank b List.mem_cons_self
      cases used : b.used with
      | false =>
          rw [List.countP_cons_of_neg (by simp [used]),
            List.filterMap_cons_none (Bucket.entry_eq_none (empty used)),
            List.filterMap_cons_none (leftHash_of_unused used), later]
      | true =>
          rw [List.countP_cons_of_pos used, later]
          cases holds : b.key with
          | none =>
              rw [List.filterMap_cons_none (Bucket.entry_eq_none holds),
                List.filterMap_cons_some (leftHash_of_null used holds),
                List.length_cons, Nat.add_assoc]
          | some key =>
              rw [holds, Option.isSome_some, eq_comm,
                Option.isSome_iff_exists] at pair
              rcases pair with ⟨value, carries⟩
              rw [List.filterMap_cons_some
                  (Bucket.entry_eq_some.mpr ⟨holds, carries⟩),
                List.filterMap_cons_none (leftHash_of_key holds),
                List.length_cons]
              omega

/--
Iteration yields the entries, and a pair of null pointers for every bucket
left behind.
-/
theorem Table.iterate_perm (table : Table map) :
    map.iterate.Perm
      (map.entries.map pointers ++
        List.replicate map.leftBehind.length (none, none)) := by
  have paired := table.paired
  have blank := table.blank
  rw [table.iterate_eq]
  unfold Map.entries Map.leftBehind leftHashes
  generalize map.buckets = buckets at paired blank
  induction buckets with
  | nil => exact List.Perm.nil
  | cons b rest induction =>
      have later := induction
        (fun other member => paired other (List.mem_cons_of_mem _ member))
        (fun other member => blank other (List.mem_cons_of_mem _ member))
      have pair := paired b List.mem_cons_self
      have empty := blank b List.mem_cons_self
      rw [shown_cons]
      cases used : b.used with
      | false =>
          rw [List.filterMap_cons_none (Bucket.entry_eq_none (empty used)),
            List.filterMap_cons_none (leftHash_of_unused used)]
          exact later
      | true =>
          rw [if_pos rfl]
          cases holds : b.key with
          | none =>
              rw [holds, Option.isSome_none, eq_comm,
                Option.isSome_eq_false_iff, Option.isNone_iff_eq_none]
                at pair
              rw [List.filterMap_cons_none (Bucket.entry_eq_none holds),
                List.filterMap_cons_some (leftHash_of_null used holds),
                List.length_cons, List.replicate_succ, pair]
              exact (later.cons _).trans List.perm_middle.symm
          | some key =>
              rw [holds, Option.isSome_some, eq_comm,
                Option.isSome_iff_exists] at pair
              rcases pair with ⟨value, carries⟩
              rw [List.filterMap_cons_some
                  (Bucket.entry_eq_some.mpr ⟨holds, carries⟩),
                List.filterMap_cons_none (leftHash_of_key holds),
                List.map_cons, List.cons_append, carries]
              exact later.cons _

/-! ## Filling a bucket -/

theorem leftHashes_set (bucket : map.buckets[idx]? = some b)
    (unused : b.used = false) (filled : Bucket K V) :
    (leftHashes (map.buckets.set idx filled)).Perm
      (filled.leftHash.toList ++ map.leftBehind) := by
  have perms := buckets_set_perm bucket filled
  have before := perms.1.filterMap Bucket.leftHash
  have after := perms.2.filterMap Bucket.leftHash
  rw [List.filterMap_cons, leftHash_of_unused unused] at before
  rw [List.filterMap_cons] at after
  refine after.trans ?_
  cases filled.leftHash with
  | none => exact before.symm
  | some hash => exact before.symm.cons hash

/-- A probe that ended at another bucket still ends there. -/
theorem probe_kept (bucket : map.buckets[idx]? = some b)
    (unused : b.used = false) {other : Nat} (elsewhere : other ≠ idx)
    (length : Nat) {sought : Option K} {hash : Nat}
    (found : map.probe sought hash = some other) :
    ({ map with
        buckets := map.buckets.set idx filled
        length := length } : Map K V).probe sought hash = some other := by
  refine walk_stable found ?_
    (passes_set bucket unused filled length _ _)
  rw [← stop_of_walk found]
  exact stops_set_of_ne elsewhere _ _

/-- A probe ends at a bucket that was filled with what it looks for. -/
theorem probe_filled (bucket : map.buckets[idx]? = some b)
    (unused : b.used = false) (length : Nat) {sought : Option K} {hash : Nat}
    (found : map.probe sought hash = some idx) (same : filled.hash = hash)
    (equal : map.keyEquals filled.key sought = true) :
    ({ map with
        buckets := map.buckets.set idx filled
        length := length } : Map K V).probe sought hash = some idx := by
  have inside := (List.getElem?_eq_some_iff.mp bucket).1
  refine walk_stable found ?_
    (passes_set bucket unused filled length _ _)
  rw [stops_eq (List.getElem?_set_self inside)]
  have matching : (decide (filled.hash = hash) &&
      map.keyEquals filled.key sought) = true := by
    rw [equal, same, decide_eq_true rfl, Bool.and_self]
  cases filled.used with
  | false => rfl
  | true => exact matching

/-! ## Moving -/

/--
What became of the buckets left behind when some buckets of a map have been
moved: they fall together under one hash, or they all remain.
-/
structure LeftMoved (map fresh : Map K V) (done : List (Bucket K V)) :
    Prop where
  merged : map.keyEquals none none = true →
    fresh.leftBehind.Nodup ∧
      (∀ hash, hash ∈ fresh.leftBehind ↔ hash ∈ leftHashes done) ∧
      ∀ (idx : Nat) (b : Bucket K V), fresh.buckets[idx]? = some b →
        b.used = true → b.key = none → fresh.probe none b.hash = some idx
  kept : map.keyEquals none none = false →
    fresh.leftBehind.length = (leftHashes done).length

theorem leftHashes_append (done : List (Bucket K V)) (b : Bucket K V) :
    leftHashes (done ++ [b]) = leftHashes done ++ b.leftHash.toList := by
  unfold leftHashes
  rw [List.filterMap_append]
  congr 1

/-- A bucket is moved to an unused one. -/
theorem LeftMoved.fill
    {done : List (Bucket K V)} (left : LeftMoved map fresh done)
    (alike : Alike map fresh) {at' : Bucket K V}
    (found : fresh.probe b.key b.hash = some idx)
    (bucket : fresh.buckets[idx]? = some at') (unused : at'.used = false)
    (used : b.used = true) (length : Nat) :
    LeftMoved map
      { fresh with
        buckets := fresh.buckets.set idx
          ⟨true, false, b.hash, b.key, b.value⟩
        length := length }
      (done ++ [b]) := by
  have inside := (List.getElem?_eq_some_iff.mp bucket).1
  have perm := leftHashes_set bucket unused
    ⟨true, false, b.hash, b.key, b.value⟩
  have same : (⟨true, false, b.hash, b.key, b.value⟩ :
      Bucket K V).leftHash = b.leftHash := by
    unfold Bucket.leftHash
    rw [used]
  rw [same] at perm
  constructor
  · intro nulls
    rcases left.merged nulls with ⟨nodup, members, located⟩
    refine ⟨?_, ?_, ?_⟩
    · -- A bucket with the same hash would have stopped the probe.
      have new : ∀ hash ∈ b.leftHash.toList, hash ∉ fresh.leftBehind := by
        intro hash among present
        cases holds : b.key with
        | some key =>
            rw [leftHash_of_key holds] at among
            cases among
        | none =>
            rw [leftHash_of_null used holds, Option.toList_some,
              List.mem_singleton] at among
            rcases List.mem_filterMap.mp present with
              ⟨other, member, otherHash⟩
            rcases List.mem_iff_getElem?.mp member with ⟨place, at''⟩
            unfold Bucket.leftHash at otherHash
            split_ifs at otherHash with state
            rw [Bool.and_eq_true, Option.isNone_iff_eq_none] at state
            have ends := located place other at'' state.1 state.2
            rw [Option.some.inj otherHash, among, ← holds, found,
              Option.some.injEq] at ends
            rw [← ends, bucket, Option.some.injEq] at at''
            rw [at'', state.1] at unused
            cases unused
      refine perm.nodup_iff.mpr (List.nodup_append'.mpr ⟨?_, nodup, new⟩)
      cases b.leftHash <;> simp
    · intro hash
      rw [leftHashes_append]
      refine perm.mem_iff.trans ?_
      rw [List.mem_append, List.mem_append, members, or_comm]
    · intro place other at'' otherUsed empty
      dsimp only at at''
      by_cases here : place = idx
      · rw [here, List.getElem?_set_self inside, Option.some.injEq] at at''
        rw [← at''] at empty
        dsimp only at empty
        rw [here, ← at'']
        dsimp only
        rw [empty] at found ⊢
        refine probe_filled bucket unused length found rfl ?_
        rw [alike.keyEquals]
        exact nulls
      · rw [List.getElem?_set_ne (Ne.symm here)] at at''
        exact probe_kept bucket unused here length
          (located place other at'' otherUsed empty)
  · intro apart
    rw [leftHashes_append, List.length_append, ← left.kept apart]
    refine perm.length_eq.trans ?_
    rw [List.length_append, Nat.add_comm]

/-- A bucket left behind falls together with another one. -/
theorem LeftMoved.merge
    {done : List (Bucket K V)} (left : LeftMoved map fresh done)
    {at' : Bucket K V} (bucket : fresh.buckets[idx]? = some at')
    (used : at'.used = true) (empty : at'.key = none)
    (same : at'.hash = b.hash) (nulls : map.keyEquals none none = true)
    (usedB : b.used = true) (emptyB : b.key = none)
    (buckets : fresh'.buckets = fresh.buckets)
    (probes : fresh'.probe = fresh.probe) :
    LeftMoved map fresh' (done ++ [b]) := by
  rcases left.merged nulls with ⟨nodup, members, located⟩
  have kept : fresh'.leftBehind = fresh.leftBehind := by
    unfold Map.leftBehind
    rw [buckets]
  constructor
  · intro _
    rw [kept, buckets, probes]
    refine ⟨nodup, ?_, located⟩
    intro hash
    rw [leftHashes_append, leftHash_of_null usedB emptyB, Option.toList_some,
      List.mem_append, List.mem_singleton, members, iff_self_or]
    rintro rfl
    rw [← members, ← same]
    exact List.mem_filterMap.mpr
      ⟨at', List.mem_of_getElem? bucket, leftHash_of_null used empty⟩
  · intro apart
    rw [nulls] at apart
    cases apart

/-- The move of one bucket. -/
theorem LeftMoved.step
    {done rest : List (Bucket K V)} (left : LeftMoved map fresh done)
    (moved : Moved map fresh done) (table : Table map)
    (lawful : Lawful map) (split : map.buckets = done ++ b :: rest)
    (moves : fresh.moveBucket b = some fresh') :
    LeftMoved map fresh' (done ++ [b]) := by
  have member : b ∈ map.buckets := by
    rw [split]
    exact List.mem_append_right _ List.mem_cons_self
  unfold Map.moveBucket at moves
  split_ifs at moves with skipped
  · have unused : b.used = false := by
      rcases skipped with unused | deleted
      · exact unused
      · rw [table.live b member] at deleted
        cases deleted
    cases moves
    have same : leftHashes (done ++ [b]) = leftHashes done := by
      rw [leftHashes_append, leftHash_of_unused unused]
      exact List.append_nil _
    constructor
    · rw [same]
      exact left.merged
    · rw [same]
      exact left.kept
  · have used : b.used = true := by
      rw [← Bool.not_eq_false]
      exact fun unused => skipped (Or.inl unused)
    rw [moved.table.findSlot_eq] at moves
    cases found : fresh.probe b.key b.hash with
    | none =>
        rw [found] at moves
        cases moves
    | some idx =>
        rw [found] at moves
        cases moves
        rcases probe_found found with ⟨at', bucket, state⟩
        rcases state with unused | ⟨usedAt, hashAt, equal⟩
        · exact left.fill moved.alike found bucket unused used _
        · have empty : b.key = none := by
            cases holds : b.key with
            | none => rfl
            | some key =>
                -- The keys differ, so that the probe ends at an unused one.
                have hash : b.hash = fresh.hashOf key := by
                  rw [moved.alike.hashOf]
                  exact table.hashed b member key holds
                rw [holds, hash] at found
                rcases moved.table.probe_new
                    (moved.new table lawful split holds) found with
                  ⟨other, there, unused⟩
                rw [bucket, Option.some.injEq] at there
                rw [there, unused] at usedAt
                cases usedAt
          have nullSafe := moved.alike.nullSafe
            (table.silent ⟨b, member, used, empty⟩)
          have emptyAt : at'.key = none := by
            cases keyAt : at'.key with
            | none => rfl
            | some other =>
                rw [empty, keyAt, (nullSafe other).2] at equal
                cases equal
          have nulls : map.keyEquals none none = true := by
            rw [empty, emptyAt, moved.alike.keyEquals] at equal
            exact equal
          have present := List.mem_of_getElem? bucket
          have restored :
              fresh.buckets.set idx ⟨true, false, b.hash, b.key, b.value⟩ =
                fresh.buckets := by
            have kept : (⟨true, false, b.hash, b.key, b.value⟩ :
                Bucket K V) = at' := by
              have liveAt := moved.table.live _ present
              have valueAt := moved.table.value_null present emptyAt
              rw [empty, table.value_null member empty, ← hashAt]
              rcases at' with ⟨used', deleted', hash', key', value'⟩
              dsimp only at usedAt liveAt emptyAt valueAt ⊢
              rw [usedAt, liveAt, emptyAt, valueAt]
            rcases List.getElem?_eq_some_iff.mp bucket with ⟨inside, there⟩
            rw [kept, ← there]
            exact List.set_getElem_self inside
          refine left.merge bucket usedAt emptyAt hashAt nulls used empty
            restored ?_
          funext sought hash
          unfold Map.probe Map.stops
          dsimp only
          rw [restored]
          rfl

/-- The copy loop. -/
theorem LeftMoved.run
    {done rest : List (Bucket K V)} (left : LeftMoved map fresh done)
    (moved : Moved map fresh done) (table : Table map)
    (lawful : Lawful map) (split : map.buckets = done ++ rest)
    (room : map.usedCount < fresh.capacity)
    (moves : fresh.moveBuckets rest = some fresh') :
    LeftMoved map fresh' map.buckets := by
  induction rest generalizing fresh done with
  | nil =>
      rw [List.append_nil] at split
      cases moves
      rw [split]
      exact left
  | cons b rest induction =>
      rcases moved.step table lawful split room with
        ⟨next, one, moved', capacity⟩
      have split' : map.buckets = (done ++ [b]) ++ rest := by
        rw [split, List.append_assoc, List.singleton_append]
      unfold Map.moveBuckets at moves
      rw [one] at moves
      exact induction (left.step moved table lawful split one) moved' split'
        (by rw [capacity]; exact room) moves

/-- A rehash keeps one bucket left behind of each hash, or all of them. -/
theorem Table.rehash_survivors
    (table : Table map) (lawful : Lawful map)
    (given : map.roomGranted grants = true)
    (rehashes : map.rehash (sizeMul map.capacity 2) grants.buckets =
      some (none, fresh')) :
    fresh'.leftBehind.length = map.survivors := by
  rcases table.doubled with ⟨atLeast, doubles, wanted, fits, asked⟩
  have power :
      ∃ exponent ≤ 58,
        Map.rehashCapacity (sizeMul map.capacity 2) = 2 ^ exponent := by
    rw [asked]
    unfold Map.roomGranted at given
    rw [asked] at given
    exact table_capacity fits given
  have positive := table.positive
  have most := table.usedCount_le
  have moves : (map.renewed
      (Map.rehashCapacity (sizeMul map.capacity 2))).moveBuckets
        map.buckets = some fresh' := by
    unfold Map.rehash at rehashes
    unfold Map.roomGranted at given
    dsimp only at rehashes
    rw [if_neg (by simp [given])] at rehashes
    rcases Option.map_eq_some_iff.mp rehashes with ⟨last, moves, same⟩
    cases same
    exact moves
  generalize Map.rehashCapacity (sizeMul map.capacity 2) = capacity at *
  have clear : (map.renewed capacity).leftBehind = [] := by
    unfold Map.leftBehind leftHashes
    rw [List.filterMap_eq_nil_iff]
    intro b member
    rw [List.eq_of_mem_replicate member]
    rfl
  have start : LeftMoved map (map.renewed capacity) [] := by
    constructor
    · intro _
      rw [clear]
      refine ⟨List.nodup_nil, fun _ => Iff.rfl, ?_⟩
      intro idx b bucket used
      rw [List.eq_of_mem_replicate (List.mem_of_getElem? bucket)] at used
      cases used
    · intro _
      rw [clear]
      rfl
  have left := start.run
    (renewed_moved map table.keyLayout table.valueLayout power) table lawful
    rfl (show map.usedCount < capacity by omega) moves
  unfold Map.survivors
  cases nulls : map.keyEquals none none with
  | true =>
      rw [if_pos rfl]
      rcases left.merged nulls with ⟨nodup, members, _⟩
      refine (List.Perm.length_eq ?_)
      refine (List.perm_ext_iff_of_nodup nodup (List.nodup_dedup _)).mpr ?_
      intro hash
      rw [List.mem_dedup]
      exact members hash
  | false =>
      rw [if_neg Bool.false_ne_true]
      exact left.kept nulls

end Libcute.Collection.HashMap
