import Libcute.Collection.HashMap.LeftBehind

/-!
# Refused allocations

An insertion marks its bucket as used before it asks for the key and the
value.  When one of them is refused the call reports the error, but the
bucket stays used.  Such buckets are not counted in `length`, so the load
check does not see them, until the next rehash counts them as entries.

`insert_failure_unchanged` says exactly when a failed insertion is not
observable, and `vacancy_of_spared` which runs keep an unused bucket.  Both
assume an equality function that tells the null pointer, the key of a bucket
left behind, from a key, as the default one does.
-/

namespace Libcute.Collection.HashMap

open Libcute.Core.Interface
open Libcute.Core.Size
open Libcute.Library.AssocList
open Libcute.Library.Transition

variable {K V : Type} {map map' fresh : Map K V} {key : K} {value : V}
  {grants : Grants} {error : Option Error}

/-- The map after a call; a call that does not end leaves no map to use. -/
def Map.step (map : Map K V) (call : Call K V) : Map K V :=
  match map.insert call.key call.value call.grants with
  | some (_, map) => map
  | none => map

/-- The maps that insertions reach, whatever is granted to them. -/
def Reached (fresh : Map K V) : Map K V → Prop :=
  Reachable (fun map => map = fresh) (fun _ (_ : Call K V) => True) Map.step

/--
The interface does not tell the maps apart: it looks up the same, and
iteration yields the same pairs of pointers, each as often as before.
-/
structure Unchanged (map map' : Map K V) : Prop where
  get : ∀ key, map'.get key = map.get key
  pairs : map'.iterate.Perm map.iterate
  length : map'.length = map.length

/--
The failure does no harm: the larger table is refused, or the rehash makes
up for the bucket that the failure leaves behind.  Then every bucket left
behind before is counted in the length, and two of them fall together.
-/
def Harmless (map : Map K V) (grants : Grants) : Prop :=
  map.rehashDue = true ∧
    (map.roomGranted grants = false ∨
      map.usedCount = map.length ∧
        map.survivors + 1 = map.leftBehind.length)

/-! ## The invariant of all runs -/

/-- What holds of a map after any calls. -/
structure Sound (map : Map K V) : Prop where
  table : Table map
  lawful : Lawful map
  nullSafe : NullSafe map
  short : map.length < map.capacity

/-- How a call that returns changes the table it stores into. -/
inductive Placed
    (map map' : Map K V) (key : K) (value : V) : Option Error → Prop where
  | stored
      (present : ∃ entry ∈ map.entries, map.same entry.1 key = true)
      (becomes : Becomes map map' (insert map.same map.entries key value)
        map.capacity map.usedCount map.length) :
      Placed map map' key value none
  | new
      (missing : ∀ entry ∈ map.entries, map.same entry.1 key = false)
      (vacancy : map.usedCount < map.capacity)
      (becomes : Becomes map map' ((key, value) :: map.entries)
        map.capacity (map.usedCount + 1) (map.length + 1)) :
      Placed map map' key value none
  | left
      (missing : ∀ entry ∈ map.entries, map.same entry.1 key = false)
      (vacancy : map.usedCount < map.capacity)
      (becomes : Becomes map map' map.entries
        map.capacity (map.usedCount + 1) map.length) :
      Placed map map' key value (some .oom)

theorem Table.placed
    (table : Table map) (lawful : Lawful map) (nullSafe : NullSafe map)
    (result : map.place key value grants = some (error, map')) :
    Placed map map' key value error := by
  rcases stored_or_new map.same map.entries key with present | missing
  · rcases table.place_stored lawful present value grants with
      ⟨after, placed, becomes⟩
    rw [placed] at result
    cases result
    exact .stored present becomes
  · by_cases vacancy : map.usedCount < map.capacity
    · by_cases given : grants.key = true ∧ grants.value = true
      · rcases table.place_new lawful missing vacancy given value with
          ⟨after, placed, becomes⟩
        rw [placed] at result
        cases result
        exact .new missing vacancy becomes
      · rcases table.place_refused lawful nullSafe missing vacancy given
            value with
          ⟨after, placed, becomes⟩
        rw [placed] at result
        cases result
        exact .left missing vacancy becomes
    · rw [table.place_full missing vacancy] at result
      contradiction

theorem Placed.sound
    (placed : Placed map map' key value error)
    (lawful : Lawful map) (nullSafe : NullSafe map)
    (room : map.length + 1 < map.capacity) : Sound map' := by
  cases placed with
  | stored present becomes =>
      refine ⟨becomes.table, becomes.alike.lawful lawful,
        becomes.alike.nullSafe nullSafe, ?_⟩
      rw [becomes.length, becomes.capacity]
      omega
  | new missing vacancy becomes =>
      refine ⟨becomes.table, becomes.alike.lawful lawful,
        becomes.alike.nullSafe nullSafe, ?_⟩
      rw [becomes.length, becomes.capacity]
      exact room
  | left missing vacancy becomes =>
      refine ⟨becomes.table, becomes.alike.lawful lawful,
        becomes.alike.nullSafe nullSafe, ?_⟩
      rw [becomes.length, becomes.capacity]
      omega

/--
The three ways a call that returns ends: the larger table is refused, the
pair goes to a larger table, or to the table there is.
-/
inductive Inserted
    (map map' : Map K V) (key : K) (value : V) (grants : Grants) :
    Option Error → Prop where
  | refused
      (due : map.rehashDue = true) (denied : map.roomGranted grants = false)
      (same : map' = map) :
      Inserted map map' key value grants (some .oom)
  | moved {moved : Map K V} {used : Nat} {error : Option Error}
      (due : map.rehashDue = true) (given : map.roomGranted grants = true)
      (fewer : used ≤ map.usedCount)
      (survive : moved.leftBehind.length = map.survivors)
      (wider : map.usedCount + 1 < moved.capacity)
      (becomes : Becomes map moved map.entries moved.capacity used
        map.usedCount)
      (placed : Placed moved map' key value error) :
      Inserted map map' key value grants error
  | direct {error : Option Error}
      (due : map.rehashDue = false)
      (room : 2 * (map.length + 1) < map.capacity)
      (placed : Placed map map' key value error) :
      Inserted map map' key value grants error

theorem Sound.inserted
    (sound : Sound map)
    (result : map.insert key value grants = some (error, map')) :
    Inserted map map' key value grants error := by
  have table := sound.table
  rcases table.insert_cases sound.lawful key value grants with
    ⟨due, denied, inserts⟩ |
      ⟨due, given, moved, used, rehashes, inserts, fewer, becomes⟩ |
        ⟨due, inserts⟩
  · rw [inserts] at result
    cases result
    exact .refused due denied rfl
  · rw [inserts] at result
    have becomes' := becomes
    rw [← becomes.capacity] at becomes'
    have wider : map.usedCount + 1 < moved.capacity := by
      rcases table.doubled with ⟨atLeast, doubles, _⟩
      have most := table.usedCount_le
      have capacity := becomes.capacity
      omega
    exact .moved due given fewer
      (table.rehash_survivors sound.lawful given rehashes) wider becomes'
      (becomes.table.placed (becomes.alike.lawful sound.lawful)
        (becomes.alike.nullSafe sound.nullSafe) result)
  · rw [inserts] at result
    have room := mt (table.rehashDue_iff sound.short).mpr (by simp [due])
    exact .direct due (by omega)
      (table.placed sound.lawful sound.nullSafe result)

theorem Inserted.sound
    (inserted : Inserted map map' key value grants error)
    (sound : Sound map) : Sound map' := by
  cases inserted with
  | refused due denied same =>
      rw [same]
      exact sound
  | moved due given fewer survive wider becomes placed =>
      refine placed.sound (becomes.alike.lawful sound.lawful)
        (becomes.alike.nullSafe sound.nullSafe) ?_
      rw [becomes.length]
      exact wider
  | direct due room placed =>
      exact placed.sound sound.lawful sound.nullSafe (by omega)

/-- Every call keeps the invariant. -/
theorem Sound.step (sound : Sound map) (call : Call K V) :
    Sound (map.step call) := by
  unfold Map.step
  cases result : map.insert call.key call.value call.grants with
  | none => exact sound
  | some outcome => exact (sound.inserted result).sound sound

theorem Sound.created
    {bytes : K → List UInt8} {keyLayout valueLayout : Layout}
    {initialCapacity : Option Nat} {hashFn : Option (K → Nat → Nat)}
    {equalsFn : Option (Option K → Option K → Nat → Bool)}
    {seed : Nat} {grant : Bool}
    (fits : ∀ wanted, initialCapacity = some wanted → wanted < sizeLimit)
    (created : Map.create bytes keyLayout valueLayout initialCapacity
      hashFn equalsFn seed grant = .ok fresh)
    (lawful : Lawful fresh) (nullSafe : NullSafe fresh) : Sound fresh := by
  rcases create_spec fits created with ⟨table, _, _, length⟩
  exact ⟨table, lawful, nullSafe, by rw [length]; exact table.positive⟩

theorem Sound.reached
    (sound : Sound fresh) (reached : Reached fresh map) : Sound map := by
  refine Reachable.invariant Sound ?_ ?_ reached
  · rintro _ rfl
    exact sound
  · intro map call sound _
    exact sound.step call

/-- The result of a call, from its error. -/
theorem insert_of_error
    (map : Map K V) (call : Call K V) (error : Option Error)
    (result : (map.insert call.key call.value call.grants).map Prod.fst =
      some error) :
    map.insert call.key call.value call.grants =
      some (error, map.step call) := by
  unfold Map.step
  cases inserts : map.insert call.key call.value call.grants with
  | none =>
      rw [inserts] at result
      contradiction
  | some outcome =>
      rw [inserts, Option.map_some, Option.some.injEq] at result
      rw [← result]

theorem numberMap_created (capacity : Nat)
    (wanted : Nat) (power : Core.Size.nextPow2 wanted = capacity)
    (given : granted true (tableLayout capacity) = true) :
    Map.create (fun _ => []) ⟨8, 8⟩ ⟨8, 8⟩ (some wanted)
      (some fun key _ => key) (some fun left right _ => left = right)
      0 true = .ok (numberMap capacity) := by
  subst power
  simp [Map.create, numberMap, Layout.Invalid, given]

theorem numberMap_nullSafe (capacity : Nat) :
    NullSafe (numberMap capacity) := by
  intro key
  simp [Map.keyEquals, numberMap]

/-- A call that gets no memory for its key. -/
def refusedCall (key value : Nat) : Call Nat Nat :=
  ⟨key, value, ⟨true, false, true⟩⟩

/-! ## What a failed insertion shows -/

theorem iterate_length (table : Table map) :
    map.iterate.length = map.usedCount := by
  rw [table.iterate_perm.length_eq, List.length_append, List.length_map,
    List.length_replicate, table.used_split]

/-- Maps with the same buckets but for their places answer alike. -/
theorem unchanged_of_entries
    (sound : Sound map) (table : Table map') (alike : Alike map map')
    (entries : map'.entries.Perm map.entries)
    (left : map'.leftBehind.length = map.leftBehind.length)
    (vacancy : map.usedCount < map.capacity)
    (vacancy' : map'.usedCount < map'.capacity)
    (length : map'.length = map.length) : Unchanged map map' where
  get := by
    intro key
    have lawful := sound.lawful
    rw [table.get_eq (alike.lawful lawful), sound.table.get_eq lawful,
      alike.same, lookup_perm lawful.identifies
        (sound.table.distinct lawful) entries.symm,
      if_pos vacancy, if_pos vacancy']
  pairs := by
    refine table.iterate_perm.trans ?_
    rw [left]
    exact ((entries.map pointers).append_right _).trans
      sound.table.iterate_perm.symm
  length := length

/-- Maps that are not told apart have as many used buckets. -/
theorem Unchanged.usedCount
    (unchanged : Unchanged map map') (table : Table map)
    (table' : Table map') : map'.usedCount = map.usedCount := by
  rw [← iterate_length table, ← iterate_length table']
  exact unchanged.pairs.length_eq

theorem get_of_missing
    (sound : Sound map)
    (missing : ∀ entry ∈ map.entries, map.same entry.1 key = false) :
    map.get key =
      if map.usedCount < map.capacity then some none else none := by
  rw [sound.table.get_eq sound.lawful, lookup_eq_none.mpr missing]

/--
In every map that calls can reach: a failed insertion is not observable if
and only if the failure is harmless.
-/
theorem insert_failure_unchanged
    {bytes : K → List UInt8} {keyLayout valueLayout : Layout}
    {initialCapacity : Option Nat} {hashFn : Option (K → Nat → Nat)}
    {equalsFn : Option (Option K → Option K → Nat → Bool)}
    {seed : Nat} {grant : Bool} {error : Error}
    (fits : ∀ wanted, initialCapacity = some wanted → wanted < sizeLimit)
    (created : Map.create bytes keyLayout valueLayout initialCapacity
      hashFn equalsFn seed grant = .ok fresh)
    (lawful : Lawful fresh) (nullSafe : NullSafe fresh)
    (reached : Reached fresh map)
    (failed : map.insert key value grants = some (some error, map')) :
    Unchanged map map' ↔ Harmless map grants := by
  have sound :=
    (Sound.created fits created lawful nullSafe).reached reached
  have inserted := sound.inserted failed
  have table' := (inserted.sound sound).table
  have split := sound.table.used_split
  have split' := table'.used_split
  unfold Harmless
  cases inserted with
  | refused due denied same =>
      rw [same]
      exact iff_of_true ⟨fun _ => rfl, List.Perm.refl _, rfl⟩
        ⟨due, Or.inl denied⟩
  | moved due given fewer survive wider becomes placed =>
      cases placed with
      | left missing vacancy after =>
          have length : map'.length = map.usedCount :=
            after.length.trans becomes.length
          have entries := after.entries.trans becomes.entries
          have marked := after.used
          rw [becomes.table.used_split, survive,
            becomes.entries.length_eq] at marked
          constructor
          · intro unchanged
            have used := unchanged.usedCount sound.table table'
            have counted := unchanged.length
            exact ⟨due, Or.inr ⟨by omega, by omega⟩⟩
          · rintro ⟨_, denied | ⟨exactly, merges⟩⟩
            · rw [given] at denied
              contradiction
            · have same := entries.length_eq
              refine unchanged_of_entries sound after.table
                (becomes.alike.trans after.alike) entries (by omega) ?_ ?_
                (length.trans exactly)
              · rw [exactly]
                exact sound.short
              · rw [after.used, after.capacity, becomes.used]
                omega
  | direct due room placed =>
      cases placed with
      | left missing vacancy after =>
          have marked := after.used
          constructor
          · intro unchanged
            have used := unchanged.usedCount sound.table table'
            omega
          · rintro ⟨isDue, _⟩
            rw [due] at isDue
            contradiction

/-- A call that gets no memory for a larger table. -/
def cramped (key value : Nat) : Call Nat Nat :=
  ⟨key, value, ⟨false, true, true⟩⟩

/-- A full table stays as it is when the larger one is refused. -/
theorem insert_failure_unchanged_cramped :
    Unchanged ((numberMap 4).step (grantedCall 1 1))
      (((numberMap 4).step (grantedCall 1 1)).step (cramped 2 2)) := by
  have failure := @insert_failure_unchanged Nat Nat
    ((numberMap 4).step (grantedCall 1 1))
    (((numberMap 4).step (grantedCall 1 1)).step (cramped 2 2))
    (numberMap 4) 2 2
    ⟨false, true, true⟩ (fun _ => []) ⟨8, 8⟩ ⟨8, 8⟩ (some 4)
    (some fun key _ => key) (some fun left right _ => left = right) 0 true
    .oom
    (by
      intro wanted asked
      cases asked
      decide)
    (numberMap_created 4 4 (by decide) (by decide))
    (numberMap_lawful 4) (numberMap_nullSafe 4)
    (.step (.start rfl) trivial)
    (insert_of_error ((numberMap 4).step (grantedCall 1 1)) (cramped 2 2)
      (some .oom) (by decide +kernel))
  refine failure.mpr ⟨?_, Or.inl ?_⟩
  · decide +kernel
  · decide +kernel

/-- A refused key leaves a bucket that iteration shows. -/
example : ((numberMap 4).step (refusedCall 0 0)).iterate =
    [(none, none)] := by
  decide +kernel

/--
The bucket left by a first failure is counted by the rehash of a later one:
that call fails too, and the length grows from one to two.
-/
theorem insert_failure_recounts :
    ¬ ∀ (map map' : Map Nat Nat) (key value : Nat) (grants : Grants)
        (error : Error),
      Reached (numberMap 4) map →
      map.insert key value grants = some (some error, map') →
      Unchanged map map' := by
  intro all
  let map := ((numberMap 4).step (refusedCall 0 0)).step (grantedCall 1 1)
  have reached : Reached (numberMap 4) map :=
    .step (.step (.start rfl) trivial) trivial
  have failed := insert_of_error map (refusedCall 2 2) (some .oom)
    (by decide +kernel)
  have unchanged := all map _ _ _ _ _ reached failed
  have grown :
      (map.step (refusedCall 2 2)).length ≠ map.length := by
    decide +kernel
  exact grown unchanged.length

/-! ## Unused buckets -/

/--
A map together with the number of calls, since the last move to a larger
table, that gave up at the key or at the value.
-/
structure Watched (K V : Type) where
  map : Map K V
  failed : Nat

/-- The call moves the entries to a larger table. -/
def Map.moves (map : Map K V) (grants : Grants) : Bool :=
  map.rehashDue && map.roomGranted grants

/-- The call gives up at the larger table. -/
def Map.deniesRoom (map : Map K V) (grants : Grants) : Bool :=
  map.rehashDue && !map.roomGranted grants

def Watched.step
    (watched : Watched K V) (call : Call K V) : Watched K V :=
  match watched.map.insert call.key call.value call.grants with
  | none => watched
  | some (error, map) =>
      let before :=
        if watched.map.moves call.grants = true then 0
        else watched.failed
      let gaveUp :=
        error.isSome && !watched.map.deniesRoom call.grants
      ⟨map, if gaveUp = true then before + 1 else before⟩

/--
The call leaves an unused bucket: it overwrites a value, or a rehash is due,
or the entries and the failed calls do not fill the table yet.
-/
def Spared (watched : Watched K V) (call : Call K V) : Prop :=
  (∃ value, watched.map.get call.key = some (some value)) ∨
    watched.map.rehashDue = true ∨
    watched.map.length + watched.failed + 1 < watched.map.capacity

/-- The used buckets are those of entries and of failed calls. -/
structure Roomy (watched : Watched K V) : Prop where
  sound : Sound watched.map
  counted :
    watched.map.usedCount ≤ watched.map.length + watched.failed
  vacancy : watched.map.usedCount < watched.map.capacity

/-- A spared call that takes a bucket leaves another. -/
theorem Roomy.room_of_missing
    {watched : Watched K V} (roomy : Roomy watched) {call : Call K V}
    (missing : ∀ entry ∈ watched.map.entries,
      watched.map.same entry.1 call.key = false)
    (notDue : watched.map.rehashDue = false)
    (spared : Spared watched call) :
    watched.map.usedCount + 1 < watched.map.capacity := by
  have counted := roomy.counted
  rcases spared with ⟨value, found⟩ | due | room
  · rw [get_of_missing roomy.sound missing, if_pos roomy.vacancy,
      Option.some.injEq] at found
    contradiction
  · rw [notDue] at due
    contradiction
  · omega

/-- What a stored pair or a failed call adds to the used buckets. -/
theorem Placed.counts
    (placed : Placed map map' key value error) {f : Nat}
    (counted : map.usedCount ≤ map.length + f) :
    map'.usedCount ≤
        map'.length + (if error.isSome = true then f + 1 else f) ∧
      map'.capacity = map.capacity ∧
      map'.usedCount ≤ map.usedCount + 1 := by
  cases placed with
  | stored present becomes =>
      rw [becomes.used, becomes.length]
      exact ⟨counted, becomes.capacity, Nat.le_succ _⟩
  | new missing vacancy becomes =>
      rw [becomes.used, becomes.length, if_neg (by simp)]
      exact ⟨by omega, becomes.capacity, le_refl _⟩
  | left missing vacancy becomes =>
      rw [becomes.used, becomes.length, if_pos (by simp)]
      exact ⟨by omega, becomes.capacity, le_refl _⟩

/-- The step lemma: a spared call keeps an unused bucket. -/
theorem Roomy.step
    {watched : Watched K V} (roomy : Roomy watched)
    {call : Call K V} (spared : Spared watched call) :
    Roomy (watched.step call) := by
  unfold Watched.step
  cases result : watched.map.insert call.key call.value call.grants with
  | none => exact roomy
  | some outcome =>
      rcases outcome with ⟨error, map'⟩
      have inserted := roomy.sound.inserted result
      have sound' := inserted.sound roomy.sound
      dsimp only
      cases inserted with
      | refused due denied same =>
          have gives : watched.map.deniesRoom call.grants = true := by
            simp [Map.deniesRoom, due, denied]
          have stays : watched.map.moves call.grants = false := by
            simp [Map.moves, denied]
          rw [gives, stays, same]
          exact ⟨roomy.sound, roomy.counted, roomy.vacancy⟩
      | moved due given fewer survive wider becomes placed =>
          have counts := placed.counts (f := 0)
            (by rw [becomes.used, becomes.length]; exact fewer)
          have gives : watched.map.deniesRoom call.grants = false := by
            simp [Map.deniesRoom, given]
          have moves : watched.map.moves call.grants = true := by
            simp [Map.moves, due, given]
          rw [gives, moves, Bool.not_false, Bool.and_true, if_pos rfl]
          have most := counts.2.2
          rw [becomes.used] at most
          refine ⟨sound', counts.1, ?_⟩
          dsimp only
          rw [counts.2.1]
          omega
      | direct due room placed =>
          have counts := placed.counts roomy.counted
          have gives : watched.map.deniesRoom call.grants = false := by
            simp [Map.deniesRoom, due]
          have stays : watched.map.moves call.grants = false := by
            simp [Map.moves, due]
          rw [gives, stays, Bool.not_false, Bool.and_true,
            if_neg Bool.false_ne_true]
          refine ⟨sound', counts.1, ?_⟩
          dsimp only
          rw [counts.2.1]
          cases placed with
          | stored present becomes =>
              rw [becomes.used]
              exact roomy.vacancy
          | new missing vacancy becomes =>
              rw [becomes.used]
              exact roomy.room_of_missing missing due spared
          | left missing vacancy becomes =>
              rw [becomes.used]
              exact roomy.room_of_missing missing due spared

/-- The runs all of whose calls are spared. -/
def SparedRun (fresh : Map K V) : Watched K V → Prop :=
  Reachable (fun watched => watched = ⟨fresh, 0⟩) Spared Watched.step

/--
In every run of spared calls some bucket is unused and both probe loops end,
for every key and hash.
-/
theorem vacancy_of_spared
    {bytes : K → List UInt8} {keyLayout valueLayout : Layout}
    {initialCapacity : Option Nat} {hashFn : Option (K → Nat → Nat)}
    {equalsFn : Option (Option K → Option K → Nat → Bool)}
    {seed : Nat} {grant : Bool} {watched : Watched K V}
    (fits : ∀ wanted, initialCapacity = some wanted → wanted < sizeLimit)
    (created : Map.create bytes keyLayout valueLayout initialCapacity
      hashFn equalsFn seed grant = .ok fresh)
    (lawful : Lawful fresh) (nullSafe : NullSafe fresh)
    (run : SparedRun fresh watched) :
    (∃ b ∈ watched.map.buckets, b.used = false) ∧
      ∀ sought hash,
        (watched.map.lookupBucket sought hash).isSome ∧
          (watched.map.findSlot sought hash).isSome := by
  have sound := Sound.created fits created lawful nullSafe
  rcases create_spec fits created with ⟨table, _, unused, length⟩
  have roomy : Roomy watched := by
    refine Reachable.invariant Roomy ?_ ?_ run
    · rintro _ rfl
      refine ⟨sound, ?_, ?_⟩
      · dsimp only
        omega
      · dsimp only
        rw [unused]
        exact table.positive
    · intro watched call roomy spared
      exact roomy.step spared
  have table := roomy.sound.table
  constructor
  · rcases table.vacancy_iff.mp roomy.vacancy with ⟨_, b, bucket, free⟩
    exact ⟨b, List.mem_of_getElem? bucket, free⟩
  · intro sought hash
    rcases table.probe_ends roomy.vacancy sought hash with ⟨idx, found⟩
    rw [table.lookupBucket_eq, table.findSlot_eq, found]
    exact ⟨rfl, rfl⟩

/-- A failure and a stored pair in a table of four buckets. -/
theorem vacancy_of_spared_mixed :
    let watched :=
      Watched.step
        (Watched.step ⟨numberMap 4, 0⟩ (refusedCall 0 0)) (grantedCall 1 1)
    (∃ b ∈ watched.map.buckets, b.used = false) ∧
      ∀ sought hash,
        (watched.map.lookupBucket sought hash).isSome ∧
          (watched.map.findSlot sought hash).isSome :=
  vacancy_of_spared
    (by
      intro wanted asked
      cases asked
      decide)
    (numberMap_created 4 4 (by decide) (by decide))
    (numberMap_lawful 4) (numberMap_nullSafe 4)
    (.step (.step (.start rfl) (Or.inr (Or.inr (by decide +kernel))))
      (Or.inr (Or.inr (by decide +kernel))))

/-- Four failures use up a table of four buckets. -/
theorem insert_failures_fill_table :
    ¬ ∀ map : Map Nat Nat,
      Reached (numberMap 4) map →
      (∃ b ∈ map.buckets, b.used = false) ∧
        ∀ sought hash,
          (map.lookupBucket sought hash).isSome ∧
            (map.findSlot sought hash).isSome := by
  intro all
  let map :=
    ((((numberMap 4).step (refusedCall 0 0)).step (refusedCall 1 1)).step
      (refusedCall 2 2)).step (refusedCall 3 3)
  have reached : Reached (numberMap 4) map :=
    .step (.step (.step (.step (.start rfl) trivial) trivial) trivial)
      trivial
  have endless : (map.lookupBucket (some 9) 9).isSome = false := by
    decide +kernel
  have ends := ((all map reached).2 (some 9) 9).1
  rw [endless] at ends
  exact Bool.false_ne_true ends

/-- Failures up to half of the capacity never fill a table. -/
theorem spared_of_few
    {watched : Watched K V} (sound : Sound watched.map)
    (few : 2 * watched.failed ≤ watched.map.capacity)
    (call : Call K V) : Spared watched call := by
  right
  cases due : watched.map.rehashDue with
  | true => exact Or.inl rfl
  | false =>
      right
      have room := mt (sound.table.rehashDue_iff sound.short).mpr
        (by simp [due])
      omega

end Libcute.Collection.HashMap
