import Libcute.Collection.HashMap.Inserts
import Libcute.Library.Transition

/-!
# Runs of the hash map

The map refines a finite map: `hashMap_refines` reads every answer of every
run in which all allocations are granted off the history of its insertions.

Allocations may also be refused.  A refused table leaves the map as it is,
but a refused key or value leaves a used bucket without a key behind, which
`length` does not count.
-/

namespace Libcute.Collection.HashMap

open Libcute.Core.Interface
open Libcute.Core.Size
open Libcute.Library.AssocList
open Libcute.Library.Transition

variable {K V : Type} {map map' : Map K V} {key : K} {value : V}
  {grants : Grants} {same : K → K → Bool} {history : List (K × V)}

/-- One `cu_HashMap_insert`. -/
structure Call (K V : Type) where
  key : K
  value : V
  grants : Grants

/-- Every allocation that the call asks for is granted. -/
def AllGranted (map : Map K V) (grants : Grants) : Prop :=
  (map.rehashDue = true → map.roomGranted grants = true) ∧
    grants.key = true ∧ grants.value = true

instance (map : Map K V) (grants : Grants) :
    Decidable (AllGranted map grants) :=
  inferInstanceAs (Decidable (_ ∧ _))

/-- A map and what was stored in it, the newest pair first. -/
structure Trace (K V : Type) where
  map : Map K V
  history : List (K × V)

/-- The map and the history after a call; a call that fails stores nothing. -/
def Trace.step (trace : Trace K V) (call : Call K V) : Trace K V :=
  match trace.map.insert call.key call.value call.grants with
  | some (none, map) => ⟨map, (call.key, call.value) :: trace.history⟩
  | _ => trace

/--
The map is the finite map of its history.  `same` is the equality function,
applied to keys.
-/
structure Refines (same : K → K → Bool) (trace : Trace K V) : Prop where
  get : ∀ key,
    trace.map.get key =
      some ((newest same trace.history key).map some)
  length : trace.map.length = (distinctKeys same trace.history).length
  iterate :
    trace.map.iterate.Perm ((replay same trace.history).map pointers)
  power : ∃ exponent, trace.map.capacity = 2 ^ exponent
  load : 2 * trace.map.length < trace.map.capacity
  lookupEnds : ∀ sought hash, (trace.map.lookupBucket sought hash).isSome
  slotEnds : ∀ sought hash, (trace.map.findSlot sought hash).isSome
  inserts : ∀ key value grants, AllGranted trace.map grants →
    ∃ map, trace.map.insert key value grants = some (none, map)

/-! ## Maps without left behind buckets -/

/-- The table holds the entries of a history and nothing else. -/
structure Stores
    (same : K → K → Bool) (map : Map K V) (history : List (K × V)) :
    Prop where
  table : Table map
  lawful : Lawful map
  agrees : map.same = same
  entries : map.entries.Perm (replay same history)
  counted : map.entries.length = map.length
  exactly : map.usedCount = map.length

/-- A pair is stored in a table with room for it. -/
theorem Stores.place
    (stores : Stores same map history)
    (room : 2 * (map.length + 1) < map.capacity)
    (given : grants.key = true ∧ grants.value = true)
    (key : K) (value : V) :
    ∃ map', map.place key value grants = some (none, map') ∧
      Stores same map' ((key, value) :: history) ∧
      2 * map'.length < map'.capacity := by
  have lawful := stores.lawful
  rcases stored_or_new map.same map.entries key with stored | new
  · rcases stores.table.place_stored lawful stored value grants with
      ⟨map', placed, becomes⟩
    rcases stored with ⟨entry, member, equal⟩
    refine ⟨map', placed, ⟨becomes.table, becomes.alike.lawful lawful,
      becomes.alike.same.trans stores.agrees, ?_, ?_, ?_⟩, ?_⟩
    · refine becomes.entries.trans ?_
      rw [stores.agrees]
      exact insert_perm stores.entries key value
    · rw [becomes.entries.length_eq,
        length_insert_of_stored member equal, becomes.length]
      exact stores.counted
    · rw [becomes.used, becomes.length, stores.exactly]
    · rw [becomes.length, becomes.capacity]
      omega
  · have vacancy : map.usedCount < map.capacity := by
      rw [stores.exactly]
      omega
    rcases stores.table.place_new lawful new vacancy given value with
      ⟨map', placed, becomes⟩
    refine ⟨map', placed, ⟨becomes.table, becomes.alike.lawful lawful,
      becomes.alike.same.trans stores.agrees, ?_, ?_, ?_⟩, ?_⟩
    · refine becomes.entries.trans ?_
      rw [← insert_of_new new, stores.agrees]
      exact insert_perm stores.entries key value
    · rw [becomes.entries.length_eq, List.length_cons, becomes.length,
        stores.counted]
    · rw [becomes.used, becomes.length, stores.exactly]
    · rw [becomes.length, becomes.capacity]
      exact room

/-- The step lemma: a call whose allocations are granted stores its pair. -/
theorem Stores.insert
    (stores : Stores same map history)
    (load : 2 * map.length < map.capacity)
    (given : AllGranted map grants) (key : K) (value : V) :
    ∃ map', map.insert key value grants = some (none, map') ∧
      Stores same map' ((key, value) :: history) ∧
      2 * map'.length < map'.capacity := by
  have short : map.length < map.capacity := by omega
  rcases stores.table.insert_cases stores.lawful key value grants with
    ⟨due, refused, _⟩ | ⟨_, _, moved, used, _, inserts, fewer, becomes⟩ |
      ⟨enough, inserts⟩
  · rw [given.1 due] at refused
    contradiction
  · rw [inserts]
    rcases stores.table.doubled with ⟨atLeast, doubles, _⟩
    have most := becomes.table.entries_length_le
    rw [becomes.used, becomes.entries.length_eq, stores.counted] at most
    have length := becomes.length
    rw [stores.exactly] at fewer length
    apply Stores.place _ _ given.2
    · refine ⟨becomes.table, becomes.alike.lawful stores.lawful,
        becomes.alike.same.trans stores.agrees,
        becomes.entries.trans stores.entries, ?_, ?_⟩
      · rw [becomes.entries.length_eq, stores.counted, length]
      · rw [becomes.used, length]
        omega
    · rw [length, becomes.capacity]
      omega
  · rw [inserts]
    have notDue := mt (stores.table.rehashDue_iff short).mpr (by
      rw [enough]
      simp)
    exact stores.place (by omega) given.2 key value

/-- What such a map answers. -/
theorem Stores.refines
    (stores : Stores same map history)
    (load : 2 * map.length < map.capacity) :
    Refines same ⟨map, history⟩ := by
  have vacancy : map.usedCount < map.capacity := by
    rw [stores.exactly]
    omega
  have identifies := stores.lawful.identifies
  rw [stores.agrees] at identifies
  constructor
  · intro key
    dsimp only
    rw [stores.table.get_eq stores.lawful, stores.agrees,
      lookup_perm identifies (replay_distinct identifies history)
        stores.entries.symm,
      lookup_replay identifies]
    cases newest same history key with
    | none => exact if_pos vacancy
    | some value => rfl
  · rw [← length_replay identifies, ← stores.entries.length_eq]
    exact stores.counted.symm
  · rw [stores.table.iterate_entries
      (stores.counted.trans stores.exactly.symm)]
    exact stores.entries.map pointers
  · rcases stores.table.power with ⟨exponent, _, capacity⟩
    exact ⟨exponent, capacity⟩
  · exact load
  · intro sought hash
    rcases stores.table.probe_ends vacancy sought hash with ⟨idx, found⟩
    rw [stores.table.lookupBucket_eq, found]
    rfl
  · intro sought hash
    rcases stores.table.probe_ends vacancy sought hash with ⟨idx, found⟩
    rw [stores.table.findSlot_eq, found]
    rfl
  · intro key value grants given
    rcases stores.insert load given key value with ⟨map', inserts, _⟩
    exact ⟨map', inserts⟩

/-- The run of a fresh map in which every allocation is granted. -/
def Granted (fresh : Map K V) : Trace K V → Prop :=
  Reachable (fun trace => trace = ⟨fresh, []⟩)
    (fun trace (call : Call K V) => AllGranted trace.map call.grants)
    Trace.step

/--
The main result: for every equality that is an equivalence with a hash
function that respects it, and every initial capacity, the map refines the
finite map of the insertions so far.
-/
theorem hashMap_refines
    {bytes : K → List UInt8} {keyLayout valueLayout : Layout}
    {initialCapacity : Option Nat} {hashFn : Option (K → Nat → Nat)}
    {equalsFn : Option (Option K → Option K → Nat → Bool)}
    {seed : Nat} {grant : Bool} {fresh : Map K V} {trace : Trace K V}
    (fits : ∀ wanted, initialCapacity = some wanted → wanted < sizeLimit)
    (created : Map.create bytes keyLayout valueLayout initialCapacity
      hashFn equalsFn seed grant = .ok fresh)
    (lawful : Lawful fresh) (run : Granted fresh trace) :
    Refines fresh.same trace := by
  rcases create_spec fits created with ⟨table, vacant, unused, length⟩
  have stored :
      Stores fresh.same trace.map trace.history ∧
        2 * trace.map.length < trace.map.capacity := by
    refine Reachable.invariant
      (fun trace => Stores fresh.same trace.map trace.history ∧
        2 * trace.map.length < trace.map.capacity) ?_ ?_ run
    · rintro _ rfl
      refine ⟨⟨table, lawful, rfl, ?_, ?_, ?_⟩, ?_⟩
      · rw [vacant]
        exact List.Perm.refl _
      · rw [vacant, length]
        rfl
      · rw [unused, length]
      · dsimp only
        rw [length]
        exact table.positive
    · rintro ⟨map, history⟩ call ⟨stores, load⟩ given
      rcases stores.insert load given call.key call.value with
        ⟨map', inserts, kept⟩
      unfold Trace.step
      dsimp only at inserts ⊢
      rw [inserts]
      exact kept
  exact stored.1.refines stored.2

/-- A fresh map from numbers to numbers. -/
def numberMap (capacity : Nat) : Map Nat Nat where
  buckets := List.replicate capacity Bucket.empty
  capacity := capacity
  length := 0
  keyLayout := ⟨8, 8⟩
  valueLayout := ⟨8, 8⟩
  hashFn := fun key _ => key
  equalsFn := fun left right _ => left = right
  seed := 0

theorem numberMap_lawful (capacity : Nat) :
    Lawful (numberMap capacity) where
  identifies := by
    have same : (fun left right =>
        (numberMap capacity).same left right = true) = Eq := by
      funext left right
      simp [Map.same, Map.keyEquals, numberMap]
    unfold Identifies
    rw [same]
    exact eq_equivalence
  hashes := by
    intro left right equal
    simp only [Map.same, Map.keyEquals, numberMap, Option.some.injEq,
      decide_eq_true_eq] at equal
    rw [equal]

/-- A call whose allocations are all granted. -/
def grantedCall (key value : Nat) : Call Nat Nat :=
  ⟨key, value, ⟨true, true, true⟩⟩

/-- Two colliding keys, from a single bucket on. -/
theorem hashMap_refines_collision :
    Refines (numberMap 1).same
      (Trace.step
        (Trace.step ⟨numberMap 1, []⟩ (grantedCall 1 10))
        (grantedCall 17 20)) := by
  have created :
      Map.create (fun _ => []) ⟨8, 8⟩ ⟨8, 8⟩ (some 1)
        (some fun key _ => key) (some fun left right _ => left = right)
        0 true = .ok (numberMap 1) := rfl
  refine hashMap_refines ?_ created (numberMap_lawful 1) ?_
  · intro wanted asked
    cases asked
    decide
  · exact .step (.step (.start rfl) (by decide +kernel))
      (by decide +kernel)

end Libcute.Collection.HashMap
