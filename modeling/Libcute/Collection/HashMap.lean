import Libcute.Core.Interface
import Libcute.Core.Size
import Libcute.Library.AssocList

/-!
# The open addressing hash map

`hashmap.c` keeps its entries in a table of buckets and resolves collisions
by linear probing.  A key or a value that the map stores is a copy of the
bytes the caller passed; the model keeps the contents, and `none` stands for
the null pointer of a bucket without an entry.

The two probe loops of the source have no bound.  Their models run for one
turn of the table and answer `none` when they see no reason to stop; the
table does not change meanwhile, so such a loop never ends.  Everything that
probes inherits the outer `Option`.

An allocation is granted or refused by the environment.  The allocators of
the library refuse requests without size, which is what a table of `2 ^ 59`
buckets or more asks for: its byte size wraps to zero.

The null checks of the interface functions are not modelled: a map, a key
and a value are there.
-/

namespace Libcute.Collection.HashMap

open Libcute.Core.Interface
open Libcute.Core.Size

variable {K V : Type}

/-- `cu_HashMap_Bucket` -/
structure Bucket (K V : Type) where
  used : Bool
  deleted : Bool
  hash : Nat
  key : Option K
  value : Option V
deriving DecidableEq, Repr

/-- A bucket of zeroed memory. -/
def Bucket.empty : Bucket K V := ⟨false, false, 0, none, none⟩

/-- `sizeof(cu_HashMap_Bucket)` -/
def bucketSize : Nat := 32

/-- `alignof(cu_HashMap_Bucket)` -/
def bucketAlignment : Nat := 8

/-- `cu_HashMap_Error` -/
inductive Error where
  | oom
  | invalidLayout
  | invalid
deriving DecidableEq, Repr

/-- `cu_HashMap`; the hash and equality functions also get the key size. -/
structure Map (K V : Type) where
  buckets : List (Bucket K V)
  capacity : Nat
  length : Nat
  keyLayout : Layout
  valueLayout : Layout
  hashFn : K → Nat → Nat
  equalsFn : Option K → Option K → Nat → Bool
  seed : Nat

/-- What the allocator grants during one call. -/
structure Grants where
  buckets : Bool
  key : Bool
  value : Bool
deriving DecidableEq, Repr

/-- The outcome of a request: without size it is always refused. -/
def granted (grant : Bool) (layout : Layout) : Bool :=
  grant && layout.elemSize ≠ 0

/-- The layout of a table. -/
def tableLayout (capacity : Nat) : Layout :=
  Layout.create (sizeMul capacity bucketSize) bucketAlignment

/-! ## Default functions -/

/-- `cu_Hash_FNV1a64` -/
def fnv1a64 (data : List UInt8) : Nat :=
  data.foldl
    (fun hash byte => (hash ^^^ byte.toNat) * 1099511628211 % 2 ^ 64)
    14695981039346656037

/-- `cu_HashMap_default_hash`, for keys with the given bytes. -/
def defaultHash (bytes : K → List UInt8) (key : K) (keySize : Nat) : Nat :=
  fnv1a64 ((bytes key).take keySize)

/-- `cu_HashMap_default_equals`: `cu_Memory_memcmp` on two keys. -/
def defaultEquals
    (bytes : K → List UInt8) (a b : Option K) (keySize : Nat) : Bool :=
  match a, b with
  | none, b => b.isNone
  | some _, none => false
  | some a, some b => (bytes a).take keySize = (bytes b).take keySize

namespace Map

/-! ## Probing -/

/-- The equality function of the map on a bucket key and a sought key. -/
def keyEquals (map : Map K V) (stored sought : Option K) : Bool :=
  map.equalsFn stored sought map.keyLayout.elemSize

/-- `map->hash_fn(key, map->key_layout.elem_size) ^ map->seed` -/
def hashOf (map : Map K V) (key : K) : Nat :=
  map.hashFn key map.keyLayout.elemSize ^^^ map.seed

/-- The loop of `cu_HashMap_lookup_bucket`; `some none` is the null result. -/
def lookupLoop (map : Map K V) (key : Option K) (hash : Nat) :
    Nat → Nat → Option (Option Nat)
  | 0, _ => none
  | fuel + 1, idx =>
      match map.buckets[idx]? with
      | none => none
      | some b =>
          if b.used = false then
            some none
          else if b.deleted = false ∧ b.hash = hash ∧
              map.keyEquals b.key key = true then
            some (some idx)
          else
            lookupLoop map key hash fuel
              ((idx + 1) &&& (map.capacity - 1))

/-- `cu_HashMap_lookup_bucket` -/
def lookupBucket (map : Map K V) (key : Option K) (hash : Nat) :
    Option (Option Nat) :=
  map.lookupLoop key hash map.capacity (hash &&& (map.capacity - 1))

/-- The loop of `cu_HashMap_find_slot`. -/
def findSlotLoop (map : Map K V) (key : Option K) (hash : Nat) :
    Nat → Option Nat → Nat → Option Nat
  | 0, _, _ => none
  | fuel + 1, firstDel, idx =>
      match map.buckets[idx]? with
      | none => none
      | some b =>
          if b.used = false then
            some (firstDel.getD idx)
          else if b.deleted = true then
            findSlotLoop map key hash fuel (firstDel.or (some idx))
              ((idx + 1) &&& (map.capacity - 1))
          else if b.hash = hash ∧ map.keyEquals b.key key = true then
            some idx
          else
            findSlotLoop map key hash fuel firstDel
              ((idx + 1) &&& (map.capacity - 1))

/-- `cu_HashMap_find_slot` -/
def findSlot (map : Map K V) (key : Option K) (hash : Nat) : Option Nat :=
  map.findSlotLoop key hash map.capacity none (hash &&& (map.capacity - 1))

/-! ## Rehashing -/

/-- Store a bucket of the old table in the new one. -/
def moveBucket (map : Map K V) (b : Bucket K V) : Option (Map K V) :=
  if b.used = false ∨ b.deleted = true then
    some map
  else
    match map.findSlot b.key b.hash with
    | none => none
    | some slot =>
        some { map with
          buckets := map.buckets.set slot
            ⟨true, false, b.hash, b.key, b.value⟩
          length := map.length + 1 }

/-- The copy loop of `cu_HashMap_rehash`. -/
def moveBuckets (map : Map K V) : List (Bucket K V) → Option (Map K V)
  | [] => some map
  | b :: rest =>
      match map.moveBucket b with
      | none => none
      | some map => map.moveBuckets rest

/-- The capacity that `cu_HashMap_rehash` chooses. -/
def rehashCapacity (newCap : Nat) : Nat :=
  nextPow2 (if newCap < 16 then 16 else newCap)

/-- `cu_HashMap_rehash` -/
def rehash (map : Map K V) (newCap : Nat) (grant : Bool) :
    Option (Option Error × Map K V) :=
  let newCap := rehashCapacity newCap
  if granted grant (tableLayout newCap) = false then
    some (some .oom, map)
  else
    let fresh : Map K V := { map with
      buckets := List.replicate newCap Bucket.empty
      capacity := newCap
      length := 0 }
    (fresh.moveBuckets map.buckets).map fun map => (none, map)

/-! ## The interface -/

/-- `cu_HashMap_create` -/
def create
    (bytes : K → List UInt8) (keyLayout valueLayout : Layout)
    (initialCapacity : Option Nat)
    (hashFn : Option (K → Nat → Nat))
    (equalsFn : Option (Option K → Option K → Nat → Bool))
    (seed : Nat) (grant : Bool) : Except Error (Map K V) :=
  if keyLayout.Invalid then
    .error .invalidLayout
  else if valueLayout.Invalid then
    .error .invalidLayout
  else
    let cap := nextPow2 (initialCapacity.getD 16)
    if granted grant (tableLayout cap) = false then
      .error .oom
    else
      .ok {
        buckets := List.replicate cap Bucket.empty
        capacity := cap
        length := 0
        keyLayout := keyLayout
        valueLayout := valueLayout
        hashFn := hashFn.getD (defaultHash bytes)
        equalsFn := equalsFn.getD (defaultEquals bytes)
        seed := seed }

/-- `cu_HashMap_insert` once the table has room. -/
def place (map : Map K V) (key : K) (value : V) (grants : Grants) :
    Option (Option Error × Map K V) :=
  let hash := map.hashOf key
  match map.findSlot (some key) hash with
  | none => none
  | some slot =>
      match map.buckets[slot]? with
      | none => none
      | some b =>
          if b.used = true ∧ b.deleted = false then
            some (none, { map with
              buckets := map.buckets.set slot
                { b with value := b.value.map fun _ => value } })
          else
            let marked : Bucket K V :=
              { b with used := true, deleted := false, hash := hash }
            let keyLayout := Layout.create
              map.keyLayout.elemSize map.keyLayout.alignment
            let valueLayout := Layout.create
              map.valueLayout.elemSize map.valueLayout.alignment
            if granted grants.key keyLayout = false then
              some (some .oom,
                { map with buckets := map.buckets.set slot marked })
            else if granted grants.value valueLayout = false then
              some (some .oom,
                { map with buckets := map.buckets.set slot marked })
            else
              some (none, { map with
                buckets := map.buckets.set slot
                  { marked with key := some key, value := some value }
                length := map.length + 1 })

/-- `(map->length + 1) * 2 >= map->capacity` -/
def rehashDue (map : Map K V) : Bool :=
  map.capacity ≤ sizeMul (sizeAdd map.length 1) 2

/-- `cu_HashMap_insert` -/
def insert (map : Map K V) (key : K) (value : V) (grants : Grants) :
    Option (Option Error × Map K V) :=
  if map.keyLayout.Invalid then
    some (some .invalidLayout, map)
  else if map.valueLayout.Invalid then
    some (some .invalidLayout, map)
  else if map.rehashDue = true then
    match map.rehash (sizeMul map.capacity 2) grants.buckets with
    | none => none
    | some (some error, map) => some (some error, map)
    | some (none, map) => map.place key value grants
  else
    map.place key value grants

/--
`cu_HashMap_get`: the outer level says whether the probe ends, the middle one
is `Ptr_Optional` and the inner one the pointer.
-/
def get (map : Map K V) (key : K) : Option (Option (Option V)) :=
  if map.keyLayout.Invalid then
    some none
  else if map.capacity = 0 then
    some none
  else
    match map.lookupBucket (some key) (map.hashOf key) with
    | none => none
    | some none => some none
    | some (some idx) => some (map.buckets[idx]?.map Bucket.value)

/-- The loop of `cu_HashMap_iter`; the first component is `*index`. -/
def iterLoop (map : Map K V) :
    Nat → Nat → Nat × Option (Option K × Option V)
  | 0, index => (index, none)
  | fuel + 1, index =>
      match map.buckets[index]? with
      | none => (index, none)
      | some b =>
          if b.used = true ∧ b.deleted = false then
            (index + 1, some (b.key, b.value))
          else
            iterLoop map fuel (index + 1)

/-- `cu_HashMap_iter` -/
def iter (map : Map K V) (index : Nat) :
    Nat × Option (Option K × Option V) :=
  map.iterLoop (map.capacity - index) index

/-- Call `cu_HashMap_iter` until it returns false. -/
def iterateFrom (map : Map K V) :
    Nat → Nat → List (Option K × Option V)
  | 0, _ => []
  | calls + 1, index =>
      match map.iter index with
      | (_, none) => []
      | (index, some pair) => pair :: map.iterateFrom calls index

/-- All pairs that iteration from index 0 yields. -/
def iterate (map : Map K V) : List (Option K × Option V) :=
  map.iterateFrom (map.capacity + 1) 0

end Map

end Libcute.Collection.HashMap
