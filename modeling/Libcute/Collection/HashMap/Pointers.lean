import Libcute.Collection.HashMap.Failures
import Libcute.Library.Ledger

/-!
# The hash map with its pointers

`Map` keeps the contents of its copies.  Here a bucket also has the pointers
to them, the map has the pointer to its table, and every call of the
allocator is recorded: this is the hash map of the source with
`cu_HashMap_destroy`.  A key is passed by a pointer as well, which the map
does not keep.

Forgetting the pointers gives the map without them back, and the calls do on
it what they did there: `insert_contents`.  After `cu_HashMap_destroy` the map
has no table; it may still be used, and the next insertion allocates one.
-/

namespace Libcute.Collection.HashMap

open Libcute.Core.Interface
open Libcute.Core.Size
open Libcute.Library.Ledger

variable {K V : Type}

/-- A pointer with what it points to. -/
structure Cell (T : Type) where
  ptr : Nat
  content : T
deriving DecidableEq, Repr

/-- The addresses that the allocator grants to one call. -/
structure Answers where
  buckets : Option Nat
  key : Option Nat
  value : Option Nat
deriving DecidableEq, Repr

/-- Which of the requests are granted. -/
def Answers.grants (answers : Answers) : Grants :=
  ⟨answers.buckets.isSome, answers.key.isSome, answers.value.isSome⟩

/-- `cu_Allocator_Alloc`: a request without size is refused. -/
def alloc (answer : Option Nat) (layout : Layout) : Option Slice :=
  match answer with
  | none => none
  | some ptr =>
      if layout.elemSize = 0 then none else some ⟨ptr, layout.elemSize⟩

/-- The argument of `cu_Allocator_Free` for a copy; `none` is null. -/
def block {T : Type} (cell : Option (Cell T)) (size : Nat) : Option Slice :=
  cell.map fun cell => ⟨cell.ptr, size⟩

/--
`cu_HashMap` with its pointers.  `trace` lists the blocks that were obtained
and the arguments of `cu_Allocator_Free` in the order of the calls.
-/
structure Owned (K V : Type) where
  map : Map (Cell K) (Cell V)
  table : Option Nat
  trace : List (Event Slice)

namespace Owned

/-- The argument of `cu_Allocator_Free` for the table. -/
def tableBlock (owned : Owned K V) : Option Slice :=
  owned.table.map fun ptr => ⟨ptr, sizeMul owned.map.capacity bucketSize⟩

/-- `cu_HashMap_rehash` -/
def rehash (owned : Owned K V) (newCap : Nat) (answer : Option Nat) :
    Option (Option Error × Owned K V) :=
  let newCap := Map.rehashCapacity newCap
  match alloc answer (tableLayout newCap) with
  | none => some (some .oom, owned)
  | some mem =>
      let fresh : Map (Cell K) (Cell V) := { owned.map with
        buckets := List.replicate newCap Bucket.empty
        capacity := newCap
        length := 0 }
      (fresh.moveBuckets owned.map.buckets).map fun map =>
        (none, {
          map := map
          table := some mem.ptr
          trace := owned.trace ++ .obtain mem ::
            if owned.table.isSome then [.release owned.tableBlock]
            else [] })

/-- `cu_HashMap_insert` once the table has room. -/
def place (owned : Owned K V) (key : Cell K) (value : V)
    (answers : Answers) : Option (Option Error × Owned K V) :=
  let map := owned.map
  let hash := map.hashOf key
  match map.findSlot (some key) hash with
  | none => none
  | some slot =>
      match map.buckets[slot]? with
      | none => none
      | some b =>
          if b.used = true ∧ b.deleted = false then
            some (none, { owned with
              map := { map with
                buckets := map.buckets.set slot
                  { b with
                    value := b.value.map fun cell =>
                      { cell with content := value } } } })
          else
            let marked : Bucket (Cell K) (Cell V) :=
              { b with used := true, deleted := false, hash := hash }
            let left : Map (Cell K) (Cell V) :=
              { map with buckets := map.buckets.set slot marked }
            match alloc answers.key (Layout.create
                map.keyLayout.elemSize map.keyLayout.alignment) with
            | none => some (some .oom, { owned with map := left })
            | some keyMem =>
                match alloc answers.value (Layout.create
                    map.valueLayout.elemSize map.valueLayout.alignment) with
                | none =>
                    some (some .oom, { owned with
                      map := left
                      trace := owned.trace ++
                        [.obtain keyMem, .release (some keyMem)] })
                | some valueMem =>
                    some (none, { owned with
                      map := { map with
                        buckets := map.buckets.set slot
                          { marked with
                            key := some ⟨keyMem.ptr, key.content⟩
                            value := some ⟨valueMem.ptr, value⟩ }
                        length := map.length + 1 }
                      trace := owned.trace ++
                        [.obtain keyMem, .obtain valueMem] })

/-- `cu_HashMap_insert` -/
def insert (owned : Owned K V) (key : Cell K) (value : V)
    (answers : Answers) : Option (Option Error × Owned K V) :=
  if owned.map.keyLayout.Invalid then
    some (some .invalidLayout, owned)
  else if owned.map.valueLayout.Invalid then
    some (some .invalidLayout, owned)
  else if owned.map.rehashDue = true then
    match owned.rehash (sizeMul owned.map.capacity 2) answers.buckets with
    | none => none
    | some (some error, owned) => some (some error, owned)
    | some (none, owned) => owned.place key value answers
  else
    owned.place key value answers

/-- `cu_HashMap_create` -/
def create
    (bytes : K → List UInt8) (keyLayout valueLayout : Layout)
    (initialCapacity : Option Nat)
    (hashFn : Option (K → Nat → Nat))
    (equalsFn : Option (Option K → Option K → Nat → Bool))
    (seed : Nat) (answer : Option Nat) : Except Error (Owned K V) :=
  if keyLayout.Invalid then
    .error .invalidLayout
  else if valueLayout.Invalid then
    .error .invalidLayout
  else
    let cap := nextPow2 (initialCapacity.getD 16)
    match alloc answer (tableLayout cap) with
    | none => .error .oom
    | some mem =>
        .ok {
          map := {
            buckets := List.replicate cap Bucket.empty
            capacity := cap
            length := 0
            keyLayout := keyLayout
            valueLayout := valueLayout
            hashFn := fun key => hashFn.getD (defaultHash bytes) key.content
            equalsFn := fun a b => equalsFn.getD (defaultEquals bytes)
              (a.map Cell.content) (b.map Cell.content)
            seed := seed }
          table := some mem.ptr
          trace := [.obtain mem] }

/-- What the loop of `cu_HashMap_destroy` gives back for the buckets. -/
def releases (map : Map (Cell K) (Cell V)) :
    List (Bucket (Cell K) (Cell V)) → List (Event Slice)
  | [] => []
  | b :: rest =>
      if b.used = true ∧ b.deleted = false then
        .release (block b.key map.keyLayout.elemSize) ::
          .release (block b.value map.valueLayout.elemSize) ::
            releases map rest
      else
        releases map rest

/-- `cu_HashMap_destroy` -/
def destroy (owned : Owned K V) : Owned K V where
  map := { owned.map with buckets := [], capacity := 0, length := 0 }
  table := none
  trace := owned.trace ++ releases owned.map owned.map.buckets ++
    [.release owned.tableBlock]

/-- The blocks of the copies that the map keeps. -/
def copies (map : Map (Cell K) (Cell V)) (entries : List (Cell K × Cell V)) :
    List Slice :=
  entries.flatMap fun entry =>
    [⟨entry.1.ptr, map.keyLayout.elemSize⟩,
      ⟨entry.2.ptr, map.valueLayout.elemSize⟩]

/-- The blocks that the map has pointers to. -/
def live (owned : Owned K V) : List Slice :=
  owned.tableBlock.toList ++ copies owned.map owned.map.entries

end Owned

/-! ## Forgetting the pointers -/

def Bucket.contents (b : Bucket (Cell K) (Cell V)) : Bucket K V :=
  ⟨b.used, b.deleted, b.hash, b.key.map Cell.content,
    b.value.map Cell.content⟩

/-- The map without pointers. -/
def Map.contents (map : Map (Cell K) (Cell V)) : Map K V where
  buckets := map.buckets.map Bucket.contents
  capacity := map.capacity
  length := map.length
  keyLayout := map.keyLayout
  valueLayout := map.valueLayout
  hashFn := fun key => map.hashFn ⟨0, key⟩
  equalsFn := fun a b => map.equalsFn (a.map (Cell.mk 0)) (b.map (Cell.mk 0))
  seed := map.seed

/-- The functions of the map look at keys, not at their addresses. -/
structure Blind (map : Map (Cell K) (Cell V)) : Prop where
  hash : ∀ key, map.hashFn key = map.hashFn ⟨0, key.content⟩
  equals : ∀ a b : Option (Cell K),
    map.equalsFn a b =
      map.equalsFn (a.map fun key => ⟨0, key.content⟩)
        (b.map fun key => ⟨0, key.content⟩)

variable {map fresh : Map (Cell K) (Cell V)} {owned : Owned K V}

theorem Blind.congr
    (blind : Blind map) (hash : fresh.hashFn = map.hashFn)
    (equals : fresh.equalsFn = map.equalsFn) : Blind fresh where
  hash := by
    rw [hash]
    exact blind.hash
  equals := by
    rw [equals]
    exact blind.equals

theorem Blind.keyEquals_contents
    (blind : Blind map) (a b : Option (Cell K)) :
    map.contents.keyEquals (a.map Cell.content) (b.map Cell.content) =
      map.keyEquals a b := by
  unfold Map.keyEquals
  rw [blind.equals a b]
  simp [Map.contents, Function.comp_def]

theorem Blind.hashOf_contents (blind : Blind map) (key : Cell K) :
    map.contents.hashOf key.content = map.hashOf key := by
  unfold Map.hashOf
  rw [blind.hash key]
  rfl

theorem contents_bucket (map : Map (Cell K) (Cell V)) (idx : Nat) :
    map.contents.buckets[idx]? =
      map.buckets[idx]?.map Bucket.contents := by
  simp [Map.contents]

/-- Setting a bucket and the length commute with forgetting. -/
theorem contents_set
    (map : Map (Cell K) (Cell V)) (slot length : Nat)
    (b : Bucket (Cell K) (Cell V)) :
    ({ map with
        buckets := map.buckets.set slot b
        length := length } : Map (Cell K) (Cell V)).contents =
      { map.contents with
        buckets := map.contents.buckets.set slot b.contents
        length := length } := by
  simp [Map.contents, List.map_set]

theorem Blind.findSlotLoop_contents
    (blind : Blind map) (key : Option (Cell K)) (hash fuel : Nat)
    (firstDel : Option Nat) (idx : Nat) :
    map.contents.findSlotLoop (key.map Cell.content) hash fuel firstDel idx =
      map.findSlotLoop key hash fuel firstDel idx := by
  induction fuel generalizing firstDel idx with
  | zero => rfl
  | succ fuel induction =>
      unfold Map.findSlotLoop
      rw [contents_bucket]
      cases map.buckets[idx]? with
      | none => rfl
      | some b =>
          dsimp only [Option.map_some, Bucket.contents]
          rw [blind.keyEquals_contents, induction, induction]
          rfl

theorem Blind.findSlot_contents
    (blind : Blind map) (key : Option (Cell K)) (hash : Nat) :
    map.contents.findSlot (key.map Cell.content) hash =
      map.findSlot key hash :=
  blind.findSlotLoop_contents key hash _ _ _

theorem Blind.moveBucket_contents
    (blind : Blind map) (b : Bucket (Cell K) (Cell V)) :
    map.contents.moveBucket b.contents =
      (map.moveBucket b).map Map.contents := by
  unfold Map.moveBucket
  have slot : map.contents.findSlot b.contents.key b.contents.hash =
      map.findSlot b.key b.hash := blind.findSlot_contents b.key b.hash
  have used : b.contents.used = b.used := rfl
  have deleted : b.contents.deleted = b.deleted := rfl
  rw [slot, used, deleted]
  by_cases skipped : b.used = false ∨ b.deleted = true
  · rw [if_pos skipped, if_pos skipped]
    rfl
  · rw [if_neg skipped, if_neg skipped]
    cases map.findSlot b.key b.hash with
    | none => rfl
    | some idx =>
        dsimp only
        rw [Option.map_some, contents_set]
        rfl

theorem moveBucket_functions
    {moved : Map (Cell K) (Cell V)} {b : Bucket (Cell K) (Cell V)}
    (moves : map.moveBucket b = some moved) :
    moved.hashFn = map.hashFn ∧ moved.equalsFn = map.equalsFn := by
  unfold Map.moveBucket at moves
  split at moves
  · cases moves
    exact ⟨rfl, rfl⟩
  · split at moves
    · contradiction
    · cases moves
      exact ⟨rfl, rfl⟩

theorem Blind.moveBuckets_contents
    (blind : Blind map) (rest : List (Bucket (Cell K) (Cell V))) :
    map.contents.moveBuckets (rest.map Bucket.contents) =
      (map.moveBuckets rest).map Map.contents := by
  induction rest generalizing map with
  | nil => rfl
  | cons b rest induction =>
      unfold Map.moveBuckets
      rw [List.map_cons]
      dsimp only
      rw [blind.moveBucket_contents]
      cases moves : map.moveBucket b with
      | none => rfl
      | some moved =>
          have same := moveBucket_functions moves
          exact induction (blind.congr same.1 same.2)

theorem moveBuckets_functions
    {moved : Map (Cell K) (Cell V)}
    {rest : List (Bucket (Cell K) (Cell V))}
    (moves : map.moveBuckets rest = some moved) :
    moved.hashFn = map.hashFn ∧ moved.equalsFn = map.equalsFn := by
  induction rest generalizing map with
  | nil =>
      cases moves
      exact ⟨rfl, rfl⟩
  | cons b rest induction =>
      unfold Map.moveBuckets at moves
      split at moves
      · contradiction
      · rename_i middle first
        have before := moveBucket_functions first
        have after := induction moves
        exact ⟨after.1.trans before.1, after.2.trans before.2⟩

/-! ## The calls on the contents -/

theorem alloc_isSome (answer : Option Nat) (layout : Layout) :
    (alloc answer layout).isSome = granted answer.isSome layout := by
  unfold alloc granted
  cases answer with
  | none => rfl
  | some ptr =>
      by_cases empty : layout.elemSize = 0
      · simp [empty]
      · simp [empty]

theorem alloc_eq_none {answer : Option Nat} {layout : Layout}
    (refused : alloc answer layout = none) :
    granted answer.isSome layout = false := by
  rw [← alloc_isSome, refused]
  rfl

theorem alloc_eq_some {answer : Option Nat} {layout : Layout} {mem : Slice}
    (served : alloc answer layout = some mem) :
    granted answer.isSome layout = true ∧
      mem.length = layout.elemSize := by
  constructor
  · rw [← alloc_isSome, served]
    rfl
  · unfold alloc at served
    split at served
    · contradiction
    · split at served
      · contradiction
      · cases served
        rfl

/-- The result of a call without pointers. -/
def forget (result : Option Error × Owned K V) : Option Error × Map K V :=
  (result.1, result.2.map.contents)

theorem renewed_contents (map : Map (Cell K) (Cell V)) (capacity : Nat) :
    (map.renewed capacity).contents = map.contents.renewed capacity := by
  simp [Map.renewed, Map.contents, Bucket.contents, Bucket.empty]

theorem Blind.rehash_contents
    (blind : Blind owned.map) (newCap : Nat) (answer : Option Nat) :
    (owned.rehash newCap answer).map forget =
      owned.map.contents.rehash newCap answer.isSome := by
  unfold Owned.rehash Map.rehash
  dsimp only
  cases served : alloc answer (tableLayout (Map.rehashCapacity newCap)) with
  | none =>
      rw [if_pos (alloc_eq_none served)]
      rfl
  | some mem =>
      have given : ¬ granted answer.isSome
          (tableLayout (Map.rehashCapacity newCap)) = false := by
        simp [(alloc_eq_some served).1]
      rw [if_neg given]
      dsimp only
      have blind' :
          Blind (owned.map.renewed (Map.rehashCapacity newCap)) :=
        blind.congr rfl rfl
      have moves := blind'.moveBuckets_contents owned.map.buckets
      rw [renewed_contents] at moves
      have buckets : owned.map.contents.buckets =
          owned.map.buckets.map Bucket.contents := rfl
      rw [buckets]
      refine Eq.trans ?_ (congrArg (Option.map fun map => (none, map)) moves).symm
      rw [Option.map_map, Option.map_map]
      rfl

/-- A rehash keeps the functions of the map. -/
theorem Blind.rehash_functions
    {moved : Owned K V} {newCap : Nat} {answer : Option Nat}
    {error : Option Error} (blind : Blind owned.map)
    (result : owned.rehash newCap answer = some (error, moved)) :
    Blind moved.map := by
  unfold Owned.rehash at result
  dsimp only at result
  split at result
  · cases result
    exact blind
  · rcases Option.map_eq_some_iff.mp result with ⟨map, moves, equal⟩
    cases equal
    have same := moveBuckets_functions moves
    exact blind.congr same.1 same.2

theorem Blind.place_contents
    (blind : Blind owned.map) (key : Cell K) (value : V)
    (answers : Answers) :
    (owned.place key value answers).map forget =
      owned.map.contents.place key.content value answers.grants := by
  unfold Owned.place Map.place
  dsimp only
  have slot := blind.findSlot_contents (some key) (owned.map.hashOf key)
  rw [Option.map_some] at slot
  rw [blind.hashOf_contents, slot]
  cases owned.map.findSlot (some key) (owned.map.hashOf key) with
  | none => rfl
  | some idx =>
      dsimp only
      rw [contents_bucket]
      cases owned.map.buckets[idx]? with
      | none => rfl
      | some b =>
          dsimp only [Option.map_some]
          have used : b.contents.used = b.used := rfl
          have deleted : b.contents.deleted = b.deleted := rfl
          rw [used, deleted]
          by_cases stored : b.used = true ∧ b.deleted = false
          · rw [if_pos stored, if_pos stored, Option.map_some]
            unfold forget
            rw [contents_set owned.map idx owned.map.length]
            simp [Bucket.contents, Map.contents, Function.comp_def]
          · rw [if_neg stored, if_neg stored]
            have keyLayout :
                owned.map.contents.keyLayout = owned.map.keyLayout := rfl
            have valueLayout :
                owned.map.contents.valueLayout = owned.map.valueLayout := rfl
            rw [keyLayout, valueLayout]
            cases gotKey : alloc answers.key (Layout.create
                owned.map.keyLayout.elemSize
                owned.map.keyLayout.alignment) with
            | none =>
                have refused :
                    granted answers.grants.key _ = false :=
                  alloc_eq_none gotKey
                rw [if_pos refused, Option.map_some]
                unfold forget
                rw [contents_set owned.map idx owned.map.length]
                rfl
            | some keyMem =>
                have given : granted answers.grants.key _ = true :=
                  (alloc_eq_some gotKey).1
                rw [if_neg (by simp [given])]
                cases gotValue : alloc answers.value (Layout.create
                    owned.map.valueLayout.elemSize
                    owned.map.valueLayout.alignment) with
                | none =>
                    have refused :
                        granted answers.grants.value _ = false :=
                      alloc_eq_none gotValue
                    rw [if_pos refused, Option.map_some]
                    unfold forget
                    rw [contents_set owned.map idx owned.map.length]
                    rfl
                | some valueMem =>
                    have given' : granted answers.grants.value _ = true :=
                      (alloc_eq_some gotValue).1
                    rw [if_neg (by simp [given']), Option.map_some]
                    unfold forget
                    rw [contents_set]
                    rfl

/-- A call does on the contents what it does without pointers. -/
theorem Blind.insert_contents
    (blind : Blind owned.map) (key : Cell K) (value : V)
    (answers : Answers) :
    (owned.insert key value answers).map forget =
      owned.map.contents.insert key.content value answers.grants := by
  unfold Owned.insert Map.insert
  have keyLayout : owned.map.contents.keyLayout = owned.map.keyLayout := rfl
  have valueLayout :
      owned.map.contents.valueLayout = owned.map.valueLayout := rfl
  have due : owned.map.contents.rehashDue = owned.map.rehashDue := rfl
  have capacity : owned.map.contents.capacity = owned.map.capacity := rfl
  rw [keyLayout, valueLayout, due, capacity]
  by_cases badKey : owned.map.keyLayout.Invalid
  · rw [if_pos badKey, if_pos badKey]
    rfl
  rw [if_neg badKey, if_neg badKey]
  by_cases badValue : owned.map.valueLayout.Invalid
  · rw [if_pos badValue, if_pos badValue]
    rfl
  rw [if_neg badValue, if_neg badValue]
  by_cases dense : owned.map.rehashDue = true
  · rw [if_pos dense, if_pos dense]
    have rehashes := blind.rehash_contents
      (sizeMul owned.map.capacity 2) answers.buckets
    have grant : answers.grants.buckets = answers.buckets.isSome := rfl
    rw [grant, ← rehashes]
    cases result : owned.rehash (sizeMul owned.map.capacity 2)
        answers.buckets with
    | none => rfl
    | some outcome =>
        rcases outcome with ⟨error, moved⟩
        cases error with
        | some error => rfl
        | none =>
            exact (blind.rehash_functions result).place_contents key value
              answers
  · rw [if_neg dense, if_neg dense]
    exact blind.place_contents key value answers

end Libcute.Collection.HashMap
