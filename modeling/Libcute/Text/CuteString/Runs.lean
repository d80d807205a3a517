import Libcute.Text.CuteString

/-!
# Runs of strings

A string refines a list of characters.  `Kept` is its invariant, and
`string_refines` says that in every run, whatever the allocator refuses, the
characters are those that were appended since the string was made or cleared,
with a NUL behind them.

The slices that are appended do not point into the string itself.
-/

namespace Libcute.Text.CuteString

open Libcute.Collection.Blocks
open Libcute.Collection.RingBuffer (objectLimit)
open Libcute.Core.Interface (Layout)
open Libcute.Core.Size

variable {str str' : Str} {grant : Grant UInt8} {chars slice : List UInt8}

/-- A call on a string. -/
inductive Call where
  | appendSlice (slice : List UInt8)
  | appendCstr (cstr : Option (List UInt8))
  | append (other : Str)
  | reserve (capacity : Nat)
  | clear

/-- Make a call. -/
def Str.perform (str : Str) (call : Call) (grant : Grant UInt8) :
    Option (Option Error × Str) :=
  match call with
  | .appendSlice slice => str.appendSlice slice grant
  | .appendCstr cstr => str.appendCstr cstr grant
  | .append other => str.append other grant
  | .reserve capacity => some (str.reserve capacity grant)
  | .clear => str.clear.map fun str => (none, str)

/-- The characters that a call appends. -/
def Call.text : Call → List UInt8
  | .appendSlice slice => slice
  | .appendCstr cstr => Str.characters cstr
  | .append other => other.asSlice
  | .reserve _ => []
  | .clear => []

/-- The sums of a call do not wrap. -/
def Permitted (str : Str) (call : Call) : Prop :=
  match call with
  | .reserve capacity => capacity + 1 < sizeLimit
  | call => str.length + call.text.length + 1 < sizeLimit

instance (str : Str) (call : Call) : Decidable (Permitted str call) := by
  unfold Permitted
  split <;> infer_instance

/-- What a successful call makes of the characters. -/
def Call.reference (call : Call) (chars : List UInt8) : List UInt8 :=
  match call with
  | .clear => []
  | call => chars ++ call.text

/--
So many characters need a larger block, and none of the size that is asked for
is granted.
-/
def Str.Denied
    (str : Str) (needed asked : Nat) (grant : Grant UInt8) : Prop :=
  str.capacity < needed ∧ (grant = none ∨ objectLimit ≤ asked)

/-- The memory that a call needs is refused. -/
def Str.Refused (str : Str) (call : Call) (grant : Grant UInt8) : Prop :=
  match call with
  | .clear => False
  | .reserve capacity => str.Denied capacity capacity grant
  | call =>
      str.Denied (str.length + call.text.length)
        (max (str.capacity * 2) (str.length + call.text.length)) grant

/-! ## The invariant -/

/-- A string with a block, its characters and the NUL. -/
structure Kept (str : Str) (chars : List UInt8) : Prop where
  sound : Sound str
  bytes : str.bytes = chars
  terminated : str.Terminated

/-- What the invariant says of the block. -/
theorem Kept.block (kept : Kept str chars) :
    ∃ storage, str.data = some storage ∧
      storage.slots.length = str.capacity + 1 ∧
      storage.slots.take str.length = chars ∧
      storage.slots[str.length]? = some 0 := by
  rcases kept.terminated with ⟨storage, data, last⟩
  refine ⟨storage, data, kept.sound.slots storage data, ?_, last⟩
  rw [← kept.bytes, bytes_of_data data]

/-- The two writes behind the characters: the new ones, and a NUL. -/
theorem writes_behind
    {storage : Storage UInt8} (data : str.data = some storage)
    (long : storage.slots.length = str.capacity + 1)
    (limit : str.capacity < objectLimit) {pos : Nat} (slice : List UInt8)
    (room : pos + slice.length ≤ str.capacity) :
    ∃ copied finished, str.copyIn pos slice = some copied ∧
      copied.length = str.length ∧
      (∀ length, ({ copied with length := length } : Str).terminate
        (pos + slice.length) =
          some ⟨some finished, length, str.capacity⟩) ∧
      Kept ⟨some finished, pos + slice.length, str.capacity⟩
        (storage.slots.take pos ++ slice) := by
  have copies : ∃ slots, str.copyIn pos slice =
      some { str with data := some { storage with slots := slots } } ∧
      slots.length = storage.slots.length ∧
      slots.take (pos + slice.length) =
        storage.slots.take pos ++ slice := by
    unfold Str.copyIn
    by_cases filled : slice.length > 0
    · rw [if_pos filled, data]
      dsimp only
      rw [if_pos (by omega)]
      refine ⟨_, rfl, ?_, ?_⟩
      · rw [List.length_append, List.length_append, List.length_take,
          List.length_drop]
        omega
      · exact List.take_left'
          (by rw [List.length_append, List.length_take]; omega)
    · have none : slice = [] := List.length_eq_zero_iff.mp (by omega)
      subst none
      rw [if_neg filled]
      refine ⟨storage.slots, ?_, rfl, ?_⟩
      · rw [← data]
      · rw [List.append_nil]
        rfl
  rcases copies with ⟨slots, copies, same, front⟩
  have inside : pos + slice.length < slots.length := by omega
  refine ⟨_, { storage with slots := slots.set (pos + slice.length) 0 },
    copies, rfl, ?_, ?_⟩
  · intro length
    unfold Str.terminate
    dsimp only
    rw [if_pos inside]
  · refine ⟨⟨?_, ?_, room, limit⟩, ?_, _, rfl, ?_⟩
    · intro none
      cases none
    · intro _ holds
      cases holds
      rw [List.length_set, same, long]
    · unfold Str.bytes
      dsimp only
      rw [List.take_set_of_le le_rfl, front]
    · exact List.getElem?_set_self inside

/-- A refused allocation leaves the string as it is. -/
theorem alloc_refused
    {cap : Nat} {error : Error}
    (allocates : str.alloc cap grant = (some error, str')) :
    error = .oom ∧ str' = str := by
  cases error
  unfold Str.alloc at allocates
  dsimp only at allocates
  split at allocates
  · cases allocates
    exact ⟨rfl, rfl⟩
  · cases allocates

theorem alloc_denied
    {cap : Nat} {error : Error} (fits : cap + 1 < sizeLimit)
    (allocates : str.alloc cap grant = (some error, str')) :
    grant = none ∨ objectLimit ≤ cap := by
  by_contra neither
  rw [not_or, not_le] at neither
  rcases neither with ⟨granted, short⟩
  rcases Option.ne_none_iff_exists'.mp granted with ⟨⟨ptr, fill⟩, rfl⟩
  have request : Layout.create (sizeAdd cap 1) 1 = ⟨cap + 1, 1⟩ := by
    rw [sizeAdd_eq fits, Layout.create_of_pos (by omega) (by omega)]
  have given : bounded (some (ptr, fill)) (cap + 1) = some (ptr, fill) :=
    if_neg (by omega)
  unfold Str.alloc at allocates
  rw [request] at allocates
  dsimp only at allocates
  rw [given] at allocates
  cases data : str.data with
  | none =>
      rw [data] at allocates
      dsimp only [Collection.Blocks.alloc] at allocates
      rw [if_neg (by omega)] at allocates
      cases allocates
  | some old =>
      rw [data] at allocates
      unfold grow shrink move at allocates
      dsimp only at allocates
      rw [ite_self] at allocates
      cases allocates

/-- A string that is made from characters holds them. -/
theorem fromSlice_spec
    (fits : slice.length + 1 < sizeLimit) (grant : Grant UInt8) :
    (∃ str, Str.fromSlice slice grant = some (.ok str) ∧ Kept str slice) ∨
      Str.fromSlice slice grant = some (.error .oom) := by
  unfold Str.fromSlice
  rcases allocates : Str.init.alloc slice.length grant with ⟨error, str⟩
  cases error with
  | some error => exact Or.inr rfl
  | none =>
      left
      rcases alloc_eq fits allocates with ⟨storage, rfl, limit, long, _⟩
      rcases @writes_behind ⟨some storage, Str.init.length, slice.length⟩
          storage rfl long limit 0 slice (Nat.zero_add _).le with
        ⟨copied, finished, copies, _, terminates, kept⟩
      rw [Nat.zero_add] at terminates kept
      have last := terminates copied.length
      refine ⟨_, ?_, kept⟩
      dsimp only
      rw [copies]
      dsimp only
      rw [last]
      rfl

/-- No string is made without a block. -/
theorem fromSlice_refused (slice : List UInt8) :
    Str.fromSlice slice none = some (.error .oom) := by
  have refused (size : Nat) : bounded none size = none := ite_self _
  unfold Str.fromSlice Str.alloc
  dsimp only [Str.init]
  rw [refused]
  rfl

/-- A block that is granted is enough for a string that is not too long. -/
theorem fromSlice_granted
    {grant : Grant UInt8} (granted : grant ≠ none)
    (short : slice.length < objectLimit) :
    ∃ str, Str.fromSlice slice grant = some (.ok str) ∧ Kept str slice := by
  have fits : slice.length + 1 < sizeLimit := by
    unfold objectLimit at short
    unfold sizeLimit
    omega
  rcases fromSlice_spec fits grant with made | refused
  · exact made
  · exfalso
    rcases Option.ne_none_iff_exists'.mp granted with ⟨⟨ptr, fill⟩, rfl⟩
    have request : Layout.create (sizeAdd slice.length 1) 1 =
        ⟨slice.length + 1, 1⟩ := by
      rw [sizeAdd_eq fits, Layout.create_of_pos (by omega) (by omega)]
    have allocates : ∃ str, Str.init.alloc slice.length (some (ptr, fill)) =
        (none, str) := by
      unfold Str.alloc bounded
      rw [request]
      dsimp only [Str.init]
      rw [if_neg (by omega)]
      unfold Collection.Blocks.alloc
      dsimp only
      rw [if_neg (by omega)]
      exact ⟨_, rfl⟩
    rcases allocates with ⟨str, allocates⟩
    unfold Str.fromSlice at refused
    rw [allocates] at refused
    dsimp only at refused
    split at refused
    · cases refused
    · rcases Option.map_eq_some_iff.mp refused with ⟨_, _, absent⟩
      cases absent

/-- A block that was cleared is an empty string. -/
theorem Sound.clear_spec
    (sound : Sound str) {storage : Storage UInt8}
    (data : str.data = some storage) :
    ∃ str', str.clear = some str' ∧ Kept str' [] := by
  rcases @writes_behind str storage data (sound.slots storage data)
      sound.limit 0 [] (Nat.zero_le _) with
    ⟨copied, finished, copies, _, terminates, cleared⟩
  cases copies
  refine ⟨_, ?_, cleared⟩
  unfold Str.clear
  dsimp only
  rw [data]
  dsimp only
  have last := terminates 0
  rw [data] at last
  exact last

/--
Characters are appended, or the string stays as it is.  There need not be a
NUL behind the old ones, but there is a block, or there will be one.
-/
theorem Sound.appendSlice_spec
    (sound : Sound str) (grant : Grant UInt8)
    (stored : str.data.isSome = true ∨ slice ≠ [])
    (fits : str.length + slice.length + 1 < sizeLimit) :
    (∃ str', str.appendSlice slice grant = some (none, str') ∧
        Kept str' (str.bytes ++ slice)) ∨
      str.appendSlice slice grant = some (some .oom, str) := by
  have limit := sound.limit
  have within := sound.within
  unfold Str.appendSlice
  rw [sizeAdd_eq (by omega)]
  dsimp only
  by_cases more : str.length + slice.length > str.capacity
  · rw [if_pos more]
    generalize asked : (if
        (if str.capacity ≠ 0 then sizeMul str.capacity 2 else slice.length) <
          str.length + slice.length then str.length + slice.length
      else if str.capacity ≠ 0 then sizeMul str.capacity 2
      else slice.length) = newCap
    have enough : str.length + slice.length ≤ newCap ∧
        newCap + 1 < sizeLimit := by
      unfold objectLimit at limit
      rw [sizeMul_eq (by unfold sizeLimit; omega)] at asked
      unfold sizeLimit at *
      rw [← asked]
      split_ifs <;> omega
    rcases allocates : str.alloc newCap grant with ⟨error, roomy⟩
    cases error with
    | some error =>
        right
        rw [(alloc_refused allocates).1, (alloc_refused allocates).2]
    | none =>
        left
        have same := (sound.alloc_spec (by omega) enough.2 allocates).2.1
        rcases alloc_eq enough.2 allocates with
          ⟨moved, rfl, limit', long', _⟩
        rcases @writes_behind ⟨some moved, str.length, newCap⟩ moved rfl
            long' limit' str.length slice enough.1 with
          ⟨copied, finished, copies, _, terminates, holds⟩
        have front : moved.slots.take str.length = str.bytes := same
        rw [front] at holds
        refine ⟨_, ?_, holds⟩
        dsimp only
        rw [copies]
        dsimp only
        rw [terminates]
        rfl
  · rw [if_neg more]
    left
    cases data : str.data with
    | none =>
        have empty := (sound.vacant data).2
        rw [data] at stored
        rcases stored with absent | filled
        · cases absent
        · have positive := List.length_pos_iff.mpr filled
          omega
    | some storage =>
        rcases @writes_behind str storage data (sound.slots storage data)
            limit str.length slice (by omega) with
          ⟨copied, finished, copies, _, terminates, holds⟩
        rw [← bytes_of_data data] at holds
        refine ⟨_, ?_, holds⟩
        dsimp only
        rw [copies]
        dsimp only
        rw [terminates]
        rfl

/-- An append fails only when its memory is refused. -/
theorem Sound.appendSlice_denied
    (sound : Sound str) {error : Error}
    (fits : str.length + slice.length + 1 < sizeLimit)
    (fails : str.appendSlice slice grant = some (some error, str')) :
    str.Denied (str.length + slice.length)
      (max (str.capacity * 2) (str.length + slice.length)) grant := by
  have limit := sound.limit
  have within := sound.within
  unfold Str.appendSlice at fails
  rw [sizeAdd_eq (by omega)] at fails
  dsimp only at fails
  generalize asked : (if
      (if str.capacity ≠ 0 then sizeMul str.capacity 2 else slice.length) <
        str.length + slice.length then str.length + slice.length
    else if str.capacity ≠ 0 then sizeMul str.capacity 2
    else slice.length) = newCap at fails
  rcases made : (if str.length + slice.length > str.capacity then
      str.alloc newCap grant else (none, str)) with ⟨_ | failure, roomy⟩
  · rw [made] at fails
    dsimp only at fails
    split at fails
    · cases fails
    · rcases Option.map_eq_some_iff.mp fails with ⟨_, _, absurd⟩
      cases absurd
  · split_ifs at made with more
    · have largest : newCap =
          max (str.capacity * 2) (str.length + slice.length) := by
        unfold objectLimit at limit
        rw [sizeMul_eq (by unfold sizeLimit; omega)] at asked
        rw [← asked]
        split_ifs <;> omega
      rw [← largest]
      refine ⟨more, alloc_denied ?_ made⟩
      unfold objectLimit at limit
      unfold sizeLimit at *
      omega
    · cases made

theorem Kept.appendSlice_spec
    (kept : Kept str chars) (grant : Grant UInt8)
    (fits : str.length + slice.length + 1 < sizeLimit) :
    (∃ str', str.appendSlice slice grant = some (none, str') ∧
        Kept str' (chars ++ slice)) ∨
      str.appendSlice slice grant = some (some .oom, str) := by
  rcases kept.block with ⟨storage, data, -⟩
  have appended := kept.sound.appendSlice_spec grant
    (.inl (by rw [data]; rfl)) fits
  rw [kept.bytes] at appended
  exact appended

/-- A larger block keeps the characters and the NUL. -/
theorem Kept.reserve_spec
    (kept : Kept str chars) {capacity : Nat}
    (fits : capacity + 1 < sizeLimit)
    (reserves : str.reserve capacity grant = (none, str')) :
    Kept str' (chars ++ []) := by
  rw [List.append_nil]
  have same := kept.sound.reserve_spec fits reserves
  refine ⟨same.1, same.2.1.trans kept.bytes, ?_⟩
  unfold Str.reserve at reserves
  split at reserves
  · cases reserves
    exact kept.terminated
  · rcases kept.block with ⟨storage, data, long, _, last⟩
    have within := kept.sound.within
    rcases alloc_eq fits reserves with ⟨moved, rfl, _, _, carried⟩
    have front := carried storage data (str.length + 1) (by omega) (by omega)
    refine ⟨moved, rfl, ?_⟩
    dsimp only
    rw [← List.getElem?_take_of_lt (Nat.lt_succ_self str.length), front,
      List.getElem?_take_of_lt (Nat.lt_succ_self str.length), last]

/-! ## One call -/

/-- The step lemma: a call does what its reference says, or nothing. -/
theorem Kept.perform_spec
    (kept : Kept str chars) (call : Call) (grant : Grant UInt8)
    (permitted : Permitted str call) :
    (∃ str', str.perform call grant = some (none, str') ∧
        Kept str' (call.reference chars)) ∨
      str.perform call grant = some (some .oom, str) := by
  cases call with
  | appendSlice slice => exact kept.appendSlice_spec grant permitted
  | appendCstr cstr => exact kept.appendSlice_spec grant permitted
  | append other => exact kept.appendSlice_spec grant permitted
  | reserve capacity =>
      dsimp only [Str.perform]
      rcases reserves : str.reserve capacity grant with ⟨error, str'⟩
      cases error with
      | none =>
          left
          exact ⟨str', rfl, kept.reserve_spec permitted reserves⟩
      | some error =>
          right
          unfold Str.reserve at reserves
          split at reserves
          · cases reserves
          · rw [(alloc_refused reserves).1, (alloc_refused reserves).2]
  | clear =>
      left
      rcases kept.terminated with ⟨storage, data, _⟩
      rcases kept.sound.clear_spec data with ⟨str', clears, kept'⟩
      refine ⟨str', ?_, kept'⟩
      dsimp only [Str.perform]
      rw [clears]
      rfl

/-- A call fails only when its memory is refused. -/
theorem Sound.perform_refused
    (sound : Sound str) {call : Call} {error : Error}
    (permitted : Permitted str call)
    (fails : str.perform call grant = some (some error, str')) :
    str.Refused call grant := by
  cases call with
  | appendSlice slice => exact sound.appendSlice_denied permitted fails
  | appendCstr cstr => exact sound.appendSlice_denied permitted fails
  | append other => exact sound.appendSlice_denied permitted fails
  | reserve capacity =>
      have reserves := Option.some.inj fails
      unfold Str.reserve at reserves
      split_ifs at reserves with enough
      · cases reserves
      · exact ⟨Nat.lt_of_not_le enough, alloc_denied permitted reserves⟩
  | clear =>
      dsimp only [Str.perform] at fails
      rcases Option.map_eq_some_iff.mp fails with ⟨_, _, absurd⟩
      cases absurd

/-! ## Runs -/

/--
The strings that runs reach, with the characters of the reference: those of
the C string, the slice or the string that they were made from, and what the
calls made of them.  A call that fails leaves the characters.
-/
inductive Reached : Str → List UInt8 → Prop where
  | fromCstr {cstr : Option (List UInt8)} {grant : Grant UInt8} {str : Str}
      (fits : (Str.characters cstr).length + 1 < sizeLimit)
      (made : Str.fromCstr cstr grant = some (.ok str)) :
      Reached str (Str.characters cstr)
  | fromSlice {slice : List UInt8} {grant : Grant UInt8} {str : Str}
      (fits : slice.length + 1 < sizeLimit)
      (made : Str.fromSlice slice grant = some (.ok str)) :
      Reached str slice
  | copy {src : Str} {grant : Grant UInt8} {str : Str}
      (fits : src.asSlice.length + 1 < sizeLimit)
      (made : src.copy grant = some (.ok str)) :
      Reached str src.asSlice
  | done {str str' : Str} {chars : List UInt8} {call : Call}
      {grant : Grant UInt8}
      (earlier : Reached str chars) (permitted : Permitted str call)
      (performs : str.perform call grant = some (none, str')) :
      Reached str' (call.reference chars)
  | failed {str str' : Str} {chars : List UInt8} {call : Call}
      {grant : Grant UInt8} {error : Error}
      (earlier : Reached str chars) (permitted : Permitted str call)
      (performs : str.perform call grant = some (some error, str')) :
      Reached str' chars

theorem Reached.kept (reached : Reached str chars) : Kept str chars := by
  have made {slice : List UInt8} {grant : Grant UInt8} {str : Str}
      (fits : slice.length + 1 < sizeLimit)
      (made : Str.fromSlice slice grant = some (.ok str)) :
      Kept str slice := by
    rcases fromSlice_spec fits grant with ⟨again, makes, kept⟩ | refused
    · rw [makes] at made
      cases made
      exact kept
    · rw [refused] at made
      cases made
  induction reached with
  | fromCstr fits makes => exact made fits makes
  | fromSlice fits makes => exact made fits makes
  | copy fits makes => exact made fits makes
  | done earlier permitted performs kept =>
      rename_i call grant
      rcases kept.perform_spec call grant permitted with
        ⟨again, makes, kept'⟩ | refused
      · rw [makes] at performs
        cases performs
        exact kept'
      · rw [refused] at performs
        cases performs
  | failed earlier permitted performs kept =>
      rename_i call grant error
      rcases kept.perform_spec call grant permitted with
        ⟨again, makes, kept'⟩ | refused
      · rw [makes] at performs
        cases performs
      · rw [refused] at performs
        cases performs
        exact kept

/--
The main result: in every run the string holds the characters of the
reference, its block has one byte more than its capacity, and a NUL follows
the characters.  Every call that may be made has a result; it fails only when
the memory it needs is refused, and then it changes nothing.
-/
theorem string_refines (reached : Reached str chars) :
    str.bytes = chars ∧ str.length = chars.length ∧
      str.length ≤ str.capacity ∧
      (∃ storage, str.data = some storage ∧
        storage.slots.length = str.capacity + 1 ∧
        storage.slots[str.length]? = some 0) ∧
      ∀ call grant, Permitted str call →
        ∃ error str', str.perform call grant = some (error, str') ∧
          (error ≠ none →
            error = some .oom ∧ str.Refused call grant ∧
              str'.bytes = str.bytes ∧ str'.length = str.length ∧
              str'.capacity = str.capacity) := by
  have kept := reached.kept
  rcases kept.block with ⟨storage, data, long, _, last⟩
  refine ⟨kept.bytes, ?_, kept.sound.within, ⟨storage, data, long, last⟩, ?_⟩
  · rw [← kept.bytes, kept.sound.bytes_length]
  · intro call grant permitted
    rcases kept.perform_spec call grant permitted with
      ⟨str', performs, _⟩ | refused
    · exact ⟨none, str', performs, fun failed => absurd rfl failed⟩
    · exact ⟨some .oom, str, refused, fun _ =>
        ⟨rfl, kept.sound.perform_refused permitted refused, rfl, rfl, rfl⟩⟩

/-- A block at an address, filled with a character that is not NUL. -/
def block (ptr : Nat) : Grant UInt8 := some (ptr, fun _ => 170)

/--
The string `ab` is made, an append for which there is no memory fails, and
the next one moves the string to a block of four characters.
-/
theorem string_refines_calls :
    ∃ str, Reached str [97, 98, 99, 100] ∧
      str.bytes = [97, 98, 99, 100] ∧ str.length = str.capacity := by
  have start : Reached ⟨some ⟨⟨64, 3⟩, [97, 98, 0]⟩, 2, 2⟩ [97, 98] :=
    @Reached.fromCstr (some [97, 98, 0, 7]) (block 64) _ (by decide) rfl
  have failed : Reached ⟨some ⟨⟨64, 3⟩, [97, 98, 0]⟩, 2, 2⟩ [97, 98] :=
    @Reached.failed _ _ _ (.appendSlice [99]) none .oom start (by decide) rfl
  have grown : Reached
      ⟨some ⟨⟨128, 5⟩, [97, 98, 99, 100, 0]⟩, 4, 4⟩ [97, 98, 99, 100] :=
    @Reached.done _ _ _ (.appendSlice [99, 100]) (block 128) failed
      (by decide) rfl
  exact ⟨_, grown, (string_refines grown).1, rfl⟩

end Libcute.Text.CuteString
