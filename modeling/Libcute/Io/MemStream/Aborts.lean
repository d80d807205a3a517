import Libcute.Io.MemStream.Runs

/-!
# The unwrapped views of the memory stream

A read and a write unwrap a view of the vector without a look at it.  The
view is absent when the vector has no block, which is so for a stream of
capacity 0 until bytes are written to it.  `memStream_unwraps` says that a
write of no bytes to such a stream is the only call that ends the program.
-/

namespace Libcute.Io.MemStream

open Libcute.Collection.Blocks
open Libcute.Collection.Vector
open Libcute.Core.Size
open Libcute.Io.Error
open Libcute.Io.File

variable {stream stream' fresh : Mem} {grant : Grant UInt8} {call : Call}
  {reply : Reply}

/-- The views that a call unwraps. -/
def Mem.unwrapped (stream : Mem) (call : Call) (grant : Grant UInt8) :
    List (Option (Nat × Nat)) :=
  match call with
  | .read length =>
      let avail :=
        if stream.buffer.length > stream.pos then
          stream.buffer.length - stream.pos
        else
          0
      let n := if avail < length then avail else length
      if n > 0 then [stream.buffer.subslice stream.pos n] else []
  | .write data =>
      let needed := sizeAdd stream.pos data.length
      match
        if needed > stream.buffer.length then
          stream.buffer.resize needed grant
        else
          some (none, stream.buffer)
      with
      | none => []
      | some (some _, _) => []
      | some (none, buffer) => [buffer.subslice stream.pos data.length]
  | .seek _ => []
  | .tell => []

/-- The call is no write of no bytes to a vector without a block. -/
def Borne (stream : Mem) : Call → Prop
  | .write data => data ≠ [] ∨ 0 < stream.buffer.capacity
  | .read _ => True
  | .seek _ => True
  | .tell => True

/-- The length of a slice is a `size_t`. -/
def Sliced : Call → Prop
  | .write data => data.length < sizeLimit
  | .read _ => True
  | .seek _ => True
  | .tell => True

/--
The bytes of a write and those in front of the cursor are objects of one
address space.
-/
def Addressed (stream : Mem) : Call → Prop
  | .write data => stream.pos + data.length < sizeLimit
  | .read _ => True
  | .seek _ => True
  | .tell => True

/-- The streams that calls make of a new one that is not closed. -/
inductive Lasting (fresh : Mem) : Mem → Prop where
  | fresh : Lasting fresh fresh
  | call {stream stream' : Mem} {call : Call} {grant : Grant UInt8}
      {reply : Reply}
      (earlier : Lasting fresh stream) (borne : Borne stream call)
      (performs : stream.perform call grant = some (reply, stream')) :
      Lasting fresh stream'

/-- An absent view is unwrapped exactly by a call that is not borne. -/
structure Unwraps (stream : Mem) : Prop where
  present : ∀ call grant, Sliced call →
    (none ∉ stream.unwrapped call grant ↔ Borne stream call)
  returns : ∀ call grant, Borne stream call → Addressed stream call →
    ∃ reply stream', stream.perform call grant = some (reply, stream')

/-! ## Invariant -/

/-- The invariant of all streams, with and without a block. -/
structure Stable (stream : Mem) : Prop where
  valid : Valid stream.buffer
  layout : stream.buffer.layout = ⟨1, 1⟩
  within : stream.pos ≤ stream.buffer.length

theorem Stable.good (stable : Stable stream)
    (stored : 0 < stream.buffer.capacity) : Good stream :=
  ⟨stable.valid, stored, stable.layout, stable.within⟩

/-- A vector without capacity has no block, and nothing is in front. -/
theorem Stable.vacant (stable : Stable stream)
    (empty : stream.buffer.capacity = 0) :
    stream.buffer.data = none ∧ stream.buffer.length = 0 ∧
      stream.pos = 0 := by
  have inside := stable.valid.within
  have within := stable.within
  refine ⟨?_, by omega, by omega⟩
  cases data : stream.buffer.data with
  | none => rfl
  | some storage =>
      have positive := stable.valid.positive storage data
      omega

theorem create_stable
    {capacity : Nat} (fits : capacity < sizeLimit)
    (created : Mem.create capacity grant = .ok fresh) : Stable fresh := by
  rcases create_buffer fits created with ⟨valid, layout, _, _, start⟩
  exact ⟨valid, layout, start.trans_le (Nat.zero_le _)⟩

/--
What a write makes of the vector before it unwraps the view; there is none
when the vector cannot grow.
-/
theorem Stable.made (stable : Stable stream) (needed : Nat)
    (fits : needed < sizeLimit) (grant : Grant UInt8) :
    (∃ buffer,
        (if needed > stream.buffer.length then
          stream.buffer.resize needed grant
        else
          some (none, stream.buffer)) = some (none, buffer) ∧
        Stable { stream with buffer := buffer } ∧ needed ≤ buffer.length ∧
        (stream.buffer.length < needed → 0 < buffer.capacity) ∧
        (needed ≤ stream.buffer.length → buffer = stream.buffer)) ∨
      (if needed > stream.buffer.length then
        stream.buffer.resize needed grant
      else
        some (none, stream.buffer)) = some (some .oom, stream.buffer) := by
  have within := stable.within
  by_cases more : needed > stream.buffer.length
  · rw [if_pos more]
    rcases grow_spec stable.valid stable.layout more fits grant with
      ⟨_, buffer, _, resizes, valid, layout, _, _, length⟩ | ⟨_, refused⟩
    · have room := valid.within
      refine .inl ⟨buffer, resizes, ⟨valid, layout, ?_⟩, length.ge, ?_, ?_⟩
      · change stream.pos ≤ buffer.length
        omega
      · intro _
        omega
      · intro less
        omega
    · exact .inr refused
  · rw [if_neg more]
    exact .inl ⟨stream.buffer, rfl, stable, Nat.le_of_not_lt more,
      fun less => absurd less more, fun _ => rfl⟩

/-! ## One call -/

/-- There is nothing to read without a block. -/
theorem Stable.read_vacant
    (stable : Stable stream) (empty : stream.buffer.capacity = 0)
    (length : Nat) :
    stream.read length =
      some (if 0 < length then some unexpectedEof else none, [], stream) := by
  rcases stable.vacant empty with ⟨_, none, start⟩
  have nothing : (if 0 < length then 0 else length) = 0 := by
    split_ifs <;> omega
  unfold Mem.read
  rw [none, start]
  dsimp only
  rw [if_neg (Nat.lt_irrefl 0), nothing]
  rfl

theorem Stable.read
    {length : Nat} {error : Option IoError} {bytes : List UInt8}
    (stable : Stable stream)
    (reads : stream.read length = some (error, bytes, stream')) :
    Stable stream' := by
  rcases Nat.eq_zero_or_pos stream.buffer.capacity with empty | stored
  · rw [stable.read_vacant empty] at reads
    cases reads
    exact stable
  · rcases (stable.good stored).read_does length with
      ⟨error', bytes', stream'', same, good, _⟩
    rw [same] at reads
    cases reads
    exact ⟨good.valid, good.layout, good.within⟩

theorem Stable.write
    {data : List UInt8} {error : Option IoError} (stable : Stable stream)
    (writes : stream.write data grant = some (error, stream')) :
    Stable stream' := by
  unfold Mem.write at writes
  dsimp only at writes
  rcases stable.made (sizeAdd stream.pos data.length)
    (Nat.mod_lt _ (by decide)) grant with
    ⟨buffer, makes, stable', room, _⟩ | refused
  · rw [makes] at writes
    dsimp only at writes
    unfold Mem.copyIn at writes
    dsimp only at writes
    rcases Option.map_eq_some_iff.mp writes with ⟨copied, copies, same⟩
    cases same
    split at copies
    · cases copies
    · rcases Option.map_eq_some_iff.mp copies with ⟨buffer', fills, rfl⟩
      rcases fill_valid stable'.valid fills with ⟨valid, layout, length⟩
      refine ⟨valid, layout.trans stable'.layout, ?_⟩
      change sizeAdd stream.pos data.length ≤ buffer'.length
      rw [length]
      exact room
  · rw [refused] at writes
    cases writes
    exact stable

theorem Stable.seek (stable : Stable stream) (seekTo : SeekTo) :
    Stable (stream.seek seekTo).2 := by
  unfold Mem.seek
  dsimp only
  split
  · exact stable
  · split_ifs with beyond
    · exact stable
    · exact ⟨stable.valid, stable.layout, Nat.le_of_not_lt beyond⟩

/-- The step lemma: a call that returns keeps the invariant. -/
theorem Stable.perform
    (stable : Stable stream)
    (performs : stream.perform call grant = some (reply, stream')) :
    Stable stream' := by
  cases call with
  | read length =>
      dsimp only [Mem.perform] at performs
      rcases Option.map_eq_some_iff.mp performs with
        ⟨⟨error, bytes, after⟩, reads, same⟩
      cases same
      exact stable.read reads
  | write data =>
      dsimp only [Mem.perform] at performs
      rcases Option.map_eq_some_iff.mp performs with
        ⟨⟨error, after⟩, writes, same⟩
      cases same
      exact stable.write writes
  | seek seekTo =>
      cases performs
      exact stable.seek seekTo
  | tell =>
      cases performs
      exact stable

/-- The run lemma. -/
theorem Lasting.stable
    (lasting : Lasting fresh stream) (stable : Stable fresh) :
    Stable stream := by
  induction lasting with
  | fresh => exact stable
  | call _ _ performs induction => exact induction.perform performs

/-! ## The views -/

/-- A view is absent exactly when there is no block. -/
theorem Stable.subslice_iff (stable : Stable stream) (count : Nat) :
    stream.buffer.subslice stream.pos count = none ↔
      stream.buffer.capacity = 0 := by
  have within := stable.within
  constructor
  · intro absent
    unfold Vec.subslice at absent
    split_ifs at absent with missing
    rcases missing with vacant | beyond
    · exact stable.valid.vacant (Option.isNone_iff_eq_none.mp vacant)
    · omega
  · intro empty
    unfold Vec.subslice
    rw [(stable.vacant empty).1]
    rfl

theorem Stable.read_present (stable : Stable stream) (length : Nat) :
    none ∉ stream.unwrapped (.read length) grant := by
  unfold Mem.unwrapped
  dsimp only
  generalize count : (if _ < length then _ else length) = n
  intro absent
  split_ifs at absent with positive
  · have empty := (stable.subslice_iff n).mp
      (List.mem_singleton.mp absent).symm
    rcases stable.vacant empty with ⟨_, none, start⟩
    rw [none, start] at count
    split_ifs at count <;> omega
  · cases absent

theorem Stable.write_present_iff
    {data : List UInt8} (stable : Stable stream)
    (slice : data.length < sizeLimit) :
    none ∉ stream.unwrapped (.write data) grant ↔
      data ≠ [] ∨ 0 < stream.buffer.capacity := by
  dsimp only [Mem.unwrapped]
  rcases stable.made (sizeAdd stream.pos data.length)
    (Nat.mod_lt _ (by decide)) grant with
    ⟨buffer, makes, stable', _, grown, same⟩ | refused
  · rw [makes]
    dsimp only
    rw [List.mem_singleton, eq_comm]
    have absent := stable'.subslice_iff data.length
    dsimp only at absent
    rw [absent]
    rcases Nat.eq_zero_or_pos stream.buffer.capacity with empty | stored
    · rcases stable.vacant empty with ⟨_, none, start⟩
      rw [none, start, sizeAdd_eq (by omega)] at grown same
      rcases data with _ | ⟨elem, rest⟩
      · rw [same (Nat.zero_le _), empty]
        simp
      · rw [List.length_cons] at grown
        have room := grown (by omega)
        exact ⟨fun _ => .inl (List.cons_ne_nil _ _), fun _ => by omega⟩
    · refine ⟨fun _ => .inr stored, fun _ => ?_⟩
      by_cases more : stream.buffer.length < sizeAdd stream.pos data.length
      · have room := grown more
        omega
      · rw [same (by omega)]
        omega
  · rw [refused]
    dsimp only
    refine ⟨fun _ => ?_, fun _ => List.not_mem_nil⟩
    by_contra unborne
    rw [not_or, not_not] at unborne
    rcases unborne with ⟨rfl, empty⟩
    rcases stable.vacant (by omega) with ⟨_, none, start⟩
    rw [none, start] at refused
    cases refused

theorem Stable.present_iff
    (stable : Stable stream) (grant : Grant UInt8) (slice : Sliced call) :
    none ∉ stream.unwrapped call grant ↔ Borne stream call := by
  cases call with
  | read length => exact ⟨fun _ => trivial, fun _ => stable.read_present _⟩
  | write data => exact stable.write_present_iff slice
  | seek seekTo => exact ⟨fun _ => trivial, fun _ => List.not_mem_nil⟩
  | tell => exact ⟨fun _ => trivial, fun _ => List.not_mem_nil⟩

/-! ## Results -/

theorem Stable.write_total
    {data : List UInt8} (stable : Stable stream)
    (borne : data ≠ [] ∨ 0 < stream.buffer.capacity)
    (fits : stream.pos + data.length < sizeLimit) (grant : Grant UInt8) :
    ∃ error stream', stream.write data grant = some (error, stream') := by
  rcases Nat.eq_zero_or_pos stream.buffer.capacity with empty | stored
  · rcases stable.vacant empty with ⟨_, none, start⟩
    have filled : data ≠ [] := by
      rcases borne with filled | stored
      · exact filled
      · omega
    have positive := List.length_pos_iff.mpr filled
    unfold Mem.write
    rcases stable.made (sizeAdd stream.pos data.length)
      (Nat.mod_lt _ (by decide)) grant with
      ⟨buffer, makes, stable', room, grown, _⟩ | refused
    · rw [sizeAdd_eq fits] at room grown
      rcases (stable'.good (grown (by omega))).copyIn_spec data room with
        ⟨stream', copies, _⟩
      refine ⟨Option.none, stream', ?_⟩
      dsimp only
      rw [makes]
      dsimp only
      rw [copies]
      rfl
    · refine ⟨some outOfMemory, stream, ?_⟩
      dsimp only
      rw [refused]
  · rcases (stable.good stored).write_does grant fits with
      ⟨error, stream', writes, _⟩
    exact ⟨error, stream', writes⟩

theorem Stable.read_total (stable : Stable stream) (length : Nat) :
    ∃ error bytes stream',
      stream.read length = some (error, bytes, stream') := by
  rcases Nat.eq_zero_or_pos stream.buffer.capacity with empty | stored
  · exact ⟨_, _, _, stable.read_vacant empty length⟩
  · rcases (stable.good stored).read_does length with
      ⟨error, bytes, stream', reads, _⟩
    exact ⟨error, bytes, stream', reads⟩

theorem Stable.perform_total
    (stable : Stable stream) (grant : Grant UInt8)
    (borne : Borne stream call) (addressed : Addressed stream call) :
    ∃ reply stream', stream.perform call grant = some (reply, stream') := by
  cases call with
  | read length =>
      rcases stable.read_total length with ⟨error, bytes, stream', reads⟩
      refine ⟨.read error bytes, stream', ?_⟩
      dsimp only [Mem.perform]
      rw [reads]
      rfl
  | write data =>
      rcases stable.write_total borne addressed grant with
        ⟨error, stream', writes⟩
      refine ⟨.wrote error, stream', ?_⟩
      dsimp only [Mem.perform]
      rw [writes]
      rfl
  | seek seekTo => exact ⟨_, _, rfl⟩
  | tell => exact ⟨_, _, rfl⟩

/--
The main result: for every capacity, whatever the allocator grants, a stream
unwraps an absent view exactly when no bytes are written and no block is
there.
-/
theorem memStream_unwraps
    {capacity : Nat} (fits : capacity < sizeLimit)
    (created : Mem.create capacity grant = .ok fresh)
    (lasting : Lasting fresh stream) : Unwraps stream := by
  have stable := lasting.stable (create_stable fits created)
  exact ⟨fun _ grant slice => stable.present_iff grant slice,
    fun _ grant borne addressed =>
      stable.perform_total grant borne addressed⟩

/-- A new stream of capacity 0. -/
def emptyStream : Mem := ⟨⟨none, 0, 0, ⟨1, 1⟩, false, []⟩, 0⟩

/-- A stream of capacity 0 that a byte is written to. -/
theorem memStream_unwraps_written :
    ∃ fresh stream,
      Mem.create 0 none = .ok fresh ∧
        fresh.perform (.write [7]) (some (64, fun _ => 0)) =
          some (.wrote none, stream) ∧ Unwraps stream := by
  have creates : Mem.create 0 none = .ok emptyStream := rfl
  have writes : emptyStream.perform (.write [7]) (some (64, fun _ => 0)) =
      some (.wrote none, ⟨⟨some ⟨⟨64, 1⟩, [7]⟩, 1, 1, ⟨1, 1⟩, false, []⟩, 1⟩) :=
    rfl
  have borne : Borne emptyStream (.write [7]) := .inl (List.cons_ne_nil _ _)
  exact ⟨emptyStream, _, creates, writes,
    memStream_unwraps (by decide) creates (.call .fresh borne writes)⟩

/-- A write of no bytes to a new stream of capacity 0. -/
theorem memStream_unwraps_absent :
    Mem.create 0 none = .ok emptyStream ∧
      emptyStream.unwrapped (.write []) none = [none] ∧
      emptyStream.perform (.write []) none = none :=
  ⟨rfl, rfl, rfl⟩

end Libcute.Io.MemStream
