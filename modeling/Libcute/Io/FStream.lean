import Libcute.Collection.RingBuffer
import Libcute.Io.File

/-!
# The file stream

`fstream.c` puts a ring buffer of bytes between a file and its user.  A stream
for writing collects bytes and writes the buffer when it is full; a stream for
reading fills the buffer by one read of its whole capacity.

A `Turn` holds what the allocator and the system answer when the buffer is
flushed or filled once; turn `i` of a read or of a write is the one before
byte `i`.  An access outside of a block has no result.
-/

namespace Libcute.Io.FStream

open Libcute.Collection.Blocks
open Libcute.Collection.RingBuffer
open Libcute.Core.Interface (Layout)
open Libcute.Io.Error
open Libcute.Io.File

/-- `cu_FStream` -/
structure Stream where
  file : Handle
  buffer : RingBuf UInt8
  reading : Bool

/-- The answers to a request for a block and to a call of `read` or `write`. -/
structure Turn where
  grant : Grant UInt8
  answer : Answer

/-- The options that the stream looks at. -/
structure Options where
  read : Bool
  write : Bool
deriving DecidableEq, Repr

/-- The loop that pops elements of the buffer into a block from `i` on. -/
def drainLoop (buffer : RingBuf UInt8) (tmp : List UInt8) (i : Nat) :
    Nat → Option (List UInt8 × RingBuf UInt8)
  | 0 => some (tmp, buffer)
  | count + 1 =>
      match buffer.pop with
      | none => none
      | some (.error _, buffer) => drainLoop buffer tmp (i + 1) count
      | some (.ok elem, buffer) =>
          if i < tmp.length then
            drainLoop buffer (tmp.set i elem) (i + 1) count
          else
            none

/-- The loop that pushes the bytes of a block. -/
def pushLoop (buffer : RingBuf UInt8) : List UInt8 → Option (RingBuf UInt8)
  | [] => some buffer
  | elem :: rest =>
      match buffer.push elem with
      | none => none
      | some (_, buffer) => pushLoop buffer rest

namespace Stream

/-- `cu_FStream_flush_buffer` -/
def flushBuffer (fs : Stream) (turn : Turn) :
    Option (Option IoError × Stream) :=
  let len := fs.buffer.length
  if len = 0 then
    some (none, fs)
  else
    match allocObject turn.grant (Layout.create len 1) 1 with
    | none => some (some outOfMemory, fs)
    | some mem =>
        match drainLoop fs.buffer mem.slots 0 len with
        | none => none
        | some (tmp, buffer) =>
            let wrote := fs.file.write tmp turn.answer
            some (wrote.1, { fs with file := wrote.2, buffer := buffer })

/-- `cu_FStream_flush_impl` -/
def flush (fs : Stream) (turn : Turn) : Option (Option IoError × Stream) :=
  if fs.reading = false then fs.flushBuffer turn else some (none, fs)

/-- `cu_FStream_fill_buffer` -/
def fillBuffer (fs : Stream) (turn : Turn) :
    Option (Option IoError × Stream) :=
  match allocObject turn.grant (Layout.create fs.buffer.capacity 1) 1 with
  | none => some (some outOfMemory, fs)
  | some mem =>
      match fs.file.read mem.slots turn.answer with
      | (some err, _, file) => some (some err, { fs with file := file })
      | (none, tmp, file) =>
          (pushLoop fs.buffer tmp).map fun buffer =>
            (none, { fs with file := file, buffer := buffer })

/-- Fill the buffer when it is empty. -/
def refill (fs : Stream) (turn : Turn) : Option (Option IoError × Stream) :=
  if fs.buffer.isEmpty then fs.fillBuffer turn else some (none, fs)

/-- Pop a byte; the byte of the user stays when there is none. -/
def takeByte (fs : Stream) (old : UInt8) : Option (UInt8 × Stream) :=
  fs.buffer.pop.map fun (popped, buffer) =>
    (match popped with
      | .error _ => old
      | .ok elem => elem, { fs with buffer := buffer })

/-- The loop of `read`: the bytes of the user's buffer from `i` on. -/
def readLoop (fs : Stream) (turns : Nat → Turn) (i : Nat) :
    List UInt8 → Option (Option IoError × List UInt8 × Stream)
  | [] => some (none, [], fs)
  | old :: rest =>
      match fs.refill (turns i) with
      | none => none
      | some (some err, fs) => some (some err, old :: rest, fs)
      | some (none, fs) =>
          match fs.takeByte old with
          | none => none
          | some (elem, fs) =>
              (fs.readLoop turns (i + 1) rest).map fun (err, bytes, fs) =>
                (err, elem :: bytes, fs)

/-- `cu_FStream_read` with a buffer of the user that holds `buf` -/
def read (fs : Stream) (buf : List UInt8) (turns : Nat → Turn) :
    Option (Option IoError × List UInt8 × Stream) :=
  if fs.reading = false then
    some (some invalidInput, buf, fs)
  else
    fs.readLoop turns 0 buf

/-- Flush the buffer when it is full. -/
def makeRoom (fs : Stream) (turn : Turn) :
    Option (Option IoError × Stream) :=
  if fs.buffer.isFull then fs.flushBuffer turn else some (none, fs)

/-- The loop of `write`: the bytes from `i` on. -/
def writeLoop (fs : Stream) (turns : Nat → Turn) (i : Nat) :
    List UInt8 → Option (Option IoError × Stream)
  | [] => some (none, fs)
  | elem :: rest =>
      match fs.makeRoom (turns i) with
      | none => none
      | some (some err, fs) => some (some err, fs)
      | some (none, fs) =>
          match fs.buffer.push elem with
          | none => none
          | some (_, buffer) =>
              ({ fs with buffer := buffer } : Stream).writeLoop turns
                (i + 1) rest

/-- `cu_FStream_write` -/
def write (fs : Stream) (data : List UInt8) (turns : Nat → Turn) :
    Option (Option IoError × Stream) :=
  if fs.reading = true then
    some (some invalidInput, fs)
  else
    fs.writeLoop turns 0 data

/-- `cu_FStream_seek_impl` -/
def seek (fs : Stream) (seekTo : SeekTo) (turn : Turn) :
    Option (Option IoError × Stream) :=
  match fs.flush turn with
  | none => none
  | some (some err, fs) => some (some err, fs)
  | some (none, fs) =>
      fs.buffer.clear.map fun buffer =>
        let sought := fs.file.seek seekTo
        (sought.1, { fs with file := sought.2, buffer := buffer })

/-- `cu_FStream_tell_impl` -/
def tell (fs : Stream) : Except IoError Nat := fs.file.tell

/-- `cu_FStream_close_impl` -/
def close (fs : Stream) (turn : Turn) : Option Stream :=
  match fs.flush turn with
  | none => none
  | some (_, fs) =>
      fs.buffer.destroy.map fun buffer =>
        { fs with file := fs.file.close, buffer := buffer }

end Stream

/-- `cu_FStream_open`, when `cu_File_open` yields `fres` -/
def openStream
    (fres : Except IoError Handle) (options : Options) (bufferSize : Nat)
    (grant : Grant UInt8) : Except IoError Stream :=
  match fres with
  | .error err => .error err
  | .ok file =>
      match RingBuf.create (Layout.create 1 1) bufferSize false grant with
      | .error _ => .error outOfMemory
      | .ok buffer => .ok ⟨file, buffer, options.read && !options.write⟩

/-! ## The buffer -/

variable {fs fs' : Stream} {turn : Turn} {turns : Nat → Turn}
  {buffer : RingBuf UInt8} {mem : Storage UInt8}

/-- The bytes in the buffer, the oldest first. -/
def Stream.buffered (fs : Stream) : List UInt8 := fs.buffer.contents

/-- The invariant of an open stream. -/
abbrev Ready (fs : Stream) : Prop := Sound fs.buffer

theorem openStream_ready
    {fres : Except IoError Handle} {options : Options} {bufferSize : Nat}
    {grant : Grant UInt8} (positive : 1 ≤ bufferSize)
    (fits : bufferSize < Core.Size.sizeLimit)
    (opened : openStream fres options bufferSize grant = .ok fs) :
    Ready fs ∧ fs.buffered = [] ∧ fs.buffer.capacity = bufferSize ∧
      fres = .ok fs.file ∧ fs.reading = (options.read && !options.write) := by
  unfold openStream at opened
  cases fres with
  | error err => cases opened
  | ok file =>
      dsimp only at opened
      split at opened
      · cases opened
      · rename_i buffer made
        cases opened
        have bytes : bufferSize * (Layout.create 1 1).elemSize <
            Core.Size.sizeLimit := by
          change bufferSize * 1 < _
          omega
        rcases create_spec positive bytes made with
          ⟨sound, empty, capacity, _, _⟩
        exact ⟨sound, empty, capacity, rfl, rfl⟩

theorem drainLoop_spec
    (sound : Sound buffer) (done rest : List UInt8)
    (filled : buffer.contents.length = rest.length) :
    ∃ buffer', drainLoop buffer (done ++ rest) done.length rest.length =
        some (done ++ buffer.contents, buffer') ∧
      Sound buffer' ∧ buffer'.contents = [] ∧
      buffer'.capacity = buffer.capacity := by
  induction rest generalizing buffer done with
  | nil =>
      have empty := List.length_eq_zero_iff.mp filled
      refine ⟨buffer, ?_, sound, empty, rfl⟩
      rw [empty]
      rfl
  | cons old rest induction =>
      rcases List.length_eq_succ_iff.mp filled with ⟨elem, later, shown, long⟩
      rcases sound.pop_spec shown.symm with
        ⟨popped, pops, sound', left, alike, _⟩
      have remaining : popped.contents.length = rest.length := by
        rw [left, long]
      rcases induction sound' (done ++ [elem]) remaining with
        ⟨drained, drains, final, empty, capacity⟩
      refine ⟨drained, ?_, final, empty, capacity.trans alike.capacity⟩
      have replaced : (done ++ old :: rest).set done.length elem =
          done ++ [elem] ++ rest := by
        simp
      rw [List.length_cons]
      unfold drainLoop
      rw [pops]
      dsimp only
      rw [if_pos (by simp), replaced]
      rw [List.length_append, List.length_singleton, left] at drains
      rw [drains, ← shown, List.append_assoc, List.singleton_append]

theorem pushLoop_spec
    (sound : Sound buffer) (bytes : List UInt8)
    (room : buffer.length + bytes.length ≤ buffer.capacity) :
    ∃ buffer', pushLoop buffer bytes = some buffer' ∧ Sound buffer' ∧
      buffer'.contents = buffer.contents ++ bytes ∧
      buffer'.capacity = buffer.capacity := by
  induction bytes generalizing buffer with
  | nil => exact ⟨buffer, rfl, sound, (List.append_nil _).symm, rfl⟩
  | cons elem rest induction =>
      rw [List.length_cons] at room
      rcases sound.push_spec (by omega) elem with
        ⟨pushed, pushes, sound', contents, alike, length⟩
      rcases induction sound' (by rw [length, alike.capacity]; omega) with
        ⟨full, loops, final, shown, capacity⟩
      refine ⟨full, ?_, final, ?_, capacity.trans alike.capacity⟩
      · unfold pushLoop
        rw [pushes]
        exact loops
      · rw [shown, contents, List.append_assoc, List.singleton_append]

theorem allocObject_refused
    {grant : Grant UInt8} {layout : Layout} {elemSize : Nat}
    (refused : grant = none) : allocObject grant layout elemSize = none := by
  subst refused
  unfold allocObject alloc
  split_ifs <;> rfl

theorem allocObject_granted
    {grant : Grant UInt8} {len : Nat} (granted : grant ≠ none)
    (positive : 0 < len) (limit : len ≤ objectLimit) :
    ∃ mem, allocObject grant (Layout.create len 1) 1 = some mem ∧
      mem.slots.length = len := by
  rcases Option.ne_none_iff_exists'.mp granted with ⟨⟨ptr, fill⟩, rfl⟩
  have request : Layout.create len 1 = ⟨len, 1⟩ :=
    Layout.create_of_pos positive.ne' Nat.one_ne_zero
  refine ⟨⟨⟨ptr, len⟩, (List.range (len / 1)).map fill⟩, ?_, ?_⟩
  · unfold allocObject alloc
    rw [request]
    dsimp only
    rw [if_neg (by omega), if_neg positive.ne']
  · rw [List.length_map, List.length_range, Nat.div_one]

/-! ## Flushing and filling -/

theorem Ready.counted (ready : Ready fs) :
    fs.buffered.length = fs.buffer.length :=
  ready.contents_length

theorem Ready.isEmpty_iff (ready : Ready fs) :
    fs.buffer.length = 0 ↔ fs.buffered = [] := by
  rw [← ready.counted, List.length_eq_zero_iff]

theorem Ready.vacant_iff (ready : Ready fs) :
    fs.buffer.isEmpty = true ↔ fs.buffered = [] := by
  rw [Collection.RingBuffer.isEmpty_iff, ready.isEmpty_iff]

theorem Ready.full_iff (ready : Ready fs) :
    fs.buffer.isFull = true ↔ fs.buffered.length = fs.buffer.capacity := by
  rw [isFull_iff ready, ready.counted]

/-- What flushing and filling do not change. -/
structure Steady (fs fs' : Stream) : Prop where
  ready : Ready fs'
  capacity : fs'.buffer.capacity = fs.buffer.capacity
  reading : fs'.reading = fs.reading

theorem Steady.refl (ready : Ready fs) : Steady fs fs := ⟨ready, rfl, rfl⟩

theorem Steady.trans {fs'' : Stream}
    (first : Steady fs fs') (second : Steady fs' fs'') : Steady fs fs'' :=
  ⟨second.ready, second.capacity.trans first.capacity,
    second.reading.trans first.reading⟩

theorem flushBuffer_empty (ready : Ready fs) (empty : fs.buffered = []) :
    fs.flushBuffer turn = some (none, fs) := by
  unfold Stream.flushBuffer
  dsimp only
  rw [if_pos (ready.isEmpty_iff.mpr empty)]

theorem flushBuffer_refused
    (ready : Ready fs) (filled : fs.buffered ≠ [])
    (refused : turn.grant = none) :
    fs.flushBuffer turn = some (some outOfMemory, fs) := by
  unfold Stream.flushBuffer
  dsimp only
  rw [if_neg (mt ready.isEmpty_iff.mp filled), allocObject_refused refused]

/-- The buffer is drained before the file is written. -/
theorem flushBuffer_granted
    (ready : Ready fs) (filled : fs.buffered ≠ [])
    (granted : turn.grant ≠ none) :
    ∃ fs', fs.flushBuffer turn =
        some ((fs.file.write fs.buffered turn.answer).1, fs') ∧
      fs'.file = (fs.file.write fs.buffered turn.answer).2 ∧
      fs'.buffered = [] ∧ Steady fs fs' := by
  have some' : fs.buffer.length ≠ 0 := mt ready.isEmpty_iff.mp filled
  have within := ready.within
  have limit := ready.limit
  rcases allocObject_granted granted (Nat.pos_of_ne_zero some')
    (by omega) with ⟨mem, allocates, long⟩
  rcases drainLoop_spec ready [] mem.slots
    (by rw [ready.contents_length, long]) with
    ⟨drained, drains, sound, empty, capacity⟩
  rw [List.nil_append, List.nil_append, List.length_nil, long] at drains
  refine ⟨⟨(fs.file.write fs.buffered turn.answer).2, drained, fs.reading⟩,
    ?_, rfl, empty, sound, capacity, rfl⟩
  unfold Stream.flushBuffer
  dsimp only
  rw [if_neg some', allocates]
  dsimp only
  rw [drains]
  rfl

/-- The block of a fill is not granted, or the file cannot be read. -/
def FillFails (fs : Stream) (turn : Turn) : Prop :=
  turn.grant = none ∨ fs.file.valid = false ∨
    ∃ errno, turn.answer fs.buffer.capacity = .error errno

theorem fillBuffer_fails (ready : Ready fs) (fails : FillFails fs turn) :
    ∃ err, fs.fillBuffer turn = some (some err, fs) := by
  unfold Stream.fillBuffer
  by_cases refused : turn.grant = none
  · rw [allocObject_refused refused]
    exact ⟨outOfMemory, rfl⟩
  · rcases allocObject_granted refused ready.positive ready.limit with
      ⟨mem, allocates, long⟩
    rw [allocates]
    dsimp only
    unfold Handle.read
    rcases fails with absent | invalid | ⟨errno, answers⟩
    · exact absurd absent refused
    · rw [if_pos invalid]
      exact ⟨invalidInput, rfl⟩
    · by_cases invalid : fs.file.valid = false
      · rw [if_pos invalid]
        exact ⟨invalidInput, rfl⟩
      · rw [if_neg invalid, long, answers]
        exact ⟨fromErrno errno, rfl⟩

/--
A fill pushes the whole block: behind the bytes that were read comes what the
block held before.
-/
theorem fillBuffer_fills
    (ready : Ready fs) (empty : fs.buffered = [])
    (granted : turn.grant ≠ none) (valid : fs.file.valid = true)
    {count : Nat} (answers : turn.answer fs.buffer.capacity = .ok count) :
    ∃ junk fs',
      fs.fillBuffer turn = some (none, fs') ∧
      fs'.buffered =
        (fs.file.file.read (min count fs.buffer.capacity)).1 ++ junk ∧
      fs'.buffered.length = fs.buffer.capacity ∧
      fs'.file = { fs.file with
        file := (fs.file.file.read (min count fs.buffer.capacity)).2 } ∧
      Steady fs fs' := by
  rcases allocObject_granted granted ready.positive ready.limit with
    ⟨mem, allocates, long⟩
  generalize got : fs.file.file.read (min count fs.buffer.capacity) = result
  have short : result.1.length ≤ fs.buffer.capacity := by
    rw [← got]
    unfold Description.read
    rw [List.length_take]
    omega
  generalize behind : mem.slots.drop result.1.length = junk
  have whole : (result.1 ++ junk).length = fs.buffer.capacity := by
    rw [← behind, List.length_append, List.length_drop, long]
    omega
  have unfilled : fs.buffer.length = 0 := ready.isEmpty_iff.mpr empty
  rcases pushLoop_spec ready (result.1 ++ junk)
    (by rw [whole, unfilled, Nat.zero_add]) with
    ⟨buffer, pushes, sound, contents, capacity⟩
  have shown : buffer.contents = result.1 ++ junk := by
    rw [contents]
    change fs.buffered ++ _ = _
    rw [empty, List.nil_append]
  refine ⟨junk,
    ⟨{ fs.file with file := result.2 }, buffer, fs.reading⟩, ?_, shown, ?_,
    rfl, sound, capacity, rfl⟩
  · have reads : fs.file.read mem.slots turn.answer =
        (none, result.1 ++ junk, { fs.file with file := result.2 }) := by
      unfold Handle.read
      rw [if_neg (by rw [valid]; exact Bool.noConfusion), long, answers]
      dsimp only
      rw [got, behind]
    unfold Stream.fillBuffer
    rw [allocates]
    dsimp only
    rw [reads]
    dsimp only
    rw [pushes]
    rfl
  · rw [← whole, ← shown]
    rfl

/-! ## One byte -/

variable {elem : UInt8} {later : List UInt8}

/-- Pop a byte of which the buffer has one. -/
theorem takeByte_spec (ready : Ready fs) (filled : fs.buffered = elem :: later)
    (old : UInt8) :
    ∃ fs', fs.takeByte old = some (elem, fs') ∧ fs'.buffered = later ∧
      fs'.file = fs.file ∧ Steady fs fs' := by
  rcases ready.pop_spec filled with ⟨buffer, pops, sound, left, alike, _⟩
  refine ⟨⟨fs.file, buffer, fs.reading⟩, ?_, left, rfl, sound,
    alike.capacity, rfl⟩
  unfold Stream.takeByte
  rw [pops]
  rfl

theorem readLoop_buffered
    (ready : Ready fs) (filled : fs.buffered = elem :: later)
    (turns : Nat → Turn) (old : UInt8) (rest : List UInt8) (i : Nat) :
    ∃ fs', fs'.buffered = later ∧ fs'.file = fs.file ∧ Steady fs fs' ∧
      fs.readLoop turns i (old :: rest) =
        (fs'.readLoop turns (i + 1) rest).map fun (err, bytes, fs) =>
          (err, elem :: bytes, fs) := by
  rcases takeByte_spec ready filled old with
    ⟨fs', takes, left, file, steady⟩
  have occupied : ¬ fs.buffer.isEmpty = true := by
    rw [ready.vacant_iff, filled]
    exact List.cons_ne_nil _ _
  refine ⟨fs', left, file, steady, ?_⟩
  rw [Stream.readLoop]
  unfold Stream.refill
  rw [if_neg occupied]
  dsimp only
  rw [takes]

theorem readLoop_fails
    {i : Nat} (ready : Ready fs) (empty : fs.buffered = [])
    (fails : FillFails fs (turns i)) (old : UInt8) (rest : List UInt8) :
    ∃ err, fs.readLoop turns i (old :: rest) =
      some (some err, old :: rest, fs) := by
  rcases fillBuffer_fails ready fails with ⟨err, fills⟩
  refine ⟨err, ?_⟩
  rw [Stream.readLoop]
  unfold Stream.refill
  rw [if_pos (ready.vacant_iff.mpr empty), fills]

/-- A byte before which the buffer is filled. -/
theorem readLoop_fills
    {i : Nat} (ready : Ready fs) (empty : fs.buffered = [])
    (granted : (turns i).grant ≠ none) (valid : fs.file.valid = true)
    {count : Nat}
    (answers : (turns i).answer fs.buffer.capacity = .ok count)
    (old : UInt8) (rest : List UInt8) :
    ∃ elem later junk fs',
      elem :: later =
        (fs.file.file.read (min count fs.buffer.capacity)).1 ++ junk ∧
      (elem :: later).length = fs.buffer.capacity ∧
      fs'.buffered = later ∧
      fs'.file = { fs.file with
        file := (fs.file.file.read (min count fs.buffer.capacity)).2 } ∧
      Steady fs fs' ∧
      fs.readLoop turns i (old :: rest) =
        (fs'.readLoop turns (i + 1) rest).map fun (err, bytes, fs) =>
          (err, elem :: bytes, fs) := by
  rcases fillBuffer_fills ready empty granted valid answers with
    ⟨junk, filled, fills, shown, long, file, steady⟩
  rcases List.exists_cons_of_length_pos
    (show 0 < filled.buffered.length by rw [long]; exact ready.positive) with
    ⟨elem, later, cells⟩
  rcases takeByte_spec steady.ready cells old with
    ⟨fs', takes, left, same, steady'⟩
  refine ⟨elem, later, junk, fs', by rw [← cells, shown],
    by rw [← cells, long], left, by rw [same, file], steady.trans steady', ?_⟩
  rw [Stream.readLoop]
  unfold Stream.refill
  rw [if_pos (ready.vacant_iff.mpr empty), fills]
  dsimp only
  rw [takes]

/-- Push a byte for which the buffer has room. -/
theorem push_room
    (ready : Ready fs) (room : fs.buffered.length < fs.buffer.capacity)
    (elem : UInt8) :
    ∃ buffer, fs.buffer.push elem = some (none, buffer) ∧
      ({ fs with buffer := buffer } : Stream).buffered =
        fs.buffered ++ [elem] ∧
      Steady fs { fs with buffer := buffer } := by
  rw [ready.counted] at room
  rcases ready.push_spec room elem with
    ⟨buffer, pushes, sound, contents, alike, _⟩
  exact ⟨buffer, pushes, contents, sound, alike.capacity, rfl⟩

theorem writeLoop_room
    (ready : Ready fs) (room : fs.buffered.length < fs.buffer.capacity)
    (turns : Nat → Turn) (elem : UInt8) (i : Nat) :
    ∃ fs', fs'.buffered = fs.buffered ++ [elem] ∧ fs'.file = fs.file ∧
      Steady fs fs' ∧ ∀ rest,
      fs.writeLoop turns i (elem :: rest) =
        fs'.writeLoop turns (i + 1) rest := by
  rcases push_room ready room elem with ⟨buffer, pushes, shown, steady⟩
  have free : ¬ fs.buffer.isFull = true := by
    rw [ready.full_iff]
    exact room.ne
  refine ⟨{ fs with buffer := buffer }, shown, rfl, steady, ?_⟩
  intro rest
  rw [Stream.writeLoop]
  unfold Stream.makeRoom
  rw [if_neg free]
  dsimp only
  rw [pushes]

theorem writeLoop_flush_fails
    {i : Nat} (ready : Ready fs)
    (full : fs.buffered.length = fs.buffer.capacity) {err : IoError}
    (fails : fs.flushBuffer (turns i) = some (some err, fs'))
    (elem : UInt8) (rest : List UInt8) :
    fs.writeLoop turns i (elem :: rest) = some (some err, fs') := by
  rw [Stream.writeLoop]
  unfold Stream.makeRoom
  rw [if_pos (ready.full_iff.mpr full), fails]

/-- A byte before which the buffer is flushed. -/
theorem writeLoop_flushes
    {i : Nat} (ready : Ready fs)
    (full : fs.buffered.length = fs.buffer.capacity)
    (flushes : fs.flushBuffer (turns i) = some (none, fs'))
    (empty : fs'.buffered = []) (steady : Steady fs fs')
    (elem : UInt8) (rest : List UInt8) :
    ∃ fs'', fs''.buffered = [elem] ∧ fs''.file = fs'.file ∧
      Steady fs fs'' ∧
      fs.writeLoop turns i (elem :: rest) =
        fs''.writeLoop turns (i + 1) rest := by
  have room : fs'.buffered.length < fs'.buffer.capacity := by
    rw [empty]
    exact steady.ready.positive
  rcases push_room steady.ready room elem with
    ⟨buffer, pushes, shown, steady'⟩
  refine ⟨{ fs' with buffer := buffer }, by rw [shown, empty]; rfl, rfl,
    steady.trans steady', ?_⟩
  rw [Stream.writeLoop]
  unfold Stream.makeRoom
  rw [if_pos (ready.full_iff.mpr full), flushes]
  dsimp only
  rw [pushes]

/-! ## Calls -/

/-- A call of the stream interface, as long as the stream is open. -/
inductive Call where
  | read (buf : List UInt8)
  | write (data : List UInt8)
  | flush
  | seek (seekTo : SeekTo)

/-- Make a call: its error, and the bytes of the user's buffer. -/
def Stream.perform (fs : Stream) (call : Call) (turns : Nat → Turn) :
    Option (Option IoError × List UInt8 × Stream) :=
  match call with
  | .read buf => fs.read buf turns
  | .write data =>
      (fs.write data turns).map fun (err, fs) => (err, [], fs)
  | .flush => (fs.flush (turns 0)).map fun (err, fs) => (err, [], fs)
  | .seek seekTo =>
      (fs.seek seekTo (turns 0)).map fun (err, fs) => (err, [], fs)

end Libcute.Io.FStream
