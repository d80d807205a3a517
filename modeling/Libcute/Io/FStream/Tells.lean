import Libcute.Io.FStream.Failures
import Libcute.Io.FStream.Reads

/-!
# The position of a stream

`cu_FStream_tell` returns the position of the file.  A reader is behind it by
the bytes of the buffer that were read, and a writer is ahead of it by the
bytes that are held back.  `fstream_tells` says when the answer is right, and
when a seek from the current position starts from the right place.

For a reader that depends on `missing`, the number of bytes by which the
reads of the file fell short of whole blocks since the last seek: so many
bytes of the buffer do not come from the file.
-/

namespace Libcute.Io.FStream

open Libcute.Collection.Blocks
open Libcute.Collection.RingBuffer
open Libcute.Core.Size
open Libcute.Io.Error
open Libcute.Io.File
open Libcute.Library.ByteFile

variable {fs fs' opened : Stream} {turn : Turn} {turns : Nat → Turn}
  {err : Option IoError} {buf bytes data rest : List UInt8}
  {seekTo : SeekTo}

/-! ## Reading -/

/-- How many bytes of a block are read at a position of a file. -/
def blockRead (turn : Turn) (capacity size position : Nat) : Nat :=
  match turn.answer capacity with
  | .error _ => 0
  | .ok count => min (min count capacity) (size - position)

/--
By how many bytes the reads of a call fall short of whole blocks: a call that
takes so many bytes from byte `i` on, with `buffered` bytes in the buffer.
-/
def shortfall
    (turns : Nat → Turn) (capacity size : Nat) (i buffered position : Nat) :
    Nat → Nat
  | 0 => 0
  | count + 1 =>
      if buffered = 0 then
        let got := blockRead (turns i) capacity size position
        capacity - got +
          shortfall turns capacity size (i + 1) (capacity - 1)
            (position + got) count
      else
        shortfall turns capacity size (i + 1) (buffered - 1) position count

/-- The shortfall of a read of a stream. -/
def Stream.shortfall (fs : Stream) (turns : Nat → Turn) (count : Nat) : Nat :=
  FStream.shortfall turns fs.buffer.capacity fs.content.length 0
    fs.buffered.length fs.position count

theorem read_position (file : Description) (count : Nat) :
    (file.read count).2.position =
      file.position + min count (file.content.length - file.position) := by
  unfold Description.read
  dsimp only
  rw [List.length_take, List.length_drop]

theorem fillFails_or (fs : Stream) (turn : Turn) :
    FillFails fs turn ∨
      turn.grant ≠ none ∧ fs.file.valid = true ∧
        ∃ count, turn.answer fs.buffer.capacity = .ok count := by
  by_cases refused : turn.grant = none
  · exact .inl (.inl refused)
  by_cases invalid : fs.file.valid = false
  · exact .inl (.inr (.inl invalid))
  cases answers : turn.answer fs.buffer.capacity with
  | error errno => exact .inl (.inr (.inr ⟨errno, answers⟩))
  | ok count =>
      exact .inr ⟨refused, Bool.eq_true_of_not_eq_false invalid, count, rfl⟩

/-- The bytes of a stream that reads are accounted for. -/
theorem readLoop_accounts
    (ready : Ready fs) (rest : List UInt8) (i : Nat)
    (reads : fs.readLoop turns i rest = some (none, bytes, fs')) :
    Steady fs fs' ∧ fs'.file.valid = fs.file.valid ∧
      fs'.position +
          FStream.shortfall turns fs.buffer.capacity fs.content.length i
            fs.buffered.length fs.position rest.length +
          fs.buffered.length =
        fs.position + rest.length + fs'.buffered.length := by
  induction rest generalizing fs i bytes with
  | nil =>
      cases reads
      refine ⟨.refl ready, rfl, ?_⟩
      rw [List.length_nil]
      unfold FStream.shortfall
      omega
  | cons old rest induction =>
      rw [List.length_cons]
      unfold FStream.shortfall
      rcases buffered : fs.buffered with _ | ⟨elem, later⟩
      · rcases fillFails_or fs (turns i) with
          fails | ⟨granted, valid, count, answers⟩
        · rcases readLoop_fails ready buffered fails old rest with
            ⟨err, refuses⟩
          rw [refuses] at reads
          cases reads
        rcases readLoop_fills ready buffered granted valid answers old rest
          with ⟨elem, later, junk, next, _, long, left, file, steady, loops⟩
        rw [loops] at reads
        rcases Option.map_eq_some_iff.mp reads with
          ⟨⟨err, others, final⟩, reads', same⟩
        cases same
        rcases induction steady.ready (i + 1) reads' with
          ⟨steady', valid', sum⟩
        refine ⟨steady.trans steady', by rw [valid', file], ?_⟩
        have got : blockRead (turns i) fs.buffer.capacity
            fs.content.length fs.position =
              min (min count fs.buffer.capacity)
                (fs.content.length - fs.position) := by
          unfold blockRead
          rw [answers]
        have onward : next.position = fs.position +
            min (min count fs.buffer.capacity)
              (fs.content.length - fs.position) := by
          unfold Stream.position
          rw [file]
          exact read_position _ _
        have content : next.content = fs.content := by
          unfold Stream.content
          rw [file]
          rfl
        have short : later.length = fs.buffer.capacity - 1 := by
          rw [← long, List.length_cons, Nat.add_sub_cancel]
        have positive := ready.positive
        rw [List.length_nil, if_pos rfl, got]
        rw [left, steady.capacity, content, onward, short] at sum
        dsimp only
        omega
      · rcases readLoop_buffered ready buffered turns old rest i with
          ⟨next, left, file, steady, loops⟩
        rw [loops] at reads
        rcases Option.map_eq_some_iff.mp reads with
          ⟨⟨err, others, final⟩, reads', same⟩
        cases same
        rcases induction steady.ready (i + 1) reads' with
          ⟨steady', valid, sum⟩
        refine ⟨steady.trans steady', by rw [valid, file], ?_⟩
        rw [if_neg (by simp), List.length_cons, Nat.add_sub_cancel]
        unfold Stream.position Stream.content at sum ⊢
        rw [left, file, steady.capacity] at sum
        omega

/-! ## Writing -/

theorem Handle.write_succeeds
    {handle handle' : Handle} {answer : Answer}
    (whole : ∀ len count, answer len = .ok count → len ≤ count)
    (writes : handle.write data answer = (none, handle')) :
    handle' = handle.put data ∧ handle.valid = true := by
  unfold Handle.write at writes
  split_ifs at writes with invalid
  · cases writes
  · cases answers : answer data.length with
    | error errno =>
        rw [answers] at writes
        cases writes
    | ok count =>
        rw [answers] at writes
        cases writes
        refine ⟨?_, Bool.eq_true_of_not_eq_false invalid⟩
        unfold Handle.put Description.put Description.write
        dsimp only
        rw [List.take_of_length_le (whole _ _ answers), List.take_length]

/-- A flush that succeeds writes the bytes that were held back. -/
theorem flushBuffer_succeeds
    (ready : Ready fs) (whole : Whole turn)
    (flushes : fs.flushBuffer turn = some (none, fs')) :
    fs'.file = fs.direct ∧ fs'.buffered = [] ∧ Steady fs fs' := by
  by_cases empty : fs.buffered = []
  · rw [flushBuffer_empty ready empty] at flushes
    cases flushes
    exact ⟨(direct_of_drained empty).symm, empty, .refl ready⟩
  by_cases refused : turn.grant = none
  · rw [flushBuffer_refused ready empty refused] at flushes
    cases flushes
  rcases flushBuffer_granted ready empty refused with
    ⟨final, shown, file, drained, steady⟩
  rw [shown] at flushes
  rcases wrote : fs.file.write fs.buffered turn.answer with ⟨err, handle⟩
  rw [wrote] at flushes file
  cases flushes
  refine ⟨?_, drained, steady⟩
  rw [file, (Handle.write_succeeds whole wrote).1]
  rfl

/--
The position of a stream that writes: the position of the file and the bytes
that are held back.  A file that is opened for appending is at its end while
bytes are held back.
-/
structure Holds (fs : Stream) (place : Nat) : Prop where
  ready : Ready fs
  valid : fs.file.valid = true
  sum : fs.position + fs.buffered.length = place
  ends : fs.file.file.append = true → fs.buffered ≠ [] →
    fs.position = fs.content.length

theorem Holds.direct_position
    {place : Nat} (holds : Holds fs place) :
    fs.direct.file.position = place ∧
      (fs.file.file.append = true → fs.buffered ≠ [] →
        fs.direct.file.content.length = place) := by
  have sum := holds.sum
  have ends := holds.ends
  unfold Stream.position at sum ends
  unfold Stream.content at ends
  by_cases empty : fs.buffered = []
  · rw [direct_of_drained empty]
    rw [empty] at sum
    exact ⟨sum, fun _ filled => absurd empty filled⟩
  · have direct : fs.direct.file = fs.file.file.put fs.buffered := rfl
    rw [direct, Description.put_of_ne empty]
    dsimp only
    by_cases append : fs.file.file.append = true
    · have last := ends append empty
      rw [if_pos append, length_overwrite empty]
      exact ⟨by omega, fun _ _ => by omega⟩
    · rw [if_neg append]
      exact ⟨sum, fun appends _ => absurd appends append⟩

/-- A file that is opened for appending is at its end. -/
def AtEnd (fs : Stream) : Prop :=
  fs.file.file.append = true → fs.position = fs.content.length

/-- A byte that is pushed moves the stream by one. -/
theorem Holds.pushes
    {place : Nat} {elem : UInt8} (holds : Holds fs place) (last : AtEnd fs)
    (shown : fs'.buffered = fs.buffered ++ [elem])
    (file : fs'.file = fs.file) (steady : Steady fs fs') :
    Holds fs' (place + 1) ∧ AtEnd fs' := by
  have last' : AtEnd fs' := by
    unfold AtEnd Stream.position Stream.content
    rw [file]
    exact last
  refine ⟨⟨steady.ready, by rw [file]; exact holds.valid, ?_,
    fun appends _ => last' appends⟩, last'⟩
  unfold Stream.position
  rw [shown, file, List.length_append, List.length_singleton, ← holds.sum]
  rfl

theorem Holds.flushes
    {place : Nat} (holds : Holds fs place) (whole : Whole turn)
    (flushes : fs.flushBuffer turn = some (none, fs')) :
    Holds fs' place ∧ fs'.buffered = [] ∧ fs'.file = fs.direct ∧
      Steady fs fs' := by
  rcases flushBuffer_succeeds holds.ready whole flushes with
    ⟨file, empty, steady⟩
  refine ⟨⟨steady.ready, by rw [file]; exact holds.valid, ?_,
    fun _ filled => absurd empty filled⟩, empty, file, steady⟩
  unfold Stream.position
  rw [empty, file]
  exact holds.direct_position.1

/-- A write that succeeds moves the stream by its bytes. -/
theorem Holds.writeLoop
    {place : Nat} (holds : Holds fs place) (rest : List UInt8) (i : Nat)
    (last : rest ≠ [] → AtEnd fs) (whole : ∀ i, Whole (turns i))
    (writes : fs.writeLoop turns i rest = some (none, fs')) :
    Holds fs' (place + rest.length) ∧ Steady fs fs' := by
  induction rest generalizing fs place i with
  | nil =>
      cases writes
      exact ⟨holds, .refl holds.ready⟩
  | cons elem rest induction =>
      have ready := holds.ready
      have atEnd := last (List.cons_ne_nil _ _)
      have within := ready.within
      rw [← ready.counted] at within
      have moved : place + (elem :: rest).length =
          place + 1 + rest.length := by
        rw [List.length_cons]
        omega
      rw [moved]
      rcases Nat.lt_or_eq_of_le within with room | full
      · rcases writeLoop_room ready room turns elem i with
          ⟨pushed, shown, file, steady, loops⟩
        rw [loops] at writes
        rcases holds.pushes atEnd shown file steady with ⟨holds', atEnd'⟩
        rcases induction holds' (i + 1) (fun _ => atEnd') writes with
          ⟨holds'', steady'⟩
        exact ⟨holds'', steady.trans steady'⟩
      · rcases flushes : fs.flushBuffer (turns i) with
          _ | ⟨error, flushed⟩
        · rw [Stream.writeLoop] at writes
          unfold Stream.makeRoom at writes
          rw [if_pos (ready.full_iff.mpr full), flushes] at writes
          cases writes
        cases error with
        | some error =>
            rw [writeLoop_flush_fails ready full flushes] at writes
            cases writes
        | none =>
            rcases holds.flushes (whole i) flushes with
              ⟨holds', empty, stored, steady⟩
            rcases writeLoop_flushes ready full flushes empty steady elem
              rest with ⟨pushed, shown, file, steady', loops⟩
            rw [loops] at writes
            have filled : fs.buffered ≠ [] := by
              intro nothing
              have positive := ready.positive
              rw [nothing, List.length_nil] at full
              omega
            have atEnd' : AtEnd flushed := by
              intro appends
              have same : flushed.file.file = fs.direct.file := by
                rw [stored]
              unfold Stream.position Stream.content
              rw [same] at appends ⊢
              have direct := holds.direct_position
              have kept : fs.file.file.append = true := by
                rw [← appends]
                unfold Stream.direct Handle.put
                dsimp only
                rw [Description.put_of_ne filled]
              rw [direct.1, direct.2 kept filled]
            have pushes : pushed.buffered = flushed.buffered ++ [elem] := by
              rw [shown, empty]
              rfl
            rcases holds'.pushes atEnd' pushes file
              ⟨steady'.ready, by rw [steady'.capacity, steady.capacity],
                by rw [steady'.reading, steady.reading]⟩ with
              ⟨holds'', atEnd''⟩
            rcases induction holds'' (i + 1) (fun _ => atEnd'') writes with
              ⟨final, steady''⟩
            exact ⟨final, steady'.trans steady''⟩

/-! ## Seeking -/

/--
Where a seek goes to, from the start of the file, when the stream is at
`place`.
-/
def target (seekTo : SeekTo) (place size : Nat) : Int :=
  (match seekTo.whence with
    | .start => 0
    | .current => (place : Int)
    | .finish => (size : Int)
    | .other => 0) + asLong (seekTo.offset.getD 0)

/-- A seek of a file that succeeds starts from the position of the file. -/
theorem lseek_succeeds {file file' : Description} {offset : Int} {base : Nat}
    (moves : file.lseek offset base = .ok file') :
    (file'.position : Int) = base + offset ∧
      file'.content = file.content := by
  unfold Description.lseek at moves
  split_ifs at moves
  cases moves
  exact ⟨Int.toNat_of_nonneg (by omega), rfl⟩

theorem Handle.seek_succeeds
    {handle handle' : Handle} (seeks : handle.seek seekTo = (none, handle')) :
    (handle'.file.position : Int) =
        target seekTo handle.file.position handle'.file.content.length ∧
      handle'.valid = handle.valid := by
  unfold Handle.seek at seeks
  dsimp only at seeks
  split_ifs at seeks
  · cases seeks
  · split at seeks
    · cases seeks
    · rename_i base sought
      split at seeks
      · cases seeks
      · rename_i file moves
        rcases lseek_succeeds moves with ⟨position, content⟩
        cases seeks
        refine ⟨?_, rfl⟩
        dsimp only
        rw [position, content]
        unfold target
        cases whence : seekTo.whence <;> rw [whence] at sought <;>
          cases sought <;> rfl

/--
A seek of a stream that succeeds: the stream is flushed if it writes, and
then the file is sought.
-/
theorem seek_succeeds (seeks : fs.seek seekTo turn = some (none, fs')) :
    ∃ flushed, fs.flush turn = some (none, flushed) ∧
      (Ready flushed → (fs'.position : Int) =
          target seekTo flushed.position fs'.content.length ∧
        fs'.file.valid = flushed.file.valid ∧ fs'.buffered = [] ∧
        Steady flushed fs') := by
  unfold Stream.seek at seeks
  rcases flushes : fs.flush turn with _ | ⟨error, flushed⟩
  · rw [flushes] at seeks
    cases seeks
  rw [flushes] at seeks
  cases error with
  | some error => cases seeks
  | none =>
      refine ⟨flushed, rfl, fun ready => ?_⟩
      rcases ready.clear_spec with ⟨buffer, clears, sound, empty, alike, _⟩
      dsimp only at seeks
      rw [clears] at seeks
      rcases sought : flushed.file.seek seekTo with ⟨error, handle⟩
      rw [sought] at seeks
      cases seeks
      rcases Handle.seek_succeeds sought with ⟨position, valid⟩
      exact ⟨position, valid, empty, sound, alike.capacity, rfl⟩

/-! ## Runs -/

/--
The runs of an opened stream whose calls all succeed, with the position that
the stream should be at: the last place that was sought or 0, and the bytes
since.  What is missing of the blocks that were read is counted since the
last seek.

A writer that appends writes at the end of the file, and `write` accepts all
bytes.  A reader seeks from the current position only when its buffer holds
no byte of the file.
-/
inductive Positions (opened : Stream) : Stream → Nat → Nat → Prop where
  | opened : Positions opened opened 0 0
  | read {fs fs' : Stream} {place missing : Nat} {buf bytes : List UInt8}
      {turns : Nat → Turn} (earlier : Positions opened fs place missing)
      (reads : fs.read buf turns = some (none, bytes, fs')) :
      Positions opened fs' (place + buf.length)
        (missing + fs.shortfall turns buf.length)
  | write {fs fs' : Stream} {place missing : Nat} {data : List UInt8}
      {turns : Nat → Turn} (earlier : Positions opened fs place missing)
      (last : data ≠ [] → AtEnd fs) (whole : ∀ i, Whole (turns i))
      (writes : fs.write data turns = some (none, fs')) :
      Positions opened fs' (place + data.length) missing
  | flush {fs fs' : Stream} {place missing : Nat} {turn : Turn}
      (earlier : Positions opened fs place missing)
      (whole : fs.reading = false → Whole turn)
      (flushes : fs.flush turn = some (none, fs')) :
      Positions opened fs' place missing
  | seek {fs fs' : Stream} {place missing : Nat} {seekTo : SeekTo}
      {turn : Turn} (earlier : Positions opened fs place missing)
      (whole : fs.reading = false → Whole turn)
      (settled : seekTo.whence = .current → fs.reading = true →
        fs.buffered.length = missing)
      (seeks : fs.seek seekTo turn = some (none, fs')) :
      Positions opened fs' (target seekTo place fs'.content.length).toNat 0

/-- What holds of a stream that should be at `place`. -/
structure Placed (fs : Stream) (place missing : Nat) : Prop where
  ready : Ready fs
  valid : fs.file.valid = true
  reader : fs.reading = true →
    fs.position + missing = place + fs.buffered.length
  writer : fs.reading = false → Holds fs place ∧ missing = 0

variable {place missing : Nat}

theorem Placed.read
    (placed : Placed fs place missing)
    (reads : fs.read buf turns = some (none, bytes, fs')) :
    Placed fs' (place + buf.length)
      (missing + fs.shortfall turns buf.length) := by
  unfold Stream.read at reads
  split_ifs at reads with writes
  · cases reads
  · have reading := Bool.eq_true_of_not_eq_false writes
    rcases readLoop_accounts placed.ready buf 0 reads with
      ⟨steady, valid, sum⟩
    have earlier := placed.reader reading
    have reading' : fs'.reading = true := steady.reading.trans reading
    refine ⟨steady.ready, valid.trans placed.valid, fun _ => ?_,
      fun writes => ?_⟩
    · unfold Stream.shortfall
      omega
    · rw [reading'] at writes
      cases writes

theorem Placed.write
    (placed : Placed fs place missing) (last : data ≠ [] → AtEnd fs)
    (whole : ∀ i, Whole (turns i))
    (writes : fs.write data turns = some (none, fs')) :
    Placed fs' (place + data.length) missing := by
  unfold Stream.write at writes
  split_ifs at writes with reading
  · cases writes
  · have writing := Bool.eq_false_of_not_eq_true reading
    rcases placed.writer writing with ⟨holds, none'⟩
    rcases holds.writeLoop data 0 last whole writes with ⟨holds', steady⟩
    have writing' : fs'.reading = false := steady.reading.trans writing
    refine ⟨steady.ready, holds'.valid, fun reading => ?_,
      fun _ => ⟨holds', none'⟩⟩
    rw [writing'] at reading
    cases reading

/-- A flush does not move the stream; a writer holds back nothing then. -/
theorem Placed.flush
    (placed : Placed fs place missing)
    (whole : fs.reading = false → Whole turn)
    (flushes : fs.flush turn = some (none, fs')) :
    Placed fs' place missing ∧ fs'.reading = fs.reading ∧
      (fs.reading = true → fs' = fs) ∧
      (fs.reading = false → fs'.buffered = []) := by
  unfold Stream.flush at flushes
  split_ifs at flushes with writing
  · rcases placed.writer writing with ⟨holds, none'⟩
    rcases holds.flushes (whole writing) flushes with
      ⟨holds', empty, _, steady⟩
    have writing' : fs'.reading = false := steady.reading.trans writing
    refine ⟨⟨steady.ready, holds'.valid, fun reading => ?_,
      fun _ => ⟨holds', none'⟩⟩, steady.reading, fun reading => ?_,
      fun _ => empty⟩
    · rw [writing'] at reading
      cases reading
    · rw [writing] at reading
      cases reading
  · cases flushes
    exact ⟨placed, rfl, fun _ => rfl, fun writes => absurd writes writing⟩

/-- A seek starts from where the flushed file is. -/
theorem Placed.seek
    (placed : Placed fs place missing)
    (whole : fs.reading = false → Whole turn)
    (seeks : fs.seek seekTo turn = some (none, fs')) :
    ∃ flushed, (fs'.position : Int) =
        target seekTo flushed fs'.content.length ∧
      fs'.buffered = [] ∧ fs'.file.valid = true ∧ Ready fs' ∧
      fs'.reading = fs.reading ∧
      (fs.reading = true → flushed = fs.position) ∧
      (fs.reading = false → flushed = place) := by
  rcases seek_succeeds seeks with ⟨flushed, flushes, lands⟩
  rcases placed.flush whole flushes with
    ⟨placed', reading, reader, writer⟩
  rcases lands placed'.ready with ⟨position, valid, empty, steady⟩
  refine ⟨flushed.position, position, empty, valid.trans placed'.valid,
    steady.ready, steady.reading.trans reading, fun reads => ?_,
    fun writes => ?_⟩
  · rw [reader reads]
  · have sum := (placed'.writer (reading.trans writes)).1.sum
    rw [writer writes, List.length_nil] at sum
    omega

theorem target_of_current (current : seekTo.whence = .current)
    (place size : Nat) :
    target seekTo place size = place + asLong (seekTo.offset.getD 0) := by
  unfold target
  rw [current]

theorem target_congr
    {first second : Nat} (same : seekTo.whence = .current → first = second)
    (size : Nat) : target seekTo first size = target seekTo second size := by
  by_cases current : seekTo.whence = .current
  · rw [same current]
  · unfold target
    cases whence : seekTo.whence <;> first | rfl | exact absurd whence current

theorem Placed.sought
    (placed : Placed fs place missing)
    (whole : fs.reading = false → Whole turn)
    (settled : seekTo.whence = .current → fs.reading = true →
      fs.buffered.length = missing)
    (seeks : fs.seek seekTo turn = some (none, fs')) :
    Placed fs' (target seekTo place fs'.content.length).toNat 0 := by
  rcases placed.seek whole seeks with
    ⟨flushed, position, empty, valid, ready, _, reader, writer⟩
  have start : seekTo.whence = .current → flushed = place := by
    intro current
    cases reading : fs.reading with
    | true =>
        have sum := placed.reader reading
        have settled' := settled current reading
        have shown := reader reading
        omega
    | false => exact writer reading
  rw [← target_congr start, ← position, Int.toNat_natCast]
  refine ⟨ready, valid, fun _ => by rw [empty]; rfl,
    fun _ => ⟨⟨ready, valid, by rw [empty]; rfl,
      fun _ filled => absurd empty filled⟩, rfl⟩⟩

theorem Positions.placed
    (run : Positions opened fs place missing) (start : Placed opened 0 0) :
    Placed fs place missing := by
  induction run with
  | opened => exact start
  | read _ reads induction => exact induction.read reads
  | write _ last whole writes induction =>
      exact induction.write last whole writes
  | flush _ whole flushes induction =>
      exact (induction.flush whole flushes).1
  | seek _ whole settled seeks induction =>
      exact induction.sought whole settled seeks

theorem openStream_placed
    {file : Handle} {options : Options} {bufferSize : Nat}
    {grant : Grant UInt8} (positive : 1 ≤ bufferSize)
    (fits : bufferSize < sizeLimit) (valid : file.valid = true)
    (start : file.file.position = 0)
    (opens : openStream (.ok file) options bufferSize grant = .ok opened) :
    Placed opened 0 0 := by
  rcases openStream_ready positive fits opens with
    ⟨ready, empty, _, same, _⟩
  cases same
  have position : opened.position = 0 := start
  refine ⟨ready, valid, fun _ => by rw [position, empty]; rfl,
    fun _ => ⟨⟨ready, valid, by rw [position, empty]; rfl,
      fun _ filled => absurd empty filled⟩, rfl⟩⟩

/--
The main result: the stream tells the right position when its buffer holds as
many bytes as are missing of the blocks that were read, and no others; a
writer then holds back nothing.  A seek from the current position starts
from the right place for every writer, and for a reader under the same
condition.
-/
theorem fstream_tells
    {file : Handle} {options : Options} {bufferSize : Nat}
    {grant : Grant UInt8} (positive : 1 ≤ bufferSize)
    (fits : bufferSize < sizeLimit) (valid : file.valid = true)
    (start : file.file.position = 0)
    (opens : openStream (.ok file) options bufferSize grant = .ok opened)
    (run : Positions opened fs place missing) :
    (fs.tell = .ok place ↔ fs.buffered.length = missing) ∧
      ∀ seekTo turn fs', seekTo.whence = .current →
        (fs.reading = false → Whole turn) →
        fs.seek seekTo turn = some (none, fs') →
        ((fs'.position : Int) = place + asLong (seekTo.offset.getD 0) ↔
          (fs.reading = true → fs.buffered.length = missing)) := by
  have placed := run.placed (openStream_placed positive fits valid start opens)
  have told : fs.tell = .ok fs.position := by
    unfold Stream.tell Handle.tell
    rw [if_neg (by rw [placed.valid]; exact Bool.noConfusion)]
    rfl
  constructor
  · rw [told, Except.ok.injEq]
    cases reading : fs.reading with
    | true =>
        have sum := placed.reader reading
        omega
    | false =>
        rcases placed.writer reading with ⟨holds, none'⟩
        have sum := holds.sum
        omega
  · intro seekTo turn fs' current whole seeks
    rcases placed.seek whole seeks with
      ⟨flushed, position, _, _, _, _, reader, writer⟩
    rw [position, target_of_current current]
    cases reading : fs.reading with
    | true =>
        have sum := placed.reader reading
        have shown := reader reading
        constructor
        · intro same _
          omega
        · intro settled
          have settled' := settled rfl
          omega
    | false =>
        rw [writer reading]
        exact ⟨fun _ absent => Bool.noConfusion absent, fun _ => rfl⟩

theorem plentiful_whole : Whole plentiful := by
  intro len count answers
  cases answers
  exact le_rfl

/-- After a write and a seek that flushes, the stream tells its position. -/
theorem fstream_tells_flushed :
    ∃ fs place missing, Positions pairWriter fs place missing ∧
      place = 2 ∧ (fs.tell = .ok place ↔ fs.buffered.length = missing) := by
  rcases writes : pairWriter.write [7] (fun _ => plentiful) with
    _ | ⟨err, written⟩
  · exact absurd writes (by decide)
  have accepted : err = none := by
    cases writes
    rfl
  subst accepted
  rcases seeks : written.seek ⟨.current, some 1⟩ plentiful with
    _ | ⟨err, fs⟩
  · cases writes
    exact absurd seeks (by decide)
  have sought : err = none ∧
      target ⟨.current, some 1⟩ (0 + ([7] : List UInt8).length)
        fs.content.length = 2 := by
    cases writes
    cases seeks
    exact ⟨rfl, rfl⟩
  rcases sought with ⟨rfl, lands⟩
  have run : Positions pairWriter fs _ 0 :=
    .seek (.write .opened (fun _ absent => Bool.noConfusion absent)
      (fun _ => plentiful_whole) writes) (fun _ => plentiful_whole)
      (fun _ reading => by cases writes; cases reading) seeks
  refine ⟨fs, _, 0, run, by rw [lands]; rfl, ?_⟩
  exact (fstream_tells (by decide) (by decide)
    (show threeBytes.valid = true from rfl) rfl
    (show openStream (.ok threeBytes) ⟨false, true⟩ 2
      (some (64, fun _ => 0)) = .ok pairWriter from rfl) run).1

/-- A stream that was written one byte tells that it is at 0. -/
theorem fstream_tells_stale :
    ∃ fs, Positions pairWriter fs 1 0 ∧ fs.tell = .ok 0 := by
  refine ⟨pairHolding, ?_, rfl⟩
  have writes : pairWriter.write [7] (fun _ => plentiful) =
      some (none, pairHolding) := rfl
  exact .write .opened (fun _ absent => Bool.noConfusion absent)
    (fun _ => plentiful_whole) writes

end Libcute.Io.FStream
