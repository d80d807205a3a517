import Libcute.Io.FStream

/-!
# Streams for reading

A stream for reading fills its buffer with a block of fixed size, and
`cu_File_read` does not say how much of the block was read.  A call is
`Spared` the rest of a block when it takes no more of any block than was read;
`fstream_reads_file` says that as long as all calls are, the stream delivers
the bytes of the file, and no more.
-/

namespace Libcute.Io.FStream

open Libcute.Collection.Blocks
open Libcute.Collection.RingBuffer
open Libcute.Core.Size
open Libcute.Io.Error
open Libcute.Io.File

variable {fs fs' opened : Stream} {turn : Turn} {turns : Nat → Turn}
  {err : Option IoError} {buf bytes rest : List UInt8}

/-- The content of the file. -/
def Stream.content (fs : Stream) : List UInt8 := fs.file.file.content

/-- The position of the file. -/
def Stream.position (fs : Stream) : Nat := fs.file.file.position

/-- So many bytes of a file from a position on. -/
def window (content : List UInt8) (start count : Nat) : List UInt8 :=
  (content.drop start).take count

/--
A call that takes `count` bytes, when `fresh` bytes of the buffer are bytes of
the file.  Either these are enough; or the buffer holds no others, and every
block from which the call takes bytes is granted and read far enough.
-/
def Covered
    (fs : Stream) (fresh count : Nat) (turns : Nat → Turn) (i : Nat) : Prop :=
  count ≤ fresh ∨
    fs.buffered.length = fresh ∧ ∀ k,
      let first := fs.buffered.length + k * fs.buffer.capacity
      first < count →
        (turns (i + first)).grant ≠ none ∧
        ∃ result, (turns (i + first)).answer fs.buffer.capacity = .ok result ∧
          min fs.buffer.capacity (count - first) ≤
            min result
              (fs.content.length - (fs.position + k * fs.buffer.capacity))

/--
A call of which every byte is one that was read from the file, or which fails
before it takes a byte.
-/
def Spared (fs : Stream) (fresh count : Nat) (turns : Nat → Turn) : Prop :=
  Covered fs fresh count turns 0 ∨
    0 < count ∧ fs.buffered = [] ∧ FillFails fs (turns 0)

/-! ## Bytes of the file -/

theorem window_cons
    {content : List UInt8} {start : Nat} (inside : start < content.length)
    (count : Nat) :
    window content start (count + 1) =
      content[start] :: window content (start + 1) count := by
  unfold window
  rw [List.drop_eq_getElem_cons inside, List.take_succ_cons]

theorem window_length
    {content : List UInt8} {start count : Nat}
    (inside : count ≤ content.length - start) :
    (window content start count).length = count := by
  unfold window
  rw [List.length_take, List.length_drop]
  omega

theorem window_append (content : List UInt8) (start first second : Nat) :
    window content start first ++ window content (start + first) second =
      window content start (first + second) := by
  unfold window
  rw [List.take_add, List.drop_drop]

/--
The buffer is ahead of the user, who is at `place`: it begins with the bytes
of the file from there to the position of the file.
-/
structure Ahead (content : List UInt8) (place : Nat) (fs : Stream) :
    Prop where
  ready : Ready fs
  valid : fs.file.valid = true
  reads : fs.reading = true
  same : fs.content = content
  behind : place ≤ fs.position
  held : fs.position - place ≤ content.length - place
  fresh : ∃ stale,
    fs.buffered = window content place (fs.position - place) ++ stale

/-- The first byte that is read from a file. -/
theorem ahead_cons
    {content : List UInt8} {place fresh : Nat} {elem : UInt8}
    {later stale : List UInt8} (positive : 0 < fresh)
    (held : fresh ≤ content.length - place)
    (shown : elem :: later = window content place fresh ++ stale) :
    (∀ count, elem :: window content (place + 1) count =
        window content place (count + 1)) ∧
      later = window content (place + 1) (fresh - 1) ++ stale := by
  have inside : place < content.length := by omega
  have split : fresh = fresh - 1 + 1 := by omega
  rw [split, window_cons inside, List.cons_append] at shown
  injection shown with first behind
  refine ⟨fun count => ?_, behind⟩
  rw [window_cons inside, first]

/-- An empty buffer is not ahead. -/
theorem Ahead.caught_up
    {content : List UInt8} {place : Nat} (ahead : Ahead content place fs)
    (empty : fs.buffered = []) : fs.position = place := by
  rcases ahead.fresh with ⟨stale, shown⟩
  have long := window_length ahead.held
  have behind := ahead.behind
  rw [empty] at shown
  rw [(List.append_eq_nil_iff.mp shown.symm).1, List.length_nil] at long
  omega

/-- The byte that is popped is the next one of the file. -/
theorem Ahead.pops
    {content : List UInt8} {place : Nat} {elem : UInt8} {later : List UInt8}
    (ahead : Ahead content place fs) (fresh : 0 < fs.position - place)
    (filled : fs.buffered = elem :: later) (left : fs'.buffered = later)
    (file : fs'.file = fs.file) (steady : Steady fs fs') :
    Ahead content (place + 1) fs' ∧
      ∀ count, elem :: window content (place + 1) count =
        window content place (count + 1) := by
  have held := ahead.held
  rcases ahead.fresh with ⟨stale, shown⟩
  rw [filled] at shown
  rcases ahead_cons fresh held shown with ⟨delivers, behind⟩
  have position : fs'.position = fs.position := by
    unfold Stream.position
    rw [file]
  refine ⟨⟨steady.ready, by rw [file]; exact ahead.valid,
    steady.reading.trans ahead.reads,
    by rw [← ahead.same]; unfold Stream.content; rw [file],
    by omega, by omega, stale, ?_⟩, delivers⟩
  rw [left, behind, position, Nat.sub_sub]

/-- The first byte of a block is the next one of the file. -/
theorem Ahead.fills
    {content : List UInt8} {place count : Nat} {elem : UInt8}
    {later junk : List UInt8} (ahead : Ahead content place fs)
    (empty : fs.buffered = [])
    (fresh : 0 < min count (content.length - place))
    (filled : elem :: later = (fs.file.file.read count).1 ++ junk)
    (left : fs'.buffered = later)
    (file : fs'.file = { fs.file with file := (fs.file.file.read count).2 })
    (steady : Steady fs fs') :
    Ahead content (place + 1) fs' ∧
      fs'.position = place + min count (content.length - place) ∧
      ∀ count, elem :: window content (place + 1) count =
        window content place (count + 1) := by
  have caught := ahead.caught_up empty
  have got : (fs.file.file.read count).1 = window content place count := by
    rw [← ahead.same, ← caught]
    rfl
  have long : (window content place count).length =
      min count (content.length - place) := by
    unfold window
    rw [List.length_take, List.length_drop]
  have whole : window content place count =
      window content place (min count (content.length - place)) := by
    unfold window
    rw [← List.length_drop, List.take_eq_take_min]
  rw [got, whole] at filled
  rcases ahead_cons fresh (Nat.min_le_right _ _) filled with
    ⟨delivers, behind⟩
  have position : fs'.position =
      place + min count (content.length - place) := by
    rw [← long, ← got, ← caught]
    unfold Stream.position
    rw [file]
    rfl
  refine ⟨⟨steady.ready, by rw [file]; exact ahead.valid,
    steady.reading.trans ahead.reads,
    by rw [← ahead.same]; unfold Stream.content; rw [file]; rfl,
    by omega, by omega, junk, ?_⟩, position, delivers⟩
  rw [left, behind, position]
  congr 2
  omega

/-- Behind a byte that is popped the call is still covered. -/
theorem Covered.pops
    {fresh count i : Nat} {elem : UInt8} {later : List UInt8}
    (covered : Covered fs fresh (count + 1) turns i)
    (filled : fs.buffered = elem :: later) (left : fs'.buffered = later)
    (file : fs'.file = fs.file)
    (capacity : fs'.buffer.capacity = fs.buffer.capacity) :
    Covered fs' (fresh - 1) count turns (i + 1) := by
  have content : fs'.content = fs.content := by
    unfold Stream.content
    rw [file]
  have position : fs'.position = fs.position := by
    unfold Stream.position
    rw [file]
  have long : fs.buffered.length = fs'.buffered.length + 1 := by
    rw [filled, left, List.length_cons]
  rcases covered with few | ⟨all, blocks⟩
  · exact .inl (by omega)
  · refine .inr ⟨by omega, ?_⟩
    intro k
    dsimp only
    rw [capacity, content, position]
    intro within
    have block := blocks k
    rw [long] at block
    have found := block (by omega)
    have spot : i + (fs'.buffered.length + 1 + k * fs.buffer.capacity) =
        i + 1 + (fs'.buffered.length + k * fs.buffer.capacity) := by
      omega
    have remaining :
        count + 1 - (fs'.buffered.length + 1 + k * fs.buffer.capacity) =
          count - (fs'.buffered.length + k * fs.buffer.capacity) := by
      omega
    rw [spot, remaining] at found
    exact found

/-- Behind a block that is read far enough the call is still covered. -/
theorem Covered.fills
    {count i : Nat}
    (covered : Covered fs 0 (count + 1) turns i) (empty : fs.buffered = [])
    (long : fs'.buffered.length + 1 = fs.buffer.capacity)
    (content : fs'.content = fs.content) (result : Nat)
    (position : fs'.position = fs.position +
      min (min result fs.buffer.capacity)
        (fs.content.length - fs.position))
    (capacity : fs'.buffer.capacity = fs.buffer.capacity)
    (enough : min fs.buffer.capacity (count + 1) ≤
      min result (fs.content.length - fs.position)) :
    Covered fs' (fs'.position - (fs.position + 1)) count turns (i + 1) := by
  rcases covered with few | ⟨_, blocks⟩
  · omega
  by_cases few : count + 1 ≤ fs'.position - fs.position
  · exact .inl (by omega)
  · have full : fs'.position = fs.position + fs.buffer.capacity := by
      omega
    refine .inr ⟨by omega, ?_⟩
    intro k
    dsimp only
    rw [capacity, content]
    intro within
    have block := blocks (k + 1)
    rw [empty, List.length_nil, Nat.zero_add, Nat.succ_mul] at block
    generalize past : k * fs.buffer.capacity = blocked at block within ⊢
    have found := block (by omega)
    have spot : i + (blocked + fs.buffer.capacity) =
        i + 1 + (fs'.buffered.length + blocked) := by
      omega
    have remaining : count + 1 - (blocked + fs.buffer.capacity) =
        count - (fs'.buffered.length + blocked) := by
      omega
    have onward : fs.position + (blocked + fs.buffer.capacity) =
        fs'.position + blocked := by
      omega
    rw [spot, remaining, onward] at found
    exact found

/-- A call that is covered delivers the bytes of the file. -/
theorem Ahead.readLoop_covered
    {content : List UInt8} {place : Nat} (ahead : Ahead content place fs)
    (rest : List UInt8) (i : Nat)
    (covered : Covered fs (fs.position - place) rest.length turns i) :
    ∃ fs', fs.readLoop turns i rest =
        some (none, window content place rest.length, fs') ∧
      rest.length ≤ content.length - place ∧
      Ahead content (place + rest.length) fs' := by
  induction rest generalizing fs place i with
  | nil => exact ⟨fs, rfl, Nat.zero_le _, ahead⟩
  | cons old rest induction =>
      have ready := ahead.ready
      have positive := ready.positive
      have held := ahead.held
      rw [List.length_cons] at covered ⊢
      rcases buffered : fs.buffered with _ | ⟨elem, later⟩
      · have caught := ahead.caught_up buffered
        rw [caught, Nat.sub_self] at covered
        rcases id covered with few | ⟨_, blocks⟩
        · omega
        rw [buffered, List.length_nil] at blocks
        have first := blocks 0 (by omega)
        simp only [Nat.zero_mul, Nat.add_zero, Nat.sub_zero] at first
        rcases first with ⟨granted, count, answers, enough⟩
        rw [ahead.same, caught] at enough
        rcases readLoop_fills ready buffered granted ahead.valid answers old
          rest with
          ⟨elem, later, junk, fs', filled, long, left, file, steady, loops⟩
        rcases ahead.fills buffered (by omega) filled left file steady with
          ⟨ahead', position, delivers⟩
        rw [List.length_cons] at long
        have covered' : Covered fs' (fs'.position - (place + 1)) rest.length
            turns (i + 1) := by
          rw [← caught]
          refine covered.fills buffered (by rw [left, long])
            (by rw [ahead'.same, ahead.same]) count ?_
            steady.capacity ?_
          · rw [position, ahead.same, caught]
          · rw [ahead.same, caught]
            exact enough
        rcases induction ahead' (i + 1) covered' with
          ⟨final, reads, within, ahead''⟩
        refine ⟨final, ?_, by omega, by
          rw [Nat.add_right_comm, Nat.add_assoc] at ahead''; exact ahead''⟩
        rw [loops, reads, ← delivers]
        rfl
      · have fresh : 0 < fs.position - place := by
          rcases covered with few | ⟨all, _⟩
          · omega
          · rw [← all, buffered, List.length_cons]
            omega
        rcases readLoop_buffered ready buffered turns old rest i with
          ⟨fs', left, file, steady, loops⟩
        rcases ahead.pops fresh buffered left file steady with
          ⟨ahead', delivers⟩
        have covered' : Covered fs' (fs'.position - (place + 1)) rest.length
            turns (i + 1) := by
          have position : fs'.position = fs.position := by
            unfold Stream.position
            rw [file]
          have next := covered.pops buffered left file steady.capacity
          rw [Nat.sub_sub] at next
          rw [position]
          exact next
        rcases induction ahead' (i + 1) covered' with
          ⟨final, reads, within, ahead''⟩
        refine ⟨final, ?_, by omega, by
          rw [Nat.add_right_comm, Nat.add_assoc] at ahead''; exact ahead''⟩
        rw [loops, reads, ← delivers]
        rfl

/-! ## Runs -/

/-- The bytes of the buffer that were read from the file. -/
def Stream.fresh (fs opened : Stream) (delivered : List UInt8) : Nat :=
  fs.position - (opened.position + delivered.length)

/--
The runs of an opened stream whose calls are all spared, with the bytes that
the calls that succeed deliver.
-/
inductive Deliveries (opened : Stream) : Stream → List UInt8 → Prop where
  | opened : Deliveries opened opened []
  | succeeds {fs fs' : Stream} {delivered buf bytes : List UInt8}
      {turns : Nat → Turn} (earlier : Deliveries opened fs delivered)
      (spared : Spared fs (fs.fresh opened delivered) buf.length turns)
      (reads : fs.read buf turns = some (none, bytes, fs')) :
      Deliveries opened fs' (delivered ++ bytes)
  | fails {fs fs' : Stream} {delivered buf bytes : List UInt8}
      {turns : Nat → Turn} {err : IoError}
      (earlier : Deliveries opened fs delivered)
      (spared : Spared fs (fs.fresh opened delivered) buf.length turns)
      (reads : fs.read buf turns = some (some err, bytes, fs')) :
      Deliveries opened fs' delivered

/-- What a call that is spared does. -/
inductive Serves
    (content : List UInt8) (place : Nat) (fs : Stream) (buf : List UInt8)
    (turns : Nat → Turn) : Prop where
  | delivers (fs' : Stream)
      (reads : fs.read buf turns =
        some (none, window content place buf.length, fs'))
      (within : buf.length ≤ content.length - place)
      (ahead : Ahead content (place + buf.length) fs')
  | refuses (err : IoError)
      (reads : fs.read buf turns = some (some err, buf, fs))

theorem Ahead.read_spec
    {content : List UInt8} {place : Nat} (ahead : Ahead content place fs)
    (spared : Spared fs (fs.position - place) buf.length turns) :
    Serves content place fs buf turns := by
  have loops : fs.read buf turns = fs.readLoop turns 0 buf := by
    unfold Stream.read
    rw [if_neg (by rw [ahead.reads]; exact Bool.noConfusion)]
  rcases spared with covered | ⟨asked, empty, fails⟩
  · rcases ahead.readLoop_covered buf 0 covered with
      ⟨fs', reads, within, ahead'⟩
    exact .delivers fs' (by rw [loops, reads]) within ahead'
  · rcases List.exists_cons_of_length_pos asked with ⟨old, rest, rfl⟩
    rcases readLoop_fails ahead.ready empty fails old rest with ⟨err, reads⟩
    exact .refuses err (by rw [loops, reads])

theorem openStream_ahead
    {file : Handle} {options : Options} {bufferSize : Nat}
    {grant : Grant UInt8} (positive : 1 ≤ bufferSize)
    (fits : bufferSize < sizeLimit) (valid : file.valid = true)
    (forReading : options.read = true ∧ options.write = false)
    (opens : openStream (.ok file) options bufferSize grant = .ok opened) :
    Ahead opened.content opened.position opened := by
  rcases openStream_ready positive fits opens with
    ⟨ready, empty, _, same, reading⟩
  cases same
  refine ⟨ready, valid, ?_, rfl, le_rfl, by omega, [], ?_⟩
  · rw [reading, forReading.1, forReading.2]
    rfl
  · rw [empty, Nat.sub_self]
    rfl

/-- What holds after every run of calls that are spared. -/
theorem Deliveries.ahead
    {delivered : List UInt8} (run : Deliveries opened fs delivered)
    (start : Ahead opened.content opened.position opened) :
    Ahead opened.content (opened.position + delivered.length) fs ∧
      delivered = window opened.content opened.position delivered.length := by
  induction run with
  | opened => exact ⟨start, rfl⟩
  | @succeeds fs fs' delivered buf bytes turns _ spared reads induction =>
      rcases induction with ⟨ahead, whole⟩
      cases ahead.read_spec spared with
      | refuses err refuses =>
          rw [refuses] at reads
          cases reads
      | delivers final delivers within ahead' =>
          rw [delivers] at reads
          cases reads
          rw [List.length_append, window_length within, ← Nat.add_assoc]
          refine ⟨ahead', ?_⟩
          rw [← window_append, ← whole]
  | @fails fs fs' delivered buf bytes turns err _ spared reads induction =>
      cases induction.1.read_spec spared with
      | refuses error refuses =>
          rw [refuses] at reads
          cases reads
          exact induction
      | delivers final delivers _ _ =>
          rw [delivers] at reads
          cases reads

/--
The main result: as long as no call takes more of a block than was read, the
calls that succeed deliver consecutive bytes of the file, and a call that asks
for more bytes than the file still holds fails.
-/
theorem fstream_reads_file
    {file : Handle} {options : Options} {bufferSize : Nat}
    {grant : Grant UInt8} (positive : 1 ≤ bufferSize)
    (fits : bufferSize < sizeLimit) (valid : file.valid = true)
    (forReading : options.read = true ∧ options.write = false)
    (opens : openStream (.ok file) options bufferSize grant = .ok opened)
    {delivered : List UInt8} (run : Deliveries opened fs delivered) :
    delivered <+: file.file.content.drop file.file.position ∧
      ∀ buf turns,
        Spared fs (fs.fresh opened delivered) buf.length turns →
        ∃ err bytes fs', fs.read buf turns = some (err, bytes, fs') ∧
          (file.file.content.length -
            (file.file.position + delivered.length) < buf.length →
              err ≠ none) := by
  rcases openStream_ready positive fits opens with ⟨_, _, _, same, _⟩
  cases same
  rcases run.ahead (openStream_ahead positive fits valid forReading opens)
    with ⟨ahead, whole⟩
  constructor
  · rw [whole]
    exact List.take_prefix _ _
  · intro buf turns spared
    cases ahead.read_spec spared with
    | delivers fs' reads within _ =>
        exact ⟨_, _, fs', reads, fun more => absurd within (by
          change ¬ buf.length ≤ opened.file.file.content.length -
            (opened.file.file.position + delivered.length)
          omega)⟩
    | refuses err reads => exact ⟨_, _, fs, reads, fun _ => nofun⟩

/-- A file of three bytes, and a stream that reads blocks of four. -/
def quadReader : Stream :=
  ⟨⟨true, ⟨[1, 2, 3], 0, false, []⟩⟩,
    ⟨some ⟨⟨64, 4⟩, [0, 0, 0, 0]⟩, 4, 0, 0, ⟨1, 1⟩, false, []⟩, true⟩

/-- Blocks are granted with what was in them; all bytes there are are read. -/
def dirty : Turn := ⟨some (64, fun _ => 170), fun len => .ok len⟩

theorem quadReader_spared : Spared quadReader 0 3 fun _ => dirty := by
  refine .inl (.inr ⟨rfl, ?_⟩)
  intro k
  dsimp only
  intro first
  have zero : k = 0 := by
    have size : quadReader.buffer.capacity = 4 := rfl
    have none' : quadReader.buffered.length = 0 := rfl
    rw [size, none'] at first
    omega
  subst zero
  exact ⟨Option.some_ne_none _, 4, rfl, by decide⟩

/-- The three bytes of the file are read. -/
theorem fstream_reads_file_bytes :
    ([1, 2, 3] : List UInt8) <+: quadReader.file.file.content.drop 0 := by
  rcases reads : quadReader.read [0, 0, 0] (fun _ => dirty) with
    _ | ⟨err, bytes, fs⟩
  · exact absurd reads (by decide)
  have shown : err = none ∧ bytes = [1, 2, 3] := by
    cases reads
    exact ⟨rfl, rfl⟩
  rcases shown with ⟨rfl, rfl⟩
  exact (fstream_reads_file (by decide) (by decide)
    (show quadReader.file.valid = true from rfl) ⟨rfl, rfl⟩
    (show openStream (.ok quadReader.file) ⟨true, false⟩ 4
      (some (64, fun _ => 0)) = .ok quadReader from rfl)
    (.succeeds .opened (show Spared quadReader 0
      ([0, 0, 0] : List UInt8).length (fun _ => dirty) from
        quadReader_spared) reads)).1

/-- A call that asks for five bytes of three succeeds. -/
theorem fstream_reads_stale :
    ∃ fs, quadReader.read [0, 0, 0, 0, 0] (fun _ => dirty) =
        some (none, [1, 2, 3, 170, 170], fs) ∧
      quadReader.content.length < 5 :=
  ⟨_, rfl, by decide⟩

end Libcute.Io.FStream
