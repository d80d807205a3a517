import Libcute.Io.FStream

/-!
# Streams for writing

A stream for writing holds back bytes: the file with these bytes written to
it is the file on which every write was made at once.  That is
`fstream_refines_file`, for a system that accepts all bytes.

When a flush fails, the bytes are kept if no block was granted for them, and
lost if the file could not be written: the buffer is drained first.
`failed_flush_retains` says exactly when a call keeps them.
-/

namespace Libcute.Io.FStream

open Libcute.Collection.Blocks
open Libcute.Collection.RingBuffer
open Libcute.Core.Size
open Libcute.Io.Error
open Libcute.Io.File

variable {fs fs' fs'' opened : Stream} {turn : Turn} {turns : Nat → Turn}
  {call : Call} {err : Option IoError} {bytes rest : List UInt8} {i : Nat}

/-! ## Writing all bytes -/

/-- A block is granted, and `write` accepts all the bytes it is given. -/
structure Accepts (turn : Turn) : Prop where
  granted : turn.grant ≠ none
  stores : ∀ len, turn.answer len = .ok len

/-- The file with the bytes that the stream holds back. -/
def Stream.direct (fs : Stream) : Handle := fs.file.put fs.buffered

theorem flushBuffer_accepted
    (ready : Ready fs) (valid : fs.file.valid = true)
    (accepts : Accepts turn) :
    ∃ fs', fs.flushBuffer turn = some (none, fs') ∧
      fs'.file = fs.direct ∧ fs'.buffered = [] ∧ Steady fs fs' := by
  by_cases empty : fs.buffered = []
  · refine ⟨fs, flushBuffer_empty ready empty, ?_, empty, .refl ready⟩
    unfold Stream.direct
    rw [empty]
    rfl
  · rcases flushBuffer_granted ready empty accepts.granted with
      ⟨fs', flushes, file, drained, steady⟩
    rw [Handle.write_accepted valid accepts.stores] at flushes file
    exact ⟨fs', flushes, file, drained, steady⟩

theorem direct_of_drained (empty : fs.buffered = []) :
    fs.direct = fs.file := by
  unfold Stream.direct
  rw [empty]
  rfl

/-- The invariant of a stream for writing. -/
structure Writing (fs : Stream) : Prop where
  ready : Ready fs
  valid : fs.file.valid = true
  writes : fs.reading = false

theorem Writing.steady
    (writing : Writing fs) (steady : Steady fs fs')
    (valid : fs'.file.valid = fs.file.valid) : Writing fs' :=
  ⟨steady.ready, valid.trans writing.valid,
    steady.reading.trans writing.writes⟩

/-- Bytes are held back, or written with those that were held back. -/
theorem Writing.writeLoop_spec
    (writing : Writing fs) (accepts : ∀ i, Accepts (turns i))
    (rest : List UInt8) (i : Nat) :
    ∃ fs', fs.writeLoop turns i rest = some (none, fs') ∧ Writing fs' ∧
      fs'.direct = fs.direct.put rest := by
  induction rest generalizing fs i with
  | nil =>
      refine ⟨fs, rfl, writing, ?_⟩
      unfold Stream.direct
      rw [Handle.put_put, List.append_nil]
  | cons elem rest induction =>
      have ready := writing.ready
      have within := ready.within
      rw [← ready.counted] at within
      rcases Nat.lt_or_eq_of_le within with room | full
      · rcases writeLoop_room ready room turns elem i with
          ⟨pushed, shown, file, steady, loops⟩
        rcases induction (writing.steady steady (by rw [file])) (i + 1) with
          ⟨fs', writes, writing', direct⟩
        refine ⟨fs', by rw [loops, writes], writing', ?_⟩
        rw [direct]
        unfold Stream.direct
        rw [shown, file, Handle.put_put, Handle.put_put, List.append_assoc,
          List.singleton_append]
      · rcases flushBuffer_accepted ready writing.valid (accepts i) with
          ⟨flushed, flushes, stored, empty, steady⟩
        rcases writeLoop_flushes ready full flushes empty steady elem
          rest with
          ⟨pushed, shown, file, steady', loops⟩
        rcases induction (writing.steady steady' (by rw [file, stored]; rfl))
          (i + 1) with
          ⟨fs', writes, writing', direct⟩
        refine ⟨fs', by rw [loops, writes], writing', ?_⟩
        rw [direct]
        unfold Stream.direct at stored ⊢
        rw [shown, file, stored, Handle.put_put, Handle.put_put,
          Handle.put_put, List.singleton_append]

theorem Writing.flush_spec
    (writing : Writing fs) (accepts : Accepts turn) :
    ∃ fs', fs.flush turn = some (none, fs') ∧ Writing fs' ∧
      fs'.file = fs.direct ∧ fs'.buffered = [] := by
  rcases flushBuffer_accepted writing.ready writing.valid accepts with
    ⟨fs', flushes, file, empty, steady⟩
  refine ⟨fs', ?_, writing.steady steady (by rw [file]; rfl), file, empty⟩
  unfold Stream.flush
  rw [if_pos writing.writes, flushes]

theorem Writing.seek_spec
    (writing : Writing fs) (accepts : Accepts turn) (seekTo : SeekTo) :
    ∃ fs', fs.seek seekTo turn = some ((fs.direct.seek seekTo).1, fs') ∧
      Writing fs' ∧ fs'.direct = (fs.direct.seek seekTo).2 := by
  rcases writing.flush_spec accepts with
    ⟨flushed, flushes, writing', file, _⟩
  rcases writing'.ready.clear_spec with
    ⟨buffer, clears, sound, empty, alike, _⟩
  have sought : (fs.direct.seek seekTo).2.valid = fs.direct.valid := by
    unfold Handle.seek
    dsimp only
    split_ifs
    · rfl
    · split
      · rfl
      · split <;> rfl
  refine ⟨⟨(fs.direct.seek seekTo).2, buffer, flushed.reading⟩, ?_,
    ⟨sound, ?_, writing'.writes⟩, direct_of_drained empty⟩
  · unfold Stream.seek
    rw [flushes]
    dsimp only
    rw [clears, file]
    rfl
  · dsimp only
    rw [sought]
    exact writing.valid

/-! ## The refinement -/

/--
The same call on the file, when `write` accepts all bytes.  A file has
nothing to flush, and a stream for writing refuses to read.
-/
def onFile (handle : Handle) : Call → Option IoError × Handle
  | .read _ => (some invalidInput, handle)
  | .write data => handle.write data fun len => .ok len
  | .flush => (none, handle)
  | .seek seekTo => handle.seek seekTo

/-- Calls on the file, with their errors. -/
def onFileAll (handle : Handle) : List Call → List (Option IoError) × Handle
  | [] => ([], handle)
  | call :: rest =>
      let first := onFile handle call
      let others := onFileAll first.2 rest
      (first.1 :: others.1, others.2)

/-- Calls on the stream, with their errors. -/
def Stream.performAll (fs : Stream) :
    List (Call × (Nat → Turn)) → Option (List (Option IoError) × Stream)
  | [] => some ([], fs)
  | (call, turns) :: rest =>
      match fs.perform call turns with
      | none => none
      | some (err, _, fs) =>
          (fs.performAll rest).map fun (errs, fs) => (err :: errs, fs)

/-- A call on the stream is the call on the file. -/
theorem Writing.perform_spec
    (writing : Writing fs) (call : Call)
    (accepts : ∀ i, Accepts (turns i)) :
    ∃ bytes fs', fs.perform call turns =
        some ((onFile fs.direct call).1, bytes, fs') ∧ Writing fs' ∧
      fs'.direct = (onFile fs.direct call).2 := by
  cases call with
  | read buf =>
      refine ⟨buf, fs, ?_, writing, rfl⟩
      change fs.read buf turns = _
      unfold Stream.read
      rw [if_pos writing.writes]
      rfl
  | write data =>
      rcases writing.writeLoop_spec accepts data 0 with
        ⟨fs', writes, writing', direct⟩
      have accepted : onFile fs.direct (.write data) =
          (none, fs.direct.put data) := by
        have valid : fs.direct.valid = true := writing.valid
        exact Handle.write_accepted valid (fun _ => rfl) data
      refine ⟨[], fs', ?_, writing', by rw [accepted, direct]⟩
      rw [accepted]
      dsimp only [Stream.perform]
      unfold Stream.write
      rw [if_neg (by rw [writing.writes]; exact Bool.noConfusion), writes]
      rfl
  | flush =>
      rcases writing.flush_spec (accepts 0) with
        ⟨fs', flushes, writing', file, empty⟩
      refine ⟨[], fs', ?_, writing', by rw [direct_of_drained empty, file]; rfl⟩
      dsimp only [Stream.perform]
      rw [flushes]
      rfl
  | seek seekTo =>
      rcases writing.seek_spec (accepts 0) seekTo with
        ⟨fs', seeks, writing', direct⟩
      refine ⟨[], fs', ?_, writing', direct⟩
      dsimp only [Stream.perform]
      rw [seeks]
      rfl

theorem Writing.performAll_spec
    (writing : Writing fs) (calls : List (Call × (Nat → Turn)))
    (accepts : ∀ call ∈ calls, ∀ i, Accepts (call.2 i)) :
    ∃ fs', fs.performAll calls =
        some ((onFileAll fs.direct (calls.map Prod.fst)).1, fs') ∧
      Writing fs' ∧
      fs'.direct = (onFileAll fs.direct (calls.map Prod.fst)).2 := by
  induction calls generalizing fs with
  | nil => exact ⟨fs, rfl, writing, rfl⟩
  | cons first rest induction =>
      rcases first with ⟨call, turns⟩
      rcases writing.perform_spec call
        (accepts _ (List.mem_cons_self ..)) with
        ⟨bytes, next, performs, writing', direct⟩
      rcases induction writing'
        (fun call among => accepts call (List.mem_cons_of_mem _ among)) with
        ⟨fs', others, writing'', direct'⟩
      rw [direct] at others direct'
      refine ⟨fs', ?_, writing'', direct'⟩
      unfold Stream.performAll
      rw [performs]
      dsimp only
      rw [others]
      rfl

theorem openStream_writing
    {file : Handle} {options : Options} {bufferSize : Nat}
    {grant : Grant UInt8} (positive : 1 ≤ bufferSize)
    (fits : bufferSize < sizeLimit) (valid : file.valid = true)
    (forWriting : options.write = true)
    (opens : openStream (.ok file) options bufferSize grant = .ok opened) :
    Writing opened ∧ opened.direct = file := by
  rcases openStream_ready positive fits opens with
    ⟨ready, empty, _, same, reading⟩
  cases same
  refine ⟨⟨ready, valid, ?_⟩, direct_of_drained empty⟩
  rw [reading, forWriting, Bool.not_true, Bool.and_false]

/--
The main result: when `write` accepts all bytes and blocks are granted, a
stream for writing that is flushed or closed at the end leaves the file as
the same calls on the file leave it, and its calls return the same errors.
-/
theorem fstream_refines_file
    {file : Handle} {options : Options} {bufferSize : Nat}
    {grant : Grant UInt8} (positive : 1 ≤ bufferSize)
    (fits : bufferSize < sizeLimit) (valid : file.valid = true)
    (forWriting : options.write = true)
    (opens : openStream (.ok file) options bufferSize grant = .ok opened)
    (calls : List (Call × (Nat → Turn)))
    (accepts : ∀ call ∈ calls, ∀ i, Accepts (call.2 i))
    (last : Turn) (accepted : Accepts last) :
    ∃ fs flushed closed,
      opened.performAll calls =
        some ((onFileAll file (calls.map Prod.fst)).1, fs) ∧
      fs.flush last = some (none, flushed) ∧
      flushed.file = (onFileAll file (calls.map Prod.fst)).2 ∧
      fs.close last = some closed ∧
      closed.file.file = (onFileAll file (calls.map Prod.fst)).2.file := by
  rcases openStream_writing positive fits valid forWriting opens with
    ⟨writing, direct⟩
  rcases writing.performAll_spec calls accepts with
    ⟨fs, performs, writing', direct'⟩
  rw [direct] at performs direct'
  rcases writing'.flush_spec accepted with
    ⟨flushed, flushes, writing'', file', empty⟩
  rw [direct'] at file'
  rcases (⟨_, writing''.ready.destroy_eq⟩ :
      ∃ buffer, flushed.buffer.destroy = some buffer) with
    ⟨buffer, destroys⟩
  refine ⟨fs, flushed, ⟨flushed.file.close, buffer, flushed.reading⟩,
    performs, flushes, file', ?_, by rw [← file']; rfl⟩
  unfold Stream.close
  rw [flushes]
  dsimp only
  rw [destroys]
  rfl

/-- Every block is granted, and all bytes are accepted. -/
def plentiful : Turn := ⟨some (64, fun _ => 0), fun len => .ok len⟩

theorem plentiful_accepts : Accepts plentiful :=
  ⟨Option.some_ne_none _, fun _ => rfl⟩

/-- A file of three bytes. -/
def threeBytes : Handle := ⟨true, ⟨[1, 2, 3], 0, false, []⟩⟩

/-- A stream on it, for writing through two bytes. -/
def pairWriter : Stream :=
  ⟨threeBytes,
    ⟨some ⟨⟨64, 2⟩, [0, 0]⟩, 2, 0, 0, ⟨1, 1⟩, false, []⟩, false⟩

/-- A relative seek sees the byte that is still in the buffer. -/
theorem fstream_refines_file_calls :
    ∃ fs flushed,
      pairWriter.performAll
        [(.write [7, 8, 9], fun _ => plentiful),
          (.seek ⟨.current, some 1⟩, fun _ => plentiful),
          (.write [6], fun _ => plentiful)] = some ([none, none, none], fs) ∧
      fs.flush plentiful = some (none, flushed) ∧
      flushed.file.file.content = [7, 8, 9, 0, 6] := by
  have accepts : ∀ call ∈
      ([(.write [7, 8, 9], fun _ => plentiful),
        (.seek ⟨.current, some 1⟩, fun _ => plentiful),
        (.write [6], fun _ => plentiful)] : List (Call × (Nat → Turn))),
      ∀ i, Accepts (call.2 i) := by
    intro call among i
    simp only [List.mem_cons, List.not_mem_nil, or_false] at among
    rcases among with rfl | rfl | rfl <;> exact plentiful_accepts
  rcases fstream_refines_file (by decide)
    (by decide) (show threeBytes.valid = true from rfl) rfl
    (show openStream (.ok threeBytes) ⟨false, true⟩ 2
      (some (64, fun _ => 0)) = .ok pairWriter from rfl)
    _ accepts plentiful plentiful_accepts with
    ⟨fs, flushed, closed, performs, flushes, file, _⟩
  refine ⟨fs, flushed, performs, flushes, ?_⟩
  rw [file]
  decide +kernel

end Libcute.Io.FStream
