import Libcute.Collection.RingBuffer.Divisors
import Libcute.Io.FStream.Failures

/-!
# Streams without room

`cu_FStream_open` takes any buffer size.  A buffer without room is not full
for the loop of a write, which therefore does not flush but pushes.
`remainders_spared` says that a write of a byte through such a buffer is the
only step of a stream, and a push the only call of the buffer, that takes a
remainder by 0.
-/

namespace Libcute.Io.FStream

open Libcute.Collection.Blocks
open Libcute.Collection.RingBuffer
open Libcute.Core.Interface (Layout)
open Libcute.Core.Size
open Libcute.Io.Error
open Libcute.Io.File

variable {fs fs' opened : Stream} {turn : Turn} {turns : Nat → Turn}
  {buffer : RingBuf UInt8} {data : List UInt8} {err : Option IoError}

/-- The divisors of the remainders that the loop of pops takes. -/
def drainDivisors (buffer : RingBuf UInt8) : Nat → List Nat
  | 0 => []
  | count + 1 =>
      buffer.divisors .pop ++
        match buffer.pop with
        | none => []
        | some (_, buffer) => drainDivisors buffer count

namespace Stream

/-- The divisors in `cu_FStream_flush_buffer`. -/
def flushBufferDivisors (fs : Stream) (turn : Turn) : List Nat :=
  let len := fs.buffer.length
  if len = 0 then
    []
  else
    match allocObject turn.grant (Layout.create len 1) 1 with
    | none => []
    | some _ => drainDivisors fs.buffer len

/-- The divisors in `cu_FStream_flush_impl`. -/
def flushDivisors (fs : Stream) (turn : Turn) : List Nat :=
  if fs.reading = false then fs.flushBufferDivisors turn else []

/-- The divisors in the loop of `write`, for the bytes from `i` on. -/
def writeLoopDivisors (fs : Stream) (turns : Nat → Turn) (i : Nat) :
    List UInt8 → List Nat
  | [] => []
  | elem :: rest =>
      (if fs.buffer.isFull then fs.flushBufferDivisors (turns i) else []) ++
        match fs.makeRoom (turns i) with
        | none => []
        | some (some _, _) => []
        | some (none, fs) =>
            fs.buffer.divisors (.push elem) ++
              match fs.buffer.push elem with
              | none => []
              | some (_, buffer) =>
                  ({ fs with buffer := buffer } : Stream).writeLoopDivisors
                    turns (i + 1) rest

/-- The divisors in `cu_FStream_write`. -/
def writeDivisors (fs : Stream) (data : List UInt8) (turns : Nat → Turn) :
    List Nat :=
  if fs.reading = true then [] else fs.writeLoopDivisors turns 0 data

/-- The write pushes nothing, or the buffer has room. -/
def Spares (fs : Stream) (data : List UInt8) : Prop :=
  fs.reading = true ∨ data = [] ∨ 0 < fs.buffer.capacity

end Stream

/-- The streams that flushes and spared writes make of an opened one. -/
inductive Streamed (opened : Stream) : Stream → Prop where
  | opened : Streamed opened opened
  | write {fs fs' : Stream} {data : List UInt8} {turns : Nat → Turn}
      {err : Option IoError}
      (earlier : Streamed opened fs) (spared : fs.Spares data)
      (writes : fs.write data turns = some (err, fs')) : Streamed opened fs'
  | flush {fs fs' : Stream} {turn : Turn} {err : Option IoError}
      (earlier : Streamed opened fs)
      (flushes : fs.flush turn = some (err, fs')) : Streamed opened fs'

/--
The buffer is guarded, and the stream takes a remainder by 0 exactly in a
write that is not spared.
-/
structure Unfailing (fs : Stream) : Prop where
  buffer : Guarded fs.buffer
  writes : ∀ data turns, 0 ∉ fs.writeDivisors data turns ↔ fs.Spares data
  flushes : ∀ turn, 0 ∉ fs.flushDivisors turn

/-! ## A remainder by 0 has no result -/

theorem drainLoop_divisors
    {count : Nat} (divides : 0 ∈ drainDivisors buffer count)
    (tmp : List UInt8) (i : Nat) : drainLoop buffer tmp i count = none := by
  induction count generalizing buffer tmp i with
  | zero => cases divides
  | succ count induction =>
      unfold drainDivisors at divides
      unfold drainLoop
      rcases List.mem_append.mp divides with pops | later
      · have absent := perform_divisors pops
        dsimp only [RingBuf.perform] at absent
        rw [Option.map_eq_none_iff.mp absent]
      · rcases pops : buffer.pop with _ | ⟨_ | elem, popped⟩
        · rfl
        · rw [pops] at later
          exact induction later tmp (i + 1)
        · rw [pops] at later
          dsimp only
          split_ifs
          · exact induction later _ (i + 1)
          · rfl

theorem flushBuffer_divisors (divides : 0 ∈ fs.flushBufferDivisors turn) :
    fs.flushBuffer turn = none := by
  unfold Stream.flushBufferDivisors at divides
  unfold Stream.flushBuffer
  dsimp only at divides ⊢
  by_cases empty : fs.buffer.length = 0
  · rw [if_pos empty] at divides
    cases divides
  · rw [if_neg empty] at divides ⊢
    cases allocates : allocObject turn.grant
        (Layout.create fs.buffer.length 1) 1 with
    | none =>
        rw [allocates] at divides
        cases divides
    | some mem =>
        rw [allocates] at divides
        dsimp only
        rw [drainLoop_divisors divides]

theorem flush_divisors (divides : 0 ∈ fs.flushDivisors turn) :
    fs.flush turn = none := by
  unfold Stream.flushDivisors at divides
  unfold Stream.flush
  split_ifs at divides ⊢
  · exact flushBuffer_divisors divides
  · cases divides

theorem writeLoop_divisors
    {i : Nat} (divides : 0 ∈ fs.writeLoopDivisors turns i data) :
    fs.writeLoop turns i data = none := by
  induction data generalizing fs i with
  | nil =>
      unfold Stream.writeLoopDivisors at divides
      cases divides
  | cons elem rest induction =>
      unfold Stream.writeLoopDivisors at divides
      unfold Stream.writeLoop
      rcases List.mem_append.mp divides with flushes | later
      · split_ifs at flushes with full
        · unfold Stream.makeRoom
          rw [if_pos full, flushBuffer_divisors flushes]
        · cases flushes
      · rcases room : fs.makeRoom (turns i) with _ | ⟨_ | error, made⟩
        · rfl
        · rw [room] at later
          dsimp only at later ⊢
          rcases List.mem_append.mp later with first | others
          · have absent := perform_divisors first
            dsimp only [RingBuf.perform] at absent
            rw [Option.map_eq_none_iff.mp absent]
          · rcases pushes : made.buffer.push elem with _ | ⟨refused, pushed⟩
            · rfl
            · rw [pushes] at others
              exact induction others
        · rw [room] at later
          cases later

/-! ## One step -/

/-- The invariant of all streams, with and without room in the buffer. -/
inductive Roomed (fs : Stream) : Prop where
  | ready (ready : Ready fs)
  | roomless (bounded : Bounded fs.buffer) (without : fs.buffer.capacity = 0)

theorem Roomed.bounded (roomed : Roomed fs) : Bounded fs.buffer := by
  cases roomed with
  | ready ready => exact ⟨ready.layout, ready.within⟩
  | roomless bounded _ => exact bounded

theorem openStream_roomed
    {fres : Except IoError Handle} {options : Options} {bufferSize : Nat}
    {grant : Grant UInt8} (fits : bufferSize < sizeLimit)
    (opens : openStream fres options bufferSize grant = .ok opened) :
    Roomed opened := by
  rcases Nat.eq_zero_or_pos bufferSize with rfl | positive
  · unfold openStream at opens
    split at opens
    · cases opens
    · split at opens
      · cases opens
      · rename_i buffer created
        have bounded := create_bounded created
        cases opens
        refine .roomless bounded ?_
        cases created
        rfl
  · exact .ready (openStream_ready positive fits opens).1

/-- There is nothing to flush in a buffer without room. -/
theorem flushBuffer_roomless
    (bounded : Bounded fs.buffer) (without : fs.buffer.capacity = 0)
    (turn : Turn) : fs.flushBuffer turn = some (none, fs) := by
  have within := bounded.within
  unfold Stream.flushBuffer
  dsimp only
  rw [if_pos (by omega)]

/-- A flush always has a result. -/
theorem Roomed.flush_total (roomed : Roomed fs) (turn : Turn) :
    ∃ err fs', fs.flush turn = some (err, fs') ∧ Roomed fs' := by
  unfold Stream.flush
  split_ifs
  · cases roomed with
    | ready ready =>
        rcases flushBuffer_cases ready turn with
          ⟨err, fs', flushes, steady, _⟩
        exact ⟨err, fs', flushes, .ready steady.ready⟩
    | roomless bounded without =>
        exact ⟨none, fs, flushBuffer_roomless bounded without turn,
          .roomless bounded without⟩
  · exact ⟨none, fs, rfl, roomed⟩

/-- A spared write always has a result. -/
theorem Roomed.write_total
    (roomed : Roomed fs) (spared : fs.Spares data) (turns : Nat → Turn) :
    ∃ err fs', fs.write data turns = some (err, fs') ∧ Roomed fs' := by
  unfold Stream.write
  split_ifs with reading
  · exact ⟨some invalidInput, fs, rfl, roomed⟩
  · rcases spared with reads | rfl | positive
    · exact absurd reads reading
    · exact ⟨none, fs, rfl, roomed⟩
    · cases roomed with
      | ready ready =>
          rcases writeLoop_total ready turns data 0 with
            ⟨err, fs', writes, steady⟩
          exact ⟨err, fs', writes, .ready steady.ready⟩
      | roomless _ without => omega

/-- The first push of a write that is not spared takes a remainder by 0. -/
theorem writeDivisors_unspared (roomed : Roomed fs)
    (unspared : ¬ fs.Spares data) (turns : Nat → Turn) :
    0 ∈ fs.writeDivisors data turns := by
  unfold Stream.Spares at unspared
  rw [not_or, not_or] at unspared
  rcases unspared with ⟨writing, some', without⟩
  rcases List.exists_cons_of_ne_nil some' with ⟨elem, rest, rfl⟩
  have free : ¬ fs.buffer.isFull = true := by
    unfold RingBuf.isFull
    simp [without]
  unfold Stream.writeDivisors
  rw [if_neg writing]
  unfold Stream.writeLoopDivisors Stream.makeRoom
  rw [if_neg free, if_neg free]
  have pushes : fs.buffer.divisors (.push elem) = [0] := by
    unfold RingBuf.divisors
    dsimp only
    rw [if_neg (by rw [not_or]; exact ⟨roomed.bounded.layout, free⟩),
      Nat.eq_zero_of_not_pos without]
  dsimp only
  rw [pushes]
  exact List.mem_append_right _ (List.mem_append_left _ List.mem_cons_self)

theorem Roomed.writeDivisors_iff
    (roomed : Roomed fs) (data : List UInt8) (turns : Nat → Turn) :
    0 ∉ fs.writeDivisors data turns ↔ fs.Spares data := by
  constructor
  · intro divides
    by_contra unspared
    exact divides (writeDivisors_unspared roomed unspared turns)
  · intro spared divides
    rcases roomed.write_total spared turns with ⟨err, fs', writes, _⟩
    unfold Stream.writeDivisors at divides
    unfold Stream.write at writes
    split_ifs at divides writes
    · cases divides
    · rw [writeLoop_divisors divides] at writes
      cases writes

theorem Roomed.unfailing (roomed : Roomed fs) : Unfailing fs where
  buffer := roomed.bounded.guarded
  writes := roomed.writeDivisors_iff
  flushes turn divides := by
    rcases roomed.flush_total turn with ⟨err, fs', flushes, _⟩
    rw [flush_divisors divides] at flushes
    cases flushes

/-! ## Runs -/

/-- The run lemma. -/
theorem Streamed.roomed
    (streamed : Streamed opened fs) (roomed : Roomed opened) : Roomed fs := by
  induction streamed with
  | opened => exact roomed
  | write _ spared writes induction =>
      rcases induction.write_total spared _ with ⟨err, fs', same, kept⟩
      rw [same] at writes
      cases writes
      exact kept
  | flush _ flushes induction =>
      rcases induction.flush_total _ with ⟨err, fs', same, kept⟩
      rw [same] at flushes
      cases flushes
      exact kept

/--
The main result: as long as nothing is pushed to a buffer without room, no
remainder by 0 is taken, no more elements than the capacity are held, and a
push to a full buffer is an error.
-/
theorem remainders_spared
    {T : Type} {layout : Layout} {capacity : Nat} {destructor : Bool}
    {memory : Grant T} {fresh rb : RingBuf T}
    {fres : Except IoError Handle} {options : Options} {bufferSize : Nat}
    {grant : Grant UInt8}
    (created : RingBuf.create layout capacity destructor memory = .ok fresh)
    (reached : Collection.RingBuffer.Reached fresh rb)
    (fits : bufferSize < sizeLimit)
    (opens : openStream fres options bufferSize grant = .ok opened)
    (streamed : Streamed opened fs) :
    Guarded rb ∧ Unfailing fs :=
  ⟨(reached.bounded (create_bounded created)).guarded,
    (streamed.roomed (openStream_roomed fits opens)).unfailing⟩

/-- A ring buffer of two bytes, and a stream through two bytes. -/
theorem remainders_spared_pair :
    (∃ rb : RingBuf UInt8, rb.length = 1 ∧ Guarded rb) ∧
      ∃ fs, pairWriter.write [7] (fun _ => plentiful) = some (none, fs) ∧
        Unfailing fs := by
  rcases pushes : pairWriter.buffer.perform (.push 7) with
    _ | ⟨reply, rb⟩
  · exact absurd pushes (by decide)
  rcases writes : pairWriter.write [7] (fun _ => plentiful) with
    _ | ⟨err, written⟩
  · exact absurd writes (by decide)
  have accepted : err = none ∧ rb.length = 1 := by
    cases writes
    cases pushes
    exact ⟨rfl, rfl⟩
  rcases accepted with ⟨rfl, one⟩
  rcases remainders_spared
    (show RingBuf.create ⟨1, 1⟩ 2 false (some (64, fun _ => 0)) =
      .ok pairWriter.buffer from rfl)
    (.call .fresh (show Collection.RingBuffer.Spared pairWriter.buffer
      (.push 7) by decide) pushes) (by decide)
    (show openStream (.ok threeBytes) ⟨false, true⟩ 2
      (some (64, fun _ => 0)) = .ok pairWriter from rfl)
    (.write .opened (.inr (.inr (show 0 < 2 by decide))) writes) with
    ⟨guarded, unfailing⟩
  exact ⟨⟨rb, one, guarded⟩, written, rfl, unfailing⟩

/--
A ring buffer of capacity 0 holds its 0 elements and takes a remainder by 0
for a push; so does a stream through it for a byte.
-/
theorem remainders_roomless :
    (∃ fresh : RingBuf UInt8,
      RingBuf.create ⟨1, 1⟩ 0 false none = .ok fresh ∧
        fresh.length = fresh.capacity ∧ fresh.divisors (.push 7) = [0] ∧
        fresh.perform (.push 7) = none) ∧
      ∃ opened, openStream (.ok threeBytes) ⟨false, true⟩ 0 none =
          .ok opened ∧
        opened.writeDivisors [7] (fun _ => plentiful) = [0] ∧
        opened.write [7] (fun _ => plentiful) = none :=
  ⟨⟨_, rfl, rfl, by decide, rfl⟩, ⟨_, rfl, by decide, rfl⟩⟩

end Libcute.Io.FStream
