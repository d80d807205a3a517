import Libcute.Io.FStream.Writes

/-!
# Failed flushes

A flush drains the buffer before it writes the file.  When no block is
granted nothing was drained, and the bytes stay; when `cu_File_write` fails
they are gone.  `failed_flush_retains` says for every call of a stream for
writing when it keeps the bytes that earlier calls accepted, for a system
whose `write` accepts all bytes or fails.

Only the first flush of a call can meet such bytes: those that a later one
drains are bytes of the call.  They are accepted when the call succeeds, and
then none of them is lost.
-/

namespace Libcute.Io.FStream

open Libcute.Collection.Blocks
open Libcute.Collection.RingBuffer
open Libcute.Core.Size
open Libcute.Io.Error
open Libcute.Io.File

variable {fs fs' fs'' opened : Stream} {turn : Turn} {turns : Nat → Turn}
  {call : Call} {err : Option IoError} {bytes : List UInt8}

/-- The bytes that were stored in the file so far. -/
def Stream.stored (fs : Stream) : List UInt8 := fs.file.file.written

/-- The bytes that a call offers. -/
def Call.data : Call → List UInt8
  | .write data => data
  | _ => []

/--
Behind `base` come bytes of `data`, all of them when the call succeeds: those
that are stored, and then those in the buffer.
-/
def Follows
    (base data : List UInt8) (err : Option IoError) (fs : Stream) : Prop :=
  ∃ own : List UInt8, own.Sublist data ∧ (err = none → own = data) ∧
    fs.stored ++ fs.buffered = base ++ own

/--
What earlier calls accepted is stored or in the buffer, each byte once and in
order; behind it come bytes of the call, all of them when it succeeds.
-/
def Retains
    (fs fs' : Stream) (err : Option IoError) (data : List UInt8) : Prop :=
  Follows (fs.stored ++ fs.buffered) data err fs'

/--
The turn of the first flush that a call makes, and the number of bytes that
are flushed.
-/
def Stream.firstFlush (fs : Stream) : Call → Option (Nat × Nat)
  | .read _ => none
  | .write data =>
      let room := fs.buffer.capacity - fs.buffered.length
      if room < data.length then some (room, fs.buffer.capacity) else none
  | .flush => some (0, fs.buffered.length)
  | .seek _ => some (0, fs.buffered.length)

/-- A block is granted for the bytes, but `cu_File_write` fails. -/
def Fails (fs : Stream) (turn : Turn) (size : Nat) : Prop :=
  turn.grant ≠ none ∧
    (fs.file.valid = false ∨ ∃ errno, turn.answer size = .error errno)

/-- What `write` accepts is all that it is given. -/
def Whole (turn : Turn) : Prop :=
  ∀ len count, turn.answer len = .ok count → len ≤ count

/-- The first flush of a call drains bytes that cannot be written. -/
def Loses (fs : Stream) (call : Call) (turns : Nat → Turn) : Prop :=
  fs.buffered ≠ [] ∧
    ∃ i size, fs.firstFlush call = some (i, size) ∧ Fails fs (turns i) size

/-- Nothing is lost. -/
theorem Follows.all
    {base data : List UInt8}
    (sum : fs.stored ++ fs.buffered = base ++ data) :
    Follows base data err fs :=
  ⟨data, List.Sublist.refl _, fun _ => rfl, sum⟩

/-- A call that fails may lose bytes of its own. -/
theorem Follows.failed
    {base data own : List UInt8} {error : IoError}
    (among : own.Sublist data)
    (sum : fs.stored ++ fs.buffered = base ++ own) :
    Follows base data (some error) fs :=
  ⟨own, among, fun absent => absurd absent (Option.some_ne_none error), sum⟩

/-! ## One flush -/

theorem Handle.seek_written (handle : Handle) (seekTo : SeekTo) :
    (handle.seek seekTo).2.file.written = handle.file.written := by
  unfold Handle.seek Description.lseek
  dsimp only
  split
  · rfl
  · split
    · rfl
    · split
      · rfl
      · rename_i sought
        split_ifs at sought
        cases sought
        rfl

theorem Description.write_written
    (file : Description) (data : List UInt8) (accepted : Nat) :
    (file.write data accepted).written =
      file.written ++ data.take accepted := by
  unfold Description.write
  dsimp only
  split
  · rename_i nothing
    rw [List.isEmpty_iff.mp nothing, List.append_nil]
  · rfl

/-- The bytes that a write stores are the first ones, or all of them. -/
theorem Handle.write_written
    (handle : Handle) (data : List UInt8) (turn : Turn) :
    ∃ count, (handle.write data turn.answer).2.file.written =
        handle.file.written ++ data.take count ∧
      (Whole turn → (handle.write data turn.answer).1 = none →
        data.length ≤ count) := by
  unfold Handle.write
  split_ifs
  · exact ⟨0, by simp, fun _ succeeds => nomatch succeeds⟩
  · split
    · exact ⟨0, by simp, fun _ succeeds => nomatch succeeds⟩
    · rename_i count answers
      exact ⟨count, Description.write_written _ _ _,
        fun whole _ => whole _ _ answers⟩

/-- A flush changes nothing, or it drains the buffer and stores some bytes. -/
inductive Spends
    (fs fs' : Stream) (turn : Turn) (err : Option IoError) : Prop where
  | unchanged (same : fs' = fs) (empty : err = none → fs.buffered = [])
  | drains (count : Nat) (drained : fs'.buffered = [])
      (spent : fs'.stored = fs.stored ++ fs.buffered.take count)
      (all : Whole turn → err = none → fs.buffered.length ≤ count)

theorem Spends.drained
    (spends : Spends fs fs' turn err) (succeeds : err = none) :
    fs'.buffered = [] := by
  cases spends with
  | unchanged same empty => rw [same, empty succeeds]
  | drains _ drained _ _ => exact drained

/-- A flush that succeeds stores what the buffer holds. -/
theorem Spends.stores
    (spends : Spends fs fs' turn err) (whole : Whole turn)
    (succeeds : err = none) :
    fs'.stored = fs.stored ++ fs.buffered := by
  cases spends with
  | unchanged same empty => rw [same, empty succeeds, List.append_nil]
  | drains _ _ spent all =>
      rw [spent, List.take_of_length_le (all whole succeeds)]

theorem flushBuffer_cases (ready : Ready fs) (turn : Turn) :
    ∃ err fs', fs.flushBuffer turn = some (err, fs') ∧ Steady fs fs' ∧
      Spends fs fs' turn err := by
  by_cases empty : fs.buffered = []
  · exact ⟨none, fs, flushBuffer_empty ready empty, .refl ready,
      .unchanged rfl fun _ => empty⟩
  by_cases refused : turn.grant = none
  · exact ⟨some outOfMemory, fs, flushBuffer_refused ready empty refused,
      .refl ready, .unchanged rfl nofun⟩
  · rcases flushBuffer_granted ready empty refused with
      ⟨fs', flushes, file, drained, steady⟩
    rcases Handle.write_written fs.file fs.buffered turn with
      ⟨count, written, all⟩
    refine ⟨_, fs', flushes, steady, .drains count drained ?_ all⟩
    unfold Stream.stored
    rw [file, written]

/-! ## Bytes of the call -/

/--
Behind `base` come the bytes of `own`: those that are stored, and then those
in the buffer.
-/
def Covers (base own : List UInt8) (fs : Stream) : Prop :=
  ∃ later : List UInt8, fs.stored = base ++ later ∧
    later ++ fs.buffered = own

theorem Covers.follows
    {base own : List UInt8} (covers : Covers base own fs) :
    fs.stored ++ fs.buffered = base ++ own := by
  rcases covers with ⟨later, stored, rfl⟩
  rw [stored, List.append_assoc]

/-- The loop of a write keeps what is stored, whatever fails. -/
theorem Covers.writeLoop
    {base own : List UInt8} (covers : Covers base own fs) (ready : Ready fs)
    (whole : ∀ i, Whole (turns i)) (rest : List UInt8) (i : Nat)
    (writes : fs.writeLoop turns i rest = some (err, fs')) :
    Follows base (own ++ rest) err fs' := by
  induction rest generalizing fs own i with
  | nil =>
      unfold Stream.writeLoop at writes
      cases writes
      rw [List.append_nil]
      exact .all covers.follows
  | cons elem rest induction =>
      have within := ready.within
      rw [← ready.counted] at within
      have split : own ++ elem :: rest = own ++ [elem] ++ rest := by simp
      rcases Nat.lt_or_eq_of_le within with room | full
      · rcases covers with ⟨later, stored, rfl⟩
        rcases writeLoop_room ready room turns elem i with
          ⟨pushed, shown, file, steady, loops⟩
        rw [loops] at writes
        rw [split]
        refine induction ⟨later, ?_, ?_⟩ steady.ready (i + 1) writes
        · unfold Stream.stored at stored ⊢
          rw [file, stored]
        · rw [shown, ← List.append_assoc]
      · rcases flushBuffer_cases ready (turns i) with
          ⟨error, flushed, flushes, steady, spends⟩
        cases error with
        | some error =>
            rw [writeLoop_flush_fails ready full flushes elem rest] at writes
            cases writes
            cases spends with
            | unchanged same _ =>
                rw [same]
                exact .failed (List.sublist_append_left _ _) covers.follows
            | drains count drained spent _ =>
                -- the bytes of the call that the flush drained may be lost
                rcases covers with ⟨later, stored, rfl⟩
                refine @Follows.failed _ _ _
                  (later ++ fs.buffered.take count) _ ?_ ?_
                · exact ((List.Sublist.refl later).append
                    (List.take_sublist _ _)).trans
                    (List.sublist_append_left _ _)
                · rw [drained, List.append_nil, spent, stored,
                    List.append_assoc]
        | none =>
            have empty := spends.drained rfl
            rcases writeLoop_flushes ready full flushes empty steady elem
              rest with ⟨pushed, shown, file, steady', loops⟩
            rw [loops] at writes
            rw [split]
            refine induction ⟨own, ?_, by rw [shown]⟩ steady'.ready (i + 1)
              writes
            unfold Stream.stored at *
            rw [file, ← covers.follows]
            exact spends.stores (whole i) rfl

theorem writeLoop_total
    (ready : Ready fs) (turns : Nat → Turn) (rest : List UInt8) (i : Nat) :
    ∃ err fs', fs.writeLoop turns i rest = some (err, fs') ∧
      Steady fs fs' := by
  induction rest generalizing fs i with
  | nil => exact ⟨none, fs, rfl, .refl ready⟩
  | cons elem rest induction =>
      have within := ready.within
      rw [← ready.counted] at within
      rcases Nat.lt_or_eq_of_le within with room | full
      · rcases writeLoop_room ready room turns elem i with
          ⟨pushed, _, _, steady, loops⟩
        rcases induction steady.ready (i + 1) with
          ⟨err, fs', writes, steady'⟩
        exact ⟨err, fs', by rw [loops, writes], steady.trans steady'⟩
      · rcases flushBuffer_cases ready (turns i) with
          ⟨error, flushed, flushes, steady, spends⟩
        cases error with
        | some error =>
            exact ⟨some error, flushed,
              writeLoop_flush_fails ready full flushes elem rest, steady⟩
        | none =>
            rcases writeLoop_flushes ready full flushes (spends.drained rfl)
              steady elem rest with ⟨pushed, _, _, steady', loops⟩
            rcases induction steady'.ready (i + 1) with
              ⟨err, fs', writes, steady''⟩
            exact ⟨err, fs', by rw [loops, writes], steady'.trans steady''⟩

/-- Bytes for which the buffer has room are held back. -/
theorem writeLoop_front
    (ready : Ready fs) (front : List UInt8)
    (room : fs.buffered.length + front.length ≤ fs.buffer.capacity)
    (turns : Nat → Turn) (i : Nat) :
    ∃ fs', fs'.buffered = fs.buffered ++ front ∧ fs'.file = fs.file ∧
      Steady fs fs' ∧ ∀ rest,
        fs.writeLoop turns i (front ++ rest) =
          fs'.writeLoop turns (i + front.length) rest := by
  induction front generalizing fs i with
  | nil =>
      exact ⟨fs, (List.append_nil _).symm, rfl, .refl ready, fun _ => rfl⟩
  | cons elem front induction =>
      rw [List.length_cons] at room
      rcases writeLoop_room ready (by omega) turns elem i with
        ⟨pushed, shown, file, steady, loops⟩
      have room' : pushed.buffered.length + front.length ≤
          pushed.buffer.capacity := by
        rw [shown, List.length_append, List.length_singleton,
          steady.capacity]
        omega
      rcases induction steady.ready room' (i + 1) with
        ⟨fs', shown', file', steady', loops'⟩
      refine ⟨fs', ?_, file'.trans file, steady.trans steady', ?_⟩
      · rw [shown', shown, List.append_assoc, List.singleton_append]
      · intro rest
        rw [List.cons_append, loops, loops', List.length_cons,
          Nat.add_right_comm, Nat.add_assoc]

/-! ## The first flush -/

/-- A flush that does not fail halfway leaves every byte somewhere. -/
theorem flushBuffer_keeps
    (ready : Ready fs)
    (kept : ¬ Fails fs turn fs.buffered.length) (whole : Whole turn) :
    ∃ err fs', fs.flushBuffer turn = some (err, fs') ∧ Steady fs fs' ∧
      fs'.stored ++ fs'.buffered = fs.stored ++ fs.buffered ∧
      (err = none → fs'.buffered = []) := by
  by_cases empty : fs.buffered = []
  · exact ⟨none, fs, flushBuffer_empty ready empty, .refl ready, rfl,
      fun _ => empty⟩
  by_cases refused : turn.grant = none
  · exact ⟨some outOfMemory, fs, flushBuffer_refused ready empty refused,
      .refl ready, rfl, fun absent => nomatch absent⟩
  rcases flushBuffer_granted ready empty refused with
    ⟨fs', flushes, file, drained, steady⟩
  refine ⟨_, fs', flushes, steady, ?_, fun _ => drained⟩
  have valid : ¬ fs.file.valid = false :=
    fun invalid => kept ⟨refused, .inl invalid⟩
  unfold Stream.stored
  rw [file, drained, List.append_nil]
  unfold Handle.write
  rw [if_neg valid]
  cases answers : turn.answer fs.buffered.length with
  | error errno => exact absurd ⟨refused, .inr ⟨errno, answers⟩⟩ kept
  | ok count =>
      dsimp only
      rw [Description.write_written,
        List.take_of_length_le (whole _ _ answers)]

theorem flushBuffer_loses
    (ready : Ready fs) (filled : fs.buffered ≠ [])
    (fails : Fails fs turn fs.buffered.length) :
    ∃ err fs', fs.flushBuffer turn = some (some err, fs') ∧
      fs'.stored = fs.stored ∧ fs'.buffered = [] := by
  rcases fails with ⟨granted, cause⟩
  rcases flushBuffer_granted ready filled granted with
    ⟨fs', flushes, file, drained, _⟩
  have fails : ∃ err, fs.file.write fs.buffered turn.answer =
      (some err, fs.file) := by
    unfold Handle.write
    split_ifs with invalid
    · exact ⟨_, rfl⟩
    · rcases cause with closed | ⟨errno, answers⟩
      · exact absurd closed invalid
      · rw [answers]
        exact ⟨_, rfl⟩
  rcases fails with ⟨err, fails⟩
  rw [fails] at flushes file
  refine ⟨err, fs', flushes, ?_, drained⟩
  unfold Stream.stored
  rw [file]

theorem not_retains
    {data : List UInt8} (filled : fs.buffered ≠ [])
    (stored : fs'.stored = fs.stored) (drained : fs'.buffered = []) :
    ¬ Retains fs fs' err data := by
  rintro ⟨own, _, _, shown⟩
  rw [stored, drained, List.append_nil, List.append_assoc,
    List.self_eq_append_right] at shown
  exact filled (List.append_eq_nil_iff.mp shown).1

/-! ## The calls -/

/-- A write up to the byte before which it first flushes. -/
theorem write_front
    (ready : Ready fs) {data : List UInt8} {i size : Nat}
    (first : fs.firstFlush (.write data) = some (i, size))
    (turns : Nat → Turn) :
    ∃ front elem rest fs', data = front ++ elem :: rest ∧
      fs'.buffered = fs.buffered ++ front ∧ fs'.file = fs.file ∧
      Steady fs fs' ∧ fs'.buffered.length = size ∧
      fs'.buffered.length = fs'.buffer.capacity ∧
      fs.writeLoop turns 0 data = fs'.writeLoop turns i (elem :: rest) := by
  have within := ready.within
  rw [← ready.counted] at within
  unfold Stream.firstFlush at first
  dsimp only at first
  split_ifs at first with more
  cases first
  generalize room : fs.buffer.capacity - fs.buffered.length = i at more
  have long : (data.take i).length = i := by
    rw [List.length_take]
    omega
  rcases List.exists_cons_of_length_pos
    (show 0 < (data.drop i).length by rw [List.length_drop]; omega) with
    ⟨elem, rest, behind⟩
  rcases writeLoop_front ready (data.take i)
    (by rw [long]; omega) turns 0 with ⟨fs', shown, file, steady, loops⟩
  have split : data = data.take i ++ elem :: rest := by
    rw [← behind, List.take_append_drop]
  have whole : fs'.buffered.length = fs.buffer.capacity := by
    rw [shown, List.length_append, long]
    omega
  refine ⟨data.take i, elem, rest, fs', split, shown, file, steady, whole,
    by rw [whole, steady.capacity], ?_⟩
  conv_lhs => rw [split]
  rw [loops, long, Nat.zero_add]

theorem write_within
    (ready : Ready fs) {data : List UInt8}
    (none' : fs.firstFlush (.write data) = none) (turns : Nat → Turn) :
    ∃ fs', fs.writeLoop turns 0 data = some (none, fs') ∧
      fs'.stored = fs.stored ∧ fs'.buffered = fs.buffered ++ data := by
  have within := ready.within
  rw [← ready.counted] at within
  unfold Stream.firstFlush at none'
  dsimp only at none'
  split_ifs at none' with more
  rcases writeLoop_front ready data (by omega) turns 0 with
    ⟨fs', shown, file, _, loops⟩
  refine ⟨fs', ?_, by unfold Stream.stored; rw [file], shown⟩
  have writes := loops []
  rw [List.append_nil] at writes
  rw [writes]
  rfl

theorem writeLoop_retains
    (ready : Ready fs) {data : List UInt8}
    (kept : ¬ Loses fs (.write data) turns)
    (whole : ∀ i, Whole (turns i))
    (writes : fs.writeLoop turns 0 data = some (err, fs')) :
    Retains fs fs' err data := by
  by_cases empty : fs.buffered = []
  · have covers : Covers (fs.stored ++ fs.buffered) [] fs :=
      ⟨[], by rw [empty, List.append_nil, List.append_nil],
        by rw [empty]; rfl⟩
    exact covers.writeLoop ready whole data 0 writes
  cases first : fs.firstFlush (.write data) with
  | none =>
      rcases write_within ready first turns with
        ⟨final, shown, stored, buffered⟩
      rw [shown] at writes
      cases writes
      exact .all (by rw [stored, buffered, List.append_assoc])
  | some spot =>
      rcases spot with ⟨i, size⟩
      rcases write_front ready first turns with
        ⟨front, elem, rest, reached, rfl, shown, file, steady, long, full,
          loops⟩
      rw [loops] at writes
      have stored : reached.stored = fs.stored := by
        unfold Stream.stored
        rw [file]
      have fails : ¬ Fails reached (turns i) reached.buffered.length := by
        rw [long]
        unfold Fails
        rw [file]
        exact fun fails => kept ⟨empty, i, size, first, fails⟩
      rcases flushBuffer_keeps steady.ready fails (whole i) with
        ⟨error, flushed, flushes, steady', sum, drained⟩
      rw [stored, shown, ← List.append_assoc] at sum
      cases error with
      | some error =>
          rw [writeLoop_flush_fails steady.ready full flushes] at writes
          cases writes
          exact .failed (List.sublist_append_left _ _) sum
      | none =>
          rw [drained rfl, List.append_nil] at sum
          rcases writeLoop_flushes steady.ready full flushes (drained rfl)
            steady' elem rest with ⟨pushed, shown', file', steady'', loops'⟩
          rw [loops'] at writes
          have covers : Covers (fs.stored ++ fs.buffered) (front ++ [elem])
              pushed := by
            refine ⟨front, ?_, ?_⟩
            · rw [← sum]
              unfold Stream.stored
              rw [file']
            · rw [shown']
          have all := covers.writeLoop steady''.ready whole rest (i + 1)
            writes
          rw [List.append_assoc, List.singleton_append] at all
          exact all

theorem writeLoop_loses
    (ready : Ready fs) {data : List UInt8}
    (loses : Loses fs (.write data) turns)
    (writes : fs.writeLoop turns 0 data = some (err, fs')) :
    ¬ Retains fs fs' err data := by
  rcases loses with ⟨filled, i, size, first, fails⟩
  rcases write_front ready first turns with
    ⟨front, elem, rest, reached, _, shown, file, steady, long, full, loops⟩
  have filled' : reached.buffered ≠ [] := by
    rw [shown]
    exact fun nothing => filled (List.append_eq_nil_iff.mp nothing).1
  have fails' : Fails reached (turns i) reached.buffered.length := by
    rw [long]
    unfold Fails
    rw [file]
    exact fails
  rcases flushBuffer_loses steady.ready filled' fails' with
    ⟨error, flushed, flushes, stored, drained⟩
  rw [loops, writeLoop_flush_fails steady.ready full flushes] at writes
  cases writes
  refine not_retains filled ?_ drained
  rw [stored]
  unfold Stream.stored
  rw [file]

/-- The streams that calls make of an opened one. -/
inductive Reached (opened : Stream) : Stream → Prop where
  | opened : Reached opened opened
  | call {fs fs' : Stream} {call : Call} {turns : Nat → Turn}
      {err : Option IoError} {bytes : List UInt8}
      (earlier : Reached opened fs)
      (performs : fs.perform call turns = some (err, bytes, fs')) :
      Reached opened fs'

theorem perform_write
    (ready : Ready fs) (writes : fs.reading = false) (data : List UInt8)
    (turns : Nat → Turn) :
    ∃ err fs', fs.perform (.write data) turns = some (err, [], fs') ∧
      fs.writeLoop turns 0 data = some (err, fs') ∧ Steady fs fs' := by
  rcases writeLoop_total ready turns data 0 with
    ⟨err, fs', loops, steady⟩
  refine ⟨err, fs', ?_, loops, steady⟩
  dsimp only [Stream.perform]
  unfold Stream.write
  rw [if_neg (by rw [writes]; exact Bool.noConfusion), loops]
  rfl

theorem perform_read
    (writes : fs.reading = false) (buf : List UInt8) (turns : Nat → Turn) :
    fs.perform (.read buf) turns = some (some invalidInput, buf, fs) := by
  dsimp only [Stream.perform]
  unfold Stream.read
  rw [if_pos writes]

theorem perform_flush
    (ready : Ready fs) (writes : fs.reading = false) (turns : Nat → Turn) :
    ∃ err fs', fs.perform .flush turns = some (err, [], fs') ∧
      fs.flushBuffer (turns 0) = some (err, fs') ∧ Steady fs fs' := by
  rcases flushBuffer_cases ready (turns 0) with
    ⟨err, fs', flushes, steady, _⟩
  refine ⟨err, fs', ?_, flushes, steady⟩
  dsimp only [Stream.perform]
  unfold Stream.flush
  rw [if_pos writes, flushes]
  rfl

/-- A seek flushes first, and then it changes neither bytes nor the buffer. -/
theorem perform_seek
    (ready : Ready fs) (writes : fs.reading = false) (seekTo : SeekTo)
    (turns : Nat → Turn) :
    ∃ err flushed error fs',
      fs.perform (.seek seekTo) turns = some (error, [], fs') ∧
      fs.flushBuffer (turns 0) = some (err, flushed) ∧ Steady fs fs' ∧
      fs'.stored = flushed.stored ∧ fs'.buffered = flushed.buffered := by
  rcases flushBuffer_cases ready (turns 0) with
    ⟨err, flushed, flushes, steady, spends⟩
  have flushes' : fs.flush (turns 0) = some (err, flushed) := by
    unfold Stream.flush
    rw [if_pos writes, flushes]
  cases err with
  | some err =>
      refine ⟨some err, flushed, some err, flushed, ?_, flushes, steady, rfl,
        rfl⟩
      dsimp only [Stream.perform]
      unfold Stream.seek
      rw [flushes']
      rfl
  | none =>
      rcases steady.ready.clear_spec with
        ⟨buffer, clears, sound, empty, alike, _⟩
      refine ⟨none, flushed, (flushed.file.seek seekTo).1,
        ⟨(flushed.file.seek seekTo).2, buffer, flushed.reading⟩, ?_, flushes,
        ⟨sound, alike.capacity.trans steady.capacity, steady.reading⟩,
        Handle.seek_written _ _, ?_⟩
      · dsimp only [Stream.perform]
        unfold Stream.seek
        rw [flushes']
        dsimp only
        rw [clears]
        rfl
      · rw [spends.drained rfl]
        exact empty

/-! ## The main result -/

theorem flushBuffer_retains
    (ready : Ready fs) (whole : Whole turn)
    (flushes : fs.flushBuffer turn = some (err, fs')) :
    Retains fs fs' err [] ↔
      ¬ (fs.buffered ≠ [] ∧ Fails fs turn fs.buffered.length) := by
  constructor
  · rintro retains ⟨filled, fails⟩
    rcases flushBuffer_loses ready filled fails with
      ⟨error, lost, shown, stored, drained⟩
    rw [shown] at flushes
    cases flushes
    exact not_retains filled stored drained retains
  · intro kept
    by_cases empty : fs.buffered = []
    · rw [flushBuffer_empty ready empty] at flushes
      cases flushes
      exact .all (List.append_nil _).symm
    · rcases flushBuffer_keeps ready (fun fails => kept ⟨empty, fails⟩)
        whole with ⟨error, final, shown, _, sum, _⟩
      rw [shown] at flushes
      cases flushes
      exact .all (by rw [sum, List.append_nil])

/-- Nothing is offered, so that the error makes no difference. -/
theorem retains_congr
    {fs'' : Stream} {error : Option IoError}
    (stored : fs''.stored = fs'.stored)
    (buffered : fs''.buffered = fs'.buffered) :
    Retains fs fs'' error [] ↔ Retains fs fs' err [] := by
  unfold Retains Follows
  rw [stored, buffered]
  constructor
  · rintro ⟨own, among, _, sum⟩
    exact ⟨own, among, fun _ => List.sublist_nil.mp among, sum⟩
  · rintro ⟨own, among, _, sum⟩
    exact ⟨own, among, fun _ => List.sublist_nil.mp among, sum⟩

theorem loses_start_iff
    (first : fs.firstFlush call = some (0, fs.buffered.length)) :
    Loses fs call turns ↔
      fs.buffered ≠ [] ∧ Fails fs (turns 0) fs.buffered.length := by
  unfold Loses
  rw [first]
  constructor
  · rintro ⟨filled, i, size, same, fails⟩
    cases same
    exact ⟨filled, fails⟩
  · rintro ⟨filled, fails⟩
    exact ⟨filled, 0, _, rfl, fails⟩

/-- A call of a stream for writing keeps the bytes, or it loses them. -/
theorem perform_retains
    (ready : Ready fs) (writes : fs.reading = false) (call : Call)
    (turns : Nat → Turn) (whole : ∀ i, Whole (turns i)) :
    ∃ err bytes fs', fs.perform call turns = some (err, bytes, fs') ∧
      Steady fs fs' ∧
      (Retains fs fs' err call.data ↔ ¬ Loses fs call turns) := by
  cases call with
  | read buf =>
      refine ⟨_, buf, fs, perform_read writes buf turns, .refl ready,
        fun _ => ?_, fun _ => .all (List.append_nil _).symm⟩
      rintro ⟨_, i, size, first, _⟩
      cases first
  | write data =>
      rcases perform_write ready writes data turns with
        ⟨err, fs', performs, loops, steady⟩
      refine ⟨err, [], fs', performs, steady, fun retains loses => ?_,
        fun kept => writeLoop_retains ready kept whole loops⟩
      exact writeLoop_loses ready loses loops retains
  | flush =>
      rcases perform_flush ready writes turns with
        ⟨err, fs', performs, flushes, steady⟩
      refine ⟨err, [], fs', performs, steady, ?_⟩
      rw [loses_start_iff rfl]
      exact flushBuffer_retains ready (whole 0) flushes
  | seek seekTo =>
      rcases perform_seek ready writes seekTo turns with
        ⟨err, flushed, error, fs', performs, flushes, steady, stored,
          buffered⟩
      refine ⟨error, [], fs', performs, steady, ?_⟩
      rw [loses_start_iff rfl]
      exact (retains_congr stored buffered).trans
        (flushBuffer_retains ready (whole 0) flushes)

theorem perform_steady
    (ready : Ready fs) (writes : fs.reading = false) (call : Call)
    (turns : Nat → Turn) :
    ∃ err bytes fs', fs.perform call turns = some (err, bytes, fs') ∧
      Steady fs fs' := by
  cases call with
  | read buf =>
      exact ⟨_, buf, fs, perform_read writes buf turns, .refl ready⟩
  | write data =>
      rcases perform_write ready writes data turns with
        ⟨err, fs', performs, _, steady⟩
      exact ⟨err, [], fs', performs, steady⟩
  | flush =>
      rcases perform_flush ready writes turns with
        ⟨err, fs', performs, _, steady⟩
      exact ⟨err, [], fs', performs, steady⟩
  | seek seekTo =>
      rcases perform_seek ready writes seekTo turns with
        ⟨_, _, error, fs', performs, _, steady, _⟩
      exact ⟨error, [], fs', performs, steady⟩

theorem Reached.ready
    (reached : Reached opened fs) (ready : Ready opened)
    (writes : opened.reading = false) : Ready fs ∧ fs.reading = false := by
  induction reached with
  | opened => exact ⟨ready, writes⟩
  | @call fs fs' call turns err bytes _ performs induction =>
      rcases perform_steady induction.1 induction.2 call turns with
        ⟨_, _, final, shown, steady⟩
      rw [shown] at performs
      cases performs
      exact ⟨steady.ready, steady.reading.trans induction.2⟩

/-- A flush that succeeds stores what the buffer holds. -/
theorem flush_stores
    (ready : Ready fs) (writes : fs.reading = false) (whole : Whole turn)
    (flushes : fs.flush turn = some (none, fs')) :
    fs'.stored = fs.stored ++ fs.buffered ∧ fs'.buffered = [] := by
  unfold Stream.flush at flushes
  rw [if_pos writes] at flushes
  rcases flushBuffer_cases ready turn with
    ⟨err, final, shown, _, spends⟩
  rw [shown] at flushes
  cases flushes
  exact ⟨spends.stores whole rfl, spends.drained rfl⟩

/--
The main result: a call of a stream for writing keeps what was accepted
before it, and what it accepts itself, unless a block is granted for the bytes
in the buffer and the file cannot be written.  What is kept is stored, each
byte once, by a later flush that succeeds.
-/
theorem failed_flush_retains
    {file : Handle} {options : Options} {bufferSize : Nat}
    {grant : Grant UInt8} (positive : 1 ≤ bufferSize)
    (fits : bufferSize < sizeLimit) (forWriting : options.write = true)
    (opens : openStream (.ok file) options bufferSize grant = .ok opened)
    (reached : Reached opened fs) (call : Call) (turns : Nat → Turn)
    (whole : ∀ i, Whole (turns i)) :
    ∃ err bytes fs', fs.perform call turns = some (err, bytes, fs') ∧
      (Retains fs fs' err call.data ↔ ¬ Loses fs call turns) ∧
      (Retains fs fs' err call.data → ∀ last flushed, Whole last →
        fs'.flush last = some (none, flushed) →
        ∃ own : List UInt8, own.Sublist call.data ∧
          (err = none → own = call.data) ∧
          flushed.stored = fs.stored ++ fs.buffered ++ own ∧
          flushed.buffered = []) := by
  rcases openStream_ready positive fits opens with
    ⟨ready, _, _, _, reading⟩
  rw [forWriting, Bool.not_true, Bool.and_false] at reading
  rcases reached.ready ready reading with ⟨ready', writes⟩
  rcases perform_retains ready' writes call turns whole with
    ⟨err, bytes, fs', performs, steady, retains_iff⟩
  refine ⟨err, bytes, fs', performs, retains_iff, ?_⟩
  rintro ⟨own, among, all, sum⟩ last flushed whole' flushes
  rcases flush_stores steady.ready (steady.reading.trans writes) whole'
    flushes with ⟨stored, drained⟩
  exact ⟨own, among, all, stored.trans sum, drained⟩

/-- The stream of two bytes, after one byte was written. -/
def pairHolding : Stream :=
  ⟨threeBytes,
    ⟨some ⟨⟨64, 2⟩, [7, 0]⟩, 2, 0, 1, ⟨1, 1⟩, false, []⟩, false⟩

theorem pairHolding_reached : Reached pairWriter pairHolding :=
  .call .opened
    (show pairWriter.perform (.write [7]) (fun _ => plentiful) =
      some (none, [], pairHolding) from rfl)

/-- No block is granted. -/
def refusing : Turn := ⟨none, fun len => .ok len⟩

/-- The bytes stay when no block is granted. -/
theorem failed_flush_retains_byte :
    ∃ err bytes fs',
      pairHolding.perform .flush (fun _ => refusing) =
        some (err, bytes, fs') ∧
      Retains pairHolding fs' err [] := by
  rcases failed_flush_retains (by decide) (by decide) rfl
    (show openStream (.ok threeBytes) ⟨false, true⟩ 2
      (some (64, fun _ => 0)) = .ok pairWriter from rfl)
    pairHolding_reached .flush (fun _ => refusing)
    (fun _ size count answers => (Except.ok.inj answers).le) with
    ⟨err, bytes, fs', performs, retains_iff, _⟩
  refine ⟨err, bytes, fs', performs, retains_iff.mpr ?_⟩
  rintro ⟨_, _, _, _, fails⟩
  exact fails.1 rfl

/-- The disk is full (`ENOSPC`). -/
def exhausted : Turn := ⟨some (64, fun _ => 0), fun _ => .error 28⟩

/-- The byte is lost when the file cannot be written. -/
theorem failed_flush_loses_byte :
    ∃ fs err fs', Reached pairWriter fs ∧
      fs.stored ++ fs.buffered = [7] ∧
      fs.flush exhausted = some (some err, fs') ∧
      ¬ Retains fs fs' (some err) [] ∧
      fs'.flush plentiful = some (none, fs') ∧ fs'.stored = [] := by
  refine ⟨pairHolding, fromErrno 28,
    ⟨threeBytes, ⟨some ⟨⟨64, 2⟩, [7, 0]⟩, 2, 1, 0, ⟨1, 1⟩, false, []⟩,
      false⟩, pairHolding_reached, by decide, rfl, ?_, rfl, rfl⟩
  exact not_retains (by decide) rfl (by decide)

end Libcute.Io.FStream
