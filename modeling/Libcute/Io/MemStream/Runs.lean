import Libcute.Collection.Vector.Calls
import Libcute.Io.MemStream
import Libcute.Library.Transition

/-!
# Runs of the memory stream

The stream refines a file in memory with a cursor.  `Does` says what a call
does to such a file, and `memStream_refines` that every call of every run does
that, whatever the allocator grants: a write fails exactly when the memory it
needs is refused.
-/

namespace Libcute.Io.MemStream

open Libcute.Collection.Blocks
open Libcute.Collection.Vector (Vec Valid elements_of_data create_valid)
open Libcute.Core.Size
open Libcute.Io.Error
open Libcute.Io.File
open Libcute.Library.ByteFile
open Libcute.Library.Transition

variable {stream fresh : Mem} {buffer : Vec UInt8} {grant : Grant UInt8}
  {index count : Nat} {bytes : List UInt8}

/-- A file in memory. -/
structure Reference where
  content : List UInt8
  cursor : Nat

/-- A call of the interface. -/
inductive Call where
  | read (length : Nat)
  | write (data : List UInt8)
  | seek (seekTo : SeekTo)
  | tell

/-- What a call returns. -/
inductive Reply where
  | read (error : Option IoError) (bytes : List UInt8)
  | wrote (error : Option IoError)
  | sought (error : Option IoError)
  | told (position : Nat)

/-- Where a seek starts from. -/
def Reference.base (file : Reference) : Whence → Option Nat
  | .start => some 0
  | .current => some file.cursor
  | .finish => some file.content.length
  | .other => none

/-- What a call does to a file in memory; `refused` is that it gets none. -/
def Does (file : Reference) (call : Call) (refused : Prop) (reply : Reply)
    (file' : Reference) : Prop :=
  match call, reply with
  | .read length, .read error bytes =>
      bytes = (file.content.drop file.cursor).take length ∧
        file' = { file with cursor := file.cursor + bytes.length } ∧
        error =
          if file.content.length < file.cursor + length then
            some unexpectedEof
          else
            none
  | .write data, .wrote none =>
      ¬ refused ∧
        file' =
          ⟨overwrite 0 file.content file.cursor data,
            file.cursor + data.length⟩
  | .write data, .wrote (some error) =>
      refused ∧ error = outOfMemory ∧ file' = file ∧
        file.content.length < file.cursor + data.length
  | .seek seekTo, .sought error =>
      match file.base seekTo.whence with
      | none => error = some invalidInput ∧ file' = file
      | some base =>
          let target := base + seekTo.offset.getD 0
          if target ≤ file.content.length then
            error = none ∧ file' = { file with cursor := target }
          else
            error = some invalidInput ∧ file' = file
  | .tell, .told position => position = file.cursor ∧ file' = file
  | _, _ => False

/-- The file that a stream stands for. -/
def Mem.file (stream : Mem) : Reference :=
  ⟨stream.buffer.elements, stream.pos⟩

/-- Make a call. -/
def Mem.perform (stream : Mem) (call : Call) (grant : Grant UInt8) :
    Option (Reply × Mem) :=
  match call with
  | .read length =>
      (stream.read length).map fun (error, bytes, stream) =>
        (.read error bytes, stream)
  | .write data =>
      (stream.write data grant).map fun (error, stream) =>
        (.wrote error, stream)
  | .seek seekTo =>
      let sought := stream.seek seekTo
      some (.sought sought.1, sought.2)
  | .tell => some (.told stream.tell, stream)

/-- The buffer has no room for the bytes of a write, and gets none. -/
def Mem.Refused (stream : Mem) (call : Call) (grant : Grant UInt8) : Prop :=
  match call with
  | .write data =>
      grant = none ∧ stream.buffer.capacity < stream.pos + data.length
  | _ => False

/--
The bytes of a write and those in front of the cursor are objects of one
address space, so their sizes do not add up to `2 ^ 64`; and the sum of a
seek does not wrap.
-/
def Permitted (stream : Mem) : Call → Prop
  | .read _ => True
  | .write data => stream.pos + data.length < sizeLimit
  | .seek seekTo => ∀ base, stream.file.base seekTo.whence = some base →
      base + seekTo.offset.getD 0 < sizeLimit
  | .tell => True

/-- What runs of calls make of an empty file. -/
inductive ReferenceRun : Reference → Prop where
  | start : ReferenceRun ⟨[], 0⟩
  | call {file file' : Reference} {call : Call} {refused : Prop}
      {reply : Reply} (earlier : ReferenceRun file)
      (does : Does file call refused reply file') :
      ReferenceRun file'

/-- The stream is a file in memory. -/
structure Refines (stream : Mem) : Prop where
  within : stream.pos ≤ stream.buffer.length
  length : stream.file.content.length = stream.buffer.length
  reached : ReferenceRun stream.file
  calls : ∀ call grant, Permitted stream call →
    ∃ reply stream', stream.perform call grant = some (reply, stream') ∧
      Does stream.file call (stream.Refused call grant) reply stream'.file

/-! ## The buffer -/

/-- The invariant of a memory stream. -/
structure Good (stream : Mem) : Prop where
  valid : Valid stream.buffer
  stored : 0 < stream.buffer.capacity
  layout : stream.buffer.layout = ⟨1, 1⟩
  within : stream.pos ≤ stream.buffer.length

theorem Good.data (good : Good stream) :
    ∃ storage, stream.buffer.data = some storage := by
  cases data : stream.buffer.data with
  | none =>
      have vacant := good.valid.vacant data
      have stored := good.stored
      omega
  | some storage => exact ⟨storage, rfl⟩

theorem Good.fits (good : Good stream) :
    stream.buffer.length < sizeLimit := by
  have fits := good.valid.fits
  have within := good.valid.within
  rw [good.layout] at fits
  dsimp only at fits
  omega

theorem subslice_eq
    {storage : Storage UInt8} (data : buffer.data = some storage)
    (inside : index + count ≤ buffer.length)
    (fits : buffer.length < sizeLimit) :
    buffer.subslice index count = some (index, count) := by
  unfold Vec.subslice
  rw [data, sizeAdd_eq (by omega), if_neg, if_neg (by omega)]
  simp
  omega

theorem view_eq
    {storage : Storage UInt8} (valid : Valid buffer)
    (data : buffer.data = some storage)
    (inside : index + count ≤ buffer.length) :
    view buffer index count =
      some ((buffer.elements.drop index).take count) := by
  have long := valid.slots _ data
  have within := valid.within
  unfold view
  rw [data]
  dsimp only
  rw [if_pos (by omega), elements_of_data data, List.drop_take,
    List.take_take, Nat.min_eq_left (by omega)]

/-- Bytes that are copied into the buffer leave it valid. -/
theorem fill_valid
    {buffer' : Vec UInt8} (valid : Valid buffer)
    (fills : fill buffer index bytes = some buffer') :
    Valid buffer' ∧ buffer'.layout = buffer.layout ∧
      buffer'.length = buffer.length := by
  unfold fill at fills
  split at fills
  · cases fills
  · rename_i storage data
    split_ifs at fills with inside
    cases fills
    have whole : (storage.slots.take index ++ bytes ++
        storage.slots.drop (index + bytes.length)).length =
          storage.slots.length := by
      rw [List.length_append, List.length_append, List.length_take,
        List.length_drop]
      omega
    have becomes := valid.rewritten data _ buffer.length [] whole
      valid.within
    exact ⟨⟨valid.layout, valid.within, valid.fits, becomes.valid.vacant,
      becomes.valid.positive, becomes.valid.slots, becomes.valid.bytes⟩,
      rfl, rfl⟩

/-- Bytes that are copied into the buffer overwrite its elements. -/
theorem fill_spec
    {storage : Storage UInt8} (valid : Valid buffer)
    (data : buffer.data = some storage)
    (index : Nat) (bytes : List UInt8)
    (inside : index + bytes.length ≤ buffer.length) :
    ∃ buffer', fill buffer index bytes = some buffer' ∧ Valid buffer' ∧
      buffer'.elements = overwrite 0 buffer.elements index bytes ∧
      buffer'.length = buffer.length ∧
      buffer'.capacity = buffer.capacity ∧
      buffer'.layout = buffer.layout := by
  have long := valid.slots _ data
  have within := valid.within
  have counted := valid.elements_length
  have fills : fill buffer index bytes = some { buffer with
      data := some { storage with
        slots := storage.slots.take index ++ bytes ++
          storage.slots.drop (index + bytes.length) } } := by
    unfold fill
    rw [data]
    dsimp only
    rw [if_pos (by omega)]
  refine ⟨_, fills, (fill_valid valid fills).1, ?_, rfl, rfl, rfl⟩
  change (storage.slots.take index ++ bytes ++
    storage.slots.drop (index + bytes.length)).take buffer.length = _
  rw [overwrite_of_le (by omega), elements_of_data data, List.take_take,
    Nat.min_eq_left (by omega), List.drop_take, List.take_append,
    List.take_of_length_le]
  · congr 2
    rw [List.length_append, List.length_take]
    omega
  · rw [List.length_append, List.length_take]
    omega

/-- A buffer of bytes grows at its end, or it stays as it is. -/
theorem grow_spec
    {needed : Nat} (valid : Valid buffer) (layout : buffer.layout = ⟨1, 1⟩)
    (more : buffer.length < needed) (fits : needed < sizeLimit)
    (grant : Grant UInt8) :
    (∃ extra buffer', (grant = none → needed ≤ buffer.capacity) ∧
        buffer.resize needed grant = some (none, buffer') ∧
          Valid buffer' ∧ buffer'.layout = ⟨1, 1⟩ ∧
          buffer'.elements = buffer.elements ++ extra ∧
          extra.length = needed - buffer.length ∧
          buffer'.length = needed) ∨
      (grant = none ∧ buffer.capacity < needed) ∧
        buffer.resize needed grant = some (some .oom, buffer) := by
  have counted := valid.elements_length
  have bytes : buffer.layout.elemSize = 1 := by rw [layout]
  rcases valid.resize_spec needed grant (by rw [bytes]; omega) with
    ⟨extra, buffer', granted, _, added, resizes, becomes⟩ |
      ⟨_, shorter, _⟩ | refused
  · have resized := becomes.valid.elements_length
    rw [becomes.elements, List.length_append, counted, added] at resized
    exact .inl ⟨extra, buffer', granted, resizes, becomes.valid,
      becomes.layout.trans layout, becomes.elements, added, by omega⟩
  · omega
  · exact .inr refused

/-! ## The calls -/

theorem Good.read_does (good : Good stream) (length : Nat) :
    ∃ error bytes stream',
      stream.read length = some (error, bytes, stream') ∧ Good stream' ∧
        Does stream.file (.read length) False (.read error bytes)
          stream'.file := by
  have counted := good.valid.elements_length
  have within := good.within
  have fits := good.fits
  rcases good.data with ⟨storage, data⟩
  have avail :
      (if stream.buffer.length > stream.pos then
          stream.buffer.length - stream.pos else 0) =
        stream.buffer.length - stream.pos := by
    split_ifs <;> omega
  generalize fewer :
    (if stream.buffer.length - stream.pos < length then
      stream.buffer.length - stream.pos else length) = n
  have least : n = min length (stream.buffer.length - stream.pos) := by
    rw [← fewer]
    split_ifs <;> omega
  generalize got :
    (stream.buffer.elements.drop stream.pos).take length = bytes
  have size : bytes.length = n := by
    rw [← got, List.length_take, List.length_drop, counted, least]
  have copied :
      stream.copyOut length n =
        some (bytes, { stream with pos := stream.pos + n }) := by
    unfold Mem.copyOut
    split_ifs with positive
    · have shown :
          (stream.buffer.elements.drop stream.pos).take n = bytes := by
        rw [← got, List.take_eq_take_iff, List.length_drop, counted, least]
        omega
      rw [subslice_eq data (by omega) fits]
      dsimp only
      rw [Nat.min_eq_right (by omega), view_eq good.valid data (by omega),
        sizeAdd_eq (by omega), shown]
      rfl
    · have none : n = 0 := by omega
      rw [none] at size ⊢
      rw [List.length_eq_zero_iff.mp size]
      rfl
  have reads :
      stream.read length =
        some (if n < length then some unexpectedEof else none, bytes,
          { stream with pos := stream.pos + n }) := by
    unfold Mem.read
    rw [avail]
    dsimp only
    rw [fewer, copied]
    rfl
  refine ⟨_, bytes, _, reads,
    ⟨good.valid, good.stored, good.layout, ?_⟩, got.symm, ?_, ?_⟩
  · dsimp only
    omega
  · unfold Mem.file
    rw [size]
  · unfold Mem.file
    dsimp only
    rw [counted]
    have same : (n < length) =
        (stream.buffer.length < stream.pos + length) := by
      rw [eq_iff_iff]
      omega
    simp only [same]

/-- Bytes for which there is room overwrite the content at the cursor. -/
theorem Good.copyIn_spec
    (good : Good stream) (data : List UInt8)
    (room : stream.pos + data.length ≤ stream.buffer.length) :
    ∃ stream', stream.copyIn data = some stream' ∧ Good stream' ∧
      stream'.file =
        ⟨overwrite 0 stream.buffer.elements stream.pos data,
          stream.pos + data.length⟩ := by
  have fits := good.fits
  rcases good.data with ⟨storage, cells⟩
  rcases fill_spec good.valid cells stream.pos data room with
    ⟨buffer, fills, valid, elements, length, capacity, layout⟩
  refine ⟨⟨buffer, stream.pos + data.length⟩, ?_, ⟨valid, ?_, ?_, ?_⟩, ?_⟩
  · unfold Mem.copyIn
    rw [subslice_eq cells room fits]
    dsimp only
    rw [List.take_length, fills, sizeAdd_eq (by omega)]
    rfl
  · dsimp only
    rw [capacity]
    exact good.stored
  · exact layout.trans good.layout
  · dsimp only
    rw [length]
    exact room
  · unfold Mem.file
    dsimp only
    rw [elements]

/-- Room that is added at the end does not show in what is written there. -/
theorem overwrite_extended
    {content extra data : List UInt8} {pos : Nat}
    (inside : pos ≤ content.length)
    (reaches : content.length + extra.length = pos + data.length) :
    overwrite 0 (content ++ extra) pos data =
      overwrite 0 content pos data := by
  rw [overwrite_of_le inside,
    overwrite_of_le (by rw [List.length_append]; omega),
    List.take_append_of_le_length inside,
    List.drop_eq_nil_of_le (by rw [List.length_append]; omega),
    List.drop_eq_nil_of_le (by omega)]

theorem Good.write_does
    (good : Good stream) {data : List UInt8} (grant : Grant UInt8)
    (fits : stream.pos + data.length < sizeLimit) :
    ∃ error stream',
      stream.write data grant = some (error, stream') ∧ Good stream' ∧
        Does stream.file (.write data)
          (stream.Refused (.write data) grant) (.wrote error)
          stream'.file := by
  have counted := good.valid.elements_length
  have within := good.within
  unfold Mem.write
  rw [sizeAdd_eq fits]
  dsimp only
  by_cases more : stream.pos + data.length > stream.buffer.length
  · rw [if_pos more]
    rcases grow_spec good.valid good.layout more fits grant with
      ⟨extra, buffer, granted, resizes, valid, layout, elements, added,
          length⟩ |
        ⟨denied, refused⟩
    · have room := valid.within
      have grown : Good { stream with buffer := buffer } :=
        ⟨valid, by change 0 < buffer.capacity; omega, layout,
          by change stream.pos ≤ buffer.length; omega⟩
      rcases grown.copyIn_spec data length.ge with
        ⟨stream', copies, good', file⟩
      refine ⟨none, stream', ?_, good', ?_⟩
      · rw [resizes]
        dsimp only
        rw [copies]
        rfl
      · have same :
            overwrite 0 (stream.buffer.elements ++ extra) stream.pos data =
              overwrite 0 stream.buffer.elements stream.pos data :=
          overwrite_extended (by omega) (by omega)
        refine ⟨fun denied => not_lt_of_ge (granted denied.1) denied.2, ?_⟩
        rw [file]
        dsimp only
        rw [elements, same]
        rfl
    · refine ⟨some outOfMemory, stream, ?_, good, denied, rfl, rfl, ?_⟩
      · rw [refused]
      · unfold Mem.file
        dsimp only
        omega
  · rw [if_neg more]
    rcases good.copyIn_spec data (by omega) with
      ⟨stream', copies, good', file⟩
    have room := good.valid.within
    refine ⟨none, stream', ?_, good', ?_, file⟩
    · dsimp only
      rw [copies]
      rfl
    · rintro ⟨_, short⟩
      omega

theorem Good.seek_does
    (good : Good stream) {seekTo : SeekTo}
    (fits : ∀ base, stream.file.base seekTo.whence = some base →
      base + seekTo.offset.getD 0 < sizeLimit) :
    Good (stream.seek seekTo).2 ∧
      Does stream.file (.seek seekTo) False
        (.sought (stream.seek seekTo).1) (stream.seek seekTo).2.file := by
  have counted := good.valid.elements_length
  have aims (base : Nat) (within : base + seekTo.offset.getD 0 < sizeLimit)
      (sought : Option IoError × Mem)
      (seeks : sought =
        if sizeAdd base (seekTo.offset.getD 0) > stream.buffer.length then
          (some invalidInput, stream)
        else
          (none, { stream with
            pos := sizeAdd base (seekTo.offset.getD 0) })) :
      Good sought.2 ∧
        if base + seekTo.offset.getD 0 ≤ stream.file.content.length then
          sought.1 = none ∧
            sought.2.file = { stream.file with
              cursor := base + seekTo.offset.getD 0 }
        else
          sought.1 = some invalidInput ∧ sought.2.file = stream.file := by
    have content : stream.file.content.length = stream.buffer.length :=
      counted
    rw [sizeAdd_eq within] at seeks
    rw [seeks, content]
    split_ifs with beyond inside inside
    · omega
    · exact ⟨good, rfl, rfl⟩
    · exact ⟨⟨good.valid, good.stored, good.layout, inside⟩, rfl, rfl⟩
    · omega
  unfold Does
  rcases seekTo with ⟨whence, offset⟩
  cases whence with
  | start => exact aims 0 (fits 0 rfl) _ rfl
  | current => exact aims stream.pos (fits _ rfl) _ rfl
  | finish =>
      have content : stream.file.content.length = stream.buffer.length :=
        counted
      refine aims stream.file.content.length (fits _ rfl) _ ?_
      rw [content]
      rfl
  | other => exact ⟨good, rfl, rfl⟩

/-- The step lemma: every call does what it does to a file in memory. -/
theorem Good.perform_spec
    (good : Good stream) {call : Call} (grant : Grant UInt8)
    (permitted : Permitted stream call) :
    ∃ reply stream', stream.perform call grant = some (reply, stream') ∧
      Good stream' ∧
        Does stream.file call (stream.Refused call grant) reply
          stream'.file := by
  cases call with
  | read length =>
      rcases good.read_does length with
        ⟨error, bytes, stream', reads, good', does⟩
      refine ⟨.read error bytes, stream', ?_, good', does⟩
      dsimp only [Mem.perform]
      rw [reads]
      rfl
  | write data =>
      rcases good.write_does grant permitted with
        ⟨error, stream', writes, good', does⟩
      refine ⟨.wrote error, stream', ?_, good', does⟩
      dsimp only [Mem.perform]
      rw [writes]
      rfl
  | seek seekTo =>
      rcases good.seek_does permitted with ⟨good', does⟩
      exact ⟨_, _, rfl, good', does⟩
  | tell => exact ⟨_, stream, rfl, good, rfl, rfl⟩

/-! ## The main result -/

/-- The stream after a call with the answer of the allocator. -/
def Mem.step (stream : Mem) (action : Call × Grant UInt8) : Mem :=
  match stream.perform action.1 action.2 with
  | none => stream
  | some (_, stream) => stream

/-- The runs of a new stream, as long as it is not closed. -/
def Runs (fresh : Mem) : Mem → Prop :=
  Reachable (fun stream => stream = fresh)
    (fun stream action => Permitted stream action.1) Mem.step

theorem create_buffer
    {capacity : Nat} (fits : capacity < sizeLimit)
    (created : Mem.create capacity grant = .ok fresh) :
    Valid fresh.buffer ∧ fresh.buffer.layout = ⟨1, 1⟩ ∧
      fresh.buffer.elements = [] ∧ fresh.buffer.capacity = capacity ∧
      fresh.pos = 0 := by
  unfold Mem.create at created
  split at created
  · cases created
  · rename_i buffer made
    cases created
    have bytes : ∀ wanted, some capacity = some wanted →
        wanted * (Libcute.Core.Interface.Layout.create 1 1).elemSize <
          sizeLimit := by
      intro wanted same
      cases same
      change capacity * 1 < sizeLimit
      omega
    rcases create_valid bytes made with
      ⟨valid, empty, _, layout, _, size⟩
    exact ⟨valid, layout, empty, size, rfl⟩

theorem create_good
    {capacity : Nat} (positive : 1 ≤ capacity) (fits : capacity < sizeLimit)
    (created : Mem.create capacity grant = .ok fresh) :
    Good fresh ∧ fresh.file = ⟨[], 0⟩ := by
  rcases create_buffer fits created with
    ⟨valid, layout, empty, size, start⟩
  refine ⟨⟨valid, ?_, layout, ?_⟩, ?_⟩
  · rw [size]
    exact positive
  · rw [start]
    exact Nat.zero_le _
  · unfold Mem.file
    rw [empty, start]

/--
The main result: for every capacity, and whatever the allocator grants, the
stream refines a file in memory.
-/
theorem memStream_refines
    {capacity : Nat} (positive : 1 ≤ capacity) (fits : capacity < sizeLimit)
    (created : Mem.create capacity grant = .ok fresh)
    (run : Runs fresh stream) : Refines stream := by
  have reached : Good stream ∧ ReferenceRun stream.file := by
    refine Reachable.invariant
      (fun stream => Good stream ∧ ReferenceRun stream.file) ?_ ?_ run
    · rintro _ rfl
      rcases create_good positive fits created with ⟨good, file⟩
      rw [file]
      exact ⟨good, .start⟩
    · rintro stream ⟨call, grant⟩ ⟨good, run⟩ permitted
      rcases good.perform_spec grant permitted with
        ⟨reply, stream', performs, good', does⟩
      unfold Mem.step
      rw [performs]
      exact ⟨good', run.call does⟩
  rcases reached with ⟨good, run⟩
  refine ⟨good.within, good.valid.elements_length, run, ?_⟩
  intro call grant permitted
  rcases good.perform_spec grant permitted with
    ⟨reply, stream', performs, _, does⟩
  exact ⟨reply, stream', performs, does⟩

/-- A new stream with room for two bytes. -/
def shortStream : Mem where
  buffer := ⟨some ⟨⟨64, 2⟩, [0, 0]⟩, 0, 2, ⟨1, 1⟩, false, []⟩
  pos := 0

/-- A write for which there is no memory, and one for which there is room. -/
theorem memStream_refines_calls :
    Refines ((shortStream.step (.write [1, 2, 3], none)).step
      (.write [4, 5], none)) := by
  have created : Mem.create 2 (some (64, fun _ => 0)) = .ok shortStream :=
    rfl
  have first : Permitted shortStream (.write [1, 2, 3]) := by
    unfold Permitted
    decide
  have second :
      Permitted (shortStream.step (.write [1, 2, 3], none))
        (.write [4, 5]) := by
    unfold Permitted
    decide +kernel
  exact memStream_refines (by decide) (by decide) created
    (.step (.step (.start rfl) first) second)

end Libcute.Io.MemStream
