import Libcute.Collection.Vector
import Libcute.Io.File

/-!
# The memory stream

`memstream.c` keeps a file in a vector of bytes, with a cursor.  The vector
only grows.  Unwrapping an optional that holds nothing ends the program: such
a call has no result.
-/

namespace Libcute.Io.MemStream

open Libcute.Collection.Blocks
open Libcute.Collection.Vector
open Libcute.Core.Interface (Layout)
open Libcute.Core.Size
open Libcute.Io.Error
open Libcute.Io.File

/-- `cu_MemStream` -/
structure Mem where
  buffer : Vec UInt8
  pos : Nat

/-- The bytes of a view of the buffer. -/
def view (buffer : Vec UInt8) (index count : Nat) : Option (List UInt8) :=
  match buffer.data with
  | none => none
  | some storage =>
      if index + count ≤ storage.slots.length then
        some ((storage.slots.drop index).take count)
      else
        none

/-- Copy bytes into a view of the buffer. -/
def fill (buffer : Vec UInt8) (index : Nat) (bytes : List UInt8) :
    Option (Vec UInt8) :=
  match buffer.data with
  | none => none
  | some storage =>
      if index + bytes.length ≤ storage.slots.length then
        some { buffer with
          data := some { storage with
            slots := storage.slots.take index ++ bytes ++
              storage.slots.drop (index + bytes.length) } }
      else
        none

namespace Mem

/-- `cu_MemStream_create` -/
def create (capacity : Nat) (grant : Grant UInt8) : Except IoError Mem :=
  match Vec.create (Layout.create 1 1) (some capacity) false grant with
  | .error _ => .error outOfMemory
  | .ok buffer => .ok ⟨buffer, 0⟩

/-- Copy `n` bytes at the cursor to a buffer of `length` bytes. -/
def copyOut (stream : Mem) (length n : Nat) :
    Option (List UInt8 × Mem) :=
  if n > 0 then
    match stream.buffer.subslice stream.pos n with
    | none => none
    | some (index, count) =>
        (view stream.buffer index (min length count)).map fun bytes =>
          (bytes, { stream with pos := sizeAdd stream.pos n })
  else
    some ([], stream)

/--
`cu_MemStream_read` with a buffer of `length` bytes: the error and the bytes
that were delivered.
-/
def read (stream : Mem) (length : Nat) :
    Option (Option IoError × List UInt8 × Mem) :=
  let avail :=
    if stream.buffer.length > stream.pos then
      stream.buffer.length - stream.pos
    else
      0
  let n := if avail < length then avail else length
  (stream.copyOut length n).map fun (bytes, stream) =>
    (if n < length then some unexpectedEof else none, bytes, stream)

/-- Copy bytes into the buffer at the cursor. -/
def copyIn (stream : Mem) (data : List UInt8) : Option Mem :=
  match stream.buffer.subslice stream.pos data.length with
  | none => none
  | some (index, count) =>
      (fill stream.buffer index (data.take count)).map fun buffer =>
        ⟨buffer, sizeAdd stream.pos data.length⟩

/-- `cu_MemStream_write` -/
def write (stream : Mem) (data : List UInt8) (grant : Grant UInt8) :
    Option (Option IoError × Mem) :=
  let needed := sizeAdd stream.pos data.length
  match
    if needed > stream.buffer.length then
      stream.buffer.resize needed grant
    else
      some (none, stream.buffer)
  with
  | none => none
  | some (some _, buffer) =>
      some (some outOfMemory, { stream with buffer := buffer })
  | some (none, buffer) =>
      (({ stream with buffer := buffer } : Mem).copyIn data).map
        fun stream => (none, stream)

/-- `cu_MemStream_flush_impl` -/
def flush (stream : Mem) : Option IoError × Mem := (none, stream)

/-- `cu_MemStream_seek_impl` -/
def seek (stream : Mem) (seekTo : SeekTo) : Option IoError × Mem :=
  let base : Option Nat :=
    match seekTo.whence with
    | .start => some 0
    | .current => some stream.pos
    | .finish => some stream.buffer.length
    | .other => none
  match base with
  | none => (some invalidInput, stream)
  | some base =>
      let newPos := sizeAdd base (seekTo.offset.getD 0)
      if newPos > stream.buffer.length then
        (some invalidInput, stream)
      else
        (none, { stream with pos := newPos })

/-- `cu_MemStream_tell_impl` -/
def tell (stream : Mem) : Nat := stream.pos

/-- `cu_MemStream_close_impl` -/
def close (stream : Mem) : Option Mem :=
  stream.buffer.destroy.map fun buffer => { stream with buffer := buffer }

end Mem

end Libcute.Io.MemStream
