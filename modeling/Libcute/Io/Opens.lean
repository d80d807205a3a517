import Libcute.Collection.RingBuffer
import Libcute.Io.Error
import Libcute.Text.CuteString

/-!
# Opening files and directories

The functions of `file.c`, `dir.c` and `fstream.c` that open, on a POSIX
system.  They bring the path into buffers of 4096 bytes, of which one is given
to the system and one is copied to a block for `cu_File_Stat`.

What the system and the allocator answer is up to them, and the model keeps
account of the blocks and handles that are held.  A write outside of a buffer
has no result, and neither has reading a buffer without a NUL as a C string.
What `fstat` reports is not modelled, and neither are the null checks.
-/

namespace Libcute.Io.Opens

open Libcute.Collection.Blocks
open Libcute.Collection.RingBuffer
open Libcute.Core.Interface (Layout Slice)
open Libcute.Core.Size
open Libcute.Io.Error
open Libcute.Text.CuteString (Str)
open Libcute.Text.Format (ascii cString)

/-- `CU_FILE_MAX_PATH_LENGTH` -/
def maxPathLength : Nat := 4096

/-- `CU_PATH_SEPARATOR` -/
def pathSeparator : UInt8 := ascii '/'

/-- `EEXIST` -/
def eexist : Nat := 17

/-! ## Options -/

/-- `cu_File_Options` -/
structure Options where
  read : Bool
  write : Bool
  create : Bool
  append : Bool
  truncate : Bool
deriving DecidableEq, Repr

/-- `O_RDONLY` -/
def oRdonly : Nat := 0

/-- `O_WRONLY` -/
def oWronly : Nat := 1

/-- `O_RDWR` -/
def oRdwr : Nat := 2

/-- `O_CREAT` -/
def oCreat : Nat := 0o100

/-- `O_TRUNC` -/
def oTrunc : Nat := 0o1000

/-- `O_APPEND` -/
def oAppend : Nat := 0o2000

/-- `O_DIRECTORY` -/
def oDirectory : Nat := 0o200000

/-- `cu_File_Options_to_posix_flags` -/
def Options.toPosixFlags (options : Options) : Nat :=
  let flags :=
    if options.read && options.write then
      oRdwr
    else if options.write then
      oWronly
    else if options.read then
      oRdonly
    else
      0
  let flags := if options.create then flags ||| oCreat else flags
  let flags := if options.append then flags ||| oAppend else flags
  if options.truncate then flags ||| oTrunc else flags

/-- `S_IRUSR | S_IWUSR | S_IRGRP | S_IROTH` -/
def fileMode : Nat := 0o644

/-- The mode that `cu_Dir_open` gives to `mkdir`. -/
def dirMode : Nat := 0o755

/-! ## Resources -/

/-- The blocks that allocators gave out, and the handles that are open. -/
structure Held where
  blocks : List (Nat × Slice)
  handles : List Nat
deriving DecidableEq, Repr

namespace Held

/-- A block comes from an allocator. -/
def obtain {T : Type} (held : Held) (allocator : Nat)
    (data : Option (Storage T)) : Held :=
  match data with
  | none => held
  | some storage =>
      { held with blocks := (allocator, storage.mem) :: held.blocks }

/-- `cu_Allocator_Free`, unless there is no block. -/
def free {T : Type} (held : Held) (allocator : Nat)
    (data : Option (Storage T)) : Held :=
  match data with
  | none => held
  | some storage =>
      { held with blocks := held.blocks.erase (allocator, storage.mem) }

/-- `close` -/
def close (held : Held) (handle : Nat) : Held :=
  { held with handles := held.handles.erase handle }

end Held

/-- `cu_File_Stat.path`: a string with its allocator. -/
structure Path where
  allocator : Nat
  str : Str

/-- `cu_File`; there is no handle for `CU_INVALID_HANDLE`. -/
structure File where
  handle : Option Nat
  path : Path

/-- `cu_Dir`, which has the fields of `cu_File`. -/
abbrev Dir := File

/-- `cu_FStream` -/
structure Stream where
  file : File
  allocator : Nat
  buffer : RingBuf UInt8
  reading : Bool

/-- What the system answers to `mkdir` and to `open`. -/
structure System where
  mkdir : (path : List UInt8) → (mode : Nat) → Option Nat
  openFile : (path : List UInt8) → (flags : Nat) → (mode : Option Nat) →
    Except Nat Nat

/-- What the allocators answer. -/
structure Grants where
  path : Grant UInt8
  ring : Grant UInt8

/-! ## Buffers -/

/-- A buffer of zeros for a path. -/
def zeroed : List UInt8 := List.replicate maxPathLength 0

/-- `cu_Memory_smemcpy` to `size` bytes of a buffer from `pos` on. -/
def copyTo (buffer : List UInt8) (pos size : Nat) (src : List UInt8) :
    Option (List UInt8) :=
  let n := min size src.length
  if n = 0 then
    some buffer
  else if pos + n ≤ buffer.length then
    some (buffer.take pos ++ src.take n ++ buffer.drop (pos + n))
  else
    none

/-- The buffer `lpath`. -/
def lpath (path : List UInt8) : Option (List UInt8) :=
  copyTo zeroed 0 maxPathLength path

/-- The separator of `cu_Dir_openat`, and the offset behind it. -/
def separate (fullpath lpath : List UInt8) (offset : Nat) :
    List UInt8 × Nat :=
  if offset > 0 ∧ offset < maxPathLength - 1 ∧
      fullpath[offset - 1]? ≠ some pathSeparator ∧
      lpath[0]? ≠ some pathSeparator then
    (fullpath.set offset pathSeparator, offset + 1)
  else
    (fullpath, offset)

/-- The buffer `fullpath` of `cu_Dir_openat`. -/
def fullpath (dir : Dir) (lpath : List UInt8) : Option (List UInt8) :=
  match copyTo zeroed 0 maxPathLength dir.path.str.asSlice with
  | none => none
  | some fullpath =>
      let separated := separate fullpath lpath dir.path.str.length
      copyTo separated.1 separated.2 (sizeSub maxPathLength separated.2) lpath

/--
What is given to the system and to `cu_String_from_cstr`: the buffers, the
flags and mode of `open`, and the mode of `mkdir`.
-/
structure Request where
  opened : List UInt8
  copied : List UInt8
  flags : Nat
  mode : Option Nat
  mkdir : Option Nat

/-- What `cu_File_open` asks for. -/
def fileRequest (path : List UInt8) (options : Options) :
    Option (Except IoError Request) :=
  if options.read = false ∧ options.write = false then
    some (.error invalidInput)
  else
    (lpath path).map fun lpath =>
      .ok ⟨lpath, lpath, options.toPosixFlags, some fileMode, none⟩

/-- What `cu_Dir_open` asks for. -/
def dirRequest (path : List UInt8) (create : Bool) :
    Option (Except IoError Request) :=
  (lpath path).map fun lpath =>
    .ok ⟨lpath, lpath, oRdonly ||| oDirectory, none,
      if create then some dirMode else none⟩

/-- What `cu_Dir_openat` asks for. -/
def atRequest (dir : Dir) (path : List UInt8) (options : Options) :
    Option (Except IoError Request) :=
  if dir.handle = none then
    some (.error invalidInput)
  else if options.read = false ∧ options.write = false then
    some (.error invalidInput)
  else
    match lpath path with
    | none => none
    | some lpath =>
        (fullpath dir lpath).map fun fullpath =>
          .ok ⟨fullpath, lpath, options.toPosixFlags, some fileMode, none⟩

/-! ## Opening -/

/-- `cu_String_from_cstr` -/
def stringFromCstr (allocator : Nat) (cstr : List UInt8)
    (grant : Grant UInt8) (held : Held) :
    Option (Except Text.CuteString.Error Path × Held) :=
  if 0 ∈ cstr then
    (Str.fromCstr (some cstr) grant).map fun
      | .error err => (.error err, held)
      | .ok str => (.ok ⟨allocator, str⟩, held.obtain allocator str.data)
  else
    none

/-- The answer to `mkdir`, if it is called, and then to `open`. -/
def System.answer (system : System) (request : Request) : Except Nat Nat :=
  let path := cString request.opened
  let made :=
    match request.mkdir with
    | none => none
    | some mode =>
        match system.mkdir path mode with
        | none => none
        | some errno => if errno ≠ eexist then some errno else none
  match made with
  | some errno => .error errno
  | none => system.openFile path request.flags request.mode

/-- Make the directory, if it is to be made, and open the path. -/
def openPath (system : System) (request : Request) (held : Held) :
    Option (Except IoError Nat × Held) :=
  if 0 ∈ request.opened then
    match system.answer request with
    | .error errno => some (.error (fromErrno errno), held)
    | .ok handle =>
        some (.ok handle, { held with handles := handle :: held.handles })
  else
    none

/-- Copy the path first, and look at the copy when it is open. -/
def copyThenOpen (request : Request) (allocator : Nat) (system : System)
    (grants : Grants) (held : Held) :
    Option (Except IoError File × Held) :=
  match stringFromCstr allocator request.copied grants.path held with
  | none => none
  | some (pres, held) =>
      match openPath system request held with
      | none => none
      | some (.error err, held) => some (.error err, held)
      | some (.ok handle, held) =>
          match pres with
          | .error _ => some (.error outOfMemory, held.close handle)
          | .ok path => some (.ok ⟨some handle, path⟩, held)

/-- Open the path first, and then copy it. -/
def openThenCopy (request : Request) (allocator : Nat) (system : System)
    (grants : Grants) (held : Held) :
    Option (Except IoError File × Held) :=
  match openPath system request held with
  | none => none
  | some (.error err, held) => some (.error err, held)
  | some (.ok handle, held) =>
      match stringFromCstr allocator request.copied grants.path held with
      | none => none
      | some (.error _, held) =>
          some (.error outOfMemory, held.close handle)
      | some (.ok path, held) => some (.ok ⟨some handle, path⟩, held)

/-- Return the error of a call that is rejected, or go on with opening. -/
def proceed (asked : Option (Except IoError Request)) (held : Held)
    (opens : Request → Option (Except IoError File × Held)) :
    Option (Except IoError File × Held) :=
  match asked with
  | none => none
  | some (.error err) => some (.error err, held)
  | some (.ok request) => opens request

/-- `cu_File_open` -/
def fileOpen (path : List UInt8) (options : Options) (allocator : Nat)
    (system : System) (grants : Grants) (held : Held) :
    Option (Except IoError File × Held) :=
  proceed (fileRequest path options) held fun request =>
    copyThenOpen request allocator system grants held

/-- `cu_Dir_open` -/
def dirOpen (path : List UInt8) (create : Bool) (allocator : Nat)
    (system : System) (grants : Grants) (held : Held) :
    Option (Except IoError Dir × Held) :=
  proceed (dirRequest path create) held fun request =>
    copyThenOpen request allocator system grants held

/-- `cu_Dir_openat` -/
def dirOpenat (dir : Dir) (path : List UInt8) (options : Options)
    (system : System) (grants : Grants) (held : Held) :
    Option (Except IoError File × Held) :=
  proceed (atRequest dir path options) held fun request =>
    openThenCopy request dir.path.allocator system grants held

/-- `cu_File_close` -/
def fileClose (file : File) (held : Held) : File × Held :=
  match file.handle with
  | none => (file, held)
  | some handle =>
      (⟨none, { file.path with str := file.path.str.destroy }⟩,
        (held.close handle).free file.path.allocator file.path.str.data)

/-- Put a ring buffer in front of a file that was opened. -/
def bufferFile (opened : Option (Except IoError File × Held))
    (options : Options) (bufferSize allocator : Nat) (grants : Grants) :
    Option (Except IoError Stream × Held) :=
  match opened with
  | none => none
  | some (.error err, held) => some (.error err, held)
  | some (.ok file, held) =>
      match RingBuf.create (Layout.create 1 1) bufferSize false grants.ring with
      | .error _ => some (.error outOfMemory, (fileClose file held).2)
      | .ok buffer =>
          some (.ok ⟨file, allocator, buffer, options.read && !options.write⟩,
            held.obtain allocator buffer.data)

/-- `cu_FStream_open` -/
def fstreamOpen (path : List UInt8) (options : Options)
    (bufferSize allocator : Nat) (system : System) (grants : Grants)
    (held : Held) : Option (Except IoError Stream × Held) :=
  bufferFile (fileOpen path options allocator system grants held) options
    bufferSize allocator grants

/-- `cu_FStream_openat` -/
def fstreamOpenat (dir : Dir) (path : List UInt8) (options : Options)
    (bufferSize allocator : Nat) (system : System) (grants : Grants)
    (held : Held) : Option (Except IoError Stream × Held) :=
  bufferFile (dirOpenat dir path options system grants held) options
    bufferSize allocator grants

/-! ## Calls -/

/-- A call of a function that opens. -/
inductive Call where
  | fileOpen (path : List UInt8) (options : Options) (allocator : Nat)
  | dirOpen (path : List UInt8) (create : Bool) (allocator : Nat)
  | dirOpenat (dir : Dir) (path : List UInt8) (options : Options)
  | fstreamOpen (path : List UInt8) (options : Options)
      (bufferSize allocator : Nat)
  | fstreamOpenat (dir : Dir) (path : List UInt8) (options : Options)
      (bufferSize allocator : Nat)

/-- What a call asks for, or the error that it returns at once. -/
def Call.request : Call → Option (Except IoError Request)
  | .fileOpen path options _ => fileRequest path options
  | .dirOpen path create _ => dirRequest path create
  | .dirOpenat dir path options => atRequest dir path options
  | .fstreamOpen path options _ _ => fileRequest path options
  | .fstreamOpenat dir path options _ _ => atRequest dir path options

/-- The error of a result. -/
def errorOf {T : Type} : Except IoError T → Option IoError
  | .error err => some err
  | .ok _ => none

/-- Make a call: its error and what is held behind it. -/
def Call.perform (call : Call) (system : System) (grants : Grants)
    (held : Held) : Option (Option IoError × Held) :=
  match call with
  | .fileOpen path options allocator =>
      (Opens.fileOpen path options allocator system grants held).map
        fun (res, held) => (errorOf res, held)
  | .dirOpen path create allocator =>
      (Opens.dirOpen path create allocator system grants held).map
        fun (res, held) => (errorOf res, held)
  | .dirOpenat dir path options =>
      (Opens.dirOpenat dir path options system grants held).map
        fun (res, held) => (errorOf res, held)
  | .fstreamOpen path options bufferSize allocator =>
      (Opens.fstreamOpen path options bufferSize allocator system grants
        held).map fun (res, held) => (errorOf res, held)
  | .fstreamOpenat dir path options bufferSize allocator =>
      (Opens.fstreamOpenat dir path options bufferSize allocator system grants
        held).map fun (res, held) => (errorOf res, held)

end Libcute.Io.Opens
