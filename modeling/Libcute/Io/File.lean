import Libcute.Core.Size
import Libcute.Io.Error
import Libcute.Library.ByteFile

/-!
# Files

The functions of `file.c` that streams use, over an open regular file of a
POSIX system.  What `read` and `write` return is decided by the system and
given to the functions as an `Answer`; `lseek` follows POSIX.  A read never
yields more than was asked for or than the file holds.  The null checks are
not modelled.
-/

namespace Libcute.Io.File

open Libcute.Core.Size
open Libcute.Io.Error
open Libcute.Library.ByteFile

/-- `cu_File_Seek`; `other` is a value without a name. -/
inductive Whence where
  | start
  | current
  | finish
  | other
deriving DecidableEq, Repr

/-- `cu_File_SeekTo` -/
structure SeekTo where
  whence : Whence
  offset : Option Nat
deriving DecidableEq, Repr

/--
What `read` or `write` returns when it is asked for so many bytes: an error
number or a count.
-/
abbrev Answer := Nat → Except Nat Nat

/--
An open file as the system keeps it; `written` are the bytes that were stored
so far, in their order.
-/
structure Description where
  content : List UInt8
  position : Nat
  append : Bool
  written : List UInt8
deriving DecidableEq, Repr

namespace Description

/-- `write`, when the system accepts some of the bytes. -/
def write (file : Description) (data : List UInt8) (accepted : Nat) :
    Description :=
  let data := data.take accepted
  if data.isEmpty then
    file
  else
    let start := if file.append then file.content.length else file.position
    { file with
      content := overwrite 0 file.content start data
      position := start + data.length
      written := file.written ++ data }

/-- `read`, when the system returns at most `count` bytes. -/
def read (file : Description) (count : Nat) : List UInt8 × Description :=
  let bytes := (file.content.drop file.position).take count
  (bytes, { file with position := file.position + bytes.length })

/--
`lseek`, with the offsets from the start that the system can store.  A larger
one is `EOVERFLOW`, as POSIX words it; Linux answers `EINVAL`.
-/
def lseek (file : Description) (offset : Int) (base : Nat) :
    Except Nat Description :=
  if base + offset < 0 then
    .error einval
  else if 2 ^ 63 ≤ base + offset then
    .error eoverflow
  else
    .ok { file with position := (base + offset).toNat }

end Description

/-- `cu_File`: the handle becomes invalid when the file is closed. -/
structure Handle where
  valid : Bool
  file : Description
deriving DecidableEq, Repr

/-- A `size_t` converted to `long`. -/
def asLong (value : Nat) : Int :=
  if value < 2 ^ 63 then value else (value : Int) - sizeLimit

namespace Handle

/-- `cu_File_close` -/
def close (handle : Handle) : Handle := { handle with valid := false }

/--
`cu_File_read`: the contents of the buffer before and after the call.  The
number of bytes that were read is dropped.
-/
def read (handle : Handle) (buffer : List UInt8) (answer : Answer) :
    Option IoError × List UInt8 × Handle :=
  if handle.valid = false then
    (some invalidInput, buffer, handle)
  else
    match answer buffer.length with
    | .error errno => (some (fromErrno errno), buffer, handle)
    | .ok count =>
        let got := handle.file.read (min count buffer.length)
        (none, got.1 ++ buffer.drop got.1.length,
          { handle with file := got.2 })

/-- `cu_File_write`: the number of bytes that were written is dropped. -/
def write (handle : Handle) (data : List UInt8) (answer : Answer) :
    Option IoError × Handle :=
  if handle.valid = false then
    (some invalidInput, handle)
  else
    match answer data.length with
    | .error errno => (some (fromErrno errno), handle)
    | .ok accepted =>
        (none, { handle with file := handle.file.write data accepted })

/-- `cu_File_seek`, with the error numbers of POSIX. -/
def seek (handle : Handle) (seekTo : SeekTo) : Option IoError × Handle :=
  if handle.valid = false then
    (some invalidInput, handle)
  else
    let offset := asLong (seekTo.offset.getD 0)
    let base : Option Nat :=
      match seekTo.whence with
      | .start => some 0
      | .current => some handle.file.position
      | .finish => some handle.file.content.length
      | .other => none
    match base with
    | none => (some invalidInput, handle)
    | some base =>
        match handle.file.lseek offset base with
        | .error errno => (some (fromErrno errno), handle)
        | .ok file => (none, { handle with file := file })

/-- `cu_File_tell` -/
def tell (handle : Handle) : Except IoError Nat :=
  if handle.valid = false then
    .error invalidInput
  else
    .ok handle.file.position

end Handle

/-! ## Writing in parts -/

variable {file : Description} {first second : List UInt8}

/-- Write bytes of which the system accepts all. -/
def Description.put (file : Description) (data : List UInt8) : Description :=
  file.write data data.length

theorem Description.put_nil (file : Description) : file.put [] = file := rfl

theorem Description.put_of_ne (filled : first ≠ []) :
    file.put first =
      { file with
        content := overwrite 0 file.content
          (if file.append then file.content.length else file.position) first
        position :=
          (if file.append then file.content.length else file.position) +
            first.length
        written := file.written ++ first } := by
  unfold Description.put Description.write
  dsimp only
  rw [List.take_length, if_neg (by simpa using filled)]

/-- Two writes in a row are one write. -/
theorem Description.put_put :
    (file.put first).put second = file.put (first ++ second) := by
  by_cases empty : first = []
  · subst empty
    rfl
  by_cases none : second = []
  · subst none
    rw [put_nil, List.append_nil]
  have both : first ++ second ≠ [] := by
    simp [empty]
  have last :
      (overwrite 0 file.content file.content.length first).length =
        file.content.length + first.length := by
    rw [length_overwrite empty]
    omega
  rw [put_of_ne none, put_of_ne both, put_of_ne empty]
  rcases file with ⟨content, position, append, written⟩
  cases append with
  | false =>
      simp only [Bool.false_eq_true, if_false, overwrite_append,
        List.length_append, List.append_assoc, Nat.add_assoc]
  | true =>
      dsimp only at last
      simp only [if_true, last, overwrite_append, List.length_append,
        List.append_assoc, Nat.add_assoc]

namespace Handle

/-- `cu_File_write`, when `write` accepts all bytes. -/
def put (handle : Handle) (data : List UInt8) : Handle :=
  { handle with file := handle.file.put data }

theorem write_accepted
    {handle : Handle} {answer : Answer} (valid : handle.valid = true)
    (stores : ∀ len, answer len = .ok len) (data : List UInt8) :
    handle.write data answer = (none, handle.put data) := by
  unfold write
  rw [if_neg (by rw [valid]; exact Bool.noConfusion), stores]
  rfl

theorem put_put {handle : Handle} :
    (handle.put first).put second = handle.put (first ++ second) := by
  unfold put
  dsimp only
  rw [Description.put_put]

end Handle

end Libcute.Io.File
