import Libcute.Core.NoStd
import Libcute.Core.Size

/-!
# The C allocator

`allocator.c` puts a block of the C library around every block it returns:
the returned address is aligned, and the address of the C block is stored
just below it.  `cu_CAllocator_Grow` and `cu_CAllocator_Shrink` resize the C
block and then look for the old bytes at the old address.

The C library is an `Answer`: `realloc` and `malloc` may fail or yield a
block at an address, with bytes of their own.  `realloc` keeps the bytes that
both blocks have room for; all other bytes are arbitrary then, those at the
old address included.  A write outside of the C block has no result, and
neither has a C block that is not there.
-/

namespace Libcute.Memory.CAllocator

open Libcute.Core.Interface
open Libcute.Core.NoStd
open Libcute.Core.Size
open Libcute.Library.ByteMemory

/-- `sizeof(void *)` -/
def pointerSize : Nat := 8

/-- A block of the C library: its address and its bytes. -/
abbrev CBlock := Slice

/-- A block of the C library and the bytes that come with it. -/
structure Given where
  ptr : Nat
  junk : Memory

/-- What the C library answers to `realloc` and to `malloc`. -/
structure Answer where
  realloc : Option Given
  malloc : Option Given

/-- The alignment that is used: at least that of a pointer. -/
def usedAlignment (layout : Layout) : Nat :=
  if layout.alignment < pointerSize then pointerSize else layout.alignment

/-- The size of the C block. -/
def totalSize (layout : Layout) : Nat :=
  sizeAdd (sizeSub (sizeAdd layout.elemSize (usedAlignment layout)) 1)
    pointerSize

/-- The address that is returned for a C block. -/
def alignedAddr (raw : Nat) (layout : Layout) : Nat :=
  alignUp (sizeAdd raw pointerSize) (usedAlignment layout)

/-- The pointer that is stored below a block. -/
def backPointer (memory : Memory) (ptr : Nat) : Nat :=
  loadBytes memory (ptr - pointerSize) pointerSize

/-- Store the address of a C block below an address inside it. -/
def storePointer (memory : Memory) (block : CBlock) (aligned : Nat) :
    Option Memory :=
  if block.ptr + pointerSize ≤ aligned ∧ aligned ≤ block.finish then
    some (storeBytes memory (aligned - pointerSize) block.ptr pointerSize)
  else
    none

/-- Copy bytes into a C block. -/
def copyInto
    (copy : Memory → Slice → Slice → Memory) (memory : Memory)
    (block : CBlock) (dest src : Slice) (count : Nat) : Option Memory :=
  if count = 0 ∨ block.ptr ≤ dest.ptr ∧ dest.ptr + count ≤ block.finish then
    some (copy memory dest src)
  else
    none

/-- The memory after a C block has moved or changed its size. -/
def moved (memory : Memory) (old : CBlock) (given : Given) (total : Nat) :
    Memory :=
  fun address =>
    if given.ptr ≤ address ∧
        address < given.ptr + min old.length total then
      memory (old.ptr + (address - given.ptr))
    else
      given.junk address

/-- The memory after another C block was given: a live one keeps its bytes. -/
def beside (memory : Memory) (live : CBlock) (given : Given) : Memory :=
  fun address =>
    if live.ptr ≤ address ∧ address < live.finish then
      memory address
    else
      given.junk address

/-- A result with the C block of the returned block and the memory. -/
abbrev Result := Except IoError Slice × CBlock × Memory

/-- `cu_CAllocator_Free`: what is passed to `free` -/
def free (memory : Memory) (mem : Slice) : Option Nat :=
  if mem.ptr = 0 then none else some (backPointer memory mem.ptr)

/-- A new C block gets its back pointer. -/
def place (memory : Memory) (block : CBlock) (size aligned : Nat) :
    Option Result :=
  (storePointer memory block aligned).map fun memory =>
    (.ok ⟨aligned, size⟩, block, memory)

/-- `cu_CAllocator_Alloc`, beside a live C block -/
def alloc
    (memory : Memory) (live : CBlock) (layout : Layout)
    (malloc : Option Given) : Option Result :=
  if layout.elemSize = 0 then
    some (.error .invalidInput, live, memory)
  else
    match malloc with
    | none => some (.error .outOfMemory, live, memory)
    | some given =>
        place (beside memory live given) ⟨given.ptr, totalSize layout⟩
          layout.elemSize (alignedAddr given.ptr layout)

/--
The bytes that are copied to a block of its own, before the old block is
freed.
-/
def fallback
    (memory : Memory) (live : CBlock) (old : Slice) (layout : Layout)
    (malloc : Option Given) (copies : Bool) : Option Result :=
  match alloc memory live layout malloc with
  | none => none
  | some (.error err, block, memory) => some (.error err, block, memory)
  | some (.ok mem, block, memory) =>
      let copied :=
        if copies = true then
          copyInto smemcpy memory block mem old (min mem.length old.length)
        else
          some memory
      match copied with
      | none => none
      | some memory =>
          if free memory old = some live.ptr then
            some (.ok mem, block, memory)
          else
            none

/-- What follows a `realloc` that does not fail. -/
def relocate
    (copy : Memory → Slice → Slice → Memory) (memory : Memory)
    (block : CBlock) (old : Slice) (size aligned : Nat) : Option Result :=
  match storePointer memory block aligned with
  | none => none
  | some memory =>
      let count := min old.length size
      let copied :=
        if aligned ≠ old.ptr then
          copyInto copy memory block ⟨aligned, count⟩ ⟨old.ptr, count⟩ count
        else
          some memory
      copied.map fun memory => (.ok ⟨aligned, size⟩, block, memory)

/-- The call of `realloc` and what follows it. -/
def resize
    (copy : Memory → Slice → Slice → Memory) (copies : Bool)
    (memory : Memory) (live : CBlock) (old : Slice) (layout : Layout)
    (answer : Answer) : Option Result :=
  let raw := backPointer memory old.ptr
  let total := totalSize layout
  if raw ≠ live.ptr then
    none
  else
    match answer.realloc with
    | none =>
        if total ≠ 0 then
          fallback memory live old layout answer.malloc copies
        else
          relocate copy memory ⟨0, 0⟩ old layout.elemSize
            (alignedAddr 0 layout)
    | some given =>
        relocate copy (moved memory live given total) ⟨given.ptr, total⟩ old
          layout.elemSize (alignedAddr given.ptr layout)

/-- `cu_CAllocator_Grow` -/
def grow
    (memory : Memory) (live : CBlock) (old : Slice) (layout : Layout)
    (answer : Answer) : Option Result :=
  if old.ptr = 0 then
    alloc memory live layout answer.malloc
  else
    resize smemmove true memory live old layout answer

/-- `cu_CAllocator_Shrink` -/
def shrink
    (memory : Memory) (live : CBlock) (old : Slice) (layout : Layout)
    (answer : Answer) : Option Result :=
  if old.ptr = 0 then
    some (.error .invalidInput, live, memory)
  else
    resize smemcpy (layout.elemSize > 0 ∧ old.length > 0) memory live old
      layout answer

end Libcute.Memory.CAllocator
