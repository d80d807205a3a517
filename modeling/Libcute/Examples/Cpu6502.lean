import Libcute.Collection.Vector
import Libcute.Io.File
import Libcute.Library.StraightLine

/-!
# The 6502 emulator

`examples/6502` interprets seven instructions of a 6502 on a memory that is a
`cu_Vector` of bytes.  A byte outside the memory has no value and cannot be
written; an unknown opcode ends in `UNREACHABLE`.  Both are `none` here.

The vector is resized without being filled, so what the memory holds at first
is up to the allocator.
-/

namespace Libcute.Examples.Cpu6502

open Libcute.Collection.Blocks
open Libcute.Collection.Vector
open Libcute.Io.File
open Libcute.Library.StraightLine

abbrev Byte := BitVec 8

abbrev Address := BitVec 16

/-- `cu_6502` -/
structure Cpu where
  a : Byte
  x : Byte
  y : Byte
  sp : Byte
  pc : Address
  status : Byte
  memory : Vec Byte

/-- `cu_6502_Error` -/
inductive Error where
  | oom
deriving DecidableEq, Repr

/-- `FLAG_ZERO` -/
def flagZero : Byte := 0x02

/-- `FLAG_BREAK` -/
def flagBreak : Byte := 0x10

/-- `FLAG_UNUSED` -/
def flagUnused : Byte := 0x20

/-- `FLAG_NEGATIVE` -/
def flagNegative : Byte := 0x80

/-- The size of the memory. -/
def memorySize : Nat := 0x10000

/-! ## Creation -/

/-- `cu_6502_create`, with the answers to its two requests. -/
def create (first second : Grant Byte) : Option (Except Error Cpu) :=
  match Vec.create ⟨1, 1⟩ (some memorySize) false first with
  | .error _ => some (.error .oom)
  | .ok vector =>
      match vector.resize memorySize second with
      | none => none
      | some (some _, vector) =>
          vector.destroy.map fun _ => .error .oom
      | some (none, vector) =>
          some (.ok ⟨0, 0, 0, 0xFD, 0, flagUnused, vector⟩)

namespace Cpu

/-- `cu_6502_destroy` -/
def destroy (cpu : Cpu) : Option Cpu :=
  cpu.memory.destroy.map fun memory => { cpu with memory := memory }

/-! ## Programs -/

/-- Copy bytes into consecutive slots. -/
def storeBytes (memory : Vec Byte) : Nat → List Byte → Option (Vec Byte)
  | _, [] => some memory
  | start, byte :: rest =>
      match memory.setSlot start byte with
      | none => none
      | some memory => storeBytes memory (start + 1) rest

/-- `cu_6502_load`; a program that does not fit is ignored. -/
def load (cpu : Cpu) (program : List Byte) (addr : Address) : Option Cpu :=
  if addr.toNat + program.length > cpu.memory.length then
    some cpu
  else
    (storeBytes cpu.memory addr.toNat program).map fun memory =>
      { cpu with memory := memory, pc := addr }

/--
`cu_6502_load_file` once `cu_File_open` returned, with the file and its size:
the size is cut to 16 bits for the check, but not for the read.
-/
def loadFile
    (cpu : Cpu) (opened : Option (Description × Nat)) (addr : Address)
    (answer : Answer) : Option (Bool × Cpu) :=
  match opened with
  | none => some (false, cpu)
  | some (file, size) =>
      if addr.toNat + size % 2 ^ 16 > cpu.memory.length then
        some (false, cpu)
      else
        match answer size with
        | .error _ => some (false, cpu)
        | .ok count =>
            let bytes := (file.read (min count size)).1.map UInt8.toBitVec
            (storeBytes cpu.memory addr.toNat bytes).map fun memory =>
              (true, { cpu with memory := memory, pc := addr })

/-- `cu_6502_reset` -/
def reset (cpu : Cpu) (addr : Address) : Cpu :=
  { cpu with
    a := 0, x := 0, y := 0, sp := 0xFD, status := flagUnused, pc := addr }

/-! ## Execution -/

/-- `update_zn` -/
def updateZn (cpu : Cpu) (value : Byte) : Cpu :=
  let status :=
    if value = 0 then cpu.status ||| flagZero
    else cpu.status &&& ~~~flagZero
  { cpu with
    status :=
      if value &&& 0x80 ≠ 0 then status ||| flagNegative
      else status &&& ~~~flagNegative }

/-- `mem[cpu->pc++]` -/
def fetch (cpu : Cpu) : Option (Byte × Cpu) :=
  (cpu.memory.slot cpu.pc.toNat).map fun byte =>
    (byte, { cpu with pc := cpu.pc + 1 })

/-- The two bytes of an absolute address. -/
def fetchAddress (cpu : Cpu) : Option (Address × Cpu) :=
  match cpu.fetch with
  | none => none
  | some (lo, cpu) =>
      match cpu.fetch with
      | none => none
      | some (hi, cpu) =>
          some (lo.setWidth 16 ||| hi.setWidth 16 <<< 8, cpu)

/-- The case of `STA` with an absolute address. -/
def storeAbsolute (cpu : Cpu) : Option Cpu :=
  match cpu.fetchAddress with
  | none => none
  | some (addr, cpu) =>
      (cpu.memory.setSlot addr.toNat cpu.a).map fun memory =>
        { cpu with memory := memory }

/-- The case of `LDA` with an absolute address. -/
def loadAbsolute (cpu : Cpu) : Option Cpu :=
  match cpu.fetchAddress with
  | none => none
  | some (addr, cpu) =>
      (cpu.memory.slot addr.toNat).map fun value =>
        ({ cpu with a := value } : Cpu).updateZn value

/-- What `cu_6502_step` does with an opcode, which it has fetched. -/
def execute (opcode : Byte) (cpu : Cpu) : Option Cpu :=
  match opcode.toNat with
  | 0xA9 =>
      cpu.fetch.map fun (value, cpu) =>
        ({ cpu with a := value } : Cpu).updateZn value
  | 0xA2 =>
      cpu.fetch.map fun (value, cpu) =>
        ({ cpu with x := value } : Cpu).updateZn value
  | 0xE8 =>
      some (({ cpu with x := cpu.x + 1 } : Cpu).updateZn (cpu.x + 1))
  | 0x8D => cpu.storeAbsolute
  | 0xAD => cpu.loadAbsolute
  | 0xEA => some cpu
  | 0x00 => some { cpu with status := cpu.status ||| flagBreak }
  | _ => none

/-- `cu_6502_step` -/
def step (cpu : Cpu) : Option Cpu :=
  match cpu.fetch with
  | none => none
  | some (opcode, cpu) => execute opcode cpu

/-- The condition of the loop of `cu_6502_run` fails. -/
def broken (cpu : Cpu) : Bool := cpu.status &&& flagBreak ≠ 0

/-- `cu_6502_run` returns with this processor. -/
def Runs (cpu final : Cpu) : Prop := Stops broken step cpu final

/-! ## The memory -/

/-- The memory is there, as `cu_6502_create` leaves it. -/
structure Powered (cpu : Cpu) : Prop where
  storage : ∃ storage, cpu.memory.data = some storage ∧
    storage.slots.length = memorySize
  length : cpu.memory.length = memorySize

/-- The byte at an address. -/
def byte (cpu : Cpu) (addr : Address) : Byte :=
  (cpu.memory.slot addr.toNat).getD 0

variable {cpu cpu' : Cpu} {addr : Address}

theorem address_lt (addr : Address) : addr.toNat < memorySize :=
  addr.isLt

theorem Powered.slot (powered : Powered cpu) (addr : Address) :
    cpu.memory.slot addr.toNat = some (cpu.byte addr) := by
  rcases powered.storage with ⟨storage, data, length⟩
  have inside : addr.toNat < storage.slots.length := by
    rw [length]
    exact address_lt addr
  have found : cpu.memory.slot addr.toNat = some storage.slots[addr.toNat] := by
    unfold Vec.slot
    rw [data, Option.bind_some, List.getElem?_eq_getElem inside]
  unfold byte
  rw [found, Option.getD_some]

/-- Only the memory and the program counter matter for what is powered. -/
theorem Powered.congr
    (powered : Powered cpu) (memory : cpu'.memory = cpu.memory) :
    Powered cpu' := by
  constructor
  · rw [memory]
    exact powered.storage
  · rw [memory]
    exact powered.length

theorem byte_congr (memory : cpu'.memory = cpu.memory) :
    cpu'.byte = cpu.byte := by
  funext addr
  unfold byte
  rw [memory]

/-- Writing one slot of the memory, at any index that it has. -/
theorem Powered.setSlot
    (powered : Powered cpu) {index : Nat} (inside : index < memorySize)
    (value : Byte) :
    ∃ memory, cpu.memory.setSlot index value = some memory ∧
      Powered { cpu with memory := memory } ∧
      ∀ addr, ({ cpu with memory := memory } : Cpu).byte addr =
        if addr.toNat = index then value else cpu.byte addr := by
  rcases powered.storage with ⟨storage, data, length⟩
  refine ⟨{ cpu.memory with
    data := some ⟨storage.mem, storage.slots.set index value⟩ },
    ?_, ⟨⟨_, rfl, ?_⟩, powered.length⟩, ?_⟩
  · unfold Vec.setSlot
    rw [data]
    exact if_pos (by rw [length]; exact inside)
  · rw [List.length_set]
    exact length
  · intro addr
    unfold byte Vec.slot
    rw [data]
    dsimp only [Option.bind_some]
    by_cases here : addr.toNat = index
    · rw [if_pos here, here,
        List.getElem?_set_self (by rw [length]; exact inside),
        Option.getD_some]
    · rw [if_neg here, List.getElem?_set_ne (Ne.symm here)]

theorem Powered.fetch (powered : Powered cpu) :
    cpu.fetch = some (cpu.byte cpu.pc, { cpu with pc := cpu.pc + 1 }) := by
  unfold Cpu.fetch
  rw [powered.slot]
  rfl

/-- The bytes of a program in the memory. -/
theorem Powered.storeBytes
    (powered : Powered cpu) (bytes : List Byte) {start : Nat}
    (fits : start + bytes.length ≤ memorySize) :
    ∃ memory, storeBytes cpu.memory start bytes = some memory ∧
      Powered { cpu with memory := memory } ∧
      ∀ addr, ({ cpu with memory := memory } : Cpu).byte addr =
        if start ≤ addr.toNat then
          (bytes[addr.toNat - start]?).getD (cpu.byte addr)
        else cpu.byte addr := by
  induction bytes generalizing cpu start with
  | nil =>
      refine ⟨cpu.memory, rfl, powered, fun addr => ?_⟩
      rw [List.getElem?_nil, Option.getD_none, ite_self]
  | cons first rest induction =>
      rw [List.length_cons] at fits
      rcases powered.setSlot (show start < memorySize by omega) first with
        ⟨middle, stores, powered', written⟩
      rcases induction powered'
          (show start + 1 + rest.length ≤ memorySize by omega) with
        ⟨memory, stores', powered'', written'⟩
      refine ⟨memory, ?_, powered'', fun addr => ?_⟩
      · unfold Cpu.storeBytes
        rw [stores]
        exact stores'
      · refine (written' addr).trans ?_
        rw [written addr]
        by_cases behind : start + 1 ≤ addr.toNat
        · rw [if_pos behind, if_neg (by omega), if_pos (by omega)]
          have index : addr.toNat - start = addr.toNat - (start + 1) + 1 := by
            omega
          rw [index, List.getElem?_cons_succ]
        · rw [if_neg behind]
          by_cases here : addr.toNat = start
          · rw [if_pos here, if_pos (by omega), here, Nat.sub_self,
              List.getElem?_cons_zero, Option.getD_some]
          · rw [if_neg here, if_neg (by omega)]

/-- Bytes that do not fit are written behind the memory. -/
theorem Powered.storeBytes_outside
    (powered : Powered cpu) (bytes : List Byte) {start : Nat}
    (inside : start ≤ memorySize)
    (outside : memorySize < start + bytes.length) :
    Cpu.storeBytes cpu.memory start bytes = none := by
  induction bytes generalizing cpu start with
  | nil =>
      rw [List.length_nil] at outside
      omega
  | cons first rest induction =>
      rw [List.length_cons] at outside
      unfold Cpu.storeBytes
      by_cases last : start < memorySize
      · rcases powered.setSlot last first with ⟨middle, stores, powered', _⟩
        rw [stores]
        exact induction powered' (by omega) (by omega)
      · rcases powered.storage with ⟨storage, data, length⟩
        have refused : cpu.memory.setSlot start first = none := by
          unfold Vec.setSlot
          rw [data]
          exact if_neg (by rw [length]; exact last)
        rw [refused]

end Cpu

end Libcute.Examples.Cpu6502
