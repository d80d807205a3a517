import Libcute.Collection.Vector.Calls
import Libcute.Examples.Cpu6502.Programs
import Libcute.Library.Transition

/-!
# Loading and running programs

What `main` of the emulator does: a program is loaded, the processor is reset
and runs until `BRK`.  Whatever the allocator left in the memory, the run ends
and the result is that of the program, `loaded_program_runs`.

The invariant of all uses says what the emulator never touches, and that a
step fails at unknown opcodes only, so that no access leaves the memory.
`cu_6502_load_file` may leave it: it compares the low 16 bits of the size of
the file, and then reads all of it.
-/

namespace Libcute.Examples.Cpu6502

open Libcute.Collection.Blocks
open Libcute.Collection.Vector
open Libcute.Core.Size
open Libcute.Io.File
open Libcute.Library.StraightLine
open Libcute.Library.Transition

variable {cpu cpu' : Cpu} {addr : Address} {program : List Instr}

/-! ## Creation -/

/-- A processor that was created has all of its memory. -/
theorem create_powered
    {first second : Grant Byte}
    (created : create first second = some (.ok cpu)) :
    cpu.Powered ∧ cpu.y = 0 ∧ cpu.sp = 0xFD ∧ cpu.status = flagUnused := by
  unfold create at created
  cases made : Vec.create ⟨1, 1⟩ (some memorySize) false first with
  | error error =>
      rw [made] at created
      cases created
  | ok vector =>
      have fits : ∀ capacity, some memorySize = some capacity →
          capacity * 1 < sizeLimit := by
        rintro _ ⟨rfl⟩
        decide
      rcases create_valid fits made with
        ⟨valid, empty, _, _, _, capacity⟩
      rw [Option.getD_some] at capacity
      have fresh : vector.length = 0 := by
        rw [← valid.elements_length, empty]
        rfl
      have resized : vector.resize memorySize second =
          some (none, { vector with length := memorySize }) := by
        unfold Vec.resize
        rw [if_neg (by omega)]
        dsimp only
        rw [if_neg (by omega)]
        rfl
      rw [made] at created
      dsimp only at created
      rw [resized] at created
      cases created
      refine ⟨⟨?_, rfl⟩, rfl, rfl, rfl⟩
      cases data : vector.data with
      | none =>
          have none := valid.vacant data
          rw [capacity] at none
          exact absurd none (by decide)
      | some storage =>
          exact ⟨storage, rfl, (valid.slots storage data).trans capacity⟩

/-- With a block for the memory, a processor is created. -/
theorem create_granted
    (ptr : Nat) (fill : Nat → Byte) (second : Grant Byte) :
    ∃ cpu, create (some (ptr, fill)) second = some (.ok cpu) := by
  have request : Core.Interface.Layout.create (sizeMul memorySize 1) 1 =
      ⟨memorySize, 1⟩ := by decide
  have invalid : ¬ Core.Interface.Layout.Invalid ⟨1, 1⟩ := by decide
  have positive : 0 < memorySize := by decide
  unfold create Vec.create
  rw [if_neg invalid]
  dsimp only
  rw [if_pos positive, request]
  unfold alloc
  dsimp only
  rw [if_neg positive.ne']
  dsimp only
  unfold Vec.resize
  dsimp only
  rw [if_neg (lt_irrefl memorySize)]
  dsimp only
  rw [if_neg (Nat.not_lt_zero memorySize)]
  exact ⟨_, rfl⟩

/-! ## Loading -/

/-- Bytes that lie one after the other, without wrapping around. -/
theorem codeAt_of_bytes
    {memory : Address → Byte} {bytes : List Byte}
    (fits : addr.toNat + bytes.length ≤ memorySize)
    (lies : ∀ other : Address, addr.toNat ≤ other.toNat →
      ∀ (inside : other.toNat - addr.toNat < bytes.length),
        memory other = bytes[other.toNat - addr.toNat]) :
    CodeAt memory addr bytes := by
  induction bytes generalizing addr with
  | nil => trivial
  | cons byte bytes induction =>
      rw [List.length_cons] at fits
      constructor
      · have here := lies addr (le_refl _) (by simp)
        simpa using here
      · cases bytes with
        | nil => trivial
        | cons second bytes =>
            rw [List.length_cons] at fits
            have next : (addr + 1).toNat = addr.toNat + 1 := by
              unfold memorySize at fits
              rw [BitVec.toNat_add]
              have one : (1 : Address).toNat = 1 := rfl
              omega
            refine induction ?_ ?_
            · rw [next, List.length_cons]
              omega
            · intro other behind inside
              rw [next] at behind
              have index : other.toNat - addr.toNat =
                  other.toNat - (addr + 1).toNat + 1 := by
                omega
              have there := lies other (by omega) (by
                rw [index, List.length_cons]
                omega)
              rw [there]
              simp only [index, List.getElem_cons_succ]

/-- The memory after some bytes were stored from an address on. -/
def patched
    (memory : Address → Byte) (addr : Address) (bytes : List Byte) :
    Address → Byte :=
  fun other =>
    if addr.toNat ≤ other.toNat then
      (bytes[other.toNat - addr.toNat]?).getD (memory other)
    else
      memory other

theorem patched_codeAt
    (memory : Address → Byte) {bytes : List Byte}
    (fits : addr.toNat + bytes.length ≤ memorySize) :
    CodeAt (patched memory addr bytes) addr bytes := by
  refine codeAt_of_bytes fits ?_
  intro other behind inside
  unfold patched
  rw [if_pos behind, List.getElem?_eq_getElem inside, Option.getD_some]

theorem load_eq
    (powered : cpu.Powered) {bytes : List Byte}
    (fits : addr.toNat + bytes.length ≤ memorySize) :
    ∃ loaded, cpu.load bytes addr = some loaded ∧ loaded.Powered ∧
      loaded.byte = patched cpu.byte addr bytes := by
  rcases powered.storeBytes bytes fits with
    ⟨memory, stores, powered', written⟩
  refine ⟨{ cpu with memory := memory, pc := addr }, ?_, powered'.congr rfl,
    funext written⟩
  unfold Cpu.load
  rw [powered.length, if_neg (by omega), stores]
  rfl

/-- A program that was loaded runs to its end. -/
theorem loaded_finishes
    (powered : cpu.Powered) (program : List Instr) (addr : Address)
    (fits : addr.toNat + (code program).length ≤ memorySize)
    (spares : Spares addr program) :
    ∃ loaded final,
      cpu.load (code program) addr = some loaded ∧
        loaded.byte = patched cpu.byte addr (code program) ∧
        Finished (loaded.reset addr) program final := by
  rcases load_eq powered fits with ⟨loaded, loads, powered', bytes⟩
  have ready : (loaded.reset addr).byte = loaded.byte := Cpu.byte_congr rfl
  have lies : CodeAt (loaded.reset addr).byte (loaded.reset addr).pc
      (code program) := by
    rw [ready, bytes]
    exact patched_codeAt cpu.byte fits
  have reset : (loaded.reset addr).Powered := powered'.congr rfl
  have calm : (loaded.reset addr).broken = false :=
    (by decide : decide (flagUnused &&& flagBreak ≠ 0) = false)
  rcases finished_of_code reset calm lies spares with ⟨final, finished⟩
  exact ⟨loaded, final, loads, bytes, finished⟩

/-! ## The program of `main` -/

/-- The program that `main` runs when it is not given a file. -/
def mainProgram : List Instr := [.ldaImmediate 1, .ldxImmediate 5, .inx]

example : code mainProgram = [0xA9, 0x01, 0xA2, 0x05, 0xE8, 0x00] := rfl

theorem mainProgram_triple :
    Triple exec (fun _ => True) mainProgram
      (fun machine => machine.a = 1 ∧ machine.x = 6) := by
  refine Triple.weaken
    (Triple.first (Triple.first (Triple.first Triple.skip))) ?_
  intro machine _
  exact ⟨rfl, rfl⟩

/-- `main` without a file prints 1 and 6, whatever was in the memory. -/
theorem main_prints
    {first second : Grant Byte}
    (created : create first second = some (.ok cpu)) :
    ∃ loaded final,
      cpu.load (code mainProgram) 0x0600 = some loaded ∧
        (loaded.reset 0x0600).Runs final ∧ final.a = 1 ∧ final.x = 6 := by
  rcases loaded_finishes (create_powered created).1 mainProgram 0x0600
      (by decide) (by decide) with
    ⟨loaded, final, loads, _, finished⟩
  have shows := mainProgram_triple (loaded.reset 0x0600).seen trivial
  rw [← finished.result] at shows
  exact ⟨loaded, final, loads, finished.stops, shows⟩

/-! ## The invariant of all uses -/

/-- The opcodes that the emulator knows. -/
def opcodes : List Byte := [0xA9, 0xA2, 0xE8, 0x8D, 0xAD, 0xEA, 0x00]

/-- What the emulator keeps. -/
structure Sound (cpu : Cpu) : Prop where
  powered : cpu.Powered
  y : cpu.y = 0
  sp : cpu.sp = 0xFD
  others : otherFlags cpu.status = flagUnused ∨
    otherFlags cpu.status = flagUnused ||| flagBreak
  exclusive : (cpu.status.getLsbD 1 && cpu.status.getLsbD 7) = false

/-- A zero has no sign. -/
theorem zero_unsigned :
    ∀ value : Byte, (decide (value = 0) && value.msb) = false := by
  decide +kernel

theorem Sound.updateZn (sound : Sound cpu) (a x value : Byte) :
    Sound (({ cpu with a := a, x := x } : Cpu).updateZn value) := by
  have flags := updateZn_flags { cpu with a := a, x := x } value
  constructor
  · exact sound.powered.congr rfl
  · exact sound.y
  · exact sound.sp
  · rw [flags.2.2]
    exact sound.others
  · rw [flags.1, flags.2.1]
    exact zero_unsigned value

theorem Sound.next (sound : Sound cpu) (pc : Address) :
    Sound { cpu with pc := pc } :=
  ⟨sound.powered.congr rfl, sound.y, sound.sp, sound.others,
    sound.exclusive⟩

theorem Sound.fetch
    (sound : Sound cpu) :
    ∃ value next, cpu.fetch = some (value, next) ∧ Sound next ∧
      next.memory = cpu.memory :=
  ⟨_, _, sound.powered.fetch, sound.next _, rfl⟩

theorem Sound.fetchAddress
    (sound : Sound cpu) :
    ∃ target next, cpu.fetchAddress = some (target, next) ∧ Sound next := by
  rcases sound.fetch with ⟨low, middle, first, sound', _⟩
  rcases sound'.fetch with ⟨high, next, second, sound'', _⟩
  unfold Cpu.fetchAddress
  rw [first]
  dsimp only
  rw [second]
  exact ⟨_, next, rfl, sound''⟩

/-- A known opcode is executed, and the invariant stays. -/
theorem Sound.execute
    (sound : Sound cpu) {opcode : Byte} (known : opcode ∈ opcodes) :
    ∃ cpu', Cpu.execute opcode cpu = some cpu' ∧ Sound cpu' := by
  have cases : opcode = 0xA9 ∨ opcode = 0xA2 ∨ opcode = 0xE8 ∨
      opcode = 0x8D ∨ opcode = 0xAD ∨ opcode = 0xEA ∨ opcode = 0x00 := by
    simpa [opcodes] using known
  rcases cases with rfl | rfl | rfl | rfl | rfl | rfl | rfl
  · rcases sound.fetch with ⟨value, next, fetched, sound', _⟩
    refine ⟨_, congrArg (Option.map _) fetched, ?_⟩
    exact sound'.updateZn value next.x value
  · rcases sound.fetch with ⟨value, next, fetched, sound', _⟩
    refine ⟨_, congrArg (Option.map _) fetched, ?_⟩
    exact sound'.updateZn next.a value value
  · exact ⟨_, rfl, sound.updateZn cpu.a (cpu.x + 1) (cpu.x + 1)⟩
  · rcases sound.fetchAddress with ⟨target, next, fetched, sound'⟩
    rcases sound'.powered.setSlot (Cpu.address_lt target) next.a with
      ⟨memory, stores, powered, _⟩
    have executes : Cpu.execute 0x8D cpu = cpu.storeAbsolute := rfl
    rw [executes]
    unfold Cpu.storeAbsolute
    rw [fetched]
    dsimp only
    rw [stores]
    exact ⟨_, rfl, powered, sound'.y, sound'.sp, sound'.others,
      sound'.exclusive⟩
  · rcases sound.fetchAddress with ⟨source, next, fetched, sound'⟩
    have executes : Cpu.execute 0xAD cpu = cpu.loadAbsolute := rfl
    rw [executes]
    unfold Cpu.loadAbsolute
    rw [fetched]
    dsimp only
    rw [sound'.powered.slot]
    exact ⟨_, rfl, sound'.updateZn (next.byte source) next.x
      (next.byte source)⟩
  · exact ⟨cpu, rfl, sound⟩
  · have bits := break_bit cpu.status
    refine ⟨_, rfl, sound.powered.congr rfl, sound.y, sound.sp, ?_, ?_⟩
    · right
      dsimp only
      rw [bits.2.1]
      rcases sound.others with calm | broken
      · rw [calm]
      · rw [broken]
        decide
    · dsimp only
      rw [bits.2.2.2.1, bits.2.2.2.2]
      exact sound.exclusive

theorem execute_unknown {opcode : Byte} (unknown : opcode ∉ opcodes) :
    Cpu.execute opcode cpu = none := by
  have other : ∀ known : Byte, known ∈ opcodes →
      opcode.toNat ≠ known.toNat := by
    intro known member equal
    rw [BitVec.toNat_inj] at equal
    exact unknown (equal ▸ member)
  unfold Cpu.execute
  split
  · exact absurd ‹_› (other 0xA9 (by decide))
  · exact absurd ‹_› (other 0xA2 (by decide))
  · exact absurd ‹_› (other 0xE8 (by decide))
  · exact absurd ‹_› (other 0x8D (by decide))
  · exact absurd ‹_› (other 0xAD (by decide))
  · exact absurd ‹_› (other 0xEA (by decide))
  · exact absurd ‹_› (other 0x00 (by decide))
  · rfl

/-- A step fails at unknown opcodes only: no access leaves the memory. -/
theorem Sound.step_eq_none_iff (sound : Sound cpu) :
    cpu.step = none ↔ cpu.byte cpu.pc ∉ opcodes := by
  rw [step_eq sound.powered rfl]
  constructor
  · intro fails known
    rcases (sound.next (cpu.pc + 1)).execute known with ⟨next, does, _⟩
    rw [does] at fails
    contradiction
  · exact execute_unknown

theorem Sound.step (sound : Sound cpu) (steps : cpu.step = some cpu') :
    Sound cpu' := by
  have known : cpu.byte cpu.pc ∈ opcodes := by
    by_contra unknown
    rw [sound.step_eq_none_iff.mpr unknown] at steps
    contradiction
  rw [step_eq sound.powered rfl] at steps
  rcases (sound.next (cpu.pc + 1)).execute known with ⟨next, does, sound'⟩
  rw [does] at steps
  cases steps
  exact sound'

/-! ## Files -/

/-- Storing bytes that fit, whether they come from a slice or from a file. -/
theorem Sound.stored
    (sound : Sound cpu) {bytes : List Byte} {memory : Vec Byte}
    (stores : Cpu.storeBytes cpu.memory addr.toNat bytes = some memory) :
    Sound { cpu with memory := memory, pc := addr } ∧
      ({ cpu with memory := memory, pc := addr } : Cpu).byte =
        patched cpu.byte addr bytes := by
  have fits : addr.toNat + bytes.length ≤ memorySize := by
    by_contra outside
    rw [sound.powered.storeBytes_outside bytes
      (Cpu.address_lt addr).le (by omega)] at stores
    contradiction
  rcases sound.powered.storeBytes bytes fits with
    ⟨memory', stores', powered, written⟩
  rw [stores] at stores'
  cases stores'
  exact ⟨⟨powered.congr rfl, sound.y, sound.sp, sound.others,
    sound.exclusive⟩, funext written⟩

/-- A call of the interface. -/
inductive Use where
  | load (bytes : List Byte) (addr : Address)
  | loadFile (opened : Option (Description × Nat)) (addr : Address)
    (answer : Answer)
  | reset (addr : Address)
  | step

/-- The processor after a call, if the call does what C defines. -/
def Cpu.use (cpu : Cpu) : Use → Option Cpu
  | .load bytes addr => cpu.load bytes addr
  | .loadFile opened addr answer =>
      (cpu.loadFile opened addr answer).map Prod.snd
  | .reset addr => some (cpu.reset addr)
  | .step => cpu.step

/-- The processors that are created and used. -/
def Reached : Cpu → Prop :=
  Reachable
    (fun cpu => ∃ first second, create first second = some (.ok cpu))
    (fun cpu use => (cpu.use use).isSome)
    (fun cpu use => (cpu.use use).getD cpu)

theorem Sound.use
    (sound : Sound cpu) {use : Use} (used : cpu.use use = some cpu') :
    Sound cpu' := by
  cases use with
  | load bytes addr =>
      change cpu.load bytes addr = some cpu' at used
      unfold Cpu.load at used
      split at used
      · cases used
        exact sound
      · rcases Option.map_eq_some_iff.mp used with ⟨memory, stores, rfl⟩
        exact (sound.stored stores).1
  | loadFile opened addr answer =>
      rcases Option.map_eq_some_iff.mp used with
        ⟨⟨done, after⟩, loads, rfl⟩
      dsimp only
      unfold Cpu.loadFile at loads
      split at loads
      · cases loads
        exact sound
      · split at loads
        · cases loads
          exact sound
        · split at loads
          · cases loads
            exact sound
          · rcases Option.map_eq_some_iff.mp loads with
              ⟨memory, stores, equal⟩
            cases equal
            exact (sound.stored stores).1
  | reset addr =>
      cases used
      exact ⟨sound.powered.congr rfl, rfl, rfl,
        Or.inl (by decide : otherFlags flagUnused = flagUnused),
        (by decide : (flagUnused.getLsbD 1 && flagUnused.getLsbD 7) = false)⟩
  | step => exact sound.step used

theorem Sound.reached (reached : Reached cpu) : Sound cpu := by
  refine Reachable.invariant Sound ?_ ?_ reached
  · rintro cpu ⟨first, second, created⟩
    rcases create_powered created with ⟨powered, y, sp, status⟩
    refine ⟨powered, y, sp, ?_, ?_⟩
    · rw [status]
      exact Or.inl (by decide)
    · rw [status]
      decide
  · intro cpu use sound allowed
    rcases Option.isSome_iff_exists.mp allowed with ⟨next, used⟩
    rw [used]
    exact sound.use used

/--
In every state of the emulator that calls can reach, nothing but the
registers `a`, `x` and `pc`, the two flags, the break flag and the memory has
changed, and the next step fails only if the next opcode is unknown.
-/
theorem reached_sound (reached : Reached cpu) :
    Sound cpu ∧ (cpu.step = none ↔ cpu.byte cpu.pc ∉ opcodes) :=
  ⟨Sound.reached reached, (Sound.reached reached).step_eq_none_iff⟩

theorem reached_created
    (ptr : Nat) (fill : Nat → Byte) : ∃ cpu, Reached cpu := by
  rcases create_granted ptr fill none with ⟨cpu, created⟩
  exact ⟨cpu, .start ⟨_, _, created⟩⟩

theorem Reached.use
    (reached : Reached cpu) (use : Use) (used : cpu.use use = some cpu') :
    Reached cpu' := by
  have later := Reachable.step reached
    (show (cpu.use use).isSome by rw [used]; rfl)
  rw [used] at later
  exact later

/-- `INX`, `LDA` of the byte 0x80, and a byte that is no opcode. -/
def strayBytes : List Byte := [0xE8, 0xA9, 0x80, 0xFF]

/-- The bytes are loaded and run: the third step fails. -/
theorem reached_sound_stray :
    ∃ created loaded first second : Cpu,
      create (some (4096, fun _ => 7)) none = some (.ok created) ∧
        created.load strayBytes 0x0600 = some loaded ∧
        (loaded.reset 0x0600).step = some first ∧
        first.step = some second ∧
        second.a = 0x80 ∧ second.x = 1 ∧
        second.status = flagUnused ||| flagNegative ∧
        Sound second ∧ second.step = none := by
  rcases create_granted 4096 (fun _ => 7) none with ⟨created, creates⟩
  rcases load_eq (create_powered creates).1
      (show (0x0600 : Address).toNat + strayBytes.length ≤ memorySize by
        decide) with ⟨loaded, loads, powered, bytes⟩
  have ready : (loaded.reset 0x0600).Powered := powered.congr rfl
  have holds (pc : Address) : (loaded.reset 0x0600).byte pc =
      patched created.byte 0x0600 strayBytes pc :=
    (congrFun (Cpu.byte_congr rfl) pc).trans (congrFun bytes pc)
  -- the first step executes `INX`
  generalize counted :
    ({ loaded.reset 0x0600 with pc := 0x0601, x := 1 } : Cpu).updateZn 1 =
      first
  have inx : (loaded.reset 0x0600).step = some first := by
    rw [← counted]
    exact (step_eq ready ((holds 0x0600).trans rfl)).trans
      (rfl : Cpu.execute 0xE8 _ = _)
  have ready' : first.Powered := by
    rw [← counted]
    exact ready.congr rfl
  have holds' (pc : Address) : first.byte pc =
      patched created.byte 0x0600 strayBytes pc := by
    rw [← counted]
    exact holds pc
  have place : first.pc = 0x0601 := by
    rw [← counted]
    rfl
  have fetched : ({ first with pc := 0x0602 } : Cpu).fetch =
      some (0x80, { first with pc := 0x0603 }) := by
    have ready'' : ({ first with pc := 0x0602 } : Cpu).Powered :=
      ready'.congr rfl
    rw [ready''.fetch]
    exact congrArg some (Prod.ext ((holds' 0x0602).trans rfl) rfl)
  -- the second one `LDA`
  generalize filled :
    ({ first with pc := 0x0603, a := 0x80 } : Cpu).updateZn 0x80 = second
  have lda : first.step = some second := by
    have here : first.byte first.pc = 0xA9 := by
      rw [place]
      exact (holds' 0x0601).trans rfl
    rw [step_eq ready' here, place, ← filled]
    exact congrArg (Option.map _) fetched
  have made : Reached created := .start ⟨_, _, creates⟩
  have before : Reached (loaded.reset 0x0600) :=
    (made.use (.load strayBytes 0x0600) loads).use (.reset 0x0600) rfl
  have between : Reached first := before.use .step inx
  rcases reached_sound (between.use .step lda) with ⟨sound, fails⟩
  refine ⟨created, loaded, first, second, creates, loads, inx, lda, ?_, ?_, ?_,
    sound, fails.mpr ?_⟩
  · rw [← filled]
    rfl
  · rw [← filled, ← counted]
    rfl
  · rw [← filled, ← counted]
    unfold Cpu.updateZn Cpu.reset
    dsimp only
    decide
  · have there : second.byte second.pc = 0xFF := by
      rw [← filled]
      exact (holds' 0x0603).trans rfl
    rw [there]
    decide

/--
Whatever the emulator did before: a program that is loaded at an address runs
to its end, in one step for each instruction and one for `BRK`, and leaves
what the program computes.
-/
theorem reached_program_runs
    (reached : Reached cpu) (program : List Instr) (addr : Address)
    (fits : addr.toNat + (code program).length ≤ memorySize)
    (spares : Spares addr program) :
    ∃ loaded final,
      cpu.load (code program) addr = some loaded ∧
        loaded.byte = patched cpu.byte addr (code program) ∧
        Finished (loaded.reset addr) program final :=
  loaded_finishes (Sound.reached reached).powered program addr fits spares

/-- A program that copies a byte and counts in the index register. -/
theorem reached_program_runs_copy :
    ∃ cpu loaded final : Cpu,
      cpu.load (code [.lda 0x10, .sta 0x0700, .inx]) 0x0600 = some loaded ∧
        loaded.byte = patched cpu.byte 0x0600
          (code [.lda 0x10, .sta 0x0700, .inx]) ∧
        Finished (loaded.reset 0x0600) [.lda 0x10, .sta 0x0700, .inx]
          final := by
  rcases reached_created 4096 (fun _ => 7) with ⟨cpu, reached⟩
  exact ⟨cpu, reached_program_runs reached [.lda 0x10, .sta 0x0700, .inx]
    0x0600 (by decide) (by decide)⟩

/-! ## Files that do not fit -/

theorem read_all
    (file : Description) (start : file.position = 0) {count : Nat}
    (complete : file.content.length ≤ count) :
    (file.read (min count file.content.length)).1 = file.content := by
  unfold Description.read
  dsimp only
  rw [start, List.drop_zero, Nat.min_eq_right complete, List.take_length]

/--
A file that is read as a whole is refused, loaded exactly, or written past
the end of the memory.  The last happens if and only if it does not fit but
the low 16 bits of its size do.
-/
theorem loadFile_complete
    (reached : Reached cpu) (file : Description) (addr : Address)
    (answer : Answer) {count : Nat}
    (start : file.position = 0)
    (answers : answer file.content.length = .ok count)
    (complete : file.content.length ≤ count) :
    let result := cpu.loadFile (some (file, file.content.length)) addr answer
    (result = none ↔
        memorySize < addr.toNat + file.content.length ∧
          addr.toNat + file.content.length % 2 ^ 16 ≤ memorySize) ∧
      (∀ after, result = some (true, after) →
        addr.toNat + file.content.length ≤ memorySize ∧ after.pc = addr ∧
          after.byte = patched cpu.byte addr
            (file.content.map UInt8.toBitVec)) ∧
      (∀ after, result = some (false, after) →
        after = cpu ∧
          memorySize < addr.toNat + file.content.length % 2 ^ 16) := by
  have sound := Sound.reached reached
  dsimp only
  unfold Cpu.loadFile
  dsimp only
  rw [sound.powered.length, answers]
  dsimp only
  rw [read_all file start complete]
  by_cases refused :
      addr.toNat + file.content.length % 2 ^ 16 > memorySize
  · rw [if_pos refused]
    refine ⟨⟨?_, ?_⟩, ?_, ?_⟩
    · intro never
      cases never
    · rintro ⟨_, passes⟩
      omega
    · intro after loads
      cases loads
    · intro after loads
      cases loads
      exact ⟨rfl, refused⟩
  · rw [if_neg refused]
    by_cases outside : memorySize < addr.toNat + file.content.length
    · rw [sound.powered.storeBytes_outside (file.content.map UInt8.toBitVec)
        (Cpu.address_lt addr).le (by rw [List.length_map]; exact outside)]
      refine ⟨⟨fun _ => ⟨outside, by omega⟩, fun _ => rfl⟩, ?_, ?_⟩
      · intro after loads
        cases loads
      · intro after loads
        cases loads
    · rcases sound.powered.storeBytes (file.content.map UInt8.toBitVec)
          (show addr.toNat + (file.content.map UInt8.toBitVec).length ≤
            memorySize by rw [List.length_map]; omega) with
        ⟨memory, stores, _, written⟩
      rw [stores]
      refine ⟨⟨?_, ?_⟩, ?_, ?_⟩
      · intro never
        cases never
      · rintro ⟨beyond, _⟩
        exact absurd beyond outside
      · intro after loads
        cases loads
        exact ⟨by omega, rfl, funext written⟩
      · intro after loads
        cases loads

/-- A file of 65537 bytes at address 3 passes for one of a single byte. -/
theorem loadFile_complete_long :
    ∃ cpu : Cpu,
      cpu.loadFile
        (some (⟨List.replicate 65537 0xEA, 0, false, []⟩, 65537)) 3
        (fun wanted => .ok wanted) = none := by
  rcases reached_created 4096 (fun _ => 0) with ⟨cpu, reached⟩
  have length : (List.replicate 65537 (0xEA : UInt8)).length = 65537 :=
    List.length_replicate
  have cases := loadFile_complete reached
    ⟨List.replicate 65537 0xEA, 0, false, []⟩ 3 (fun wanted => .ok wanted)
    rfl rfl (le_refl _)
  dsimp only at cases
  rw [length] at cases
  exact ⟨cpu, cases.1.mpr (by decide)⟩

end Libcute.Examples.Cpu6502
