import Libcute.Examples.Cpu6502

/-!
# Programs for the emulator

The seven instructions without their encoding: a program that has no jumps is
a list of `Instr`, and `exec` says what each of them does to the registers, to
the two flags and to the memory, without program counter and status byte.

The emulator runs the encoded program as `exec` says, if no store hits code
that is still to be executed: `program_runs`.
-/

namespace Libcute.Examples.Cpu6502

open Libcute.Library.StraightLine

/-! ## Meaning -/

/-- The instructions but `BRK`. -/
inductive Instr where
  | ldaImmediate (value : Byte)
  | ldxImmediate (value : Byte)
  | inx
  | sta (target : Address)
  | lda (source : Address)
  | nop
deriving DecidableEq, Repr

/-- What a program works on. -/
structure Machine where
  a : Byte
  x : Byte
  zero : Bool
  negative : Bool
  memory : Address → Byte

/-- The flags after a value was loaded or counted. -/
def Machine.flagged (machine : Machine) (value : Byte) : Machine :=
  { machine with zero := value = 0, negative := value.msb }

/-- What an instruction does. -/
def exec : Instr → Machine → Machine
  | .ldaImmediate value, machine =>
      ({ machine with a := value } : Machine).flagged value
  | .ldxImmediate value, machine =>
      ({ machine with x := value } : Machine).flagged value
  | .inx, machine =>
      ({ machine with x := machine.x + 1 } : Machine).flagged (machine.x + 1)
  | .sta target, machine =>
      { machine with
        memory := Function.update machine.memory target machine.a }
  | .lda source, machine =>
      ({ machine with a := machine.memory source } : Machine).flagged
        (machine.memory source)
  | .nop, machine => machine

/-! ## Code -/

/-- The bytes of an instruction; addresses have their low byte first. -/
def Instr.encode : Instr → List Byte
  | .ldaImmediate value => [0xA9, value]
  | .ldxImmediate value => [0xA2, value]
  | .inx => [0xE8]
  | .sta target => [0x8D, target.setWidth 8, (target >>> 8).setWidth 8]
  | .lda source => [0xAD, source.setWidth 8, (source >>> 8).setWidth 8]
  | .nop => [0xEA]

def encode (program : List Instr) : List Byte :=
  program.flatMap Instr.encode

/-- A program that ends with `BRK`. -/
def code (program : List Instr) : List Byte := encode program ++ [0x00]

/-- These bytes lie at an address; addresses wrap around. -/
def CodeAt (memory : Address → Byte) : Address → List Byte → Prop
  | _, [] => True
  | addr, byte :: rest => memory addr = byte ∧ CodeAt memory (addr + 1) rest

/-- None of so many bytes from an address on is this one. -/
def Avoids (target : Address) : Address → Nat → Prop
  | _, 0 => True
  | addr, count + 1 => target ≠ addr ∧ Avoids target (addr + 1) count

instance decidableAvoids (target : Address) :
    (addr : Address) → (count : Nat) → Decidable (Avoids target addr count)
  | _, 0 => isTrue trivial
  | addr, count + 1 =>
      have := decidableAvoids target (addr + 1) count
      inferInstanceAs (Decidable (_ ∧ _))

/-- What an instruction stores to. -/
def Instr.target : Instr → Option Address
  | .sta target => some target
  | _ => none

/-- No store of the program hits code that is still to be executed. -/
def Spares : Address → List Instr → Prop
  | _, [] => True
  | addr, instr :: rest =>
      (match instr.target with
        | none => True
        | some target =>
            Avoids target (addr + BitVec.ofNat 16 instr.encode.length)
              (code rest).length) ∧
        Spares (addr + BitVec.ofNat 16 instr.encode.length) rest

instance decidableSpares :
    (addr : Address) → (program : List Instr) →
      Decidable (Spares addr program)
  | _, [] => isTrue trivial
  | addr, instr :: rest =>
      have := decidableSpares
        (addr + BitVec.ofNat 16 instr.encode.length) rest
      have : Decidable (match instr.target with
        | none => True
        | some target =>
            Avoids target (addr + BitVec.ofNat 16 instr.encode.length)
              (code rest).length) := by
        cases instr.target <;> infer_instance
      inferInstanceAs (Decidable (_ ∧ _))

variable {memory memory' : Address → Byte} {addr target : Address}
  {bytes rest : List Byte} {program : List Instr}

theorem codeAt_append (bytes rest : List Byte) (addr : Address) :
    CodeAt memory addr (bytes ++ rest) ↔
      CodeAt memory addr bytes ∧
        CodeAt memory (addr + BitVec.ofNat 16 bytes.length) rest := by
  induction bytes generalizing addr with
  | nil => simp [CodeAt]
  | cons byte bytes induction =>
      have next : addr + 1 + BitVec.ofNat 16 bytes.length =
          addr + BitVec.ofNat 16 (byte :: bytes).length := by
        rw [List.length_cons, BitVec.ofNat_add, BitVec.add_assoc,
          BitVec.add_comm 1]
        rfl
      rw [List.cons_append, ← next]
      exact (and_congr_right fun _ => induction (addr + 1)).trans and_assoc.symm

/-- A store beside the code leaves the code. -/
theorem CodeAt.update
    (lies : CodeAt memory addr bytes)
    (avoids : Avoids target addr bytes.length) (value : Byte) :
    CodeAt (Function.update memory target value) addr bytes := by
  induction bytes generalizing addr with
  | nil => trivial
  | cons byte bytes induction =>
      refine ⟨?_, induction lies.2 avoids.2⟩
      rw [Function.update_of_ne (Ne.symm avoids.1)]
      exact lies.1

/-- The code of a program begins with its first instruction. -/
theorem code_cons (instr : Instr) (program : List Instr) :
    code (instr :: program) = instr.encode ++ code program := by
  unfold code encode
  rw [List.flatMap_cons, List.append_assoc]

theorem length_code (program : List Instr) :
    (code program).length = (encode program).length + 1 := by
  unfold code
  rw [List.length_append]
  rfl

/-! ## The status byte -/

/-- The bits of the status byte but the zero and the negative flag. -/
def otherFlags (status : Byte) : Byte := status &&& 0x7D

/-- Setting or clearing both flags leaves the other bits. -/
theorem flags_set :
    ∀ (status : Byte) (zero negative : Bool),
      let first :=
        if zero then status ||| flagZero else status &&& ~~~flagZero
      let last :=
        if negative then first ||| flagNegative
        else first &&& ~~~flagNegative
      last.getLsbD 1 = zero ∧ last.getLsbD 7 = negative ∧
        otherFlags last = otherFlags status := by
  decide +kernel

theorem sign_bit :
    ∀ value : Byte, value &&& 0x80 ≠ 0 ↔ value.msb = true := by
  decide +kernel

/-- `update_zn` sets its two flags and leaves the others. -/
theorem updateZn_flags (cpu : Cpu) (value : Byte) :
    (cpu.updateZn value).status.getLsbD 1 = decide (value = 0) ∧
      (cpu.updateZn value).status.getLsbD 7 = value.msb ∧
      otherFlags (cpu.updateZn value).status = otherFlags cpu.status := by
  have facts := flags_set cpu.status (decide (value = 0)) value.msb
  simp only [decide_eq_true_eq] at facts
  unfold Cpu.updateZn
  simp only [sign_bit]
  exact facts

/-! ## Steps -/

variable {cpu cpu' : Cpu}

theorem step_eq
    (powered : cpu.Powered) {opcode : Byte}
    (fetched : cpu.byte cpu.pc = opcode) :
    cpu.step = Cpu.execute opcode { cpu with pc := cpu.pc + 1 } := by
  unfold Cpu.step
  rw [powered.fetch, fetched]

/-- The two bytes of an address together. -/
theorem join_bytes (target : Address) :
    (target.setWidth 8).setWidth 16 |||
        ((target >>> 8).setWidth 8).setWidth 16 <<< 8 = target := by
  apply BitVec.eq_of_getLsbD_eq
  intro i inside
  simp only [BitVec.getLsbD_or, BitVec.getLsbD_setWidth,
    BitVec.getLsbD_shiftLeft, BitVec.getLsbD_ushiftRight]
  by_cases low : i < 8
  · simp [low, inside]
  · have index : 8 + (i - 8) = i := by omega
    have high : i - 8 < 8 := by omega
    simp [low, inside, index, high]
    omega

theorem fetchAddress_eq
    (powered : cpu.Powered)
    (low : cpu.byte cpu.pc = target.setWidth 8)
    (high : cpu.byte (cpu.pc + 1) = (target >>> 8).setWidth 8) :
    cpu.fetchAddress = some (target, { cpu with pc := cpu.pc + 1 + 1 }) := by
  have powered' : ({ cpu with pc := cpu.pc + 1 } : Cpu).Powered :=
    powered.congr rfl
  have second : ({ cpu with pc := cpu.pc + 1 } : Cpu).fetch =
      some ((target >>> 8).setWidth 8, { cpu with pc := cpu.pc + 1 + 1 }) := by
    rw [← high]
    exact powered'.fetch
  unfold Cpu.fetchAddress
  rw [powered.fetch, low]
  dsimp only
  rw [second]
  dsimp only
  rw [join_bytes]

/--
The processor is about to carry out a program that ends at `finish`.  The
other parameters are what no instruction of a program changes.
-/
structure Stands
    (y sp others : Byte) (finish : Address)
    (program : List Instr) (machine : Machine) (cpu : Cpu) : Prop where
  powered : cpu.Powered
  a : cpu.a = machine.a
  x : cpu.x = machine.x
  y : cpu.y = y
  sp : cpu.sp = sp
  zero : cpu.status.getLsbD 1 = machine.zero
  negative : cpu.status.getLsbD 7 = machine.negative
  others : otherFlags cpu.status = others
  memory : cpu.byte = machine.memory
  code : CodeAt cpu.byte cpu.pc (code program)
  spares : Spares cpu.pc program
  finish : cpu.pc + BitVec.ofNat 16 (encode program).length = finish

variable {y sp others : Byte} {finish : Address} {machine : Machine}
  {instr : Instr}

theorem Stands.codes
    (stands : Stands y sp others finish (instr :: program) machine cpu) :
    CodeAt cpu.byte cpu.pc instr.encode ∧
      CodeAt cpu.byte (cpu.pc + BitVec.ofNat 16 instr.encode.length)
        (Cpu6502.code program) := by
  have code := stands.code
  rw [code_cons, codeAt_append] at code
  exact code

theorem Stands.finishes
    (stands : Stands y sp others finish (instr :: program) machine cpu) :
    cpu.pc + BitVec.ofNat 16 instr.encode.length +
      BitVec.ofNat 16 (encode program).length = finish := by
  have finish := stands.finish
  unfold encode at finish ⊢
  rw [List.flatMap_cons, List.length_append, BitVec.ofNat_add] at finish
  rw [BitVec.add_assoc]
  exact finish

/-- An instruction that loads or counts a value: all but `sta` and `nop`. -/
theorem Stands.loaded
    (stands : Stands y sp others finish (instr :: program) machine cpu)
    (cpu' : Cpu) (memory : cpu'.memory = cpu.memory)
    (yStays : cpu'.y = cpu.y) (spStays : cpu'.sp = cpu.sp)
    (statusStays : cpu'.status = cpu.status)
    (pc : cpu'.pc = cpu.pc + BitVec.ofNat 16 instr.encode.length)
    (value : Byte)
    (does : exec instr machine =
      ({ machine with a := cpu'.a, x := cpu'.x } : Machine).flagged value) :
    Stands y sp others finish program (exec instr machine)
      (cpu'.updateZn value) := by
  have flags := updateZn_flags cpu' value
  have bytes : (cpu'.updateZn value).byte = cpu.byte :=
    Cpu.byte_congr memory
  have counter : (cpu'.updateZn value).pc = cpu'.pc := rfl
  rw [does]
  exact {
    powered := stands.powered.congr memory
    a := rfl
    x := rfl
    y := yStays.trans stands.y
    sp := spStays.trans stands.sp
    zero := flags.1
    negative := flags.2.1
    others := by rw [flags.2.2, statusStays, stands.others]
    memory := bytes.trans stands.memory
    code := by
      rw [bytes, counter, pc]
      exact stands.codes.2
    spares := by
      rw [counter, pc]
      exact stands.spares.2
    finish := by
      rw [counter, pc]
      exact stands.finishes }

/-- The processor takes one step for one instruction. -/
theorem Stands.first
    (stands : Stands y sp others finish (instr :: program) machine cpu) :
    ∃ cpu', cpu.step = some cpu' ∧
      Stands y sp others finish program (exec instr machine) cpu' := by
  have powered := stands.powered
  have powered' : ({ cpu with pc := cpu.pc + 1 } : Cpu).Powered :=
    powered.congr rfl
  have codes := stands.codes.1
  have two : cpu.pc + 1 + 1 = cpu.pc + BitVec.ofNat 16 2 := by
    rw [BitVec.add_assoc]
    rfl
  have three : cpu.pc + 1 + 1 + 1 = cpu.pc + BitVec.ofNat 16 3 := by
    rw [two, BitVec.add_assoc]
    rfl
  cases instr with
  | ldaImmediate value =>
      have fetched : ({ cpu with pc := cpu.pc + 1 } : Cpu).fetch =
          some (value, { cpu with pc := cpu.pc + 1 + 1 }) := by
        rw [← codes.2.1]
        exact powered'.fetch
      rw [step_eq powered codes.1]
      refine ⟨_, congrArg (Option.map _) fetched, ?_⟩
      · refine stands.loaded { cpu with pc := cpu.pc + 1 + 1, a := value }
          rfl rfl rfl rfl two value ?_
        rw [stands.x]
        rfl
  | ldxImmediate value =>
      have fetched : ({ cpu with pc := cpu.pc + 1 } : Cpu).fetch =
          some (value, { cpu with pc := cpu.pc + 1 + 1 }) := by
        rw [← codes.2.1]
        exact powered'.fetch
      rw [step_eq powered codes.1]
      refine ⟨_, congrArg (Option.map _) fetched, ?_⟩
      · refine stands.loaded { cpu with pc := cpu.pc + 1 + 1, x := value }
          rfl rfl rfl rfl two value ?_
        rw [stands.a]
        rfl
  | inx =>
      rw [step_eq powered codes.1]
      refine ⟨_, rfl, stands.loaded
        { cpu with pc := cpu.pc + 1, x := cpu.x + 1 }
          rfl rfl rfl rfl rfl (cpu.x + 1) ?_⟩
      rw [stands.a, stands.x]
      rfl
  | sta target =>
      have fetched := fetchAddress_eq powered' codes.2.1 codes.2.2.1
      rcases powered.setSlot (Cpu.address_lt target) cpu.a with
        ⟨memory, stores, powered'', written⟩
      have bytes : ({ cpu with memory := memory } : Cpu).byte =
          Function.update cpu.byte target cpu.a := by
        funext addr
        rw [written addr, Function.update_apply]
        simp [BitVec.toNat_inj]
      have bytes' : ({ cpu with
          pc := cpu.pc + 1 + 1 + 1, memory := memory } : Cpu).byte =
          Function.update cpu.byte target cpu.a := bytes
      refine ⟨{ cpu with pc := cpu.pc + 1 + 1 + 1, memory := memory }, ?_, ?_⟩
      · rw [step_eq powered codes.1]
        have executes :
            Cpu.execute 0x8D { cpu with pc := cpu.pc + 1 } =
              ({ cpu with pc := cpu.pc + 1 } : Cpu).storeAbsolute := rfl
        rw [executes]
        unfold Cpu.storeAbsolute
        rw [fetched]
        dsimp only
        rw [stores]
        rfl
      · have avoids := stands.spares.1
        exact {
          powered := powered''.congr rfl
          a := stands.a
          x := stands.x
          y := stands.y
          sp := stands.sp
          zero := stands.zero
          negative := stands.negative
          others := stands.others
          memory := by
            rw [bytes', stands.memory, stands.a]
            rfl
          code := by
            rw [bytes']
            dsimp only
            rw [three]
            exact stands.codes.2.update avoids cpu.a
          spares := by
            dsimp only
            rw [three]
            exact stands.spares.2
          finish := by
            dsimp only
            rw [three]
            exact stands.finishes }
  | lda source =>
      have fetched := fetchAddress_eq powered' codes.2.1 codes.2.2.1
      let loaded : Cpu :=
        { cpu with pc := cpu.pc + 1 + 1 + 1, a := cpu.byte source }
      refine ⟨loaded.updateZn (cpu.byte source), ?_, ?_⟩
      · rw [step_eq powered codes.1]
        have executes :
            Cpu.execute 0xAD { cpu with pc := cpu.pc + 1 } =
              ({ cpu with pc := cpu.pc + 1 } : Cpu).loadAbsolute := rfl
        rw [executes]
        unfold Cpu.loadAbsolute
        rw [fetched]
        dsimp only
        rw [powered.slot source]
        rfl
      · refine stands.loaded loaded rfl rfl rfl rfl three
          (cpu.byte source) ?_
        have value : cpu.byte source = machine.memory source :=
          congrFun stands.memory source
        have a : loaded.a = machine.memory source := value
        have x : loaded.x = machine.x := stands.x
        rw [a, x, value]
        rfl
  | nop =>
      rw [step_eq powered codes.1]
      refine ⟨{ cpu with pc := cpu.pc + 1 }, rfl, ?_⟩
      exact {
        powered := powered'
        a := stands.a
        x := stands.x
        y := stands.y
        sp := stands.sp
        zero := stands.zero
        negative := stands.negative
        others := stands.others
        memory := stands.memory
        code := stands.codes.2
        spares := stands.spares.2
        finish := stands.finishes }

theorem break_bit :
    ∀ status : Byte,
      status &&& flagBreak = otherFlags status &&& flagBreak ∧
        otherFlags (status ||| flagBreak) = otherFlags status ||| flagBreak ∧
        (status ||| flagBreak) &&& flagBreak ≠ 0 ∧
        (status ||| flagBreak).getLsbD 1 = status.getLsbD 1 ∧
        (status ||| flagBreak).getLsbD 7 = status.getLsbD 7 := by
  decide +kernel

/-- The emulator carries out programs as `exec` says. -/
theorem carries (calm : others &&& flagBreak = 0) :
    Carries exec Cpu.broken Cpu.step (Stands y sp others finish) where
  goes := by
    intro program machine cpu stands
    unfold Cpu.broken
    rw [(break_bit cpu.status).1, stands.others, calm]
    rfl
  first := fun _ _ _ _ stands => stands.first

/-! ## Runs -/

/-- What a program sees of the processor. -/
def Cpu.seen (cpu : Cpu) : Machine where
  a := cpu.a
  x := cpu.x
  zero := cpu.status.getLsbD 1
  negative := cpu.status.getLsbD 7
  memory := cpu.byte

/-- The processor stopped behind a program with this result. -/
structure Finished
    (cpu : Cpu) (program : List Instr) (final : Cpu) : Prop where
  turns :
    turns Cpu.broken Cpu.step (program.length + 1) cpu = some final
  stops : Cpu.Runs cpu final
  result : final.seen = run exec program cpu.seen
  pc : final.pc = cpu.pc + BitVec.ofNat 16 (code program).length
  y : final.y = cpu.y
  sp : final.sp = cpu.sp
  others : otherFlags final.status = otherFlags cpu.status ||| flagBreak
  untouched : ∀ addr, (∀ instr ∈ program, instr.target ≠ some addr) →
    final.byte addr = cpu.byte addr

/-- A program leaves the bytes that it has no store for. -/
theorem untouched_triple
    (addr : Address) (value : Byte)
    (others : ∀ instr ∈ program, instr.target ≠ some addr) :
    Triple exec (fun machine => machine.memory addr = value) program
      (fun machine => machine.memory addr = value) := by
  refine Triple.keeps ?_
  intro instr member machine holds
  have other := others instr member
  cases instr with
  | sta target =>
      have apart : addr ≠ target := by
        rintro rfl
        exact other rfl
      refine Eq.trans ?_ holds
      exact Function.update_of_ne apart _ _
  | ldaImmediate value => exact holds
  | ldxImmediate value => exact holds
  | inx => exact holds
  | lda source => exact holds
  | nop => exact holds

/-- From wherever the code of a program lies, the emulator runs it. -/
theorem finished_of_code
    (powered : cpu.Powered) (calm : cpu.broken = false)
    (lies : CodeAt cpu.byte cpu.pc (code program))
    (spares : Spares cpu.pc program) :
    ∃ final, Finished cpu program final := by
  have clear : otherFlags cpu.status &&& flagBreak = 0 := by
    rw [← (break_bit cpu.status).1]
    unfold Cpu.broken at calm
    simpa using calm
  have ready : Stands cpu.y cpu.sp (otherFlags cpu.status)
      (cpu.pc + BitVec.ofNat 16 (encode program).length) (program ++ [])
      cpu.seen cpu := by
    rw [List.append_nil]
    exact ⟨powered, rfl, rfl, rfl, rfl, rfl, rfl, rfl, rfl, lies, spares,
      rfl⟩
  rcases (carries clear).program program ready with ⟨last, runs, stands⟩
  have going := (carries clear).goes _ _ _ stands
  have finish : last.pc = cpu.pc + BitVec.ofNat 16 (encode program).length := by
    have finish := stands.finish
    simpa [encode] using finish
  have stops : last.step =
      some { last with
        pc := last.pc + 1, status := last.status ||| flagBreak } :=
    step_eq stands.powered stands.code.1
  let final : Cpu :=
    { last with pc := last.pc + 1, status := last.status ||| flagBreak }
  have broken : final.broken = true := by
    unfold Cpu.broken
    exact decide_eq_true (break_bit last.status).2.2.1
  have turns : turns Cpu.broken Cpu.step (program.length + 1) cpu =
      some final := by
    rw [turns_add, runs, Option.bind_some, turns_succ going, stops]
    rfl
  have result : final.seen = run exec program cpu.seen := by
    have bits := break_bit last.status
    have same : final.seen = last.seen := by
      unfold Cpu.seen
      rw [bits.2.2.2.1, bits.2.2.2.2]
      rfl
    rw [same]
    unfold Cpu.seen
    rw [stands.a, stands.x, stands.zero, stands.negative, stands.memory]
    rfl
  refine ⟨final, turns, ⟨_, turns, broken⟩, result, ?_, stands.y, stands.sp,
    ?_, ?_⟩
  · have next : final.pc = last.pc + 1 := rfl
    rw [next, finish, length_code, BitVec.ofNat_add, BitVec.add_assoc]
    rfl
  · have status : final.status = last.status ||| flagBreak := rfl
    rw [status, (break_bit last.status).2.1, stands.others]
  · intro addr others
    have kept := untouched_triple addr (cpu.byte addr) others cpu.seen rfl
    rw [← result] at kept
    exact kept

end Libcute.Examples.Cpu6502
