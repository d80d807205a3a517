import Mathlib.Data.List.Basic

/-!
# Straight-line programs and the machines that run them

A program without jumps is a list of instructions, and its meaning is to
execute them one after the other.  `Triple` relates what holds before a
program to what holds after it; its rules follow the program from the front,
and `Triple.keeps` is the rule for what no instruction of a program changes.

A machine takes steps until it halts.  `Carries` says that a machine carries
out the first instruction of a program in one step, whatever follows it;
`Carries.program` concludes that it carries out programs.
-/

namespace Libcute.Library.StraightLine

variable {Instr State Conf : Type}

/-! ## Programs -/

section Programs

variable (exec : Instr → State → State)

/-- Execute the instructions one after the other. -/
def run (program : List Instr) (state : State) : State :=
  program.foldl (fun state instr => exec instr state) state

/-- From every state in which `before` holds the program leads to `after`. -/
def Triple
    (before : State → Prop) (program : List Instr) (after : State → Prop) :
    Prop :=
  ∀ state, before state → after (run exec program state)

variable {exec} {program rest : List Instr} {before middle after : State → Prop}

theorem Triple.skip : Triple exec after [] after :=
  fun _ holds => holds

/-- The first instruction, read backwards from what holds after it. -/
theorem Triple.first
    {instr : Instr} (later : Triple exec middle rest after) :
    Triple exec (fun state => middle (exec instr state)) (instr :: rest)
      after :=
  fun state holds => later (exec instr state) holds

theorem Triple.weaken
    {stronger : State → Prop} (triple : Triple exec before program after)
    (implies : ∀ state, stronger state → before state) :
    Triple exec stronger program after :=
  fun state holds => triple state (implies state holds)

/-- What no instruction of the program changes. -/
theorem Triple.keeps
    (kept : ∀ instr ∈ program, ∀ state,
      before state → before (exec instr state)) :
    Triple exec before program before := by
  induction program with
  | nil => exact Triple.skip
  | cons instr rest induction =>
      refine Triple.weaken (Triple.first (induction ?_)) ?_
      · intro other member
        exact kept other (List.mem_cons_of_mem instr member)
      · exact kept instr List.mem_cons_self

end Programs

/-! ## Machines -/

/-- Take steps until the machine halts, at most so many; a step may fail. -/
def turns
    (halted : Conf → Bool) (step : Conf → Option Conf) :
    Nat → Conf → Option Conf
  | 0, conf => some conf
  | count + 1, conf =>
      if halted conf = true then
        some conf
      else
        (step conf).bind (turns halted step count)

/-- The machine stops, and this is where. -/
def Stops
    (halted : Conf → Bool) (step : Conf → Option Conf)
    (conf final : Conf) : Prop :=
  ∃ count, turns halted step count conf = some final ∧ halted final = true

variable {halted : Conf → Bool} {step : Conf → Option Conf}
  {conf conf' final final' : Conf}

theorem turns_halted (halts : halted conf = true) (count : Nat) :
    turns halted step count conf = some conf := by
  cases count with
  | zero => rfl
  | succ count => exact if_pos halts

theorem turns_succ (goes : halted conf = false) (count : Nat) :
    turns halted step (count + 1) conf =
      (step conf).bind (turns halted step count) :=
  if_neg (by simp [goes])

/-- Turns add up. -/
theorem turns_add (first second : Nat) (conf : Conf) :
    turns halted step (first + second) conf =
      (turns halted step first conf).bind (turns halted step second) := by
  induction first generalizing conf with
  | zero => rw [Nat.zero_add]; rfl
  | succ first induction =>
      cases halts : halted conf with
      | true =>
          rw [turns_halted halts, turns_halted halts, Option.bind_some,
            turns_halted halts]
      | false =>
          rw [Nat.succ_add, turns_succ halts, turns_succ halts,
            Option.bind_assoc]
          congr 1
          funext next
          exact induction next

/-- A machine stops in one state at most. -/
theorem Stops.unique
    (one : Stops halted step conf final)
    (other : Stops halted step conf final') : final = final' := by
  rcases one with ⟨count, ends, halts⟩
  rcases other with ⟨count', ends', halts'⟩
  have later : turns halted step (count + count') conf = _ :=
    turns_add count count' conf
  have later' : turns halted step (count' + count) conf = _ :=
    turns_add count' count conf
  rw [ends, Option.bind_some, turns_halted halts] at later
  rw [ends', Option.bind_some, turns_halted halts', Nat.add_comm,
    later] at later'
  exact Option.some.inj later'

/--
`stands program state conf`: in this configuration the machine is about to
carry out the program from this state.  One instruction takes one step.
-/
structure Carries
    (exec : Instr → State → State) (halted : Conf → Bool)
    (step : Conf → Option Conf)
    (stands : List Instr → State → Conf → Prop) : Prop where
  goes : ∀ program state conf, stands program state conf →
    halted conf = false
  first : ∀ instr rest state conf, stands (instr :: rest) state conf →
    ∃ conf', step conf = some conf' ∧ stands rest (exec instr state) conf'

/-- One instruction after the other: a program takes as many turns. -/
theorem Carries.program
    {exec : Instr → State → State}
    {stands : List Instr → State → Conf → Prop}
    (carries : Carries exec halted step stands)
    (program : List Instr) {rest : List Instr} {state : State}
    (ready : stands (program ++ rest) state conf) :
    ∃ conf', turns halted step program.length conf = some conf' ∧
      stands rest (run exec program state) conf' := by
  induction program generalizing state conf with
  | nil => exact ⟨conf, rfl, ready⟩
  | cons instr program induction =>
      rcases carries.first instr (program ++ rest) state conf ready with
        ⟨next, steps, stands'⟩
      rcases induction stands' with ⟨conf', ends, ready'⟩
      refine ⟨conf', ?_, ready'⟩
      rw [List.length_cons, turns_succ (carries.goes _ _ _ ready), steps]
      exact ends

end Libcute.Library.StraightLine
