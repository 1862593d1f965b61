import TapeMachine.Dump
import TapeMachine.Machine.Basic
import TapeMachine.Machine.Fault
import TapeMachine.Program.Basic

/-!
# Running a program

A `Config` is a run in progress: where it is in the program, how many instructions it has done, the
tape and pointer, the input not yet read and the output. `Config.attempt` tries the next instruction.
A run that gets stuck stays as it was before the instruction that stopped it.

`Config.execute` repeats `attempt`. A program may run for ever, so it takes the number of attempts to
make at most, and says so when they did not bring the run to its end.
-/

namespace TapeMachine

/-- What stays fixed during a run. -/
structure Setup where
  program : Program
  /-- Whether the diagnostic instruction writes a dump. -/
  debug : Bool
  /-- The number of instructions allowed. Nothing may run with a budget of zero or below. -/
  budget : Option Int
  deriving DecidableEq, Repr

/-- A run in progress. -/
structure Config where
  pc : Nat
  steps : Nat
  tape : Array UInt8
  pointer : Nat
  input : List UInt8
  output : Output
  deriving DecidableEq, Repr

/-- What came of the attempt to run the next instruction. -/
inductive Attempt where
  /-- There is no instruction left. -/
  | ended (c : Config)
  | advanced (c : Config)
  | stuck (fault : Fault) (c : Config)

/-- How a run ended. -/
inductive Ending where
  | finished
  | failed (fault : Fault)
  deriving DecidableEq, Repr

namespace Config

/-- The start of a run on a blank tape of `length` cells. -/
def start (length : Nat) (input : List UInt8) : Config :=
  ⟨0, 0, Array.replicate length 0, 0, input, .empty⟩

/-- Goes on at `pc`, with one more instruction done. -/
@[inline] def goTo (c : Config) (pc : Nat) : Attempt :=
  .advanced { c with pc := pc, steps := c.steps + 1 }

/-- Goes on at the following instruction. -/
@[inline] def next (c : Config) : Attempt := c.goTo (c.pc + 1)

/-- Replaces the value of the current cell and goes on. -/
@[inline] def update (c : Config) (f : UInt8 → UInt8) : Attempt :=
  match c with
  | ⟨pc, steps, tape, pointer, input, output⟩ =>
    if h : pointer < tape.size then
      next ⟨pc, steps, tape.set pointer (f tape[pointer]), pointer, input, output⟩
    else .stuck .noCell ⟨pc, steps, tape, pointer, input, output⟩

/-- Runs the instruction at `c.pc`. -/
def perform (s : Setup) (c : Config) : Attempt :=
  match s.program.fetch c.pc with
  | .increment => c.update (· + 1)
  | .decrement => c.update (· - 1)
  | .moveRight =>
    if c.pointer + 1 = c.tape.size then
      .stuck (.outOfBounds ((s.program.line? c.pc).getD 0) '>') c
    else next { c with pointer := c.pointer + 1 }
  | .moveLeft =>
    if c.pointer = 0 then .stuck (.outOfBounds ((s.program.line? c.pc).getD 0) '<') c
    else next { c with pointer := c.pointer - 1 }
  | .loopOpen =>
    match c.tape[c.pointer]? with
    | none => .stuck .noCell c
    | some value => c.goTo (if value = 0 then s.program.partner c.pc + 1 else c.pc + 1)
  | .loopClose => c.goTo (s.program.partner c.pc)
  | .output =>
    match c.tape[c.pointer]? with
    | none => .stuck .noCell c
    | some value => next { c with output := c.output.push value }
  | .input =>
    match c with
    | ⟨pc, steps, tape, pointer, b :: rest, output⟩ =>
      if pointer < tape.size then
        next ⟨pc, steps, tape.setIfInBounds pointer b, pointer, rest, output⟩
      else .stuck .noCell ⟨pc, steps, tape, pointer, b :: rest, output⟩
    | ⟨pc, steps, tape, pointer, [], output⟩ => next ⟨pc, steps, tape, pointer, [], output⟩
  | .diagnostic =>
    if s.debug then
      let dump := (Dump.render c.tape c.pointer).toUTF8.toList
      next { c with output := c.output.append dump }
    else c.next
  | .inert => c.next

/-- Whether a budget does not allow another instruction after `steps`. -/
def exhausted (budget : Option Int) (steps : Nat) : Option Int :=
  budget.filter (· ≤ steps)

/-- Tries the next instruction: first whether there is one, then whether the budget allows it. -/
def attempt (s : Setup) (c : Config) : Attempt :=
  if s.program.length ≤ c.pc then .ended c
  else
    match exhausted s.budget c.steps with
    | some n => .stuck (.exhausted n) c
    | none => c.perform s

/-- Whether the next attempt would read a byte where none is left. -/
def awaitsInput (s : Setup) (c : Config) : Bool :=
  c.input.isEmpty && c.pc < s.program.length && s.program.fetch c.pc = .input

/-- Makes at most `fuel` attempts. There is no ending if they were too few. -/
def execute (s : Setup) (fuel : Nat) (c : Config) : Config × Option Ending :=
  match fuel with
  | 0 => (c, none)
  | fuel + 1 =>
    match c.attempt s with
    | .ended c => (c, some .finished)
    | .stuck fault c => (c, some (.failed fault))
    | .advanced c => execute s fuel c

end Config

/-- A run on a machine, from start to end. -/
structure Execution where
  /-- How the run ended, if it did within the attempts allowed. -/
  ending : Option Ending
  /-- What the run wrote. -/
  output : Output
  /-- The machine after the run. -/
  machine : Machine

/-- Blanks the machine and runs a program on it. The output does not count as captured. -/
def Machine.execute (m : Machine) (s : Setup) (input : List UInt8) (fuel : Nat) : Execution :=
  let (c, ending) := (Config.start m.length input).execute s fuel
  ⟨ending, c.output, ⟨c.tape, c.pointer, .empty⟩⟩

end TapeMachine
