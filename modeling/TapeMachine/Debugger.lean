import TapeMachine.Machine.Stepper
import TapeMachine.Text.Utf8

/-!
# Debugger

A debugger steps through a program by instruction, or runs it until it enters a line with a
breakpoint from a different line. Every run is bounded by a number of instructions; when they are used
up the debugger is exhausted.

`advance` asks its stepper for states. Each state but the first one uses up an instruction of the
budget, so the number of states to ask for is bounded, and that bound is its `fuel`.
-/

namespace TapeMachine

/-- What a debugger is waiting for, or why it has halted. -/
inductive Status where
  | paused
  | breakpoint
  | finished
  | failed
  | exhausted
  deriving DecidableEq, Repr

namespace Status

/-- The word for a status. -/
def name : Status → String
  | paused => "paused"
  | breakpoint => "breakpoint"
  | finished => "finished"
  | failed => "failed"
  | exhausted => "exhausted"

/-- Whether a run in this status is over. -/
def halted : Status → Bool
  | paused => false
  | breakpoint => false
  | finished => true
  | failed => true
  | exhausted => true

/-- The status that a fault leads to. -/
def ofFault : Fault → Status
  | .exhausted _ => exhausted
  | _ => failed

/-- The status when a state has been reached without a breakpoint. -/
def ofState (s : Snapshot) : Status := if s.finished then finished else paused

end Status

/-! ## Breakpoints -/

/-- A refused breakpoint. -/
structure OutsideProgram where
  line : Int
  lineCount : Nat
  deriving DecidableEq, Repr

/-- The text of a refusal. -/
def OutsideProgram.message (e : OutsideProgram) : String :=
  s!"line {e.line} is outside the program (1-{e.lineCount})"

/-- Puts a line into an ascending list of lines, unless it is there. -/
def insertLine (line : Nat) : List Nat → List Nat
  | [] => [line]
  | l :: rest =>
    if line < l then line :: l :: rest
    else if line = l then l :: rest
    else l :: insertLine line rest

/-! ## Debuggers -/

/-- The number of instructions allowed in a run, unless another one is asked for. -/
def defaultBudget : Int := 1000000

/-- A program under inspection. -/
structure Debugger where
  program : Program
  input : List UInt8
  debug : Bool
  maxSteps : Int
  /-- The lines with a breakpoint, ascending. -/
  breakpoints : List Nat
  machine : Machine
  stepper : Stepper
  /-- The state reached. -/
  state : Snapshot
  /-- The fault that ended the run, if one did. -/
  error : Option Fault
  status : Status

/-- A source line that does not exist. -/
inductive NoSuchLine where
  | outOfRange
  /-- The number does not fit in 64 bits. -/
  | tooLarge
  deriving DecidableEq, Repr

/-- The text of the error. -/
def NoSuchLine.message : NoSuchLine → String
  | outOfRange => "list index out of range"
  | tooLarge => "cannot fit 'int' into an index-sized integer"

namespace Debugger

/-- A run from the start, on a blank machine of the default length. -/
def start (program : Program) (input : List UInt8) (debug : Bool) (maxSteps : Int)
    (breakpoints : List Nat) : Debugger :=
  let setup : Setup := ⟨program, debug, some maxSteps⟩
  let (state, stepper, machine) :=
    (Stepper.ofSetup setup input).begin (.blank Machine.defaultLength)
  { program, input, debug, maxSteps, breakpoints, machine, stepper, state
    error := none
    status := .ofState state }

/-- A debugger for a source, or the diagnostics of its lone brackets. -/
def ofSource (source input : List UInt8) (debug : Bool) (maxSteps : Int) :
    Except (List Diagnostic) Debugger :=
  match Program.prepare source with
  | .ok program => .ok (start program input debug maxSteps [])
  | .error ds => .error ds

/-- Starts over. The breakpoints stay. -/
def restart (d : Debugger) : Debugger :=
  start d.program d.input d.debug d.maxSteps d.breakpoints

/-- The number of lines, or 0 for the empty program. -/
def lineCount (d : Debugger) : Nat := d.program.lineCount

/-- Whether the run is over. -/
def halted (d : Debugger) : Bool := d.status.halted

/-- Sets a breakpoint on a line of the program. -/
def setBreakpoint (d : Debugger) (line : Int) : Except OutsideProgram Debugger :=
  if 1 ≤ line ∧ line ≤ d.lineCount then
    .ok { d with breakpoints := insertLine line.toNat d.breakpoints }
  else .error ⟨line, d.lineCount⟩

/-- Removes the breakpoint on a line. Says whether there was one. -/
def clearBreakpoint (d : Debugger) (line : Int) : Bool × Debugger :=
  if d.breakpoints.any (fun l => (l : Int) = line) then
    (true, { d with breakpoints := d.breakpoints.filter fun l => ¬ (l : Int) = line })
  else (false, d)

/-- Removes all breakpoints. -/
def clearAll (d : Debugger) : Debugger := { d with breakpoints := [] }

/-! ## Running -/

/-- How far to advance. -/
inductive Stop where
  /-- After a number of instructions. -/
  | after (count : Int)
  /-- On entry into a line with a breakpoint from a different line. -/
  | atBreakpoint

/-- Whether `executed` instructions are enough. -/
def Stop.reached (stop : Stop) (executed : Nat) : Bool :=
  match stop with
  | after count => count ≤ executed
  | atBreakpoint => false

/-- Whether the way from a line to a line enters one of the breakpoints. -/
def Stop.enters (stop : Stop) (breakpoints : List Nat) (previous line : Option Nat) : Bool :=
  match stop, line with
  | atBreakpoint, some n => line != previous && breakpoints.contains n
  | _, _ => false

/-- Where an advance has come to. -/
structure Progress where
  executed : Nat
  machine : Machine
  stepper : Stepper
  state : Snapshot
  error : Option Fault
  status : Status

/-- Advances from `state`, with `executed` instructions done before. -/
def progress (stop : Stop) (breakpoints : List Nat) (fuel executed : Nat) (machine : Machine)
    (stepper : Stepper) (state : Snapshot) : Progress :=
  match fuel with
  | 0 => ⟨executed, machine, stepper, state, none, .paused⟩
  | fuel + 1 =>
    if stop.reached executed then ⟨executed, machine, stepper, state, none, .paused⟩
    else
      match stepper.next machine with
      | (.state s, stepper, machine) =>
        if s.finished then ⟨executed + 1, machine, stepper, s, none, .finished⟩
        else if stop.enters breakpoints state.line s.line then
          ⟨executed + 1, machine, stepper, s, none, .breakpoint⟩
        else progress stop breakpoints fuel (executed + 1) machine stepper s
      | (.fault f, stepper, machine) =>
        ⟨executed, machine, stepper, state, some f, .ofFault f⟩
      | (.over, stepper, machine) => ⟨executed, machine, stepper, state, none, .paused⟩

/-- Runs until `stop`, or until the run is over. Gives the number of instructions done. -/
def advance (d : Debugger) (stop : Stop) : Nat × Debugger :=
  if d.halted then (0, d)
  else
    match d with
    | ⟨program, input, debug, maxSteps, breakpoints, machine, stepper, state, _, _⟩ =>
      let fuel := maxSteps.toNat - state.step + 1
      match progress stop breakpoints fuel 0 machine stepper state with
      | ⟨executed, machine, stepper, state, error, status⟩ =>
        (executed,
          ⟨program, input, debug, maxSteps, breakpoints, machine, stepper, state, error, status⟩)

/-- Runs `count` instructions, or fewer if the run is over before. -/
def step (d : Debugger) (count : Int) : Nat × Debugger := d.advance (.after count)

/-- Runs until a breakpoint, or until the run is over. -/
def resume (d : Debugger) : Nat × Debugger := d.advance .atBreakpoint

/-! ## Views -/

/-- The dump of the tape as it is now. -/
def dump (d : Debugger) : String := Dump.render d.machine.tape d.machine.pointer

/-- The text of the source line of a number. Numbers from 0 down count from the last line on. No source
has so many lines that the number of one of them does not fit in 64 bits. -/
def sourceLine (d : Debugger) (line : Int) : Except NoSuchLine String :=
  let pieces := splitLines d.program.source
  let index := line - 1
  let offset := if index < 0 then index + pieces.size else index
  match if offset < 0 then none else pieces[offset.toNat]? with
  | some piece => .ok (Utf8.decode piece)
  | none =>
    .error (if index < -Nat.pow 2 63 ∨ Nat.pow 2 63 ≤ index then .tooLarge else .outOfRange)

end Debugger

end TapeMachine
