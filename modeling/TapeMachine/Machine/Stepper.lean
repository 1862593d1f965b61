import TapeMachine.Machine.Snapshot

/-!
# Steppers

A stepper is a run that waits between any two instructions. It keeps its own place in the program, its
step count and its input, while the tape, the pointer and the captured output are those of the machine
it is advanced on. So another run on the machine changes them under it.

The first `next` blanks the machine and gives the state at the start; every later one runs one
instruction and gives the state after it. After a fault, and after the last state, the stepper is over.
-/

namespace TapeMachine

/-- How far a stepper has come. -/
inductive Phase where
  | fresh
  | suspended (pc steps : Nat) (input : List UInt8)
  | over
  deriving DecidableEq, Repr

/-- A run that is advanced one instruction at a time. -/
structure Stepper where
  setup : Setup
  /-- The input at the start. -/
  input : List UInt8
  phase : Phase
  deriving DecidableEq, Repr

/-- What advancing a stepper gives. -/
inductive Event where
  | state (s : Snapshot)
  | fault (f : Fault)
  | over
  deriving DecidableEq, Repr

namespace Stepper

/-- A stepper that has not started. -/
def ofSetup (setup : Setup) (input : List UInt8) : Stepper := ⟨setup, input, .fresh⟩

/-- A stepper that waits at `c`, and the machine with the tape, pointer and output of `c`. -/
@[inline] def suspend (g : Stepper) (c : Config) : Stepper × Machine :=
  match c with
  | ⟨pc, steps, tape, pointer, input, output⟩ =>
    ({ g with phase := .suspended pc steps input }, ⟨tape, pointer, output⟩)

/-- A stepper that is over, and the machine with the tape, pointer and output of `c`. -/
@[inline] def finish (g : Stepper) (c : Config) : Stepper × Machine :=
  match c with
  | ⟨_, _, tape, pointer, _, output⟩ => ({ g with phase := .over }, ⟨tape, pointer, output⟩)

/-- Blanks the machine and gives the state at the start. -/
def begin (g : Stepper) (m : Machine) : Snapshot × Stepper × Machine :=
  let c := Config.start m.length g.input
  (.ofConfig g.setup.program none c, g.suspend c)

/-- Advances a stepper on a machine. -/
def next (g : Stepper) (m : Machine) : Event × Stepper × Machine :=
  match g.phase with
  | .fresh =>
    let (s, rest) := g.begin m
    (.state s, rest)
  | .suspended pc steps input =>
    match m with
    | ⟨tape, pointer, captured⟩ =>
      match Config.attempt g.setup ⟨pc, steps, tape, pointer, input, captured⟩ with
      | .ended c => (.over, g.finish c)
      | .stuck f c => (.fault f, g.finish c)
      | .advanced c =>
        let command := g.setup.program.fetch pc
        (.state (.ofConfig g.setup.program (some command) c), g.suspend c)
  | .over => (.over, g, m)

end Stepper

/-- States taken from a stepper, with the stepper and the machine after them. -/
structure Trace where
  states : Array Snapshot
  /-- What came instead of a further state, if anything did. -/
  stop : Option Event
  stepper : Stepper
  machine : Machine

namespace Stepper

/-- Takes up to `count` states, after those in `states`. -/
def takeAfter (states : Array Snapshot) (count : Nat) (g : Stepper) (m : Machine) : Trace :=
  match count with
  | 0 => ⟨states, none, g, m⟩
  | count + 1 =>
    match g.next m with
    | (.state s, g, m) => takeAfter (states.push s) count g m
    | (stop, g, m) => ⟨states, some stop, g, m⟩

/-- Takes up to `count` states. -/
def take (count : Nat) (g : Stepper) (m : Machine) : Trace := takeAfter #[] count g m

/-- Advances a stepper up to `count` times, and keeps the states whose step count is a multiple of
`every`, and the last one. `last` is the state before, if it has not been kept. -/
def sampleAfter (every : Nat) (states : Array Snapshot) (last : Option Snapshot) (count : Nat)
    (g : Stepper) (m : Machine) : Trace :=
  match count with
  | 0 => ⟨states ++ last.toArray, none, g, m⟩
  | count + 1 =>
    match g.next m with
    | (.state s, g, m) =>
      if s.step % every = 0 then sampleAfter every (states.push s) none count g m
      else sampleAfter every states (some s) count g m
    | (stop, g, m) => ⟨states ++ last.toArray, some stop, g, m⟩

/-- Every `every`-th state from the first one on, and the last one, of up to `count` states. -/
def sample (every count : Nat) (g : Stepper) (m : Machine) : Trace :=
  sampleAfter every #[] none count g m

end Stepper

end TapeMachine
