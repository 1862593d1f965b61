import TapeMachine.Machine.Config

/-!
# Snapshots

A snapshot is what a run shows of itself between two instructions: the place of the instruction to
come, the instruction just done, the cells around the pointer and the output so far.
-/

namespace TapeMachine

/-- The state of a run after `step` instructions. -/
structure Snapshot where
  step : Nat
  pc : Nat
  /-- The line of the next instruction, none at the end of the program. -/
  line : Option Nat
  /-- The instruction just done, none at the start. -/
  command : Option Instruction
  pointer : Nat
  /-- The index of the first cell shown. -/
  cellsStart : Nat
  cells : List UInt8
  output : Output
  deriving DecidableEq, Repr

namespace Snapshot

/-- The snapshot of a run in progress. -/
def ofConfig (p : Program) (command : Option Instruction) (c : Config) : Snapshot :=
  let window := Window.around c.pointer c.tape.size
  { step := c.steps
    pc := c.pc
    line := p.line? c.pc
    command
    pointer := c.pointer
    cellsStart := window.start
    cells := window.cells c.tape
    output := c.output }

/-- Whether the run is at the end of its program. -/
def finished (s : Snapshot) : Bool := s.line.isNone

/-- The values of cells, separated by blanks, the one at the pointer in brackets. -/
def cellsText (pointer start : Int) (cells : List Int) : String :=
  " ".intercalate (cells.zipIdx.map fun (value, offset) =>
    if start + offset = pointer then s!"[{value}]" else toString value)

/-- The one-line text of a state. -/
def summaryOf (step pc : Int) (line : Option Int) (pointer start : Int) (cells : List Int) : String :=
  let place := match line with
    | some n => s!"line {n}"
    | none => "end"
  s!"step {step} | {place} | pc {pc} | ptr {pointer} | cells@{start}: "
    ++ cellsText pointer start cells

/-- The one-line text of a snapshot. -/
def summary (s : Snapshot) : String :=
  summaryOf s.step s.pc (s.line.map Int.ofNat) s.pointer s.cellsStart
    (s.cells.map fun b => Int.ofNat b.toNat)

end Snapshot

end TapeMachine
