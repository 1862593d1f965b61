import TapeMachine.Diagnostic

/-!
# Faults

What can stop a run before the end of its program.
-/

namespace TapeMachine

/-- The reason why a run stopped early. -/
inductive Fault where
  /-- A move off the tape: its line, and the instruction's symbol. -/
  | outOfBounds (line : Nat) (symbol : Char)
  /-- No instruction is left in the budget. -/
  | exhausted (budget : Int)
  /-- A cell was needed on a tape that has none. -/
  | noCell
  deriving DecidableEq, Repr

namespace Fault

/-- The diagnostic of a fault that has a source line. -/
def diagnostic? : Fault → Option Diagnostic
  | outOfBounds line symbol => some (.outOfBounds line symbol.toString)
  | _ => none

/-- The text of a fault. -/
def message : Fault → String
  | outOfBounds line symbol => (Diagnostic.outOfBounds line symbol.toString).render
  | exhausted budget => s!"program exceeded its budget of {budget} steps"
  | noCell => "bytearray index out of range"

end Fault

end TapeMachine
