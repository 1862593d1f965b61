import TapeMachine.Diagnostic
import TapeMachine.Program.Brackets
import TapeMachine.Program.Lines

/-!
# Programs

A program is a source with the tables a run needs: the instruction and the line of every byte, and
the partner of every bracket. `Program.prepare` builds the tables, or reports every bracket that has
no partner.
-/

namespace TapeMachine

/-- A source whose brackets are balanced, ready to run. -/
structure Program where
  source : List UInt8
  instructions : Array Instruction
  /-- The line of every byte. -/
  lines : Array Nat
  /-- The offset of the partner of every bracket, and nothing at other bytes. -/
  jumps : Array (Option Nat)
  deriving DecidableEq, Repr

namespace Program

/-- The diagnostics of the brackets without a partner. -/
def diagnostics (lines : Array Nat) (brackets : Brackets) : List Diagnostic :=
  brackets.lone.map fun (offset, bracket) => .unbalanced (lines[offset]?.getD 0) bracket

/-- Scans the whole source, then either builds the program or reports all lone brackets. -/
def prepare (source : List UInt8) : Except (List Diagnostic) Program :=
  let instructions := source.map Instruction.ofByte
  let lines := lineNumbers source
  let brackets := Brackets.ofInstructions instructions
  match diagnostics lines brackets with
  | [] =>
    .ok
      { source, lines
        instructions := instructions.toArray
        jumps := brackets.jumpTable source.length }
  | ds => .error ds

/-- The number of bytes of a program. -/
def length (p : Program) : Nat := p.instructions.size

/-- The instruction at an offset. Past the end there is nothing to do. -/
def fetch (p : Program) (pc : Nat) : Instruction := p.instructions[pc]?.getD .inert

/-- The line of an offset. There is none at the end. -/
def line? (p : Program) (pc : Nat) : Option Nat := p.lines[pc]?

/-- The partner of the bracket at an offset; an offset without a partner stands for itself. -/
def partner (p : Program) (pc : Nat) : Nat := (p.jumps[pc]?.join).getD pc

/-- The line of the last byte, or 0 for the empty program. -/
def lineCount (p : Program) : Nat := p.lines.back?.getD 0

end Program

end TapeMachine
