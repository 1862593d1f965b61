/-!
# Diagnostics

A diagnostic is a message tied to a source line. Lines count from 1.
-/

namespace TapeMachine

/-- A message about one source line. -/
structure Diagnostic where
  line : Int
  message : String
  deriving DecidableEq, Repr

namespace Diagnostic

/-- A bracket without a partner. -/
def unbalanced (line : Nat) (bracket : Char) : Diagnostic :=
  ⟨line, "Unbalanced '" ++ bracket.toString ++ "'"⟩

/-- A move that would leave the tape. -/
def outOfBounds (line : Int) (symbol : String) : Diagnostic :=
  ⟨line, "'" ++ symbol ++ "' causes cell out of bounds"⟩

/-- The text of a diagnostic: its line in brackets, then its message. -/
def render (d : Diagnostic) : String := s!"[line {d.line}] {d.message}"

/-- The line an error report consists of. -/
def report (d : Diagnostic) : String := s!"error: {d.render}\n"

/-- Several diagnostics on one line. -/
def summary (ds : List Diagnostic) : String := "; ".intercalate (ds.map render)

end Diagnostic

end TapeMachine
