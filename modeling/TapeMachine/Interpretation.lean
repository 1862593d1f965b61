import TapeMachine.Machine.Config

/-!
# Interpreting a source

Prepares a source and runs it on a fresh machine without a budget. What goes wrong is reported as
text, one line for each diagnostic.
-/

namespace TapeMachine

/-- The outcome of interpreting a source. -/
structure Interpretation where
  /-- Whether the program ran to its end. -/
  ok : Bool
  out : List UInt8
  err : String
  deriving DecidableEq, Repr

namespace Interpretation

/-- The setup in which a program is interpreted. -/
def setup (program : Program) (debug : Bool) : Setup := ⟨program, debug, none⟩

/-- The report of a source with lone brackets. -/
def ofDiagnostics (ds : List Diagnostic) : Interpretation :=
  ⟨false, [], String.join (ds.map Diagnostic.report)⟩

/-- The report of a run that ended. -/
def ofEnding (out : Output) : Ending → Interpretation
  | .finished => ⟨true, out.toList, ""⟩
  | .failed f => ⟨false, out.toList, String.join (f.diagnostic?.toList.map Diagnostic.report)⟩

end Interpretation

/-- Interprets a source. There is no outcome if `fuel` attempts do not bring the run to its end. -/
def interpret (source input : List UInt8) (debug : Bool) (fuel : Nat) : Option Interpretation :=
  match Program.prepare source with
  | .error ds => some (.ofDiagnostics ds)
  | .ok program =>
    let e := (Machine.blank Machine.defaultLength).execute (Interpretation.setup program debug) input
      fuel
    e.ending.map (Interpretation.ofEnding e.output)

end TapeMachine
