import TapeMachine.CommandLine.Files
import TapeMachine.CommandLine.Options
import TapeMachine.Text.Utf8

/-!
# Outcomes

What a command-line tool leaves behind: its exit status and what it wrote.
-/

namespace TapeMachine.CommandLine

/-- Why a tool is broken off. -/
inductive Crash where
  /-- A path has a NUL in it. -/
  | nulInPath
  /-- The option for a program's input has got no value. -/
  | noInput
  /-- The option for a budget has got no value, and an instruction is to be run. -/
  | noBudget
  /-- What is read is not UTF-8. -/
  | undecodable (m : Utf8.Malformed)
  deriving DecidableEq, Repr

/-- The text of a crash. -/
def Crash.message : Crash → String
  | nulInPath => ReadError.nulInPath.message
  | noInput => "'list' object has no attribute 'encode'"
  | noBudget => "'>=' not supported between instances of 'int' and 'list'"
  | undecodable m => m.message

/-- How a tool ends. -/
inductive Exit where
  | status (n : Nat)
  | crashed (c : Crash)
  deriving DecidableEq, Repr

/-- The end of a tool, with the bytes on its output and the text on its error output. -/
structure Outcome where
  exit : Exit
  out : List UInt8
  err : String
  deriving DecidableEq, Repr

namespace Outcome

/-- A tool that shows a text and ends well. -/
def shown (text : String) : Outcome := ⟨.status 0, Utf8.encode text, ""⟩

/-- A tool that ends with error reports. -/
def refused (err : String) : Outcome := ⟨.status 1, [], err⟩

/-- A tool that could not make sense of its command line. -/
def misused (usage name : String) (e : UsageError) : Outcome :=
  ⟨.status 2, [], usage ++ name ++ ": error: " ++ e.message ++ "\n"⟩

/-- A tool that could not read its file. -/
def unreadable : ReadError → Outcome
  | .nulInPath => ⟨.crashed .nulInPath, [], ""⟩
  | e => refused ("error: " ++ e.message ++ "\n")

end Outcome

/-- Why a tool ends while it reads its command line. -/
inductive Early where
  | text (shown : String)
  | error (e : UsageError)
  deriving DecidableEq, Repr

/-- The outcome of ending early. -/
def Early.outcome (usage name : String) : Early → Outcome
  | text shown => .shown shown
  | error e => .misused usage name e

end TapeMachine.CommandLine
