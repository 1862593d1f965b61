import TapeMachine.Debugger
import TapeMachine.Text.Lowercase
import TapeMachine.Text.Numeral

/-!
# Debugger shell

A command line is a command name and arguments, separated by blanks. A name may be given in either
case, and cut short as long as only one command starts with it. A blank line repeats the last command
that was recognised.

What a command writes goes to `Reply.out`; a refused argument, and the fault that ended a run, go to
`Reply.err`.
-/

namespace TapeMachine

/-- The commands of the shell. -/
inductive Command where
  | step
  | continue
  | break
  | delete
  | list
  | dump
  | output
  | restart
  | help
  | quit
  deriving DecidableEq, Repr

namespace Command

/-- The name of a command. -/
def name : Command → String
  | step => "step"
  | .continue => "continue"
  | .break => "break"
  | delete => "delete"
  | list => "list"
  | dump => "dump"
  | output => "output"
  | restart => "restart"
  | help => "help"
  | quit => "quit"

/-- All commands. -/
def all : List Command :=
  [step, .continue, .break, delete, list, dump, output, restart, help, quit]

/-- The commands that a name may mean: the one of that name, or those that start with it. -/
def matching (name : String) : List Command :=
  match all.filter (·.name == name) with
  | [] => all.filter fun c => c.name.startsWith name
  | exact => exact

/-- The text that explains the commands. -/
def usage : String :=
  "commands (any unique prefix works):\n"
    ++ "  step [N]       run N instructions\n"
    ++ "  continue       run until a breakpoint line or the end\n"
    ++ "  break [LINE]   set a breakpoint, or list them\n"
    ++ "  delete [LINE]  remove one breakpoint, or all\n"
    ++ "  list           show source around the current line\n"
    ++ "  dump           show the tape dump around the pointer\n"
    ++ "  output         show program output so far\n"
    ++ "  restart        start over with the same input\n"
    ++ "  quit\n"

end Command

/-- Why an argument is refused. -/
inductive Refusal where
  | numeral (e : Text.NumeralError)
  | countNotPositive
  | line (e : OutsideProgram)
  deriving DecidableEq, Repr

/-- The text of a refusal. -/
def Refusal.message : Refusal → String
  | numeral e => e.message
  | countNotPositive => "step count must be positive"
  | line e => e.message

/-- The answer to a command line. -/
structure Reply where
  out : String
  err : String
  /-- Whether the shell goes on. -/
  more : Bool
  deriving DecidableEq, Repr

namespace Reply

/-- An answer on the normal output. -/
def say (text : String) : Reply := ⟨text, "", true⟩

/-- A line for the error output. -/
def error (message : String) : String := "error: " ++ message ++ "\n"

end Reply

/-- A debugger with the last command line that was recognised. -/
structure Shell where
  debugger : Debugger
  lastCommand : String

namespace Shell

/-- What a shell asks for a command line with. -/
def prompt : String := "(bfi) "

/-- A shell that has not read any command line. -/
def ofDebugger (d : Debugger) : Shell := ⟨d, Command.step.name⟩

/-- What a shell says before it reads the first line. -/
def greeting (s : Shell) : String := s.debugger.state.summary ++ "\n"

/-! ## Answers -/

/-- The error report of a debugger that has failed or is exhausted. -/
def errorReport (d : Debugger) : String :=
  match d.error with
  | none => ""
  | some f =>
    match f.diagnostic? with
    | some diagnostic => diagnostic.report
    | none => Reply.error f.message

/-- The answer after a run: the state reached, and why the run stopped there. -/
def stopReport (d : Debugger) : Reply :=
  let state := d.state.summary ++ "\n"
  match d.status with
  | .breakpoint => .say (state ++ s!"breakpoint at line {d.state.line.getD 0}\n")
  | .finished => .say (state ++ "program finished\n")
  | _ => ⟨state, errorReport d, true⟩

/-- The breakpoints as a list. -/
def breakpointList (lines : List Nat) : String :=
  "breakpoints: "
    ++ (if lines.isEmpty then "none" else ", ".intercalate (lines.map toString)) ++ "\n"

/-- A number filled with blanks to at least four characters. -/
def lineNumber (n : Nat) : String :=
  let digits := toString n
  String.ofList (List.replicate (4 - digits.length) ' ') ++ digits

/-- A row of the listing: an arrow at the line of the next instruction, a star at a breakpoint. -/
def listRow (d : Debugger) (n : Nat) (text : String) : String :=
  (if d.state.line = some n then "->" else "  ") ++ (if d.breakpoints.contains n then "*" else " ")
    ++ lineNumber n ++ "  " ++ text ++ "\n"

/-- The numbers of the lines to list: up to three on either side of the current one. -/
def listedLines (d : Debugger) : List Nat :=
  let current := d.state.line.getD d.lineCount
  let first := max 1 (current - 3)
  let last := min d.lineCount (current + 3)
  List.range' first (last + 1 - first)

/-- The listing around the current line. At the end of the program that is the last line. -/
def listing (d : Debugger) : Except NoSuchLine String :=
  if d.lineCount = 0 then .ok "(empty program)\n"
  else do
    let rows ← (listedLines d).mapM fun (n : Nat) => do
      let text ← d.sourceLine n
      return listRow d n text
    return String.join rows

/-! ## Commands -/

/-- What a command did: its answer and the debugger after it, or why its argument is refused. -/
abbrev Outcome := Except Refusal (Debugger × Reply)

/-- Reads an argument. -/
def argument (text : String) : Except Refusal Int :=
  match Text.parseInt text with
  | .ok n => .ok n
  | .error e => .error (.numeral e)

/-- Runs a number of instructions, one if there is no argument. -/
def doStep (d : Debugger) (args : List String) : Outcome := do
  let count ← match args with
    | [] => .ok 1
    | text :: _ => argument text
  if count < 1 then throw .countNotPositive
  else
    let (_, d) := d.step count
    return (d, stopReport d)

/-- Sets a breakpoint, or lists the breakpoints if there is no argument. -/
def doBreak (d : Debugger) (args : List String) : Outcome :=
  match args with
  | [] => .ok (d, .say (breakpointList d.breakpoints))
  | text :: _ => do
    let line ← argument text
    match d.setBreakpoint line with
    | .ok d => return (d, .say s!"breakpoint set at line {line}\n")
    | .error e => throw (.line e)

/-- Removes a breakpoint, or all of them if there is no argument. -/
def doDelete (d : Debugger) (args : List String) : Outcome :=
  match args with
  | [] => .ok (d.clearAll, .say "all breakpoints deleted\n")
  | text :: _ => do
    let line ← argument text
    match d.clearBreakpoint line with
    | (true, d) => return (d, .say s!"breakpoint at line {text} deleted\n")
    | (false, d) => return (d, .say s!"no breakpoint at line {text}\n")

/-- Lists the source around the current line. -/
def doList (d : Debugger) : Debugger × Reply :=
  match listing d with
  | .ok text => (d, .say text)
  | .error e => (d, ⟨"", Reply.error e.message, true⟩)

/-- Runs a command. -/
def perform (d : Debugger) (command : Command) (args : List String) : Outcome :=
  match command with
  | .step => doStep d args
  | .continue =>
    let (_, d) := d.resume
    .ok (d, stopReport d)
  | .break => doBreak d args
  | .delete => doDelete d args
  | .list => .ok (doList d)
  | .dump => .ok (d, .say d.dump)
  | .output => .ok (d, .say (Text.quotedBytes d.state.output.toList ++ "\n"))
  | .restart =>
    let d := d.restart
    .ok (d, .say ("restarted\n" ++ d.state.summary ++ "\n"))
  | .help => .ok (d, .say Command.usage)
  | .quit => .ok (d, ⟨"", "", false⟩)

/-! ## Command lines -/

/-- What a command line asks for. -/
inductive Request where
  | blank
  | unknown (name : String)
  | ambiguous (name : String)
  | command (c : Command) (args : List String)
  deriving DecidableEq, Repr

/-- Reads a command line. -/
def Request.ofLine (line : String) : Request :=
  match (Text.words line.toList).map String.ofList with
  | [] => .blank
  | word :: args =>
    let name := Text.lowercase word
    match Command.matching name with
    | [] => .unknown name
    | [c] => .command c args
    | _ => .ambiguous name

/-- Runs a command line. A refused argument leaves the debugger as it is. -/
def execute (s : Shell) (line : String) : Shell × Reply :=
  match Request.ofLine line with
  | .blank => (s, .say "")
  | .unknown name => (s, .say s!"unknown command {Text.quoted name}; try 'help'\n")
  | .ambiguous name => (s, .say s!"ambiguous command {Text.quoted name}; try 'help'\n")
  | .command c args =>
    match perform s.debugger c args with
    | .ok (d, reply) => (⟨d, line⟩, reply)
    | .error e => (⟨s.debugger, line⟩, ⟨"", Reply.error e.message, true⟩)

/-- The command line that an input line stands for: a blank line stands for the last command. -/
def effectiveLine (s : Shell) (line : String) : String :=
  match Text.trim line.toList with
  | [] => s.lastCommand
  | cs => String.ofList cs

/-- Runs an input line. -/
def submit (s : Shell) (line : String) : Shell × Reply := s.execute (s.effectiveLine line)

/-- An answer, with the shell after it. -/
structure Turn where
  shell : Shell
  reply : Reply

/-- Runs input lines until they end or the shell does not go on. -/
def loop (s : Shell) : List String → List Turn
  | [] => []
  | line :: rest =>
    let (s, reply) := s.submit line
    ⟨s, reply⟩ :: if reply.more then loop s rest else []

end Shell

end TapeMachine
