import TapeMachine.CommandLine.LineReader
import TapeMachine.CommandLine.Outcome
import TapeMachine.Shell
import TapeMachine.Text.Latin1

/-!
# Debugging a file

The tool that opens the debugger shell on one file. The program's input is given on the command line,
one byte a character, and the commands come from the standard input, one a line.
-/

namespace TapeMachine.CommandLine.Debug

/-- The options of the tool. -/
inductive Flag where
  | help
  | input
  | debug
  | maxSteps
  deriving DecidableEq, Repr

def name : String := "bfi-dbg"

def usage : String :=
  "usage: bfi-dbg [-h] [--input INPUT] [--debug] [--max-steps MAX_STEPS] file\n"

def help : String :=
  usage
    ++ "\nLine-oriented debugger for bfi programs\n"
    ++ "\npositional arguments:\n"
    ++ "  file                  Path to the program source\n"
    ++ "\noptions:\n"
    ++ "  -h, --help            show this help message and exit\n"
    ++ "  --input INPUT         Text fed to the program's input, one byte per\n"
    ++ "                        character\n"
    ++ "  --debug               Enable the # instruction\n"
    ++ "  --max-steps MAX_STEPS\n"
    ++ "                        Instructions allowed per run (default: 1,000,000)\n"

def options : Options Flag :=
  { switches :=
      [⟨.help, ["-h", "--help"], false⟩, ⟨.input, ["--input"], true⟩,
        ⟨.debug, ["--debug"], false⟩, ⟨.maxSteps, ["--max-steps"], true⟩]
    positional := .one }

/-- What the command line asks for. -/
structure Args where
  file : Option String
  /-- None if the option is there without a value, as for the budget. -/
  input : Option String
  debug : Bool
  maxSteps : Option Int
  deriving DecidableEq, Repr

/-- Takes in the items of a command line. -/
def collect (args : Args) : List (Item Flag) → Except Early Args
  | [] => .ok args
  | .positional words :: rest => collect { args with file := words.head? } rest
  | .switch s :: rest =>
    match s.meaning with
    | .help => .error (.text help)
    | .debug => collect { args with debug := true } rest
    | _ => collect args rest
  | .value s text :: rest =>
    match s.meaning with
    | .input => collect { args with input := text } rest
    | .maxSteps =>
      match intValue s text with
      | .ok n => collect { args with maxSteps := n } rest
      | .error e => .error (.error e)
    | _ => collect args rest

/-- What is to be done. -/
inductive Plan where
  | finish (o : Outcome)
  | load (path : String) (args : Args)
  deriving DecidableEq, Repr

/-- Decides what to do. -/
def plan (argv : List String) : Plan :=
  let parsed := options.parse argv
  match collect ⟨none, some "", false, some defaultBudget⟩ parsed.items, parsed.extras with
  | .error early, _ => .finish (early.outcome usage name)
  | .ok _, .error e => .finish (.misused usage name e)
  | .ok args, .ok extras =>
    match args.file, extras with
    | none, _ => .finish (.misused usage name (.required ["file"]))
    | some path, [] => .load path args
    | some _, words => .finish (.misused usage name (.unrecognized words))

/-- Opens the shell on a source, unless the arguments or the source are not fit for it. Without a
budget nothing can be run. -/
def openShell (args : Args) (source : List UInt8) : Except Outcome Shell :=
  match args.input.map Latin1.encode? with
  | none => .error ⟨.crashed .noInput, [], ""⟩
  | some none => .error (.refused "error: --input must only contain characters U+0000..U+00FF\n")
  | some (some input) =>
    match Debugger.ofSource source input args.debug (args.maxSteps.getD 0) with
    | .error ds => .error (.refused (String.join (ds.map Diagnostic.report)))
    | .ok d => .ok (.ofDebugger d)

/-- Whether the tool is broken off in this state of the shell: without a budget, as soon as an
instruction is to be run. -/
def isBroken (args : Args) (s : Shell) : Bool :=
  args.maxSteps.isNone && s.debugger.status == .exhausted

/-- What comes of a shell that has written `out` and `err` and reads lines, and ends with `exit` after
the last of them. Each line is asked for with a prompt. -/
def converse (args : Args) (s : Shell) (exit : Exit) (out err : String) : List String → Outcome
  | [] => ⟨exit, Utf8.encode (out ++ Shell.prompt), err⟩
  | line :: rest =>
    let (s, reply) := s.submit line
    if isBroken args s then ⟨.crashed .noBudget, Utf8.encode (out ++ Shell.prompt), err⟩
    else
      let out := out ++ Shell.prompt ++ reply.out
      let err := err ++ reply.err
      if reply.more then converse args s exit out err rest
      else ⟨.status 0, Utf8.encode out, err⟩

/-- Runs the tool. -/
def run (fs : FileSystem) (argv : List String) (stdin : List UInt8) : Outcome :=
  match plan argv with
  | .finish o => o
  | .load path args =>
    match fs.read path with
    | .error e => .unreadable e
    | .ok source =>
      match openShell args source with
      | .error o => o
      | .ok s =>
        let (lines, malformed) := readLines stdin
        let exit := match malformed with
          | none => .status 0
          | some m => .crashed (.undecodable m)
        converse args s exit s.greeting "" lines

end TapeMachine.CommandLine.Debug
