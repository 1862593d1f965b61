import TapeMachine.CommandLine.Outcome
import TapeMachine.Interpretation

/-!
# Running a file

The tool that interprets one file. Every unknown option is reported, and then that there is more than
one file.
-/

namespace TapeMachine.CommandLine.Run

/-- The options of the tool. -/
inductive Flag where
  | help
  | version
  | debug
  deriving DecidableEq, Repr

def name : String := "bfi"

def version : String := "0.2"

def usage : String := "usage: bfi [-h] [--version] [--debug] [FILE ...]\n"

def help : String :=
  usage
    ++ "\nBrainfuck interpreter\n"
    ++ "\npositional arguments:\n"
    ++ "  FILE        Path to the program source\n"
    ++ "\noptions:\n"
    ++ "  -h, --help  show this help message and exit\n"
    ++ "  --version   show program's version number and exit\n"
    ++ "  --debug     Enable the # instruction for debugging\n"

def options : Options Flag :=
  { switches :=
      [⟨.help, ["-h", "--help"], false⟩, ⟨.version, ["--version"], false⟩,
        ⟨.debug, ["--debug"], false⟩]
    positional := .many }

/-- What the command line asks for. -/
structure Args where
  files : List String
  debug : Bool
  deriving DecidableEq, Repr

/-- Takes in the items of a command line. -/
def collect (args : Args) : List (Item Flag) → Except Early Args
  | [] => .ok args
  | .positional words :: rest => collect { args with files := words } rest
  | .switch s :: rest =>
    match s.meaning with
    | .help => .error (.text help)
    | .version => .error (.text (version ++ "\n"))
    | .debug => collect { args with debug := true } rest
  | .value _ _ :: rest => collect args rest

/-- The errors to report about extra words and files. -/
def argumentErrors (files extras : List String) : List String :=
  extras.map (fun word => s!"Unrecognized command line option '{word}'")
    ++ (if 1 < files.length then ["More than one file provided"] else [])

/-- What is to be done. -/
inductive Plan where
  | finish (o : Outcome)
  | load (path : String) (debug : Bool)
  deriving DecidableEq, Repr

/-- Decides what to do with a command line whose items have been taken in. -/
def planArgs (args : Args) (extras : List String) : Plan :=
  match argumentErrors args.files extras, args.files with
  | [], [] => .finish ⟨.status 1, Utf8.encode usage, ""⟩
  | [], path :: _ => .load path args.debug
  | errors, _ => .finish (.refused (String.join (errors.map fun e => s!"error: {e}\n")))

/-- Decides what to do. -/
def plan (argv : List String) : Plan :=
  let parsed := options.parse argv
  match collect ⟨[], false⟩ parsed.items, parsed.extras with
  | .error early, _ => .finish (early.outcome usage name)
  | .ok _, .error e => .finish (.misused usage name e)
  | .ok args, .ok extras => planArgs args extras

/-- The outcome of an interpretation. -/
def ofInterpretation (i : Interpretation) : Outcome :=
  ⟨.status (if i.ok then 0 else 1), i.out, i.err⟩

/-- Runs the tool. There is no outcome if `fuel` attempts do not bring the program to its end. -/
def run (fs : FileSystem) (argv : List String) (stdin : List UInt8) (fuel : Nat) : Option Outcome :=
  match plan argv with
  | .finish o => some o
  | .load path debug =>
    match fs.read path with
    | .error e => some (.unreadable e)
    | .ok source => (interpret source stdin debug fuel).map ofInterpretation

end TapeMachine.CommandLine.Run
