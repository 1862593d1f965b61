import TapeMachine.CommandLine.Outcome

/-!
# Serving

The command line of the server: where it listens, and how many debuggers it keeps.
-/

namespace TapeMachine.CommandLine.Serve

/-- The options of the server. -/
inductive Flag where
  | help
  | host
  | port
  | maxDebuggers
  | logLevel
  deriving DecidableEq, Repr

def name : String := "python -m bfi.webui"

def usage : String :=
  "usage: python -m bfi.webui [-h] [--host HOST] [--port PORT]\n"
    ++ "                           [--max-debuggers MAX_DEBUGGERS]\n"
    ++ "                           [--log-level LOG_LEVEL]\n"

def help : String :=
  usage
    ++ "\nServe the bfi HTTP API\n"
    ++ "\noptions:\n"
    ++ "  -h, --help            show this help message and exit\n"
    ++ "  --host HOST           Interface to listen on (default: 127.0.0.1)\n"
    ++ "  --port PORT           Port (default: 8000)\n"
    ++ "  --max-debuggers MAX_DEBUGGERS\n"
    ++ "                        Live debuggers kept before the least recently used is\n"
    ++ "                        dropped\n"
    ++ "  --log-level LOG_LEVEL\n"
    ++ "                        uvicorn log level\n"

def options : Options Flag :=
  { switches :=
      [⟨.help, ["-h", "--help"], false⟩, ⟨.host, ["--host"], true⟩, ⟨.port, ["--port"], true⟩,
        ⟨.maxDebuggers, ["--max-debuggers"], true⟩, ⟨.logLevel, ["--log-level"], true⟩]
    positional := .none }

/-- How the server is to run. What has been asked for without a value is none. -/
structure Args where
  host : Option String
  port : Option Int
  maxDebuggers : Option Int
  logLevel : Option String
  deriving DecidableEq, Repr

/-- The arguments when none are given. -/
def defaults : Args := ⟨some "127.0.0.1", some 8000, some 64, some "info"⟩

/-- Takes in the items of a command line. -/
def collect (args : Args) : List (Item Flag) → Except Early Args
  | [] => .ok args
  | .positional _ :: rest => collect args rest
  | .switch s :: rest =>
    match s.meaning with
    | .help => .error (.text help)
    | _ => collect args rest
  | .value s text :: rest =>
    match s.meaning with
    | .host => collect { args with host := text } rest
    | .port =>
      match intValue s text with
      | .ok n => collect { args with port := n } rest
      | .error e => .error (.error e)
    | .maxDebuggers =>
      match intValue s text with
      | .ok n => collect { args with maxDebuggers := n } rest
      | .error e => .error (.error e)
    | .logLevel => collect { args with logLevel := text } rest
    | .help => collect args rest

/-- Decides how to serve, or with which outcome not to. -/
def plan (argv : List String) : Except Outcome Args :=
  let parsed := options.parse argv
  match collect defaults parsed.items, parsed.extras with
  | .error early, _ => .error (early.outcome usage name)
  | .ok _, .error e => .error (.misused usage name e)
  | .ok args, .ok [] => .ok args
  | .ok _, .ok words => .error (.misused usage name (.unrecognized words))

end TapeMachine.CommandLine.Serve
