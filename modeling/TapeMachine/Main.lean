import TapeMachine.CommandLine.Debug
import TapeMachine.CommandLine.Run

/-!
# The command-line tools

One program is both tools: under the name `bfi-dbg` it opens the debugger shell, under any other name it
runs a file. Here files are read, and bytes go in and out; what to do and what to write is decided by
`CommandLine.Run` and `CommandLine.Debug`.

A program that runs gets its input byte by byte, and only when it asks for it. A shell answers each line
before it reads the next, so the blocks that it reads end with a line feed.
-/

namespace TapeMachine.Main

open CommandLine

/-! ## Bytes in and out -/

/-- Writes bytes to the standard output. -/
def writeOut (bytes : List UInt8) : IO Unit := do
  (← IO.getStdout).write (ByteArray.mk bytes.toArray)

/-- Ends a tool. -/
def finish (o : Outcome) : IO UInt32 := do
  writeOut o.out
  (← IO.getStdout).flush
  IO.eprint o.err
  match o.exit with
  | .status n => return UInt32.ofNat n
  | .crashed c =>
    IO.eprint s!"error: {c.message}\n"
    return 1

/-- The system's number of an error, which may come negated. -/
def errorNumber (code : UInt32) : Nat :=
  if code.toNat < Nat.pow 2 31 then code.toNat else Nat.pow 2 32 - code.toNat

/-- Why a file cannot be read, if it is one of the reasons that have names here. -/
def readError? : IO.Error → Option ReadError
  | .noFileOrDirectory _ _ _ => some .notFound
  | .inappropriateType _ code _ =>
    if errorNumber code = 20 then some .notADirectory else some .isADirectory
  | .invalidArgument _ code _ => if errorNumber code = 36 then some .nameTooLong else none
  | _ => none

/-- Reads a file and goes on with its bytes. -/
def withFile (path : String) (next : List UInt8 → IO UInt32) : IO UInt32 := do
  if path.contains '\x00' then finish (.unreadable .nulInPath)
  else
    match ← (IO.FS.readBinFile (Path.ofString path).render).toBaseIO with
    | .ok bytes => next bytes.toList
    | .error e =>
      match readError? e with
      | some reason => finish (.unreadable reason)
      | none => finish (.refused s!"error: {e}\n")

/-! ## Running a file -/

/-- Writes what a run has in its output, and empties it. -/
def drain (c : Config) : IO Config := do
  if c.output.newestFirst.isEmpty then return c
  writeOut c.output.toList
  return { c with output := .empty }

/-- Runs a program to its end. -/
partial def runConfig (s : Setup) (c : Config) : IO Ending := do
  let c ← drain c
  if c.awaitsInput s then
    let stdout ← IO.getStdout
    stdout.flush
    let bytes ← (← IO.getStdin).read 1
    step s { c with input := bytes.toList }
  else step s c
where
  step (s : Setup) (c : Config) : IO Ending :=
    match c.attempt s with
    | .ended _ => return .finished
    | .stuck fault _ => return .failed fault
    | .advanced c => runConfig s c

/-- Runs the tool that interprets a file. -/
def runMain (argv : List String) : IO UInt32 := do
  match Run.plan argv with
  | .finish o => finish o
  | .load path debug =>
    withFile path fun source => do
      match Program.prepare source with
      | .error ds => finish (Run.ofInterpretation (.ofDiagnostics ds))
      | .ok program =>
        let ending ← runConfig (Interpretation.setup program debug)
          (.start Machine.defaultLength [])
        finish (Run.ofInterpretation (.ofEnding .empty ending))

/-! ## Debugging a file -/

/-- Answers lines. If the tool is over after them, there is its exit status in place of the shell. -/
def answerLines (args : Debug.Args) (shell : Shell) : List String → IO (Except UInt32 Shell)
  | [] => return .ok shell
  | line :: rest => do
    let (shell, reply) := shell.submit line
    if Debug.isBroken args shell then return .error (← finish ⟨.crashed .noBudget, [], ""⟩)
    else
      IO.print reply.out
      IO.eprint reply.err
      if !reply.more then return .error 0
      else
        IO.print Shell.prompt
        (← IO.getStdout).flush
        answerLines args shell rest

/-- Reads a block: up to and with a line feed, or as much as a block may hold, or to the end. -/
def readBlock (stdin : IO.FS.Stream) (block : ByteArray) : Nat → IO ByteArray
  | 0 => return block
  | room + 1 => do
    let bytes ← stdin.read 1
    if bytes.isEmpty || bytes.toList = [10] then return block ++ bytes
    else readBlock stdin (block ++ bytes) room

/-- Answers lines until there are none left or the tool is over. -/
partial def answerInput (args : Debug.Args) (reader : LineReader) (shell : Shell) : IO UInt32 := do
  let block ← readBlock (← IO.getStdin) .empty LineReader.blockSize
  let isLast := block.isEmpty
  let read := if isLast then reader.finish.map (·, reader) else reader.feed block.toList
  match read with
  | .error m => finish ⟨.crashed (.undecodable m), [], ""⟩
  | .ok (lines, reader) =>
    match ← answerLines args shell lines with
    | .error status => return status
    | .ok shell => if isLast then return 0 else answerInput args reader shell

/-- Runs the tool that debugs a file. -/
def debugMain (argv : List String) : IO UInt32 := do
  match Debug.plan argv with
  | .finish o => finish o
  | .load path args =>
    withFile path fun source => do
      match Debug.openShell args source with
      | .error o => finish o
      | .ok shell =>
        IO.print (shell.greeting ++ Shell.prompt)
        (← IO.getStdout).flush
        answerInput args .start shell

end TapeMachine.Main

def main (argv : List String) : IO UInt32 := do
  if (← IO.appPath).fileName = some TapeMachine.CommandLine.Debug.name then
    TapeMachine.Main.debugMain argv
  else TapeMachine.Main.runMain argv
