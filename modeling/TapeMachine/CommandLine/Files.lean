import TapeMachine.Text.Split

/-!
# Files

A tree of directories and files, and the paths that lead into it from its root or from a working
directory.

A path is taken apart at its slashes; empty parts and `.` are dropped, while `..` leads to the
directory above. Nothing is above the root but the root itself.
-/

namespace TapeMachine.CommandLine

/-- Why a file cannot be read. -/
inductive ReadError where
  | notFound
  | notADirectory
  | isADirectory
  | nameTooLong
  /-- The path has a NUL in it, so that no file can have it. -/
  | nulInPath
  deriving DecidableEq, Repr

/-- The text of an error. -/
def ReadError.message : ReadError → String
  | notFound => "No such file or directory"
  | notADirectory => "Not a directory"
  | isADirectory => "Is a directory"
  | nameTooLong => "File name too long"
  | nulInPath => "embedded null byte"

/-- A path in parts. -/
structure Path where
  absolute : Bool
  parts : List String
  deriving DecidableEq, Repr

namespace Path

/-- The number of bytes that the name of one file may have. -/
def maxName : Nat := 255

/-- The number of bytes that a path may have. -/
def maxLength : Nat := 4095

/-- The path that a text denotes. -/
def ofString (text : String) : Path :=
  { absolute := text.startsWith "/"
    parts := (Text.split '/' text.toList).filter fun part => part != "" && part != "." }

/-- A path as text. -/
def render (p : Path) : String :=
  match p.absolute, p.parts with
  | true, parts => "/" ++ "/".intercalate parts
  | false, [] => "."
  | false, parts => "/".intercalate parts

end Path

/-- A file or a directory. -/
inductive Node where
  | file (bytes : List UInt8)
  | directory (entries : List (String × Node))

namespace Node

/-- A directory with nothing in it. -/
def empty : Node := .directory []

/-- The entry of a name. -/
def lookup? (entries : List (String × Node)) (name : String) : Option Node :=
  (entries.find? (·.1 == name)).map (·.2)

/-- Puts a node at a path, and makes the directories on the way to it. A directory that is there stays
as it is when an empty one is put in its place. -/
def insert (new : Node) (parts : List String) (tree : Node) : Node :=
  match parts with
  | [] =>
    match new, tree with
    | directory [], directory _ => tree
    | _, _ => new
  | part :: rest =>
    match tree with
    | file _ => tree
    | directory entries =>
      let below := insert new rest ((lookup? entries part).getD empty)
      directory ((part, below) :: entries.filter (·.1 != part))

/-- Follows a path down from `node`, which is below the directories `above` (nearest first). -/
def follow (above : List Node) (node : Node) (parts : List String) : Except ReadError Node :=
  match parts, node with
  | [], node => .ok node
  | _ :: _, file _ => .error .notADirectory
  | part :: rest, directory entries =>
    if Path.maxName < part.utf8ByteSize then .error .nameTooLong
    else if part = ".." then
      match above with
      | [] => follow [] node rest
      | up :: above => follow above up rest
    else
      match lookup? entries part with
      | none => .error .notFound
      | some below => follow (node :: above) below rest

end Node

/-- A tree of files, with a directory in it that paths start from. -/
structure FileSystem where
  root : Node
  workingDirectory : List String

/-- Reads the file at a path. -/
def FileSystem.read (fs : FileSystem) (text : String) : Except ReadError (List UInt8) :=
  let path := Path.ofString text
  if text.contains '\x00' then .error .nulInPath
  else if Path.maxLength < path.render.utf8ByteSize then .error .nameTooLong
  else
    let parts := if path.absolute then path.parts else fs.workingDirectory ++ path.parts
    match Node.follow [] fs.root parts with
    | .error e => .error e
    | .ok (.directory _) => .error .isADirectory
    | .ok (.file bytes) => .ok bytes

end TapeMachine.CommandLine
