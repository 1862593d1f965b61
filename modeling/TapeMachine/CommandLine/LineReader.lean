import TapeMachine.Text.Utf8

/-!
# Reading lines

Text comes in as bytes, a block at a time, and goes out as lines. A line ends with a line feed, a
carriage return, or both in this order. A character whose bytes do not all lie in one block waits for
the next block, and so does a carriage return at the end of a block, which may be half of a line end.

Bytes that are not UTF-8 are noticed when their block is read. The lines of earlier blocks have gone out
then; those of the block itself have not.
-/

namespace TapeMachine.CommandLine

/-- What has been read and has not gone out as a line. -/
structure LineReader where
  /-- The first bytes of a character. -/
  bytes : List UInt8
  /-- The characters of a line that has not ended. -/
  line : List Char
  deriving DecidableEq, Repr

namespace LineReader

/-- A reader before the first block. -/
def start : LineReader := ⟨[], []⟩

/-- The number of bytes that are read at a time. -/
def blockSize : Nat := 8192

/-- Splits characters into the lines that have ended and the rest; `current` holds the line under way,
its last character first. -/
def splitLines (more : Bool) (current : List Char) : List Char → List String × List Char
  | [] => ([], current.reverse)
  | '\r' :: '\n' :: rest => endLine (splitLines more [] rest)
  | ['\r'] => if more then ([], ('\r' :: current).reverse) else endLine ([], [])
  | c :: rest =>
    if c = '\n' ∨ c = '\r' then endLine (splitLines more [] rest)
    else splitLines more (c :: current) rest
where
  /-- Puts the line under way before what comes after it. -/
  endLine (after : List String × List Char) : List String × List Char :=
    (String.ofList current.reverse :: after.1, after.2)

/-- Reads a block after which more is to come. -/
def feed (r : LineReader) (block : List UInt8) : Except Utf8.Malformed (List String × LineReader) := do
  let (text, bytes) ← Utf8.readAfter true 0 "" (r.bytes ++ block)
  let (lines, line) := splitLines true [] (r.line ++ text.toList)
  return (lines, ⟨bytes, line⟩)

/-- The lines that are left when there are no more blocks. The last one need not have ended. -/
def finish (r : LineReader) : Except Utf8.Malformed (List String) := do
  let (text, _) ← Utf8.readAfter false 0 "" r.bytes
  let (lines, line) := splitLines false [] (r.line ++ text.toList)
  return if line.isEmpty then lines else lines ++ [String.ofList line]

/-- The lines of blocks, and what is wrong with the bytes after those lines, if anything is. -/
def readBlocks (r : LineReader) : List (List UInt8) → List String × Option Utf8.Malformed
  | [] =>
    match r.finish with
    | .ok lines => (lines, none)
    | .error e => ([], some e)
  | block :: rest =>
    match r.feed block with
    | .ok (lines, r) =>
      let (others, e) := r.readBlocks rest
      (lines ++ others, e)
    | .error e => ([], some e)

/-- Bytes in blocks. -/
def blocks (bytes : List UInt8) : List (List UInt8) :=
  match bytes with
  | [] => []
  | b :: rest => (b :: rest.take (blockSize - 1)) :: blocks (rest.drop (blockSize - 1))
termination_by bytes.length
decreasing_by
  simp only [List.length_drop, List.length_cons]
  omega

end LineReader

/-- The lines of an input, up to the block with the first ill-formed part. -/
def readLines (bytes : List UInt8) : List String × Option Utf8.Malformed :=
  LineReader.start.readBlocks (LineReader.blocks bytes)

end TapeMachine.CommandLine
