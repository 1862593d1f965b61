/-!
# Source lines

Two views of the lines of a source. `lineNumbers` gives the line of every byte, counting from 1; a
newline belongs to the line it ends. `splitLines` gives the pieces between the newlines.
-/

namespace TapeMachine

/-- The newline byte. -/
def newline : UInt8 := 0x0A

/-- The line numbers of the bytes of `source`, when its first byte is on line `line`. -/
def lineNumbersFrom (line : Nat) (source : List UInt8) (done : Array Nat) : Array Nat :=
  match source with
  | [] => done
  | b :: rest => lineNumbersFrom (if b = newline then line + 1 else line) rest (done.push line)

/-- The line number of every byte. -/
def lineNumbers (source : List UInt8) : Array Nat := lineNumbersFrom 1 source #[]

/-- Splits at newlines, with the bytes of the current piece in `current`, the last first. -/
def splitLinesFrom (current : List UInt8) (source : List UInt8) (done : Array (List UInt8)) :
    Array (List UInt8) :=
  match source with
  | [] => done.push current.reverse
  | b :: rest =>
    if b = newline then splitLinesFrom [] rest (done.push current.reverse)
    else splitLinesFrom (b :: current) rest done

/-- The pieces between newlines, in order: one more than there are newlines. -/
def splitLines (source : List UInt8) : Array (List UInt8) := splitLinesFrom [] source #[]

end TapeMachine
