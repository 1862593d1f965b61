import TapeMachine.Text.Radix

/-!
# Tape dumps

A dump lists up to ten cells around the pointer, starting two cells before it and clipped to the tape,
with their values in decimal and in hexadecimal. The row of the pointer is marked.
-/

namespace TapeMachine

/-- A run of cell indices: from `start` up to but not including `stop`. -/
structure Window where
  start : Nat
  stop : Int
  deriving DecidableEq, Repr

namespace Window

/-- The number of cells before the pointer that a window starts with. -/
def lead : Int := 2

/-- The number of cells in a window that is not clipped. -/
def rows : Int := 10

/-- The window around a pointer on a tape of `length` cells. The pointer may lie off the tape. -/
def around (pointer length : Int) : Window :=
  let start := (pointer - lead).toNat
  ⟨start, min (start + rows) length⟩

/-- The number of cells of a window; a window that stops before it starts has none. -/
def size (w : Window) : Nat := (w.stop - w.start).toNat

/-- The indices of a window in order. -/
def indices (w : Window) : List Nat := List.range' w.start w.size

/-- The cells of a tape that lie in a window. -/
def cells (w : Window) (tape : Array UInt8) : List UInt8 :=
  (tape.extract w.start (w.start + w.size)).toList

end Window

namespace Dump

/-- A number in `base` with capital digits, filled with zeros to at least `width`. -/
def numeral (base width n : Nat) : String :=
  String.ofList ((Text.digits base width n).map Char.toUpper)

/-- The first line of a dump. -/
def header : String := " CELL  VALUE (dec|hex)\n"

/-- The row of one cell. -/
def row (index : Nat) (value : UInt8) (marked : Bool) : String :=
  numeral 10 5 index ++ ": " ++ numeral 10 3 value.toNat ++ "|0x" ++ numeral 16 2 value.toNat
    ++ (if marked then " <" else "") ++ "\n"

/-- The dump of a tape around a pointer, which may lie off the tape. -/
def render (tape : Array UInt8) (pointer : Int) : String :=
  (Window.around pointer tape.size).indices.foldl
    (fun text i => text ++ row i (tape[i]?.getD 0) (i == pointer)) header

end Dump

end TapeMachine
