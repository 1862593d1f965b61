import TapeMachine.Text.Blank
import TapeMachine.Text.Digit
import TapeMachine.Text.Quoted

/-!
# Integer numerals

A numeral is an optional sign and decimal digits of any script, with blanks around it and single
underscores between digits. Numerals of more than `maxDigits` digits are refused.

The blanks around a numeral are those of ASCII, and beyond ASCII the white space of Unicode: the
information separators do not count.
-/

namespace TapeMachine.Text

/-- Why a text is no numeral. -/
inductive NumeralError where
  | malformed (text : String)
  | tooLong (digits : Nat)
  deriving DecidableEq, Repr

namespace NumeralError

/-- The number of digits a numeral may have. -/
def maxDigits : Nat := 4300

/-- The text of the error. The quoted text is cut to 200 characters. -/
def message : NumeralError → String
  | malformed text =>
    "invalid literal for int() with base 10: " ++ String.ofList ((quoted text).toList.take 200)
  | tooLong digits =>
    s!"Exceeds the limit ({maxDigits} digits) for integer string conversion: value has {digits} "
      ++ "digits; use sys.set_int_max_str_digits() to increase the limit"

end NumeralError

/-- Whether a character may stand around a numeral. -/
def isNumeralBlank (c : Char) : Bool := isBlank c && !(0x1C ≤ c.toNat && c.toNat ≤ 0x1F)

/-- Reads digits and underscores: the value, the number of digits and the rest. Two underscores in a
row, or one at the end, are refused. `afterUnderscore` says that an underscore may not
come next. -/
def readDigits (value count : Nat) (afterUnderscore : Bool) (cs : List Char) :
    Option (Nat × Nat × List Char) :=
  match cs with
  | [] => if afterUnderscore then none else some (value, count, [])
  | c :: rest =>
    if c = '_' then if afterUnderscore then none else readDigits value count true rest
    else
      match digitValue? c with
      | some d => readDigits (10 * value + d) (count + 1) false rest
      | none => if afterUnderscore then none else some (value, count, c :: rest)

/-- Takes a sign off. -/
def readSign (cs : List Char) : Bool × List Char :=
  match cs with
  | '+' :: rest => (false, rest)
  | '-' :: rest => (true, rest)
  | _ => (false, cs)

/-- The integer that a text denotes. -/
def parseInt (text : String) : Except NumeralError Int :=
  let (negative, cs) := readSign (text.toList.dropWhile isNumeralBlank)
  match readDigits 0 0 (cs.head? == some '_') cs with
  | none => .error (.malformed text)
  | some (value, count, rest) =>
    if NumeralError.maxDigits < count then .error (.tooLong count)
    else if count = 0 ∨ !rest.all isNumeralBlank then .error (.malformed text)
    else .ok (if negative then -value else value)

end TapeMachine.Text
