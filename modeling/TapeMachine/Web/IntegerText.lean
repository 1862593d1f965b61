import TapeMachine.Text.Numeral
import TapeMachine.Text.Radix

/-!
# Integers in texts

A text may stand for an integer. It does so plainly if it is written as JSON writes integers: a minus
sign or none, and then a lone zero or ASCII digits that do not start with one.

Any other text is made plain first: blanks around it, a plus sign, zeros before the first other digit
and a fraction of zeros are dropped, and so are underscores, which may stand one by one between digits.
Among the zeros underscores may stand in any number, and a minus sign may follow them.
-/

namespace TapeMachine.Web

/-- Why a text stands for no integer. -/
inductive IntegerError where
  | malformed
  | tooLong
  deriving DecidableEq, Repr

/-- The number of characters that a plain integer may have, its sign included. -/
def maxPlain : Nat := 4300

/-- The plain integer that `cs` is, after `sign` characters. What is too long is so whatever follows. -/
def plainDigits (sign : Nat) (cs : List Char) : Except IntegerError Nat :=
  match cs with
  | ['0'] => .ok 0
  | '0' :: _ => .error .malformed
  | _ =>
    let digits := cs.takeWhile Char.isDigit
    if maxPlain < sign + digits.length then .error .tooLong
    else if digits.isEmpty ∨ digits.length < cs.length then .error .malformed
    else .ok (Text.decimalValue digits)

/-- The integer that stands plainly in a text. -/
def plainInteger (cs : List Char) : Except IntegerError Int :=
  match cs with
  | '-' :: rest => (plainDigits 1 rest).map fun (n : Nat) => -n
  | _ => (plainDigits 0 cs).map fun (n : Nat) => n

/-! ## Making a text plain -/

/-- What is left after zeros and underscores, the last of which before `cs` is `last`. A zero stays if it
is all there is before a fraction. -/
def afterZeros (last : Char) (cs : List Char) : Option (List Char) :=
  match cs with
  | [] => some [last]
  | c :: rest =>
    if c = '0' ∨ c = '_' then afterZeros c rest
    else if c = '-' ∨ c.isDigit then some cs
    else if c = '.' then some (last :: cs)
    else none

/-- Drops the zeros at the start. A digit has to stand there. -/
def dropZeros (cs : List Char) : Option (List Char) :=
  match cs with
  | '0' :: rest => afterZeros '0' rest
  | c :: _ => if c.isDigit then some cs else none
  | [] => none

/-- Drops a fraction of zeros. -/
def dropFraction (cs : List Char) : List Char :=
  match cs.dropWhile (· ≠ '.') with
  | _ :: '0' :: zeros => if zeros.all (· = '0') then cs.takeWhile (· ≠ '.') else cs
  | _ => cs

/-- Whether no underscore stands at either end of a text or beside another one. `before` says that there
is a character before `cs` which is no underscore. -/
def underscoresFit (before : Bool) (cs : List Char) : Bool :=
  match cs with
  | [] => before
  | '_' :: rest => before && underscoresFit false rest
  | _ :: rest => underscoresFit true rest

/-- A text made plain, as far as it can be. -/
def makePlain (cs : List Char) : Option (List Char) := do
  let trimmed := (cs.dropWhile Text.isNumeralBlank).reverse.dropWhile Text.isNumeralBlank
  let (negative, cs) := Text.readSign trimmed.reverse
  let cs := dropFraction (← dropZeros cs)
  let cs := if underscoresFit false cs then cs.filter (· ≠ '_') else cs
  return if negative then '-' :: cs else cs

/-- The integer that a text stands for. Only a text that is plain from the start can be too long. -/
def integerOfText (text : String) : Except IntegerError Int :=
  match plainInteger text.toList with
  | .error .malformed =>
    match (makePlain text.toList).map plainInteger with
    | some (.ok n) => .ok n
    | _ => .error .malformed
  | plain => plain

end TapeMachine.Web
