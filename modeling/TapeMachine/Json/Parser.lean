import TapeMachine.Json.Basic
import TapeMachine.Text.Radix

/-!
# Reading JSON

`Json.parse` reads a text that holds one value. It takes the standard's grammar with the words `NaN`,
`Infinity` and `-Infinity` besides, and refuses integer literals of more than `maxDigits` digits.
`Json.parseWithin` also refuses values in which arrays and objects nest too deeply, and reads texts that
hold surrogates.

Arrays and objects nest, so the readers of values call one another. Each call passes on a smaller
`fuel`; the length of the text is enough, since every call but the outermost follows a code point read.
-/

namespace TapeMachine.Json

open Text (Point Loose)

/-- Why a text cannot be read. -/
inductive ParseError where
  /-- The bytes of the text are not in its encoding. -/
  | undecodable
  | malformed
  | tooManyDigits
  | tooDeep
  deriving DecidableEq, Repr

/-- The number of digits that an integer literal may have. -/
def maxDigits : Nat := 4300

/-- The blanks that may stand between tokens. -/
def isBlank : Point → Bool
  | .char c => c = ' ' || c = '\t' || c = '\n' || c = '\r'
  | .surrogate _ => false

def skipBlanks (cs : List Point) : List Point := cs.dropWhile isBlank

/-! ## Numbers -/

def isDigit : Point → Bool
  | .char c => c.isDigit
  | .surrogate _ => false

/-- The digits at the start of `cs`, and what follows them. -/
def digitsAt (cs : List Point) : List Char × List Point :=
  ((cs.takeWhile isDigit).filterMap Point.char?, cs.dropWhile isDigit)

/-- The digits before the fraction: a lone zero, or digits that do not start with one. -/
def whole? (cs : List Point) : Option (List Char × List Point) :=
  match cs with
  | .char '0' :: rest => some (['0'], rest)
  | _ =>
    match digitsAt cs with
    | ([], _) => none
    | found => some found

/-- The digits of a fraction, none if there is no fraction. -/
def fraction (cs : List Point) : List Char × List Point :=
  match cs with
  | .char '.' :: rest =>
    match digitsAt rest with
    | ([], _) => ([], cs)
    | found => found
  | _ => ([], cs)

/-- The digits of an exponent at the start of `cs`, if there is at least one. -/
def exponentDigits (negative : Bool) (cs : List Point) : Option (Int × List Point) :=
  match digitsAt cs with
  | ([], _) => none
  | (digits, rest) =>
    let n : Int := Text.decimalValue digits
    some (if negative then -n else n, rest)

/-- An exponent. -/
def exponent? (cs : List Point) : Option (Int × List Point) :=
  match cs with
  | .char c :: rest =>
    if c = 'e' ∨ c = 'E' then
      match rest with
      | .char '+' :: rest => exponentDigits false rest
      | .char '-' :: rest => exponentDigits true rest
      | rest => exponentDigits false rest
    else none
  | _ => none

/-- A number after its sign. -/
def unsignedNumber (negative : Bool) (cs : List Point) : Except ParseError (Number × List Point) :=
  match whole? cs with
  | none => .error .malformed
  | some (whole, afterWhole) =>
    let (fractional, afterFraction) := fraction afterWhole
    let mantissa := Text.decimalValue (whole ++ fractional)
    match fractional, exponent? afterFraction with
    | [], none =>
      if maxDigits < whole.length then .error .tooManyDigits
      else .ok (.int (if negative then -mantissa else mantissa), afterFraction)
    | _, none => .ok (.decimal negative mantissa (-fractional.length), afterFraction)
    | _, some (e, rest) => .ok (.decimal negative mantissa (e - fractional.length), rest)

/-- A number. -/
def signedNumber (cs : List Point) : Except ParseError (Number × List Point) :=
  match cs with
  | .char '-' :: rest => unsignedNumber true rest
  | _ => unsignedNumber false cs

/-! ## Strings -/

/-- The value of four hexadecimal digits. -/
def hexUnit? (a b c d : Char) : Option Nat := do
  let a ← Text.hexDigit? a
  let b ← Text.hexDigit? b
  let c ← Text.hexDigit? c
  let d ← Text.hexDigit? d
  return ((a * 16 + b) * 16 + c) * 16 + d

/-- The character of a one-letter escape. -/
def simpleEscape? (c : Char) : Option Char :=
  match c with
  | '"' => some '"'
  | '\\' => some '\\'
  | '/' => some '/'
  | 'b' => some '\x08'
  | 'f' => some '\x0c'
  | 'n' => some '\n'
  | 'r' => some '\r'
  | 't' => some '\t'
  | _ => none

/-- What has been read of a string literal. -/
structure Literal where
  points : Array Point
  /-- The last unit, if it was written as an escape and may be the first one of a pair. -/
  escape : Option Nat

namespace Literal

/-- The literal with a further code point, which is no escape of a unit. -/
def push (l : Literal) (p : Point) : Literal := ⟨l.points.push p, none⟩

/-- The literal with a further escape of a unit. Two escapes one after the other may be a pair. -/
def pushUnit (l : Literal) (unit : Nat) : Literal :=
  match l.escape.bind (Point.ofPair? · unit) with
  | some p => ⟨l.points.pop.push p, none⟩
  | none => ⟨l.points ++ (Point.ofNat? unit).toArray, some unit⟩

end Literal

/-- Reads the rest of a string literal, up to its closing quote. -/
def stringRest (l : Literal) (cs : List Point) : Except ParseError (Loose × List Point) :=
  match cs with
  | [] => .error .malformed
  | .char '"' :: rest => .ok (⟨l.points.toList⟩, rest)
  | .char '\\' :: .char 'u' :: .char a :: .char b :: .char c :: .char d :: rest =>
    match hexUnit? a b c d with
    | some unit => stringRest (l.pushUnit unit) rest
    | none => .error .malformed
  | .char '\\' :: .char c :: rest =>
    match simpleEscape? c with
    | some c => stringRest (l.push (.char c)) rest
    | none => .error .malformed
  | p :: rest =>
    if p = .char '\\' ∨ p.toNat < 0x20 then .error .malformed else stringRest (l.push p) rest

/-- A string literal after its opening quote. -/
def stringBody (cs : List Point) : Except ParseError (Loose × List Point) :=
  stringRest ⟨#[], none⟩ cs

/-! ## Words -/

/-- The words that are values. -/
def words : List (List Char × Json) :=
  [("null".toList, .null), ("true".toList, .bool true), ("false".toList, .bool false),
    ("NaN".toList, .number .nan), ("Infinity".toList, .number (.infinite false)),
    ("-Infinity".toList, .number (.infinite true))]

/-- What follows a word at the start of `cs`. -/
def afterWord? (word : List Char) (cs : List Point) : Option (List Point) :=
  match word, cs with
  | [], rest => some rest
  | c :: word, .char d :: rest => if c = d then afterWord? word rest else none
  | _ :: _, _ => none

/-- A word or a number. -/
def scalar (cs : List Point) : Except ParseError (Json × List Point) :=
  match words.findSome? fun (word, json) => (afterWord? word cs).map (json, ·) with
  | some found => .ok found
  | none => (signedNumber cs).map fun (n, rest) => (.number n, rest)

/-! ## Values -/

mutual

/-- A value at the very start of `cs`. Up to `depth` arrays and objects may stand inside one another. -/
def value (depth fuel : Nat) (cs : List Point) : Except ParseError (Json × List Point) :=
  match fuel with
  | 0 => .error .malformed
  | fuel + 1 =>
    match cs with
    | .char '"' :: rest => do
      let (s, rest) ← stringBody rest
      return (.string s, rest)
    | .char '[' :: rest =>
      match depth, skipBlanks rest with
      | 0, _ => .error .tooDeep
      | _ + 1, .char ']' :: rest => .ok (.array [], rest)
      | depth + 1, rest => items depth fuel rest []
    | .char '\x7b' :: rest =>
      match depth, skipBlanks rest with
      | 0, _ => .error .tooDeep
      | _ + 1, .char '\x7d' :: rest => .ok (.object [], rest)
      | depth + 1, rest => members depth fuel rest []
    | cs => scalar cs

/-- The items of an array from one item on; `done` holds the items before, the last first. -/
def items (depth fuel : Nat) (cs : List Point) (done : List Json) :
    Except ParseError (Json × List Point) :=
  match fuel with
  | 0 => .error .malformed
  | fuel + 1 =>
    match value depth fuel cs with
    | .error e => .error e
    | .ok (item, rest) =>
      match skipBlanks rest with
      | .char ',' :: rest => items depth fuel (skipBlanks rest) (item :: done)
      | .char ']' :: rest => .ok (.array (item :: done).reverse, rest)
      | _ => .error .malformed

/-- The members of an object from one member on; `done` holds the members before, the last first. -/
def members (depth fuel : Nat) (cs : List Point) (done : Members) :
    Except ParseError (Json × List Point) :=
  match fuel with
  | 0 => .error .malformed
  | fuel + 1 =>
    match cs with
    | .char '"' :: rest =>
      match stringBody rest with
      | .error e => .error e
      | .ok (name, rest) =>
        match skipBlanks rest with
        | .char ':' :: rest =>
          match value depth fuel (skipBlanks rest) with
          | .error e => .error e
          | .ok (item, rest) =>
            match skipBlanks rest with
            | .char ',' :: rest => members depth fuel (skipBlanks rest) ((name, item) :: done)
            | .char '\x7d' :: rest => .ok (.object ((name, item) :: done).reverse, rest)
            | _ => .error .malformed
        | _ => .error .malformed
    | _ => .error .malformed

end

/-- Reads a text that holds one value, with blanks before and after it. Up to `depth` arrays and objects
may stand inside one another. -/
def parseWithin (depth : Nat) (text : List Point) : Except ParseError Json := do
  let cs := skipBlanks text
  let (json, rest) ← value depth (cs.length + 1) cs
  match skipBlanks rest with
  | [] => return json
  | _ => throw .malformed

/-- Reads a text that holds one value, with blanks before and after it. -/
def parse (text : String) : Except ParseError Json :=
  parseWithin text.length (Loose.ofString text).points

end TapeMachine.Json
