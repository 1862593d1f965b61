import TapeMachine.Json.Basic
import TapeMachine.Json.Shortest
import TapeMachine.Text.Radix

/-!
# Writing JSON

A value is written on one line without blanks. What a printer does with the parts of a value is its
style. The escaped style writes ASCII: every other character is escaped, in two UTF-16 units if it lies
beyond U+FFFF. The plain style escapes nothing but what has to be, and so keeps surrogates.
-/

namespace TapeMachine.Json

open Text (Point Loose)

/-- How the parts of a value are written to an output. -/
structure Style (ω : Type) where
  /-- Words and punctuation. -/
  word : ω → String → ω
  /-- A code point of a string literal. -/
  point : ω → Point → ω
  number : ω → Number → ω

namespace Style

variable {ω : Type}

/-- Writes a string literal. -/
def string (style : Style ω) (out : ω) (s : Loose) : ω :=
  style.word (s.points.foldl style.point (style.word out "\"")) "\""

mutual

/-- Writes a value. -/
def write (style : Style ω) (out : ω) (json : Json) : ω :=
  match json with
  | .null => style.word out "null"
  | .bool value => style.word out (if value then "true" else "false")
  | .number value => style.number out value
  | .string value => style.string out value
  | .array [] => style.word out "[]"
  | .array (item :: rest) =>
    style.word (style.writeItems (style.write (style.word out "[") item) rest) "]"
  | .object [] => style.word out "\x7b\x7d"
  | .object ((name, value) :: rest) =>
    let out := style.word (style.string (style.word out "\x7b") name) ":"
    style.word (style.writeMembers (style.write out value) rest) "\x7d"

/-- Writes the items after the first one of an array. -/
def writeItems (style : Style ω) (out : ω) (items : List Json) : ω :=
  match items with
  | [] => out
  | item :: rest => style.writeItems (style.write (style.word out ",") item) rest

/-- Writes the members after the first one of an object. -/
def writeMembers (style : Style ω) (out : ω) (members : List (Loose × Json)) : ω :=
  match members with
  | [] => out
  | (name, value) :: rest =>
    let out := style.word (style.string (style.word out ",") name) ":"
    style.writeMembers (style.write out value) rest

end

end Style

/-- The letter of the escape of a character that has one of its own. -/
def escapeLetter? (c : Char) : Option Char :=
  match c with
  | '"' => some '"'
  | '\\' => some '\\'
  | '\x08' => some 'b'
  | '\x0c' => some 'f'
  | '\n' => some 'n'
  | '\r' => some 'r'
  | '\t' => some 't'
  | _ => none

/-- The escape of a UTF-16 unit. -/
def escapeUnit (unit : Nat) : String := "\\u" ++ String.ofList (Text.digits 16 4 unit)

/-! ## The escaped style -/

/-- The escape of a code point. -/
def escapeUnits (n : Nat) : String :=
  if n < 0x10000 then escapeUnit n
  else
    let m := n - 0x10000
    escapeUnit (0xD800 + m / 0x400) ++ escapeUnit (0xDC00 + m % 0x400)

/-- A code point of a string literal in ASCII. -/
def escapedPoint (text : String) (p : Point) : String :=
  match p with
  | .surrogate _ => text ++ escapeUnit p.toNat
  | .char c =>
    match escapeLetter? c with
    | some letter => (text.push '\\').push letter
    | none => if 0x20 ≤ c.toNat ∧ c.toNat < 0x7F then text.push c else text ++ escapeUnits c.toNat

/-- A number as it was read. -/
def exactNumber (text : String) : Number → String
  | .int value => text ++ toString value
  | .decimal negative mantissa exponent =>
    text ++ (if negative then "-" else "") ++ toString mantissa ++ "e" ++ toString exponent
  | .infinite negative => text ++ (if negative then "-Infinity" else "Infinity")
  | .nan => text ++ "NaN"

/-- The style that writes ASCII. -/
def escaped : Style String := ⟨String.append, escapedPoint, exactNumber⟩

/-- A value as text in ASCII. -/
def render (json : Json) : String := escaped.write "" json

/-! ## The plain style -/

/-- A text after code points. -/
def plainWord (points : Array Point) (word : String) : Array Point :=
  word.toList.foldl (fun points c => points.push (.char c)) points

/-- A code point of a string literal, escaped only if it has to be. -/
def plainPoint (points : Array Point) (p : Point) : Array Point :=
  match p with
  | .surrogate _ => points.push p
  | .char c =>
    match escapeLetter? c with
    | some letter => (points.push (.char '\\')).push (.char letter)
    | none => if c.toNat < 0x20 then plainWord points (escapeUnit c.toNat) else points.push p

/-- A number, by its shortest decimal if it is a double. -/
def shortestNumber (points : Array Point) (n : Number) : Array Point :=
  match n, n.double? with
  | .int value, _ => plainWord points (toString value)
  | _, some x => plainWord points x.toText
  | _, none => points

/-- The style that escapes little. -/
def plain : Style (Array Point) := ⟨plainWord, plainPoint, shortestNumber⟩

/-- A value as a loose text. -/
def renderPlain (json : Json) : Loose := ⟨(plain.write #[] json).toList⟩

end TapeMachine.Json
