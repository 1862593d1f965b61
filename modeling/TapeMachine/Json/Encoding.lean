import TapeMachine.Json.Parser
import TapeMachine.Text.Utf8

/-!
# Encodings of JSON

JSON comes as bytes in one of five encodings. It may start with a byte order mark, which tells the
encoding and is no part of the text. Otherwise, since a JSON text starts with two ASCII characters, or
is a single one, the zeros among its first bytes tell which encoding it is.

Surrogates that stand alone are read as such in every encoding.
-/

namespace TapeMachine.Json

open Text (Point)

/-- How a text is encoded. -/
inductive Encoding where
  | utf8
  | utf16 (bigEndian : Bool)
  | utf32 (bigEndian : Bool)
  deriving DecidableEq, Repr

/-- The encoding that a byte order mark at the start tells, and the bytes behind the mark. A UTF-32 mark
may begin as a UTF-16 mark does, so it is looked for first. -/
def Encoding.ofMark? : List UInt8 → Option (Encoding × List UInt8)
  | 0x00 :: 0x00 :: 0xFE :: 0xFF :: rest => some (utf32 true, rest)
  | 0xFF :: 0xFE :: 0x00 :: 0x00 :: rest => some (utf32 false, rest)
  | 0xFE :: 0xFF :: rest => some (utf16 true, rest)
  | 0xFF :: 0xFE :: rest => some (utf16 false, rest)
  | 0xEF :: 0xBB :: 0xBF :: rest => some (utf8, rest)
  | _ => none

/-- The encoding of a JSON text without a byte order mark. -/
def Encoding.ofBytes (bytes : List UInt8) : Encoding :=
  match bytes with
  | a :: b :: c :: d :: _ =>
    if a = 0 then if b = 0 then utf32 true else utf16 true
    else if b = 0 then if c = 0 ∧ d = 0 then utf32 false else utf16 false
    else utf8
  | [a, b] => if a = 0 then utf16 true else if b = 0 then utf16 false else utf8
  | _ => utf8

/-! ## UTF-16 and UTF-32 -/

/-- The value of two bytes. -/
def pairValue (bigEndian : Bool) (a b : UInt8) : Nat :=
  if bigEndian then a.toNat * 0x100 + b.toNat else b.toNat * 0x100 + a.toNat

/-- The units of two bytes each, unless a byte is left over. -/
def units16 (bigEndian : Bool) : List UInt8 → Option (List Nat)
  | a :: b :: rest => (units16 bigEndian rest).map (pairValue bigEndian a b :: ·)
  | [] => some []
  | [_] => none

/-- The code points of UTF-16 units. -/
def points16 (units : List Nat) : List Point :=
  match units with
  | high :: low :: rest =>
    match Point.ofPair? high low with
    | some p => p :: points16 rest
    | none => (Point.ofNat? high).toList ++ points16 (low :: rest)
  | [unit] => (Point.ofNat? unit).toList
  | [] => []

/-- The code points of four bytes each, unless there are bytes left over or a value is too large. -/
def points32? (bigEndian : Bool) : List UInt8 → Option (List Point)
  | a :: b :: c :: d :: rest => do
    let first := pairValue bigEndian a b
    let second := pairValue bigEndian c d
    let p ← Point.ofNat? (if bigEndian then first * 0x10000 + second else second * 0x10000 + first)
    let ps ← points32? bigEndian rest
    return p :: ps
  | [] => some []
  | _ => none

/-! ## UTF-8 -/

/-- What a lead byte asks for. Surrogates have the bytes that they would have as characters. -/
def lead? (b : UInt8) : Option Utf8.Lead :=
  if b = 0xED then some ⟨0xD, 2, 0x80, 0xBF⟩ else Utf8.lead? b

/-- The code points of bytes in UTF-8, after the code points `done`. -/
def pointsAfter? (done : Array Point) (bytes : List UInt8) : Option (List Point) :=
  match bytes with
  | [] => some done.toList
  | b :: rest =>
    if b.toNat < 0x80 then pointsAfter? (done.push (.char (Char.ofNat b.toNat))) rest
    else
      match lead? b with
      | none => none
      | some lead =>
        match _h : Utf8.continue? lead.bits lead.more lead.low lead.high rest with
        | (some n, after) =>
          match Point.ofNat? n with
          | some p => pointsAfter? (done.push p) after
          | none => none
        | (none, _) => none
termination_by bytes.length
decreasing_by
  all_goals simp_wf
  all_goals
    have := Utf8.length_continue? lead.bits lead.more lead.low lead.high rest
    rw [_h] at this
    simp at this
    omega

/-! ## Reading -/

/-- The code points of a JSON text that comes as bytes, if they are in its encoding. -/
def decode? (bytes : List UInt8) : Option (List Point) :=
  match (Encoding.ofMark? bytes).getD (.ofBytes bytes, bytes) with
  | (.utf8, text) => pointsAfter? #[] text
  | (.utf16 bigEndian, text) => (units16 bigEndian text).map points16
  | (.utf32 bigEndian, text) => points32? bigEndian text

/-- Reads bytes that hold one value. Up to `depth` arrays and objects may stand inside one another. -/
def parseBytes (depth : Nat) (bytes : List UInt8) : Except ParseError Json :=
  match decode? bytes with
  | some points => parseWithin depth points
  | none => .error .undecodable

end TapeMachine.Json
