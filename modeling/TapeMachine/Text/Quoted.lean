import TapeMachine.Text.Printable
import TapeMachine.Text.Radix

/-!
# Quoted text

A quoted text stands between single quotes, or between double quotes if it has single quotes and no
double ones. The quote in use, the backslash and every character that is not kept as it is are escaped.
-/

namespace TapeMachine.Text

/-- The escape of a character by its code point, in two, four or eight hexadecimal digits. -/
def escapeCode (n : Nat) : List Char :=
  if n < 0x100 then '\\' :: 'x' :: digits 16 2 n
  else if n < 0x10000 then '\\' :: 'u' :: digits 16 4 n
  else '\\' :: 'U' :: digits 16 8 n

/-- A character between quotes. -/
def escapeChar (keep : Char → Bool) (quote c : Char) : List Char :=
  if c = quote ∨ c = '\\' then ['\\', c]
  else if c = '\t' then ['\\', 't']
  else if c = '\n' then ['\\', 'n']
  else if c = '\r' then ['\\', 'r']
  else if keep c then [c]
  else escapeCode c.toNat

/-- The quote to use around a text. -/
def quoteFor (cs : List Char) : Char :=
  if cs.contains '\'' && !cs.contains '"' then '"' else '\''

/-- A text in quotes, where the characters that `keep` accepts are not escaped. -/
def quotedBy (keep : Char → Bool) (cs : List Char) : List Char :=
  let quote := quoteFor cs
  quote :: cs.flatMap (escapeChar keep quote) ++ [quote]

/-- A text in quotes. -/
def quoted (s : String) : String := String.ofList (quotedBy isPrintable s.toList)

/-- Bytes in quotes after a `b`, each as the character of its value if that is printable ASCII. -/
def quotedBytes (bytes : List UInt8) : String :=
  String.ofList ('b' :: quotedBy isPrintableAscii (bytes.map fun b => Char.ofNat b.toNat))

end TapeMachine.Text
