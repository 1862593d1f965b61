/-!
# One character a byte

The first 256 characters stand for the bytes of their value.
-/

namespace TapeMachine.Latin1

/-- The text of bytes. -/
def decode (bytes : List UInt8) : String := String.ofList (bytes.map fun b => Char.ofNat b.toNat)

/-- The bytes of a text, unless it has a character beyond U+00FF. -/
def encode? (text : String) : Option (List UInt8) :=
  if text.toList.all (·.toNat < 0x100) then some (text.toList.map fun c => UInt8.ofNat c.toNat)
  else none

end TapeMachine.Latin1
