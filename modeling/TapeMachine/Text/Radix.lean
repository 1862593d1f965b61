/-!
# Digits in a base

Natural numbers in a base of up to 16, filled with zeros, and the values of decimal and of hexadecimal
digits. All digits here are ASCII.
-/

namespace TapeMachine.Text

/-- The digits of a number in `base`, in lower case, filled with zeros to at least `width`. -/
def digits (base width n : Nat) : List Char :=
  let cs := Nat.toDigits base n
  List.replicate (width - cs.length) '0' ++ cs

/-- The value of a list of decimal digits. -/
def decimalValue (cs : List Char) : Nat :=
  cs.foldl (fun n c => 10 * n + (c.toNat - '0'.toNat)) 0

/-- The value of a hexadecimal digit in either case. -/
def hexDigit? (c : Char) : Option Nat :=
  if '0' ≤ c ∧ c ≤ '9' then some (c.toNat - '0'.toNat)
  else if 'a' ≤ c ∧ c ≤ 'f' then some (c.toNat - 'a'.toNat + 10)
  else if 'A' ≤ c ∧ c ≤ 'F' then some (c.toNat - 'A'.toNat + 10)
  else none

end TapeMachine.Text
