/-!
# Doubles

A double is a signed integer times a power of two, or an infinity, or no number.
`Binary64.ofDecimal` rounds a decimal number to the nearest double; a tie goes to the even neighbour.
-/

namespace TapeMachine

/-- A double. -/
inductive Binary64 where
  /-- `significand * 2 ^ exponent` with its sign, which zero has too. -/
  | finite (negative : Bool) (significand : Nat) (exponent : Int)
  | infinite (negative : Bool)
  | nan
  deriving DecidableEq, Repr

namespace Binary64

/-- The number of bits of a significand. -/
def precision : Nat := 53

/-- The least exponent. -/
def minExponent : Int := -1074

/-- The integer nearest to `num / den`; a tie goes to the even neighbour. -/
def roundRatio (num den : Nat) : Nat :=
  let q := num / den
  let r := num % den
  if 2 * r < den ∨ (2 * r = den ∧ q % 2 = 0) then q else q + 1

/-- `num / den` in units of `base ^ exponent`, as a ratio. -/
def scale (base num den : Nat) (exponent : Int) : Nat × Nat :=
  if 0 ≤ exponent then (num, den * base.pow exponent.toNat)
  else (num * base.pow (-exponent).toNat, den)

/-- The double nearest to a positive ratio. -/
def ofRatio (negative : Bool) (num den : Nat) : Binary64 :=
  let low := max ((num.log2 : Int) - den.log2 - precision) minExponent
  let (n, d) := scale 2 num den low
  let exponent := if n / d < Nat.pow 2 precision then low else low + 1
  let (n, d) := scale 2 num den exponent
  let significand := roundRatio n d
  if 0 ≤ exponent ∧ Nat.pow 2 1024 ≤ significand * Nat.pow 2 exponent.toNat then infinite negative
  else if significand = Nat.pow 2 precision then
    finite negative (Nat.pow 2 (precision - 1)) (exponent + 1)
  else finite negative significand exponent

/-- The double nearest to `mantissa * 10 ^ exponent`. Numbers far out of range are told by their
length, before a power is computed. -/
def ofDecimal (negative : Bool) (mantissa : Nat) (exponent : Int) : Binary64 :=
  if mantissa = 0 then finite negative 0 0
  else if 400 < exponent + mantissa.log2 / 4 then infinite negative
  else if exponent + mantissa.log2 / 3 + 1 < -400 then finite negative 0 0
  else if 0 ≤ exponent then ofRatio negative (mantissa * Nat.pow 10 exponent.toNat) 1
  else ofRatio negative mantissa (Nat.pow 10 (-exponent).toNat)

/-- The integer that a double is, if it is one. -/
def toInt? : Binary64 → Option Int
  | finite negative significand exponent =>
    let (n, d) := if 0 ≤ exponent then (significand * Nat.pow 2 exponent.toNat, 1)
      else (significand, Nat.pow 2 (-exponent).toNat)
    if n % d = 0 then some (if negative then -(n / d : Nat) else (n / d : Nat)) else none
  | infinite _ => none
  | nan => none

/-- Whether a double is a number. -/
def isFinite : Binary64 → Bool
  | finite _ _ _ => true
  | infinite _ => false
  | nan => false

end Binary64

end TapeMachine
