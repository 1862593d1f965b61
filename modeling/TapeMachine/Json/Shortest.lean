import TapeMachine.Json.Binary64

/-!
# Shortest decimals

The shortest decimal of a double is the one with the fewest digits that is read back as that double;
of several the nearest one. It lies on the coarsest decimal grid that has a point in the interval of
the reals which round to the double.

Numbers are written positionally while the first digit stands for at least `10 ^ -4` and less than
`10 ^ 16`, and with an exponent of two digits or more otherwise. An integral number keeps a `.0`.
-/

namespace TapeMachine.Binary64

/-- The reals that round to a positive double, in quarters of its last place: both ends, and whether
they belong to it. Below a power of two the doubles are twice as dense. -/
structure Interval where
  low : Nat
  high : Nat
  closed : Bool

/-- The reals that round to `significand * 2 ^ exponent`. -/
def interval (significand : Nat) (exponent : Int) : Interval :=
  let dense := significand = Nat.pow 2 (precision - 1) ∧ minExponent < exponent
  ⟨4 * significand - (if dense then 1 else 2), 4 * significand + 2, significand % 2 = 0⟩

/-- Whether `n * 10 ^ grid` lies in an interval that is given in units of `2 ^ exponent`. -/
def Interval.contains (i : Interval) (exponent : Int) (n : Nat) (grid : Int) : Bool :=
  let (num, den) := scale 10 n 1 (-grid)
  let (num, den) := scale 2 num den exponent
  if i.closed then i.low * den ≤ num && num ≤ i.high * den
  else i.low * den < num && num < i.high * den

/-- The point nearest to a positive double on a decimal grid, if it is read back as the double. A tie
goes to the even neighbour. -/
def onGrid (significand : Nat) (exponent grid : Int) : Option Nat :=
  let (num, den) := scale 2 significand 1 (-exponent)
  let (num, den) := scale 10 num den grid
  let below := num / den
  let i := interval significand exponent
  let hits := fun n => i.contains (exponent - 2) n grid
  match hits below, hits (below + 1) with
  | true, true => some (roundRatio num den)
  | true, false => some below
  | false, true => some (below + 1)
  | false, false => none

/-- The first of `fuel` grids, from `10 ^ grid` down, that has a point for a positive double. -/
def firstGrid (significand : Nat) (exponent grid : Int) : Nat → Option (Nat × Int)
  | 0 => none
  | fuel + 1 =>
    match onGrid significand exponent grid with
    | some n => some (n, grid)
    | none => firstGrid significand exponent (grid - 1) fuel

/-- The shortest decimal of a positive double: an integer and a power of ten. The first grid tried has
its first point beyond the double, and 17 digits are enough for every double. -/
def shortest (significand : Nat) (exponent : Int) : Nat × Int :=
  let bits := exponent + significand.log2 + 1
  (firstGrid significand exponent (bits * 30103 / 100000 + 1) 20).getD (0, 0)

/-- Digits with a decimal point after the first `point` of them, filled up with zeros. -/
def positional (digits : List Char) (point : Int) : List Char :=
  if point ≤ 0 then '0' :: '.' :: (List.replicate (-point).toNat '0' ++ digits)
  else
    let whole := digits.take point.toNat
    let fractional := digits.drop point.toNat
    whole ++ List.replicate (point.toNat - whole.length) '0' ++
      '.' :: (if fractional.isEmpty then ['0'] else fractional)

/-- Digits with a decimal point after the first of them, and the exponent that this makes. -/
def exponential (digits : List Char) (exponent : Int) : List Char :=
  let power := (toString exponent.natAbs).toList
  digits.take 1 ++ (if digits.length = 1 then [] else '.' :: digits.drop 1)
    ++ 'e' :: (if exponent < 0 then '-' else '+') :: (List.replicate (2 - power.length) '0' ++ power)

/-- A double without its sign as text. -/
def magnitudeText (significand : Nat) (exponent : Int) : List Char :=
  if significand = 0 then ['0', '.', '0']
  else
    let (n, grid) := shortest significand exponent
    let digits := (toString n).toList
    let point := digits.length + grid
    if -4 < point ∧ point ≤ 16 then positional digits point else exponential digits (point - 1)

/-- A double as text. -/
def toText : Binary64 → String
  | finite negative significand exponent =>
    (if negative then "-" else "") ++ String.ofList (magnitudeText significand exponent)
  | infinite negative => if negative then "-Infinity" else "Infinity"
  | nan => "NaN"

end TapeMachine.Binary64
