import TapeMachine.Json.Binary64
import TapeMachine.Text.Loose

/-!
# JSON values

Numbers keep the way they were written: an integer literal is an `int` of any size, and a literal with
a fraction or an exponent is a `decimal`, exact whatever its length. Besides the numbers of the
standard there are the words `NaN`, `Infinity` and `-Infinity`. Strings may hold surrogates.
-/

namespace TapeMachine

namespace Json

/-- A number literal. -/
inductive Number where
  | int (value : Int)
  /-- `mantissa * 10 ^ exponent` with its sign, written with a fraction or an exponent. -/
  | decimal (negative : Bool) (mantissa : Nat) (exponent : Int)
  | infinite (negative : Bool)
  | nan
  deriving DecidableEq, Repr

/-- The double that a number with a fraction or an exponent is read as. An integer has none. -/
def Number.double? : Number → Option Binary64
  | int _ => none
  | decimal negative mantissa exponent => some (.ofDecimal negative mantissa exponent)
  | infinite negative => some (.infinite negative)
  | nan => some .nan

/-- Whether a number is one that standard JSON can write. -/
def Number.isFinite (n : Number) : Bool := n.double?.all Binary64.isFinite

end Json

/-- A JSON value. Objects keep their members in the order written. -/
inductive Json where
  | null
  | bool (value : Bool)
  | number (value : Json.Number)
  | string (value : Text.Loose)
  | array (items : List Json)
  | object (members : List (Text.Loose × Json))
  deriving Repr, Inhabited

namespace Json

/-- The members of an object. -/
abbrev Members := List (Text.Loose × Json)

/-- An integer as a value. -/
def int (value : Int) : Json := .number (.int value)

/-- A natural number as a value. -/
def nat (value : Nat) : Json := .int value

/-- A value that may be absent, with `null` in its place. -/
def ofOption {α : Type} (f : α → Json) : Option α → Json
  | none => .null
  | some a => f a

/-- The member of a name. Of several members of one name the last one counts. -/
def member? (members : Members) (name : Text.Loose) : Option Json :=
  (members.reverse.find? fun m => m.1 == name).map (·.2)

mutual

/-- Whether every number in a value is finite. -/
def isFinite : Json → Bool
  | .number n => n.isFinite
  | .array items => allFinite items
  | .object members => allMembersFinite members
  | _ => true

/-- Whether every number in a list of values is finite. -/
def allFinite : List Json → Bool
  | [] => true
  | item :: rest => isFinite item && allFinite rest

/-- Whether every number in the members of an object is finite. -/
def allMembersFinite : Members → Bool
  | [] => true
  | (_, value) :: rest => isFinite value && allMembersFinite rest

end

end Json

end TapeMachine
