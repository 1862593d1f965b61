import TapeMachine.Debugger
import TapeMachine.Json.Basic
import TapeMachine.Text.Latin1
import TapeMachine.Web.IntegerText

/-!
# Forms

A form is what a request body has to hold. Each field is checked by itself, and all that is wrong with
a form is reported, in the order of its fields.

The checks are lenient: an integer may be given as a whole double, as a truth value or as a text, and a
truth value as 0 or 1 or as a word.
-/

namespace TapeMachine.Web

/-- A place in a body. -/
inductive Place where
  | field (name : String)
  | index (n : Nat)
  deriving DecidableEq, Repr

/-- What may be wrong with a value. -/
inductive Problem where
  | missing
  | malformedJson
  | notAnObject
  | notAString
  /-- A text that has to be read holds surrogates. -/
  | notText
  | notBytes
  | notABool
  | unreadableBool
  | notAnInt
  | fractionalInt
  | unreadableInt
  | intTooLarge
  | infiniteInt
  | belowOne
  | notAList
  deriving DecidableEq, Repr

namespace Problem

/-- The word for a problem. -/
def code : Problem → String
  | missing => "missing"
  | malformedJson => "json_invalid"
  | notAnObject => "model_attributes_type"
  | notAString => "string_type"
  | notText => "string_unicode"
  | notBytes => "value_error"
  | notABool => "bool_type"
  | unreadableBool => "bool_parsing"
  | notAnInt => "int_type"
  | fractionalInt => "int_from_float"
  | unreadableInt => "int_parsing"
  | intTooLarge => "int_parsing_size"
  | infiniteInt => "finite_number"
  | belowOne => "greater_than_equal"
  | notAList => "list_type"

/-- The text of a problem. -/
def message : Problem → String
  | missing => "Field required"
  | malformedJson => "JSON decode error"
  | notAnObject => "Input should be a valid dictionary or object to extract fields from"
  | notAString => "Input should be a valid string"
  | notText => "Input should be a valid string, unable to parse raw data as a unicode string"
  | notBytes => "Value error, input must only contain characters U+0000..U+00FF"
  | notABool => "Input should be a valid boolean"
  | unreadableBool => "Input should be a valid boolean, unable to interpret input"
  | notAnInt => "Input should be a valid integer"
  | fractionalInt => "Input should be a valid integer, got a number with a fractional part"
  | unreadableInt => "Input should be a valid integer, unable to parse string as an integer"
  | intTooLarge => "Unable to parse input string as an integer, exceeded maximum size"
  | infiniteInt => "Input should be a finite number"
  | belowOne => "Input should be greater than or equal to 1"
  | notAList => "Input should be a valid list"

/-- What else is said about a problem. -/
def context : Problem → Option Json
  | notBytes => some (.object [("error", .object [])])
  | belowOne => some (.object [("ge", .nat 1)])
  | _ => none

end Problem

/-- A problem at a place, with the value that has it. -/
structure Issue where
  problem : Problem
  place : List Place
  value : Json

/-- A value that has passed its checks, or all that is wrong with it. -/
abbrev Checked (α : Type) := Except (List Issue) α

/-- The issues of a value, none if it has passed. -/
def issues {α : Type} : Checked α → List Issue
  | .ok _ => []
  | .error es => es

/-! ## Values -/

/-- A text. -/
def checkString : Json → Except Problem Text.Loose
  | .string s => .ok s
  | _ => .error .notAString

/-- A text with one byte a character. -/
def checkBytes (json : Json) : Except Problem (List UInt8) := do
  match (← checkString json).read with
  | .error _ => throw .notBytes
  | .ok text =>
    match Latin1.encode? text with
    | some bytes => return bytes
    | none => throw .notBytes

/-- The integer of a text. -/
def intOfText (text : Text.Loose) : Except Problem Int :=
  match text.read with
  | .error _ => .error .notText
  | .ok text =>
    match integerOfText text with
    | .ok n => .ok n
    | .error .malformed => .error .unreadableInt
    | .error .tooLong => .error .intTooLarge

/-- Whether an integer is less than `2 ^ 63` in size. -/
def isSmall (n : Int) : Bool := n.natAbs < Nat.pow 2 63

/-- The words for true and false. -/
def trueWords : List String := ["1", "on", "t", "true", "y", "yes"]

def falseWords : List String := ["0", "off", "f", "false", "n", "no"]

/-- The truth value of a word in either case. -/
def boolOfWord (word : Text.Loose) : Except Problem Bool :=
  match word.read with
  | .error _ => .error .notText
  | .ok word =>
    let word := String.ofList (word.toList.map Char.toLower)
    if trueWords.contains word then .ok true
    else if falseWords.contains word then .ok false
    else .error .unreadableBool

/-- The truth value of an integer. One of more than 64 bits is none at all. -/
def boolOfInt (n : Int) : Except Problem Bool :=
  if n = 0 then .ok false
  else if n = 1 then .ok true
  else if isSmall n || n == -Nat.pow 2 63 then .error .unreadableBool
  else .error .notABool

/-- A truth value. -/
def checkBool : Json → Except Problem Bool
  | .bool b => .ok b
  | .string word => boolOfWord word
  | .number (.int n) => boolOfInt n
  | .number n =>
    match n.double?.bind Binary64.toInt? with
    | some n => if isSmall n then boolOfInt n else .error .notABool
    | none => .error .notABool
  | _ => .error .notABool

/-- The integer that a double is, unless it is too large. -/
def intOfDouble (x : Binary64) : Except Problem Int :=
  if !x.isFinite then .error .infiniteInt
  else
    match x.toInt? with
    | none => .error .fractionalInt
    | some n => if isSmall n then .ok n else .error .intTooLarge

/-- An integer. -/
def checkInt : Json → Except Problem Int
  | .bool b => .ok (if b then 1 else 0)
  | .string text => intOfText text
  | .number (.int n) => .ok n
  | .number n =>
    match n.double? with
    | some x => intOfDouble x
    | none => .error .notAnInt
  | _ => .error .notAnInt

/-- An integer from 1 on. -/
def checkCount (json : Json) : Except Problem Int := do
  let n ← checkInt json
  if n < 1 then throw .belowOne else return n

/-! ## Fields -/

/-- A value at a place. -/
def checkAt {α : Type} (check : Json → Except Problem α) (place : List Place) (json : Json) :
    Checked α :=
  match check json with
  | .ok a => .ok a
  | .error p => .error [⟨p, place, json⟩]

/-- A field that may be left out. -/
def optional {α : Type} (check : Json → Except Problem α) (default : α) (name : String)
    (members : Json.Members) : Checked α :=
  match Json.member? members name with
  | none => .ok default
  | some json => checkAt check [.field name] json

/-- The integers of a list whose first item has the index `i`. -/
def checkItems (name : String) (i : Nat) : List Json → Checked (List Int)
  | [] => .ok []
  | item :: rest =>
    match checkAt checkInt [.field name, .index i] item, checkItems name (i + 1) rest with
    | .ok n, .ok ns => .ok (n :: ns)
    | first, others => .error (issues first ++ issues others)

/-- A list of integers. -/
def checkList (name : String) : Json → Checked (List Int)
  | .array items => checkItems name 0 items
  | json => .error [⟨.notAList, [.field name], json⟩]

/-! ## Forms -/

/-- A program to run. -/
structure ProgramForm where
  code : Text.Loose
  input : List UInt8
  debug : Bool
  maxSteps : Int
  deriving DecidableEq, Repr

/-- Checks a program to run. -/
def ProgramForm.check (members : Json.Members) : Checked ProgramForm :=
  match optional checkString (.ofString "") "code" members, optional checkBytes [] "input" members,
      optional checkBool false "debug" members,
      optional checkCount defaultBudget "max_steps" members with
  | .ok code, .ok input, .ok debug, .ok maxSteps => .ok ⟨code, input, debug, maxSteps⟩
  | code, input, debug, maxSteps =>
    .error (issues code ++ issues input ++ issues debug ++ issues maxSteps)

/-- A debugger to open. -/
structure DebuggerForm where
  program : ProgramForm
  breakpoints : List Int
  deriving DecidableEq, Repr

/-- Checks a debugger to open. -/
def DebuggerForm.check (members : Json.Members) : Checked DebuggerForm :=
  let breakpoints : Checked (List Int) := match Json.member? members "breakpoints" with
    | none => .ok []
    | some json => checkList "breakpoints" json
  match ProgramForm.check members, breakpoints with
  | .ok program, .ok lines => .ok ⟨program, lines⟩
  | program, lines => .error (issues program ++ issues lines)

/-- Checks a number of instructions to run. -/
def checkStep (members : Json.Members) : Checked Int := optional checkCount 1 "count" members

/-- Checks the lines that are to have breakpoints. -/
def checkLines (members : Json.Members) : Checked (List Int) :=
  match Json.member? members "lines" with
  | none => .error [⟨.missing, [.field "lines"], .object members⟩]
  | some json => checkList "lines" json

/-- Checks a body, which may have nothing in it. -/
def checkBody {α : Type} (check : Json.Members → Checked α) : Option Json → Checked α
  | none => .error [⟨.missing, [], .null⟩]
  | some (.object members) => check members
  | some json => .error [⟨.notAnObject, [], json⟩]

end TapeMachine.Web
