import TapeMachine.Text.Radix
import TapeMachine.Text.Split
import TapeMachine.Text.Utf8

/-!
# Routes

The places that a request may name, and the methods that each of them takes. The path of a request is
what is left of its target without a host, a query and a fragment, with the parts `.` and `..` followed
and percent-encoding undone.

The web framework that the service is built on adds places of its own, with pages about the service:
`/docs`, `/docs/oauth2-redirect`, `/redoc` and `/openapi.json`. They tell nothing of a program or a
debugger and are left out here, so nothing is found under them.
-/

namespace TapeMachine.Web

/-- A place of the service. -/
inductive Route where
  | run
  | debuggers
  | debugger (id : String)
  | step (id : String)
  | continue (id : String)
  | restart (id : String)
  | breakpoints (id : String)
  | dump (id : String)
  deriving DecidableEq, Repr

/-- The bytes of a percent-encoded text. A `%` that is not followed by two digits stands for itself. -/
def percentDecode (cs : List Char) : List UInt8 :=
  match cs with
  | [] => []
  | '%' :: a :: b :: rest =>
    match Text.hexDigit? a, Text.hexDigit? b with
    | some high, some low => UInt8.ofNat (16 * high + low) :: percentDecode rest
    | _, _ => 0x25 :: percentDecode (a :: b :: rest)
  | c :: rest => String.utf8EncodeChar c ++ percentDecode rest

/-- Percent-decodes a text. -/
def unescape (text : String) : String := Utf8.decode (percentDecode text.toList)

/-- Drops the host of a target that names one, and all slashes at the start. -/
def dropHost (cs : List Char) : List Char :=
  match cs with
  | '/' :: '/' :: rest => (rest.dropWhile (· ≠ '/')).dropWhile (· = '/')
  | _ => cs.dropWhile (· = '/')

/-- Follows the parts `.` and `..` of a path. `above` holds the parts before, the last one first. -/
def followDots (above : List String) : List String → List String
  | [] => above.reverse
  | [part] =>
    (if part = "." then "" :: above else if part = ".." then "" :: above.drop 1
      else part :: above).reverse
  | part :: rest =>
    followDots
      (if part = "." then above else if part = ".." then above.drop 1 else part :: above) rest

/-- The path of a request target, as it gets to the service. The service does none of this itself: the
client in front of it follows the dots and undoes percent-encoding, and the server that takes the request
undoes percent-encoding once more. So an escaped escape stands for a character too. -/
def pathOf (target : String) : String :=
  let cs := dropHost (target.toList.takeWhile fun c => c ≠ '?' ∧ c ≠ '#')
  let parts := followDots [] (Text.split '/' cs)
  unescape (unescape ("/" ++ "/".intercalate parts))

namespace Route

/-- The place of a path in parts. An identifier is not empty. -/
def ofParts : List String → Option Route
  | ["", "api", "run"] => some run
  | ["", "api", "debuggers"] => some debuggers
  | ["", "api", "debuggers", id] => if id = "" then none else some (debugger id)
  | ["", "api", "debuggers", id, action] =>
    if id = "" then none
    else
      match action with
      | "step" => some (step id)
      | "continue" => some (.continue id)
      | "restart" => some (restart id)
      | "breakpoints" => some (breakpoints id)
      | "dump" => some (dump id)
      | _ => none
  | _ => none

/-- The place of a path. A line end after the path does not count, unless it is in an identifier. -/
def ofPath (path : String) : Option Route :=
  let cs := path.toList
  let parts := Text.split '/'
  match ofParts (parts cs) with
  | some route => some route
  | none => if cs.getLast? = some '\n' then ofParts (parts cs.dropLast) else none

/-- The place of a path that has slashes after it. -/
def ofSlashed (path : String) : Option Route :=
  match path.toList.reverse with
  | '/' :: _ :: _ => ofPath (String.ofList (path.toList.reverse.dropWhile (· = '/')).reverse)
  | _ => none

/-- The methods of a place. -/
def methods : Route → List String
  | run => ["POST"]
  | debuggers => ["POST"]
  | debugger _ => ["GET", "DELETE"]
  | step _ => ["POST"]
  | .continue _ => ["POST"]
  | restart _ => ["POST"]
  | breakpoints _ => ["PUT"]
  | dump _ => ["GET"]

end Route

end TapeMachine.Web
