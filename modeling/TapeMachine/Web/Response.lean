import TapeMachine.Json.Printer
import TapeMachine.Web.Form

/-!
# Responses

What the service answers: a status and a body. The views of a debugger and of a run are written here.
-/

namespace TapeMachine.Web

/-- The body of a response. -/
inductive Body where
  | json (value : Json)
  | text (value : String)
  | empty

/-- A response. -/
structure Response where
  status : Nat
  body : Body

/-- Why a request gets no response. -/
inductive Crash where
  /-- A debugger was to be kept where none can be. -/
  | emptyRegistry
  /-- A number in the report is none that JSON can write. -/
  | notWritable
  /-- A text holds surrogates, so that it has no bytes. -/
  | notEncodable (r : Text.SurrogateRun)
  deriving DecidableEq, Repr

/-- The text of a crash. -/
def Crash.message : Crash → String
  | emptyRegistry => "'dictionary is empty'"
  | notWritable => "Out of range float values are not JSON compliant"
  | notEncodable r => r.message

/-- What comes of a request. -/
abbrev Answer := Except Crash Response

namespace Response

/-- A response with a reason. -/
def detail (status : Nat) (reason : Json) : Response := ⟨status, .json (.object [("detail", reason)])⟩

def notFound : Response := detail 404 (.string "Not Found")

def methodNotAllowed : Response := detail 405 (.string "Method Not Allowed")

def unreadableBody : Response := detail 400 (.string "There was an error parsing the body")

/-- The answer to a request that names a place with slashes after it. -/
def redirect : Response := ⟨307, .empty⟩

/-- The answer to a request for a debugger that is not there. -/
def noDebugger (id : String) : Response := detail 404 (.string s!"no debugger with id {id}")

end Response

/-- A place in a body as JSON. -/
def Place.toJson : Place → Json
  | field name => .string name
  | index n => .nat n

/-! ## Issues -/

/-- Adds a member to an object. One of the same name is replaced where it stands, and names that start
with `_sa` are left out. -/
def putMember (members : Json.Members) (name : Text.Loose) (value : Json) : Json.Members :=
  if "_sa".toList.map Text.Point.char <+: name.points then members
  else if members.any (·.1 == name) then
    members.map fun m => if m.1 == name then (name, value) else m
  else members ++ [(name, value)]

mutual

/-- A value as it is shown to who sent it: its objects have each name once. -/
def echo : Json → Json
  | .array items => .array (echoItems items)
  | .object members => .object (echoMembers [] members)
  | json => json

/-- Several values as they are shown. -/
def echoItems : List Json → List Json
  | [] => []
  | item :: rest => echo item :: echoItems rest

/-- The members of an object as they are shown, after the members `done`. -/
def echoMembers (done : Json.Members) : Json.Members → Json.Members
  | [] => done
  | (name, value) :: rest => echoMembers (putMember done name (echo value)) rest

end

/-- An issue as JSON. -/
def Issue.toJson (i : Issue) : Json :=
  let context : Json.Members := i.problem.context.toList.map fun c => (.ofString "ctx", c)
  .object
    (("type", .string i.problem.code) :: ("loc", .array (.string "body" :: i.place.map Place.toJson))
      :: ("msg", .string i.problem.message) :: ("input", echo i.value) :: context)

/-- The answer to a body with issues. The values that have them are shown in it, so they have to be
writable. -/
def ofIssues (es : List Issue) : Answer :=
  let report : Json := .object [("detail", .array (es.map Issue.toJson))]
  if !report.isFinite then .error .notWritable
  else
    match report.renderPlain.read with
    | .error r => .error (.notEncodable r)
    | .ok _ => .ok ⟨422, .json report⟩

/-! ## Views -/

/-- A diagnostic as JSON. -/
def diagnosticJson (d : Diagnostic) : Json :=
  .object [("line", .int d.line), ("message", .string d.message)]

/-- The outcome of a run as JSON. -/
def runJson (output : List UInt8) (ds : List Diagnostic) : Json :=
  .object
    [("success", .bool ds.isEmpty), ("output", .string (Latin1.decode output)),
      ("diagnostics", .array (ds.map diagnosticJson))]

/-- The reason why a debugger has halted, as JSON. Only a move off the tape has a line. -/
def faultJson (f : Fault) : Json :=
  match f.diagnostic? with
  | some d => .object [("message", .string d.message), ("line", .int d.line)]
  | none => .object [("message", .string f.message), ("line", .null)]

/-- A debugger as JSON, after `executed` instructions run by the request. -/
def viewJson (id : String) (d : Debugger) (executed : Nat) : Json :=
  .object
    [("id", .string id), ("status", .string d.status.name), ("step", .nat d.state.step),
      ("pc", .nat d.state.pc), ("line", Json.ofOption .nat d.state.line),
      ("line_count", .nat d.lineCount), ("pointer", .nat d.state.pointer),
      ("cells_start", .nat d.state.cellsStart),
      ("cells", .array (d.state.cells.map fun b => .nat b.toNat)),
      ("output", .string (Latin1.decode d.state.output.toList)),
      ("breakpoints", .array (d.breakpoints.map .nat)), ("max_steps", .int d.maxSteps),
      ("error", Json.ofOption faultJson d.error), ("executed", .nat executed)]

/-- The answer with the view of a debugger. -/
def Response.view (status : Nat) (id : String) (d : Debugger) (executed : Nat) : Response :=
  ⟨status, .json (viewJson id d executed)⟩

end TapeMachine.Web
