import TapeMachine.Json.Encoding
import TapeMachine.Registry
import TapeMachine.Web.Response
import TapeMachine.Web.Route

/-!
# The service

A service keeps debuggers in a registry and answers requests one at a time. The checks of a request
come in this order: its path, its method, whether its body can be read, whether its debugger is there,
and whether its body is right. A debugger that a request names counts as used, even if the body of the
request then turns out to be wrong.

A new debugger is kept under the identifier `fresh` that comes with the request; who calls `handle` sees
to it that no identifier comes twice.
-/

namespace TapeMachine.Web

/-- A request. -/
structure Request where
  method : String
  target : String
  body : List UInt8
  deriving DecidableEq, Repr

/-- The state of a service. -/
structure App where
  registry : Registry Debugger

namespace App

/-- A service that keeps up to `capacity` debuggers. -/
def empty (capacity : Int) : App := ⟨.empty capacity⟩

/-! ## Bodies -/

/-- Why a body cannot be read. -/
def ofParseError : Json.ParseError → Answer
  | .malformed => ofIssues [⟨.malformedJson, [], .object []⟩]
  | .undecodable => .ok .unreadableBody
  | .tooManyDigits => .ok .unreadableBody
  | .tooDeep => .ok .unreadableBody

/-- The number of arrays and objects that may stand inside one another in a body. The service itself sets
no limit: this is what the recursion limit of the runtime that it runs on leaves to a body. -/
def maxNesting : Nat := 960

/-- The value in a body, if there is one. -/
def readBody (body : List UInt8) : Except Json.ParseError (Option Json) :=
  if body.isEmpty then .ok none else (Json.parseBytes maxNesting body).map some

/-- Reads a body and goes on with it. -/
def withBody (app : App) (body : List UInt8) (next : Option Json → App × Answer) : App × Answer :=
  match readBody body with
  | .error e => (app, ofParseError e)
  | .ok json => next json

/-- Checks a body and goes on with it. -/
def withForm {α : Type} (app : App) (check : Json.Members → Checked α) (json : Option Json)
    (next : α → App × Answer) : App × Answer :=
  match checkBody check json with
  | .error es => (app, ofIssues es)
  | .ok form => next form

/-- Looks a debugger up and goes on with it. -/
def withDebugger (app : App) (id : String) (next : App → Debugger → App × Answer) : App × Answer :=
  match app.registry.get? id with
  | none => (app, .ok (.noDebugger id))
  | some (d, registry) => next ⟨registry⟩ d

/-- Keeps a debugger as it has become, and shows it. -/
def update (app : App) (id : String) (d : Debugger) (executed : Nat) : App × Answer :=
  (⟨app.registry.replace id d⟩, .ok (.view 200 id d executed))

/-! ## Requests -/

/-- Runs a program from start to end. The budget bounds the number of attempts. -/
def runProgram (form : ProgramForm) (code : String) : Response :=
  match Program.prepare (Utf8.encode code) with
  | .error ds => ⟨200, .json (runJson [] ds)⟩
  | .ok program =>
    let setup : Setup := ⟨program, form.debug, some form.maxSteps⟩
    let e := (Machine.blank Machine.defaultLength).execute setup form.input (form.maxSteps.toNat + 1)
    match e.ending with
    | some (.failed f) =>
      match f.diagnostic? with
      | some d => ⟨200, .json (runJson e.output.toList [d])⟩
      | none => .detail 409 (.string f.message)
    | _ => ⟨200, .json (runJson e.output.toList [])⟩

/-- Sets breakpoints one by one. -/
def setBreakpoints (d : Debugger) : List Int → Except OutsideProgram Debugger
  | [] => .ok d
  | line :: rest =>
    match d.setBreakpoint line with
    | .ok d => setBreakpoints d rest
    | .error e => .error e

/-- Opens a debugger and keeps it. -/
def openDebugger (app : App) (fresh : String) (form : DebuggerForm) (code : String) : App × Answer :=
  let p := form.program
  match Debugger.ofSource (Utf8.encode code) p.input p.debug p.maxSteps with
  | .error ds => (app, .ok (.detail 422 (.array (ds.map diagnosticJson))))
  | .ok d =>
    match setBreakpoints d form.breakpoints with
    | .error e => (app, .ok (.detail 422 (.string e.message)))
    | .ok d =>
      match app.registry.add? fresh d with
      | some registry => (⟨registry⟩, .ok (.view 201 fresh d 0))
      | none => (⟨app.registry.clear⟩, .error .emptyRegistry)

/-- A list of integers in brackets. -/
def listText (ns : List Int) : String := "[" ++ ", ".intercalate (ns.map toString) ++ "]"

/-- Replaces all breakpoints of a debugger. -/
def replaceBreakpoints (app : App) (id : String) (d : Debugger) (lines : List Int) : App × Answer :=
  match lines.filter fun (line : Int) => ¬ (1 ≤ line ∧ line ≤ d.lineCount) with
  | [] =>
    let breakpoints := lines.foldl (fun ls line => insertLine line.toNat ls) []
    app.update id { d with breakpoints } 0
  | outside =>
    let reason := s!"lines outside the program (1-{d.lineCount}): " ++ listText outside
    (app, .ok (.detail 422 (.string reason)))

/-- Drops a debugger. -/
def closeDebugger (app : App) (id : String) : App × Answer :=
  match app.registry.discard id with
  | (true, registry) => (⟨registry⟩, .ok ⟨204, .empty⟩)
  | (false, _) => (app, .ok (.noDebugger id))

/-- Answers a request for a place, with a method that the place takes. -/
def dispatch (app : App) (fresh : String) (route : Route) (method : String)
    (body : List UInt8) : App × Answer :=
  match route with
  | .run =>
    app.withBody body fun json =>
      app.withForm ProgramForm.check json fun form =>
        match form.code.read with
        | .ok code => (app, .ok (runProgram form code))
        | .error r => (app, .error (.notEncodable r))
  | .debuggers =>
    app.withBody body fun json =>
      app.withForm DebuggerForm.check json fun form =>
        match form.program.code.read with
        | .ok code => app.openDebugger fresh form code
        | .error r => (app, .ok (.detail 422 (.string r.message)))
  | .debugger id =>
    if method = "DELETE" then app.closeDebugger id
    else app.withDebugger id fun app d => app.update id d 0
  | .step id =>
    app.withBody body fun json =>
      app.withDebugger id fun app d =>
        app.withForm checkStep json fun count =>
          let (executed, d) := d.step count
          app.update id d executed
  | .continue id =>
    app.withDebugger id fun app d =>
      let (executed, d) := d.resume
      app.update id d executed
  | .restart id => app.withDebugger id fun app d => app.update id d.restart 0
  | .breakpoints id =>
    app.withBody body fun json =>
      app.withDebugger id fun app d =>
        app.withForm checkLines json fun lines => app.replaceBreakpoints id d lines
  | .dump id => app.withDebugger id fun app d => (app, .ok ⟨200, .text d.dump⟩)

/-- Answers a request. -/
def handle (app : App) (fresh : String) (r : Request) : App × Answer :=
  let path := pathOf r.target
  match Route.ofPath path with
  | some route =>
    if route.methods.contains r.method then app.dispatch fresh route r.method r.body
    else (app, .ok .methodNotAllowed)
  | none =>
    match Route.ofSlashed path with
    | some _ => (app, .ok .redirect)
    | none => (app, .ok .notFound)

end App

end TapeMachine.Web
