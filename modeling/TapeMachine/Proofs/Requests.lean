import TapeMachine.Proofs.Registry
import TapeMachine.Web.App

/-!
# What a request does

A request that reads well asks for a run, for a new debugger, or for an action on a debugger that is
kept. `Handled` lists all that can come of a request, and `App.handled` says that the list is
complete. What is said of the service elsewhere is said along this list.

An action can be performed on any debugger, kept or not: `Action.perform` knows of no registry and
no identifier. A request for an action on a debugger that is kept succeeds if the action can be
performed on it (`App.succeeded_iff_performed`).
-/

namespace TapeMachine.Web

/-! ## Reading a request -/

/-- The place that a request names, if the place takes its method. -/
def Request.route? (r : Request) : Option Route :=
  (Route.ofPath (pathOf r.target)).filter fun route => route.methods.contains r.method

/-- The form that the body of a request holds. -/
def Request.form? {α : Type} (r : Request) (check : Json.Members → Checked α) : Option α :=
  match App.readBody r.body with
  | .ok json => (checkBody check json).toOption
  | .error _ => none

/-- What may be asked of a debugger. -/
inductive Action where
  | view
  | step (count : Int)
  | resume
  | restart
  | setBreakpoints (lines : List Int)
  | dump

/-- The debugger that a request names, and what it asks of it. -/
def Request.action? (r : Request) : Option (String × Action) :=
  match r.route? with
  | some (.debugger id) => if r.method = "DELETE" then none else some (id, .view)
  | some (.step id) => (r.form? checkStep).map fun count => (id, .step count)
  | some (.continue id) => some (id, .resume)
  | some (.restart id) => some (id, .restart)
  | some (.breakpoints id) => (r.form? checkLines).map fun lines => (id, .setBreakpoints lines)
  | some (.dump id) => some (id, .dump)
  | _ => none

theorem Request.action?_continue {r : Request} {id : String} (h : r.route? = some (.continue id)) :
    r.action? = some (id, .resume) := by
  rw [action?, h]

/-- The identifier in the name of a place. -/
def Route.id? : Route → Option String
  | run => none
  | debuggers => none
  | debugger id => some id
  | step id => some id
  | .continue id => some id
  | restart id => some id
  | breakpoints id => some id
  | dump id => some id

/-- Whether a request is for a debugger, but not to close it. -/
def Request.isFor (r : Request) (id : String) : Bool :=
  r.route?.bind Route.id? == some id && r.method != "DELETE"

/-- Whether a place reads the bodies of its requests. -/
def Route.readsBody : Route → Bool
  | run => true
  | debuggers => true
  | debugger _ => false
  | step _ => true
  | .continue _ => false
  | restart _ => false
  | breakpoints _ => true
  | dump _ => false

/-- The debugger that a request looks up, whether it is there or not. Where a body is read, this comes
first, and nothing is looked up if it cannot be. -/
def Request.sought? (r : Request) : Option String :=
  match r.route? with
  | none => none
  | some route =>
    if route.readsBody && !(App.readBody r.body).isOk then none else route.id?

/-! ## Actions on a debugger -/

/-- A body without the identifier in it. -/
def Body.withoutId : Body → Body
  | .json (.object members) => .json (.object (members.filter (·.1 != "id")))
  | body => body

/-- What is shown of a debugger, but for its identifier. -/
def viewBody (d : Debugger) (executed : Nat) : Body :=
  Body.withoutId (.json (viewJson "" d executed))

/-- Performs an action, if it can be done: what becomes of the debugger, and what is shown of it. -/
def Action.perform (d : Debugger) : Action → Option (Debugger × Body)
  | view => some (d, viewBody d 0)
  | step count => some ((d.step count).2, viewBody (d.step count).2 (d.step count).1)
  | resume => some (d.resume.2, viewBody d.resume.2 d.resume.1)
  | restart => some (d.restart, viewBody d.restart 0)
  | setBreakpoints lines =>
    if lines.all fun line => 1 ≤ line ∧ line ≤ d.lineCount then
      let breakpoints := lines.foldl (fun ls line => insertLine line.toNat ls) []
      some ({ d with breakpoints }, viewBody { d with breakpoints } 0)
    else none
  | dump => some (d, .text d.dump)

/-! ## Opening a debugger -/

/-- The debugger that a form asks for, if there can be one. -/
def DebuggerForm.debugger? (form : DebuggerForm) : Option Debugger :=
  let p := form.program
  match p.code.read with
  | .error _ => none
  | .ok code =>
    match Debugger.ofSource (Utf8.encode code) p.input p.debug p.maxSteps with
    | .error _ => none
    | .ok d => (App.setBreakpoints d form.breakpoints).toOption

theorem DebuggerForm.exists_of_debugger? {form : DebuggerForm} {d : Debugger}
    (h : form.debugger? = some d) :
    ∃ code d₀, form.program.code.read = .ok code ∧
      Debugger.ofSource (Utf8.encode code) form.program.input form.program.debug
        form.program.maxSteps = .ok d₀ ∧ App.setBreakpoints d₀ form.breakpoints = .ok d := by
  simp only [debugger?] at h
  split at h
  · cases h
  · next code hcode =>
    split at h
    · cases h
    · next d₀ hd₀ =>
      cases hset : App.setBreakpoints d₀ form.breakpoints with
      | error e => simp [hset, Except.toOption] at h
      | ok d₁ =>
        simp only [hset, Except.toOption, Option.some.injEq] at h
        exact ⟨code, d₀, hcode, hd₀, h ▸ hset⟩

/-! ## Answers -/

/-- The status of an answer. A crash has none. -/
def Answer.status? : Answer → Option Nat
  | .ok response => some response.status
  | .error _ => none

/-- Whether an answer says that the request has succeeded. -/
def Answer.succeeded (a : Answer) : Bool :=
  a.status?.any fun status => 200 ≤ status && status < 300

/-- The answer is to a request that has failed, but not because its debugger is not there. -/
structure Answer.Rejects (a : Answer) : Prop where
  not_succeeded : a.succeeded = false
  not_missing : ∀ id, a ≠ .ok (.noDebugger id)

theorem Answer.Rejects.status_ne {a : Answer} (h : a.Rejects) {status : Nat}
    (hsuccess : 200 ≤ status ∧ status < 300) : a.status? ≠ some status := by
  intro hstatus
  have hfailed := h.not_succeeded
  simp only [Answer.succeeded, hstatus, Option.any_some, Bool.and_eq_false_iff,
    decide_eq_false_iff_not] at hfailed
  omega

theorem rejects_crash (crash : Crash) : Answer.Rejects (.error crash) := ⟨rfl, fun _ => nofun⟩

theorem rejects_of_status {status : Nat} {body : Body} (h : 300 ≤ status) (h404 : status ≠ 404) :
    Answer.Rejects (.ok ⟨status, body⟩) := by
  refine ⟨?_, fun id hmissing => h404 (congrArg Response.status (Except.ok.inj hmissing))⟩
  simp only [Answer.succeeded, Answer.status?, Option.any_some, Bool.and_eq_false_iff,
    decide_eq_false_iff_not]
  omega

theorem ofString_injective {s t : String} (h : Text.Loose.ofString s = .ofString t) : s = t := by
  have hpoints := congrArg Text.Loose.points h
  simp only [Text.Loose.ofString] at hpoints
  exact String.toList_injective
    (List.map_injective_iff.mpr (fun _ _ hc => Text.Point.char.inj hc) hpoints)

/-- The text of the answer tells which debugger is not there. -/
theorem noDebugger_injective {id id' : String} (h : Response.noDebugger id = .noDebugger id') :
    id = id' := by
  simp only [Response.noDebugger, Response.detail, Response.mk.injEq, Body.json.injEq,
    Json.object.injEq, List.cons.injEq, Prod.mk.injEq, Json.string.injEq, true_and, and_true] at h
  have htext := congrArg String.toList (ofString_injective h)
  simp only [String.toList_append, List.append_cancel_left_eq] at htext
  exact String.toList_injective htext

theorem rejects_notFound : Answer.Rejects (.ok .notFound) := by
  refine ⟨rfl, fun id h => ?_⟩
  simp only [Response.notFound, Response.noDebugger, Response.detail, Except.ok.injEq,
    Response.mk.injEq, Body.json.injEq, Json.object.injEq, List.cons.injEq, Prod.mk.injEq,
    Json.string.injEq, true_and, and_true] at h
  -- the texts differ in their first letters
  have hfirst := congrArg (fun s : String => s.toList.head?) (ofString_injective h)
  simp only [String.toList_append] at hfirst
  exact absurd (Option.some.inj hfirst) (by decide)

theorem rejects_ofIssues (es : List Issue) : Answer.Rejects (ofIssues es) := by
  simp only [ofIssues]
  split
  · exact rejects_crash _
  · split
    · exact rejects_crash _
    · exact rejects_of_status (by decide) (by decide)

theorem rejects_ofParseError (e : Json.ParseError) : Answer.Rejects (App.ofParseError e) := by
  cases e with
  | malformed => exact rejects_ofIssues [⟨.malformedJson, [], .object []⟩]
  | undecodable => exact rejects_of_status (by decide) (by decide)
  | tooManyDigits => exact rejects_of_status (by decide) (by decide)
  | tooDeep => exact rejects_of_status (by decide) (by decide)

theorem status_runProgram (form : ProgramForm) (code : String) :
    (App.runProgram form code).status = 200 ∨ (App.runProgram form code).status = 409 := by
  simp only [App.runProgram]
  split
  · exact .inl rfl
  · split
    · split
      · exact .inl rfl
      · exact .inr rfl
    · exact .inl rfl

theorem status_of_ran {form : ProgramForm} {code : String} {status : Nat}
    (h : Answer.status? (.ok (App.runProgram form code)) = some status) :
    status = 200 ∨ status = 409 :=
  Option.some.inj h ▸ status_runProgram form code

/-! ## All that can come of a request -/

/-- A request asks for no action that can be performed. -/
def App.Refuses (app : App) (r : Request) : Prop :=
  ∀ id a d, r.action? = some (id, a) → app.registry.find? id = some d → a.perform d = none

/-- The service after a request, and its answer. -/
inductive Handled (app : App) (fresh : String) (r : Request) : App × Answer → Prop
  | rejected {answer : Answer} (hsought : r.sought? = none) (hfailed : answer.Rejects) :
    Handled app fresh r (app, answer)
  | missing {id : String} (hsought : r.sought? = some id) (hd : app.registry.find? id = none) :
    Handled app fresh r (app, .ok (.noDebugger id))
  /-- The debugger counts as used all the same. -/
  | rejectedLate {id : String} {d : Debugger} {answer : Answer} (hrefused : app.Refuses r)
    (hsought : r.sought? = some id) (hd : app.registry.find? id = some d)
    (hfailed : answer.Rejects) :
    Handled app fresh r (⟨(app.registry.erase id).putLast id d⟩, answer)
  | ran {form : ProgramForm} {code : String} (hroute : r.route? = some .run)
    (hform : r.form? ProgramForm.check = some form) (hcode : form.code.read = .ok code) :
    Handled app fresh r (app, .ok (App.runProgram form code))
  | opened {form : DebuggerForm} {d : Debugger} (hroute : r.route? = some .debuggers)
    (hform : r.form? DebuggerForm.check = some form) (hd : form.debugger? = some d)
    (hcapacity : 0 ≤ app.registry.capacity) :
    Handled app fresh r (⟨(app.registry.putLast fresh d).evict⟩, .ok (.view 201 fresh d 0))
  /-- No debugger can be kept, and those that are there are lost as well. -/
  | crashed (hroute : r.route? = some .debuggers) (hcapacity : app.registry.capacity < 0) :
    Handled app fresh r (⟨app.registry.clear⟩, .error .emptyRegistry)
  | acted {id : String} {d d' : Debugger} {a : Action} {response : Response}
    (haction : r.action? = some (id, a)) (hd : app.registry.find? id = some d)
    (hperform : a.perform d = some (d', response.body.withoutId))
    (hstatus : response.status = 200) :
    Handled app fresh r (⟨(app.registry.erase id).putLast id d'⟩, .ok response)
  | closed {id : String} {d : Debugger} (hroute : r.route? = some (.debugger id))
    (hmethod : r.method = "DELETE") (hd : app.registry.find? id = some d) :
    Handled app fresh r (⟨app.registry.erase id⟩, .ok ⟨204, .empty⟩)

section

variable {α : Type} {app : App} {r : Request} {fresh id : String}

/-! ### The checks of a request -/

theorem Request.form?_eq_some {check : Json.Members → Checked α} {json : Option Json} {form : α}
    (hjson : App.readBody r.body = .ok json) (hform : checkBody check json = .ok form) :
    r.form? check = some form := by
  simp only [form?, hjson, hform, Except.toOption]

theorem Request.exists_body {check : Json.Members → Checked α} {form : α}
    (h : r.form? check = some form) :
    ∃ json, App.readBody r.body = .ok json ∧ checkBody check json = .ok form := by
  unfold form? at h
  split at h
  · next json hjson =>
    cases hform : checkBody check json with
    | error es => simp [hform, Except.toOption] at h
    | ok form' =>
      simp only [hform, Except.toOption, Option.some.injEq] at h
      exact ⟨json, hjson, h ▸ hform⟩
  · exact absurd h (Option.some_ne_none form).symm

theorem Request.method_mem {route : Route} (h : r.route? = some route) : r.method ∈ route.methods :=
  List.contains_iff_mem.mp (Option.filter_eq_some_iff.mp h).2

theorem Request.route_of_action? {a : Action} (h : r.action? = some (id, a)) :
    ∃ route, r.route? = some route ∧ route.id? = some id ∧ r.method ≠ "DELETE" := by
  cases hroute : r.route? with
  | none => simp [action?, hroute] at h
  | some route =>
    -- only a place with an identifier takes an action, and only one such place takes a `DELETE`
    have hmethod := method_mem hroute
    refine ⟨route, rfl, ?_⟩
    cases route <;> simp_all [action?, Route.id?, Route.methods]
    all_goals exact h.elim fun _ hform => hform.2.1

theorem Request.sought?_eq_none (h : r.route?.bind Route.id? = none) : r.sought? = none := by
  simp only [sought?]
  split
  · rfl
  · next route hroute =>
    rw [hroute, Option.bind_some] at h
    rw [h, ite_self]

theorem Request.sought?_of_route {route : Route} (hroute : r.route? = some route)
    (hbody : route.readsBody = false ∨ (App.readBody r.body).isOk = true) :
    r.sought? = route.id? := by
  rcases hbody with hbody | hbody <;> simp [sought?, hroute, hbody]

theorem Request.sought?_of_unreadable {route : Route} {e : Json.ParseError}
    (hroute : r.route? = some route) (hreads : route.readsBody = true)
    (he : App.readBody r.body = .error e) : r.sought? = none := by
  simp [sought?, hroute, hreads, he, Except.isOk, Except.toBool]

/-- A debugger that something is asked of is looked up. -/
theorem Request.sought?_of_action? {a : Action} (h : r.action? = some (id, a)) :
    r.sought? = some id := by
  obtain ⟨route, hroute, hid, hmethod⟩ := route_of_action? h
  rw [sought?_of_route hroute ?_, hid]
  have hread : ∀ {α : Type} {check : Json.Members → Checked α} {form : α},
      r.form? check = some form → (App.readBody r.body).isOk = true := by
    intro α check form hform
    obtain ⟨json, hjson, -⟩ := exists_body hform
    rw [hjson]
    rfl
  cases route with
  | step x =>
    simp only [action?, hroute, Option.map_eq_some_iff] at h
    obtain ⟨count, hform, -⟩ := h
    exact .inr (hread hform)
  | breakpoints x =>
    simp only [action?, hroute, Option.map_eq_some_iff] at h
    obtain ⟨lines, hform, -⟩ := h
    exact .inr (hread hform)
  | run => cases hid
  | debuggers => cases hid
  | debugger | «continue» | restart | dump => exact .inl rfl

theorem App.refuses_of_no_action (h : r.action? = none) : app.Refuses r := by
  intro id a d haction
  rw [h] at haction
  exact absurd haction (Option.some_ne_none (id, a)).symm

theorem App.handle_of_route {route : Route} (h : r.route? = some route) :
    app.handle fresh r = app.dispatch fresh route r.method r.body := by
  obtain ⟨hpath, hmethod⟩ := Option.filter_eq_some_iff.mp h
  simp only [handle, hpath, hmethod, if_true]

theorem App.handled_of_no_route (h : r.route? = none) :
    Handled app fresh r (app.handle fresh r) := by
  have hsought : r.sought? = none := Request.sought?_eq_none (by rw [h, Option.bind_none])
  simp only [handle]
  split
  · next route hroute =>
    rw [if_neg (Option.filter_eq_none_iff.mp h route hroute)]
    exact .rejected hsought (rejects_of_status (by decide) (by decide))
  · split
    · exact .rejected hsought (rejects_of_status (by decide) (by decide))
    · exact .rejected hsought rejects_notFound

theorem App.handled_withBody {route : Route} {next : Option Json → App × Answer}
    (hroute : r.route? = some route) (hreads : route.readsBody = true)
    (h : ∀ json, App.readBody r.body = .ok json → r.sought? = route.id? →
      Handled app fresh r (next json)) :
    Handled app fresh r (app.withBody r.body next) := by
  unfold withBody
  split
  · next e he =>
    exact .rejected (Request.sought?_of_unreadable hroute hreads he) (rejects_ofParseError e)
  · next json hjson =>
    exact h json hjson (Request.sought?_of_route hroute (.inr (by rw [hjson]; rfl)))

theorem App.handled_withDebugger {next : App → Debugger → App × Answer}
    (hsought : r.sought? = some id)
    (h : ∀ d, app.registry.find? id = some d →
      Handled app fresh r (next ⟨(app.registry.erase id).putLast id d⟩ d)) :
    Handled app fresh r (app.withDebugger id next) := by
  rw [withDebugger, Registry.get?_eq]
  cases hd : app.registry.find? id with
  | none => exact .missing hsought hd
  | some d => exact h d hd

/-- A form may be checked after its debugger has been looked up, so `app'` is another service. -/
theorem App.handled_withForm {app' : App} {check : Json.Members → Checked α} {json : Option Json}
    {next : α → App × Answer}
    (hrejected : r.form? check = none →
      ∀ answer : Answer, answer.Rejects → Handled app fresh r (app', answer))
    (hjson : App.readBody r.body = .ok json)
    (h : ∀ form, r.form? check = some form → Handled app fresh r (next form)) :
    Handled app fresh r (app'.withForm check json next) := by
  unfold withForm
  split
  · next es hes =>
    have hnone : r.form? check = none := by simp only [Request.form?, hjson, hes, Except.toOption]
    exact hrejected hnone _ (rejects_ofIssues es)
  · next form hform => exact h form (Request.form?_eq_some hjson hform)

/-! ### The places -/

theorem App.handled_update {a : Action} {d d' : Debugger} {executed : Nat}
    (haction : r.action? = some (id, a)) (hd : app.registry.find? id = some d)
    (hperform : a.perform d = some (d', viewBody d' executed)) :
    Handled app fresh r (update ⟨(app.registry.erase id).putLast id d⟩ id d' executed) := by
  rw [update, Registry.replace_erase_putLast]
  exact .acted haction hd hperform rfl

theorem App.handled_openDebugger {form : DebuggerForm} {code : String}
    (hroute : r.route? = some .debuggers) (hform : r.form? DebuggerForm.check = some form)
    (hcode : form.program.code.read = .ok code) :
    Handled app fresh r (app.openDebugger fresh form code) := by
  have hsought : r.sought? = none := Request.sought?_eq_none (by rw [hroute]; rfl)
  simp only [openDebugger]
  split
  · exact .rejected hsought (rejects_of_status (by decide) (by decide))
  · next d hd =>
    split
    · exact .rejected hsought (rejects_of_status (by decide) (by decide))
    · next d' hd' =>
      have hopens : form.debugger? = some d' := by
        simp only [DebuggerForm.debugger?, hcode, hd, hd', Except.toOption]
      by_cases hcapacity : app.registry.capacity < 0
      · rw [Registry.add?_eq_none hcapacity]
        exact .crashed hroute hcapacity
      · rw [Registry.add?_eq_some (Int.not_lt.mp hcapacity)]
        exact .opened hroute hform hopens (Int.not_lt.mp hcapacity)

theorem App.handled_closeDebugger (hroute : r.route? = some (.debugger id))
    (hmethod : r.method = "DELETE") : Handled app fresh r (app.closeDebugger id) := by
  simp only [closeDebugger, Registry.discard]
  cases hd : app.registry.find? id with
  | none => exact .missing (Request.sought?_of_route hroute (.inl rfl)) hd
  | some d => exact .closed hroute hmethod hd

/-- All breakpoints are set or none is. -/
theorem App.handled_replaceBreakpoints {d : Debugger} {lines : List Int}
    (haction : r.action? = some (id, .setBreakpoints lines))
    (hd : app.registry.find? id = some d) :
    Handled app fresh r
      (replaceBreakpoints ⟨(app.registry.erase id).putLast id d⟩ id d lines) := by
  have hinside : lines.filter (fun line : Int => ¬ (1 ≤ line ∧ line ≤ d.lineCount)) = [] ↔
      lines.all fun line => 1 ≤ line ∧ line ≤ d.lineCount := by
    simp [List.filter_eq_nil_iff]
  unfold replaceBreakpoints
  split
  · next hnil => exact handled_update haction hd (if_pos (hinside.mp hnil))
  · next houtside =>
    refine .rejectedLate (fun x a d' haction' hd' => ?_) (Request.sought?_of_action? haction) hd
      (rejects_of_status (by decide) (by decide))
    obtain ⟨rfl, rfl⟩ := Prod.mk.inj (Option.some.inj (haction.symm.trans haction'))
    obtain rfl : d = d' := Option.some.inj (hd.symm.trans hd')
    exact if_neg fun hall => houtside (hinside.mpr hall)

/-- **Nothing else comes of a request.** -/
theorem App.handled (app : App) (fresh : String) (r : Request) :
    Handled app fresh r (app.handle fresh r) := by
  cases hroute : r.route? with
  | none => exact handled_of_no_route hroute
  | some route =>
    rw [handle_of_route hroute]
    cases route with
    | run =>
      refine handled_withBody hroute rfl fun json hjson hsought =>
        handled_withForm (fun _ _ => .rejected hsought) hjson fun form hform => ?_
      split
      · next code hcode => exact .ran hroute hform hcode
      · exact .rejected hsought (rejects_crash _)
    | debuggers =>
      refine handled_withBody hroute rfl fun json hjson hsought =>
        handled_withForm (fun _ _ => .rejected hsought) hjson fun form hform => ?_
      split
      · next code hcode => exact handled_openDebugger hroute hform hcode
      · exact .rejected hsought (rejects_of_status (by decide) (by decide))
    | debugger id =>
      simp only [dispatch]
      split
      · next hmethod => exact handled_closeDebugger hroute hmethod
      · next hmethod =>
        have haction : r.action? = some (id, .view) := by simp [Request.action?, hroute, hmethod]
        exact handled_withDebugger (Request.sought?_of_action? haction) fun d hd =>
          handled_update haction hd rfl
    | step id =>
      refine handled_withBody hroute rfl fun json hjson hsought =>
        handled_withDebugger hsought fun d hd =>
          handled_withForm (fun hnone _ => .rejectedLate (refuses_of_no_action ?_) hsought hd) hjson
            fun count hform => ?_
      · simp [Request.action?, hroute, hnone]
      · have haction : r.action? = some (id, .step count) := by
          simp [Request.action?, hroute, hform]
        exact handled_update haction hd rfl
    | «continue» id =>
      have haction := Request.action?_continue hroute
      rw [dispatch]
      exact handled_withDebugger (Request.sought?_of_action? haction) fun d hd =>
        handled_update haction hd rfl
    | restart id =>
      have haction : r.action? = some (id, .restart) := by simp [Request.action?, hroute]
      rw [dispatch]
      exact handled_withDebugger (Request.sought?_of_action? haction) fun d hd =>
        handled_update haction hd rfl
    | breakpoints id =>
      refine handled_withBody hroute rfl fun json hjson hsought =>
        handled_withDebugger hsought fun d hd =>
          handled_withForm (fun hnone _ => .rejectedLate (refuses_of_no_action ?_) hsought hd) hjson
            fun lines hform => ?_
      · simp [Request.action?, hroute, hnone]
      · have haction : r.action? = some (id, .setBreakpoints lines) := by
          simp [Request.action?, hroute, hform]
        exact handled_replaceBreakpoints haction hd
    | dump id =>
      have haction : r.action? = some (id, .dump) := by simp [Request.action?, hroute]
      rw [dispatch]
      exact handled_withDebugger (Request.sought?_of_action? haction) fun d hd =>
        .acted haction hd rfl rfl

/-- What holds of every new debugger, and of what an action makes of one of which it holds, holds of
every debugger that a service keeps. -/
theorem Handled.kept {P : Debugger → Prop} {result : App × Answer} (h : Handled app fresh r result)
    (hopened : ∀ {form : DebuggerForm} {d : Debugger}, form.debugger? = some d → P d)
    (hacted : ∀ {a : Action} {d d' : Debugger} {body : Body},
      a.perform d = some (d', body) → P d → P d')
    (happ : ∀ e ∈ app.registry.entries, P e.2) : ∀ e ∈ result.1.registry.entries, P e.2 := by
  have hput : ∀ {id : String} {d' : Debugger}, P d' →
      ∀ e ∈ ((app.registry.erase id).putLast id d').entries, P e.2 := by
    intro id d' hd' e he
    rcases List.mem_append.mp he with he | he
    · exact happ e (List.mem_of_mem_filter he)
    · rw [List.mem_singleton.mp he]
      exact hd'
  cases h with
  | rejected | missing | ran => exact happ
  | rejectedLate _ _ hd => exact hput (happ _ (Registry.mem_entries_of_find? hd))
  | opened _ _ hd =>
    intro e he
    rcases List.mem_append.mp (List.mem_of_mem_drop he) with he | he
    · exact happ e he
    · rw [List.mem_singleton.mp he]
      exact hopened hd
  | crashed => exact fun e he => absurd he List.not_mem_nil
  | acted _ hd hperform =>
    exact hput (hacted hperform (happ _ (Registry.mem_entries_of_find? hd)))
  | closed => exact fun e he => happ e (List.mem_of_mem_filter he)

/-! ### Requests with a known answer -/

theorem App.succeeded_iff_performed {a : Action} {d : Debugger}
    (haction : r.action? = some (id, a)) (hd : app.registry.find? id = some d) :
    Answer.succeeded (app.handle fresh r).2 ↔ (a.perform d).isSome := by
  obtain ⟨route, hroute, hid, hmethod⟩ := Request.route_of_action? haction
  have hother : ∀ route' : Route, route'.id? = none → r.route? ≠ some route' := by
    rintro route' hnone hroute'
    obtain rfl : route = route' := Option.some.inj (hroute.symm.trans hroute')
    exact absurd (hid.symm.trans hnone) (Option.some_ne_none id)
  generalize hresult : app.handle fresh r = result
  have hhandled := app.handled fresh r
  rw [hresult] at hhandled
  cases hhandled with
  | rejected hsought =>
    rw [Request.sought?_of_action? haction] at hsought
    exact absurd hsought (Option.some_ne_none id)
  | missing hsought hno =>
    obtain rfl := Option.some.inj (hsought.symm.trans (Request.sought?_of_action? haction))
    exact absurd (hd.symm.trans hno) (Option.some_ne_none d)
  | rejectedLate hrefused hsought hd' hfailed =>
    simp [hfailed.not_succeeded, hrefused id a d haction hd]
  | ran hroute' => exact absurd hroute' (hother .run rfl)
  | opened hroute' => exact absurd hroute' (hother .debuggers rfl)
  | crashed hroute' => exact absurd hroute' (hother .debuggers rfl)
  | acted haction' hd' hperform hstatus =>
    obtain ⟨rfl, rfl⟩ := Prod.mk.inj (Option.some.inj (haction.symm.trans haction'))
    obtain rfl := Option.some.inj (hd.symm.trans hd')
    simp [hperform, Answer.succeeded, Answer.status?, hstatus]
  | closed hroute' hmethod' => exact absurd hmethod' hmethod

/-- What is looked up and is not there is missing. -/
theorem App.handle_missing (hsought : r.sought? = some id) (hid : id ∉ app.registry.ids) :
    app.handle fresh r = (app, .ok (.noDebugger id)) := by
  have hthere : ∀ {x : String} {d : Debugger}, r.sought? = some x →
      app.registry.find? x ≠ some d := by
    intro x d hx hd
    obtain rfl := Option.some.inj (hsought.symm.trans hx)
    exact hid (Registry.mem_ids_of_find? hd)
  have hnamed : ∀ {route : Route}, r.route? = some route → route.id? ≠ none := by
    intro route hroute hnone
    have hsome := hsought.symm.trans (Request.sought?_eq_none (by rw [hroute]; exact hnone))
    exact Option.some_ne_none id hsome
  generalize hresult : app.handle fresh r = result
  have hhandled := app.handled fresh r
  rw [hresult] at hhandled
  cases hhandled with
  | rejected hnone => exact absurd (hsought.symm.trans hnone) (Option.some_ne_none id)
  | missing hx => rw [Option.some.inj (hsought.symm.trans hx)]
  | rejectedLate _ hx hd => exact absurd hd (hthere hx)
  | ran hroute => exact absurd rfl (hnamed hroute)
  | opened hroute => exact absurd rfl (hnamed hroute)
  | crashed hroute => exact absurd rfl (hnamed hroute)
  | acted haction hd => exact absurd hd (hthere (Request.sought?_of_action? haction))
  | closed hroute _ hd => exact absurd hd (hthere (Request.sought?_of_route hroute (.inl rfl)))

theorem App.withBody_withForm {app' : App} {check : Json.Members → Checked α}
    {next : α → App × Answer} {form : α} (hform : r.form? check = some form) :
    app.withBody r.body (fun json => app'.withForm check json next) = next form := by
  obtain ⟨json, hjson, hform⟩ := Request.exists_body hform
  simp only [withBody, hjson, withForm, hform]

theorem App.handle_run {form : ProgramForm} {code : String} (hroute : r.route? = some .run)
    (hform : r.form? ProgramForm.check = some form) (hcode : form.code.read = .ok code) :
    app.handle fresh r = (app, .ok (runProgram form code)) := by
  rw [handle_of_route hroute, dispatch, withBody_withForm hform, hcode]

theorem App.handle_debuggers {form : DebuggerForm} {code : String}
    (hroute : r.route? = some .debuggers) (hform : r.form? DebuggerForm.check = some form)
    (hcode : form.program.code.read = .ok code) :
    app.handle fresh r = app.openDebugger fresh form code := by
  rw [handle_of_route hroute, dispatch, withBody_withForm hform, hcode]

theorem App.openDebugger_of_prepare {p : ProgramForm} {program : Program} {code : String}
    (hprogram : Program.prepare (Utf8.encode code) = .ok program)
    (hcapacity : 0 ≤ app.registry.capacity) :
    app.openDebugger fresh ⟨p, []⟩ code
      = (⟨(app.registry.putLast fresh (.start program p.input p.debug p.maxSteps [])).evict⟩,
          .ok (.view 201 fresh (.start program p.input p.debug p.maxSteps []) 0)) := by
  simp only [openDebugger, Debugger.ofSource, hprogram, setBreakpoints,
    Registry.add?_eq_some hcapacity]

theorem DebuggerForm.debugger?_of_prepare {p : ProgramForm} {program : Program} {code : String}
    (hcode : p.code.read = .ok code) (hprogram : Program.prepare (Utf8.encode code) = .ok program) :
    (⟨p, []⟩ : DebuggerForm).debugger? = some (.start program p.input p.debug p.maxSteps []) := by
  simp only [DebuggerForm.debugger?, hcode, Debugger.ofSource, hprogram, App.setBreakpoints,
    Except.toOption]

theorem App.handle_continue {d : Debugger} (hroute : r.route? = some (.continue id))
    (hd : app.registry.find? id = some d) :
    app.handle fresh r
      = (⟨(app.registry.erase id).putLast id d.resume.2⟩,
          .ok (.view 200 id d.resume.2 d.resume.1)) := by
  rw [handle_of_route hroute, dispatch, withDebugger, Registry.get?_eq_some hd]
  simp only [update, Registry.replace_erase_putLast]

theorem App.handle_breakpoints {d : Debugger} {lines : List Int}
    (hroute : r.route? = some (.breakpoints id)) (hform : r.form? checkLines = some lines)
    (hd : app.registry.find? id = some d) :
    app.handle fresh r
      = replaceBreakpoints ⟨(app.registry.erase id).putLast id d⟩ id d lines := by
  obtain ⟨json, hjson, hform⟩ := Request.exists_body hform
  rw [handle_of_route hroute, dispatch]
  simp only [withBody, hjson, withDebugger, Registry.get?_eq_some hd, withForm, hform]

end

end TapeMachine.Web
