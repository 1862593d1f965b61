import Mathlib
import TapeMachine.Proofs.Isolation
import TapeMachine.Proofs.Restart

/-!
# Rejected requests

A request is rejected if its answer has a status from 400 to 499, and a request in which something is
wrong is rejected (`App.Faulty`). It leaves all debuggers as they are (`App.Undisturbed`), and what it
has looked up is at most used more recently than before. There is no half way either in a request that
sets breakpoints: if it is not rejected, the debugger has the lines of its body and no other ones
(`App.BreakpointsReplaced`).

What a request can change is read off the list of all that can come of it (`App.handled`).
-/

namespace TapeMachine.Web

/-- Whether the answer says that the request was wrong. -/
def Answer.isClientError (a : Answer) : Bool :=
  a.status?.any fun status => 400 ≤ status && status < 500

/-- The service `app'` keeps the same debuggers as `app` in the same state, and the request `r` has
moved at most the one that it looks up. -/
structure App.Undisturbed (app app' : App) (r : Request) : Prop where
  capacity_eq : app'.registry.capacity = app.registry.capacity
  mem_ids_iff : ∀ id, id ∈ app'.registry.ids ↔ id ∈ app.registry.ids
  find?_eq : ∀ id, app'.registry.find? id = app.registry.find? id
  order : app'.registry.ids = app.registry.ids ∨
    ∃ id, r.sought? = some id ∧ id ∈ app.registry.ids ∧
      app'.registry.ids = app.registry.ids.filter (· != id) ++ [id]

/-- The service `app'` has set the breakpoints of `id` to the lines in the body of `r`, and has done
nothing else to the debuggers of `app`. -/
structure App.BreakpointsReplaced (app app' : App) (r : Request) (id : String) : Prop where
  others : ∀ x, x ≠ id → app'.registry.find? x = app.registry.find? x
  replaced : ∃ (lines : List Int) (d : Debugger) (breakpoints : List Nat),
    r.form? checkLines = some lines ∧ app.registry.find? id = some d ∧
    app'.registry.find? id = some { d with breakpoints } ∧ breakpoints.Pairwise (· < ·) ∧
    ∀ line : Int, line ∈ breakpoints.map Nat.cast ↔ line ∈ lines

/-- There is something wrong with a request. Wrong fields of a body that can be read are left out: the
answer to them shows what was sent, and there are values that no answer can show. -/
inductive App.Faulty (app : App) (r : Request) : Prop where
  | noPlace (hpath : Route.ofPath (pathOf r.target) = none)
    (hslashed : Route.ofSlashed (pathOf r.target) = none)
  | noMethod {route : Route} (hpath : Route.ofPath (pathOf r.target) = some route)
    (hmethod : r.method ∉ route.methods)
  | unreadable {route : Route} {e : Json.ParseError} (hroute : r.route? = some route)
    (hreads : route.readsBody = true) (hbody : App.readBody r.body = .error e)
  | noDebugger {id : String} (hsought : r.sought? = some id) (hid : id ∉ app.registry.ids)
  /-- The code is not balanced, or a breakpoint is outside the program. -/
  | notOpened {form : DebuggerForm} (hroute : r.route? = some .debuggers)
    (hform : r.form? DebuggerForm.check = some form) (hd : form.debugger? = none)
  | outside {id : String} {lines : List Int} {line : Int} {d : Debugger}
    (hroute : r.route? = some (.breakpoints id)) (hform : r.form? checkLines = some lines)
    (hd : app.registry.find? id = some d) (hline : line ∈ lines)
    (houtside : ¬ (1 ≤ line ∧ line ≤ d.lineCount))
  | exhausted {form : ProgramForm} {code : String} {p : Program} {budget : Int}
    (hroute : r.route? = some .run) (hform : r.form? ProgramForm.check = some form)
    (hcode : form.code.read = .ok code) (hp : Program.prepare (Utf8.encode code) = .ok p)
    (hending : ((Machine.blank Machine.defaultLength).execute ⟨p, form.debug, some form.maxSteps⟩
      form.input (form.maxSteps.toNat + 1)).ending = some (.failed (.exhausted budget)))

variable {app : App} {fresh id : String} {r : Request} {d : Debugger} {result : App × Answer}

/-! ## Requests that are rejected -/

theorem isClientError_ofParseError (e : Json.ParseError) :
    (App.ofParseError e).isClientError = true := by
  cases e with
  | malformed => cbv
  | undecodable => rfl
  | tooManyDigits => rfl
  | tooDeep => rfl

theorem App.handle_unreadable {route : Route} {e : Json.ParseError} (hroute : r.route? = some route)
    (hreads : route.readsBody = true) (hbody : App.readBody r.body = .error e) :
    app.handle fresh r = (app, ofParseError e) := by
  rw [handle_of_route hroute]
  cases route with
  | run | debuggers | step | breakpoints => simp only [dispatch, withBody, hbody]
  | debugger | «continue» | restart | dump => cases hreads

theorem App.isClientError_of_notOpened {form : DebuggerForm} (hroute : r.route? = some .debuggers)
    (hform : r.form? DebuggerForm.check = some form) (hd : form.debugger? = none) :
    (app.handle fresh r).2.isClientError = true := by
  rw [handle_of_route hroute, dispatch, withBody_withForm hform]
  unfold DebuggerForm.debugger? at hd
  split
  · next code hcode =>
    simp only [hcode] at hd
    cases hsource : Debugger.ofSource (Utf8.encode code) form.program.input form.program.debug
        form.program.maxSteps with
    | error ds =>
      simp only [openDebugger, hsource]
      rfl
    | ok d =>
      simp only [hsource] at hd
      cases hset : App.setBreakpoints d form.breakpoints with
      | error e =>
        simp only [openDebugger, hsource, hset]
        rfl
      | ok d' => simp [hset, Except.toOption] at hd
  · rfl

/-- **A request that is wrong is rejected.** -/
theorem App.Faulty.isClientError (h : app.Faulty r) :
    (app.handle fresh r).2.isClientError = true := by
  cases h with
  | noPlace hpath hslashed =>
    simp only [handle, hpath, hslashed]
    rfl
  | noMethod hpath hmethod =>
    have hnot := mt List.contains_iff_mem.mp hmethod
    simp only [handle, hpath, if_neg hnot]
    rfl
  | unreadable hroute hreads hbody =>
    rw [handle_unreadable hroute hreads hbody]
    exact isClientError_ofParseError _
  | noDebugger hsought hid =>
    rw [handle_missing hsought hid]
    rfl
  | notOpened hroute hform hd => exact isClientError_of_notOpened hroute hform hd
  | outside hroute hform hd hline houtside =>
    rw [handle_breakpoints hroute hform hd]
    unfold replaceBreakpoints
    split
    · next hnone =>
      have hin := List.filter_eq_nil_iff.mp hnone _ hline
      exact absurd houtside (by simpa using hin)
    · rfl
  | exhausted hroute hform hcode hp hending =>
    rw [handle_run hroute hform hcode, runProgram]
    simp only [hp, hending]
    rfl

/-! ## Requests that change nothing -/

theorem App.Undisturbed.refl (app : App) (r : Request) : app.Undisturbed app r :=
  ⟨rfl, fun _ => .rfl, fun _ => rfl, .inl rfl⟩

/-- A lookup disturbs no debugger. -/
theorem App.undisturbed_erase_putLast (hsought : r.sought? = some id)
    (hd : app.registry.find? id = some d) :
    app.Undisturbed ⟨(app.registry.erase id).putLast id d⟩ r := by
  have hmem := Registry.mem_ids_of_find? hd
  refine ⟨rfl, fun x => Registry.mem_ids_erase_putLast hmem d, fun x => ?_,
    .inr ⟨id, hsought, hmem, ?_⟩⟩
  · by_cases hx : x = id
    · rw [hx, Registry.find?_erase_putLast_self, hd]
    · rw [Registry.find?_erase_putLast_of_ne hx]
  · rw [Registry.ids_putLast, Registry.ids_erase]

/-- **One request** that is rejected disturbs no debugger. -/
theorem Handled.undisturbed (h : Handled app fresh r result)
    (herror : result.2.isClientError = true) : app.Undisturbed result.1 r := by
  cases h with
  | rejected => exact .refl app r
  | missing => exact .refl app r
  | rejectedLate _ hsought hd => exact App.undisturbed_erase_putLast hsought hd
  | ran => exact .refl app r
  | opened => exact absurd herror Bool.false_ne_true
  | crashed => exact absurd herror Bool.false_ne_true
  | acted _ _ _ hstatus =>
    rw [Answer.isClientError, Answer.status?, hstatus] at herror
    exact absurd herror (by decide)
  | closed => exact absurd herror Bool.false_ne_true

/-! ## Requests that set breakpoints -/

/-- Lines that are checked one by one make the same set as their list. -/
theorem mem_breakpoints_iff {lines : List Int} (hinside : ∀ line ∈ lines, 1 ≤ line) (line : Int) :
    line ∈ (lines.foldl (fun ls line => insertLine line.toNat ls) []).map Nat.cast ↔
      line ∈ lines := by
  rw [← List.foldl_map (f := Int.toNat) (g := fun ls line => insertLine line ls)]
  simp only [List.mem_map, mem_foldl_insertLine, List.not_mem_nil, or_false]
  constructor
  · rintro ⟨l, ⟨line', hline', rfl⟩, rfl⟩
    rwa [Int.toNat_of_nonneg (by have := hinside line' hline'; omega)]
  · intro hline
    have := hinside line hline
    exact ⟨line.toNat, ⟨line, hline, rfl⟩, Int.toNat_of_nonneg (by omega)⟩

theorem pairwise_breakpoints (lines : List Int) :
    (lines.foldl (fun ls line => insertLine line.toNat ls) []).Pairwise (· < ·) := by
  rw [← List.foldl_map (f := Int.toNat) (g := fun ls line => insertLine line ls)]
  exact pairwise_foldl_insertLine _ .nil

theorem App.breakpointsReplaced_of_perform {lines : List Int} {d' : Debugger} {body : Body}
    (hform : r.form? checkLines = some lines) (hd : app.registry.find? id = some d)
    (hperform : (Action.setBreakpoints lines).perform d = some (d', body)) :
    app.BreakpointsReplaced ⟨(app.registry.erase id).putLast id d'⟩ r id := by
  simp only [Action.perform] at hperform
  split at hperform
  · next hall =>
    obtain ⟨rfl, -⟩ := Prod.mk.inj (Option.some.inj hperform)
    have hinside : ∀ line ∈ lines, 1 ≤ line := fun line hline =>
      (of_decide_eq_true (List.all_eq_true.mp hall line hline)).1
    exact ⟨fun x hx => Registry.find?_erase_putLast_of_ne hx _,
      lines, d, _, hform, hd, Registry.find?_erase_putLast_self _ _ _, pairwise_breakpoints lines,
      mem_breakpoints_iff hinside⟩
  · cases hperform

/-- **One request** that sets breakpoints and is answered with the status 200 has set them all. -/
theorem Handled.breakpointsReplaced (h : Handled app fresh r result)
    (hroute : r.route? = some (.breakpoints id)) (hstatus : result.2.status? = some 200) :
    app.BreakpointsReplaced result.1 r id := by
  have hother : ∀ {route : Route}, r.route? = some route → route = .breakpoints id :=
    fun h => Option.some.inj (h.symm.trans hroute)
  cases h with
  | rejected _ hfailed => exact absurd hstatus (hfailed.status_ne (by decide))
  | missing => cases hstatus
  | rejectedLate _ _ _ hfailed => exact absurd hstatus (hfailed.status_ne (by decide))
  | ran hrun => cases hother hrun
  | opened hopen => cases hother hopen
  | crashed => cases hstatus
  | @acted x d d' a response haction hd hperform _ =>
    simp only [Request.action?, hroute, Option.map_eq_some_iff] at haction
    obtain ⟨lines, hform, haction⟩ := haction
    obtain ⟨rfl, rfl⟩ := Prod.mk.inj haction
    exact App.breakpointsReplaced_of_perform hform hd hperform
  | closed hclose => cases hother hclose

/-! ## Atomicity -/

/-- **Rejected requests are atomic.** What is wrong is rejected, what is rejected changes no debugger,
and a request that sets breakpoints sets all or none. -/
theorem rejected_requests_are_atomic (app : App) (fresh : String) (r : Request) :
    (app.Faulty r → (app.handle fresh r).2.isClientError = true) ∧
      ((app.handle fresh r).2.isClientError = true → app.Undisturbed (app.handle fresh r).1 r) ∧
      ∀ id, r.route? = some (.breakpoints id) → (app.handle fresh r).2.status? = some 200 →
        app.BreakpointsReplaced (app.handle fresh r).1 r id :=
  ⟨App.Faulty.isClientError, (app.handled fresh r).undisturbed,
    fun _ => (app.handled fresh r).breakpointsReplaced⟩

/-- A debugger of `+` is opened, and its breakpoints are to be set on a line of the program and on one
that is not there. -/
theorem rejected_breakpoints_are_atomic :
    let opening : Request := ⟨"POST", "/api/debuggers", Utf8.encode "\x7b\"code\":\"+\"\x7d"⟩
    let setting : Request :=
      ⟨"PUT", "/api/debuggers/a/breakpoints", Utf8.encode "\x7b\"lines\":[1,2]\x7d"⟩
    let app := (App.empty 1).serve [("a", opening)]
    app.registry.ids = ["a"] ∧ (app.handle "b" setting).2.status? = some 422 ∧
      app.Undisturbed (app.handle "b" setting).1 setting := by
  intro opening setting app
  have hopeningBody : App.readBody opening.body
      = .ok (some (.object [("code", .string "+")])) := by cbv
  have hopeningForm : opening.form? DebuggerForm.check
      = some ⟨⟨.ofString "+", [], false, defaultBudget⟩, []⟩ :=
    Request.form?_eq_some hopeningBody rfl
  have hsettingBody : App.readBody setting.body
      = .ok (some (.object [("lines", .array [.nat 1, .nat 2])])) := by cbv
  have hsettingForm : setting.form? checkLines = some [1, 2] :=
    Request.form?_eq_some hsettingBody rfl
  have hsettingRoute : setting.route? = some (.breakpoints "a") := by decide +kernel
  obtain ⟨p, hp, hcount⟩ : ∃ p, Program.prepare (Utf8.encode "+") = .ok p ∧ p.lineCount = 1 :=
    ⟨_, by rfl, by decide⟩
  -- the tape of a new debugger is long, so of the debugger only its lines are looked into
  obtain ⟨d, hlines, hserved⟩ : ∃ d : Debugger, d.lineCount = 1 ∧ app = ⟨⟨1, [("a", d)]⟩⟩ := by
    refine ⟨.start p [] false defaultBudget [], hcount, ?_⟩
    rw [show app = ((App.empty 1).handle "a" opening).1 from rfl,
      App.handle_opening hopeningForm (Text.Loose.read_ofString "+") hp
        (show (0 : Int) ≤ 1 by decide)]
    rfl
  have hrejected : (app.handle "b" setting).2.status? = some 422 := by
    rw [hserved, App.handle_breakpoints hsettingRoute hsettingForm rfl, App.replaceBreakpoints,
      hlines]
    rfl
  have hatomic := (rejected_requests_are_atomic app "b" setting).2.1
  refine ⟨by rw [hserved]; rfl, hrejected, hatomic ?_⟩
  rw [Answer.isClientError, hrejected]
  rfl

end TapeMachine.Web
