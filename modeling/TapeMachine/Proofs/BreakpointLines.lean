import TapeMachine.Proofs.Arising

/-!
# Breakpoints are lines of the program

A breakpoint is set by a call, by a command line, by the request that opens a debugger, or by one that
replaces all its breakpoints. Each of them checks the lines on its own, and each lets in the same ones:
those from 1 to the number of lines (`breakpoints_are_lines`).

* `Debugger.KeepsToLines`: what this means for one debugger, and for a shell that it is in
* `Web.App.KeepsToLines`: what it means for a service, and for its answers
-/

namespace TapeMachine

/-- The breakpoints of a debugger are lines of its program in ascending order, and what names another
line is refused and changes nothing. -/
structure Debugger.KeepsToLines (d : Debugger) : Prop where
  ascending : d.breakpoints.Pairwise (· < ·)
  inside : ∀ l ∈ d.breakpoints, 1 ≤ l ∧ l ≤ d.lineCount
  empty : d.program.source = [] → d.breakpoints = []
  set_refused : ∀ line : Int, ¬ (1 ≤ line ∧ line ≤ d.lineCount) →
    d.setBreakpoint line = .error ⟨line, d.lineCount⟩
  clear_refused : ∀ line : Int, ¬ (1 ≤ line ∧ line ≤ d.lineCount) →
    d.clearBreakpoint line = (false, d)
  break_refused : ∀ last typed text rest line, Shell.Asks typed .break (text :: rest) →
    Text.parseInt text = .ok line → ¬ (1 ≤ line ∧ line ≤ d.lineCount) →
    Shell.execute ⟨d, last⟩ typed
      = (⟨d, typed⟩, ⟨"", Reply.error (OutsideProgram.mk line d.lineCount).message, true⟩)
  delete_refused : ∀ last typed text rest line, Shell.Asks typed .delete (text :: rest) →
    Text.parseInt text = .ok line → ¬ (1 ≤ line ∧ line ≤ d.lineCount) →
    Shell.execute ⟨d, last⟩ typed = (⟨d, typed⟩, .say s!"no breakpoint at line {text}\n")
  /-- Without an argument, the breakpoints are listed in their order. -/
  listed : ∀ last typed, Shell.Asks typed .break [] →
    Shell.execute ⟨d, last⟩ typed = (⟨d, typed⟩, .say (Shell.breakpointList d.breakpoints))

/-- The answer has a list of breakpoints that is strictly increasing and within the number of lines. -/
def Web.Answer.ListsLines (a : Web.Answer) : Prop :=
  ∃ (lines : List Nat) (count : Nat), a.member? "breakpoints" = some (.array (lines.map .nat)) ∧
    a.member? "line_count" = some (.nat count) ∧ lines.Pairwise (· < ·) ∧
    ∀ l ∈ lines, 1 ≤ l ∧ l ≤ count

/-- Every view that a service answers lists lines of the program, and a request that names another line
is refused and changes no debugger. -/
structure Web.App.KeepsToLines (app : Web.App) : Prop where
  shown : ∀ fresh r, (app.handle fresh r).2.showsDebugger = true → (app.handle fresh r).2.ListsLines
  set_refused : ∀ fresh r id lines d, r.route? = some (.breakpoints id) →
    r.form? checkLines = some lines → app.registry.find? id = some d →
    (∃ line ∈ lines, ¬ (1 ≤ line ∧ line ≤ (d.lineCount : Int))) →
    (app.handle fresh r).2.status? = some 422 ∧
      ∀ x, (app.handle fresh r).1.registry.find? x = app.registry.find? x
  open_refused : ∀ fresh r (form : DebuggerForm) code p, r.route? = some .debuggers →
    r.form? DebuggerForm.check = some form → form.program.code.read = .ok code →
    Program.prepare (Utf8.encode code) = .ok p →
    (∃ line ∈ form.breakpoints, ¬ (1 ≤ line ∧ line ≤ (p.lineCount : Int))) →
    (app.handle fresh r).2.status? = some 422 ∧ (app.handle fresh r).1 = app

section

variable {d : Debugger}

theorem Debugger.clearBreakpoint_of_outside (h : d.Sound) {line : Int}
    (hline : ¬ (1 ≤ line ∧ line ≤ d.lineCount)) : d.clearBreakpoint line = (false, d) := by
  refine if_neg fun hany => hline ?_
  obtain ⟨l, hl, heq⟩ := List.any_eq_true.mp hany
  obtain ⟨hone, hle⟩ := h.marks.inside l hl
  rw [← of_decide_eq_true heq, lineCount]
  omega

theorem Debugger.Sound.keepsToLines (h : d.Sound) : d.KeepsToLines where
  ascending := h.marks.ascending
  inside := h.marks.inside
  empty hempty := by
    have hcount : d.program.lineCount = 0 := (hempty ▸ h.prepared).lineCount_nil
    refine List.eq_nil_iff_forall_not_mem.mpr fun l hl => ?_
    obtain ⟨hone, hle⟩ := h.marks.inside l hl
    omega
  set_refused _ hline := if_neg hline
  clear_refused _ := clearBreakpoint_of_outside h
  break_refused last typed text rest line hasks hparse hline := by
    rw [Shell.execute_of_asks hasks, Shell.perform, Shell.doBreak_cons, hparse]
    simp only [setBreakpoint, if_neg hline]
    rfl
  delete_refused last typed text rest line hasks hparse hline := by
    rw [Shell.execute_of_asks hasks, Shell.perform, Shell.doDelete_cons, hparse]
    simp only [clearBreakpoint_of_outside h hline]
  listed last typed hasks := by
    rw [Shell.execute_of_asks hasks]
    rfl

end

/-! ## Services -/

namespace Web

variable {app : App}

/-- Lines are set one by one, so one of them that is not there is enough to refuse them all. -/
theorem setBreakpoints_of_outside {lines : List Int} {d : Debugger} {line : Int}
    (hline : line ∈ lines) (houtside : ¬ (1 ≤ line ∧ line ≤ d.lineCount)) :
    ∃ e, App.setBreakpoints d lines = .error e := by
  induction lines generalizing d with
  | nil => exact absurd hline List.not_mem_nil
  | cons first rest ih =>
    rw [App.setBreakpoints, Debugger.setBreakpoint]
    by_cases hfirst : 1 ≤ first ∧ first ≤ d.lineCount
    · rw [if_pos hfirst]
      rcases List.mem_cons.mp hline with rfl | hrest
      · exact absurd hfirst houtside
      · exact ih hrest houtside
    · rw [if_neg hfirst]
      exact ⟨_, rfl⟩

theorem App.refuses_to_open {fresh : String} {r : Request} {form : DebuggerForm} {code : String}
    {p : Program} (hroute : r.route? = some .debuggers)
    (hform : r.form? DebuggerForm.check = some form) (hcode : form.program.code.read = .ok code)
    (hp : Program.prepare (Utf8.encode code) = .ok p)
    (houtside : ∃ line ∈ form.breakpoints, ¬ (1 ≤ line ∧ line ≤ (p.lineCount : Int))) :
    (app.handle fresh r).2.status? = some 422 ∧ (app.handle fresh r).1 = app := by
  obtain ⟨line, hline, houtside⟩ := houtside
  obtain ⟨e, he⟩ := setBreakpoints_of_outside hline
    (d := .start p form.program.input form.program.debug form.program.maxSteps []) houtside
  rw [handle_debuggers hroute hform hcode, openDebugger]
  simp only [Debugger.ofSource, hp, he, and_true]
  rfl

theorem App.refuses_to_set {fresh : String} {r : Request} {id : String} {lines : List Int}
    {d : Debugger} (hroute : r.route? = some (.breakpoints id))
    (hform : r.form? checkLines = some lines) (hd : app.registry.find? id = some d)
    (houtside : ∃ line ∈ lines, ¬ (1 ≤ line ∧ line ≤ (d.lineCount : Int))) :
    (app.handle fresh r).2.status? = some 422 ∧
      ∀ x, (app.handle fresh r).1.registry.find? x = app.registry.find? x := by
  have hstatus : (app.handle fresh r).2.status? = some 422 := by
    rw [handle_breakpoints hroute hform hd]
    unfold replaceBreakpoints
    split
    · next hnone =>
      obtain ⟨line, hline, houtside⟩ := houtside
      have hin := List.filter_eq_nil_iff.mp hnone line hline
      exact absurd houtside (by simpa using hin)
    · rfl
  have herror : (app.handle fresh r).2.isClientError = true := by
    rw [Answer.isClientError, hstatus]
    rfl
  exact ⟨hstatus, ((app.handled fresh r).undisturbed herror).find?_eq⟩

theorem listsLines_view {d : Debugger} (h : d.Sound) (id : String) (status executed : Nat) :
    Answer.ListsLines (.ok (.view status id d executed)) :=
  ⟨d.breakpoints, d.lineCount, rfl, rfl, h.marks.ascending, h.marks.inside⟩

theorem App.keepsToLines (happ : ∀ e ∈ app.registry.entries, e.2.Sound) : app.KeepsToLines where
  shown fresh r hshows := by
    obtain ⟨status, id, d, executed, hd, hview⟩ :=
      (app.handled fresh r).exists_view sound_of_debugger? sound_of_perform happ hshows
    have hlists := listsLines_view hd id status executed
    unfold Answer.ListsLines at hlists ⊢
    rwa [hview "breakpoints" (by decide), hview "line_count" (by decide)]
  set_refused _ _ _ _ _ := refuses_to_set
  open_refused _ _ _ _ _ := refuses_to_open

end Web

/-! ## Everything that can be done -/

/-- **Breakpoints are lines of the program**, strictly ascending in every list of them, whatever calls,
command lines and requests a debugger has seen, and whatever a service was asked that keeps such
debuggers. -/
theorem breakpoints_are_lines :
    (∀ d : Debugger, d.Arises → d.KeepsToLines) ∧
      ∀ app : Web.App, (∀ e ∈ app.registry.entries, e.2.Arises) → app.KeepsToLines :=
  ⟨fun _ hd => hd.sound.keepsToLines,
    fun _ happ => Web.App.keepsToLines fun e he => (happ e he).sound⟩

/-- A debugger of two lines has a breakpoint on each, one from a call and one from a command line. A
service keeps it, and is asked for its view and for a breakpoint on a third line. -/
theorem breakpoints_are_lines_of_two_lines :
    ∃ d : Debugger, d.Arises ∧ d.breakpoints = [1, 2] ∧ d.setBreakpoint 3 = .error ⟨3, 2⟩ ∧
      let app : Web.App := ⟨⟨1, [("a", d)]⟩⟩
      let setting : Web.Request :=
        ⟨"PUT", "/api/debuggers/a/breakpoints", Utf8.encode "\x7b\"lines\":[2,3]\x7d"⟩
      let viewing : Web.Request := ⟨"GET", "/api/debuggers/a", []⟩
      (∀ e ∈ app.registry.entries, e.2.Arises) ∧ (app.handle "b" setting).2.status? = some 422 ∧
        (app.handle "b" setting).1.registry.find? "a" = some d ∧
        (app.handle "b" viewing).2.showsDebugger = true ∧ (app.handle "b" viewing).2.ListsLines := by
  obtain ⟨p, hp, hcount⟩ : ∃ p, Program.prepare [0x2B, 0x0A, 0x2D] = .ok p ∧ p.lineCount = 2 :=
    ⟨_, rfl, rfl⟩
  obtain ⟨d, hd, hlines, hnone⟩ : ∃ d : Debugger, d.Arises ∧ d.lineCount = 2 ∧ d.breakpoints = [] :=
    ⟨.start p [] false 9 [], .new (by rw [Debugger.ofSource, hp]), hcount, rfl⟩
  have hcalled : ((Session.ofDebugger d).call (.setBreakpoint 2)).debugger
      = { d with breakpoints := [2] } := by
    simp only [Session.call, Session.ofDebugger, Debugger.setBreakpoint, hlines, hnone]
    rfl
  have hasks : Shell.Asks "break 1" .break ["1"] :=
    ⟨"break", by decide +kernel, .inl (by decide +kernel)⟩
  have htyped : (Shell.execute ⟨{ d with breakpoints := [2] }, "step"⟩ "break 1").1.debugger
      = { d with breakpoints := [1, 2] } := by
    have hone : Text.parseInt "1" = .ok 1 := by decide +kernel
    have hline : (1 : Int) ≤ 1 ∧ (1 : Int) ≤ ({ d with breakpoints := [2] } : Debugger).lineCount := by
      rw [show ({ d with breakpoints := [2] } : Debugger).lineCount = 2 from hlines]
      decide
    rw [Shell.execute_of_asks hasks, Shell.perform, Shell.doBreak_cons, hone]
    simp only [Debugger.setBreakpoint, if_pos hline]
    rfl
  have hlines' : ({ d with breakpoints := [1, 2] } : Debugger).lineCount = 2 := hlines
  have harises : Debugger.Arises { d with breakpoints := [1, 2] } :=
    htyped ▸ .typed (s := ⟨_, "step"⟩) (hcalled ▸ .called hd (.setBreakpoint 2)) "break 1"
  obtain ⟨hdebuggers, hservices⟩ := breakpoints_are_lines
  refine ⟨_, harises, rfl, ?_, ?_⟩
  · rw [(hdebuggers _ harises).set_refused 3 (by rw [hlines']; decide), hlines']
  intro app setting viewing
  have happ : ∀ e ∈ app.registry.entries, e.2.Arises := by
    intro e he
    rw [List.mem_singleton.mp he]
    exact harises
  have hsettingBody : Web.App.readBody setting.body
      = .ok (some (.object [("lines", .array [.nat 2, .nat 3])])) := by cbv
  have hsettingForm : setting.form? Web.checkLines = some [2, 3] :=
    Web.Request.form?_eq_some hsettingBody rfl
  have hsettingRoute : setting.route? = some (.breakpoints "a") := by decide +kernel
  have hviewingRoute : viewing.route? = some (.debugger "a") := by decide +kernel
  obtain ⟨hstatus, hsame⟩ := (hservices app happ).set_refused "b" setting "a" [2, 3] _ hsettingRoute
    hsettingForm rfl ⟨3, by decide, by rw [hlines']; decide⟩
  have hshows : (app.handle "b" viewing).2.showsDebugger = true := by
    rw [Web.App.handle_of_route hviewingRoute]
    rfl
  exact ⟨happ, hstatus, hsame "a", hshows, (hservices app happ).shown "b" viewing hshows⟩

end TapeMachine
