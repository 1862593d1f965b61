import TapeMachine.Proofs.Rejection
import TapeMachine.Proofs.Shell
import TapeMachine.Proofs.Views

/-!
# Where debuggers come from

A debugger is made for a source. After that it may be called, it may be typed at in a shell, and a
service may keep it and do to it what requests ask for, all this in any order (`Debugger.Arises`).

Whatever was done to it, a session has come to it, its program is that of its source, and its
breakpoints are ascending lines of the program (`Debugger.Sound`).
-/

namespace TapeMachine

/-- Every way in which a debugger is made or changed. -/
inductive Debugger.Arises : Debugger → Prop where
  | new {source input : List UInt8} {debug : Bool} {maxSteps : Int} {d : Debugger}
    (h : ofSource source input debug maxSteps = .ok d) : d.Arises
  | called {s : Session} (h : s.debugger.Arises) (call : Call) : (s.call call).debugger.Arises
  | typed {s : Shell} (h : s.debugger.Arises) (line : String) : (s.execute line).1.debugger.Arises
  /-- A service keeps debuggers that arose in any way, and answers a request. -/
  | served {app : Web.App} (h : ∀ e ∈ app.registry.entries, e.2.Arises) (fresh : String)
    (r : Web.Request) {e : String × Debugger}
    (he : e ∈ (app.handle fresh r).1.registry.entries) : e.2.Arises

/-- What every debugger keeps, whatever is done to it. -/
structure Debugger.Sound (d : Debugger) : Prop where
  reached : d.Reached
  prepared : d.program.Prepared d.program.source
  marks : d.program.Marks d.breakpoints

/-! ## What is done to a debugger -/

section

variable {d d' : Debugger}

theorem Shell.Effect.marks (h : Effect d d') (hd : d.program.Marks d.breakpoints) :
    d'.program.Marks d'.breakpoints := by
  rw [h.program_eq]
  cases h with
  | none => exact hd
  | advanced stop => rwa [Debugger.breakpoints_advance]
  | restarted => rwa [Debugger.breakpoints_restart]
  | @marked _ line h =>
    unfold Debugger.setBreakpoint at h
    split at h
    · next hline =>
      cases h
      exact hd.insert hline
    · cases h
  | unmarked line =>
    unfold Debugger.clearBreakpoint
    split
    · exact hd.filter _
    · exact hd
  | unmarkedAll => exact d.program.marks_nil

theorem Shell.Effect.sound (h : Effect d d') (hd : d.Sound) : d'.Sound :=
  ⟨h.reached hd.reached, h.program_eq ▸ hd.prepared, h.marks hd.marks⟩

/-- A call does no more to a debugger than a command can. -/
theorem Session.call_effect (s : Session) (call : Call) :
    Shell.Effect s.debugger (s.call call).debugger := by
  cases call with
  | step count => exact .advanced (.after count)
  | resume => exact .advanced .atBreakpoint
  | restart => exact .restarted
  | setBreakpoint line =>
    rw [Session.call]
    split
    · next hset => exact .marked hset
    · exact .none
  | clearBreakpoint line => exact .unmarked line

theorem Debugger.sound_of_ofSource {source input : List UInt8} {debug : Bool} {maxSteps : Int}
    (h : ofSource source input debug maxSteps = .ok d) : d.Sound := by
  have hreached := reached_of_ofSource h
  unfold ofSource at h
  split at h
  · next p hp =>
    cases h
    exact ⟨hreached, Program.prepared_source hp, p.marks_nil⟩
  · cases h

end

/-! ## What a service does -/

namespace Web

section

variable {d d' : Debugger}

theorem sound_setBreakpoints {lines : List Int} (h : App.setBreakpoints d lines = .ok d')
    (hd : d.Sound) : d'.Sound := by
  induction lines generalizing d with
  | nil =>
    cases h
    exact hd
  | cons line rest ih =>
    unfold App.setBreakpoints at h
    split at h
    · next hset => exact ih h ((Shell.Effect.marked hset).sound hd)
    · cases h

theorem sound_of_debugger? {form : DebuggerForm} (h : form.debugger? = some d) : d.Sound := by
  obtain ⟨code, d₀, -, hd₀, hset⟩ := form.exists_of_debugger? h
  exact sound_setBreakpoints hset (Debugger.sound_of_ofSource hd₀)

theorem sound_of_perform {a : Action} {body : Body} (h : a.perform d = some (d', body))
    (hd : d.Sound) : d'.Sound := by
  cases a with
  | view | dump =>
    cases h
    exact hd
  | step | resume =>
    cases h
    exact (Shell.Effect.advanced _).sound hd
  | restart =>
    cases h
    exact Shell.Effect.restarted.sound hd
  | setBreakpoints lines =>
    simp only [Action.perform] at h
    split at h
    · next hall =>
      cases h
      have hinside : ∀ line ∈ lines, 1 ≤ line ∧ line ≤ d.program.lineCount := fun line hline =>
        of_decide_eq_true (List.all_eq_true.mp hall line hline)
      exact ⟨hd.reached.breakpoints _, hd.prepared, .insertAll hinside d.program.marks_nil⟩
    · cases h

end

end Web

/-! ## Every debugger that arises -/

/-- **Every debugger is sound**, whatever was done to it. -/
theorem Debugger.Arises.sound {d : Debugger} (h : d.Arises) : d.Sound := by
  induction h with
  | new h => exact sound_of_ofSource h
  | called _ call ih => exact (Session.call_effect _ call).sound ih
  | typed _ line ih => exact (Shell.execute_effect _ line).sound ih
  | served _ fresh r he ih =>
    exact (Web.App.handled _ fresh r).kept Web.sound_of_debugger? Web.sound_of_perform ih _ he

end TapeMachine
