import TapeMachine.Proofs.Cursor

/-!
# Status, error and state of a debugger

The status, the error and the state of a debugger are set at different places of `Debugger.progress`,
and its stepper goes its own way beside them. Whatever is called, they fit together
(`Session.Consistent`).

`Debugger.progress` has a result for everything that a stepper may give, and for running out of fuel.
Not all of that occurs. `Debugger.ComesTo` is the same loop without these results: it never asks a
stepper that is over and never meets a tape without cells, and it comes to its end by itself.

What is kept by all that the front ends do to a debugger is that a session has come to it
(`Debugger.Reached`).
-/

namespace TapeMachine

open Config

/-! ## The loop of a call -/

/-- What a call that goes on until `stop` comes to, from `executed` instructions at `state` on. There is
nothing that it comes to from where the stepper is over. -/
inductive Debugger.ComesTo (stop : Stop) (breakpoints : List Nat) :
    Nat → Machine → Stepper → Snapshot → Progress → Prop where
  | reached {executed : Nat} {m : Machine} {g : Stepper} {state : Snapshot}
    (hreached : stop.reached executed = true) :
    ComesTo stop breakpoints executed m g state ⟨executed, m, g, state, none, .paused⟩
  | finished {executed : Nat} {m m' : Machine} {g g' : Stepper} {state s : Snapshot}
    (hreached : stop.reached executed = false) (hnext : g.next m = (.state s, g', m'))
    (hfinished : s.finished = true) :
    ComesTo stop breakpoints executed m g state ⟨executed + 1, m', g', s, none, .finished⟩
  | entered {executed : Nat} {m m' : Machine} {g g' : Stepper} {state s : Snapshot}
    (hreached : stop.reached executed = false) (hnext : g.next m = (.state s, g', m'))
    (hfinished : s.finished = false)
    (henters : stop.enters breakpoints state.line s.line = true) :
    ComesTo stop breakpoints executed m g state ⟨executed + 1, m', g', s, none, .breakpoint⟩
  | goesOn {executed : Nat} {m m' : Machine} {g g' : Stepper} {state s : Snapshot} {P : Progress}
    (hreached : stop.reached executed = false) (hnext : g.next m = (.state s, g', m'))
    (hfinished : s.finished = false)
    (henters : stop.enters breakpoints state.line s.line = false)
    (hrest : ComesTo stop breakpoints (executed + 1) m' g' s P) :
    ComesTo stop breakpoints executed m g state P
  | failed {executed : Nat} {m m' : Machine} {g g' : Stepper} {state : Snapshot} {line : Nat}
    {symbol : Char} (hreached : stop.reached executed = false)
    (hnext : g.next m = (.fault (.outOfBounds line symbol), g', m')) :
    ComesTo stop breakpoints executed m g state
      ⟨executed, m', g', state, some (.outOfBounds line symbol), .failed⟩
  | exhausted {executed : Nat} {m m' : Machine} {g g' : Stepper} {state : Snapshot} {budget : Int}
    (hreached : stop.reached executed = false)
    (hnext : g.next m = (.fault (.exhausted budget), g', m')) :
    ComesTo stop breakpoints executed m g state
      ⟨executed, m', g', state, some (.exhausted budget), .exhausted⟩

section

variable {source : List UInt8} {g : Stepper} {c₀ : Config} {stop : Debugger.Stop}
  {breakpoints : List Nat}

/-- **The loop comes to its end**, and the fuel is enough for it. -/
theorem progress_comesTo {budget : Int} (hp : g.setup.program.Prepared source)
    (hbudget : g.setup.budget = some budget) (hc₀ : c₀.steps = 0)
    (htape : c₀.pointer < c₀.tape.size) :
    ∀ (fuel executed k : Nat) (c : Config) (state : Snapshot), after g.setup k c₀ = some c →
      snapshotAfter g.setup c₀ k = some state → state.finished = false →
      budget.toNat - k < fuel →
      Debugger.ComesTo stop breakpoints executed (g.suspend c).2 (g.suspend c).1 state
        (Debugger.progress stop breakpoints fuel executed (g.suspend c).2 (g.suspend c).1 state) := by
  intro fuel
  induction fuel with
  | zero => intro executed k c state _ _ _ hfuel; exact absurd hfuel (Nat.not_lt_zero _)
  | succ fuel ih =>
    intro executed k c state hafter hsnapshot hstate hfuel
    rw [Debugger.progress]
    cases hreached : stop.reached executed with
    | true => exact .reached hreached
    | false =>
      have hnext := Stepper.next_suspend g c
      rcases advanced_or_stuck hp hbudget hc₀ hafter hsnapshot hstate with
        ⟨d, hd, hafter', hsnapshot', hlt⟩ | ⟨fault, hc⟩
      · simp only [hd] at hnext
        simp only [hnext, Bool.false_eq_true, if_false]
        cases hfinished : (Snapshot.ofConfig g.setup.program
            (some (g.setup.program.fetch c.pc)) d).finished with
        | true => exact .finished hreached hnext hfinished
        | false =>
          simp only [Bool.false_eq_true, if_false]
          cases henters : stop.enters breakpoints state.line (Snapshot.ofConfig g.setup.program
              (some (g.setup.program.fetch c.pc)) d).line with
          | true => exact .entered hreached hnext hfinished henters
          | false =>
            simp only [Bool.false_eq_true, if_false]
            -- every instruction is done within the budget, so there is fuel for the rest
            exact .goesOn hreached hnext hfinished henters
              (ih (executed + 1) (k + 1) d _ hafter' hsnapshot' hfinished (by omega))
      · simp only [hc] at hnext
        simp only [hnext, Bool.false_eq_true, if_false]
        rcases fault_cases (show c.ending? g.setup = some (.failed fault) by rw [ending?, hc])
          (onTape_after hafter htape) with ⟨line, symbol, rfl⟩ | ⟨n, -, -, rfl⟩
        · exact .failed hreached hnext
        · exact .exhausted hreached hnext

end

/-! ## What fits together -/

/-- Status, error and state of the debugger fit together, and every call on it returns. -/
structure Session.Consistent (maxSteps : Int) (s : Session) : Prop where
  finished_iff : s.debugger.status = .finished ↔ s.debugger.state.line = none
  failed_iff : s.debugger.status = .failed ↔
    ∃ line symbol, s.debugger.error = some (.outOfBounds line symbol)
  /-- The error is that of the instruction to come. -/
  failed_line : ∀ line symbol, s.debugger.error = some (.outOfBounds line symbol) →
    s.debugger.state.line = some line
  exhausted_iff : s.debugger.status = .exhausted ↔
    ∃ budget, s.debugger.error = some (.exhausted budget)
  /-- The whole budget has been used up. -/
  exhausted_step : s.debugger.status = .exhausted → (s.debugger.state.step : Int) = max maxSteps 0
  no_error : s.debugger.status ≠ .failed → s.debugger.status ≠ .exhausted → s.debugger.error = none
  /-- The step count is what the calls since the last restart have returned, all in all. -/
  step_eq : s.debugger.state.step = s.executed
  step_le : (s.debugger.state.step : Int) ≤ max maxSteps 0
  /-- Once halted, a debugger does nothing more, and keeps all but its breakpoints until a restart. -/
  halted_stays : s.debugger.halted = true → ∀ calls, Call.restart ∉ calls →
    (s.run calls).debugger
      = { s.debugger with breakpoints := (s.run calls).debugger.breakpoints } ∧
    (∀ count, (s.run calls).debugger.step count = (0, (s.run calls).debugger)) ∧
    (s.run calls).debugger.resume = (0, (s.run calls).debugger)
  /-- Otherwise stepping and resuming come to an end of their loop. -/
  advances : s.debugger.halted = false → ∀ stop, ∃ P : Debugger.Progress,
    Debugger.ComesTo stop s.debugger.breakpoints 0 s.debugger.machine s.debugger.stepper
      s.debugger.state P ∧
    s.debugger.advance stop = (P.executed, { s.debugger with
      machine := P.machine, stepper := P.stepper, state := P.state
      error := P.error, status := P.status })
  /-- A restart takes the first state of a new stepper, which has one. -/
  restarts : (Stepper.ofSetup
      ⟨s.debugger.program, s.debugger.debug, some s.debugger.maxSteps⟩ s.debugger.input).next
      (.blank Machine.defaultLength)
    = (.state s.debugger.restart.state, s.debugger.restart.stepper, s.debugger.restart.machine)

section

variable {source : List UInt8} {p : Program} {input : List UInt8} {debug : Bool} {maxSteps : Int}
  {s : Session}

namespace Session.Tracks

theorem line_eq_none_iff (h : s.Tracks p input debug maxSteps) :
    s.debugger.status = .finished ↔ s.debugger.state.line = none := by
  have hfinished : s.debugger.state.finished = true ↔ s.debugger.state.line = none :=
    Option.isNone_iff_eq_none
  obtain ⟨c, -, -, hstanding⟩ := h.stands
  rw [← hfinished]
  cases hstanding with
  | waiting hstatus hstate _ _ _ =>
    rw [hstate]
    refine ⟨fun hs => ?_, fun hs => absurd hs Bool.false_ne_true⟩
    rw [hs] at hstatus
    cases hstatus
  | finished hstatus hstate _ => exact ⟨fun _ => hstate, fun _ => hstatus⟩
  | faulted fault _ hstatus hstate _ _ =>
    rw [hstate, hstatus]
    refine ⟨fun hs => ?_, fun hs => absurd hs Bool.false_ne_true⟩
    cases fault <;> cases hs

/-- A debugger that has an error is where the run ends with it. -/
theorem ending_of_error (h : s.Tracks p input debug maxSteps) {fault : Fault}
    (herror : s.debugger.error = some fault) :
    ∃ c command, after ⟨p, debug, some maxSteps⟩ s.executed (.start Machine.defaultLength input)
        = some c ∧ s.debugger.state = .ofConfig p command c ∧
      c.ending? ⟨p, debug, some maxSteps⟩ = some (.failed fault) := by
  obtain ⟨c, hafter, hsnapshot, hstanding⟩ := h.stands
  obtain ⟨command, hcommand⟩ := exists_snapshotAfter hafter
  rw [hsnapshot, Option.some.injEq] at hcommand
  refine ⟨c, command, hafter, hcommand, ?_⟩
  cases hstanding with
  | waiting _ _ hnone _ _ =>
    rw [hnone] at herror
    cases herror
  | finished _ _ hnone =>
    rw [hnone] at herror
    cases herror
  | faulted fault' hending _ _ hfault _ =>
    rw [hfault, Option.some.injEq] at herror
    rwa [← herror]

/-- A run fails at the line of the instruction to come. -/
theorem line_of_error (hp : p.Prepared source) (h : s.Tracks p input debug maxSteps) {line : Nat}
    {symbol : Char} (herror : s.debugger.error = some (.outOfBounds line symbol)) :
    s.debugger.state.line = some line := by
  obtain ⟨c, command, -, hstate, hending⟩ := h.ending_of_error herror
  obtain ⟨-, hpc, ⟨n, -, -, hn⟩ | hblocked⟩ := stuck_of_failed hending
  · cases hn
  · have hline := hp.line?_eq c.pc (by rw [← hp.length_eq]; exact hpc)
    rw [hstate, hblocked.line_eq]
    show p.line? c.pc = some ((p.line? c.pc).getD 0)
    rw [hline, Option.getD_some]

theorem executed_le (h : s.Tracks p input debug maxSteps) : s.executed ≤ maxSteps.toNat := by
  obtain ⟨c, hafter, -, -⟩ := h.stands
  obtain ⟨n, d, e, hn, hends⟩ := exists_endsAfter_of_budget
    (s := ⟨p, debug, some maxSteps⟩) (c := .start Machine.defaultLength input) maxSteps rfl rfl
  exact Nat.le_trans (hends.le_of_after hafter) hn

theorem executed_of_exhausted (h : s.Tracks p input debug maxSteps)
    (hstatus : s.debugger.status = .exhausted) : s.executed = maxSteps.toNat := by
  obtain ⟨budget, herror⟩ := h.status_iff_error.2.mp hstatus
  obtain ⟨c, command, hafter, -, hending⟩ := h.ending_of_error herror
  have hsteps : c.steps = s.executed := (steps_after _ _ c hafter).trans (Nat.zero_add _)
  have hle := h.executed_le
  rcases fault_cases hending (onTape_of_after_start hafter) with ⟨_, _, hn⟩ | ⟨n, hn, hused, -⟩
  · cases hn
  · cases hn
    omega

theorem no_error (h : s.Tracks p input debug maxSteps) (hfailed : s.debugger.status ≠ .failed)
    (hexhausted : s.debugger.status ≠ .exhausted) : s.debugger.error = none := by
  obtain ⟨c, -, -, hstanding⟩ := h.stands
  cases hstanding with
  | waiting _ _ hnone _ _ => exact hnone
  | finished _ _ hnone => exact hnone
  | faulted fault _ hstatus _ _ _ => cases fault <;> simp_all [Status.ofFault]

theorem comesTo (hp : p.Prepared source) (h : s.Tracks p input debug maxSteps)
    (hhalted : s.debugger.halted = false) (stop : Debugger.Stop) :
    ∃ P : Debugger.Progress,
      Debugger.ComesTo stop s.debugger.breakpoints 0 s.debugger.machine s.debugger.stepper
        s.debugger.state P ∧
      s.debugger.advance stop = (P.executed, { s.debugger with
        machine := P.machine, stepper := P.stepper, state := P.state
        error := P.error, status := P.status }) := by
  refine ⟨_, ?_, Debugger.advance_of_not_halted hhalted stop⟩
  obtain ⟨c, hafter, hsnapshot, hstanding⟩ := h.stands
  obtain ⟨hstate, hstepper, -⟩ := hstanding.not_halted hhalted
  obtain ⟨hg, hm⟩ := Prod.mk.inj hstepper
  rw [hg, hm, h.maxSteps_eq, h.step_eq]
  exact progress_comesTo hp rfl rfl (onTape_start (by decide) input) _ 0 s.executed c _ hafter
    hsnapshot hstate (Nat.lt_succ_self _)

end Session.Tracks

end

/-! ## Calls on a debugger that has halted -/

namespace Session

variable {s : Session}

/-- One call on it changes the breakpoints at most. -/
theorem call_of_halted (h : s.debugger.halted = true) {call : Call} (hcall : call ≠ .restart) :
    (s.call call).debugger
      = { s.debugger with breakpoints := (s.call call).debugger.breakpoints } := by
  rcases s.call_cases call with ⟨stop, hadvance⟩ | ⟨hrestart, -⟩ | ⟨breakpoints, hbreakpoints⟩
  · rw [hadvance, record, Debugger.advance_of_halted h]
  · exact absurd hrestart hcall
  · rw [hbreakpoints]

theorem run_of_halted {calls : List Call} (h : s.debugger.halted = true)
    (hcalls : Call.restart ∉ calls) :
    (s.run calls).debugger
      = { s.debugger with breakpoints := (s.run calls).debugger.breakpoints } := by
  induction calls generalizing s with
  | nil => rfl
  | cons call calls ih =>
    obtain ⟨hcall, hrest⟩ := not_or.mp (mt List.mem_cons.mpr hcalls)
    have hone := call_of_halted h (Ne.symm hcall)
    have hhalted : (s.call call).debugger.halted = true := by rw [hone]; exact h
    have hall := ih hhalted hrest
    rw [hone] at hall
    exact hall

end Session

/-! ## Every session is consistent -/

section

variable {source : List UInt8} {p : Program} {input : List UInt8} {debug : Bool} {maxSteps : Int}
  {s : Session}

theorem Session.Tracks.consistent (hp : p.Prepared source) (h : s.Tracks p input debug maxSteps) :
    s.Consistent maxSteps where
  finished_iff := h.line_eq_none_iff
  failed_iff := h.status_iff_error.1
  failed_line _ _ := h.line_of_error hp
  exhausted_iff := h.status_iff_error.2
  exhausted_step hstatus := by
    rw [h.step_eq, h.executed_of_exhausted hstatus, Int.toNat_eq_max]
  no_error := h.no_error
  step_eq := h.step_eq
  step_le := by
    rw [h.step_eq, ← Int.toNat_eq_max]
    exact Int.ofNat_le.mpr h.executed_le
  halted_stays hhalted calls hcalls := by
    have hsame := Session.run_of_halted hhalted hcalls
    have hstay : (s.run calls).debugger.halted = true := by rw [hsame]; exact hhalted
    exact ⟨hsame, fun count => Debugger.advance_of_halted hstay _, Debugger.advance_of_halted hstay _⟩
  advances hhalted stop := h.comesTo hp hhalted stop
  restarts := rfl

end

/-! ## Debuggers of a session -/

/-- Some session has come to the debugger. -/
def Debugger.Reached (d : Debugger) : Prop :=
  ∃ (source : List UInt8) (p : Program) (input : List UInt8) (debug : Bool) (maxSteps : Int)
    (s : Session), p.Prepared source ∧ s.Tracks p input debug maxSteps ∧ s.debugger = d

namespace Debugger

variable {d : Debugger}

/-- Whatever is called on a new debugger, the session tracks the run of its program. -/
theorem tracks_run {source input : List UInt8} {debug : Bool} {maxSteps : Int}
    (h : ofSource source input debug maxSteps = .ok d) (calls : List Call) :
    ∃ p : Program, p.Prepared source ∧
      ((Session.ofDebugger d).run calls).Tracks p input debug maxSteps := by
  unfold ofSource at h
  split at h
  · next p hp =>
    cases h
    have hprepared := Program.prepared_of_prepare hp
    exact ⟨p, hprepared, (Session.tracks_start p input debug maxSteps []).run hprepared calls⟩
  · cases h

/-- Whatever is called on a new debugger, a session has come to it. -/
theorem reached_run {source input : List UInt8} {debug : Bool} {maxSteps : Int}
    (h : ofSource source input debug maxSteps = .ok d) (calls : List Call) :
    ((Session.ofDebugger d).run calls).debugger.Reached := by
  obtain ⟨p, hp, htracks⟩ := tracks_run h calls
  exact ⟨source, p, input, debug, maxSteps, _, hp, htracks, rfl⟩

theorem reached_of_ofSource {source input : List UInt8} {debug : Bool} {maxSteps : Int}
    (h : ofSource source input debug maxSteps = .ok d) : d.Reached := reached_run h []

/-- A call on it comes to an end of its loop. -/
theorem Reached.comesTo (h : d.Reached) (hhalted : d.halted = false) (stop : Stop) :
    ∃ P : Progress, ComesTo stop d.breakpoints 0 d.machine d.stepper d.state P ∧
      d.advance stop = (P.executed, { d with
        machine := P.machine, stepper := P.stepper, state := P.state
        error := P.error, status := P.status }) := by
  obtain ⟨source, p, input, debug, maxSteps, s, hp, htracks, rfl⟩ := h
  exact htracks.comesTo hp hhalted stop

theorem Reached.advance (h : d.Reached) (stop : Stop) : (d.advance stop).2.Reached := by
  obtain ⟨source, p, input, debug, maxSteps, s, hp, htracks, rfl⟩ := h
  exact ⟨source, p, input, debug, maxSteps, _, hp, htracks.record hp stop, rfl⟩

theorem Reached.restart (h : d.Reached) : d.restart.Reached := by
  obtain ⟨source, p, input, debug, maxSteps, s, hp, htracks, rfl⟩ := h
  exact ⟨source, p, input, debug, maxSteps, _, hp, htracks.call hp .restart, rfl⟩

theorem Reached.breakpoints (h : d.Reached) (breakpoints : List Nat) :
    { d with breakpoints }.Reached := by
  obtain ⟨source, p, input, debug, maxSteps, s, hp, htracks, rfl⟩ := h
  exact ⟨source, p, input, debug, maxSteps, _, hp, htracks.breakpoints breakpoints, rfl⟩

/-- A state that is reached is on a line of the program. -/
theorem Reached.line_bounds {d : Debugger} (h : d.Reached) {n : Nat}
    (hn : d.state.line = some n) : 1 ≤ n ∧ n ≤ d.lineCount := by
  obtain ⟨source, p, input, debug, maxSteps, s, hp, htracks, rfl⟩ := h
  obtain ⟨c, hafter, hsnapshot, -⟩ := htracks.stands
  obtain ⟨command, hcommand⟩ := Config.exists_snapshotAfter hafter
  rw [hsnapshot, Option.some.injEq] at hcommand
  rw [hcommand] at hn
  rw [lineCount, htracks.program_eq]
  exact hp.line?_bounds hn

end Debugger

end TapeMachine
