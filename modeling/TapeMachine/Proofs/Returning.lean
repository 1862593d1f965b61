import TapeMachine.Proofs.Consistency

/-!
# Resuming returns

Resuming has no count of instructions to stop at. It comes to an end all the same, since its stepper
counts for it: an instruction is done within the budget only. So there are no more of them than are left
of the budget, also in a program that runs for ever.

The loop can be left at the end of the program, at a fault and at a breakpoint, and each of these places
sets the status (`Debugger.ComesTo.halted_or_breakpoint`).
-/

namespace TapeMachine

namespace Debugger

/-- **Where the loop of resuming is left.** It is never paused, and without breakpoints it is over. -/
theorem ComesTo.halted_or_breakpoint {breakpoints : List Nat} {executed : Nat} {m : Machine}
    {g : Stepper} {state : Snapshot} {P : Progress}
    (h : ComesTo .atBreakpoint breakpoints executed m g state P) :
    P.status.halted = true ∨ (P.status = .breakpoint ∧ breakpoints ≠ []) := by
  induction h with
  | reached hreached => exact absurd hreached Bool.false_ne_true
  | finished => exact Or.inl rfl
  | @entered _ _ _ _ _ _ s _ _ _ henters =>
    refine Or.inr ⟨rfl, ?_⟩
    rintro rfl
    -- no line is on the empty list
    cases hline : s.line <;> simp [Stop.enters, hline] at henters
  | goesOn _ _ _ _ _ ih => exact ih
  | failed => exact Or.inl rfl
  | exhausted => exact Or.inl rfl

/-- What is said of resuming a debugger with a budget. -/
structure ResumesWithin (maxSteps : Int) (d : Debugger) : Prop where
  /-- A debugger that has halted does nothing. -/
  of_halted : d.halted = true → d.resume = (0, d)
  /-- Otherwise the loop comes to its end, and what it has come to is the result. -/
  comesTo : d.halted = false → ∃ P : Progress,
    ComesTo .atBreakpoint d.breakpoints 0 d.machine d.stepper d.state P ∧
    d.resume = (P.executed, { d with
      machine := P.machine, stepper := P.stepper, state := P.state
      error := P.error, status := P.status })
  executed_le : (d.resume.1 : Int) ≤ max maxSteps 0 - d.state.step
  status_cases : d.resume.2.halted = true ∨ d.resume.2.status = .breakpoint
  not_paused : d.resume.2.status ≠ .paused
  /-- Without breakpoints one call is enough. -/
  without_breakpoints : d.breakpoints = [] →
    d.resume.2.halted = true ∧ d.resume.2.resume = (0, d.resume.2)

end Debugger

section

variable {source : List UInt8} {p : Program} {input : List UInt8} {debug : Bool} {maxSteps : Int}
  {s : Session}

/-- What resuming does is within the budget, together with what was done before. -/
theorem Session.Tracks.executed_resume_le (hp : p.Prepared source)
    (h : s.Tracks p input debug maxSteps) :
    s.debugger.state.step + s.debugger.resume.1 ≤ maxSteps.toNat := by
  rw [h.step_eq]
  exact (h.call hp .resume).executed_le

theorem Session.Tracks.resumesWithin (hp : p.Prepared source)
    (h : s.Tracks p input debug maxSteps) : s.debugger.ResumesWithin maxSteps := by
  have hcases : s.debugger.resume.2.halted = true ∨
      (s.debugger.resume.2.status = .breakpoint ∧ s.debugger.breakpoints ≠ []) := by
    cases hhalted : s.debugger.halted with
    | true =>
      rw [Debugger.resume, Debugger.advance_of_halted hhalted]
      exact Or.inl hhalted
    | false =>
      obtain ⟨P, hP, hresume⟩ := h.comesTo hp hhalted .atBreakpoint
      rw [Debugger.resume, hresume]
      exact hP.halted_or_breakpoint
  refine ⟨fun hhalted => Debugger.advance_of_halted hhalted _,
    fun hhalted => h.comesTo hp hhalted .atBreakpoint, ?_, hcases.imp_right And.left, ?_,
    fun hnone => ?_⟩
  · have hle := h.executed_resume_le hp
    rw [← Int.toNat_eq_max]
    omega
  · intro hpaused
    rw [Debugger.halted, hpaused] at hcases
    rcases hcases with hhalted | ⟨hbreakpoint, -⟩
    · cases hhalted
    · cases hbreakpoint
  · have hhalted := hcases.resolve_right fun hbreakpoint => hbreakpoint.2 hnone
    exact ⟨hhalted, Debugger.advance_of_halted hhalted _⟩

end

/-- **Resuming always returns within the budget.** Whatever has been called on a debugger, and whatever
breakpoints it has got by then, resuming comes to an end after no more instructions than are left of the
budget, and not in between: the debugger has halted or is at a breakpoint. -/
theorem resume_returns_within_budget {source input : List UInt8} {debug : Bool} {maxSteps : Int}
    {new : Debugger} (hnew : Debugger.ofSource source input debug maxSteps = .ok new)
    (calls : List Call) (breakpoints : List Nat) :
    let d := ((Session.ofDebugger new).run calls).debugger
    Debugger.ResumesWithin maxSteps { d with breakpoints } := by
  obtain ⟨p, hp, htracks⟩ := Debugger.tracks_run hnew calls
  exact (htracks.breakpoints breakpoints).resumesWithin hp

/-- The program `+[]` runs for ever. With a budget of 50, of which 3 are used up by then, its debugger
stops at the loop on its own. -/
theorem resume_returns_within_budget_of_endless_loop :
    ∃ new, Debugger.ofSource [0x2B, 0x5B, 0x5D] [] false 50 = .ok new ∧
      let d := { ((Session.ofDebugger new).run [.setBreakpoint 1, .step 3]).debugger with
        breakpoints := [] }
      d.ResumesWithin 50 ∧ d.resume.2.halted = true := by
  obtain ⟨p, hp⟩ : ∃ p, Program.prepare [0x2B, 0x5B, 0x5D] = .ok p := ⟨_, rfl⟩
  obtain ⟨new, hnew⟩ : ∃ new, Debugger.ofSource [0x2B, 0x5B, 0x5D] [] false 50 = .ok new :=
    ⟨_, by rw [Debugger.ofSource, hp]⟩
  have h := resume_returns_within_budget hnew [.setBreakpoint 1, .step 3] []
  exact ⟨new, hnew, h, (h.without_breakpoints rfl).1⟩

end TapeMachine
