import TapeMachine.Interpretation
import TapeMachine.Proofs.BudgetCut
import TapeMachine.Proofs.Refinement
import TapeMachine.Proofs.Session

/-!
# Runs with and without a budget

The budget is asked for before each instruction and is not looked at by any of them. So a run with a
budget goes where the run without one goes, and it ends there for the same reason unless the budget
is that reason (`EndsAfter.without_budget`).

A debugger without breakpoints goes on to the end of its run (`Debugger.resume_spec`). For a program
without loops that is the store that its bytes come to (`Debugger.resume_of_acts`).
-/

namespace TapeMachine

namespace Config

variable {p : Program} {debug : Bool} {budget : Option Int} {c d : Config}

/-- An attempt that does not stop at the budget is the same without one. -/
theorem attempt_without_budget
    (h : ∀ n, c.attempt ⟨p, debug, budget⟩ ≠ .stuck (.exhausted n) c) :
    c.attempt ⟨p, debug, none⟩ = c.attempt ⟨p, debug, budget⟩ := by
  rcases attempt_cases ⟨p, debug, budget⟩ c with ⟨hpc, ha⟩ | ⟨hpc, ⟨n, -, -, ha⟩ | ⟨-, ha⟩⟩
  · rw [ha, attempt, if_pos hpc]
  · exact absurd ha (h n)
  · rw [ha, attempt, if_neg (Nat.not_le.mpr hpc)]
    rfl

theorem after_without_budget :
    ∀ {n : Nat} {c : Config}, after ⟨p, debug, budget⟩ n c = some d →
      after ⟨p, debug, none⟩ n c = some d := by
  intro n
  induction n with
  | zero => intro c h; exact h
  | succ n ih =>
    intro c h
    rw [after] at h
    split at h
    · next c' hc' =>
      have hsame := attempt_without_budget (c := c) (p := p) fun n hn => by
        rw [hc'] at hn
        cases hn
      rw [after_succ_of_advanced (hsame.trans hc')]
      exact ih h
    · exact absurd h (Option.some_ne_none d).symm

/-- **A run that does not end at its budget is the run without one.** -/
theorem EndsAfter.without_budget {n : Nat} {e : Ending}
    (h : EndsAfter ⟨p, debug, budget⟩ c n d e) (he : ∀ m, e ≠ .failed (.exhausted m)) :
    EndsAfter ⟨p, debug, none⟩ c n d e := by
  refine ⟨after_without_budget h.after_eq, ?_⟩
  have hending := h.ending_eq
  unfold ending? at hending ⊢
  rw [attempt_without_budget, hending]
  intro m hm
  rw [hm] at hending
  exact he m (Option.some.inj hending).symm

end Config

/-! ## Interpreting -/

/-- Interpreting a source comes to the outcome `i`. -/
def Interprets (source input : List UInt8) (debug : Bool) (i : Interpretation) : Prop :=
  ∃ fuel, interpret source input debug fuel = some i

theorem interprets_of_endsAfter {source input : List UInt8} {p : Program} {debug : Bool} {n : Nat}
    {c : Config} {e : Ending} (hp : Program.prepare source = .ok p)
    (h : Config.EndsAfter ⟨p, debug, none⟩ (.start Machine.defaultLength input) n c e) :
    Interprets source input debug (.ofEnding c.output e) := by
  refine ⟨n + 1, ?_⟩
  have hexecute := Config.execute_eq_some_iff.mpr ⟨n, Nat.lt_succ_self n, h⟩
  simp only [interpret, hp, Interpretation.setup, Machine.execute, Machine.length_blank, hexecute]
  rfl

/-! ## Debuggers without breakpoints -/

/-- How a debugger stands where its run has ended. -/
def Ending.status : Ending → Status
  | finished => .finished
  | failed fault => .ofFault fault

section

variable {source : List UInt8} {p : Program} {input : List UInt8} {debug : Bool} {maxSteps : Int}

/-- **Resuming without breakpoints leads to the end of the run.** -/
theorem Debugger.resume_spec (hp : p.Prepared source) {n : Nat} {c : Config} {e : Ending}
    (h : Config.EndsAfter ⟨p, debug, some maxSteps⟩ (.start Machine.defaultLength input) n c e) :
    (start p input debug maxSteps []).resume.1 = n ∧
      (start p input debug maxSteps []).resume.2.status = e.status ∧
      (start p input debug maxSteps []).resume.2.error = e.fault? ∧
      ∃ command, (start p input debug maxSteps []).resume.2.state = .ofConfig p command c := by
  have htracks := (Session.tracks_start p input debug maxSteps []).call hp .resume
  obtain ⟨d, hafter, hsnapshot, hstanding⟩ := htracks.stands
  obtain ⟨command, hcommand⟩ := Config.exists_snapshotAfter hafter
  rw [hsnapshot, Option.some.injEq] at hcommand
  -- the end that the debugger stands at is the end of the run
  cases hstanding with
  | waiting hstatus hstate herror hstepper hno =>
    -- without breakpoints the call stops nowhere, so it attempts whatever instruction comes
    refine absurd ⟨_, List.mem_cons_self, Nat.zero_le _, fun j _ _ => ?_⟩ hno
    rintro ⟨-, before, here, line, -, -, -, -, hline⟩
    exact List.not_mem_nil hline
  | finished hstatus hstate herror =>
    have hending := (Config.finished_iff_ending hp hafter hsnapshot).mp hstate
    obtain ⟨hcount, rfl, rfl⟩ := Config.EndsAfter.unique ⟨hafter, hending⟩ h
    exact ⟨(Nat.zero_add _).symm.trans hcount, hstatus, herror, command, hcommand⟩
  | faulted fault hending hstatus hstate herror hattempted =>
    obtain ⟨hcount, rfl, rfl⟩ := Config.EndsAfter.unique ⟨hafter, hending⟩ h
    exact ⟨(Nat.zero_add _).symm.trans hcount, hstatus, herror, command, hcommand⟩

/-- A program without loops that does not move off the tape is finished when it is resumed. -/
theorem Debugger.resume_of_acts (hp : p.Prepared source) (plain : ∀ b ∈ source, bracketStep b = none)
    (hlength : 0 < Machine.defaultLength) {τ : Store Machine.defaultLength}
    (h : source.foldlM (fun σ b => σ.act debug b) (Store.start hlength input) = some τ)
    (hbudget : source.length < maxSteps) :
    (start p input debug maxSteps []).resume.1 = source.length ∧
      (start p input debug maxSteps []).resume.2.status = .finished ∧
      (start p input debug maxSteps []).resume.2.state.pointer = τ.pointer ∧
      (start p input debug maxSteps []).resume.2.state.output = τ.output := by
  have hends := endsAfter_of_acts hp plain h
  rw [Store.config_start] at hends
  obtain ⟨hcount, hstatus, -, command, hstate⟩ := resume_spec hp (hends.with_budget rfl hbudget)
  exact ⟨hcount, hstatus, congrArg Snapshot.pointer hstate, congrArg Snapshot.output hstate⟩

end

end TapeMachine
