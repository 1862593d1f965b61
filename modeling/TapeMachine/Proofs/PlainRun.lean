import TapeMachine.Debugger
import TapeMachine.Proofs.Prepare
import TapeMachine.Proofs.Stepping

/-!
# Plain runs

The plain run of a program is what a stepper gives on a blank machine of the default length when it
is asked until it stops. With a budget it always stops: no instruction is done after the budget is
used up (`exists_endsAfter_of_budget`).
-/

namespace TapeMachine

namespace Config

/-! ## Runs with a budget -/

/-- An instruction is done within the budget only. -/
theorem lt_budget_of_advanced {s : Setup} {c c' : Config} {budget : Int}
    (hs : s.budget = some budget) (h : c.attempt s = .advanced c') : (c.steps : Int) < budget := by
  obtain ⟨-, hbudget, -⟩ := performed_of_advanced h
  by_contra hle
  have := exhausted_eq_some_iff.mpr ⟨hs, Int.not_lt.mp hle⟩
  rw [hbudget] at this
  exact Option.some_ne_none budget this.symm

/-- A run with a budget ends. -/
theorem exists_endsAfter_of_budget {s : Setup} {c : Config} (budget : Int)
    (hs : s.budget = some budget) (hc : c.steps = 0) :
    ∃ n d e, n ≤ budget.toNat ∧ EndsAfter s c n d e := by
  cases h : execute s (budget.toNat + 1) c with
  | mk d ending =>
    cases ending with
    | some e =>
      obtain ⟨n, hn, hends⟩ := execute_eq_some_iff.mp h
      exact ⟨n, d, e, Nat.le_of_lt_succ hn, hends⟩
    | none =>
      -- otherwise one instruction more is done than the budget allows
      obtain ⟨c', hc', hd⟩ := exists_after_of_le (execute_eq_none_iff.mp h)
        (Nat.le_succ budget.toNat)
      rw [Nat.succ_sub (Nat.le_refl _), Nat.sub_self] at hd
      have hlt := lt_budget_of_advanced hs (exists_advanced_of_after_one hd)
      rw [steps_after _ _ _ hc', hc, Nat.zero_add] at hlt
      exact absurd hlt (Int.not_lt.mpr (Int.self_le_toNat budget))

/-- On a tape with cells a run fails at a move or when the budget is used up. -/
theorem fault_cases {s : Setup} {c : Config} {fault : Fault}
    (h : c.ending? s = some (.failed fault)) (hc : c.pointer < c.tape.size) :
    (∃ line symbol, fault = .outOfBounds line symbol) ∨
      ∃ n, s.budget = some n ∧ n ≤ c.steps ∧ fault = .exhausted n := by
  obtain ⟨-, -, hexhausted | hblocked⟩ := stuck_of_failed h
  · exact Or.inr hexhausted
  · exact Or.inl (hblocked.exists_outOfBounds hc)

/-- A run ends normally where its program ends. -/
theorem ending?_eq_finished_iff {s : Setup} {c : Config} :
    c.ending? s = some .finished ↔ s.program.length ≤ c.pc := by
  unfold ending?
  rcases attempt_cases s c with ⟨hpc, ha⟩ | ⟨hpc, ⟨n, -, -, ha⟩ | ⟨-, ha⟩⟩
  · rw [ha]
    exact ⟨fun _ => hpc, fun _ => rfl⟩
  · rw [ha]
    exact ⟨fun h => (nomatch h), fun h => absurd hpc (Nat.not_lt.mpr h)⟩
  · rw [ha]
    refine ⟨fun h => ?_, fun h => absurd hpc (Nat.not_lt.mpr h)⟩
    rcases perform_cases s c with ⟨c', hc', -⟩ | ⟨fault, hfault, -⟩
    · rw [hc'] at h
      cases h
    · rw [hfault] at h
      cases h

end Config

/-- The snapshot at the end of a prepared program is the finished one. -/
theorem Program.Prepared.finished_iff {source : List UInt8} {p : Program} (hp : Prepared source p)
    (command : Option Instruction) (c : Config) :
    (Snapshot.ofConfig p command c).finished = true ↔ p.length ≤ c.pc := by
  show (p.line? c.pc).isNone = true ↔ p.length ≤ c.pc
  rw [hp.length_eq]
  by_cases h : c.pc < source.length
  · rw [hp.line?_eq c.pc h]
    simp [h]
  · rw [hp.line?_end c.pc (Nat.not_lt.mp h)]
    simpa using h

/-- A run ends normally at the finished snapshot. -/
theorem Config.finished_iff_ending {source : List UInt8} {s : Setup} {c₀ c : Config} {k : Nat}
    {state : Snapshot} (hp : s.program.Prepared source) (hafter : after s k c₀ = some c)
    (hsnapshot : snapshotAfter s c₀ k = some state) :
    state.finished = true ↔ c.ending? s = some .finished := by
  obtain ⟨command, hcommand⟩ := exists_snapshotAfter hafter
  rw [hsnapshot, Option.some.injEq] at hcommand
  rw [hcommand, hp.finished_iff, ending?_eq_finished_iff]

/-- Before the end of its program, a run with a budget does one more instruction or fails. -/
theorem Config.advanced_or_stuck {source : List UInt8} {s : Setup} {c₀ c : Config} {k : Nat}
    {budget : Int} {state : Snapshot} (hp : s.program.Prepared source)
    (hs : s.budget = some budget) (hc₀ : c₀.steps = 0) (hafter : after s k c₀ = some c)
    (hsnapshot : snapshotAfter s c₀ k = some state) (hstate : state.finished = false) :
    (∃ d, c.attempt s = .advanced d ∧ after s (k + 1) c₀ = some d ∧
      snapshotAfter s c₀ (k + 1)
        = some (.ofConfig s.program (some (s.program.fetch c.pc)) d) ∧ k < budget.toNat) ∨
      ∃ fault, c.attempt s = .stuck fault c := by
  rcases attempt_stays s c with ⟨d, hd, -⟩ | hc | ⟨fault, hc⟩
  · have hone := after_one_of_advanced hd
    have hlt := lt_budget_of_advanced hs hd
    rw [steps_after k c₀ c hafter, hc₀] at hlt
    refine Or.inl ⟨d, hd, ?_, snapshotAfter_of_after hafter hone, by omega⟩
    rw [after_add_of_eq_some hafter, hone]
  · rw [(finished_iff_ending hp hafter hsnapshot).mpr (by rw [ending?, hc])] at hstate
    exact absurd hstate.symm Bool.false_ne_true
  · exact Or.inr ⟨fault, hc⟩

/-! ## The plain run -/

/-- All that a stepper gives on a new machine of the default length. -/
def plainRun (program : Program) (input : List UInt8) (debug : Bool) (maxSteps : Int) : Trace :=
  (Stepper.ofSetup ⟨program, debug, some maxSteps⟩ input).take (maxSteps.toNat + 2)
    (.blank Machine.defaultLength)

/-- **The plain run is complete.** It has the snapshot of every configuration up to the end. -/
theorem plainRun_spec (program : Program) (input : List UInt8) (debug : Bool) (maxSteps : Int) :
    ∃ n d e, Config.EndsAfter ⟨program, debug, some maxSteps⟩
        (.start Machine.defaultLength input) n d e ∧
      (plainRun program input debug maxSteps).stop = some e.event ∧
      (plainRun program input debug maxSteps).states.size = n + 1 ∧
      ∀ k, (plainRun program input debug maxSteps).states[k]?
        = Config.snapshotAfter ⟨program, debug, some maxSteps⟩
            (.start Machine.defaultLength input) k := by
  obtain ⟨n, d, e, hn, hends⟩ := Config.exists_endsAfter_of_budget
    (s := ⟨program, debug, some maxSteps⟩) (c := .start Machine.defaultLength input) maxSteps rfl
    rfl
  have hexecute := Config.execute_eq_some_iff.mpr ⟨n, Nat.lt_succ_of_le hn, hends⟩
  obtain ⟨hle, hafter⟩ := Config.after_length_trace ⟨program, debug, some maxSteps⟩
    (maxSteps.toNat + 1) (.start Machine.defaultLength input)
  rw [hexecute] at hafter
  obtain ⟨hlength, -, -⟩ := hends.unique ⟨hafter, hends.ending_eq⟩
  refine ⟨n, d, e, hends, ?_⟩
  rw [plainRun, Stepper.take_succ, Machine.length_blank]
  refine ⟨?_, ?_, fun k => ?_⟩
  · rw [hexecute]
    rfl
  · rw [Config.size_states, ← hlength]
  · by_cases hk : k ≤ maxSteps.toNat + 1
    · exact Config.states_getElem? _ hk
    · rw [Array.getElem?_eq_none (by rw [Config.size_states]; omega)]
      exact (Config.snapshotAfter_eq_none (hends.after_eq_none (by omega))).symm

/-- Where the run ends, the plain run has its last state. -/
theorem plainRun_at_end {program : Program} {input : List UInt8} {debug : Bool} {maxSteps : Int}
    {k : Nat} {c : Config} {e : Ending}
    (hends : Config.EndsAfter ⟨program, debug, some maxSteps⟩
      (.start Machine.defaultLength input) k c e) :
    k + 1 = (plainRun program input debug maxSteps).states.size ∧
      (plainRun program input debug maxSteps).stop = some e.event := by
  obtain ⟨n, d, e', hends', hstop, hsize, -⟩ := plainRun_spec program input debug maxSteps
  obtain ⟨rfl, -, rfl⟩ := hends.unique hends'
  exact ⟨hsize.symm, hstop⟩

theorem onTape_of_after_start {input : List UInt8} {s : Setup} {k : Nat} {c : Config}
    (h : Config.after s k (.start Machine.defaultLength input) = some c) :
    c.pointer < c.tape.size :=
  Config.onTape_after h (Config.onTape_start (by decide) input)

/-- A plain run ends normally, at a move off the tape or when the budget is used up. -/
theorem plainRun_stop_cases (program : Program) (input : List UInt8) (debug : Bool)
    (maxSteps : Int) :
    (plainRun program input debug maxSteps).stop = some .over ∨
      (∃ line symbol, (plainRun program input debug maxSteps).stop
        = some (.fault (.outOfBounds line symbol))) ∨
      (plainRun program input debug maxSteps).stop = some (.fault (.exhausted maxSteps)) := by
  obtain ⟨n, d, e, hends, hstop, -, -⟩ := plainRun_spec program input debug maxSteps
  rw [hstop]
  cases e with
  | finished => exact Or.inl rfl
  | failed fault =>
    rcases Config.fault_cases hends.ending_eq (onTape_of_after_start hends.after_eq) with
      ⟨line, symbol, rfl⟩ | ⟨budget, hbudget, -, rfl⟩
    · exact Or.inr (Or.inl ⟨line, symbol, rfl⟩)
    · obtain rfl : maxSteps = budget := Option.some.inj hbudget
      exact Or.inr (Or.inr rfl)

end TapeMachine
