import TapeMachine.Proofs.Lockstep
import TapeMachine.Proofs.PlainRun

/-!
# A budget cuts a run

The budget is looked at where there is another instruction, before it is run. So a run with a budget
goes along the run without one until as many instructions are done as are allowed. If there is
another instruction then, the run ends there, else the two runs are the same to the end.

* `agree_within`, `EndsAfter.with_budget`: as long as the budget is not used up
* `AttemptsMoreThan.endsAfter`: where the budget ends a run
* `agree_of_not_attemptsMoreThan`: when it does not
-/

namespace TapeMachine

namespace Config

variable {p : Program} {debug : Bool}

/-! ## Attempts with and without a budget -/

theorem attempt_of_end {s : Setup} {c : Config} (h : s.program.length ≤ c.pc) :
    c.attempt s = .ended c := if_pos h

theorem attempt_of_lt_budget {budget : Int} {c : Config} (h : (c.steps : Int) < budget) :
    c.attempt ⟨p, debug, some budget⟩ = c.attempt ⟨p, debug, none⟩ := by
  have hnone : exhausted (some budget) c.steps = none := by
    refine Option.eq_none_iff_forall_ne_some.mpr fun n hn => ?_
    obtain ⟨hbudget, hle⟩ := exhausted_eq_some_iff.mp hn
    cases hbudget
    omega
  unfold attempt
  simp only [hnone]
  rfl

theorem attempt_of_budget_le {budget : Int} {c : Config} (hpc : c.pc < p.length)
    (h : budget ≤ c.steps) :
    c.attempt ⟨p, debug, some budget⟩ = .stuck (.exhausted budget) c := by
  have hsome : exhausted (some budget) c.steps = some budget :=
    exhausted_eq_some_iff.mpr ⟨rfl, h⟩
  unfold attempt
  rw [if_neg (Nat.not_le.mpr hpc)]
  simp only [hsome]

/-- Only a budget that is used up ends a run in this way. -/
theorem budget_eq_of_exhausted {s : Setup} {c : Config} {n : Int}
    (h : c.ending? s = some (.failed (.exhausted n))) : s.budget = some n := by
  obtain ⟨-, -, ⟨m, hm, -, hfault⟩ | hblocked⟩ := stuck_of_failed h
  · cases hfault
    exact hm
  · cases hblocked

/-! ## Runs that agree -/

/-- As long as the budget is not used up it changes nothing. -/
theorem agree_within {budget : Int} {c : Config} (hc : c.steps = 0) {n : Nat}
    (hn : n ≤ budget.toNat) :
    execute ⟨p, debug, some budget⟩ n c = execute ⟨p, debug, none⟩ n c ∧
      trace ⟨p, debug, some budget⟩ n c = trace ⟨p, debug, none⟩ n c := by
  refine same_of_attempt_eq rfl fun j d hj hd => attempt_of_lt_budget ?_
  rw [steps_after j c d hd, hc]
  omega

/-- **A run that ends before its budget is used up is the run without one.** -/
theorem EndsAfter.with_budget {budget : Int} {c d : Config} {n : Nat} {e : Ending}
    (h : EndsAfter ⟨p, debug, none⟩ c n d e) (hc : c.steps = 0) (hn : n < budget) :
    EndsAfter ⟨p, debug, some budget⟩ c n d e := by
  have hexecute := execute_eq_some_iff.mpr ⟨n, Nat.lt_succ_self n, h⟩
  have hwithin : n + 1 ≤ budget.toNat := by omega
  rw [← (agree_within hc hwithin).1] at hexecute
  obtain ⟨m, -, hends⟩ := execute_eq_some_iff.mp hexecute
  -- both numbers are the step count of `d`
  have hsteps := steps_after n c d h.after_eq
  obtain rfl : m = n := Nat.add_left_cancel ((steps_after m c d hends.after_eq).symm.trans hsteps)
  exact hends

/-- A run has a state for every instruction that it does. -/
theorem length_trace_of_after {s : Setup} {n : Nat} {c d : Config} (h : after s n c = some d) :
    (trace s n c).length = n := by
  have hexecute := execute_eq_none_iff.mpr h
  have hlast := steps_after _ c _ (after_length_trace s n c).2
  have hsteps := steps_after n c d h
  simp only [hexecute] at hlast
  omega

/-- Behind its end a run has no further states. -/
theorem trace_of_endsAfter {s : Setup} {d : Config} {e : Ending} :
    ∀ {k n : Nat} {c : Config}, EndsAfter s c k d e → k ≤ n → trace s n c = trace s k c := by
  intro k
  induction k with
  | zero =>
    intro n c h _
    cases n with
    | zero => rfl
    | succ n =>
      have hnone := after_eq_none_of_ending (n := 0)
        (show c.ending? s = some e by rw [Option.some.inj h.after_eq]; exact h.ending_eq)
      rw [after] at hnone
      rw [trace, trace]
      cases hc : c.attempt s with
      | ended d => rfl
      | stuck fault d => rfl
      | advanced d => simp [hc] at hnone
  | succ k ih =>
    intro n c h hn
    obtain ⟨n, rfl⟩ : ∃ n', n = n' + 1 := ⟨n - 1, by omega⟩
    have hafter := h.after_eq
    rw [after] at hafter
    rw [trace, trace]
    cases hc : c.attempt s with
    | ended d => simp [hc] at hafter
    | stuck fault d => simp [hc] at hafter
    | advanced d =>
      simp only [hc] at hafter
      simp only [ih ⟨hafter, h.ending_eq⟩ (Nat.le_of_succ_le_succ hn)]

/-- With a smaller budget there are fewer states, and they are the first ones. -/
theorem trace_prefix {budget larger : Int} (hle : budget ≤ larger) :
    ∀ (n : Nat) (c : Config),
      trace ⟨p, debug, some budget⟩ n c <+: trace ⟨p, debug, some larger⟩ n c := by
  intro n
  induction n with
  | zero => intro c; exact List.prefix_rfl
  | succ n ih =>
    intro c
    rw [trace, trace]
    cases hc : c.attempt ⟨p, debug, some budget⟩ with
    | ended d => exact List.nil_prefix
    | stuck fault d => exact List.nil_prefix
    | advanced d =>
      have hlt := lt_budget_of_advanced rfl hc
      have hlarger : c.attempt ⟨p, debug, some larger⟩ = .advanced d := by
        rw [attempt_of_lt_budget (Int.lt_of_lt_of_le hlt hle), ← attempt_of_lt_budget hlt, hc]
      simp only [hlarger]
      exact (List.prefix_cons_inj _).mpr (ih d)

/-! ## Where a budget ends a run -/

/-- The run from `c` attempts more than `k` instructions: after `k` of them there is another one.
It counts as attempted even if it cannot be done. -/
def AttemptsMoreThan (s : Setup) (c : Config) (k : Nat) : Prop :=
  ∃ d, after s k c = some d ∧ d.pc < s.program.length

variable {budget : Int} {c : Config}

/-- **A run that attempts more than is allowed ends at its budget**, where the run without one is
after as many instructions. -/
theorem AttemptsMoreThan.endsAfter (budget : Int) (hc : c.steps = 0)
    (h : AttemptsMoreThan ⟨p, debug, none⟩ c budget.toNat) :
    ∃ d, after ⟨p, debug, none⟩ budget.toNat c = some d ∧
      EndsAfter ⟨p, debug, some budget⟩ c budget.toNat d (.failed (.exhausted budget)) := by
  obtain ⟨d, hafter, hpc⟩ := h
  refine ⟨d, hafter, ?_, ?_⟩
  · rw [← execute_eq_none_iff, (agree_within hc (Nat.le_refl _)).1, execute_eq_none_iff, hafter]
  · have hsteps := steps_after _ c d hafter
    rw [hc] at hsteps
    rw [ending?, attempt_of_budget_le hpc (by omega)]

/-- **A run that does not attempt more than is allowed is the same with a budget.** -/
theorem agree_of_not_attemptsMoreThan (budget : Int) (hc : c.steps = 0)
    (h : ¬ AttemptsMoreThan ⟨p, debug, none⟩ c budget.toNat) (n : Nat) :
    execute ⟨p, debug, some budget⟩ n c = execute ⟨p, debug, none⟩ n c ∧
      trace ⟨p, debug, some budget⟩ n c = trace ⟨p, debug, none⟩ n c := by
  refine same_of_attempt_eq rfl fun j d _ hd => ?_
  have hsteps := steps_after j c d hd
  rw [hc, Nat.zero_add] at hsteps
  by_cases hlt : (d.steps : Int) < budget
  · exact attempt_of_lt_budget hlt
  · -- the run has come as far as is allowed, so it is at the end of the program
    obtain ⟨d', hd', hrest⟩ := exists_after_of_le (m := budget.toNat) hd (by omega)
    have hend : p.length ≤ d'.pc := Nat.not_lt.mp fun hpc => h ⟨d', hd', hpc⟩
    have hended : EndsAfter ⟨p, debug, none⟩ d' 0 d' .finished :=
      ⟨rfl, by rw [ending?, attempt_of_end hend]⟩
    rw [Nat.le_zero.mp (hended.le_of_after hrest), after_zero, Option.some.injEq] at hrest
    rw [← hrest, attempt_of_end hend, attempt_of_end hend]

/-- A run that ends at its budget attempts more than is allowed. -/
theorem attemptsMoreThan_of_endsAfter (hc : c.steps = 0) {n : Nat} {d : Config} {m : Int}
    (h : EndsAfter ⟨p, debug, some budget⟩ c n d (.failed (.exhausted m))) :
    AttemptsMoreThan ⟨p, debug, none⟩ c budget.toNat := by
  by_contra hno
  have hexecute := execute_eq_some_iff.mpr ⟨n, Nat.lt_succ_self n, h⟩
  rw [(agree_of_not_attemptsMoreThan budget hc hno _).1] at hexecute
  obtain ⟨_, _, hfree⟩ := execute_eq_some_iff.mp hexecute
  exact Option.some_ne_none m (budget_eq_of_exhausted hfree.ending_eq).symm

end Config

/-! ## Executing and stepping within a budget -/

section

variable {p : Program} {debug : Bool} {input : List UInt8} {m : Machine} {budget : Int}

/-- The run of `p` on `m` within `budget` is the run without a budget, cut at the budget. -/
structure BudgetCuts (p : Program) (debug : Bool) (input : List UInt8) (m : Machine)
    (budget : Int) : Prop where
  execute_exhausted_iff :
    (∃ fuel n, (m.execute ⟨p, debug, some budget⟩ input fuel).ending
      = some (.failed (.exhausted n))) ↔
      Config.AttemptsMoreThan ⟨p, debug, none⟩ (.start m.length input) budget.toNat
  take_exhausted_iff :
    (∃ count n, ((Stepper.ofSetup ⟨p, debug, some budget⟩ input).take count m).stop
      = some (.fault (.exhausted n))) ↔
      Config.AttemptsMoreThan ⟨p, debug, none⟩ (.start m.length input) budget.toNat
  /-- An execution that exhausts the budget has done as many instructions as it allows, and leaves
  what the run without a budget has come to after them. -/
  execute_exhausted : ∀ fuel n,
    (m.execute ⟨p, debug, some budget⟩ input fuel).ending = some (.failed (.exhausted n)) →
    n = budget ∧ ∃ c,
      Config.EndsAfter ⟨p, debug, some budget⟩ (.start m.length input) budget.toNat c
        (.failed (.exhausted n)) ∧
      Config.after ⟨p, debug, none⟩ budget.toNat (.start m.length input) = some c ∧
      (m.execute ⟨p, debug, some budget⟩ input fuel).output = c.output ∧
      (m.execute ⟨p, debug, some budget⟩ input fuel).machine = ⟨c.tape, c.pointer, .empty⟩
  /-- A stepper that exhausts the budget has given the state at the start and one for each
  instruction that it allows. They are the first ones of the run without a budget. -/
  take_exhausted : ∀ count n,
    ((Stepper.ofSetup ⟨p, debug, some budget⟩ input).take count m).stop
      = some (.fault (.exhausted n)) →
    n = budget ∧
    ((Stepper.ofSetup ⟨p, debug, some budget⟩ input).take count m).states.size
      = budget.toNat + 1 ∧
    ((Stepper.ofSetup ⟨p, debug, some budget⟩ input).take count m).states
      = ((Stepper.ofSetup ⟨p, debug, none⟩ input).take (budget.toNat + 1) m).states ∧
    ((Stepper.ofSetup ⟨p, debug, some budget⟩ input).take count m).machine
      = ((Stepper.ofSetup ⟨p, debug, none⟩ input).take (budget.toNat + 1) m).machine
  execute_same :
    ¬ Config.AttemptsMoreThan ⟨p, debug, none⟩ (.start m.length input) budget.toNat →
    ∀ fuel, m.execute ⟨p, debug, some budget⟩ input fuel
      = m.execute ⟨p, debug, none⟩ input fuel
  take_same :
    ¬ Config.AttemptsMoreThan ⟨p, debug, none⟩ (.start m.length input) budget.toNat →
    ∀ count,
      ((Stepper.ofSetup ⟨p, debug, some budget⟩ input).take count m).states
        = ((Stepper.ofSetup ⟨p, debug, none⟩ input).take count m).states ∧
      ((Stepper.ofSetup ⟨p, debug, some budget⟩ input).take count m).stop
        = ((Stepper.ofSetup ⟨p, debug, none⟩ input).take count m).stop ∧
      ((Stepper.ofSetup ⟨p, debug, some budget⟩ input).take count m).machine
        = ((Stepper.ofSetup ⟨p, debug, none⟩ input).take count m).machine
  states_prefix : ∀ larger, budget ≤ larger → ∀ count,
    ((Stepper.ofSetup ⟨p, debug, some budget⟩ input).take count m).states.toList
      <+: ((Stepper.ofSetup ⟨p, debug, some larger⟩ input).take count m).states.toList
  /-- A run that needs as many instructions as are allowed comes to its end. -/
  finished : ∀ n c, Config.EndsAfter ⟨p, debug, none⟩ (.start m.length input) n c .finished →
    n = budget →
    (∃ fuel, (m.execute ⟨p, debug, some budget⟩ input fuel).ending = some .finished) ∧
      ∃ count, ((Stepper.ofSetup ⟨p, debug, some budget⟩ input).take count m).stop = some .over

theorem Machine.execute_exhausted {fuel : Nat} {n : Int}
    (h : (m.execute ⟨p, debug, some budget⟩ input fuel).ending = some (.failed (.exhausted n))) :
    n = budget ∧ ∃ c,
      Config.EndsAfter ⟨p, debug, some budget⟩ (.start m.length input) budget.toNat c
        (.failed (.exhausted n)) ∧
      Config.after ⟨p, debug, none⟩ budget.toNat (.start m.length input) = some c ∧
      (Config.start m.length input).execute ⟨p, debug, some budget⟩ fuel
        = (c, some (.failed (.exhausted n))) ∧ budget.toNat ≤ fuel := by
  obtain ⟨k, hk, hends⟩ := Config.execute_eq_some_iff.mp
    (show (Config.start m.length input).execute ⟨p, debug, some budget⟩ fuel = (_, some _) by
      rw [← h, Machine.execute_ending])
  obtain ⟨d, hafter, hends'⟩ := (Config.attemptsMoreThan_of_endsAfter rfl hends).endsAfter budget rfl
  obtain ⟨rfl, hd, he⟩ := hends.unique hends'
  cases he
  exact ⟨rfl, d, hends', hafter, Prod.ext hd h, Nat.le_of_lt hk⟩

/-- A stepper ends at its budget where an execution does. -/
theorem Stepper.exists_execute_exhausted {count : Nat} {n : Int}
    (h : ((ofSetup ⟨p, debug, some budget⟩ input).take count m).stop
      = some (.fault (.exhausted n))) :
    ∃ fuel, count = fuel + 1 ∧
      (m.execute ⟨p, debug, some budget⟩ input fuel).ending = some (.failed (.exhausted n)) := by
  obtain ⟨fuel, ending, hcount, hending, hstop⟩ := take_stop_eq_some_iff.mp h
  obtain rfl : ending = .failed (.exhausted n) := Ending.event_injective hstop.symm
  exact ⟨fuel, hcount, hending⟩

theorem Stepper.take_exhausted {count : Nat} {n : Int}
    (h : ((ofSetup ⟨p, debug, some budget⟩ input).take count m).stop
      = some (.fault (.exhausted n))) :
    ((ofSetup ⟨p, debug, some budget⟩ input).take count m).states.size = budget.toNat + 1 ∧
    ((ofSetup ⟨p, debug, some budget⟩ input).take count m).states
      = ((ofSetup ⟨p, debug, none⟩ input).take (budget.toNat + 1) m).states ∧
    ((ofSetup ⟨p, debug, some budget⟩ input).take count m).machine
      = ((ofSetup ⟨p, debug, none⟩ input).take (budget.toNat + 1) m).machine := by
  obtain ⟨fuel, rfl, hending⟩ := exists_execute_exhausted h
  obtain ⟨-, c, hends, hafter, hexecute, hfuel⟩ := Machine.execute_exhausted hending
  have htrace := (Config.trace_of_endsAfter hends hfuel).trans
    (Config.agree_within (n := budget.toNat) rfl (Nat.le_refl _)).2
  have hfree := Config.execute_eq_none_iff.mpr hafter
  have hlength := Config.length_trace_of_after hafter
  rw [take_succ, take_succ]
  simp only [rest_machine, Config.states, htrace, hexecute, hfree, and_self, and_true]
  simp [hlength]

/-- What a stepper gives depends on the budget through the run only. -/
theorem Stepper.take_congr {budget budget' : Option Int} {count : Nat}
    (h : (Config.start m.length input).execute ⟨p, debug, budget⟩ count
        = (Config.start m.length input).execute ⟨p, debug, budget'⟩ count ∧
      (Config.start m.length input).trace ⟨p, debug, budget⟩ count
        = (Config.start m.length input).trace ⟨p, debug, budget'⟩ count) :
    ((ofSetup ⟨p, debug, budget⟩ input).take (count + 1) m).states
        = ((ofSetup ⟨p, debug, budget'⟩ input).take (count + 1) m).states ∧
      ((ofSetup ⟨p, debug, budget⟩ input).take (count + 1) m).stop
        = ((ofSetup ⟨p, debug, budget'⟩ input).take (count + 1) m).stop ∧
      ((ofSetup ⟨p, debug, budget⟩ input).take (count + 1) m).machine
        = ((ofSetup ⟨p, debug, budget'⟩ input).take (count + 1) m).machine := by
  rw [take_succ, take_succ]
  simp only [Config.states, h.1, h.2, rest_machine, and_self]

/-- **A budget cuts a run and changes nothing else.** A balanced source is prepared. With a budget
its run is exhausted if and only if the run without one attempts more instructions than are allowed,
none if the budget is negative. Then it has done just as many and is where the run without a budget
is after them, else it is that run. -/
theorem budget_cuts_run (source input : List UInt8) (debug : Bool) (m : Machine) (budget : Int)
    (h : Balanced source) :
    ∃ p, Program.prepare source = .ok p ∧ BudgetCuts p debug input m budget := by
  obtain ⟨p, hp⟩ := Program.exists_prepare_of_balanced h
  have hexhausted : (∃ fuel n, (m.execute ⟨p, debug, some budget⟩ input fuel).ending
      = some (.failed (.exhausted n))) ↔
      Config.AttemptsMoreThan ⟨p, debug, none⟩ (.start m.length input) budget.toNat := by
    constructor
    · rintro ⟨fuel, n, hending⟩
      obtain ⟨k, hends⟩ := Config.exists_endsAfter_of_execute
        (s := ⟨p, debug, some budget⟩) (c := .start m.length input) hending
      exact Config.attemptsMoreThan_of_endsAfter rfl hends
    · intro hmore
      obtain ⟨d, -, hends⟩ := hmore.endsAfter budget rfl
      refine ⟨budget.toNat + 1, budget, ?_⟩
      rw [Machine.execute_ending,
        Config.execute_eq_some_iff.mpr ⟨_, Nat.lt_succ_self _, hends⟩]
  refine ⟨p, hp, hexhausted, ?_, ?_, ?_, ?_, ?_, ?_, ?_⟩
  · rw [← hexhausted]
    constructor
    · rintro ⟨count, n, hstop⟩
      obtain ⟨fuel, -, hending⟩ := Stepper.exists_execute_exhausted hstop
      exact ⟨fuel, n, hending⟩
    · rintro ⟨fuel, n, hending⟩
      exact ⟨fuel + 1, n, Stepper.take_stop_eq_some_iff.mpr ⟨fuel, _, rfl, hending, rfl⟩⟩
  · intro fuel n hending
    obtain ⟨hn, c, hends, hafter, hexecute, -⟩ := Machine.execute_exhausted hending
    refine ⟨hn, c, hends, hafter, ?_, ?_⟩ <;> rw [Machine.execute, hexecute]
  · intro count n hstop
    obtain ⟨fuel, -, hending⟩ := Stepper.exists_execute_exhausted hstop
    exact ⟨(Machine.execute_exhausted hending).1, Stepper.take_exhausted hstop⟩
  · intro hno fuel
    rw [Machine.execute, Machine.execute,
      (Config.agree_of_not_attemptsMoreThan budget rfl hno fuel).1]
  · intro hno count
    cases count with
    | zero => exact ⟨rfl, rfl, rfl⟩
    | succ count =>
      exact Stepper.take_congr (Config.agree_of_not_attemptsMoreThan budget rfl hno _)
  · intro larger hle count
    cases count with
    | zero => exact List.prefix_rfl
    | succ count =>
      rw [Stepper.take_succ, Stepper.take_succ]
      simp only [Config.states, Array.toList_append, List.cons_append, List.nil_append]
      exact (List.prefix_cons_inj _).mpr (Config.trace_prefix hle count _)
  · intro n c hends hn
    -- the end of the program is reached within the budget, so nothing more is attempted
    have hno : ¬ Config.AttemptsMoreThan ⟨p, debug, none⟩ (.start m.length input)
        budget.toNat := by
      rintro ⟨d, hd, hpc⟩
      obtain rfl : n = budget.toNat := by omega
      obtain rfl : c = d := Option.some.inj (hends.after_eq.symm.trans hd)
      exact absurd (Config.ending?_eq_finished_iff.mp hends.ending_eq) (Nat.not_le.mpr hpc)
    have hsame := Config.agree_of_not_attemptsMoreThan budget rfl hno (n + 1)
    have hfinished : (m.execute ⟨p, debug, some budget⟩ input (n + 1)).ending
        = some .finished := by
      rw [Machine.execute_ending, hsame.1,
        Config.execute_eq_some_iff.mpr ⟨n, Nat.lt_succ_self n, hends⟩]
    exact ⟨⟨n + 1, hfinished⟩, n + 2,
      Stepper.take_stop_eq_some_iff.mpr ⟨n + 1, _, rfl, hfinished, rfl⟩⟩

/-- With a budget of 4 the run of `+[.-]` is cut in the loop. -/
theorem budget_cuts_run_in_loop :
    Balanced [0x2B, 0x5B, 0x2E, 0x2D, 0x5D] ∧
      ∃ p, Program.prepare [0x2B, 0x5B, 0x2E, 0x2D, 0x5D] = .ok p ∧
        BudgetCuts p false [] (.blank 1) 4 := by
  have h : Balanced [0x2B, 0x5B, 0x2E, 0x2D, 0x5D] :=
    Block.balanced_iff_exists_code.mpr
      ⟨.byte 0x2B rfl (.loop (.byte 0x2E rfl (.byte 0x2D rfl .nil)) .nil), rfl⟩
  exact ⟨h, budget_cuts_run _ [] false (.blank 1) 4 h⟩

end

end TapeMachine
