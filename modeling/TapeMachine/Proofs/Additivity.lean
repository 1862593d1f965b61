import TapeMachine.Proofs.Consistency

/-!
# Stepping is additive

Asking a debugger for `a` instructions and then for `b` more is asking it for `a + b` at once. A call
looks for its end before it attempts an instruction, so the first call leaves open what the next
instruction comes to: the last one of the program, one that moves off the tape, or one too many. The
second call finds out, as the single call does.

The loop of a call is followed in `Debugger.ComesTo`, which comes to one result at most
(`ComesTo.unique`), and to that of two loops one after the other (`ComesTo.trans`).
-/

namespace TapeMachine

namespace Debugger

/-! ## Loops one after the other -/

section

variable {stop : Stop} {breakpoints : List Nat} {executed : Nat} {m : Machine} {g : Stepper}
  {state : Snapshot} {P Q : Progress}

/-- **A call comes to one result.** -/
theorem ComesTo.unique (h : ComesTo stop breakpoints executed m g state P)
    (h' : ComesTo stop breakpoints executed m g state Q) : P = Q := by
  induction h with
  | reached hreached => cases h' <;> simp_all
  | finished hreached hnext hfinished => cases h' <;> simp_all
  | entered hreached hnext hfinished henters => cases h' <;> simp_all
  | goesOn hreached hnext hfinished henters hrest ih => cases h' <;> simp_all
  | failed hreached hnext => cases h' <;> simp_all
  | exhausted hreached hnext => cases h' <;> simp_all

end

section

variable {breakpoints : List Nat} {a b executed : Nat} {m : Machine} {g : Stepper}
  {state : Snapshot} {P Q : Progress}

theorem Stop.reached_after (count executed : Nat) :
    (Stop.after count).reached executed = decide (count ≤ executed) := by
  simp [Stop.reached]

/-- A call that asks for more does the same, as long as it has not done enough. -/
theorem Stop.not_reached_of_le {count : Nat} (h : (Stop.after a).reached executed = false)
    (hle : a ≤ count) : (Stop.after count).reached executed = false := by
  rw [reached_after, decide_eq_false_iff_not] at h ⊢
  omega

/-- Instructions that were done before count for both. -/
theorem ComesTo.shift (h : ComesTo (.after b) breakpoints executed m g state P) (a : Nat) :
    ComesTo (.after (a + b : Nat)) breakpoints (a + executed) m g state
      { P with executed := a + P.executed } := by
  have hshift : ∀ n, (Stop.after (a + b : Nat)).reached (a + n) = (Stop.after b).reached n := by
    intro n
    simp only [Stop.reached_after, Nat.add_le_add_iff_left]
  induction h with
  | reached hreached => exact .reached (by rw [hshift, hreached])
  | finished hreached hnext hfinished =>
    exact .finished (by rw [hshift, hreached]) hnext hfinished
  | entered hreached hnext hfinished henters => cases henters
  | goesOn hreached hnext hfinished henters hrest ih =>
    exact .goesOn (by rw [hshift, hreached]) hnext hfinished henters ih
  | failed hreached hnext => exact .failed (by rw [hshift, hreached]) hnext
  | exhausted hreached hnext => exact .exhausted (by rw [hshift, hreached]) hnext

/-- A call that did not halt the debugger has done as many instructions as were asked for. -/
theorem ComesTo.executed_eq (h : ComesTo (.after a) breakpoints executed m g state P)
    (hle : executed ≤ a) (hhalted : P.status.halted = false) : P.executed = a := by
  induction h with
  | reached hreached =>
    rw [Stop.reached_after, decide_eq_true_eq] at hreached
    exact Nat.le_antisymm hle hreached
  | finished => cases hhalted
  | entered hreached hnext hfinished henters => cases henters
  | goesOn hreached hnext hfinished henters hrest ih =>
    rw [Stop.reached_after, decide_eq_false_iff_not] at hreached
    exact ih (by omega) hhalted
  | failed => cases hhalted
  | exhausted => cases hhalted

/-- A call that halts the debugger does so as well when it asks for more. -/
theorem ComesTo.of_halted (h : ComesTo (.after a) breakpoints executed m g state P) (b : Nat)
    (hhalted : P.status.halted = true) :
    ComesTo (.after (a + b : Nat)) breakpoints executed m g state P := by
  have hmore : ∀ {n}, (Stop.after a).reached n = false →
      (Stop.after (a + b : Nat)).reached n = false :=
    fun h => Stop.not_reached_of_le h (Nat.le_add_right a b)
  induction h with
  | reached => cases hhalted
  | finished hreached hnext hfinished => exact .finished (hmore hreached) hnext hfinished
  | entered hreached hnext hfinished henters => cases henters
  | goesOn hreached hnext hfinished henters hrest ih =>
    exact .goesOn (hmore hreached) hnext hfinished henters (ih hhalted)
  | failed hreached hnext => exact .failed (hmore hreached) hnext
  | exhausted hreached hnext => exact .exhausted (hmore hreached) hnext

/-- **A call goes on where a shorter one has stopped.** -/
theorem ComesTo.trans (h : ComesTo (.after a) breakpoints executed m g state P)
    (hhalted : P.status.halted = false)
    (h' : ComesTo (.after (a + b : Nat)) breakpoints P.executed P.machine P.stepper P.state Q) :
    ComesTo (.after (a + b : Nat)) breakpoints executed m g state Q := by
  induction h with
  | reached => exact h'
  | finished => cases hhalted
  | entered hreached hnext hfinished henters => cases henters
  | goesOn hreached hnext hfinished henters hrest ih =>
    exact .goesOn (Stop.not_reached_of_le hreached (Nat.le_add_right a b)) hnext hfinished henters
      (ih hhalted h')
  | failed => cases hhalted
  | exhausted => cases hhalted

end

/-! ## Calls one after the other -/

/-- **Two stepping calls are one**, on whatever debugger a session comes to. -/
theorem Reached.step_add {d : Debugger} (h : d.Reached) (a b : Nat) :
    d.step (a + b : Nat) = ((d.step a).1 + ((d.step a).2.step b).1, ((d.step a).2.step b).2) := by
  unfold step
  cases hhalted : d.halted with
  | true => simp only [advance_of_halted hhalted]
  | false =>
    obtain ⟨P, hP, ha⟩ := h.comesTo hhalted (.after a)
    obtain ⟨R, hR, hab⟩ := h.comesTo hhalted (.after (a + b : Nat))
    have hreached := h.advance (.after a)
    rw [ha] at hreached ⊢
    rw [hab]
    cases hstatus : P.status.halted with
    | true =>
      obtain rfl := hR.unique (hP.of_halted b hstatus)
      rw [advance_of_halted (d := { d with
        machine := R.machine, stepper := R.stepper, state := R.state
        error := R.error, status := R.status }) hstatus]
      rfl
    | false =>
      obtain ⟨Q, hQ, hb⟩ := hreached.comesTo hstatus (.after b)
      have hexecuted := hP.executed_eq (Nat.zero_le a) hstatus
      have hrest := hQ.shift a
      rw [Nat.add_zero] at hrest
      obtain rfl := hR.unique (hP.trans hstatus (by rw [hexecuted]; exact hrest))
      rw [hb, hexecuted]

end Debugger

/-- **Stepping is additive.** Whatever has been called on a debugger, a stepping call may be cut in two:
the counts that are returned add up, and the debugger is the same afterwards, with the machine it runs
on and the rest of its run. This is so wherever the cut is, also behind the end of the run. -/
theorem stepping_is_additive {source input : List UInt8} {debug : Bool} {maxSteps : Int}
    {new : Debugger} (hnew : Debugger.ofSource source input debug maxSteps = .ok new)
    (calls : List Call) (a b : Nat) :
    let d := ((Session.ofDebugger new).run calls).debugger
    let first := d.step a
    let second := first.2.step b
    d.step (a + b : Nat) = (first.1 + second.1, second.2) := by
  exact (Debugger.reached_run hnew calls).step_add a b

/-- The debugger of `>[]<<` has a breakpoint and has not started. It is asked for three instructions, and
then for two, the first of which moves off the tape. -/
theorem stepping_is_additive_off_the_tape :
    ∃ new, Debugger.ofSource [0x3E, 0x5B, 0x5D, 0x3C, 0x3C] [] false 9 = .ok new ∧
      let d := ((Session.ofDebugger new).run [.setBreakpoint 1, .step (-1)]).debugger
      d.step (3 + 2 : Nat) = ((d.step 3).1 + ((d.step 3).2.step 2).1, ((d.step 3).2.step 2).2) := by
  obtain ⟨p, hp⟩ : ∃ p, Program.prepare [0x3E, 0x5B, 0x5D, 0x3C, 0x3C] = .ok p := ⟨_, rfl⟩
  obtain ⟨new, hnew⟩ :
      ∃ new, Debugger.ofSource [0x3E, 0x5B, 0x5D, 0x3C, 0x3C] [] false 9 = .ok new :=
    ⟨_, by rw [Debugger.ofSource, hp]⟩
  exact ⟨new, hnew, stepping_is_additive hnew [.setBreakpoint 1, .step (-1)] 3 2⟩

end TapeMachine
