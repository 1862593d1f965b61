import TapeMachine.Proofs.Sharing

/-!
# Machines used again

Every run blanks the machine it is made on, and what it takes over from it is the number of cells. No
use of a machine changes that number, so a machine that has been used is as good as a new one: also
when steppers of earlier runs still wait on it, since a stepper that is not advanced does nothing.

* `Bench.length_run`: what any sequence of uses keeps
* `Bench.Meets`: two benches on which two steppers have the same to go on with
-/

namespace TapeMachine

/-! ## The number of cells -/

theorem Config.size_after {s : Setup} {k : Nat} {c d : Config} (h : after s k c = some d) :
    d.tape.size = c.tape.size := by
  refine after_induction (P := fun d => d.tape.size = c.tape.size) (fun c' d' hstep hsize => ?_)
    k c d h rfl
  rw [(follows_of_attempt hstep).size_eq, hsize]

/-- Executing a program leaves the machine its cells, also when it is given up on the way. -/
theorem Machine.length_execute (m : Machine) (s : Setup) (input : List UInt8) (fuel : Nat) :
    (m.execute s input fuel).machine.length = m.length := by
  obtain ⟨-, hafter⟩ := Config.after_length_trace s fuel (.start m.length input)
  have hsize := Config.size_after hafter
  rw [show (Config.start m.length input).tape.size = m.length from Array.size_replicate] at hsize
  exact hsize

/-- Advancing a stepper leaves the machine its cells, wherever the stepper waits. -/
theorem Stepper.length_next (g : Stepper) (m : Machine) : (g.next m).2.2.length = m.length := by
  cases hplace : g.place? m with
  | none =>
    rcases next_of_place?_eq_none hplace with ⟨state, h⟩ | h
    · rw [h]
      exact Array.size_replicate
    · rw [h]
  | some c =>
    have hm : m.length = c.tape.size := by rw [(phase_of_place? hplace).2]; rfl
    rw [next_of_place? hplace, hm]
    rcases Config.attempt_stays g.setup c with ⟨d, hd, hfollows⟩ | hended | ⟨fault, hstuck⟩
    · rw [hd]
      exact hfollows.size_eq
    · rw [hended]
      rfl
    · rw [hstuck]
      rfl

namespace Bench

/-- **One use leaves the machine its cells.** -/
theorem length_use (b : Bench) (u : Use) : (b.use u).2.machine.length = b.machine.length := by
  cases u with
  | execute s input fuel => exact b.machine.length_execute s.toSetup input fuel
  | reset => exact Array.size_replicate
  | create s input => rfl
  | advance i =>
    cases hg : b.steppers[i]? with
    | none => simp only [use, hg]
    | some g =>
      simp only [use, hg]
      exact g.length_next b.machine
  | refill i input => rfl

/-- **Any sequence of uses leaves the machine its cells.** -/
theorem length_run (b : Bench) (uses : List Use) :
    (b.run uses).machine.length = b.machine.length := by
  induction uses generalizing b with
  | nil => rfl
  | cons u uses ih => exact (ih (b.use u).2).trans (b.length_use u)

/-! ## Draining a stepper -/

/-- What comes of advancing the `i`-th stepper of a bench. -/
def event? (b : Bench) (i : Nat) : Option Event :=
  b.steppers[i]?.map fun g => (g.next b.machine).1

/-- What comes of advancing the `i`-th stepper `count` times, with no other use in between. -/
def drain (b : Bench) (i : Nat) : Nat → List Event
  | 0 => []
  | count + 1 => (b.event? i).toList ++ (b.use (.advance i)).2.drain i count

/-- The `i`-th stepper of one bench has the same to go on with as the `j`-th one of the other: it is
the same stepper, and advancing it comes to the same on both machines. -/
structure Meets (b : Bench) (i : Nat) (b' : Bench) (j : Nat) : Prop where
  stepper_eq : b.steppers[i]? = b'.steppers[j]?
  next_eq : ∀ g, b.steppers[i]? = some g → g.next b.machine = g.next b'.machine

namespace Meets

variable {b b' : Bench} {i j : Nat}

theorem event?_eq (h : b.Meets i b' j) : b.event? i = b'.event? j := by
  unfold event?
  rw [← h.stepper_eq]
  cases hg : b.steppers[i]? with
  | none => rfl
  | some g => rw [Option.map_some, Option.map_some, h.next_eq g hg]

/-- Advancing both steppers, they go on alike. -/
theorem advance (h : b.Meets i b' j) :
    (b.use (.advance i)).2.Meets i (b'.use (.advance j)).2 j := by
  have hstepper := h.stepper_eq
  cases hg : b.steppers[i]? with
  | none =>
    rw [hg] at hstepper
    simpa only [use, hg, ← hstepper] using h
  | some g =>
    have hnext := h.next_eq g hg
    rw [hg] at hstepper
    obtain ⟨hi, -⟩ := List.getElem?_eq_some_iff.mp hg
    obtain ⟨hj, -⟩ := List.getElem?_eq_some_iff.mp hstepper.symm
    simp only [use, hg, ← hstepper, hnext]
    -- the machines are the same from here on
    refine ⟨?_, fun _ _ => rfl⟩
    rw [List.getElem?_set_self hi, List.getElem?_set_self hj]

/-- **Draining both steppers comes to the same.** -/
theorem drain_eq (h : b.Meets i b' j) (count : Nat) : b.drain i count = b'.drain j count := by
  induction count generalizing b b' with
  | zero => rfl
  | succ count ih => rw [drain, drain, h.event?_eq, ih h.advance]

end Meets

/-- A new stepper starts alike on machines with the same number of cells. -/
theorem meets_create {b b' : Bench} (h : b.machine.length = b'.machine.length) (s : ReadySetup)
    (input : List UInt8) :
    (b.use (.create s input)).2.Meets b.steppers.length (b'.use (.create s input)).2
      b'.steppers.length := by
  refine ⟨by simp [use], fun g hg => ?_⟩
  obtain rfl : Stepper.ofSetup s.toSetup input = g := by simpa [use] using hg
  show (Stepper.ofSetup s.toSetup input).next b.machine
    = (Stepper.ofSetup s.toSetup input).next b'.machine
  simp only [Stepper.next, Stepper.ofSetup, Stepper.begin, h]

end Bench

/-- **A machine that is used again carries nothing over.** Whatever was done on it, executing a program
ends as on a new machine of its length, if it ends, with the same output, tape and pointer. A stepper
that is made for it now gives, when it is drained, what it gives on the new one. -/
theorem reused_machine_carries_nothing_over (n : Nat) (history : List Bench.Use) (s : ReadySetup)
    (input : List UInt8) :
    let used := (Bench.ofLength n).run history
    let new := Bench.ofLength n
    (∀ fuel, used.machine.execute s.toSetup input fuel
      = new.machine.execute s.toSetup input fuel) ∧
    ∀ count, (used.use (.create s input)).2.drain used.steppers.length count
      = (new.use (.create s input)).2.drain new.steppers.length count := by
  intro used new
  have hlength : used.machine.length = new.machine.length := new.length_run history
  refine ⟨fun fuel => ?_, fun count => (Bench.meets_create hlength s input).drain_eq count⟩
  unfold Machine.execute
  rw [hlength]

end TapeMachine
