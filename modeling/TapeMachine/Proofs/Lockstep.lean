import Mathlib.Data.List.Forall2
import TapeMachine.Proofs.Stepping

/-!
# Runs in step

Two runs are compared attempt by attempt: as long as related configurations come to the same and stay
related (`Attempt.Alike`), the runs end alike, and what they show is related too (`in_step`). The
relation may leave out whatever the runs differ in.

Only one instruction reads, and two write. What the others do does not depend on the input and the
output and leaves them as they are (`perform_mapStreams`).
-/

namespace TapeMachine

/-- Two attempts come to the same. If they advance their runs, they lead to related configurations. -/
inductive Attempt.Alike (R : Config → Config → Prop) : Attempt → Attempt → Prop where
  | ended {c c' : Config} : Alike R (.ended c) (.ended c')
  | advanced {c c' : Config} (h : R c c') : Alike R (.advanced c) (.advanced c')
  | stuck {fault : Fault} {c c' : Config} : Alike R (.stuck fault c) (.stuck fault c')

theorem Attempt.Alike.imp {R R' : Config → Config → Prop} {a a' : Attempt} (h : Alike R a a')
    (himp : ∀ c c', a = .advanced c → a' = .advanced c' → R c c' → R' c c') : Alike R' a a' := by
  cases h with
  | ended => exact .ended
  | advanced h => exact .advanced (himp _ _ rfl rfl h)
  | stuck => exact .stuck

theorem Attempt.Alike.refl (a : Attempt) : Alike Eq a a := by
  cases a with
  | ended => exact .ended
  | advanced => exact .advanced rfl
  | stuck => exact .stuck

/-- Two snapshots show related configurations, after the same instruction. -/
def Snapshot.Alike (p p' : Program) (R : Config → Config → Prop) (a a' : Snapshot) : Prop :=
  ∃ command c c', R c c' ∧ a = .ofConfig p command c ∧ a' = .ofConfig p' command c'

namespace Config

/-! ## Two runs -/

section

variable {s s' : Setup} {R : Config → Config → Prop} {c c' : Config} {n : Nat}

/-- The runs from `c` and `c'` go in step for `n` attempts: from related configurations on their way
they attempt the same instruction, and it comes to the same. -/
def InStep (s s' : Setup) (R : Config → Config → Prop) (n : Nat) (c c' : Config) : Prop :=
  ∀ j d d', j < n → after s j c = some d → after s' j c' = some d' → R d d' →
    s.program.fetch d.pc = s'.program.fetch d'.pc ∧ (d.attempt s).Alike R (d'.attempt s')

theorem InStep.tail {d d' : Config} (h : InStep s s' R (n + 1) c c')
    (hd : c.attempt s = .advanced d) (hd' : c'.attempt s' = .advanced d') :
    InStep s s' R n d d' := by
  intro j e e' hj he he'
  refine h (j + 1) e e' (Nat.succ_lt_succ hj) ?_ ?_
  · rw [after_succ_of_advanced hd, he]
  · rw [after_succ_of_advanced hd', he']

/-- A run that goes on no further is left as it is. -/
theorem eq_of_attempt_eq {d : Config}
    (h : c.attempt s = .ended d ∨ ∃ fault, c.attempt s = .stuck fault d) : d = c := by
  rcases attempt_stays s c with ⟨c', hc, -⟩ | hc | ⟨fault, hc⟩ <;> simp_all

/-- **Runs that go in step end alike and show the same.** -/
theorem in_step (hR : R c c') (h : InStep s s' R n c c') :
    (execute s n c).2 = (execute s' n c').2 ∧ R (execute s n c).1 (execute s' n c').1 ∧
      List.Forall₂ (Snapshot.Alike s.program s'.program R) (trace s n c) (trace s' n c') := by
  induction n generalizing c c' with
  | zero => exact ⟨rfl, hR, .nil⟩
  | succ n ih =>
    obtain ⟨hfetch, halike⟩ := h 0 c c' (Nat.succ_pos n) rfl rfl hR
    rw [execute, execute, trace, trace]
    generalize hc : c.attempt s = a at halike
    generalize hc' : c'.attempt s' = a' at halike
    -- what the attempts come to is the same, so both runs go on or neither does
    cases halike with
    | ended =>
      rw [eq_of_attempt_eq (.inl hc), eq_of_attempt_eq (.inl hc')]
      exact ⟨rfl, hR, .nil⟩
    | stuck =>
      rw [eq_of_attempt_eq (.inr ⟨_, hc⟩), eq_of_attempt_eq (.inr ⟨_, hc'⟩)]
      exact ⟨rfl, hR, .nil⟩
    | advanced hR =>
      obtain ⟨hending, hlast, htrace⟩ := ih hR (h.tail hc hc')
      exact ⟨hending, hlast, .cons ⟨_, _, _, hR, rfl, by rw [hfetch]⟩ htrace⟩

/-- **Runs that make the same attempts are the same.** -/
theorem same_of_attempt_eq (hprogram : s.program = s'.program)
    (h : ∀ j d, j < n → after s' j c = some d → d.attempt s = d.attempt s') :
    execute s n c = execute s' n c ∧ trace s n c = trace s' n c := by
  have hstep : InStep s s' Eq n c c := by
    rintro j d _ hj _ hd rfl
    exact ⟨by rw [hprogram], by rw [h j d hj hd]; exact .refl _⟩
  obtain ⟨hending, hlast, htrace⟩ := in_step rfl hstep
  refine ⟨Prod.ext hlast hending, ?_⟩
  rw [← List.forall₂_eq_eq_eq]
  refine htrace.imp ?_
  rintro _ _ ⟨command, d, _, rfl, rfl, rfl⟩
  rw [hprogram]

/-- Runs that go in step have related snapshots at each place, the start included. -/
theorem states_in_step (hR : R c c') (h : InStep s s' R n c c') :
    (states s n c).size = (states s' n c').size ∧
      ∀ (k : Nat) (a a' : Snapshot), (states s n c)[k]? = some a → (states s' n c')[k]? = some a' →
        a.Alike s.program s'.program R a' := by
  obtain ⟨-, -, htrace⟩ := in_step hR h
  have hstates : List.Forall₂ (Snapshot.Alike s.program s'.program R) (states s n c).toList
      (states s' n c').toList := by
    simpa [states] using ⟨⟨none, c, c', hR, rfl, rfl⟩, htrace⟩
  obtain ⟨hlength, hget⟩ := List.forall₂_iff_get.mp hstates
  refine ⟨hlength, fun k a a' ha ha' => ?_⟩
  obtain ⟨hk, rfl⟩ := Array.getElem?_eq_some_iff.mp ha
  obtain ⟨hk', rfl⟩ := Array.getElem?_eq_some_iff.mp ha'
  exact hget k hk hk'

/-- Whether there is an instruction, and whether the budget allows it, is the same for both. -/
theorem attempt_alike {p : Program} {debug debug' : Bool} {budget : Option Int}
    (hpc : c.pc = c'.pc) (hsteps : c.steps = c'.steps)
    (h : c.pc < p.length → exhausted budget c.steps = none →
      (c.perform ⟨p, debug, budget⟩).Alike R (c'.perform ⟨p, debug', budget⟩)) :
    (c.attempt ⟨p, debug, budget⟩).Alike R (c'.attempt ⟨p, debug', budget⟩) := by
  simp only [attempt, ← hpc, ← hsteps]
  by_cases hend : p.length ≤ c.pc
  · simp only [if_pos hend]
    exact .ended
  · simp only [if_neg hend]
    cases hbudget : exhausted budget c.steps with
    | some n => exact .stuck
    | none => exact h (Nat.lt_of_not_le hend) hbudget

end

end Config

/-! ## Steppers in step -/

/-- **Steppers whose runs go in step** stop alike after as many states, and the states and what is left
on their machines are related. -/
theorem Stepper.take_in_step {s s' : Setup} {R : Config → Config → Prop} {input input' : List UInt8}
    {m m' : Machine} {count : Nat} (hR : R (.start m.length input) (.start m'.length input'))
    (h : Config.InStep s s' R count (.start m.length input) (.start m'.length input')) :
    ((ofSetup s input).take (count + 1) m).states.size
        = ((ofSetup s' input').take (count + 1) m').states.size ∧
      ((ofSetup s input).take (count + 1) m).stop
        = ((ofSetup s' input').take (count + 1) m').stop ∧
      (∀ (k : Nat) (a a' : Snapshot), ((ofSetup s input).take (count + 1) m).states[k]? = some a →
        ((ofSetup s' input').take (count + 1) m').states[k]? = some a' →
        a.Alike s.program s'.program R a') ∧
      ∃ c c', R c c' ∧
        ((ofSetup s input).take (count + 1) m).machine = ⟨c.tape, c.pointer, c.output⟩ ∧
        ((ofSetup s' input').take (count + 1) m').machine = ⟨c'.tape, c'.pointer, c'.output⟩ := by
  obtain ⟨hsize, hstates⟩ := Config.states_in_step hR h
  obtain ⟨hending, hlast, -⟩ := Config.in_step hR h
  rw [take_succ, take_succ]
  exact ⟨hsize, congrArg (Option.map Ending.event) hending, hstates, _, _, hlast,
    rest_machine _ _ _, rest_machine _ _ _⟩

/-! ## Other inputs and outputs -/

/-- The attempt, with `f` applied to its configuration. -/
def Attempt.map (f : Config → Config) : Attempt → Attempt
  | .ended c => .ended (f c)
  | .advanced c => .advanced (f c)
  | .stuck fault c => .stuck fault (f c)

namespace Config

/-- The configuration with another input and another output. -/
def mapStreams (i : List UInt8 → List UInt8) (o : Output → Output) (c : Config) : Config :=
  { c with input := i c.input, output := o c.output }

/-- **What is not read does not matter, nor does what has been written before.** A change of the input
and the output goes through an instruction, unless it reads the input that is changed or writes to the
output that is changed. -/
theorem perform_mapStreams {p : Program} {debug debug' : Bool} {budget : Option Int} {c : Config}
    (i : List UInt8 → List UInt8) (o : Output → Output)
    (hinput : p.fetch c.pc = .input → i = id) (houtput : p.fetch c.pc = .output → o = id)
    (hdiagnostic : p.fetch c.pc = .diagnostic → o = id ∧ debug' = debug) :
    (c.mapStreams i o).perform ⟨p, debug', budget⟩
      = (c.perform ⟨p, debug, budget⟩).map (mapStreams i o) := by
  obtain ⟨pc, steps, tape, pointer, input, output⟩ := c
  have hupdate : ∀ f, update ⟨pc, steps, tape, pointer, i input, o output⟩ f
      = (update ⟨pc, steps, tape, pointer, input, output⟩ f).map (mapStreams i o) := by
    intro f
    simp only [update]
    split <;> rfl
  -- with the fields apart the same conditions stand on both sides
  show perform _ ⟨pc, steps, tape, pointer, i input, o output⟩ = _
  unfold perform
  dsimp only at hinput houtput hdiagnostic ⊢
  cases hfetch : p.fetch pc with
  | increment => exact hupdate _
  | decrement => exact hupdate _
  | moveRight => dsimp only; split <;> rfl
  | moveLeft => dsimp only; split <;> rfl
  | loopOpen => dsimp only; split <;> rfl
  | loopClose => rfl
  | output =>
    obtain rfl := houtput hfetch
    dsimp only
    split <;> rfl
  | input =>
    obtain rfl := hinput hfetch
    cases input with
    | nil => rfl
    | cons b rest => dsimp only [id]; split <;> rfl
  | diagnostic =>
    obtain ⟨rfl, rfl⟩ := hdiagnostic hfetch
    dsimp only
    split <;> rfl
  | inert => rfl

/-- Where nothing is read the input may be another one, and stays as it is. -/
theorem perform_of_not_reading {s : Setup} {c : Config} (h : s.program.fetch c.pc ≠ .input)
    (input : List UInt8) :
    perform s { c with input } = (perform s c).map fun d => { d with input } :=
  perform_mapStreams (fun _ => input) id (absurd · h) (fun _ => rfl) fun _ => ⟨rfl, rfl⟩

/-- Where nothing is written the output may be another one, and stays as it is. -/
theorem perform_of_not_writing {p : Program} {debug debug' : Bool} {budget : Option Int}
    {c : Config} (houtput : p.fetch c.pc ≠ .output) (hdiagnostic : p.fetch c.pc ≠ .diagnostic)
    (output : Output) :
    perform ⟨p, debug', budget⟩ { c with output }
      = (perform ⟨p, debug, budget⟩ c).map fun d => { d with output } :=
  perform_mapStreams id (fun _ => output) (fun _ => rfl) (absurd · houtput) (absurd · hdiagnostic)

end Config

end TapeMachine
