import TapeMachine.Machine.Stepper
import TapeMachine.Proofs.Run

/-!
# Stepping and executing

A stepper waits between two instructions, while `Machine.execute` runs on. Both go through the same
configurations: `takeAfter_suspend` says what a stepper gives from where it waits in terms of what
`Config.execute` gives from there.
-/

namespace TapeMachine

namespace Ending

/-- What a stepper gives where a run ends. -/
def event : Ending → Event
  | finished => .over
  | failed fault => .fault fault

/-- The fault at which a run has ended. -/
def fault? : Ending → Option Fault
  | finished => none
  | failed fault => some fault

theorem fault?_eq_some_iff {e : Ending} {f : Fault} : e.fault? = some f ↔ e = failed f := by
  cases e <;> simp [fault?]

theorem event_injective {e e' : Ending} (h : e.event = e'.event) : e = e' := by
  cases e <;> cases e' <;> simp_all [event]

end Ending

/-! ## Snapshots of a run -/

namespace Config

/-- The snapshot after `n` instructions, if the run gets that far. -/
def snapshotAfter (s : Setup) (c : Config) : Nat → Option Snapshot
  | 0 => some (.ofConfig s.program none c)
  | n + 1 => do
    let before ← after s n c
    let next ← after s 1 before
    return .ofConfig s.program (some (s.program.fetch before.pc)) next

/-- The snapshots after each of the next `n` instructions, as far as the run gets. -/
def trace (s : Setup) : Nat → Config → List Snapshot
  | 0, _ => []
  | n + 1, c =>
    match c.attempt s with
    | .advanced next =>
      .ofConfig s.program (some (s.program.fetch c.pc)) next :: trace s n next
    | _ => []

theorem after_one_of_advanced {s : Setup} {c next : Config} (h : c.attempt s = .advanced next) :
    after s 1 c = some next := after_succ_of_advanced h 0

theorem exists_advanced_of_after_one {s : Setup} {c next : Config} (h : after s 1 c = some next) :
    c.attempt s = .advanced next := by
  rw [after] at h
  split at h
  · next d hd =>
    rw [after_zero, Option.some.injEq] at h
    rw [hd, h]
  · exact absurd h (Option.some_ne_none next).symm

theorem snapshotAfter_of_after {s : Setup} {c before next : Config} {n : Nat}
    (hb : after s n c = some before) (hn : after s 1 before = some next) :
    snapshotAfter s c (n + 1)
      = some (.ofConfig s.program (some (s.program.fetch before.pc)) next) := by
  rw [snapshotAfter, hb, Option.bind_eq_bind, Option.bind_some, hn]
  rfl

/-- The snapshot after `n` instructions shows the configuration after `n` instructions. -/
theorem exists_snapshotAfter {s : Setup} {c d : Config} {n : Nat} (h : after s n c = some d) :
    ∃ command, snapshotAfter s c n = some (.ofConfig s.program command d) := by
  cases n with
  | zero =>
    rw [after_zero, Option.some.injEq] at h
    exact ⟨none, by rw [snapshotAfter, h]⟩
  | succ n =>
    rw [after_add] at h
    obtain ⟨before, hb, hd⟩ := Option.bind_eq_some_iff.mp h
    exact ⟨_, snapshotAfter_of_after hb hd⟩

theorem snapshotAfter_eq_none {s : Setup} {c : Config} {n : Nat} (h : after s n c = none) :
    snapshotAfter s c n = none := by
  cases n with
  | zero => exact absurd h (Option.some_ne_none c)
  | succ n =>
    rw [after_add] at h
    rw [snapshotAfter]
    cases hb : after s n c with
    | none => rfl
    | some before =>
      rw [hb, Option.bind_some] at h
      rw [Option.bind_eq_bind, Option.bind_some, h]
      rfl

/-- The trace lists the snapshots of the run. -/
theorem trace_getElem? (s : Setup) : ∀ (n : Nat) (c : Config) (k : Nat), k < n →
    (trace s n c)[k]? = snapshotAfter s c (k + 1) := by
  intro n
  induction n with
  | zero => intro c k hk; exact absurd hk (Nat.not_lt_zero k)
  | succ n ih =>
    intro c k hk
    rw [trace]
    rcases attempt_stays s c with ⟨next, hnext, -⟩ | hc | ⟨fault, hc⟩
    · simp only [hnext]
      have hone := after_one_of_advanced hnext
      cases k with
      | zero => rw [List.getElem?_cons_zero, snapshotAfter_of_after (after_zero s c) hone]
      | succ k =>
        rw [List.getElem?_cons_succ, ih next k (by omega), snapshotAfter, snapshotAfter,
          after_succ_of_advanced hnext]
    all_goals
      simp only [hc, List.getElem?_nil]
      refine (snapshotAfter_eq_none ?_).symm
      rw [after, hc]

/-- The trace has a snapshot for every instruction done. -/
theorem after_length_trace (s : Setup) : ∀ (n : Nat) (c : Config),
    (trace s n c).length ≤ n ∧
      after s (trace s n c).length c = some (execute s n c).1 := by
  intro n
  induction n with
  | zero => intro c; exact ⟨Nat.le_refl 0, rfl⟩
  | succ n ih =>
    intro c
    rw [trace, execute]
    rcases attempt_stays s c with ⟨next, hnext, -⟩ | hc | ⟨fault, hc⟩
    · simp only [hnext, List.length_cons, after_succ_of_advanced hnext]
      exact ⟨Nat.succ_le_succ (ih next).1, (ih next).2⟩
    · simp only [hc]
      exact ⟨Nat.zero_le _, rfl⟩
    · simp only [hc]
      exact ⟨Nat.zero_le _, rfl⟩

/-- The snapshot at the start, and those of the next `n` instructions. -/
def states (s : Setup) (n : Nat) (c : Config) : Array Snapshot :=
  #[.ofConfig s.program none c] ++ (trace s n c).toArray

theorem states_getElem? {s : Setup} {n k : Nat} (c : Config) (hk : k ≤ n) :
    (states s n c)[k]? = snapshotAfter s c k := by
  unfold states
  cases k with
  | zero =>
    rw [Array.getElem?_append_left (by simp)]
    rfl
  | succ k =>
    rw [Array.getElem?_append_right (by simp), ← trace_getElem? s n c k hk]
    simp

@[simp] theorem size_states (s : Setup) (n : Nat) (c : Config) :
    (states s n c).size = (trace s n c).length + 1 := by
  simp [states, Nat.add_comm]

/-- The last snapshot shows where `execute` has come to. -/
theorem states_back? (s : Setup) (n : Nat) (c : Config) :
    ∃ command, (states s n c).back?
      = some (.ofConfig s.program command (execute s n c).1) := by
  obtain ⟨hle, hafter⟩ := after_length_trace s n c
  obtain ⟨command, hsnapshot⟩ := exists_snapshotAfter hafter
  refine ⟨command, ?_⟩
  rw [Array.back?_eq_getElem?, size_states, Nat.add_sub_cancel, states_getElem? c hle, hsnapshot]

end Config

/-! ## A stepper on its machine -/

namespace Stepper

/-- A stepper that has come as far as `c`, and its machine. It is over if the run ended there. -/
def rest (g : Stepper) (c : Config) : Option Ending → Stepper × Machine
  | none => g.suspend c
  | some _ => g.finish c

theorem next_suspend (g : Stepper) (c : Config) :
    (g.suspend c).1.next (g.suspend c).2
      = match c.attempt g.setup with
        | .ended d => (.over, g.finish d)
        | .stuck fault d => (.fault fault, g.finish d)
        | .advanced d =>
          (.state (.ofConfig g.setup.program (some (g.setup.program.fetch c.pc)) d),
            g.suspend d) := by
  obtain ⟨pc, steps, tape, pointer, input, output⟩ := c
  simp only [suspend, next]
  cases Config.attempt g.setup ⟨pc, steps, tape, pointer, input, output⟩ <;> rfl

/-- **What a stepper gives from where it waits.** -/
theorem takeAfter_suspend (g : Stepper) :
    ∀ (count : Nat) (states : Array Snapshot) (c : Config),
      takeAfter states count (g.suspend c).1 (g.suspend c).2
        = { states := states ++ (Config.trace g.setup count c).toArray
            stop := (c.execute g.setup count).2.map Ending.event
            stepper := (g.rest (c.execute g.setup count).1 (c.execute g.setup count).2).1
            machine := (g.rest (c.execute g.setup count).1 (c.execute g.setup count).2).2 } := by
  intro count
  induction count with
  | zero => intro states c; simp [takeAfter, Config.trace, Config.execute, rest]
  | succ count ih =>
    intro states c
    rw [takeAfter, next_suspend, Config.trace, Config.execute]
    rcases Config.attempt_stays g.setup c with ⟨d, hd, -⟩ | hc | ⟨fault, hc⟩
    · simp only [hd, ih]
      simp
    · simp [hc, rest, Ending.event]
    · simp [hc, rest, Ending.event]

/-- What a fresh stepper gives: the state at the start, then those of the run. -/
theorem take_succ (s : Setup) (input : List UInt8) (m : Machine) (count : Nat) :
    (ofSetup s input).take (count + 1) m
      = { states := Config.states s count (.start m.length input)
          stop := ((Config.start m.length input).execute s count).2.map Ending.event
          stepper := ((ofSetup s input).rest ((Config.start m.length input).execute s count).1
            ((Config.start m.length input).execute s count).2).1
          machine := ((ofSetup s input).rest ((Config.start m.length input).execute s count).1
            ((Config.start m.length input).execute s count).2).2 } :=
  takeAfter_suspend (ofSetup s input) count _ (.start m.length input)

theorem rest_machine (g : Stepper) (c : Config) (e : Option Ending) :
    (g.rest c e).2 = ⟨c.tape, c.pointer, c.output⟩ := by
  cases e <;> rfl

/-- What a stepper shows after `k` instructions has `k` as its step count. -/
theorem step_of_take {s : Setup} {input : List UInt8} {m : Machine} {count k : Nat}
    {state : Snapshot} (h : ((ofSetup s input).take (count + 1) m).states[k]? = some state) :
    state.step = k := by
  rw [take_succ] at h
  obtain ⟨hk, -⟩ := Array.getElem?_eq_some_iff.mp h
  obtain ⟨hlength, hlast⟩ := Config.after_length_trace s count (.start m.length input)
  rw [Config.size_states] at hk
  obtain ⟨c, hafter, -⟩ := Config.exists_after_of_le hlast (Nat.le_of_lt_succ hk)
  obtain ⟨command, hsnapshot⟩ := Config.exists_snapshotAfter hafter
  rw [Config.states_getElem? _ (by omega), hsnapshot, Option.some.injEq] at h
  rw [← h]
  exact (Config.steps_after k _ c hafter).trans (Nat.zero_add k)

end Stepper

/-! ## Both do the same run -/

theorem Machine.execute_ending (m : Machine) (s : Setup) (input : List UInt8) (fuel : Nat) :
    (m.execute s input fuel).ending = ((Config.start m.length input).execute s fuel).2 := rfl

/-- A stepper stops where `execute` ends, one state behind it since it first gives the start. -/
theorem Stepper.take_stop_eq_some_iff {m : Machine} {s : Setup} {input : List UInt8} {count : Nat}
    {stop : Event} :
    ((ofSetup s input).take count m).stop = some stop ↔
      ∃ fuel ending, count = fuel + 1 ∧ (m.execute s input fuel).ending = some ending ∧
        stop = ending.event := by
  cases count with
  | zero => simp [take, takeAfter]
  | succ fuel =>
    rw [take_succ]
    simp only [Option.map_eq_some_iff, Machine.execute_ending]
    constructor
    · rintro ⟨ending, hending, rfl⟩
      exact ⟨fuel, ending, rfl, hending, rfl⟩
    · rintro ⟨fuel', ending, hfuel, hending, rfl⟩
      obtain rfl : fuel = fuel' := Nat.succ.inj hfuel
      exact ⟨ending, hending, rfl⟩

/-- **Executing and stepping do the same run.** They end in the same way or both run for ever. When
they have ended, the last state has the output that was written and the number of instructions that
were done, and the machines have the same tape and pointer. -/
theorem execute_agrees_with_stepper (m : Machine) (s : Setup) (input : List UInt8) :
    (∀ ending, (∃ fuel, (m.execute s input fuel).ending = some ending) ↔
      ∃ count, ((Stepper.ofSetup s input).take count m).stop = some ending.event) ∧
    ((∀ fuel, (m.execute s input fuel).ending = none) ↔
      ∀ count, ((Stepper.ofSetup s input).take count m).stop = none) ∧
    ∀ fuel count ending stop,
      (m.execute s input fuel).ending = some ending →
      ((Stepper.ofSetup s input).take count m).stop = some stop →
      stop = ending.event ∧
      ∃ last, ((Stepper.ofSetup s input).take count m).states.back? = some last ∧
        last.output = (m.execute s input fuel).output ∧
        ((Stepper.ofSetup s input).take count m).machine.tape
          = (m.execute s input fuel).machine.tape ∧
        ((Stepper.ofSetup s input).take count m).machine.pointer
          = (m.execute s input fuel).machine.pointer ∧
        ∃ c, Config.EndsAfter s (.start m.length input) last.step c ending := by
  refine ⟨fun ending => ?_, ?_, ?_⟩
  · constructor
    · rintro ⟨fuel, h⟩
      exact ⟨fuel + 1, Stepper.take_stop_eq_some_iff.mpr ⟨fuel, ending, rfl, h, rfl⟩⟩
    · rintro ⟨count, h⟩
      obtain ⟨fuel, ending', -, h, he⟩ := Stepper.take_stop_eq_some_iff.mp h
      rw [Ending.event_injective he]
      exact ⟨fuel, h⟩
  · constructor
    · intro h count
      refine Option.eq_none_iff_forall_ne_some.mpr fun stop hstop => ?_
      obtain ⟨fuel, ending, -, hending, -⟩ := Stepper.take_stop_eq_some_iff.mp hstop
      rw [h fuel] at hending
      exact Option.some_ne_none ending hending.symm
    · intro h fuel
      refine Option.eq_none_iff_forall_ne_some.mpr fun ending hending => ?_
      have hstop := Stepper.take_stop_eq_some_iff.mpr ⟨fuel, ending, rfl, hending, rfl⟩
      rw [h (fuel + 1)] at hstop
      exact Option.some_ne_none ending.event hstop.symm
  · intro fuel count ending stop hending hstop
    obtain ⟨fuel', ending', rfl, hending', rfl⟩ := Stepper.take_stop_eq_some_iff.mp hstop
    obtain ⟨n, hends⟩ := Config.exists_endsAfter_of_execute hending
    obtain ⟨n', hends'⟩ := Config.exists_endsAfter_of_execute hending'
    obtain ⟨rfl, hconfig, rfl⟩ := hends.unique hends'
    obtain ⟨command, hlast⟩ := Config.states_back? s fuel' (.start m.length input)
    rw [← hconfig] at hlast
    refine ⟨rfl, ?_⟩
    rw [Stepper.take_succ]
    simp only [Stepper.rest_machine, ← hconfig]
    have hsteps := Config.steps_after n _ _ hends.after_eq
    rw [show (Config.start m.length input).steps = 0 from rfl, Nat.zero_add] at hsteps
    refine ⟨_, hlast, rfl, rfl, rfl, ((Config.start m.length input).execute s fuel).1, ?_⟩
    rw [show (Snapshot.ofConfig s.program command
      ((Config.start m.length input).execute s fuel).1).step = n from hsteps]
    exact hends

end TapeMachine
