import TapeMachine.Proofs.Lockstep
import TapeMachine.Proofs.Prepare

/-!
# Tapes of different lengths

A run does not look beyond the cells it has come to, except that a move to the right asks whether the
cell under the pointer is the last one. So on a tape with more cells a run goes in step with the run on
the shorter one (`in_step_extend`) until that one would leave its tape at the right end. The cells that
the shorter tape has not stay zero.
-/

namespace TapeMachine

namespace Config

/-! ## One instruction on a longer tape -/

/-- The configuration with zeros behind its tape. -/
def extend (more : Nat) (c : Config) : Config :=
  { c with tape := c.tape ++ Array.replicate more 0 }

/-- The second configuration is the first one on a longer tape. -/
def Extended (more : Nat) (c c' : Config) : Prop := c' = c.extend more

theorem extend_start {length longer : Nat} (h : length ≤ longer) (input : List UInt8) :
    (start length input).extend (longer - length) = start longer input := by
  simp [extend, start, Nat.add_sub_cancel' h]

section

variable {s : Setup} {c : Config} {n : Nat} (more : Nat)

theorem update_extend (hc : c.pointer < c.tape.size) (f : UInt8 → UInt8) :
    (c.extend more).update f = (c.update f).map (extend more) := by
  obtain ⟨pc, steps, tape, pointer, input, output⟩ := c
  dsimp only at hc
  have hlonger : pointer < (tape ++ Array.replicate more 0).size := by
    rw [Array.size_append]
    omega
  simp only [extend, update, dif_pos hc, dif_pos hlonger, Array.getElem_append_left hc,
    Array.set_append_left hc]
  rfl

/-- **An instruction does the same on a longer tape**, unless it leaves the shorter one at its right
end. -/
theorem perform_extend (hdebug : s.debug = false) (hc : c.pointer < c.tape.size)
    (h : ∀ line, c.perform s ≠ .stuck (.outOfBounds line '>') c) :
    (c.extend more).perform s = (c.perform s).map (extend more) := by
  have hupdate := update_extend more hc
  have hget : (c.extend more).tape[c.pointer]? = c.tape[c.pointer]? :=
    Array.getElem?_append_left hc
  obtain ⟨pc, steps, tape, pointer, input, output⟩ := c
  dsimp only at hc hget
  simp only [extend] at hupdate hget ⊢
  unfold perform at h ⊢
  dsimp only at h ⊢
  cases hfetch : s.program.fetch pc with
  | increment => exact hupdate _
  | decrement => exact hupdate _
  | moveRight =>
    simp only [hfetch] at h
    have hlast : pointer + 1 ≠ tape.size := fun hlast => h _ (if_pos hlast)
    have hlonger : pointer + 1 ≠ (tape ++ Array.replicate more 0).size := by
      rw [Array.size_append]
      omega
    simp only [if_neg hlast, if_neg hlonger]
    rfl
  | moveLeft => dsimp only; split <;> rfl
  | loopOpen =>
    dsimp only
    rw [hget]
    split <;> rfl
  | loopClose => rfl
  | output =>
    dsimp only
    rw [hget]
    split <;> rfl
  | input =>
    cases input with
    | nil => rfl
    | cons b rest =>
      have hlonger : pointer < (tape ++ Array.replicate more 0).size := by
        rw [Array.size_append]
        omega
      simp only [if_pos hc, if_pos hlonger, Array.setIfInBounds_append_left hc]
      rfl
  | diagnostic =>
    simp only [hdebug]
    rfl
  | inert => rfl

/-! ## Runs on a longer tape -/

theorem attempt_extend (hdebug : s.debug = false) (hc : c.pointer < c.tape.size)
    (h : ∀ line, c.attempt s ≠ .stuck (.outOfBounds line '>') c) :
    (c.attempt s).Alike (Extended more) ((c.extend more).attempt s) := by
  refine attempt_alike rfl rfl fun hpc hbudget => ?_
  rw [attempt_of_within hpc hbudget] at h
  rw [perform_extend more hdebug hc h]
  cases c.perform s with
  | ended d => exact .ended
  | advanced d => exact .advanced rfl
  | stuck fault d => exact .stuck

/-- **A run goes in step with the run on a longer tape** if it does not leave its tape at the right
end. -/
theorem in_step_extend (hdebug : s.debug = false) (hc : c.pointer < c.tape.size)
    (h : ∀ line, (execute s n c).2 ≠ some (.failed (.outOfBounds line '>'))) :
    InStep s s (Extended more) n c (c.extend more) := by
  rintro j d _ hj hd - rfl
  refine ⟨rfl, attempt_extend more hdebug (onTape_after hd hc) fun line hstuck => h line ?_⟩
  have hends : EndsAfter s c j d (.failed (.outOfBounds line '>')) :=
    ⟨hd, by rw [ending?, hstuck]⟩
  rw [execute_eq_some_iff.mpr ⟨j, hj, hends⟩]

/-- What a run shows, it shows on a longer tape too. -/
theorem states_extend {k : Nat} {a : Snapshot} (hdebug : s.debug = false)
    (hc : c.pointer < c.tape.size) (ha : (states s n c)[k]? = some a) :
    ∃ a', (states s n (c.extend more))[k]? = some a' ∧
      a.Alike s.program s.program (Extended more) a' := by
  obtain ⟨hlength, hlast⟩ := after_length_trace s n c
  obtain ⟨hk, -⟩ := Array.getElem?_eq_some_iff.mp ha
  rw [size_states] at hk
  obtain ⟨d, hd, -⟩ := exists_after_of_le hlast (Nat.le_of_lt_succ hk)
  have hkn : k ≤ n := by omega
  -- up to this state the run has come to no end, so it is in step so far
  obtain ⟨hsize, halike⟩ := states_in_step (R := Extended more) rfl
    (in_step_extend (n := k) more hdebug hc fun line => by
      rw [execute_eq_none_iff.mpr hd]
      exact (Option.some_ne_none _).symm)
  rw [states_getElem? c hkn, ← states_getElem? c (Nat.le_refl k)] at ha
  obtain ⟨hk, -⟩ := Array.getElem?_eq_some_iff.mp ha
  have ha' := Array.getElem?_eq_getElem (hsize ▸ hk)
  refine ⟨_, ?_, halike k _ _ ha ha'⟩
  rw [states_getElem? _ hkn, ← states_getElem? _ (Nat.le_refl k), ha']

/-- A run on a tape with cells fails at one of its ends or when its budget is used up. -/
theorem fault_cases_of_execute {fault : Fault} (hc : c.pointer < c.tape.size)
    (h : (execute s n c).2 = some (.failed fault)) :
    (∃ line, fault = .outOfBounds line '<') ∨ (∃ line, fault = .outOfBounds line '>') ∨
      ∃ budget, s.budget = some budget ∧ fault = .exhausted budget := by
  obtain ⟨k, hends⟩ := exists_endsAfter_of_execute h
  have hd := onTape_after hends.after_eq hc
  obtain ⟨-, -, ⟨budget, hbudget, -, rfl⟩ | hblocked⟩ := stuck_of_failed hends.ending_eq
  · exact .inr (.inr ⟨budget, hbudget, rfl⟩)
  · cases hblocked with
    | left => exact .inl ⟨_, rfl⟩
    | right => exact .inr (.inl ⟨_, rfl⟩)
    | noCell hcell => exact absurd hd hcell

end

end Config

/-! ## Steppers on a longer tape -/

theorem Snapshot.Alike.eq_of_extended {p : Program} {more : Nat} {a a' : Snapshot}
    (h : a.Alike p p (Config.Extended more) a') : { a' with cells := a.cells } = a := by
  obtain ⟨command, c, _, rfl, rfl, rfl⟩ := h
  rfl

section

variable {s : Setup} {input : List UInt8} {m m' : Machine}

/-- The run of `s` on `m'` is the run on `m`, but for the right end of the tape. At least one state is
asked for, since a stepper blanks its machine only then. -/
structure SameOnLongerTape (s : Setup) (input : List UInt8) (m m' : Machine) : Prop where
  /-- How the run on `m` can end. -/
  stop_cases : ∀ (count : Nat) (stop : Event),
    ((Stepper.ofSetup s input).take (count + 1) m).stop = some stop →
    stop = .over ∨ (∃ budget, s.budget = some budget ∧ stop = .fault (.exhausted budget)) ∨
      (∃ line, stop = .fault (.outOfBounds line '<')) ∨
      ∃ line, stop = .fault (.outOfBounds line '>')
  /-- Its states are the first ones of the run on `m'`, which may show more cells. -/
  states_eq : ∀ (count k : Nat) (state : Snapshot),
    ((Stepper.ofSetup s input).take (count + 1) m).states[k]? = some state →
    ∃ state', ((Stepper.ofSetup s input).take (count + 1) m').states[k]? = some state' ∧
      { state' with cells := state.cells } = state
  /-- As long as it does not end at the right end of its tape, there are no other states, and both
  runs end in the same way. The tape of `m'` is that of `m` with zeros behind it. -/
  same : ∀ count,
    (∀ line, ((Stepper.ofSetup s input).take (count + 1) m).stop
      ≠ some (.fault (.outOfBounds line '>'))) →
    ((Stepper.ofSetup s input).take (count + 1) m').states.size
        = ((Stepper.ofSetup s input).take (count + 1) m).states.size ∧
      ((Stepper.ofSetup s input).take (count + 1) m').stop
        = ((Stepper.ofSetup s input).take (count + 1) m).stop ∧
      ((Stepper.ofSetup s input).take (count + 1) m').machine.pointer
        = ((Stepper.ofSetup s input).take (count + 1) m).machine.pointer ∧
      ((Stepper.ofSetup s input).take (count + 1) m').machine.tape
        = ((Stepper.ofSetup s input).take (count + 1) m).machine.tape
          ++ Array.replicate (m'.length - m.length) 0

/-- **A longer tape changes nothing but its right end.** A balanced source is prepared. Its run on a
machine with cells, with any input and budget and without dumps, is also its run on a machine that has
more of them, until it would leave the shorter tape at the right end. -/
theorem longer_tape_changes_only_right_end (source input : List UInt8) (budget : Option Int)
    (m m' : Machine) (h : Balanced source) (hm : 0 < m.length) (hle : m.length ≤ m'.length) :
    ∃ p, Program.prepare source = .ok p ∧ SameOnLongerTape ⟨p, false, budget⟩ input m m' := by
  obtain ⟨p, hp⟩ := Program.exists_prepare_of_balanced h
  have hc := Config.onTape_start hm input
  have hstart := Config.extend_start hle input
  refine ⟨p, hp, fun count stop hstop => ?_, fun count k state hstate => ?_, fun count hright => ?_⟩
  · obtain ⟨fuel, ending, -, hending, rfl⟩ := Stepper.take_stop_eq_some_iff.mp hstop
    rw [Machine.execute_ending] at hending
    cases ending with
    | finished => exact .inl rfl
    | failed fault =>
      rcases Config.fault_cases_of_execute hc hending with
        ⟨line, rfl⟩ | ⟨line, rfl⟩ | ⟨n, hn, rfl⟩
      · exact .inr (.inr (.inl ⟨line, rfl⟩))
      · exact .inr (.inr (.inr ⟨line, rfl⟩))
      · exact .inr (.inl ⟨n, hn, rfl⟩)
  · rw [Stepper.take_succ] at hstate ⊢
    obtain ⟨state', hstate', halike⟩ :=
      Config.states_extend (m'.length - m.length) rfl hc hstate
    rw [hstart] at hstate'
    exact ⟨state', hstate', halike.eq_of_extended⟩
  · have hstep := Config.in_step_extend (s := ⟨p, false, budget⟩) (n := count)
      (m'.length - m.length) rfl hc fun line hending => hright line
        (Stepper.take_stop_eq_some_iff.mpr ⟨count, _, rfl, hending, rfl⟩)
    rw [hstart] at hstep
    obtain ⟨hsize, hstop, -, c, c', hextended, hmachine, hmachine'⟩ :=
      Stepper.take_in_step (R := Config.Extended (m'.length - m.length)) hstart.symm hstep
    refine ⟨hsize.symm, hstop.symm, ?_, ?_⟩
    all_goals
      rw [hmachine, hmachine', hextended]
      rfl

/-- On two cells the run of `+[>+]` leaves the tape in the loop, and on four cells it goes on. -/
theorem longer_tape_changes_only_right_end_of_loop :
    Balanced [0x2B, 0x5B, 0x3E, 0x2B, 0x5D] ∧ 0 < (Machine.blank 2).length ∧
      (Machine.blank 2).length ≤ (Machine.blank 4).length ∧
      ∃ p, Program.prepare [0x2B, 0x5B, 0x3E, 0x2B, 0x5D] = .ok p ∧
        SameOnLongerTape ⟨p, false, none⟩ [] (.blank 2) (.blank 4) := by
  have h : Balanced [0x2B, 0x5B, 0x3E, 0x2B, 0x5D] :=
    Block.balanced_iff_exists_code.mpr
      ⟨.byte 0x2B rfl (.loop (.byte 0x3E rfl (.byte 0x2B rfl .nil)) .nil), rfl⟩
  have hm : 0 < (Machine.blank 2).length := by decide
  have hle : (Machine.blank 2).length ≤ (Machine.blank 4).length := by decide
  exact ⟨h, hm, hle, longer_tape_changes_only_right_end _ [] none (.blank 2) (.blank 4) h hm hle⟩

end

end TapeMachine
