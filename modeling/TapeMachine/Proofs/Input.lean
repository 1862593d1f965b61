import TapeMachine.Proofs.Lockstep
import TapeMachine.Proofs.Prepare

/-!
# Input

Every input instruction takes a byte from the input, as long as there is one, and keeps the cell as it
is when there is none. So the input at some place of a run is what the input instructions done before
have left (`input_after`), and what stands behind it in a longer input has not been looked at: the run
on the longer input goes in step until one of them finds nothing more (`in_step_append`).
-/

namespace TapeMachine

/-- From `m` to `m'` the byte has been stored at the pointer. Without a byte nothing has changed. -/
structure Machine.Receives (byte : Option UInt8) (m m' : Machine) : Prop where
  pointer_eq : m'.pointer = m.pointer
  captured_eq : m'.captured = m.captured
  stored : ∀ b, byte = some b →
    m.pointer < m.tape.size ∧ m'.tape = m.tape.setIfInBounds m.pointer b
  kept : byte = none → m'.tape = m.tape

namespace Config

variable {s : Setup} {c d : Config} {j n : Nat}

/-! ## One instruction -/

/-- **An input instruction** takes the first byte of the input. -/
theorem receives_of_advanced (hfetch : s.program.fetch c.pc = .input)
    (h : c.attempt s = .advanced d) :
    Machine.Receives c.input.head? ⟨c.tape, c.pointer, c.output⟩ ⟨d.tape, d.pointer, d.output⟩ ∧
      d.input = c.input.drop 1 := by
  obtain ⟨-, -, hperform⟩ := performed_of_advanced h
  obtain ⟨pc, steps, tape, pointer, input, output⟩ := c
  simp only [perform, hfetch] at hperform
  cases input with
  | nil =>
    cases hperform
    exact ⟨⟨rfl, rfl, fun b hb => by simp at hb, fun _ => rfl⟩, rfl⟩
  | cons b rest =>
    by_cases hcell : pointer < tape.size
    · simp only [if_pos hcell] at hperform
      cases hperform
      refine ⟨⟨rfl, rfl, fun b' hb => ⟨hcell, ?_⟩, fun hb => by simp at hb⟩, rfl⟩
      rw [← Option.some.inj hb]
    · simp only [if_neg hcell] at hperform
      cases hperform

/-- Every other instruction leaves the input as it is. -/
theorem input_eq_of_advanced (hfetch : s.program.fetch c.pc ≠ .input)
    (h : c.attempt s = .advanced d) : d.input = c.input := by
  obtain ⟨-, -, hperform⟩ := performed_of_advanced h
  have hsame := perform_of_not_reading hfetch c.input
  rw [show { c with input := c.input } = c from rfl, hperform] at hsame
  rw [Attempt.advanced.inj hsame]

/-! ## Counting input instructions -/

/-- The number of input instructions among the next `n` instructions, as far as the run gets. -/
def reads (s : Setup) (n : Nat) (c : Config) : Nat :=
  (trace s n c).countP fun state => state.command = some .input

theorem reads_succ_of_advanced (h : c.attempt s = .advanced d) (n : Nat) :
    reads s (n + 1) c = (if s.program.fetch c.pc = .input then 1 else 0) + reads s n d := by
  rw [reads, trace, h]
  simp only [List.countP_cons, Snapshot.ofConfig, Option.some.injEq, decide_eq_true_eq]
  exact Nat.add_comm _ _

theorem reads_add (h : after s j c = some d) (n : Nat) :
    reads s (j + n) c = reads s j c + reads s n d := by
  induction j generalizing c with
  | zero =>
    rw [after_zero, Option.some.injEq] at h
    simp [h, reads, trace]
  | succ j ih =>
    rw [after] at h
    cases hc : c.attempt s with
    | ended c' => simp [hc] at h
    | stuck fault c' => simp [hc] at h
    | advanced c' =>
      rw [hc] at h
      rw [Nat.succ_add, reads_succ_of_advanced hc, reads_succ_of_advanced hc, ih h, Nat.add_assoc]

/-- **The input is what the input instructions have left.** -/
theorem input_after (h : after s n c = some d) : d.input = c.input.drop (reads s n c) := by
  induction n generalizing c with
  | zero =>
    rw [after_zero, Option.some.injEq] at h
    simp [h, reads, trace]
  | succ n ih =>
    rw [after] at h
    cases hc : c.attempt s with
    | ended c' => simp [hc] at h
    | stuck fault c' => simp [hc] at h
    | advanced c' =>
      rw [hc] at h
      rw [ih h, reads_succ_of_advanced hc]
      by_cases hfetch : s.program.fetch c.pc = .input
      · rw [if_pos hfetch, (receives_of_advanced hfetch hc).2, List.drop_drop]
      · rw [if_neg hfetch, input_eq_of_advanced hfetch hc, Nat.zero_add]

theorem reads_lt_of_advanced {e : Config} (hj : j < n) (hafter : after s j c = some d)
    (hfetch : s.program.fetch d.pc = .input) (hd : d.attempt s = .advanced e) :
    reads s j c < reads s n c := by
  obtain ⟨i, rfl⟩ := Nat.exists_eq_add_of_lt hj
  rw [Nat.add_assoc, reads_add hafter, reads_succ_of_advanced hd, if_pos hfetch]
  omega

/-! ## Runs with more input -/

/-- The configurations differ only in that `more` follows the input of the first one. -/
def MoreInput (more : List UInt8) (c c' : Config) : Prop := c' = { c with input := c.input ++ more }

/-- The next instruction is an input instruction that is done without a byte. -/
def FindsNone (s : Setup) (c : Config) : Prop :=
  s.program.fetch c.pc = .input ∧ c.input = [] ∧ ∃ d, c.attempt s = .advanced d

/-- With more input it is done too. -/
theorem FindsNone.exists_advanced (h : c.FindsNone s) (hc : c.pointer < c.tape.size)
    (more : List UInt8) : ∃ d, { c with input := more }.attempt s = .advanced d := by
  obtain ⟨hfetch, -, d, hd⟩ := h
  obtain ⟨hpc, hbudget, -⟩ := performed_of_advanced hd
  rw [attempt_of_within (c := { c with input := more }) hpc hbudget]
  simp only [perform, hfetch]
  cases more with
  | nil => exact ⟨_, rfl⟩
  | cons b rest =>
    simp only [if_pos hc]
    exact ⟨_, rfl⟩

/-- **One attempt with more input.** It comes to the same unless the additional input is looked at. -/
theorem attempt_append {more : List UInt8} (h : more = [] ∨ ¬ c.FindsNone s) :
    (c.attempt s).Alike (MoreInput more) ({ c with input := c.input ++ more }.attempt s) := by
  obtain ⟨p, debug, budget⟩ := s
  refine attempt_alike rfl rfl fun hpc hbudget => ?_
  by_cases hfetch : p.fetch c.pc = .input
  · obtain ⟨pc, steps, tape, pointer, input, output⟩ := c
    cases input with
    | nil =>
      have hdone : FindsNone ⟨p, debug, budget⟩ ⟨pc, steps, tape, pointer, [], output⟩ := by
        refine ⟨hfetch, rfl, ?_⟩
        rw [attempt_of_within hpc hbudget]
        simp only [perform, hfetch]
        exact ⟨_, rfl⟩
      obtain rfl := h.resolve_right (not_not_intro hdone)
      simp only [perform, hfetch]
      exact .advanced rfl
    | cons b rest =>
      simp only [perform, hfetch, List.cons_append]
      by_cases hcell : pointer < tape.size
      · simp only [if_pos hcell]
        exact .advanced rfl
      · simp only [if_neg hcell]
        exact .stuck
  · have hmap : perform ⟨p, debug, budget⟩ { c with input := c.input ++ more }
        = (perform ⟨p, debug, budget⟩ c).map (mapStreams (· ++ more) id) :=
      perform_mapStreams (· ++ more) id (absurd · hfetch) (fun _ => rfl) fun _ => ⟨rfl, rfl⟩
    rw [hmap]
    cases perform ⟨p, debug, budget⟩ c with
    | ended d => exact .ended
    | advanced d => exact .advanced rfl
    | stuck fault d => exact .stuck

theorem moreInput_start (length : Nat) (input more : List UInt8) :
    MoreInput more (start length input) (start length (input ++ more)) := rfl

/-- **A run goes in step with the run on more input** as long as one of them does no more input
instructions than the shorter input has bytes. -/
theorem in_step_append {more : List UInt8} {c' : Config} (hmore : MoreInput more c c')
    (hc : c.pointer < c.tape.size)
    (h : reads s n c ≤ c.input.length ∨ reads s n c' ≤ c.input.length) :
    InStep s s (MoreInput more) n c c' := by
  rintro j d _ hj hd hd' rfl
  refine ⟨rfl, attempt_append ?_⟩
  by_contra hlooked
  obtain ⟨hne, hnone⟩ := not_or.mp hlooked
  obtain ⟨hfetch, hnil, e, he⟩ := not_not.mp hnone
  rcases h with h | h
  · have hlength := congrArg List.length (input_after hd)
    have hlt := reads_lt_of_advanced hj hd hfetch he
    rw [hnil, List.length_drop, List.length_nil] at hlength
    omega
  · -- the other run is about to read the first one of the additional bytes
    obtain ⟨e', he'⟩ := (not_not.mp hnone).exists_advanced (onTape_after hd hc) (d.input ++ more)
    have hinput : c'.input = c.input ++ more := by rw [hmore]
    have hlength := congrArg List.length (input_after hd')
    have hlt := reads_lt_of_advanced hj hd' hfetch he'
    have hpos := List.length_pos_iff.mpr hne
    simp only [hnil, hinput, List.nil_append, List.length_drop, List.length_append] at hlength
    omega

end Config

/-! ## What a stepper shows of its input -/

/-- The number of input instructions done before the last state of a trace. -/
def Trace.reads (T : Trace) : Nat := T.states.countP fun state => state.command = some .input

/-- The traces show the same. -/
structure Trace.Same (T T' : Trace) : Prop where
  states_eq : T'.states = T.states
  stop_eq : T'.stop = T.stop
  machine_eq : T'.machine = T.machine

section

variable {s : Setup} {m : Machine} {input more : List UInt8}

namespace Stepper

theorem reads_take (s : Setup) (input : List UInt8) (m : Machine) (count : Nat) :
    ((ofSetup s input).take (count + 1) m).reads
      = Config.reads s count (.start m.length input) := by
  rw [take_succ]
  simp [Trace.reads, Config.states, Config.reads, Snapshot.ofConfig]

/-- The machine after `count` instructions. -/
theorem machine_take {count : Nat} {c : Config}
    (h : Config.after s count (.start m.length input) = some c) :
    ((ofSetup s input).take (count + 1) m).machine = ⟨c.tape, c.pointer, c.output⟩ := by
  rw [take_succ, Config.execute_eq_none_iff.mpr h]
  exact rest_machine _ _ _

/-- **Every input instruction receives the next byte of the input.** -/
theorem receives_of_take {count : Nat} {state : Snapshot}
    (hstate : ((ofSetup s input).take (count + 1) m).states[count]? = some state)
    (hcommand : state.command = some .input) :
    Machine.Receives input[((ofSetup s input).take count m).reads]?
      ((ofSetup s input).take count m).machine ((ofSetup s input).take (count + 1) m).machine := by
  rw [take_succ, Config.states_getElem? _ (Nat.le_refl count)] at hstate
  cases count with
  | zero =>
    -- the state at the start comes after no instruction
    rw [Config.snapshotAfter, Option.some.injEq] at hstate
    rw [← hstate] at hcommand
    cases hcommand
  | succ j =>
    obtain ⟨c, hc, hnext⟩ := Option.bind_eq_some_iff.mp hstate
    obtain ⟨d, hd, hstate⟩ := Option.bind_eq_some_iff.mp hnext
    rw [Option.pure_def, Option.some.injEq] at hstate
    have hfetch : s.program.fetch c.pc = .input := by
      rw [← hstate] at hcommand
      exact Option.some.inj hcommand
    have hreceives := (Config.receives_of_advanced hfetch
      (Config.exists_advanced_of_after_one hd)).1
    rw [Config.input_after hc, List.head?_drop] at hreceives
    rw [reads_take, machine_take hc, machine_take ((Config.after_add_of_eq_some hc 1).trans hd)]
    exact hreceives

/-- **With more input a stepper shows the same** as long as no additional byte is read. -/
theorem same_of_reads_le {count : Nat} (hm : 0 < m.length)
    (h : ((ofSetup s input).take count m).reads ≤ input.length ∨
      ((ofSetup s (input ++ more)).take count m).reads ≤ input.length) :
    Trace.Same ((ofSetup s input).take count m) ((ofSetup s (input ++ more)).take count m) := by
  cases count with
  | zero => exact ⟨rfl, rfl, rfl⟩
  | succ n =>
    rw [reads_take, reads_take] at h
    obtain ⟨hsize, hstop, hstates, c, c', hc, hmachine, hmachine'⟩ := take_in_step
      (Config.moreInput_start m.length input more)
      (Config.in_step_append rfl (Config.onTape_start hm input) h)
    refine ⟨Array.ext hsize.symm fun k hk hk' => ?_, hstop.symm, ?_⟩
    · obtain ⟨command, d, d', hmore, hd, hd'⟩ := hstates k _ _ (Array.getElem?_eq_getElem hk')
        (Array.getElem?_eq_getElem hk)
      rw [hd, hd', hmore]
      rfl
    · rw [hmachine, hmachine', hc]

end Stepper

/-- With more input an execution is the same if no additional byte is read. -/
theorem Machine.execute_append {fuel : Nat} (hm : 0 < m.length)
    (h : Config.reads s fuel (.start m.length input) ≤ input.length) :
    m.execute s (input ++ more) fuel = m.execute s input fuel := by
  obtain ⟨hending, hlast, -⟩ := Config.in_step
    (Config.moreInput_start m.length input more)
    (Config.in_step_append rfl (Config.onTape_start hm input) (.inl h))
  simp only [execute]
  rw [hlast, ← hending]

/-- The run of `s` on `m` takes its input byte by byte, and depends on the bytes that it takes. -/
structure ReadsInOrder (s : Setup) (m : Machine) (input : List UInt8) : Prop where
  /-- An input instruction receives the byte with the number of those done before it. -/
  receives : ∀ (count : Nat) (state : Snapshot),
    ((Stepper.ofSetup s input).take (count + 1) m).states[count]? = some state →
    state.command = some .input →
    Machine.Receives input[((Stepper.ofSetup s input).take count m).reads]?
      ((Stepper.ofSetup s input).take count m).machine
      ((Stepper.ofSetup s input).take (count + 1) m).machine
  /-- More input shows after an input instruction for each byte at the earliest. -/
  same_until : ∀ (more : List UInt8) (count : Nat),
    ((Stepper.ofSetup s input).take count m).reads ≤ input.length ∨
      ((Stepper.ofSetup s (input ++ more)).take count m).reads ≤ input.length →
    Trace.Same ((Stepper.ofSetup s input).take count m)
      ((Stepper.ofSetup s (input ++ more)).take count m)
  /-- It never shows if there are no more input instructions than bytes. -/
  same : ∀ more : List UInt8,
    (∀ count, ((Stepper.ofSetup s input).take count m).reads ≤ input.length) →
    (∀ count, Trace.Same ((Stepper.ofSetup s input).take count m)
      ((Stepper.ofSetup s (input ++ more)).take count m)) ∧
    ∀ fuel, m.execute s (input ++ more) fuel = m.execute s input fuel

/-- **Input is taken byte by byte, and only the bytes taken matter.** A balanced source is prepared. On
any machine with cells its input instructions receive the bytes of the input one after the other, then
none. Whatever comes after the input makes no difference before they ask for it. -/
theorem input_is_read_in_order (source input : List UInt8) (debug : Bool) (budget : Option Int)
    (m : Machine) (h : Balanced source) (hm : 0 < m.length) :
    ∃ p, Program.prepare source = .ok p ∧ ReadsInOrder ⟨p, debug, budget⟩ m input := by
  obtain ⟨p, hp⟩ := Program.exists_prepare_of_balanced h
  refine ⟨p, hp, fun count state => Stepper.receives_of_take,
    fun more count => Stepper.same_of_reads_le hm,
    fun more hreads => ⟨fun count => ?_, fun fuel => ?_⟩⟩
  · exact Stepper.same_of_reads_le hm (.inl (hreads count))
  · have := hreads (fuel + 1)
    rw [Stepper.reads_take] at this
    exact Machine.execute_append hm this

/-- The run of `,[.,]` reads two bytes and finds no third one. -/
theorem input_is_read_in_order_by_echo :
    Balanced [0x2C, 0x5B, 0x2E, 0x2C, 0x5D] ∧ 0 < (Machine.blank 1).length ∧
      ∃ p, Program.prepare [0x2C, 0x5B, 0x2E, 0x2C, 0x5D] = .ok p ∧
        ReadsInOrder ⟨p, false, some 12⟩ (.blank 1) [7, 9] := by
  have h : Balanced [0x2C, 0x5B, 0x2E, 0x2C, 0x5D] :=
    Block.balanced_iff_exists_code.mpr
      ⟨.byte 0x2C rfl (.loop (.byte 0x2E rfl (.byte 0x2C rfl .nil)) .nil), rfl⟩
  have hm : 0 < (Machine.blank 1).length := by decide
  exact ⟨h, hm, input_is_read_in_order _ [7, 9] false (some 12) (.blank 1) h hm⟩

end

end TapeMachine
