import TapeMachine.Proofs.Lockstep
import TapeMachine.Proofs.Prepare

/-!
# Dumps

The debug flag makes the diagnostic instruction write a dump, and nothing else. So the runs with and
without it go in step, and the one with the flag has written what the other one has, with a dump put in
for every diagnostic instruction done, where the output was then (`debug_only_adds_dumps`).
-/

namespace TapeMachine

/-! ## Texts put into an output -/

/-- The bytes with texts put in, each after as many of the bytes as it is marked with. The last text
goes in first, so that the marks of those before it still count the bytes alone. -/
def insertTexts (bytes : List UInt8) (texts : List (Nat × List UInt8)) : List UInt8 :=
  texts.foldr (fun (mark, text) done => done.take mark ++ text ++ done.drop mark) bytes

section

variable {bytes text : List UInt8} {texts : List (Nat × List UInt8)}

theorem insertTexts_cons (mark : Nat) :
    insertTexts bytes ((mark, text) :: texts)
      = (insertTexts bytes texts).take mark ++ text ++ (insertTexts bytes texts).drop mark := rfl

theorem length_le_insertTexts : bytes.length ≤ (insertTexts bytes texts).length := by
  induction texts with
  | nil => exact Nat.le_refl _
  | cons t texts ih =>
    rw [insertTexts_cons]
    simp only [List.length_append, List.length_take, List.length_drop]
    omega

/-- What is written afterwards comes behind all texts. -/
theorem insertTexts_append (h : ∀ t ∈ texts, t.1 ≤ bytes.length) (more : List UInt8) :
    insertTexts (bytes ++ more) texts = insertTexts bytes texts ++ more := by
  induction texts with
  | nil => rfl
  | cons t texts ih =>
    obtain ⟨ht, htexts⟩ := List.forall_mem_cons.mp h
    have hle : t.1 ≤ (insertTexts bytes texts).length := Nat.le_trans ht length_le_insertTexts
    -- the mark lies within what was written before, so `more` stays in the second part
    rw [insertTexts_cons, insertTexts_cons, ih htexts, List.take_append_of_le_length hle,
      List.drop_append_of_le_length hle]
    simp only [List.append_assoc]

/-- A text that is put in at the end is written behind all others. -/
theorem insertTexts_concat (h : ∀ t ∈ texts, t.1 ≤ bytes.length) :
    insertTexts bytes (texts ++ [(bytes.length, text)]) = insertTexts bytes texts ++ text := by
  rw [← insertTexts_append h]
  simp [insertTexts, List.foldr_append]

/-- A text may stand at the start, between two bytes and at the end. -/
example : insertTexts [1, 2, 3] [(0, [7]), (1, [8, 8]), (3, [9])] = [7, 1, 8, 8, 2, 3, 9] := by
  decide

end

namespace Config

/-! ## The dumps of a run -/

/-- The bytes of the dump at a configuration. -/
def dump (c : Config) : List UInt8 := (Dump.render c.tape c.pointer).toUTF8.toList

/-- The dump that the next instruction asks for, marked with the length of the output. -/
def dump? (p : Program) (c : Config) : Option (Nat × List UInt8) :=
  if p.fetch c.pc = .diagnostic then some (c.output.toList.length, c.dump) else none

/-- The dumps that the first `n` instructions after `c` ask for. -/
def dumps (s : Setup) (c : Config) (n : Nat) : List (Nat × List UInt8) :=
  (List.range n).filterMap fun k => (after s k c).bind (dump? s.program)

theorem dumps_succ {s : Setup} {c d : Config} {n : Nat} (h : after s n c = some d) :
    dumps s c (n + 1) = dumps s c n ++ (dump? s.program d).toList := by
  rw [dumps, List.range_succ, List.filterMap_append, ← dumps]
  cases hdump : dump? s.program d <;> simp [h, hdump]

/-! ## One instruction with and without the flag -/

variable {p : Program} {c : Config}

/-- Two configurations differ in their outputs only, which go on from `o` and `o'` alike. -/
def WroteAlike (o o' : Output) (loud quiet : Config) : Prop :=
  loud = { quiet with output := loud.output } ∧
    ∃ bytes, loud.output.toList = o.toList ++ bytes ∧ quiet.output.toList = o'.toList ++ bytes

theorem perform_wroteAlike (budget : Option Int) (h : p.fetch c.pc ≠ .diagnostic) (o : Output) :
    (perform ⟨p, true, budget⟩ { c with output := o }).Alike (WroteAlike o c.output)
      (perform ⟨p, false, budget⟩ c) := by
  by_cases houtput : p.fetch c.pc = .output
  · simp only [perform, houtput]
    cases c.tape[c.pointer]? with
    | none => exact .stuck
    | some value => exact .advanced ⟨rfl, [value], by simp, by simp⟩
  · rw [show perform ⟨p, true, budget⟩ { c with output := o }
        = (perform ⟨p, false, budget⟩ c).map fun d => { d with output := o } from
          perform_of_not_writing houtput h o,
      show perform ⟨p, false, budget⟩ c
        = (perform ⟨p, false, budget⟩ c).map fun d => { d with output := c.output } from
          perform_of_not_writing houtput h c.output]
    cases perform ⟨p, false, budget⟩ c with
    | ended d => exact .ended
    | advanced d => exact .advanced ⟨rfl, [], by simp, by simp⟩
    | stuck fault d => exact .stuck

theorem perform_diagnostic (budget : Option Int) (h : p.fetch c.pc = .diagnostic) (o : Output) :
    (perform ⟨p, true, budget⟩ { c with output := o }).Alike
      (WroteAlike (o.append c.dump) c.output) (perform ⟨p, false, budget⟩ c) := by
  simp only [perform, h]
  exact .advanced ⟨rfl, [], by simp [dump], by simp⟩

/-! ## The two runs -/

/-- Where the run with the flag is when the one without, which is `q` from `c₀` on, is at `quiet`. -/
structure Dumped (q : Setup) (c₀ loud quiet : Config) : Prop where
  after_eq : after q quiet.steps c₀ = some quiet
  same : loud = { quiet with output := loud.output }
  output_eq : loud.output.toList = insertTexts quiet.output.toList (dumps q c₀ quiet.steps)
  /-- No dump is put behind the end of the output. -/
  reached : ∀ t ∈ dumps q c₀ quiet.steps, t.1 ≤ quiet.output.toList.length

variable {budget : Option Int} {q : Setup} {c₀ loud quiet : Config}

theorem Dumped.pc_eq (h : Dumped q c₀ loud quiet) : loud.pc = quiet.pc := by rw [h.same]

theorem Dumped.steps_eq (h : Dumped q c₀ loud quiet) : loud.steps = quiet.steps := by rw [h.same]

theorem Dumped.next {loud' quiet' : Config} {o : Output} (h : Dumped q c₀ loud quiet)
    (hquiet : quiet.attempt q = .advanced quiet') (hwrote : WroteAlike o quiet.output loud' quiet')
    (houtput : o.toList = insertTexts quiet.output.toList (dumps q c₀ (quiet.steps + 1)))
    (hreached : ∀ t ∈ dumps q c₀ (quiet.steps + 1), t.1 ≤ quiet.output.toList.length) :
    Dumped q c₀ loud' quiet' := by
  obtain ⟨hsame, bytes, hloud', hquiet'⟩ := hwrote
  have hsteps := (follows_of_attempt hquiet).steps_eq
  refine ⟨?_, hsame, ?_, fun t ht => ?_⟩
  · rw [hsteps, after_add_of_eq_some h.after_eq, after_one_of_advanced hquiet]
  · rw [hsteps, hloud', hquiet', houtput, insertTexts_append hreached]
  · rw [hsteps] at ht
    have := hreached t ht
    rw [hquiet', List.length_append]
    omega

/-- **One attempt with and without the flag.** -/
theorem Dumped.attempt (h : Dumped ⟨p, false, budget⟩ c₀ loud quiet) :
    (loud.attempt ⟨p, true, budget⟩).Alike (Dumped ⟨p, false, budget⟩ c₀)
      (quiet.attempt ⟨p, false, budget⟩) := by
  have hdumps := dumps_succ h.after_eq
  by_cases hfetch : p.fetch quiet.pc = .diagnostic
  · rw [show dump? p quiet = some (quiet.output.toList.length, quiet.dump) from if_pos hfetch,
      Option.toList_some] at hdumps
    -- one more dump is due, and it is put in behind everything written so far
    have hperform := perform_diagnostic budget hfetch loud.output
    rw [← h.same] at hperform
    refine (attempt_alike h.pc_eq h.steps_eq fun _ _ => hperform).imp
      fun loud' quiet' _ hquiet hwrote => h.next hquiet hwrote ?_ fun t ht => ?_
    · rw [hdumps, insertTexts_concat h.reached, Output.toList_append, h.output_eq]
    · rw [hdumps] at ht
      rcases List.mem_append.mp ht with ht | ht
      · exact h.reached t ht
      · rw [List.mem_singleton.mp ht]
  · rw [show dump? p quiet = none from if_neg hfetch, Option.toList_none, List.append_nil] at hdumps
    have hperform := perform_wroteAlike budget hfetch loud.output
    rw [← h.same] at hperform
    refine (attempt_alike h.pc_eq h.steps_eq fun _ _ => hperform).imp
      fun loud' quiet' _ hquiet hwrote => h.next hquiet hwrote ?_ ?_
    · rw [hdumps, h.output_eq]
    · rw [hdumps]
      exact h.reached

/-- **The runs with and without the flag go in step.** -/
theorem in_step_dumped (p : Program) (budget : Option Int) (c₀ : Config) (n : Nat) :
    InStep ⟨p, true, budget⟩ ⟨p, false, budget⟩ (Dumped ⟨p, false, budget⟩ c₀) n c₀ c₀ := by
  intro j loud quiet _ _ _ h
  exact ⟨congrArg p.fetch h.pc_eq, h.attempt⟩

theorem dumped_start (q : Setup) (length : Nat) (input : List UInt8) :
    Dumped q (start length input) (start length input) (start length input) :=
  ⟨rfl, rfl, rfl, fun _ ht => absurd ht List.not_mem_nil⟩

end Config

/-! ## What the flag adds -/

section

variable {p : Program} {input : List UInt8} {m : Machine} {budget : Option Int}

/-- The run of `p` on `m` with the flag is the one without it, and the dumps. -/
structure AddsDumps (p : Program) (input : List UInt8) (m : Machine) (budget : Option Int) :
    Prop where
  size_eq : ∀ count,
    ((Stepper.ofSetup ⟨p, true, budget⟩ input).take count m).states.size
      = ((Stepper.ofSetup ⟨p, false, budget⟩ input).take count m).states.size
  /-- They end in the same way, with the same fault if there is one. -/
  stop_eq : ∀ count,
    ((Stepper.ofSetup ⟨p, true, budget⟩ input).take count m).stop
      = ((Stepper.ofSetup ⟨p, false, budget⟩ input).take count m).stop
  /-- The states agree on everything but the output. -/
  states_eq : ∀ (count k : Nat) (loud quiet : Snapshot),
    ((Stepper.ofSetup ⟨p, true, budget⟩ input).take count m).states[k]? = some loud →
    ((Stepper.ofSetup ⟨p, false, budget⟩ input).take count m).states[k]? = some quiet →
    { loud with output := quiet.output } = quiet
  /-- There is a dump for each diagnostic instruction done, where the output was then. -/
  output_eq : ∀ (count k : Nat) (loud quiet : Snapshot),
    ((Stepper.ofSetup ⟨p, true, budget⟩ input).take count m).states[k]? = some loud →
    ((Stepper.ofSetup ⟨p, false, budget⟩ input).take count m).states[k]? = some quiet →
    loud.output.toList = insertTexts quiet.output.toList
      (Config.dumps ⟨p, false, budget⟩ (.start m.length input) k)

/-- **The debug flag only adds dumps.** A balanced source is prepared. On any machine and with any
budget its run with the flag has the states and the ending of its run without, but for the dumps in
the output. -/
theorem debug_only_adds_dumps (source input : List UInt8) (m : Machine) (budget : Option Int)
    (h : Balanced source) :
    ∃ p, Program.prepare source = .ok p ∧ AddsDumps p input m budget := by
  obtain ⟨p, hp⟩ := Program.exists_prepare_of_balanced h
  have htake := fun count => Stepper.take_in_step
    (Config.dumped_start ⟨p, false, budget⟩ m.length input)
    (Config.in_step_dumped p budget (.start m.length input) count)
  have hstates : ∀ (count k : Nat) (loud quiet : Snapshot),
      ((Stepper.ofSetup ⟨p, true, budget⟩ input).take count m).states[k]? = some loud →
      ((Stepper.ofSetup ⟨p, false, budget⟩ input).take count m).states[k]? = some quiet →
      quiet.step = k ∧
        loud.Alike p p (Config.Dumped ⟨p, false, budget⟩ (.start m.length input)) quiet := by
    intro count k loud quiet hloud hquiet
    cases count with
    | zero => exact absurd hloud (by simp [Stepper.take, Stepper.takeAfter])
    | succ count =>
      obtain ⟨-, -, halike, -⟩ := htake count
      exact ⟨Stepper.step_of_take hquiet, halike k loud quiet hloud hquiet⟩
  refine ⟨p, hp, fun count => ?_, fun count => ?_, fun count k loud quiet hloud hquiet => ?_,
    fun count k loud quiet hloud hquiet => ?_⟩
  · cases count with
    | zero => rfl
    | succ count => exact (htake count).1
  · cases count with
    | zero => rfl
    | succ count => exact (htake count).2.1
  · obtain ⟨-, command, c, c', hdumped, rfl, rfl⟩ := hstates count k loud quiet hloud hquiet
    rw [hdumped.same]
    rfl
  · obtain ⟨rfl, command, c, c', hdumped, rfl, rfl⟩ := hstates count k loud quiet hloud hquiet
    exact hdumped.output_eq

/-- The run of `+[#.-]` with the flag, on a tape of two cells. -/
theorem debug_only_adds_dumps_in_loop :
    Balanced [0x2B, 0x5B, 0x23, 0x2E, 0x2D, 0x5D] ∧
      ∃ p, Program.prepare [0x2B, 0x5B, 0x23, 0x2E, 0x2D, 0x5D] = .ok p ∧
        AddsDumps p [] (.blank 2) none := by
  have h : Balanced [0x2B, 0x5B, 0x23, 0x2E, 0x2D, 0x5D] :=
    Block.balanced_iff_exists_code.mpr
      ⟨.byte 0x2B rfl (.loop (.byte 0x23 rfl (.byte 0x2E rfl (.byte 0x2D rfl .nil))) .nil), rfl⟩
  exact ⟨h, debug_only_adds_dumps _ [] (.blank 2) none h⟩

end

end TapeMachine
