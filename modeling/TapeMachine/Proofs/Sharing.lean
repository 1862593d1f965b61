import TapeMachine.Proofs.Prepare
import TapeMachine.Proofs.Stepping

/-!
# Machines shared by several runs

A machine outlives the runs made on it, and several of them may be under way at once: a stepper that
waits keeps its place in its program, while the tape and the pointer are changed under it by whatever
else is done on the machine. A `Bench` is a machine with all the steppers made for it.

`Config.Sound` is what every such run keeps: the tape has its length, the pointer is on it and the
place is in the program. It says nothing of what the cells hold, so it does not matter which run left
the tape as it is.

* `Config.Sound.attempt_cases`: what one instruction of a sound run can come to
* `Bench.Sound.run`: what any sequence of uses keeps
-/

namespace TapeMachine

/-! ## Instructions and jumps of a prepared program -/

namespace Program

variable {source : List UInt8} {p : Program} {pc : Nat}

/-- An instruction with a symbol comes from the byte of that symbol. -/
theorem Prepared.getElem?_of_fetch (hp : Prepared source p) (symbol : Char)
    (h : (p.fetch pc).symbol = some symbol) : source[pc]? = some (UInt8.ofNat symbol.toNat) := by
  cases hb : source[pc]? with
  | none =>
    have hlength : p.length ≤ pc := by
      rw [hp.length_eq]
      exact List.getElem?_eq_none_iff.mp hb
    rw [fetch, Array.getElem?_eq_none hlength] at h
    cases h
  | some b =>
    rw [hp.fetch_eq pc b hb] at h
    rw [Instruction.eq_of_symbol_ofByte h]

/-- The jump that a bracket looks up is there, and stays in the program. -/
theorem Prepared.exists_jump {b : UInt8} (hp : Prepared source p) (hb : source[pc]? = some b)
    (hbracket : bracketStep b ≠ none) : ∃ j, p.jumps[pc]? = some (some j) ∧ j < p.length := by
  obtain ⟨j, hj, hpartners, -⟩ := hp.table.bracket pc b hb hbracket
  refine ⟨j, hj, ?_⟩
  rw [hp.length_eq]
  exact hpartners.lt_length

theorem Prepared.partner_lt {b : UInt8} (hp : Prepared source p) (hb : source[pc]? = some b)
    (hbracket : bracketStep b ≠ none) : p.partner pc < p.length := by
  obtain ⟨j, hj, hlt⟩ := hp.exists_jump hb hbracket
  rw [partner, hj]
  exact hlt

end Program

/-! ## Sound runs -/

namespace Config

/-- A run of the program that may go on, on a tape of `n` cells. -/
structure Sound (s : Setup) (n : Nat) (c : Config) : Prop where
  size_eq : c.tape.size = n
  pointer_lt : c.pointer < n
  pc_le : c.pc ≤ s.program.length

/-- The faults that a sound run may end with: the byte at its place moves off the tape, or its budget
is used up. -/
inductive Fails (s : Setup) (c : Config) : Fault → Prop where
  | right (hbyte : s.program.source[c.pc]? = some 0x3E) (hlast : c.pointer + 1 = c.tape.size) :
      Fails s c (.outOfBounds (lineAt s.program.source c.pc) '>')
  | left (hbyte : s.program.source[c.pc]? = some 0x3C) (hfirst : c.pointer = 0) :
      Fails s c (.outOfBounds (lineAt s.program.source c.pc) '<')
  | exhausted {budget : Int} (hbudget : s.budget = some budget) (hsteps : budget ≤ c.steps) :
      Fails s c (.exhausted budget)

variable {s : Setup} {n : Nat} {c : Config}

theorem sound_start (s : Setup) (input : List UInt8) (hn : 0 < n) : (start n input).Sound s n :=
  ⟨Array.size_replicate, hn, Nat.zero_le _⟩

/-- An instruction of a sound run leaves it sound. Jumps stay in the program since the partner of a
bracket does. -/
theorem Sound.follows {c' : Config} (hp : s.program.Prepared s.program.source) (h : c.Sound s n)
    (hpc : c.pc < s.program.length) (hf : Follows s c c') : c'.Sound s n := by
  have hsize : c'.tape.size = n := hf.size_eq.trans h.size_eq
  have hpointer : c'.pointer < n := by
    rw [← hsize]
    exact hf.onTape (by rw [h.size_eq]; exact h.pointer_lt)
  refine ⟨hsize, hpointer, ?_⟩
  rcases hf.pc_cases with hnext | ⟨hopen, hjump⟩ | ⟨hclose, hjump⟩
  · rw [hnext]
    exact hpc
  · rw [hjump]
    exact hp.partner_lt (hp.getElem?_of_fetch '[' (by rw [hopen]; rfl)) (by decide)
  · rw [hjump]
    exact Nat.le_of_lt (hp.partner_lt (hp.getElem?_of_fetch ']' (by rw [hclose]; rfl)) (by decide))

/-- What blocks an instruction of a sound run is the end of the tape, and the fault has the line of
the byte that moves there. -/
theorem Sound.fails_of_blocked {fault : Fault} (hp : s.program.Prepared s.program.source)
    (h : c.Sound s n) (hpc : c.pc < s.program.length) (hblocked : Blocked s c fault) :
    c.Fails s fault := by
  have hline : (s.program.line? c.pc).getD 0 = lineAt s.program.source c.pc := by
    rw [hp.line?_eq c.pc (by rw [← hp.length_eq]; exact hpc), Option.getD_some]
  cases hblocked with
  | right hfetch hlast =>
    rw [hline]
    exact .right (hp.getElem?_of_fetch '>' (by rw [hfetch]; rfl)) hlast
  | left hfetch hfirst =>
    rw [hline]
    exact .left (hp.getElem?_of_fetch '<' (by rw [hfetch]; rfl)) hfirst
  | noCell hcell => exact absurd h.pointer_lt (by rw [← h.size_eq]; exact hcell)

/-- **What an instruction of a sound run can come to.** -/
theorem Sound.attempt_cases (hp : s.program.Prepared s.program.source) (h : c.Sound s n) :
    c.attempt s = .ended c ∨ (∃ c', c.attempt s = .advanced c' ∧ c'.Sound s n) ∨
      ∃ fault, c.attempt s = .stuck fault c ∧ c.Fails s fault := by
  rcases Config.attempt_cases s c with
    ⟨-, hended⟩ | ⟨hpc, ⟨budget, hbudget, hsteps, hstuck⟩ | ⟨-, hperform⟩⟩
  · exact Or.inl hended
  · exact Or.inr (Or.inr ⟨_, hstuck, .exhausted hbudget hsteps⟩)
  · rcases perform_cases s c with ⟨c', hc', hf⟩ | ⟨fault, hfault, hblocked⟩
    · exact Or.inr (Or.inl ⟨c', hperform.trans hc', h.follows hp hpc hf⟩)
    · exact Or.inr (Or.inr ⟨fault, hperform.trans hfault, h.fails_of_blocked hp hpc hblocked⟩)

theorem Sound.of_advanced {c' : Config} (hp : s.program.Prepared s.program.source)
    (h : c.Sound s n) (hc' : c.attempt s = .advanced c') : c'.Sound s n := by
  obtain ⟨hpc, -, -⟩ := performed_of_advanced hc'
  exact h.follows hp hpc (follows_of_attempt hc')

/-- A sound run that fails where it is, fails in one of the ways that there are. -/
theorem Sound.stuck_of_ending {fault : Fault} (hp : s.program.Prepared s.program.source)
    (h : c.Sound s n) (hending : c.ending? s = some (.failed fault)) :
    c.attempt s = .stuck fault c ∧ c.Fails s fault := by
  obtain ⟨hstuck, hpc, ⟨budget, hbudget, hsteps, rfl⟩ | hblocked⟩ := stuck_of_failed hending
  · exact ⟨hstuck, .exhausted hbudget hsteps⟩
  · exact ⟨hstuck, h.fails_of_blocked hp hpc hblocked⟩

/-- **A sound run stays sound.** -/
theorem Sound.after {d : Config} {k : Nat} (hp : s.program.Prepared s.program.source)
    (h : c.Sound s n) (hd : Config.after s k c = some d) : d.Sound s n :=
  after_induction (P := Sound s n) (fun _ _ hstep hc => hc.of_advanced hp hstep) k c d hd h

end Config

/-! ## Steppers on a machine -/

/-- A machine with `n` cells and the pointer on one of them. -/
structure Machine.Sound (n : Nat) (m : Machine) : Prop where
  size_eq : m.tape.size = n
  pointer_lt : m.pointer < n

theorem Machine.sound_blank {n : Nat} (hn : 0 < n) : (blank n).Sound n :=
  ⟨Array.size_replicate, hn⟩

/-- Every run starts sound on a sound machine. -/
theorem Machine.Sound.start {n : Nat} {m : Machine} (hm : m.Sound n) (s : Setup)
    (input : List UInt8) : (Config.start m.length input).Sound s n := by
  rw [length, hm.size_eq]
  exact Config.sound_start s input (Nat.zero_lt_of_lt hm.pointer_lt)

/-- Wherever a sound run has come to, its machine is sound, whatever it has captured. -/
theorem Config.Sound.machine {s : Setup} {n : Nat} {c : Config} (h : c.Sound s n)
    (captured : Output) : Machine.Sound n ⟨c.tape, c.pointer, captured⟩ :=
  ⟨h.size_eq, h.pointer_lt⟩

namespace Stepper

/-- Where a stepper that waits goes on, on a machine as it is then. -/
def place? (g : Stepper) (m : Machine) : Option Config :=
  match g.phase with
  | .suspended pc steps input => some ⟨pc, steps, m.tape, m.pointer, input, m.captured⟩
  | _ => none

/-- Gives a stepper other input to read from there on. -/
def refill (g : Stepper) (input : List UInt8) : Stepper :=
  match g.phase with
  | .fresh => { g with input }
  | .suspended pc steps _ => { g with phase := .suspended pc steps input }
  | .over => g

/-- A stepper of a prepared program, with its place in the program. -/
structure Sound (g : Stepper) : Prop where
  prepared : g.setup.program.Prepared g.setup.program.source
  pc_le : ∀ pc steps input, g.phase = .suspended pc steps input → pc ≤ g.setup.program.length

variable {n : Nat} {g : Stepper} {m : Machine} {c : Config}

theorem phase_of_place? (h : g.place? m = some c) : g.phase = .suspended c.pc c.steps c.input ∧
    m = ⟨c.tape, c.pointer, c.output⟩ := by
  unfold place? at h
  split at h
  · next hphase =>
    obtain rfl := Option.some.inj h
    exact ⟨hphase, rfl⟩
  · exact absurd h (Option.some_ne_none c).symm

/-- A stepper waits for the instruction at its place. -/
theorem suspend_of_place? (h : g.place? m = some c) : g.suspend c = (g, m) := by
  obtain ⟨hphase, rfl⟩ := phase_of_place? h
  rw [suspend, ← hphase]

theorem next_of_place? (h : g.place? m = some c) :
    g.next m = match c.attempt g.setup with
      | .ended d => (.over, g.finish d)
      | .stuck fault d => (.fault fault, g.finish d)
      | .advanced d =>
        (.state (.ofConfig g.setup.program (some (g.setup.program.fetch c.pc)) d),
          g.suspend d) := by
  have := next_suspend g c
  rwa [suspend_of_place? h] at this

/-- A stepper without a place starts, or is over. -/
theorem next_of_place?_eq_none (h : g.place? m = none) :
    (∃ state, g.next m = (.state state, g.suspend (.start m.length g.input))) ∨
      g.next m = (.over, g, m) := by
  cases hphase : g.phase with
  | fresh => exact Or.inl ⟨_, by rw [next, hphase]; rfl⟩
  | suspended pc steps input =>
    rw [place?, hphase] at h
    exact absurd h (Option.some_ne_none _)
  | «over» => exact Or.inr (by rw [next, hphase])

/-- A sound stepper goes on with a sound run, whatever has been done on the machine. -/
theorem Sound.place (hg : g.Sound) (hm : m.Sound n) (h : g.place? m = some c) :
    c.Sound g.setup n := by
  obtain ⟨hphase, rfl⟩ := phase_of_place? h
  exact ⟨hm.size_eq, hm.pointer_lt, hg.pc_le _ _ _ hphase⟩

theorem Sound.suspend (hg : g.Sound) (hc : c.Sound g.setup n) : (g.suspend c).1.Sound := by
  refine ⟨hg.prepared, fun pc steps input h => ?_⟩
  obtain ⟨rfl, -, -⟩ := Phase.suspended.inj h
  exact hc.pc_le

theorem Sound.finish (hg : g.Sound) : (g.finish c).1.Sound :=
  ⟨hg.prepared, fun _ _ _ h => (nomatch h)⟩

theorem Sound.refill (hg : g.Sound) (input : List UInt8) : (g.refill input).Sound := by
  unfold Stepper.refill
  split
  · exact ⟨hg.prepared, hg.pc_le⟩
  · next pc steps rest hphase =>
    refine ⟨hg.prepared, fun pc' steps' input' h => ?_⟩
    obtain ⟨rfl, rfl, -⟩ := Phase.suspended.inj h
    exact hg.pc_le pc steps rest hphase
  · exact hg

/-- **Advancing a sound stepper** leaves it and the machine sound. -/
theorem Sound.next (hg : g.Sound) (hm : m.Sound n) :
    (g.next m).2.1.Sound ∧ (g.next m).2.2.Sound n := by
  cases hplace : g.place? m with
  | none =>
    rcases next_of_place?_eq_none hplace with ⟨state, h⟩ | h
    · have hstart := hm.start g.setup g.input
      rw [h]
      exact ⟨hg.suspend hstart, hstart.machine _⟩
    · rw [h]
      exact ⟨hg, hm⟩
  | some c =>
    have hc := hg.place hm hplace
    rw [next_of_place? hplace]
    rcases hc.attempt_cases hg.prepared with hended | ⟨d, hd, hsound⟩ | ⟨fault, hstuck, -⟩
    · rw [hended]
      exact ⟨hg.finish, hc.machine _⟩
    · rw [hd]
      exact ⟨hg.suspend hsound, hsound.machine _⟩
    · rw [hstuck]
      exact ⟨hg.finish, hc.machine _⟩

/-- A fault of a stepper comes from the instruction at its place, and leaves the machine alone. -/
theorem Sound.next_fault {fault : Fault} (hg : g.Sound) (hm : m.Sound n)
    (h : (g.next m).1 = .fault fault) :
    ∃ c, g.place? m = some c ∧ c.attempt g.setup = .stuck fault c ∧ c.Fails g.setup fault ∧
      (g.next m).2.2 = m := by
  cases hplace : g.place? m with
  | none =>
    rcases next_of_place?_eq_none hplace with ⟨state, hnext⟩ | hnext
    all_goals
      rw [hnext] at h
      cases h
  | some c =>
    rw [next_of_place? hplace] at h ⊢
    rcases (hg.place hm hplace).attempt_cases hg.prepared with
      hended | ⟨d, hd, -⟩ | ⟨fault', hstuck, hfails⟩
    · rw [hended] at h
      cases h
    · rw [hd] at h
      cases h
    · rw [hstuck] at h ⊢
      cases h
      exact ⟨c, rfl, hstuck, hfails, (phase_of_place? hplace).2.symm⟩

end Stepper

/-! ## Executing on a machine -/

namespace Machine

variable {s : Setup} {n : Nat} {m : Machine} {input : List UInt8} {fuel : Nat}

/-- Executing leaves the machine sound, also when it is given up on the way. -/
theorem Sound.execute (hp : s.program.Prepared s.program.source) (hm : m.Sound n)
    (input : List UInt8) (fuel : Nat) : (m.execute s input fuel).machine.Sound n := by
  obtain ⟨-, hafter⟩ := Config.after_length_trace s fuel (.start m.length input)
  exact ((hm.start s input).after hp hafter).machine _

end Machine

/-! ## Benches -/

/-- A setup whose program was prepared from its source. -/
structure ReadySetup extends Setup where
  ready : Program.prepare program.source = .ok program

theorem ReadySetup.prepared (s : ReadySetup) : s.program.Prepared s.program.source :=
  Program.prepared_source s.ready

/-- The fault that came instead of a state. -/
def Event.fault? : Event → Option Fault
  | .fault f => some f
  | _ => none

theorem Event.fault?_eq_some_iff {e : Event} {f : Fault} : e.fault? = some f ↔ e = .fault f := by
  cases e <;> simp [fault?]

/-- A machine with the steppers made for it, the first one first. -/
structure Bench where
  machine : Machine
  steppers : List Stepper

namespace Bench

/-- What can be done on a bench. -/
inductive Use where
  /-- Runs a program with at most `fuel` attempts. -/
  | execute (s : ReadySetup) (input : List UInt8) (fuel : Nat)
  | reset
  | create (s : ReadySetup) (input : List UInt8)
  | advance (i : Nat)
  /-- Changes what a stepper will read, as another reader of the same input does. -/
  | refill (i : Nat) (input : List UInt8)

/-- A new machine of `n` cells. -/
def ofLength (n : Nat) : Bench := ⟨.blank n, []⟩

/-- Makes one use of a bench. Gives the fault that it raised, if it did, and the bench after it. -/
def use (b : Bench) : Use → Option Fault × Bench
  | .execute s input fuel =>
    let e := b.machine.execute s.toSetup input fuel
    (e.ending.bind Ending.fault?, { b with machine := e.machine })
  | .reset => (none, { b with machine := b.machine.reset })
  | .create s input =>
    (none, { b with steppers := b.steppers ++ [.ofSetup s.toSetup input] })
  | .advance i =>
    match b.steppers[i]? with
    | none => (none, b)
    | some g =>
      let (event, g, machine) := g.next b.machine
      (event.fault?, ⟨machine, b.steppers.set i g⟩)
  | .refill i input => (none, { b with steppers := b.steppers.modify i (·.refill input) })

/-- Makes uses one after the other, whatever they raise. -/
def run (b : Bench) (uses : List Use) : Bench := uses.foldl (fun b u => (b.use u).2) b

/-- A use tries the instruction at `c` in a run with the setup `s`, on a machine that has captured
`captured` so far and has the tape and the pointer of `c`. -/
inductive Tries (b : Bench) : Use → Setup → Config → Output → Prop where
  | execute {s : ReadySetup} {input : List UInt8} {fuel k : Nat} {c : Config} (hk : k < fuel)
      (hafter : Config.after s.toSetup k (.start b.machine.length input) = some c) :
      Tries b (.execute s input fuel) s.toSetup c .empty
  | advance {i : Nat} {g : Stepper} {c : Config} (hg : b.steppers[i]? = some g)
      (hplace : g.place? b.machine = some c) : Tries b (.advance i) g.setup c c.output

/-! ## Sound benches -/

/-- A bench with a sound machine and sound steppers, wherever they wait. -/
structure Sound (n : Nat) (b : Bench) : Prop where
  machine : b.machine.Sound n
  steppers : ∀ g ∈ b.steppers, g.Sound

variable {n : Nat} {b : Bench}

theorem sound_ofLength (hn : 0 < n) : (ofLength n).Sound n :=
  ⟨Machine.sound_blank hn, fun _ h => absurd h List.not_mem_nil⟩

theorem Sound.stepper {i : Nat} {g : Stepper} (h : b.Sound n) (hg : b.steppers[i]? = some g) :
    g.Sound :=
  h.steppers g (List.mem_of_getElem? hg)

/-- **One use leaves a bench sound.** -/
theorem Sound.use (h : b.Sound n) (u : Use) : (b.use u).2.Sound n := by
  cases u with
  | execute s input fuel => exact ⟨h.machine.execute s.prepared input fuel, h.steppers⟩
  | reset =>
    refine ⟨?_, h.steppers⟩
    show b.machine.reset.Sound n
    rw [Machine.reset, Machine.length, h.machine.size_eq]
    exact Machine.sound_blank (Nat.zero_lt_of_lt h.machine.pointer_lt)
  | create s input =>
    refine ⟨h.machine, fun g hg => ?_⟩
    rcases List.mem_append.mp hg with hg | hg
    · exact h.steppers g hg
    · obtain rfl := List.mem_singleton.mp hg
      refine ⟨s.prepared, fun pc steps input hphase => ?_⟩
      cases hphase
  | advance i =>
    cases hg : b.steppers[i]? with
    | none =>
      simp only [Bench.use, hg]
      exact h
    | some g =>
      simp only [Bench.use, hg]
      obtain ⟨hnext, hmachine⟩ := (h.stepper hg).next h.machine
      refine ⟨hmachine, fun g' hg' => ?_⟩
      rcases List.mem_or_eq_of_mem_set hg' with hg' | rfl
      · exact h.steppers g' hg'
      · exact hnext
  | refill i input =>
    refine ⟨h.machine, fun g hg => ?_⟩
    obtain ⟨j, hj⟩ := List.mem_iff_getElem?.mp hg
    simp only [Bench.use, List.getElem?_modify] at hj
    obtain ⟨g', hg', rfl⟩ := Option.map_eq_some_iff.mp hj
    by_cases hij : i = j
    · rw [if_pos hij]
      exact (h.stepper hg').refill input
    · rw [if_neg hij]
      exact h.stepper hg'

/-- **Any sequence of uses leaves a bench sound.** -/
theorem Sound.run (h : b.Sound n) (uses : List Use) : (b.run uses).Sound n := by
  induction uses generalizing b with
  | nil => exact h
  | cons u uses ih => exact ih (h.use u)

/-- Every instruction that is tried on a sound bench is one of a sound run. -/
theorem Sound.tries {u : Use} {s : Setup} {c : Config} {captured : Output} (h : b.Sound n)
    (htries : b.Tries u s c captured) :
    s.program.Prepared s.program.source ∧ c.Sound s n := by
  cases htries with
  | execute hk hafter =>
    exact ⟨ReadySetup.prepared _, (h.machine.start _ _).after (ReadySetup.prepared _) hafter⟩
  | advance hg hplace =>
    exact ⟨(h.stepper hg).prepared, (h.stepper hg).place h.machine hplace⟩

/-- **What a use of a sound bench raises** comes from the last instruction it tried, and that one
leaves the machine as it found it. -/
theorem Sound.raised {u : Use} {fault : Fault} (h : b.Sound n) (hraised : (b.use u).1 = some fault) :
    ∃ s c captured, b.Tries u s c captured ∧ c.attempt s = .stuck fault c ∧ c.Fails s fault ∧
      (b.use u).2.machine = ⟨c.tape, c.pointer, captured⟩ := by
  cases u with
  | execute s input fuel =>
    obtain ⟨ending, hending, hfault⟩ := Option.bind_eq_some_iff.mp hraised
    obtain rfl := Ending.fault?_eq_some_iff.mp hfault
    obtain ⟨k, hk, hends⟩ := Config.execute_eq_some_iff.mp (Prod.ext rfl hending)
    have htries : b.Tries (.execute s input fuel) s.toSetup _ .empty := .execute hk hends.after_eq
    obtain ⟨-, hsound⟩ := h.tries htries
    obtain ⟨hstuck, hfails⟩ := hsound.stuck_of_ending s.prepared hends.ending_eq
    exact ⟨s.toSetup, _, .empty, htries, hstuck, hfails, rfl⟩
  | advance i =>
    cases hg : b.steppers[i]? with
    | none =>
      simp only [Bench.use, hg] at hraised
      cases hraised
    | some g =>
      simp only [Bench.use, hg] at hraised ⊢
      obtain ⟨c, hplace, hstuck, hfails, hmachine⟩ :=
        (h.stepper hg).next_fault h.machine (Event.fault?_eq_some_iff.mp hraised)
      refine ⟨g.setup, c, c.output, .advance hg hplace, hstuck, hfails, ?_⟩
      rw [hmachine]
      exact (Stepper.phase_of_place? hplace).2
  | reset => cases hraised
  | create s input => cases hraised
  | refill i input => cases hraised

/-- A bench on which nothing goes wrong, whatever it is used for next. -/
structure Safe (n : Nat) (b : Bench) : Prop where
  size_eq : b.machine.tape.size = n
  cell_le : ∀ cell ∈ b.machine.tape, cell.toNat ≤ 255
  pointer_lt : b.machine.pointer < n
  pc_le : ∀ g ∈ b.steppers, ∀ pc steps input, g.phase = .suspended pc steps input →
    pc ≤ g.setup.program.length
  /-- Every instruction that is tried finds the machine like this too, and a bracket its jump. -/
  tried : ∀ u s c captured, b.Tries u s c captured →
    c.tape.size = n ∧ c.pointer < n ∧ c.pc ≤ s.program.length ∧
      ∀ byte, s.program.source[c.pc]? = some byte → bracketStep byte ≠ none →
        ∃ j, s.program.jumps[c.pc]? = some (some j)
  /-- The faults that are raised are moves off the tape and used up budgets. They are raised by an
  instruction that is tried, and the run and the machine are as they were before it. -/
  raised : ∀ u fault, (b.use u).1 = some fault →
    ∃ s c captured, b.Tries u s c captured ∧ c.Fails s fault ∧ c.attempt s = .stuck fault c ∧
      (b.use u).2.machine = ⟨c.tape, c.pointer, captured⟩

theorem Sound.safe (h : b.Sound n) : b.Safe n where
  size_eq := h.machine.size_eq
  cell_le _ _ := Nat.le_of_lt_succ (UInt8.toNat_lt _)
  pointer_lt := h.machine.pointer_lt
  pc_le g hg := (h.steppers g hg).pc_le
  tried u s c captured htries := by
    obtain ⟨hp, hc⟩ := h.tries htries
    refine ⟨hc.size_eq, hc.pointer_lt, hc.pc_le, fun byte hbyte hbracket => ?_⟩
    obtain ⟨j, hj, -⟩ := hp.exists_jump hbyte hbracket
    exact ⟨j, hj⟩
  raised u fault hraised := by
    obtain ⟨s, c, captured, htries, hstuck, hfails, hmachine⟩ := h.raised hraised
    exact ⟨s, c, captured, htries, hfails, hstuck, hmachine⟩

end Bench

/-- **A shared machine is safe.** Programs may be executed on it, it may be reset, and steppers may be
made and advanced on it in any order, whichever of them another use has left behind. -/
theorem shared_machine_is_safe {n : Nat} (hn : 0 < n) (uses : List Bench.Use) :
    ((Bench.ofLength n).run uses).Safe n :=
  ((Bench.sound_ofLength hn).run uses).safe

/-- The program `>`, a new line and `<`, which by itself ends normally. -/
def ReadySetup.thereAndBack : ReadySetup where
  program := ⟨[0x3E, 0x0A, 0x3C], #[.moveRight, .inert, .moveLeft], #[1, 1, 2], #[none, none, none]⟩
  debug := false
  budget := none
  ready := rfl

/-- A machine that was reset under a stepper, which has gone right and is about to go left. -/
def Bench.resetUnderStepper : Bench :=
  (ofLength 2).run [.create .thereAndBack [], .advance 0, .advance 0, .advance 0, .reset]

/-- The stepper goes left on the first cell then, and is told so. -/
theorem shared_machine_is_safe_for_stale_stepper :
    0 < 2 ∧ Bench.resetUnderStepper.Safe 2 ∧
      (Bench.resetUnderStepper.use (.advance 0)).1 = some (.outOfBounds 2 '<') := by
  refine ⟨by decide, ?_, rfl⟩
  exact shared_machine_is_safe (by decide) _

end TapeMachine
