import TapeMachine.Proofs.Consistency
import TapeMachine.Proofs.Sharing
import TapeMachine.Proofs.ShownCells

/-!
# What a debugger shows

A debugger shows its last state, and the dump of its machine. The state was taken after the last
instruction that succeeded. It is that of the machine as it is now, since every state is taken from
the machine (`Stepper.shows_next`) and an instruction that fails leaves the machine alone.

* `Debugger.Live`: the invariant, kept by every call
* `Debugger.ShowsMachine`: what can be read in the state, in its summary and in the dump
-/

namespace TapeMachine

/-! ## Windows -/

namespace Window

/-- A window with cells in it ends on the tape. -/
theorem size_eq_zero_or_stop_le (pointer : Int) (length : Nat) :
    (around pointer length).size = 0 ∨
      (around pointer length).start + (around pointer length).size ≤ length := by
  simp only [around, size, lead, rows]
  omega

/-- A pointer on the tape lies in the window around it. -/
theorem mem_indices_around {pointer length : Nat} (h : pointer < length) :
    pointer ∈ (around pointer length).indices := by
  simp only [indices, List.mem_range'_1, around, size, lead, rows]
  omega

section

variable (tape : Array UInt8) (pointer : Int)

theorem length_cells_around :
    ((around pointer tape.size).cells tape).length = (around pointer tape.size).size := by
  have := size_eq_zero_or_stop_le pointer tape.size
  rw [cells, Array.length_toList, Array.size_extract]
  omega

theorem getElem?_of_cells_around {k : Nat} (hk : k < ((around pointer tape.size).cells tape).length) :
    tape[(around pointer tape.size).start + k]?
      = some ((around pointer tape.size).cells tape)[k] := by
  have hstop := size_eq_zero_or_stop_le pointer tape.size
  have hlength := length_cells_around tape pointer
  rw [Array.getElem?_eq_getElem (by omega)]
  simp [cells]

/-- **The cells of a window are those at its indices.** -/
theorem map_cells_around :
    ((around pointer tape.size).cells tape).map some
      = (around pointer tape.size).indices.map (tape[·]?) := by
  have hlength := length_cells_around tape pointer
  refine List.ext_getElem (by simp [indices, hlength]) (fun k hk _ => ?_)
  rw [List.length_map] at hk
  simp [indices, getElem?_of_cells_around tape pointer hk]

/-- A dump shows the cells of the window in their order. -/
theorem dump_cells_eq (pointer : Nat) :
    Dump.cells tape pointer
      = ((around pointer tape.size).cells tape).mapIdx fun i value =>
          ⟨(around pointer tape.size).start + i, value.toNat,
            (around pointer tape.size).start + i == pointer⟩ := by
  have hlength := length_cells_around tape pointer
  refine List.ext_getElem (by simp [Dump.cells, indices, hlength]) (fun k _ hk => ?_)
  rw [List.length_mapIdx] at hk
  simp [Dump.cells, indices, getElem?_of_cells_around tape pointer hk]
  omega

/-- The cell at a pointer on the tape is one of the window. -/
theorem exists_cell_at {pointer : Nat} (h : pointer < tape.size) : ∃ value,
    tape[pointer]? = some value ∧ ((around pointer tape.size).cells tape)[pointer
      - (around pointer tape.size).start]? = some value := by
  obtain ⟨hle, hlt⟩ := List.mem_range'_1.mp (mem_indices_around h)
  have hk : pointer - (around pointer tape.size).start
      < ((around pointer tape.size).cells tape).length := by
    rw [length_cells_around]
    omega
  have hcell := getElem?_of_cells_around tape pointer hk
  rw [Nat.add_sub_of_le hle] at hcell
  exact ⟨_, hcell, List.getElem?_eq_getElem hk⟩

end

end Window

/-! ## The cell that is marked -/

/-- What is marked where the index has a given value is one thing. -/
theorem filter_mapIdx_eq_singleton {α β : Type} {marked : β → Bool} {cells : List α} :
    ∀ {mark : Nat → α → β} {k : Nat} {a : α}, cells[k]? = some a →
      (∀ i b, marked (mark i b) = (i == k)) → (cells.mapIdx mark).filter marked = [mark k a] := by
  induction cells with
  | nil => intro mark k a ha; cases ha
  | cons b rest ih =>
    intro mark k a ha hmark
    rw [List.mapIdx_cons]
    cases k with
    | zero =>
      obtain rfl : b = a := Option.some.inj ha
      have hrest : (rest.mapIdx fun i => mark (i + 1)).filter marked = [] := by
        rw [List.filter_eq_nil_iff]
        intro x hx
        obtain ⟨i, hi, rfl⟩ := List.mem_mapIdx.mp hx
        simp [hmark]
      rw [List.filter_cons_of_pos (by simp [hmark]), hrest]
    | succ k =>
      rw [List.filter_cons_of_neg (by simp [hmark])]
      exact ih ha (fun i b => by simp [hmark])

/-- **One cell of a state is marked, the one at the pointer.** -/
theorem Snapshot.filter_shownCells {s : Snapshot} {value : UInt8} (hle : s.cellsStart ≤ s.pointer)
    (hvalue : s.cells[s.pointer - s.cellsStart]? = some value) :
    s.shownCells.filter (·.marked) = [⟨s.pointer, value.toNat, true⟩] := by
  have hindex : s.cellsStart + (s.pointer - s.cellsStart) = s.pointer := Nat.add_sub_of_le hle
  rw [shownCells, filter_mapIdx_eq_singleton hvalue]
  · simp [hindex]
  · intro i b
    simp only [beq_eq_beq]
    omega

/-! ## States of a machine -/

/-- A state shows a machine as it is. -/
structure Snapshot.Shows (s : Snapshot) (m : Machine) : Prop where
  pointer_eq : s.pointer = m.pointer
  cellsStart_eq : s.cellsStart = (Window.around m.pointer m.length).start
  cells_eq : s.cells = (Window.around m.pointer m.length).cells m.tape
  output_eq : s.output = m.captured

theorem Snapshot.Shows.ofConfig (p : Program) (command : Option Instruction) (g : Stepper)
    (c : Config) : (Snapshot.ofConfig p command c).Shows (g.suspend c).2 := ⟨rfl, rfl, rfl, rfl⟩

namespace Snapshot.Shows

variable {s : Snapshot} {m : Machine} {n : Nat}

/-- The dump of the machine shows the cells of the state. -/
theorem dump_cells_eq (h : s.Shows m) : Dump.cells m.tape m.pointer = s.shownCells := by
  rw [Window.dump_cells_eq, shownCells, h.cells_eq, h.cellsStart_eq, h.pointer_eq]
  rfl

theorem pointer_mem (h : s.Shows m) (hm : m.Sound n) :
    s.cellsStart ≤ s.pointer ∧ s.pointer ∈ (Window.around s.pointer n).indices := by
  have hmem := Window.mem_indices_around hm.pointer_lt
  rw [h.cellsStart_eq, Machine.length, hm.size_eq, h.pointer_eq]
  exact ⟨(List.mem_range'_1.mp hmem).1, hmem⟩

/-- The cell at the pointer is shown. -/
theorem exists_value (h : s.Shows m) (hm : m.Sound n) : ∃ value,
    m.tape[s.pointer]? = some value ∧ s.cells[s.pointer - s.cellsStart]? = some value := by
  have hlt : m.pointer < m.tape.size := by
    rw [hm.size_eq]
    exact hm.pointer_lt
  rw [h.pointer_eq, h.cellsStart_eq, h.cells_eq]
  exact Window.exists_cell_at m.tape hlt

end Snapshot.Shows

namespace Stepper

variable {n : Nat} {g g' : Stepper} {m m' : Machine}

/-- **Every state shows the machine that it leaves.** -/
theorem shows_next {state : Snapshot} (h : g.next m = (.state state, g', m')) : state.Shows m' := by
  cases hphase : g.phase with
  | fresh =>
    rw [next, hphase] at h
    cases h
    exact .ofConfig _ _ g _
  | suspended pc steps input =>
    have hplace : g.place? m = some ⟨pc, steps, m.tape, m.pointer, input, m.captured⟩ := by
      rw [place?, hphase]
    rw [next_of_place? hplace] at h
    split at h
    · cases h
    · cases h
    · cases h
      exact .ofConfig _ _ g _
  | «over» =>
    rw [next, hphase] at h
    cases h

/-- A fault leaves the machine alone. -/
theorem Sound.machine_eq_of_fault {fault : Fault} (hg : g.Sound) (hm : m.Sound n)
    (h : g.next m = (.fault fault, g', m')) : m' = m := by
  obtain ⟨-, -, -, -, hsame⟩ := hg.next_fault hm (by rw [h])
  rwa [h] at hsame

theorem Sound.of_next {event : Event} (hg : g.Sound) (hm : m.Sound n)
    (h : g.next m = (event, g', m')) : g'.Sound ∧ m'.Sound n := by
  have hnext := hg.next hm
  rwa [h] at hnext

end Stepper

/-! ## Debuggers -/

namespace Debugger

/-- What is kept while a call is under way. -/
structure Progress.Live (P : Progress) : Prop where
  stepper : P.stepper.Sound
  machine : P.machine.Sound Machine.defaultLength
  shows : P.state.Shows P.machine

/-- **A call comes to a state that shows its machine.** -/
theorem ComesTo.live {stop : Stop} {breakpoints : List Nat} {executed : Nat} {m : Machine}
    {g : Stepper} {state : Snapshot} {P : Progress}
    (h : ComesTo stop breakpoints executed m g state P) (hg : g.Sound)
    (hm : m.Sound Machine.defaultLength) (hstate : state.Shows m) : P.Live := by
  induction h with
  | reached => exact ⟨hg, hm, hstate⟩
  | finished _ hnext =>
    obtain ⟨hg', hm'⟩ := hg.of_next hm hnext
    exact ⟨hg', hm', Stepper.shows_next hnext⟩
  | entered _ hnext =>
    obtain ⟨hg', hm'⟩ := hg.of_next hm hnext
    exact ⟨hg', hm', Stepper.shows_next hnext⟩
  | goesOn _ hnext _ _ _ ih =>
    obtain ⟨hg', hm'⟩ := hg.of_next hm hnext
    exact ih hg' hm' (Stepper.shows_next hnext)
  | failed _ hnext =>
    obtain ⟨hg', hm'⟩ := hg.of_next hm hnext
    obtain rfl := hg.machine_eq_of_fault hm hnext
    exact ⟨hg', hm', hstate⟩
  | exhausted _ hnext =>
    obtain ⟨hg', hm'⟩ := hg.of_next hm hnext
    obtain rfl := hg.machine_eq_of_fault hm hnext
    exact ⟨hg', hm', hstate⟩

/-- The state of a debugger shows its machine, and the next one will. -/
structure Live (d : Debugger) : Prop where
  reached : d.Reached
  prepared : d.program.Prepared d.program.source
  stepper : d.stepper.Sound
  machine : d.machine.Sound Machine.defaultLength
  shows : d.state.Shows d.machine

theorem live_start {p : Program} (hp : p.Prepared p.source) (input : List UInt8) (debug : Bool)
    (maxSteps : Int) (breakpoints : List Nat) : (start p input debug maxSteps breakpoints).Live := by
  have hblank := Machine.sound_blank (n := Machine.defaultLength) (by decide)
  have hnew : (Stepper.ofSetup ⟨p, debug, some maxSteps⟩ input).Sound :=
    ⟨hp, fun _ _ _ h => nomatch h⟩
  obtain ⟨hstepper, hmachine⟩ := hnew.next hblank
  exact ⟨⟨_, _, _, _, _, _, hp, Session.tracks_start p input debug maxSteps breakpoints, rfl⟩, hp,
    hstepper, hmachine, .ofConfig _ _ (.ofSetup ⟨p, debug, some maxSteps⟩ input) _⟩

namespace Live

variable {d : Debugger}

theorem advance (h : d.Live) (stop : Stop) : (d.advance stop).2.Live := by
  have hreached := h.reached.advance stop
  cases hhalted : d.halted with
  | true =>
    rw [advance_of_halted hhalted]
    exact h
  | false =>
    obtain ⟨P, hP, hadvance⟩ := h.reached.comesTo hhalted stop
    obtain ⟨hstepper, hmachine, hshows⟩ := hP.live h.stepper h.machine h.shows
    rw [hadvance] at hreached ⊢
    exact ⟨hreached, h.prepared, hstepper, hmachine, hshows⟩

theorem breakpoints (h : d.Live) (breakpoints : List Nat) : { d with breakpoints }.Live :=
  ⟨h.reached.breakpoints breakpoints, h.prepared, h.stepper, h.machine, h.shows⟩

end Live

end Debugger

/-- **One call keeps the invariant.** -/
theorem Session.live_call {s : Session} (h : s.debugger.Live) (call : Call) :
    (s.call call).debugger.Live := by
  rcases s.call_cases call with ⟨stop, hcall⟩ | ⟨-, hcall⟩ | ⟨breakpoints, hcall⟩
  · rw [hcall]
    exact h.advance stop
  · rw [hcall]
    exact Debugger.live_start h.prepared _ _ _ _
  · rw [hcall]
    exact h.breakpoints breakpoints

/-- **Every sequence of calls keeps the invariant.** -/
theorem Session.live_run (calls : List Call) :
    ∀ {s : Session}, s.debugger.Live → (s.run calls).debugger.Live := by
  induction calls with
  | nil => intro s h; exact h
  | cons call calls ih => intro s h; exact ih (live_call h call)

/-! ## What can be seen -/

/-- What a debugger shows is its machine as it is: in the state, and in the texts of the state and of
the dump. -/
structure Debugger.ShowsMachine (d : Debugger) : Prop where
  length_eq : d.machine.length = Machine.defaultLength
  pointer_eq : d.state.pointer = d.machine.pointer
  output_eq : d.state.output = d.machine.captured
  cellsStart_eq : d.state.cellsStart
    = (Window.around d.state.pointer Machine.defaultLength).start
  /-- The cells of the window are all on the tape. -/
  cells_eq : d.state.cells.map some
    = (Window.around d.state.pointer Machine.defaultLength).indices.map (d.machine.tape[·]?)
  pointer_mem : d.state.pointer
    ∈ (Window.around d.state.pointer Machine.defaultLength).indices
  /-- The rows of the dump are the cells of the state, one after the other. -/
  dump_eq : Dump.read? d.dump = some (d.state.shownCells.map .ofCell)
  summary_eq : Snapshot.readCells? d.state.summary = some d.state.shownCells
  marked_eq : ∃ value, d.machine.tape[d.state.pointer]? = some value ∧
    d.state.shownCells.filter (·.marked) = [⟨d.state.pointer, value.toNat, true⟩]

theorem Debugger.Live.showsMachine {d : Debugger} (h : d.Live) : d.ShowsMachine := by
  have hpointer := h.shows.pointer_eq
  have hlength : d.machine.length = Machine.defaultLength := h.machine.size_eq
  obtain ⟨value, htape, hvalue⟩ := h.shows.exists_value h.machine
  obtain ⟨hle, hmem⟩ := h.shows.pointer_mem h.machine
  have hne : d.state.cells ≠ [] := by
    rintro hnil
    rw [hnil] at hvalue
    cases hvalue
  exact {
    length_eq := hlength
    pointer_eq := hpointer
    output_eq := h.shows.output_eq
    cellsStart_eq := by rw [h.shows.cellsStart_eq, hlength, hpointer]
    cells_eq := by
      rw [h.shows.cells_eq, ← hlength, hpointer]
      exact Window.map_cells_around _ _
    pointer_mem := hmem
    dump_eq := by rw [Debugger.dump, Dump.read?_render, h.shows.dump_cells_eq]
    summary_eq := Snapshot.readCells?_summary _ hne
    marked_eq := ⟨value, htape, Snapshot.filter_shownCells hle hvalue⟩ }

/-- **What a debugger shows is the live machine**, whatever has been called on it, and also after its
run has failed or its budget is used up. -/
theorem debugger_shows_machine {source input : List UInt8} {debug : Bool} {maxSteps : Int}
    {new : Debugger} (hnew : Debugger.ofSource source input debug maxSteps = .ok new)
    (calls : List Call) : ((Session.ofDebugger new).run calls).debugger.ShowsMachine := by
  refine (Session.live_run calls ?_).showsMachine
  unfold Debugger.ofSource at hnew
  split at hnew
  · next p hp =>
    cases hnew
    exact Debugger.live_start (Program.prepared_source hp) _ _ _ _
  · cases hnew

/-- The debugger of `+.<` is stepped to the move off the tape and beyond. -/
theorem debugger_shows_machine_after_failure :
    ∃ new, Debugger.ofSource [0x2B, 0x2E, 0x3C] [] false 9 = .ok new ∧
      ((Session.ofDebugger new).run
        [.step 2, .setBreakpoint 1, .resume, .step 4]).debugger.ShowsMachine := by
  obtain ⟨p, hp⟩ : ∃ p, Program.prepare [0x2B, 0x2E, 0x3C] = .ok p := ⟨_, rfl⟩
  obtain ⟨new, hnew⟩ : ∃ new, Debugger.ofSource [0x2B, 0x2E, 0x3C] [] false 9 = .ok new :=
    ⟨_, by rw [Debugger.ofSource, hp]⟩
  exact ⟨new, hnew, debugger_shows_machine hnew [.step 2, .setBreakpoint 1, .resume, .step 4]⟩

end TapeMachine
