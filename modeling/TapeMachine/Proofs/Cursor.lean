import TapeMachine.Proofs.Session

/-!
# A debugger is a cursor over the plain run

What a session shows, told in terms of the plain run alone: the state is the one at the session's
place, and the status and the error say where that is and whether more was attempted there.
-/

namespace TapeMachine

open Config

section Sessions

variable {source : List UInt8} {p : Program} {input : List UInt8} {debug : Bool} {maxSteps : Int}

/-! ## What a session shows -/

/-- Some call since the run began has attempted the instruction after the state reached. -/
def Session.Attempted (T : Trace) (s : Session) : Prop :=
  ∃ call ∈ s.stepping, call.Attempts (fun k => T.states[k]?) s.executed

/-- The session is a cursor over the run `T`, whose place is the sum of what the calls returned. -/
structure Session.IsCursor (T : Trace) (s : Session) : Prop where
  state_eq : T.states[s.executed]? = some s.debugger.state
  /-- It has finished where `T` has its last state and this is the end of the program. -/
  finished_iff : s.debugger.status = .finished ↔
    s.executed + 1 = T.states.size ∧ s.debugger.state.finished = true
  /-- It has failed where `T` leaves the tape after its last state, once that was attempted. -/
  failed_iff : s.debugger.status = .failed ↔
    (∃ line symbol, T.stop = some (.fault (.outOfBounds line symbol))) ∧
      s.executed + 1 = T.states.size ∧ s.Attempted T
  /-- It is exhausted where `T` has used up the budget, once one more instruction was attempted. -/
  exhausted_iff : s.debugger.status = .exhausted ↔
    (∃ budget, T.stop = some (.fault (.exhausted budget))) ∧
      s.executed + 1 = T.states.size ∧ s.Attempted T
  /-- Its error is that of `T`. -/
  error_iff : ∀ fault, s.debugger.error = some fault ↔
    (s.debugger.status = .failed ∨ s.debugger.status = .exhausted) ∧
      T.stop = some (.fault fault)

theorem Session.attempted_iff (s : Session) :
    s.Attempted (plainRun p input debug maxSteps) ↔
      ∃ call ∈ s.stepping, call.Attempts (snapshotAfter ⟨p, debug, some maxSteps⟩
        (.start Machine.defaultLength input)) s.executed := by
  obtain ⟨-, -, -, -, -, -, hstates⟩ := plainRun_spec p input debug maxSteps
  rw [Session.Attempted, funext hstates]

theorem Session.Tracks.finished_iff (hp : p.Prepared source) {s : Session}
    (h : s.Tracks p input debug maxSteps) :
    s.debugger.status = .finished ↔
      s.executed + 1 = (plainRun p input debug maxSteps).states.size ∧
        s.debugger.state.finished = true := by
  obtain ⟨c, hafter, hsnapshot, hstanding⟩ := h.stands
  cases hstanding with
  | waiting hstatus hline _ _ _ =>
    refine ⟨fun h => ?_, fun h => ?_⟩
    · rw [h] at hstatus
      cases hstatus
    · rw [hline] at h
      exact absurd h.2 Bool.false_ne_true
  | finished hstatus hline _ =>
    have hending := (finished_iff_ending hp hafter hsnapshot).mp hline
    have hlast := (plainRun_at_end ⟨hafter, hending⟩).1
    exact ⟨fun _ => ⟨hlast, hline⟩, fun _ => hstatus⟩
  | faulted fault _ hstatus hline _ _ =>
    rw [hstatus, hline]
    refine ⟨fun h => ?_, fun h => absurd h.2 Bool.false_ne_true⟩
    cases fault <;> cases h

/-- The error appears once the instruction that `T` fails at has been attempted. -/
theorem Session.Tracks.error_eq_iff (hp : p.Prepared source) {s : Session}
    (h : s.Tracks p input debug maxSteps) (fault : Fault) :
    s.debugger.error = some fault ↔
      (plainRun p input debug maxSteps).stop = some (.fault fault) ∧
        s.executed + 1 = (plainRun p input debug maxSteps).states.size ∧
        s.Attempted (plainRun p input debug maxSteps) := by
  obtain ⟨c, hafter, hsnapshot, hstanding⟩ := h.stands
  rw [Session.attempted_iff]
  cases hstanding with
  | waiting _ _ herror _ hno =>
    rw [herror]
    exact ⟨fun h => absurd h.symm (Option.some_ne_none fault), fun h => absurd h.2.2 hno⟩
  | finished _ hline herror =>
    have hending := (finished_iff_ending hp hafter hsnapshot).mp hline
    obtain ⟨-, hstop⟩ := plainRun_at_end ⟨hafter, hending⟩
    rw [herror, hstop]
    exact ⟨fun h => absurd h.symm (Option.some_ne_none fault), fun h => nomatch h.1⟩
  | faulted fault' hending _ _ herror hattempted =>
    obtain ⟨hlast, hstop⟩ := plainRun_at_end ⟨hafter, hending⟩
    rw [herror, hstop]
    constructor
    · intro h
      cases h
      exact ⟨rfl, hlast, hattempted⟩
    · rintro ⟨h, -⟩
      cases h
      rfl

/-- The error tells whether a debugger has failed or is exhausted. -/
theorem Session.Tracks.status_iff_error {s : Session} (h : s.Tracks p input debug maxSteps) :
    (s.debugger.status = .failed ↔
      ∃ line symbol, s.debugger.error = some (.outOfBounds line symbol)) ∧
    (s.debugger.status = .exhausted ↔ ∃ budget, s.debugger.error = some (.exhausted budget)) := by
  obtain ⟨c, hafter, -, hstanding⟩ := h.stands
  -- without an error both sides are false
  have hnone : s.debugger.error = none → s.debugger.status ≠ .failed →
      s.debugger.status ≠ .exhausted → (s.debugger.status = .failed ↔
        ∃ line symbol, s.debugger.error = some (.outOfBounds line symbol)) ∧
      (s.debugger.status = .exhausted ↔
        ∃ budget, s.debugger.error = some (.exhausted budget)) := by
    intro herror hfailed hexhausted
    simp [herror, hfailed, hexhausted]
  cases hstanding with
  | waiting hstatus _ herror _ _ =>
    refine hnone herror ?_ ?_
    all_goals
      intro h
      rw [h] at hstatus
      cases hstatus
  | finished hstatus _ herror =>
    exact hnone herror (by rw [hstatus]; decide) (by rw [hstatus]; decide)
  | faulted fault hending hstatus _ herror _ =>
    rcases fault_cases hending (onTape_of_after_start hafter) with
      ⟨line, symbol, rfl⟩ | ⟨budget, -, -, rfl⟩
    · simp [hstatus, herror, Status.ofFault]
    · simp [hstatus, herror, Status.ofFault]

theorem Session.Tracks.isCursor (hp : p.Prepared source) {s : Session}
    (h : s.Tracks p input debug maxSteps) : s.IsCursor (plainRun p input debug maxSteps) := by
  obtain ⟨-, -, hsnapshot, -⟩ := h.stands
  obtain ⟨-, -, -, -, -, -, hstates⟩ := plainRun_spec p input debug maxSteps
  obtain ⟨hfailed, hexhausted⟩ := h.status_iff_error
  have herror := h.error_eq_iff hp
  refine ⟨(hstates s.executed).trans hsnapshot, h.finished_iff hp, ?_, ?_, fun fault => ?_⟩
  · simp only [hfailed, herror, exists_and_right]
  · simp only [hexhausted, herror, exists_and_right]
  · constructor
    · intro hfault
      have hstop := ((herror fault).mp hfault).1
      refine ⟨?_, hstop⟩
      rcases plainRun_stop_cases p input debug maxSteps with h' | ⟨line, symbol, h'⟩ | h'
      · rw [hstop] at h'
        cases h'
      · rw [hstop] at h'
        cases h'
        exact Or.inl (hfailed.mpr ⟨line, symbol, hfault⟩)
      · rw [hstop] at h'
        cases h'
        exact Or.inr (hexhausted.mpr ⟨maxSteps, hfault⟩)
    · rintro ⟨hstatus, hstop⟩
      -- the debugger has some error, and an error is always that of `T`
      obtain ⟨fault', hfault'⟩ : ∃ fault', s.debugger.error = some fault' := by
        rcases hstatus with hstatus | hstatus
        · obtain ⟨line, symbol, hfault⟩ := hfailed.mp hstatus
          exact ⟨_, hfault⟩
        · obtain ⟨budget, hfault⟩ := hexhausted.mp hstatus
          exact ⟨_, hfault⟩
      have hstop' := ((herror fault').mp hfault').1
      rw [hstop] at hstop'
      cases hstop'
      exact hfault'

/-- **A debugger is a cursor over the plain run.** Of a balanced source there is a debugger, and
whatever is called on it, it stays a cursor over the run of the same program, input, flag and
budget. -/
theorem debugger_is_cursor (source input : List UInt8) (debug : Bool) (maxSteps : Int)
    (h : Balanced source) :
    ∃ (p : Program) (d : Debugger), Program.prepare source = .ok p ∧
      Debugger.ofSource source input debug maxSteps = .ok d ∧
      ((plainRun p input debug maxSteps).stop = some .over ∨
        (∃ line symbol, (plainRun p input debug maxSteps).stop
          = some (.fault (.outOfBounds line symbol))) ∨
        (plainRun p input debug maxSteps).stop = some (.fault (.exhausted maxSteps))) ∧
      ∀ calls : List Call,
        ((Session.ofDebugger d).run calls).IsCursor (plainRun p input debug maxSteps) := by
  obtain ⟨p, hprepare⟩ := Program.exists_prepare_of_balanced h
  have hp := Program.prepared_of_prepare hprepare
  refine ⟨p, .start p input debug maxSteps [], hprepare, by rw [Debugger.ofSource, hprepare],
    plainRun_stop_cases p input debug maxSteps, fun calls => ?_⟩
  exact ((Session.tracks_start p input debug maxSteps []).run hp calls).isCursor hp

/-- The debugger of `+[.-]` under some calls, with a budget that ends in the loop. -/
theorem debugger_is_cursor_of_loop :
    Balanced [0x2B, 0x5B, 0x2E, 0x2D, 0x5D] ∧
      ∃ (p : Program) (d : Debugger), Program.prepare [0x2B, 0x5B, 0x2E, 0x2D, 0x5D] = .ok p ∧
        Debugger.ofSource [0x2B, 0x5B, 0x2E, 0x2D, 0x5D] [] false 4 = .ok d ∧
        ((Session.ofDebugger d).run
          [.step 2, .setBreakpoint 1, .resume, .restart, .step (-1), .resume]).IsCursor
          (plainRun p [] false 4) := by
  have h : Balanced [0x2B, 0x5B, 0x2E, 0x2D, 0x5D] :=
    Block.balanced_iff_exists_code.mpr
      ⟨.byte 0x2B rfl (.loop (.byte 0x2E rfl (.byte 0x2D rfl .nil)) .nil), rfl⟩
  obtain ⟨p, d, hp, hd, -, hcursor⟩ := debugger_is_cursor _ [] false 4 h
  exact ⟨h, p, d, hp, hd, hcursor _⟩

end Sessions

end TapeMachine
