import TapeMachine.Proofs.PlainRun

/-!
# Sessions with a debugger

A session is a debugger with what was asked of it since its run began: how many instructions it says
it has done, and which calls made it do them. Whatever the calls were, the debugger is at the state
of the plain run with that number (`Session.Tracks`). Calls only choose how far it goes.

* `progress_spec`: what one stepping call does, from `Underway` to `Arrived`
* `Session.Tracks.run`: what any sequence of calls keeps
-/

namespace TapeMachine

/-! ## Sessions -/

/-- A call on a debugger. -/
inductive Call where
  | step (count : Int)
  | resume
  | restart
  | setBreakpoint (line : Int)
  | clearBreakpoint (line : Int)

/-- A call that makes a debugger do instructions. -/
structure SteppingCall where
  /-- The number of instructions done before it. -/
  start : Nat
  stop : Debugger.Stop
  /-- The breakpoints at the time. -/
  breakpoints : List Nat

/-- A debugger with its history since the run began. -/
structure Session where
  debugger : Debugger
  /-- The number of instructions that the calls have returned, all in all. -/
  executed : Nat
  /-- The stepping calls, the last one first. -/
  stepping : List SteppingCall

namespace Session

/-- A run begins. -/
def ofDebugger (d : Debugger) : Session := ⟨d, 0, []⟩

/-- Takes down a stepping call: what it returned, and the debugger after it. -/
def record (s : Session) (stop : Debugger.Stop) (result : Nat × Debugger) : Session :=
  ⟨result.2, s.executed + result.1, ⟨s.executed, stop, s.debugger.breakpoints⟩ :: s.stepping⟩

/-- Makes one call. A breakpoint that is refused changes nothing. -/
def call (s : Session) : Call → Session
  | .step count => s.record (.after count) (s.debugger.step count)
  | .resume => s.record .atBreakpoint s.debugger.resume
  | .restart => ofDebugger s.debugger.restart
  | .setBreakpoint line =>
    match s.debugger.setBreakpoint line with
    | .ok d => { s with debugger := d }
    | .error _ => s
  | .clearBreakpoint line => { s with debugger := (s.debugger.clearBreakpoint line).2 }

/-- Makes calls one after the other. -/
def run (s : Session) (calls : List Call) : Session := calls.foldl call s

/-- A call advances the debugger, restarts it, or changes its breakpoints at most. -/
theorem call_cases (s : Session) (call : Call) :
    (∃ stop, s.call call = s.record stop (s.debugger.advance stop)) ∨
    (call = .restart ∧ s.call call = ofDebugger s.debugger.restart) ∨
    ∃ breakpoints, s.call call = { s with debugger := { s.debugger with breakpoints } } := by
  cases call with
  | step count => exact Or.inl ⟨.after count, rfl⟩
  | resume => exact Or.inl ⟨.atBreakpoint, rfl⟩
  | restart => exact Or.inr (Or.inl ⟨rfl, rfl⟩)
  | setBreakpoint line =>
    refine Or.inr (Or.inr ?_)
    rw [Session.call, Debugger.setBreakpoint]
    by_cases hline : 1 ≤ line ∧ line ≤ s.debugger.lineCount
    · rw [if_pos hline]
      exact ⟨_, rfl⟩
    · rw [if_neg hline]
      exact ⟨s.debugger.breakpoints, rfl⟩
  | clearBreakpoint line =>
    refine Or.inr (Or.inr ?_)
    rw [Session.call, Debugger.clearBreakpoint]
    by_cases hline : s.debugger.breakpoints.any (fun l => (l : Int) = line) = true
    · rw [if_pos hline]
      exact ⟨_, rfl⟩
    · rw [if_neg hline]
      exact ⟨s.debugger.breakpoints, rfl⟩

end Session

/-! ## Attempts -/

namespace SteppingCall

/-- The call is done at the `j`-th of the states `T`, before the instruction after it: it has done
as many instructions as were asked for, or the state has entered a line with a breakpoint. -/
def StopsAt (T : Nat → Option Snapshot) (call : SteppingCall) (j : Nat) : Prop :=
  match call.stop with
  | .after count => call.start + count ≤ j
  | .atBreakpoint =>
    call.start < j ∧ ∃ before here line, T (j - 1) = some before ∧ T j = some here ∧
      here.line = some line ∧ before.line ≠ some line ∧ line ∈ call.breakpoints

/-- The call attempts the instruction after the `k`-th of the states `T`. -/
def Attempts (T : Nat → Option Snapshot) (call : SteppingCall) (k : Nat) : Prop :=
  call.start ≤ k ∧ ∀ j, call.start ≤ j → j ≤ k → ¬ call.StopsAt T j

theorem Attempts.of_le {T : Nat → Option Snapshot} {call : SteppingCall} {k k' : Nat}
    (h : call.Attempts T k') (hstart : call.start ≤ k) (hk : k ≤ k') : call.Attempts T k :=
  ⟨hstart, fun j hj hjk => h.2 j hj (Nat.le_trans hjk hk)⟩

theorem not_attempts_of_stopsAt {T : Nat → Option Snapshot} {call : SteppingCall} {k : Nat}
    (h : call.StopsAt T k) : ¬ call.Attempts T k :=
  fun ha => ha.2 k ha.1 (Nat.le_refl k) h

variable {T : Nat → Option Snapshot} {stop : Debugger.Stop} {start k : Nat}
  {breakpoints : List Nat}

/-- A count is reached where the call stops. -/
theorem stopsAt_of_reached (T : Nat → Option Snapshot) (breakpoints : List Nat) (hk : start ≤ k)
    (h : stop.reached (k - start) = true) :
    StopsAt T ⟨start, stop, breakpoints⟩ k := by
  cases stop with
  | after count =>
    have hcount : count ≤ ((k - start : Nat) : Int) := of_decide_eq_true h
    show (start : Int) + count ≤ k
    omega
  | atBreakpoint => exact absurd h Bool.false_ne_true

theorem not_stopsAt_of_not_reached {count : Int} (hk : start ≤ k)
    (h : ¬ (Debugger.Stop.after count).reached (k - start) = true) :
    ¬ StopsAt T ⟨start, .after count, breakpoints⟩ k := by
  intro hstops
  have hcount : (start : Int) + count ≤ k := hstops
  exact h (decide_eq_true (by omega))

/-- A line with a breakpoint is entered where the call stops. -/
theorem enters_iff_stopsAt {before here : Snapshot} (hk : start ≤ k) (hbefore : T k = some before)
    (hhere : T (k + 1) = some here) :
    Debugger.Stop.atBreakpoint.enters breakpoints before.line here.line = true ↔
      StopsAt T ⟨start, .atBreakpoint, breakpoints⟩ (k + 1) := by
  have hstops : StopsAt T ⟨start, .atBreakpoint, breakpoints⟩ (k + 1) ↔
      ∃ line, here.line = some line ∧ before.line ≠ some line ∧ line ∈ breakpoints := by
    constructor
    · rintro ⟨-, b, h, line, hb, hh, hrest⟩
      rw [Nat.add_sub_cancel, hbefore] at hb
      rw [hhere] at hh
      cases hb
      cases hh
      exact ⟨line, hrest⟩
    · rintro ⟨line, hrest⟩
      exact ⟨Nat.lt_succ_of_le hk, before, here, line, hbefore, hhere, hrest⟩
  rw [hstops]
  unfold Debugger.Stop.enters
  cases here.line with
  | none => simp
  | some n =>
    rw [Bool.and_eq_true, bne_iff_ne, List.contains_iff_mem]
    constructor
    · rintro ⟨hne, hmem⟩
      exact ⟨n, rfl, hne.symm, hmem⟩
    · rintro ⟨line, hline, hne, hmem⟩
      cases hline
      exact ⟨hne.symm, hmem⟩

end SteppingCall

/-! ## Where a debugger stands -/

open Config

/-- What a debugger says of itself at the configuration `c` of the run of the stepper `g`. -/
inductive Standing (g : Stepper) (c : Config) (attempted : Prop) (stepper : Stepper)
    (machine : Machine) (state : Snapshot) (error : Option Fault) (status : Status) : Prop where
  /-- It waits, and nobody has attempted the next instruction. -/
  | waiting (hstatus : status.halted = false) (hstate : state.finished = false)
      (herror : error = none) (hstepper : (stepper, machine) = g.suspend c) (hno : ¬ attempted)
  | finished (hstatus : status = .finished) (hstate : state.finished = true)
      (herror : error = none)
  /-- The next instruction was attempted, and the run ends with a fault there. -/
  | faulted (fault : Fault) (hending : c.ending? g.setup = some (.failed fault))
      (hstatus : status = .ofFault fault) (hstate : state.finished = false)
      (herror : error = some fault) (hattempted : attempted)

/-! ## A stepping call -/

section Advance

variable {source : List UInt8} {g : Stepper} {c₀ c : Config} {call : SteppingCall} {k : Nat}
  {state : Snapshot}

/-- The call has come to the `k`-th state of the run from `c₀`, and is not over. -/
structure SteppingCall.Underway (g : Stepper) (c₀ : Config) (call : SteppingCall) (k : Nat)
    (c : Config) (state : Snapshot) : Prop where
  after_eq : after g.setup k c₀ = some c
  snapshot_eq : snapshotAfter g.setup c₀ k = some state
  unfinished : state.finished = false
  start_le : call.start ≤ k
  before : ∀ j, call.start ≤ j → j < k → ¬ call.StopsAt (snapshotAfter g.setup c₀) j
  /-- Whether a breakpoint is entered was asked when the state was reached. -/
  not_entered : call.stop = .atBreakpoint → ¬ call.StopsAt (snapshotAfter g.setup c₀) k

/-- The call is over at the `k`-th state of the run from `c₀`. -/
structure SteppingCall.Arrived (g : Stepper) (c₀ : Config) (call : SteppingCall) (k : Nat)
    (c : Config) (P : Debugger.Progress) : Prop where
  executed_eq : P.executed = k - call.start
  after_eq : after g.setup k c₀ = some c
  snapshot_eq : snapshotAfter g.setup c₀ k = some P.state
  standing : Standing g c (call.Attempts (snapshotAfter g.setup c₀) k) P.stepper P.machine P.state
    P.error P.status
  passed : ∀ j, call.start ≤ j → j < k → ¬ call.StopsAt (snapshotAfter g.setup c₀) j
  /-- A call that goes on to a breakpoint does not stop short of it. -/
  status_eq : call.stop = .atBreakpoint → P.status.halted = false → P.status = .breakpoint

namespace SteppingCall.Underway

/-- A call that has done as much as was asked for is over. -/
theorem arrived_of_reached (h : call.Underway g c₀ k c state)
    (hreached : call.stop.reached (k - call.start) = true) :
    call.Arrived g c₀ k c
      ⟨k - call.start, (g.suspend c).2, (g.suspend c).1, state, none, .paused⟩ :=
  ⟨rfl, h.after_eq, h.snapshot_eq, .waiting rfl h.unfinished rfl rfl
    (not_attempts_of_stopsAt (stopsAt_of_reached _ _ h.start_le hreached)), h.before,
    fun hstop => by rw [hstop] at hreached; exact absurd hreached Bool.false_ne_true⟩

/-- A call that has not done as much as was asked for attempts the next instruction. -/
theorem attempts (h : call.Underway g c₀ k c state)
    (hreached : ¬ call.stop.reached (k - call.start) = true) :
    call.Attempts (snapshotAfter g.setup c₀) k := by
  refine ⟨h.start_le, fun j hj hjk => ?_⟩
  rcases Nat.lt_or_eq_of_le hjk with hlt | rfl
  · exact h.before j hj hlt
  · obtain ⟨start, stop, breakpoints⟩ := call
    cases stop with
    | after count => exact not_stopsAt_of_not_reached h.start_le hreached
    | atBreakpoint => exact h.not_entered rfl

/-- The state after the instruction enters a line with a breakpoint where the call stops. -/
theorem stopsAt_of_enters {state' : Snapshot} (h : call.Underway g c₀ k c state)
    (hsnapshot : snapshotAfter g.setup c₀ (k + 1) = some state')
    (henters : call.stop.enters call.breakpoints state.line state'.line = true) :
    call.StopsAt (snapshotAfter g.setup c₀) (k + 1) := by
  obtain ⟨start, stop, breakpoints⟩ := call
  cases stop with
  | after count => exact absurd henters Bool.false_ne_true
  | atBreakpoint => exact (enters_iff_stopsAt h.start_le h.snapshot_eq hsnapshot).mp henters

/-- One instruction further the call is still under way, if the state there does not end it. -/
theorem succ {d : Config} {state' : Snapshot} (h : call.Underway g c₀ k c state)
    (hattempts : call.Attempts (snapshotAfter g.setup c₀) k)
    (hafter : after g.setup (k + 1) c₀ = some d)
    (hsnapshot : snapshotAfter g.setup c₀ (k + 1) = some state')
    (hfinished : state'.finished = false)
    (henters : ¬ call.stop.enters call.breakpoints state.line state'.line = true) :
    call.Underway g c₀ (k + 1) d state' := by
  refine ⟨hafter, hsnapshot, hfinished, Nat.le_succ_of_le h.start_le,
    fun j hj hjk => hattempts.2 j hj (Nat.le_of_lt_succ hjk), ?_⟩
  obtain ⟨start, stop, breakpoints⟩ := call
  rintro rfl hstops
  exact henters ((enters_iff_stopsAt h.start_le h.snapshot_eq hsnapshot).mpr hstops)

end SteppingCall.Underway

/-- **Advancing goes along the plain run.** -/
theorem progress_spec {budget : Int} (hp : g.setup.program.Prepared source)
    (hbudget : g.setup.budget = some budget) (hc₀ : c₀.steps = 0) :
    ∀ (fuel k : Nat) (c : Config) (state : Snapshot), call.Underway g c₀ k c state →
      budget.toNat - k < fuel →
      ∃ k' c', k ≤ k' ∧ call.Arrived g c₀ k' c' (Debugger.progress call.stop call.breakpoints fuel
        (k - call.start) (g.suspend c).2 (g.suspend c).1 state) := by
  intro fuel
  induction fuel with
  | zero => intro k c state _ hfuel; exact absurd hfuel (Nat.not_lt_zero _)
  | succ fuel ih =>
    intro k c state h hfuel
    rw [Debugger.progress]
    by_cases hreached : call.stop.reached (k - call.start) = true
    · rw [if_pos hreached]
      exact ⟨k, c, Nat.le_refl k, h.arrived_of_reached hreached⟩
    rw [if_neg hreached, Stepper.next_suspend]
    have hattempts := h.attempts hreached
    have hpassed : ∀ j, call.start ≤ j → j < k + 1 →
        ¬ call.StopsAt (snapshotAfter g.setup c₀) j :=
      fun j hj hjk => hattempts.2 j hj (Nat.le_of_lt_succ hjk)
    rcases advanced_or_stuck hp hbudget hc₀ h.after_eq h.snapshot_eq h.unfinished with
      ⟨d, hd, hafter, hsnapshot, hlt⟩ | ⟨fault, hc⟩
    · simp only [hd]
      have hexecuted : k - call.start + 1 = k + 1 - call.start := by
        have := h.start_le
        omega
      rw [hexecuted]
      by_cases hfinished : (Snapshot.ofConfig g.setup.program
          (some (g.setup.program.fetch c.pc)) d).finished = true
      · rw [if_pos hfinished]
        exact ⟨k + 1, d, Nat.le_succ k, rfl, hafter, hsnapshot, .finished rfl hfinished rfl,
          hpassed, fun _ hhalted => absurd hhalted.symm Bool.false_ne_true⟩
      rw [if_neg hfinished]
      replace hfinished := Bool.eq_false_of_not_eq_true hfinished
      by_cases henters : call.stop.enters call.breakpoints state.line (Snapshot.ofConfig
          g.setup.program (some (g.setup.program.fetch c.pc)) d).line = true
      · rw [if_pos henters]
        have hstops := h.stopsAt_of_enters hsnapshot henters
        exact ⟨k + 1, d, Nat.le_succ k, rfl, hafter, hsnapshot,
          .waiting rfl hfinished rfl rfl (SteppingCall.not_attempts_of_stopsAt hstops),
          hpassed, fun _ _ => rfl⟩
      · rw [if_neg henters]
        -- every instruction is done within the budget, so there is fuel for the rest
        obtain ⟨k', c', hk', harrived⟩ := ih (k + 1) d _
          (h.succ hattempts hafter hsnapshot hfinished henters) (by omega)
        exact ⟨k', c', Nat.le_of_succ_le hk', harrived⟩
    · simp only [hc]
      exact ⟨k, c, Nat.le_refl k, rfl, h.after_eq, h.snapshot_eq,
        .faulted fault (by rw [ending?, hc]) rfl h.unfinished rfl hattempts, h.before,
        fun _ hhalted => by cases fault <;> cases hhalted⟩

end Advance

/-! ## Every session tracks the plain run -/

theorem Debugger.advance_of_halted {d : Debugger} (h : d.halted = true) (stop : Stop) :
    d.advance stop = (0, d) := by
  rw [advance, if_pos h]

theorem Debugger.advance_of_not_halted {d : Debugger} (h : d.halted = false) (stop : Stop) :
    d.advance stop =
      let P := progress stop d.breakpoints (d.maxSteps.toNat - d.state.step + 1) 0 d.machine
        d.stepper d.state
      (P.executed, { d with
        machine := P.machine, stepper := P.stepper, state := P.state
        error := P.error, status := P.status }) := by
  rw [advance, if_neg (by rw [h]; exact Bool.false_ne_true)]

section Sessions

variable {source : List UInt8} {p : Program} {input : List UInt8} {debug : Bool} {maxSteps : Int}

/-- **The invariant of a session.** The debugger is at the state of the plain run whose number is
the sum of what its calls returned. -/
structure Session.Tracks (p : Program) (input : List UInt8) (debug : Bool) (maxSteps : Int)
    (s : Session) : Prop where
  program_eq : s.debugger.program = p
  input_eq : s.debugger.input = input
  debug_eq : s.debugger.debug = debug
  maxSteps_eq : s.debugger.maxSteps = maxSteps
  start_le : ∀ call ∈ s.stepping, call.start ≤ s.executed
  stands : ∃ c,
    after ⟨p, debug, some maxSteps⟩ s.executed (.start Machine.defaultLength input) = some c ∧
    snapshotAfter ⟨p, debug, some maxSteps⟩ (.start Machine.defaultLength input) s.executed
      = some s.debugger.state ∧
    Standing (.ofSetup ⟨p, debug, some maxSteps⟩ input) c
      (∃ call ∈ s.stepping, call.Attempts
        (snapshotAfter ⟨p, debug, some maxSteps⟩ (.start Machine.defaultLength input)) s.executed)
      s.debugger.stepper s.debugger.machine s.debugger.state s.debugger.error s.debugger.status

/-- The step count of the state is what the calls have returned, all in all. -/
theorem Session.Tracks.step_eq {s : Session} (h : s.Tracks p input debug maxSteps) :
    s.debugger.state.step = s.executed := by
  obtain ⟨c, hafter, hsnapshot, -⟩ := h.stands
  obtain ⟨command, hcommand⟩ := exists_snapshotAfter hafter
  rw [hsnapshot, Option.some.injEq] at hcommand
  rw [hcommand]
  exact (steps_after _ _ c hafter).trans (Nat.zero_add _)

theorem Session.tracks_start (p : Program) (input : List UInt8) (debug : Bool) (maxSteps : Int)
    (breakpoints : List Nat) :
    (ofDebugger (.start p input debug maxSteps breakpoints)).Tracks p input debug maxSteps := by
  have hlength : (Machine.blank Machine.defaultLength).length = Machine.defaultLength :=
    Machine.length_blank _
  refine ⟨rfl, rfl, rfl, rfl, fun call hcall => absurd hcall List.not_mem_nil, _,
    after_zero _ _, ?_⟩
  simp only [ofDebugger, Debugger.start, Stepper.begin, hlength]
  refine ⟨rfl, ?_⟩
  by_cases hfinished :
      (Snapshot.ofConfig p none (.start Machine.defaultLength input)).finished = true
  · exact .finished (if_pos hfinished) hfinished rfl
  · have hpaused : Status.ofState (Snapshot.ofConfig p none (.start Machine.defaultLength input))
        = .paused := if_neg hfinished
    refine .waiting ?_ (Bool.eq_false_of_not_eq_true hfinished) rfl rfl ?_
    · exact congrArg Status.halted hpaused
    · rintro ⟨call, hcall, -⟩
      exact List.not_mem_nil hcall

theorem Standing.not_halted {g : Stepper} {c : Config} {attempted : Prop} {stepper : Stepper}
    {machine : Machine} {state : Snapshot} {error : Option Fault} {status : Status}
    (h : Standing g c attempted stepper machine state error status)
    (hstatus : status.halted = false) :
    state.finished = false ∧ (stepper, machine) = g.suspend c ∧ ¬ attempted := by
  cases h with
  | waiting _ hstate _ hstepper hno => exact ⟨hstate, hstepper, hno⟩
  | finished hfinished _ _ =>
    rw [hfinished] at hstatus
    cases hstatus
  | faulted fault _ hfault _ _ _ =>
    rw [hfault] at hstatus
    cases fault <;> cases hstatus

theorem Standing.of_halted {g : Stepper} {c : Config} {attempted attempted' : Prop}
    {stepper : Stepper} {machine : Machine} {state : Snapshot} {error : Option Fault}
    {status : Status} (h : Standing g c attempted stepper machine state error status)
    (hstatus : status.halted = true) (himp : attempted → attempted') :
    Standing g c attempted' stepper machine state error status := by
  cases h with
  | waiting hno =>
    rw [hno] at hstatus
    cases hstatus
  | finished hfinished hstate herror => exact .finished hfinished hstate herror
  | faulted fault hending hfault hstate herror hattempted =>
    exact .faulted fault hending hfault hstate herror (himp hattempted)

theorem Standing.congr {g : Stepper} {c : Config} {attempted attempted' : Prop}
    {stepper : Stepper} {machine : Machine} {state : Snapshot} {error : Option Fault}
    {status : Status} (h : Standing g c attempted stepper machine state error status)
    (hiff : attempted ↔ attempted') :
    Standing g c attempted' stepper machine state error status := by
  rw [propext hiff] at h
  exact h

/-- **What a stepping call does** to a debugger that has not halted. -/
theorem Session.Tracks.advance (hp : p.Prepared source) {s : Session}
    (h : s.Tracks p input debug maxSteps) (hhalted : s.debugger.halted = false)
    (stop : Debugger.Stop) :
    ∃ k c P, s.executed ≤ k ∧
      SteppingCall.Arrived (.ofSetup ⟨p, debug, some maxSteps⟩ input)
        (.start Machine.defaultLength input) ⟨s.executed, stop, s.debugger.breakpoints⟩ k c P ∧
      s.debugger.advance stop = (k - s.executed, { s.debugger with
        machine := P.machine, stepper := P.stepper, state := P.state
        error := P.error, status := P.status }) := by
  have hstep := h.step_eq
  obtain ⟨-, -, -, hmaxSteps, -, c, hafter, hsnapshot, hstanding⟩ := h
  obtain ⟨d, k, stepping⟩ := s
  simp only at hhalted hstep hmaxSteps hafter hsnapshot hstanding
  obtain ⟨hstate, hstepper, -⟩ := hstanding.not_halted hhalted
  have hg := congrArg Prod.fst hstepper
  have hm := congrArg Prod.snd hstepper
  simp only at hg hm
  -- the call begins under way: it has looked at no state before, and enters no line by itself
  have hunderway : SteppingCall.Underway (.ofSetup ⟨p, debug, some maxSteps⟩ input)
      (.start Machine.defaultLength input) ⟨k, stop, d.breakpoints⟩ k c d.state :=
    ⟨hafter, hsnapshot, hstate, Nat.le_refl k, fun j hj hjk => absurd hjk (Nat.not_lt.mpr hj),
      by rintro rfl ⟨hlt, -⟩; exact absurd hlt (Nat.lt_irrefl k)⟩
  obtain ⟨k', c', hk', harrived⟩ :=
    progress_spec hp rfl rfl (maxSteps.toNat - k + 1) k c d.state hunderway (Nat.lt_succ_self _)
  refine ⟨k', c', _, hk', harrived, ?_⟩
  have hexecuted := harrived.executed_eq
  rw [Nat.sub_self] at hexecuted
  rw [Debugger.advance_of_not_halted hhalted]
  simp only [hmaxSteps, hstep, hm, hg, hexecuted, Nat.sub_self]

/-- Stepping and resuming keep the invariant. -/
theorem Session.Tracks.record (hp : p.Prepared source) {s : Session}
    (h : s.Tracks p input debug maxSteps) (stop : Debugger.Stop) :
    (s.record stop (s.debugger.advance stop)).Tracks p input debug maxSteps := by
  have hstart : ∀ call ∈ ⟨s.executed, stop, s.debugger.breakpoints⟩ :: s.stepping,
      call.start ≤ s.executed := by
    intro call hcall
    rcases List.mem_cons.mp hcall with rfl | hcall
    · exact Nat.le_refl _
    · exact h.start_le call hcall
  obtain ⟨c, hafter, hsnapshot, hstanding⟩ := h.stands
  cases hhalted : s.debugger.halted with
  | true =>
    rw [Session.record, Debugger.advance_of_halted hhalted]
    refine ⟨h.program_eq, h.input_eq, h.debug_eq, h.maxSteps_eq, hstart, c, hafter, hsnapshot, ?_⟩
    refine hstanding.of_halted hhalted ?_
    rintro ⟨call, hcall, hattempts⟩
    exact ⟨call, List.mem_cons_of_mem _ hcall, hattempts⟩
  | false =>
    obtain ⟨-, -, hno⟩ := hstanding.not_halted hhalted
    obtain ⟨k, c', P, hk, harrived, hadvance⟩ := h.advance hp hhalted stop
    rw [Session.record, hadvance]
    simp only
    rw [Nat.add_sub_cancel' hk]
    refine ⟨h.program_eq, h.input_eq, h.debug_eq, h.maxSteps_eq,
      fun call hcall => Nat.le_trans (hstart call hcall) hk, c', harrived.after_eq,
      harrived.snapshot_eq, harrived.standing.congr ⟨fun h => ⟨_, List.mem_cons_self, h⟩, ?_⟩⟩
    rintro ⟨call, hcall, hattempts⟩
    rcases List.mem_cons.mp hcall with rfl | hcall
    · exact hattempts
    · exact absurd ⟨call, hcall, hattempts.of_le (h.start_le call hcall) hk⟩ hno

/-- Breakpoints do not move the debugger. -/
theorem Session.Tracks.breakpoints {s : Session} (h : s.Tracks p input debug maxSteps)
    (breakpoints : List Nat) :
    Tracks p input debug maxSteps { s with debugger := { s.debugger with breakpoints } } :=
  ⟨h.program_eq, h.input_eq, h.debug_eq, h.maxSteps_eq, h.start_le, h.stands⟩

/-- **One call keeps the invariant.** -/
theorem Session.Tracks.call (hp : p.Prepared source) {s : Session}
    (h : s.Tracks p input debug maxSteps) (call : Call) :
    (s.call call).Tracks p input debug maxSteps := by
  rcases s.call_cases call with ⟨stop, hcall⟩ | ⟨-, hcall⟩ | ⟨breakpoints, hcall⟩
  · rw [hcall]
    exact h.record hp stop
  · have := tracks_start p input debug maxSteps s.debugger.breakpoints
    rw [hcall]
    rwa [← h.program_eq, ← h.input_eq, ← h.debug_eq, ← h.maxSteps_eq] at this ⊢
  · rw [hcall]
    exact h.breakpoints breakpoints

/-- **Every sequence of calls keeps the invariant.** -/
theorem Session.Tracks.run (hp : p.Prepared source) (calls : List Call) :
    ∀ {s : Session}, s.Tracks p input debug maxSteps →
      (s.run calls).Tracks p input debug maxSteps := by
  induction calls with
  | nil => intro s h; exact h
  | cons call calls ih => intro s h; exact ih (h.call hp call)

end Sessions

end TapeMachine
