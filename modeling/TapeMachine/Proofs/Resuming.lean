import Mathlib.Order.Bounds.Basic
import TapeMachine.Proofs.Session

/-!
# Resuming

Resuming goes on to the next place of the plain run where a line with a breakpoint is entered from a
different line, or where the program is at its end (`Session.Tracks.resume_cases`). What calls were
made before does not matter: the line that the debugger compares with is the line it stands on.

So the places where a sequence of calls stops at breakpoints are all the entries on its way, in
order, but for those that a step goes over (`Session.Tracks.mem_stops_iff`).
-/

namespace TapeMachine

open Config

/-! ## Entries into lines -/

/-- The `j`-th state of the run is on a line with a breakpoint, and the state before it is not on
that line. -/
def Trace.Enters (T : Trace) (breakpoints : List Nat) (j : Nat) : Prop :=
  0 < j ∧ ∃ before here line, T.states[j - 1]? = some before ∧ T.states[j]? = some here ∧
    here.line = some line ∧ before.line ≠ some line ∧ line ∈ breakpoints

/-- Resuming does not go past the `j`-th state of the run. -/
def Trace.HoldsAt (T : Trace) (breakpoints : List Nat) (j : Nat) : Prop :=
  (∃ here, T.states[j]? = some here ∧ here.finished = true) ∨ T.Enters breakpoints j

theorem stopsAt_atBreakpoint_iff {T : Trace} {breakpoints : List Nat} {k j : Nat} :
    SteppingCall.StopsAt (fun k => T.states[k]?) ⟨k, .atBreakpoint, breakpoints⟩ j ↔
      k < j ∧ T.Enters breakpoints j :=
  ⟨fun ⟨hlt, h⟩ => ⟨hlt, Nat.zero_lt_of_lt hlt, h⟩, fun ⟨hlt, _, h⟩ => ⟨hlt, h⟩⟩

/-- At the end of the program no line is entered. -/
theorem Trace.not_enters_of_finished {T : Trace} {breakpoints : List Nat} {j : Nat}
    {here : Snapshot} (hhere : T.states[j]? = some here) (hfinished : here.finished = true) :
    ¬ T.Enters breakpoints j := by
  rintro ⟨-, -, here', line, -, hhere', hline, -⟩
  rw [hhere, Option.some.injEq] at hhere'
  rw [Snapshot.finished, hhere', hline] at hfinished
  cases hfinished

section Sessions

variable {source : List UInt8} {p : Program} {input : List UInt8} {debug : Bool} {maxSteps : Int}

/-! ## One call -/

/-- The plain run has a configuration for each of its states. -/
theorem exists_after_of_states {j : Nat} {here : Snapshot}
    (h : (plainRun p input debug maxSteps).states[j]? = some here) :
    ∃ c, after ⟨p, debug, some maxSteps⟩ j (.start Machine.defaultLength input) = some c ∧
      snapshotAfter ⟨p, debug, some maxSteps⟩ (.start Machine.defaultLength input) j
        = some here := by
  obtain ⟨-, -, -, -, -, -, hstates⟩ := plainRun_spec p input debug maxSteps
  rw [hstates] at h
  cases hafter : after ⟨p, debug, some maxSteps⟩ j (.start Machine.defaultLength input) with
  | none =>
    rw [snapshotAfter_eq_none hafter] at h
    exact absurd h.symm (Option.some_ne_none here)
  | some c => exact ⟨c, rfl, h⟩

/-- A run ends where it has a finished state. -/
theorem endsAfter_of_finished (hp : p.Prepared source) {j : Nat} {here : Snapshot}
    (h : (plainRun p input debug maxSteps).states[j]? = some here)
    (hfinished : here.finished = true) :
    ∃ c, EndsAfter ⟨p, debug, some maxSteps⟩ (.start Machine.defaultLength input) j c
      .finished := by
  obtain ⟨c, hafter, hsnapshot⟩ := exists_after_of_states h
  exact ⟨c, hafter, (finished_iff_ending hp hafter hsnapshot).mp hfinished⟩

/-- **Where resuming leads.** It is the next place that holds it, if there is one, and the end of the
run otherwise. -/
theorem Session.Tracks.resume_cases (hp : p.Prepared source) {s : Session}
    (h : s.Tracks p input debug maxSteps) (hhalted : s.debugger.halted = false) :
    (∃ j, IsLeast {j | s.executed < j ∧
          (plainRun p input debug maxSteps).HoldsAt s.debugger.breakpoints j} j ∧
        s.debugger.resume.1 = j - s.executed ∧
        (plainRun p input debug maxSteps).states[j]? = some s.debugger.resume.2.state ∧
        s.debugger.resume.2.status
          = if s.debugger.resume.2.state.finished then .finished else .breakpoint) ∨
      ((∀ j, s.executed < j →
          ¬ (plainRun p input debug maxSteps).HoldsAt s.debugger.breakpoints j) ∧
        s.executed + s.debugger.resume.1 + 1 = (plainRun p input debug maxSteps).states.size ∧
        (plainRun p input debug maxSteps).states[s.executed + s.debugger.resume.1]?
          = some s.debugger.resume.2.state ∧
        ((s.debugger.resume.2.status = .failed ∧ ∃ line symbol,
            (plainRun p input debug maxSteps).stop = some (.fault (.outOfBounds line symbol))) ∨
          (s.debugger.resume.2.status = .exhausted ∧
            (plainRun p input debug maxSteps).stop = some (.fault (.exhausted maxSteps))))) := by
  obtain ⟨-, -, -, -, -, -, hstates⟩ := plainRun_spec p input debug maxSteps
  obtain ⟨_, _, hsnapshot, hstanding⟩ := h.stands
  obtain ⟨hstate, -, -⟩ := hstanding.not_halted hhalted
  obtain ⟨k, c, P, hk, harrived, hresume⟩ := h.advance hp hhalted .atBreakpoint
  have hpassed := harrived.passed
  have hstands := harrived.standing
  have hhere := (hstates k).trans harrived.snapshot_eq
  have hrun : (fun k => (plainRun p input debug maxSteps).states[k]?)
      = snapshotAfter (Stepper.ofSetup ⟨p, debug, some maxSteps⟩ input).setup
          (.start Machine.defaultLength input) := funext hstates
  rw [← hrun] at hpassed hstands
  -- before the place where the call has arrived nothing holds it
  have hleast : ∀ j, s.executed < j →
      (plainRun p input debug maxSteps).HoldsAt s.debugger.breakpoints j → k ≤ j := by
    rintro j hj (⟨here, hget, hfinished⟩ | henters)
    · obtain ⟨d, hends⟩ := endsAfter_of_finished hp hget hfinished
      exact hends.le_of_after harrived.after_eq
    · refine Nat.le_of_not_lt fun hlt => ?_
      exact hpassed j (Nat.le_of_lt hj) hlt (stopsAt_atBreakpoint_iff.mpr ⟨hj, henters⟩)
  rw [show s.debugger.resume = _ from hresume]
  simp only
  cases hstands with
  | waiting hstatus hunfinished _ _ hno =>
    have hstops : SteppingCall.StopsAt (fun k => (plainRun p input debug maxSteps).states[k]?)
        ⟨s.executed, .atBreakpoint, s.debugger.breakpoints⟩ k := by
      by_contra hgoes
      refine hno ⟨hk, fun j hj hjk => ?_⟩
      rcases Nat.lt_or_eq_of_le hjk with hlt | rfl
      · exact hpassed j hj hlt
      · exact hgoes
    obtain ⟨hlt, henters⟩ := stopsAt_atBreakpoint_iff.mp hstops
    refine Or.inl ⟨k, ⟨⟨hlt, Or.inr henters⟩, fun j hj => hleast j hj.1 hj.2⟩, rfl, hhere, ?_⟩
    rw [hunfinished, harrived.status_eq rfl hstatus]
    rfl
  | finished hstatus hfinished _ =>
    have hlt : s.executed < k := by
      refine Nat.lt_of_le_of_ne hk fun heq => ?_
      rw [heq, ← hstates, hhere, Option.some.injEq] at hsnapshot
      rw [← hsnapshot, hfinished] at hstate
      cases hstate
    refine Or.inl ⟨k, ⟨⟨hlt, Or.inl ⟨_, hhere, hfinished⟩⟩, fun j hj => hleast j hj.1 hj.2⟩, rfl,
      hhere, ?_⟩
    rw [hfinished, hstatus]
    rfl
  | faulted fault hending hstatus hunfinished _ hattempted =>
    have hends : EndsAfter ⟨p, debug, some maxSteps⟩ (.start Machine.defaultLength input) k c
        (.failed fault) := ⟨harrived.after_eq, hending⟩
    obtain ⟨hlast, hstop⟩ := plainRun_at_end hends
    rw [Nat.add_sub_cancel' hk]
    refine Or.inr ⟨?_, hlast, hhere, ?_⟩
    · rintro j hj (⟨here, hget, hfinished⟩ | henters)
      · obtain ⟨d, hends'⟩ := endsAfter_of_finished hp hget hfinished
        exact nomatch (hends.unique hends').2.2
      · obtain ⟨-, -, here, -, -, hget, -⟩ := id henters
        obtain ⟨d, hafter, -⟩ := exists_after_of_states hget
        exact hattempted.2 j (Nat.le_of_lt hj) (hends.le_of_after hafter)
          (stopsAt_atBreakpoint_iff.mpr ⟨hj, henters⟩)
    · rcases fault_cases hending (onTape_of_after_start harrived.after_eq) with
        ⟨line, symbol, rfl⟩ | ⟨budget, hbudget, -, rfl⟩
      · exact Or.inl ⟨hstatus, line, symbol, hstop⟩
      · obtain rfl : maxSteps = budget := Option.some.inj hbudget
        exact Or.inr ⟨hstatus, hstop⟩

/-- A debugger that has halted is at the end of the run. -/
theorem Session.Tracks.at_end_of_halted (hp : p.Prepared source) {s : Session}
    (h : s.Tracks p input debug maxSteps) (hhalted : s.debugger.halted = true) :
    s.executed + 1 = (plainRun p input debug maxSteps).states.size := by
  obtain ⟨c, hafter, hsnapshot, hstanding⟩ := h.stands
  cases hstanding with
  | waiting hstatus =>
    rw [Debugger.halted, hstatus] at hhalted
    cases hhalted
  | finished _ hfinished _ =>
    exact (plainRun_at_end ⟨hafter, (finished_iff_ending hp hafter hsnapshot).mp hfinished⟩).1
  | faulted fault hending _ _ _ _ => exact (plainRun_at_end ⟨hafter, hending⟩).1

/-! ## Sequences of calls -/

theorem Debugger.breakpoints_advance (d : Debugger) (stop : Debugger.Stop) :
    (d.advance stop).2.breakpoints = d.breakpoints := by
  cases hhalted : d.halted with
  | true => rw [Debugger.advance_of_halted hhalted]
  | false => rw [Debugger.advance_of_not_halted hhalted]

/-- The calls that go along the run. -/
def Call.Advances : Call → Prop
  | .step _ => True
  | .resume => True
  | _ => False

namespace Session

/-- The place where a call that resumes stops at a breakpoint. -/
def stop? (s : Session) : Call → Option Nat
  | .resume =>
    if (s.call .resume).debugger.status = .breakpoint then some (s.call .resume).executed else none
  | _ => none

/-- The places where calls that resume stop at breakpoints. -/
def stops (s : Session) : List Call → List Nat
  | [] => []
  | call :: rest => (s.stop? call).toList ++ (s.call call).stops rest

/-- Some step among the calls comes to the place or goes past it. -/
def StepsOver (s : Session) (j : Nat) : List Call → Prop
  | [] => False
  | call :: rest =>
    (∃ count, call = .step count ∧ s.executed < j ∧ j ≤ (s.call call).executed) ∨
      (s.call call).StepsOver j rest

variable {s : Session}

theorem executed_le_call {call : Call} (h : call.Advances) :
    s.executed ≤ (s.call call).executed := by
  cases call with
  | step count => exact Nat.le_add_right _ _
  | resume => exact Nat.le_add_right _ _
  | restart => exact absurd h id
  | setBreakpoint line => exact absurd h id
  | clearBreakpoint line => exact absurd h id

theorem breakpoints_call {call : Call} (h : call.Advances) :
    (s.call call).debugger.breakpoints = s.debugger.breakpoints := by
  cases call with
  | step count => exact s.debugger.breakpoints_advance _
  | resume => exact s.debugger.breakpoints_advance _
  | restart => exact absurd h id
  | setBreakpoint line => exact absurd h id
  | clearBreakpoint line => exact absurd h id

theorem executed_le_run : ∀ {calls : List Call} {s : Session},
    (∀ call ∈ calls, call.Advances) → s.executed ≤ (s.run calls).executed := by
  intro calls
  induction calls with
  | nil => intro s _; exact Nat.le_refl _
  | cons call calls ih =>
    intro s h
    obtain ⟨hcall, hcalls⟩ := List.forall_mem_cons.mp h
    exact Nat.le_trans (executed_le_call hcall) (ih hcalls)

theorem lt_of_stepsOver {j : Nat} : ∀ {calls : List Call} {s : Session},
    (∀ call ∈ calls, call.Advances) → s.StepsOver j calls → s.executed < j := by
  intro calls
  induction calls with
  | nil => intro s _ h; exact absurd h id
  | cons call calls ih =>
    intro s h hover
    obtain ⟨hcall, hcalls⟩ := List.forall_mem_cons.mp h
    rcases hover with ⟨-, -, hlt, -⟩ | hover
    · exact hlt
    · exact Nat.lt_of_le_of_lt (executed_le_call hcall) (ih hcalls hover)

theorem stop?_eq_some {call : Call} {j : Nat} (h : s.stop? call = some j) :
    j = (s.call call).executed := by
  cases call with
  | resume =>
    rw [stop?] at h
    split at h
    · exact (Option.some.inj h).symm
    · cases h
  | step count => cases h
  | restart => cases h
  | setBreakpoint line => cases h
  | clearBreakpoint line => cases h

theorem call_resume_of_halted (h : s.debugger.halted = true) :
    (s.call .resume).executed = s.executed ∧ (s.call .resume).debugger = s.debugger := by
  rw [call, Debugger.resume, Debugger.advance_of_halted h]
  exact ⟨rfl, rfl⟩

/-- **One call that resumes** stops at a breakpoint where it enters a line with one. -/
theorem Tracks.stop?_resume_iff (hp : p.Prepared source) (h : s.Tracks p input debug maxSteps)
    (j : Nat) :
    s.stop? .resume = some j ↔ s.executed < j ∧ j ≤ (s.call .resume).executed ∧
      (plainRun p input debug maxSteps).Enters s.debugger.breakpoints j := by
  have hexecuted : (s.call .resume).executed = s.executed + s.debugger.resume.1 := rfl
  have hstatus : (s.call .resume).debugger.status = s.debugger.resume.2.status := rfl
  rw [stop?]
  cases hhalted : s.debugger.halted with
  | true =>
    obtain ⟨hsame, hdebugger⟩ := call_resume_of_halted hhalted
    have hno : s.debugger.status ≠ .breakpoint := by
      intro hbreakpoint
      rw [Debugger.halted, hbreakpoint] at hhalted
      cases hhalted
    rw [hdebugger, if_neg hno, hsame]
    exact ⟨fun hnone => (nomatch hnone),
      fun ⟨hlt, hle, _⟩ => absurd hlt (Nat.not_lt.mpr hle)⟩
  | false =>
    rw [hexecuted, hstatus]
    rcases h.resume_cases hp hhalted with ⟨k, hleast, hresume, hget, hstop⟩ | ⟨hno, -, -, hends⟩
    · obtain ⟨⟨hlt, hholds⟩, hlower⟩ := hleast
      rw [hresume, hstop, Nat.add_sub_cancel' (Nat.le_of_lt hlt)]
      -- nothing is entered before `k`, and at `k` itself if the program goes on there
      have honly : ∀ j, s.executed < j → j ≤ k →
          (plainRun p input debug maxSteps).Enters s.debugger.breakpoints j → j = k :=
        fun j hj hle henters => Nat.le_antisymm hle (hlower ⟨hj, Or.inr henters⟩)
      cases hfinished : s.debugger.resume.2.state.finished with
      | true =>
        refine ⟨fun hnone => (nomatch hnone), fun ⟨hj, hle, henters⟩ => ?_⟩
        rw [honly j hj hle henters] at henters
        exact absurd henters (Trace.not_enters_of_finished hget hfinished)
      | false =>
        have henters : (plainRun p input debug maxSteps).Enters s.debugger.breakpoints k := by
          refine hholds.resolve_left ?_
          rintro ⟨here, hhere, hend⟩
          rw [hget, Option.some.injEq] at hhere
          rw [hhere, hend] at hfinished
          cases hfinished
        constructor
        · intro hj
          obtain rfl : k = j := Option.some.inj hj
          exact ⟨hlt, Nat.le_refl k, henters⟩
        · rintro ⟨hj, hle, henters'⟩
          rw [honly j hj hle henters']
          rfl
    · refine ⟨fun hsome => ?_, fun ⟨hj, _, henters⟩ => absurd (Or.inr henters) (hno j hj)⟩
      rcases hends with ⟨hfailed, -⟩ | ⟨hexhausted, -⟩
      · rw [hfailed] at hsome
        cases hsome
      · rw [hexhausted] at hsome
        cases hsome

/-- **Where a sequence of calls stops.** It stops at every entry on its way that no step goes
over. -/
theorem Tracks.mem_stops_iff (hp : p.Prepared source) (j : Nat) :
    ∀ {calls : List Call} {s : Session}, s.Tracks p input debug maxSteps →
      (∀ call ∈ calls, call.Advances) →
      (j ∈ s.stops calls ↔ s.executed < j ∧ j ≤ (s.run calls).executed ∧
        (plainRun p input debug maxSteps).Enters s.debugger.breakpoints j ∧
        ¬ s.StepsOver j calls) := by
  intro calls
  induction calls with
  | nil =>
    intro s _ _
    exact ⟨fun hmem => absurd hmem List.not_mem_nil,
      fun ⟨hlt, hle, _⟩ => absurd hlt (Nat.not_lt.mpr hle)⟩
  | cons call calls ih =>
    intro s h hadvances
    obtain ⟨hcall, hcalls⟩ := List.forall_mem_cons.mp hadvances
    have hle := s.executed_le_call hcall
    have hrest := executed_le_run (s := s.call call) hcalls
    have hmem := ih (h.call hp call) hcalls
    rw [breakpoints_call hcall] at hmem
    rw [stops, List.mem_append, Option.mem_toList, hmem, StepsOver,
      show s.run (call :: calls) = (s.call call).run calls from rfl]
    -- the calls that come later are about what is behind the place that the first one comes to
    rcases Nat.lt_or_ge (s.call call).executed j with hlt | hge
    · have hno : s.stop? call ≠ some j := fun hstop =>
        absurd (stop?_eq_some hstop) (Nat.ne_of_gt hlt)
      constructor
      · rintro (hstop | ⟨-, hj, henters, hover⟩)
        · exact absurd hstop hno
        · refine ⟨Nat.lt_of_le_of_lt hle hlt, hj, henters, ?_⟩
          rintro (⟨-, -, -, hj'⟩ | hover')
          · exact absurd hlt (Nat.not_lt.mpr hj')
          · exact hover hover'
      · rintro ⟨-, hj, henters, hover⟩
        exact Or.inr ⟨hlt, hj, henters, fun hover' => hover (Or.inr hover')⟩
    · have hlater : ¬ (s.call call).StepsOver j calls := fun hover =>
        absurd (lt_of_stepsOver hcalls hover) (Nat.not_lt.mpr hge)
      have hstopped : s.stop? call = some j ↔ s.executed < j ∧
          (plainRun p input debug maxSteps).Enters s.debugger.breakpoints j ∧
          ¬ ∃ count, call = .step count ∧ s.executed < j ∧ j ≤ (s.call call).executed := by
        cases call with
        | step count =>
          exact ⟨fun hnone => (nomatch hnone), fun ⟨hj, _, hno⟩ => absurd ⟨count, rfl, hj, hge⟩ hno⟩
        | resume =>
          rw [h.stop?_resume_iff hp]
          exact ⟨fun ⟨hj, _, henters⟩ => ⟨hj, henters, fun ⟨_, hcount, _⟩ => (nomatch hcount)⟩,
            fun ⟨hj, henters, _⟩ => ⟨hj, hge, henters⟩⟩
        | restart => exact absurd hcall id
        | setBreakpoint line => exact absurd hcall id
        | clearBreakpoint line => exact absurd hcall id
      rw [hstopped]
      constructor
      · rintro (⟨hj, henters, hno⟩ | ⟨hlt, -⟩)
        · exact ⟨hj, Nat.le_trans hge hrest, henters, fun hover => hover.elim hno hlater⟩
        · exact absurd hlt (Nat.not_lt.mpr hge)
      · rintro ⟨hj, -, henters, hover⟩
        exact Or.inl ⟨hj, henters, fun hno => hover (Or.inl hno)⟩

/-- The stops come one after the other. -/
theorem Tracks.sorted_stops (hp : p.Prepared source) :
    ∀ {calls : List Call} {s : Session}, s.Tracks p input debug maxSteps →
      (∀ call ∈ calls, call.Advances) → (s.stops calls).Pairwise (· < ·) := by
  intro calls
  induction calls with
  | nil => intro s _ _; exact .nil
  | cons call calls ih =>
    intro s h hadvances
    obtain ⟨-, hcalls⟩ := List.forall_mem_cons.mp hadvances
    have hrest := ih (h.call hp call) hcalls
    rw [stops]
    cases hstop : s.stop? call with
    | none => exact hrest
    | some j =>
      refine List.pairwise_cons.mpr ⟨fun j' hj' => ?_, hrest⟩
      rw [stop?_eq_some hstop]
      exact (((h.call hp call).mem_stops_iff hp j' hcalls).mp hj').1

/-! ## Resuming over and over -/

theorem advances_replicate_resume (n : Nat) :
    ∀ call ∈ List.replicate n Call.resume, call.Advances := by
  intro call hcall
  rw [List.eq_of_mem_replicate hcall]
  trivial

theorem not_stepsOver_replicate_resume (n j : Nat) :
    ∀ s : Session, ¬ s.StepsOver j (List.replicate n .resume) := by
  induction n with
  | zero => intro s h; exact h
  | succ n ih =>
    rintro s (⟨count, hcount, -⟩ | h)
    · cases hcount
    · exact ih _ h

theorem halted_run_replicate_resume (n : Nat) :
    ∀ {s : Session}, s.debugger.halted = true →
      (s.run (List.replicate n .resume)).debugger.halted = true := by
  induction n with
  | zero => intro s h; exact h
  | succ n ih =>
    intro s h
    refine ih (s := s.call .resume) ?_
    rw [(call_resume_of_halted h).2, h]

/-- A call that resumes stops at a breakpoint, or the debugger has halted after it. -/
theorem Tracks.stop?_resume_or_halted (hp : p.Prepared source)
    (h : s.Tracks p input debug maxSteps) :
    (∃ j, s.stop? .resume = some j) ∨ (s.call .resume).debugger.halted = true := by
  cases hhalted : s.debugger.halted with
  | true =>
    rw [(call_resume_of_halted hhalted).2]
    exact Or.inr hhalted
  | false =>
    have hstatus : (s.call .resume).debugger.status = s.debugger.resume.2.status := rfl
    rw [stop?, Debugger.halted, hstatus]
    rcases h.resume_cases hp hhalted with ⟨k, -, -, -, hstop⟩ | ⟨-, -, -, ⟨hstop, -⟩ | ⟨hstop, -⟩⟩
    · rw [hstop]
      cases s.debugger.resume.2.state.finished with
      | true => exact Or.inr rfl
      | false => exact Or.inl ⟨_, rfl⟩
    · exact Or.inr (by rw [hstop]; rfl)
    · exact Or.inr (by rw [hstop]; rfl)

theorem Tracks.length_stops_replicate_resume (hp : p.Prepared source) (n : Nat) :
    ∀ {s : Session}, s.Tracks p input debug maxSteps →
      (s.stops (List.replicate n .resume)).length = n ∨
        (s.run (List.replicate n .resume)).debugger.halted = true := by
  induction n with
  | zero => intro s _; exact Or.inl rfl
  | succ n ih =>
    intro s h
    rcases h.stop?_resume_or_halted hp with ⟨j, hj⟩ | hhalted
    · rw [List.replicate_succ, stops, hj]
      refine (ih (h.call hp .resume)).imp_left fun hlength => ?_
      rw [Option.toList_some, List.cons_append, List.nil_append, List.length_cons, hlength]
    · exact Or.inr (halted_run_replicate_resume n hhalted)

/-- There are not as many stops as states. -/
theorem Tracks.length_stops_lt (hp : p.Prepared source) {calls : List Call}
    (h : s.Tracks p input debug maxSteps) (hadvances : ∀ call ∈ calls, call.Advances) :
    (s.stops calls).length < (plainRun p input debug maxSteps).states.size := by
  obtain ⟨n, -, -, -, -, hsize, -⟩ := plainRun_spec p input debug maxSteps
  have hsubset : s.stops calls ⊆ List.range' 1 n := by
    intro j hj
    obtain ⟨-, -, ⟨hpos, -, here, -, -, hget, -⟩, -⟩ := (h.mem_stops_iff hp j hadvances).mp hj
    have hlt := (Array.getElem?_eq_some_iff.mp hget).1
    exact List.mem_range'_1.mpr ⟨hpos, by omega⟩
  have hnodup : (s.stops calls).Nodup := (h.sorted_stops hp hadvances).imp Nat.ne_of_lt
  have hlength := hnodup.length_le_of_subset hsubset
  rw [List.length_range'] at hlength
  omega

/-! ## What resuming does -/

/-- What resuming does in a session, told by the run `T` that it goes along. -/
structure ResumesAlong (T : Trace) (s : Session) : Prop where
  state_eq : T.states[s.executed]? = some s.debugger.state
  /-- It stops at the next place that holds it. -/
  stops_at_next : s.debugger.halted = false → ∀ j,
    IsLeast {j | s.executed < j ∧ T.HoldsAt s.debugger.breakpoints j} j →
    s.debugger.resume.1 = j - s.executed ∧
      T.states[j]? = some s.debugger.resume.2.state ∧
      s.debugger.resume.2.status
        = if s.debugger.resume.2.state.finished then .finished else .breakpoint
  /-- Without such a place it goes on to the last state, and fails or is exhausted there. -/
  runs_out : s.debugger.halted = false →
    (∀ j, s.executed < j → ¬ T.HoldsAt s.debugger.breakpoints j) →
    s.executed + s.debugger.resume.1 + 1 = T.states.size ∧
      T.states[s.executed + s.debugger.resume.1]? = some s.debugger.resume.2.state ∧
      ((s.debugger.resume.2.status = .failed ∧
          ∃ line symbol, T.stop = some (.fault (.outOfBounds line symbol))) ∨
        (s.debugger.resume.2.status = .exhausted ∧
          ∃ budget, T.stop = some (.fault (.exhausted budget))))
  /-- Calls that go along the run stop at one entry after the other. -/
  sorted_stops : ∀ calls : List Call, (∀ call ∈ calls, call.Advances) →
    (s.stops calls).Pairwise (· < ·)
  /-- They stop at all the entries on their way that no step goes over. -/
  mem_stops_iff : ∀ calls : List Call, (∀ call ∈ calls, call.Advances) → ∀ j,
    j ∈ s.stops calls ↔ s.executed < j ∧ j ≤ (s.run calls).executed ∧
      T.Enters s.debugger.breakpoints j ∧ ¬ s.StepsOver j calls
  /-- Each of the calls that resume stops at an entry, until the debugger has halted. -/
  resumes : ∀ n, (s.stops (List.replicate n .resume)).length = n ∨
    (s.run (List.replicate n .resume)).debugger.halted = true
  /-- With as many of them as there are states the run is at its end, and no entry is left out. -/
  resumes_through : ∀ n, T.states.size ≤ n →
    (s.run (List.replicate n .resume)).debugger.halted = true ∧
      (s.run (List.replicate n .resume)).executed + 1 = T.states.size ∧
      ∀ j, j ∈ s.stops (List.replicate n .resume) ↔
        s.executed < j ∧ T.Enters s.debugger.breakpoints j

theorem Tracks.resumesAlong (hp : p.Prepared source) (h : s.Tracks p input debug maxSteps) :
    s.ResumesAlong (plainRun p input debug maxSteps) := by
  obtain ⟨-, -, hsnapshot, -⟩ := h.stands
  obtain ⟨-, -, -, -, -, -, hstates⟩ := plainRun_spec p input debug maxSteps
  refine ⟨(hstates s.executed).trans hsnapshot, fun hhalted j hleast => ?_,
    fun hhalted hno => ?_, fun calls => h.sorted_stops hp, fun calls hcalls j =>
    h.mem_stops_iff hp j hcalls, fun n => h.length_stops_replicate_resume hp n, fun n hn => ?_⟩
  · rcases h.resume_cases hp hhalted with ⟨k, hleast', hresume⟩ | ⟨hno, -⟩
    · rw [hleast.unique hleast']
      exact hresume
    · exact absurd hleast.1.2 (hno j hleast.1.1)
  · rcases h.resume_cases hp hhalted with ⟨k, hleast, -⟩ | ⟨-, hsize, hget, hends⟩
    · exact absurd hleast.1.2 (hno k hleast.1.1)
    · exact ⟨hsize, hget, hends.imp_right fun ⟨hstatus, hstop⟩ => ⟨hstatus, maxSteps, hstop⟩⟩
  · have hhalted := (h.length_stops_replicate_resume hp n).resolve_left fun hlength => by
      have := h.length_stops_lt hp (advances_replicate_resume n)
      omega
    have hend := (h.run hp (List.replicate n .resume)).at_end_of_halted hp hhalted
    refine ⟨hhalted, hend, fun j => ?_⟩
    rw [h.mem_stops_iff hp j (advances_replicate_resume n)]
    refine ⟨fun ⟨hlt, _, henters, _⟩ => ⟨hlt, henters⟩, fun ⟨hlt, henters⟩ =>
      ⟨hlt, ?_, henters, not_stepsOver_replicate_resume n j s⟩⟩
    obtain ⟨-, -, here, -, -, hget, -⟩ := henters
    have := (Array.getElem?_eq_some_iff.mp hget).1
    omega

end Session

/-- **Resuming stops exactly at the next entry into a line with a breakpoint.** Of a balanced source
there is a debugger, and whatever has been called on it, resuming goes along the plain run to the next
such entry or to the end of the program, and to the end of the run if there is neither. -/
theorem resume_stops_at_next_entry (source input : List UInt8) (debug : Bool) (maxSteps : Int)
    (h : Balanced source) :
    ∃ (p : Program) (d : Debugger), Program.prepare source = .ok p ∧
      Debugger.ofSource source input debug maxSteps = .ok d ∧
      ∀ calls : List Call,
        ((Session.ofDebugger d).run calls).ResumesAlong (plainRun p input debug maxSteps) := by
  obtain ⟨p, hprepare⟩ := Program.exists_prepare_of_balanced h
  have hp := Program.prepared_of_prepare hprepare
  refine ⟨p, .start p input debug maxSteps [], hprepare, by rw [Debugger.ofSource, hprepare],
    fun calls => ?_⟩
  exact ((Session.tracks_start p input debug maxSteps []).run hp calls).resumesAlong hp

/-- The debugger of `+`, a new line and `[.-]`, with a breakpoint on the second line. -/
theorem resume_stops_at_next_entry_of_loop :
    Balanced [0x2B, 0x0A, 0x5B, 0x2E, 0x2D, 0x5D] ∧
      ∃ (p : Program) (d : Debugger),
        Program.prepare [0x2B, 0x0A, 0x5B, 0x2E, 0x2D, 0x5D] = .ok p ∧
        Debugger.ofSource [0x2B, 0x0A, 0x5B, 0x2E, 0x2D, 0x5D] [] false 100 = .ok d ∧
        ((Session.ofDebugger d).run [.setBreakpoint 2]).ResumesAlong (plainRun p [] false 100) := by
  have h : Balanced [0x2B, 0x0A, 0x5B, 0x2E, 0x2D, 0x5D] :=
    Block.balanced_iff_exists_code.mpr
      ⟨.byte 0x2B rfl (.byte 0x0A rfl (.loop (.byte 0x2E rfl (.byte 0x2D rfl .nil)) .nil)), rfl⟩
  obtain ⟨p, d, hp, hd, hresumes⟩ := resume_stops_at_next_entry _ [] false 100 h
  exact ⟨h, p, d, hp, hd, hresumes _⟩

end Sessions

end TapeMachine
