import Mathlib.Data.List.Nodup
import Mathlib.Data.List.Perm.Basic
import TapeMachine.Proofs.Resuming

/-!
# Restarting

A restart renews everything but the breakpoints. They are an ascending list of lines of the program
(`Program.Marks`), so a debugger has the same ones as another as soon as they are the same lines, in
whatever order they were set. So a debugger that is restarted and a new one with the same breakpoints
are equal, and no call can tell them apart.
-/

namespace TapeMachine

/-! ## Ascending lists of lines -/

@[simp] theorem mem_insertLine {line l : Nat} {lines : List Nat} :
    l ∈ insertLine line lines ↔ l = line ∨ l ∈ lines := by
  induction lines with
  | nil => simp [insertLine]
  | cons first rest ih =>
    rw [insertLine]
    by_cases hlt : line < first
    · rw [if_pos hlt, List.mem_cons]
    · rw [if_neg hlt]
      by_cases heq : line = first
      · subst heq
        simp
      · rw [if_neg heq, List.mem_cons, ih, List.mem_cons, or_left_comm]

theorem pairwise_insertLine {line : Nat} {lines : List Nat} (h : lines.Pairwise (· < ·)) :
    (insertLine line lines).Pairwise (· < ·) := by
  induction lines with
  | nil => exact List.pairwise_singleton _ _
  | cons first rest ih =>
    obtain ⟨hfirst, hrest⟩ := List.pairwise_cons.mp h
    rw [insertLine]
    by_cases hlt : line < first
    · rw [if_pos hlt]
      refine List.pairwise_cons.mpr ⟨fun l hl => ?_, h⟩
      rcases List.mem_cons.mp hl with rfl | hl
      · exact hlt
      · exact Nat.lt_trans hlt (hfirst l hl)
    · rw [if_neg hlt]
      by_cases heq : line = first
      · rwa [if_pos heq]
      · rw [if_neg heq]
        refine List.pairwise_cons.mpr ⟨fun l hl => ?_, ih hrest⟩
        rcases mem_insertLine.mp hl with rfl | hl
        · omega
        · exact hfirst l hl

/-- Ascending lists with the same members are equal. -/
theorem eq_of_pairwise_lt {lines lines' : List Nat} (h : lines.Pairwise (· < ·))
    (h' : lines'.Pairwise (· < ·)) (hmem : ∀ l, l ∈ lines ↔ l ∈ lines') : lines = lines' := by
  have hperm : lines.Perm lines' :=
    (List.perm_ext_iff_of_nodup (h.imp Nat.ne_of_lt) (h'.imp Nat.ne_of_lt)).mpr hmem
  exact hperm.eq_of_pairwise (fun a b _ _ hab hba => absurd hab (Nat.lt_asymm hba)) h h'

theorem mem_foldl_insertLine (lines : List Nat) :
    ∀ {before : List Nat} {l : Nat},
      l ∈ lines.foldl (fun set line => insertLine line set) before ↔ l ∈ lines ∨ l ∈ before := by
  induction lines with
  | nil => simp
  | cons line lines ih =>
    intro before l
    rw [List.foldl_cons, ih, mem_insertLine, List.mem_cons, or_assoc, or_left_comm]

theorem pairwise_foldl_insertLine (lines : List Nat) :
    ∀ {before : List Nat}, before.Pairwise (· < ·) →
      (lines.foldl (fun set line => insertLine line set) before).Pairwise (· < ·) := by
  induction lines with
  | nil => exact id
  | cons line lines ih => exact fun h => ih (pairwise_insertLine h)

/-! ## The breakpoints of a debugger -/

/-- The lines are lines of the program, in ascending order. -/
structure Program.Marks (p : Program) (lines : List Nat) : Prop where
  ascending : lines.Pairwise (· < ·)
  inside : ∀ l ∈ lines, 1 ≤ l ∧ l ≤ p.lineCount

section

variable {p : Program} {lines : List Nat}

theorem Program.marks_nil (p : Program) : p.Marks [] :=
  ⟨.nil, fun _ hl => absurd hl List.not_mem_nil⟩

theorem Program.Marks.insert (h : p.Marks lines) {line : Int}
    (hline : 1 ≤ line ∧ line ≤ p.lineCount) : p.Marks (insertLine line.toNat lines) := by
  refine ⟨pairwise_insertLine h.ascending, fun l hl => ?_⟩
  rcases mem_insertLine.mp hl with rfl | hl
  · omega
  · exact h.inside l hl

theorem Program.Marks.filter (h : p.Marks lines) (test : Nat → Bool) :
    p.Marks (lines.filter test) :=
  ⟨h.ascending.filter test, fun l hl => h.inside l (List.mem_of_mem_filter hl)⟩

theorem Program.Marks.insertAll {inserted : List Int}
    (hinserted : ∀ line ∈ inserted, 1 ≤ line ∧ line ≤ p.lineCount) :
    ∀ {lines : List Nat}, p.Marks lines →
      p.Marks (inserted.foldl (fun ls line => insertLine line.toNat ls) lines) := by
  induction inserted with
  | nil => exact id
  | cons line rest ih =>
    obtain ⟨hline, hrest⟩ := List.forall_mem_cons.mp hinserted
    exact fun h => ih hrest (h.insert hline)

end

theorem Debugger.breakpoints_start (p : Program) (input : List UInt8) (debug : Bool)
    (maxSteps : Int) (breakpoints : List Nat) :
    (start p input debug maxSteps breakpoints).breakpoints = breakpoints := rfl

theorem Debugger.breakpoints_restart (d : Debugger) : d.restart.breakpoints = d.breakpoints :=
  breakpoints_start d.program d.input d.debug d.maxSteps d.breakpoints

namespace Session

section

variable {source : List UInt8} {p : Program} {input : List UInt8} {debug : Bool} {maxSteps : Int}

/-- **Every call keeps the breakpoints in order.** -/
theorem Tracks.marks_call {s : Session} (h : s.Tracks p input debug maxSteps)
    (hmarks : p.Marks s.debugger.breakpoints) (call : Call) :
    p.Marks (s.call call).debugger.breakpoints := by
  cases call with
  | step count => rwa [Session.call, Session.record, Debugger.step, Debugger.breakpoints_advance]
  | resume => rwa [Session.call, Session.record, Debugger.resume, Debugger.breakpoints_advance]
  | restart => rwa [Session.call, ofDebugger, Debugger.breakpoints_restart]
  | setBreakpoint line =>
    rw [Session.call, Debugger.setBreakpoint]
    by_cases hline : 1 ≤ line ∧ line ≤ s.debugger.lineCount
    · rw [if_pos hline]
      rw [Debugger.lineCount, h.program_eq] at hline
      exact hmarks.insert hline
    · rwa [if_neg hline]
  | clearBreakpoint line =>
    rw [Session.call, Debugger.clearBreakpoint]
    by_cases hline : s.debugger.breakpoints.any (fun l => (l : Int) = line) = true
    · rw [if_pos hline]
      exact hmarks.filter _
    · rwa [if_neg hline]

theorem Tracks.marks_run (hp : p.Prepared source) (calls : List Call) :
    ∀ {s : Session}, s.Tracks p input debug maxSteps → p.Marks s.debugger.breakpoints →
      p.Marks (s.run calls).debugger.breakpoints := by
  induction calls with
  | nil => exact fun _ hmarks => hmarks
  | cons call calls ih =>
    exact fun h hmarks => ih (h.call hp call) (h.marks_call hmarks call)

end

end Session

/-! ## What calls show -/

/-- What a call returns. -/
inductive Returned where
  /-- The number of instructions done. -/
  | executed (count : Nat)
  | nothing
  | refused (e : OutsideProgram)
  /-- Whether there was a breakpoint to remove. -/
  | removed (found : Bool)

/-- What can be seen of a debugger after a call. -/
structure Sight where
  returned : Returned
  state : Snapshot
  status : Status
  error : Option Fault
  breakpoints : List Nat

/-- What a call on the debugger returns. -/
def Debugger.returned (d : Debugger) : Call → Returned
  | .step count => .executed (d.step count).1
  | .resume => .executed d.resume.1
  | .restart => .nothing
  | .setBreakpoint line =>
    match d.setBreakpoint line with
    | .ok _ => .nothing
    | .error e => .refused e
  | .clearBreakpoint line => .removed (d.clearBreakpoint line).1

namespace Session

/-- What is seen after the call. -/
def sight (s : Session) (call : Call) : Sight :=
  let d := (s.call call).debugger
  ⟨s.debugger.returned call, d.state, d.status, d.error, d.breakpoints⟩

/-- What is seen of the calls, one after the other. -/
def sights (s : Session) : List Call → List Sight
  | [] => []
  | call :: calls => s.sight call :: (s.call call).sights calls

/-! ## Setting several breakpoints -/

/-- The calls that set a breakpoint on each of the lines. -/
def settingCalls (lines : List Nat) : List Call := lines.map fun line => .setBreakpoint line

/-- The session with other breakpoints. -/
def withBreakpoints (s : Session) (breakpoints : List Nat) : Session :=
  { s with debugger := { s.debugger with breakpoints } }

theorem call_setBreakpoint {s : Session} {line : Nat}
    (h : 1 ≤ line ∧ line ≤ s.debugger.lineCount) :
    s.call (.setBreakpoint line)
      = s.withBreakpoints (insertLine line s.debugger.breakpoints) := by
  rw [call, Debugger.setBreakpoint, if_pos (by omega)]
  rfl

theorem run_settingCalls (lines : List Nat) :
    ∀ {s : Session}, (∀ l ∈ lines, 1 ≤ l ∧ l ≤ s.debugger.lineCount) →
      s.run (settingCalls lines) = s.withBreakpoints
        (lines.foldl (fun set line => insertLine line set) s.debugger.breakpoints) := by
  induction lines with
  | nil => intro s _; rfl
  | cons line lines ih =>
    intro s h
    obtain ⟨hline, hlines⟩ := List.forall_mem_cons.mp h
    calc s.run (settingCalls (line :: lines))
        = (s.call (.setBreakpoint line)).run (settingCalls lines) := rfl
      _ = (s.withBreakpoints (insertLine line s.debugger.breakpoints)).run
            (settingCalls lines) := by rw [call_setBreakpoint hline]
      _ = _ := ih hlines

/-- Breakpoints on lines of the program are not refused. -/
theorem returned_settingCalls (lines : List Nat) :
    ∀ {s : Session}, (∀ l ∈ lines, 1 ≤ l ∧ l ≤ s.debugger.lineCount) →
      ∀ seen ∈ s.sights (settingCalls lines), seen.returned = .nothing := by
  induction lines with
  | nil => intro s _ seen hseen; exact absurd hseen List.not_mem_nil
  | cons line lines ih =>
    intro s h seen hseen
    obtain ⟨hline, hlines⟩ := List.forall_mem_cons.mp h
    rcases List.mem_cons.mp hseen with rfl | hseen
    · show s.debugger.returned (.setBreakpoint line) = .nothing
      rw [Debugger.returned, Debugger.setBreakpoint, if_pos (by omega)]
    · refine ih ?_ seen hseen
      rw [call_setBreakpoint hline]
      exact hlines

end Session

/-! ## Restarting is starting -/

section

variable {source : List UInt8} {p : Program} {input : List UInt8} {debug : Bool} {maxSteps : Int}

/-- **A restarted debugger is a new one.** -/
theorem Session.Tracks.call_restart {old : Session} {lines : List Nat}
    (h : old.Tracks p input debug maxSteps) (hmarks : p.Marks old.debugger.breakpoints)
    (hlines : ∀ l, l ∈ lines ↔ l ∈ old.debugger.breakpoints) :
    old.call .restart
      = (ofDebugger (.start p input debug maxSteps [])).run (settingCalls lines) := by
  -- the order in which they were set is lost, since both lists are ascending
  have hsame : lines.foldl (fun set line => insertLine line set) [] = old.debugger.breakpoints := by
    refine eq_of_pairwise_lt (pairwise_foldl_insertLine lines .nil) hmarks.ascending fun l => ?_
    rw [mem_foldl_insertLine, hlines]
    simp
  have hinside : ∀ l ∈ lines,
      1 ≤ l ∧ l ≤ (ofDebugger (.start p input debug maxSteps [])).debugger.lineCount :=
    fun l hl => hmarks.inside l ((hlines l).mp hl)
  rw [run_settingCalls lines hinside, show (ofDebugger
    (.start p input debug maxSteps [])).debugger.breakpoints = [] from rfl, hsame, Session.call,
    Debugger.restart, h.program_eq, h.input_eq, h.debug_eq, h.maxSteps_eq]
  rfl

/-- What is seen of the session `old` from a restart on is what is seen of the session `new`, once
breakpoints are set on the lines that `old` had them on. -/
structure Session.RestartsAs (old new : Session) (lines : List Nat) : Prop where
  not_refused : ∀ seen ∈ new.sights (settingCalls lines), seen.returned = .nothing
  breakpoints_eq : (new.run (settingCalls lines)).debugger.breakpoints = old.debugger.breakpoints
  /-- Before the next call. -/
  at_start : (old.call .restart).debugger.state = (new.run (settingCalls lines)).debugger.state ∧
    (old.call .restart).debugger.status = (new.run (settingCalls lines)).debugger.status ∧
    (old.call .restart).debugger.error = (new.run (settingCalls lines)).debugger.error ∧
    (old.call .restart).debugger.breakpoints
      = (new.run (settingCalls lines)).debugger.breakpoints
  replayed : ∀ calls, (old.call .restart).sights calls = (new.run (settingCalls lines)).sights calls

/-- **A restart replays the run.** Of a balanced source there is a debugger. Whatever has been called
on it, from a restart on every call shows what it shows on a new one with the same breakpoints. -/
theorem restart_replays (source input : List UInt8) (debug : Bool) (maxSteps : Int)
    (h : Balanced source) :
    ∃ d, Debugger.ofSource source input debug maxSteps = .ok d ∧
      ∀ (history : List Call) (lines : List Nat),
        (∀ l, l ∈ lines ↔ l ∈ ((Session.ofDebugger d).run history).debugger.breakpoints) →
        ((Session.ofDebugger d).run history).RestartsAs (.ofDebugger d) lines := by
  obtain ⟨p, hprepare⟩ := Program.exists_prepare_of_balanced h
  have hp := Program.prepared_of_prepare hprepare
  refine ⟨.start p input debug maxSteps [], by rw [Debugger.ofSource, hprepare],
    fun history lines hlines => ?_⟩
  have hstart := Session.tracks_start p input debug maxSteps []
  have hmarks := hstart.marks_run hp history ⟨.nil, fun l hl => absurd hl List.not_mem_nil⟩
  have hrestart := (hstart.run hp history).call_restart hmarks hlines
  refine ⟨?_, ?_, ?_, fun calls => by rw [hrestart]⟩
  · exact Session.returned_settingCalls lines fun l hl => hmarks.inside l ((hlines l).mp hl)
  · rw [← hrestart]
    exact Debugger.breakpoints_restart _
  · rw [hrestart]
    exact ⟨rfl, rfl, rfl, rfl⟩

/-- A debugger of `+[.-]` that is exhausted in the loop, with a breakpoint. -/
theorem restart_replays_exhausted_run :
    Balanced [0x2B, 0x5B, 0x2E, 0x2D, 0x5D] ∧
      ∃ d, Debugger.ofSource [0x2B, 0x5B, 0x2E, 0x2D, 0x5D] [] false 4 = .ok d ∧
        (∀ l, l ∈ [1] ↔ l ∈ ((Session.ofDebugger d).run
          [.setBreakpoint 1, .step 2, .resume]).debugger.breakpoints) ∧
        ((Session.ofDebugger d).run [.setBreakpoint 1, .step 2, .resume]).RestartsAs
          (.ofDebugger d) [1] := by
  have h : Balanced [0x2B, 0x5B, 0x2E, 0x2D, 0x5D] :=
    Block.balanced_iff_exists_code.mpr
      ⟨.byte 0x2B rfl (.loop (.byte 0x2E rfl (.byte 0x2D rfl .nil)) .nil), rfl⟩
  obtain ⟨p, hp, hcount⟩ : ∃ p, Program.prepare [0x2B, 0x5B, 0x2E, 0x2D, 0x5D] = .ok p ∧
      p.lineCount = 1 := ⟨_, rfl, by decide⟩
  obtain ⟨d, hd, hreplays⟩ := restart_replays _ [] false 4 h
  have hset : ((Session.ofDebugger d).call (.setBreakpoint 1)).debugger.breakpoints = [1] := by
    rw [Debugger.ofSource, hp] at hd
    cases hd
    have hline : 1 ≤ 1 ∧ 1 ≤ (Session.ofDebugger (.start p [] false 4 [])).debugger.lineCount :=
      ⟨Nat.le_refl 1, Nat.le_of_eq hcount.symm⟩
    exact congrArg (fun s : Session => s.debugger.breakpoints) (Session.call_setBreakpoint hline)
  have hlines : ∀ l, l ∈ [1] ↔ l ∈ ((Session.ofDebugger d).run
      [.setBreakpoint 1, .step 2, .resume]).debugger.breakpoints := by
    intro l
    simp only [Session.run, List.foldl_cons, List.foldl_nil]
    rw [Session.breakpoints_call (show Call.resume.Advances from trivial),
      Session.breakpoints_call (show (Call.step 2).Advances from trivial), hset]
  exact ⟨h, d, hd, hlines, hreplays _ [1] hlines⟩

end

end TapeMachine
