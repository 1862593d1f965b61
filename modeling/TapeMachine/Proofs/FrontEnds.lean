import Mathlib
import TapeMachine.Proofs.Budget
import TapeMachine.Proofs.Requests

/-!
# The front ends agree

A program can be run by a request, it can be run in a debugger that is opened and continued by
requests, and its source can be interpreted without a service. All three come to the same outcome,
each in its own words: they refuse the same sources for the same reasons (`Refused`), and otherwise
they end alike (`Agreed`), but that only the service has a budget.

The budget of a run counts its attempts, and that of a debugger the states it asks for, so that they
belong to different loops. Both follow one run, which has one end (`Config.EndsAfter.unique`).
-/

namespace TapeMachine.Web

/-- The member of a name in the body of an answer. -/
def Answer.member? : Answer → String → Option Json
  | .ok ⟨_, .json (.object members)⟩, name => Json.member? members name
  | _, _ => none

/-! ## Agreement -/

/-- A source is refused for the reasons `ds`, by whoever is asked. -/
structure Refused (source input : List UInt8) (debug : Bool) (ds : List Diagnostic)
    (ran opened : Answer) : Prop where
  nonempty : ds ≠ []
  ran_status : ran.status? = some 200
  ran_success : ran.member? "success" = some (.bool false)
  ran_output : ran.member? "output" = some (.string "")
  ran_diagnostics : ran.member? "diagnostics" = some (.array (ds.map diagnosticJson))
  opened_status : opened.status? = some 422
  opened_detail : opened.member? "detail" = some (.array (ds.map diagnosticJson))
  interprets : Interprets source input debug ⟨false, [], String.join (ds.map Diagnostic.report)⟩

/-- A source is run, and whoever is asked tells the same of it. -/
structure Agreed (source input : List UInt8) (debug : Bool) (ran opened continued : Answer) :
    Prop where
  opened_status : opened.status? = some 201
  continued_status : continued.status? = some 200
  halted : ∃ status : Status, status.halted ∧
    continued.member? "status" = some (.string status.name)
  conflict_iff : ran.status? = some 409 ↔ continued.member? "status" = some (.string "exhausted")
  success_iff : ran.member? "success" = some (.bool true) ↔
    continued.member? "status" = some (.string "finished")
  failure_iff : ran.member? "success" = some (.bool false) ↔
    continued.member? "status" = some (.string "failed")
  finished : continued.member? "status" = some (.string "finished") →
    ∃ out, ran.member? "output" = some (.string (Latin1.decode out)) ∧
      continued.member? "output" = some (.string (Latin1.decode out)) ∧
      ran.member? "diagnostics" = some (.array []) ∧
      Interprets source input debug ⟨true, out, ""⟩
  failed : continued.member? "status" = some (.string "failed") →
    ∃ out d, ran.member? "output" = some (.string (Latin1.decode out)) ∧
      continued.member? "output" = some (.string (Latin1.decode out)) ∧
      ran.member? "diagnostics" = some (.array [diagnosticJson d]) ∧
      continued.member? "error"
        = some (.object [("message", .string d.message), ("line", .int d.line)]) ∧
      Interprets source input debug ⟨false, out, d.report⟩

/-! ## Runs -/

/-- How a run that has ended with the output `out` is answered. -/
def Response.ofEnding (out : Output) : Ending → Response
  | .finished => ⟨200, .json (runJson out.toList [])⟩
  | .failed f =>
    match f.diagnostic? with
    | some d => ⟨200, .json (runJson out.toList [d])⟩
    | none => .detail 409 (.string f.message)

/-- The attempts that a request allows are enough. -/
theorem runProgram_of_endsAfter {form : ProgramForm} {code : String} {p : Program} {n : Nat}
    {c : Config} {e : Ending} (hp : Program.prepare (Utf8.encode code) = .ok p)
    (h : Config.EndsAfter ⟨p, form.debug, some form.maxSteps⟩
      (.start Machine.defaultLength form.input) n c e) :
    App.runProgram form code = .ofEnding c.output e := by
  obtain ⟨m, d, e', hm, hends⟩ := Config.exists_endsAfter_of_budget form.maxSteps
    (s := ⟨p, form.debug, some form.maxSteps⟩) (c := .start Machine.defaultLength form.input)
    rfl rfl
  obtain ⟨rfl, -, -⟩ := hends.unique h
  have hexecute := Config.execute_eq_some_iff.mpr ⟨m, Nat.lt_succ_of_le hm, h⟩
  simp only [App.runProgram, hp, Machine.execute, Machine.length_blank, hexecute]
  cases e <;> rfl

/-- The run of a source that is accepted has an end. -/
theorem exists_runProgram_eq (form : ProgramForm) {code : String} {p : Program}
    (hp : Program.prepare (Utf8.encode code) = .ok p) :
    ∃ n c e, Config.EndsAfter ⟨p, form.debug, some form.maxSteps⟩
        (.start Machine.defaultLength form.input) n c e ∧
      App.runProgram form code = .ofEnding c.output e := by
  obtain ⟨n, c, e, -, hends⟩ := Config.exists_endsAfter_of_budget form.maxSteps
    (s := ⟨p, form.debug, some form.maxSteps⟩) (c := .start Machine.defaultLength form.input)
    rfl rfl
  exact ⟨n, c, e, hends, runProgram_of_endsAfter hp hends⟩

/-- A source that is refused is answered with its report. -/
theorem runProgram_of_error {form : ProgramForm} {code : String} {ds : List Diagnostic}
    (hds : Program.prepare (Utf8.encode code) = .error ds) :
    App.runProgram form code = ⟨200, .json (runJson [] ds)⟩ := by
  simp only [App.runProgram, hds]

/-! ## Answers that tell of a run -/

/-- How a run ends that has a budget, on a tape with cells. -/
inductive Budgeted : Ending → Prop
  | finished : Budgeted .finished
  | outOfBounds (line : Nat) (symbol : Char) : Budgeted (.failed (.outOfBounds line symbol))
  | exhausted (budget : Int) : Budgeted (.failed (.exhausted budget))

theorem budgeted_of_endsAfter {s : Setup} {input : List UInt8} {n : Nat} {c : Config} {e : Ending}
    (h : Config.EndsAfter s (.start Machine.defaultLength input) n c e) : Budgeted e := by
  cases e with
  | finished => exact .finished
  | failed fault =>
    rcases Config.fault_cases h.ending_eq (onTape_of_after_start h.after_eq) with
      ⟨line, symbol, rfl⟩ | ⟨budget, -, -, rfl⟩
    · exact .outOfBounds line symbol
    · exact .exhausted budget

section

variable {source input : List UInt8} {debug : Bool} {out : Output} {e : Ending} {d : Debugger}
  {id : String} {status executed : Nat} {opened : Answer}

theorem status_ofEnding (he : Budgeted e) :
    Answer.status? (.ok (.ofEnding out e)) = some (if e.status = .exhausted then 409 else 200) := by
  cases he <;> rfl

theorem success_ofEnding (he : Budgeted e) :
    Answer.member? (.ok (.ofEnding out e)) "success"
      = if e.status = .exhausted then none else some (.bool (e.status = .finished)) := by
  cases he <;> rfl

theorem name_injective {s t : Status} (h : Text.Loose.ofString s.name = .ofString t.name) :
    s = t := by
  revert h
  cases s <;> cases t <;> decide

theorem member?_view_status (s : Status) :
    Answer.member? (.ok (.view status id d executed)) "status" = some (.string s.name) ↔
      d.status = s := by
  have hmember : Answer.member? (.ok (.view status id d executed)) "status"
      = some (.string d.status.name) := rfl
  rw [hmember, Option.some.injEq, Json.string.injEq]
  exact ⟨name_injective, congrArg fun s : Status => Text.Loose.ofString s.name⟩

theorem member?_view_output :
    Answer.member? (.ok (.view status id d executed)) "output"
      = some (.string (Latin1.decode d.state.output.toList)) := rfl

theorem member?_view_error :
    Answer.member? (.ok (.view status id d executed)) "error"
      = some (Json.ofOption faultJson d.error) := rfl

theorem agreed_of_ending (he : Budgeted e) (hopened : opened.status? = some 201)
    (hstatus : d.status = e.status) (herror : d.error = e.fault?) (houtput : d.state.output = out)
    (hinterprets : e.status ≠ .exhausted → Interprets source input debug (.ofEnding out e)) :
    Agreed source input debug (.ok (.ofEnding out e)) opened (.ok (.view 200 id d executed)) where
  opened_status := hopened
  continued_status := rfl
  halted := ⟨e.status, by cases he <;> rfl, (member?_view_status e.status).mpr hstatus⟩
  conflict_iff := by
    refine Iff.trans ?_ (member?_view_status .exhausted).symm
    rw [status_ofEnding he, hstatus]
    split <;> simp_all
  success_iff := by
    refine Iff.trans ?_ (member?_view_status .finished).symm
    rw [success_ofEnding he, hstatus]
    cases he <;> simp [Ending.status, Status.ofFault]
  failure_iff := by
    refine Iff.trans ?_ (member?_view_status .failed).symm
    rw [success_ofEnding he, hstatus]
    cases he <;> simp [Ending.status, Status.ofFault]
  finished h := by
    have hfinished := hstatus.symm.trans ((member?_view_status .finished).mp h)
    cases he with
    | finished =>
      refine ⟨out.toList, rfl, ?_, rfl, hinterprets (by simp [Ending.status])⟩
      rw [member?_view_output, houtput]
    | outOfBounds => cases hfinished
    | exhausted => cases hfinished
  failed h := by
    have hfailed := hstatus.symm.trans ((member?_view_status .failed).mp h)
    cases he with
    | finished => cases hfailed
    | outOfBounds line symbol =>
      refine ⟨out.toList, .outOfBounds line symbol.toString, rfl, ?_, rfl, ?_,
        hinterprets (by simp [Ending.status, Status.ofFault])⟩
      · rw [member?_view_output, houtput]
      · rw [member?_view_error, herror]
        rfl
    | exhausted => cases hfailed

end

/-! ## All programs -/

section

variable {app : App} {form : ProgramForm} {code fresh : String}

theorem refused_of_prepare {ds : List Diagnostic}
    (hds : Program.prepare (Utf8.encode code) = .error ds) :
    Refused (Utf8.encode code) form.input form.debug ds (.ok (App.runProgram form code))
      (app.openDebugger fresh ⟨form, []⟩ code).2 := by
  obtain ⟨hnonempty, -⟩ := Program.prepare_eq_error_iff.mp hds
  have hopened : app.openDebugger fresh ⟨form, []⟩ code
      = (app, .ok (.detail 422 (.array (ds.map diagnosticJson)))) := by
    simp only [App.openDebugger, Debugger.ofSource, hds]
  rw [runProgram_of_error hds, hopened]
  refine ⟨hnonempty, rfl, ?_, rfl, rfl, rfl, rfl, 0, ?_⟩
  · have hsuccess : Answer.member? (.ok ⟨200, .json (runJson [] ds)⟩) "success"
        = some (.bool ds.isEmpty) := rfl
    rw [hsuccess, List.isEmpty_eq_false_iff.mpr hnonempty]
  · simp only [interpret, hds, Interpretation.ofDiagnostics]

/-- A debugger that has just been opened is there to be continued. -/
theorem continue_opened {id : String} {r : Request} {d : Debugger}
    (hcapacity : 1 ≤ app.registry.capacity) (hid : id ∉ app.registry.ids)
    (hroute : r.route? = some (.continue id)) :
    ((⟨(app.registry.putLast id d).evict⟩ : App).handle fresh r).2
      = .ok (.view 200 id d.resume.2 d.resume.1) :=
  congrArg Prod.snd
    (App.handle_continue hroute (Registry.find?_evict_putLast_self hcapacity hid d))

/-- **The front ends agree on every program.** -/
theorem front_ends_agree (app : App) (form : ProgramForm) (code id : String)
    (running opening continuing : Request) (fresh fresh' : String)
    (hcapacity : 1 ≤ app.registry.capacity) (hid : id ∉ app.registry.ids)
    (hcode : form.code.read = .ok code)
    (hrunning : running.route? = some .run)
    (hran : running.form? ProgramForm.check = some form)
    (hopening : opening.route? = some .debuggers)
    (hopened : opening.form? DebuggerForm.check = some ⟨form, []⟩)
    (hcontinuing : continuing.route? = some (.continue id)) :
    (¬ Balanced (Utf8.encode code) → ∃ ds,
      Refused (Utf8.encode code) form.input form.debug ds (app.handle fresh running).2
        (app.handle id opening).2) ∧
    (Balanced (Utf8.encode code) →
      Agreed (Utf8.encode code) form.input form.debug (app.handle fresh running).2
        (app.handle id opening).2 ((app.handle id opening).1.handle fresh' continuing).2) := by
  rw [App.handle_run hrunning hran hcode, App.handle_debuggers hopening hopened hcode]
  constructor
  · intro hlone
    cases hprepare : Program.prepare (Utf8.encode code) with
    | ok p => exact absurd (Program.prepared_of_prepare hprepare).balanced hlone
    | error ds => exact ⟨ds, refused_of_prepare hprepare⟩
  · intro hbalanced
    obtain ⟨p, hprepare⟩ := Program.exists_prepare_of_balanced hbalanced
    obtain ⟨n, c, e, hends, hran⟩ := exists_runProgram_eq form hprepare
    obtain ⟨-, hstatus, herror, command, hstate⟩ :=
      Debugger.resume_spec (Program.prepared_of_prepare hprepare) hends
    have he := budgeted_of_endsAfter hends
    simp only [App.openDebugger_of_prepare hprepare (Int.le_trans Int.one_nonneg hcapacity),
      continue_opened hcapacity hid hcontinuing, hran]
    refine agreed_of_ending he rfl hstatus herror (congrArg Snapshot.output hstate)
      fun hstatus => ?_
    refine interprets_of_endsAfter hprepare (hends.without_budget fun m hm => hstatus ?_)
    rw [hm]
    rfl

/-- A program that writes a byte and moves off the tape, with just the budget that this takes. -/
theorem front_ends_agree_on_failing_program :
    let form : ProgramForm := ⟨.ofString "+.<", [], false, 3⟩
    let body := Utf8.encode "\x7b\"code\":\"+.<\",\"max_steps\":3\x7d"
    let running : Request := ⟨"POST", "/api/run", body⟩
    let opening : Request := ⟨"POST", "/api/debuggers", body⟩
    let continuing : Request := ⟨"POST", "/api/debuggers/k/continue", []⟩
    ((1 : Int) ≤ 1 ∧ "k" ∉ (App.empty 1).registry.ids ∧ form.code.read = .ok "+.<" ∧
      running.route? = some .run ∧ running.form? ProgramForm.check = some form ∧
      opening.route? = some .debuggers ∧ opening.form? DebuggerForm.check = some ⟨form, []⟩ ∧
      continuing.route? = some (.continue "k") ∧ Balanced (Utf8.encode "+.<")) ∧
    Agreed (Utf8.encode "+.<") [] false ((App.empty 1).handle "" running).2
      ((App.empty 1).handle "k" opening).2
      (((App.empty 1).handle "k" opening).1.handle "" continuing).2 := by
  have hbody : App.readBody (Utf8.encode "\x7b\"code\":\"+.<\",\"max_steps\":3\x7d") = .ok (some
      (.object [(.ofString "code", .string "+.<"), (.ofString "max_steps", .int 3)])) := by cbv
  have hcode : (Text.Loose.ofString "+.<").read = .ok "+.<" := Text.Loose.read_ofString _
  have hbalanced : Balanced (Utf8.encode "+.<") := by
    obtain ⟨p, hp⟩ : ∃ p, Program.prepare (Utf8.encode "+.<") = .ok p := ⟨_, by rfl⟩
    exact (Program.prepared_of_prepare hp).balanced
  intro form body running opening continuing
  have hid : "k" ∉ (App.empty 1).registry.ids := by decide
  have hrunning : running.route? = some .run := by decide +kernel
  have hran : running.form? ProgramForm.check = some form := Request.form?_eq_some hbody rfl
  have hopening : opening.route? = some .debuggers := by decide +kernel
  have hopened : opening.form? DebuggerForm.check = some ⟨form, []⟩ :=
    Request.form?_eq_some hbody rfl
  have hcontinuing : continuing.route? = some (.continue "k") := by decide +kernel
  have hagreed := (front_ends_agree (App.empty 1) form "+.<" "k" running opening continuing "" ""
    (by decide) hid hcode hrunning hran hopening hopened hcontinuing).2 hbalanced
  exact ⟨⟨by decide, hid, hcode, hrunning, hran, hopening, hopened, hcontinuing, hbalanced⟩,
    hagreed⟩

end

end TapeMachine.Web
