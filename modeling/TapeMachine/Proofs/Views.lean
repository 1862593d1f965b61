import TapeMachine.Proofs.Consistency
import TapeMachine.Proofs.FrontEnds
import TapeMachine.Proofs.Isolation

/-!
# Views of a debugger

A view shows status, error and line of a debugger side by side. They fit together in it as they do in
the debugger (`consistent_view`).

All that a service does to a debugger that it keeps is what calls do to it, so every debugger that is
kept is one of a session (`Debugger.Reached`). So no answer shows anything else, whatever was asked
before (`served_views_are_consistent`).
-/

namespace TapeMachine

namespace Web

/-! ## Consistent answers -/

/-- What an answer shows of a debugger fits together. -/
structure Answer.Consistent (a : Answer) : Prop where
  status : ∃ status : Status, a.member? "status" = some (.string status.name)
  no_error_iff : a.member? "error" = some .null ↔
    a.member? "status" ≠ some (.string "failed") ∧ a.member? "status" ≠ some (.string "exhausted")
  /-- The error has the line that is shown. -/
  failed : a.member? "status" = some (.string "failed") →
    ∃ (message : String) (line : Nat), a.member? "line" = some (.nat line) ∧
      a.member? "error" = some (.object [("message", .string message), ("line", .nat line)])
  exhausted : a.member? "status" = some (.string "exhausted") →
    ∃ message : String,
      a.member? "error" = some (.object [("message", .string message), ("line", .null)])

/-! ## The view of a session -/

section

variable {id : String} {d : Debugger} {status executed : Nat}

theorem member?_view_line :
    Answer.member? (.ok (.view status id d executed)) "line"
      = some (Json.ofOption .nat d.state.line) := rfl

theorem ofOption_faultJson_eq_null_iff {error : Option Fault} :
    Json.ofOption faultJson error = .null ↔ error = none := by
  cases error with
  | none => exact ⟨fun _ => rfl, fun _ => rfl⟩
  | some fault => cases fault <;> exact ⟨fun h => (nomatch h), fun h => (nomatch h)⟩

/-- **The view of a debugger whose session is consistent is consistent.** -/
theorem consistent_view {s : Session} {maxSteps : Int} (h : s.Consistent maxSteps) (id : String)
    (status executed : Nat) :
    Answer.Consistent (.ok (.view status id s.debugger executed)) := by
  have hfailed : Answer.member? (.ok (.view status id s.debugger executed)) "status"
      = some (.string "failed") ↔ s.debugger.status = .failed := member?_view_status .failed
  have hexhausted : Answer.member? (.ok (.view status id s.debugger executed)) "status"
      = some (.string "exhausted") ↔ s.debugger.status = .exhausted :=
    member?_view_status .exhausted
  refine ⟨⟨s.debugger.status, (member?_view_status _).mpr rfl⟩, ?_, fun hs => ?_, fun hs => ?_⟩
  · rw [member?_view_error, Option.some.injEq, ofOption_faultJson_eq_null_iff, ne_eq, ne_eq, hfailed,
      hexhausted]
    refine ⟨fun hnone => ⟨fun hs => ?_, fun hs => ?_⟩, fun hs => h.no_error hs.1 hs.2⟩
    · obtain ⟨line, symbol, herror⟩ := h.failed_iff.mp hs
      rw [hnone] at herror
      cases herror
    · obtain ⟨budget, herror⟩ := h.exhausted_iff.mp hs
      rw [hnone] at herror
      cases herror
  · obtain ⟨line, symbol, herror⟩ := h.failed_iff.mp (hfailed.mp hs)
    refine ⟨(Diagnostic.outOfBounds line symbol.toString).message, line, ?_, ?_⟩
    · rw [member?_view_line, h.failed_line line symbol herror]
      rfl
    · rw [member?_view_error, herror]
      rfl
  · obtain ⟨budget, herror⟩ := h.exhausted_iff.mp (hexhausted.mp hs)
    refine ⟨(Fault.exhausted budget).message, ?_⟩
    rw [member?_view_error, herror]
    rfl

end

/-- **Status, error and state of a debugger are consistent**, in itself and in its view. Of a balanced
source there is a debugger, and whatever is called on it leaves it so. -/
theorem debugger_stays_consistent (source input : List UInt8) (debug : Bool) (maxSteps : Int)
    (h : Balanced source) :
    ∃ d, Debugger.ofSource source input debug maxSteps = .ok d ∧
      ∀ calls : List Call, ((Session.ofDebugger d).run calls).Consistent maxSteps ∧
        ∀ (id : String) (status executed : Nat), Answer.Consistent
          (.ok (.view status id ((Session.ofDebugger d).run calls).debugger executed)) := by
  obtain ⟨p, hprepare⟩ := Program.exists_prepare_of_balanced h
  have hp := Program.prepared_of_prepare hprepare
  refine ⟨.start p input debug maxSteps [], by rw [Debugger.ofSource, hprepare], fun calls => ?_⟩
  have hconsistent :=
    ((Session.tracks_start p input debug maxSteps []).run hp calls).consistent hp
  exact ⟨hconsistent, consistent_view hconsistent⟩

/-- A debugger of `+[.<]` that has failed in the loop. -/
theorem debugger_stays_consistent_after_failure :
    Balanced [0x2B, 0x5B, 0x2E, 0x3C, 0x5D] ∧
      ∃ d, Debugger.ofSource [0x2B, 0x5B, 0x2E, 0x3C, 0x5D] [] false 9 = .ok d ∧
        ((Session.ofDebugger d).run [.step 2, .resume, .step 1]).Consistent 9 ∧
        Answer.Consistent (.ok (.view 200 "k"
          ((Session.ofDebugger d).run [.step 2, .resume, .step 1]).debugger 0)) := by
  have h : Balanced [0x2B, 0x5B, 0x2E, 0x3C, 0x5D] :=
    Block.balanced_iff_exists_code.mpr
      ⟨.byte 0x2B rfl (.loop (.byte 0x2E rfl (.byte 0x3C rfl .nil)) .nil), rfl⟩
  obtain ⟨d, hd, hconsistent⟩ := debugger_stays_consistent _ [] false 9 h
  obtain ⟨hsession, hview⟩ := hconsistent [.step 2, .resume, .step 1]
  exact ⟨h, d, hd, hsession, hview "k" 200 0⟩

/-! ## What actions make of a debugger -/

variable {app : App} {fresh : String} {r : Request} {result : App × Answer} {d d' : Debugger}

theorem reached_setBreakpoints : ∀ {lines : List Int} {d : Debugger}, d.Reached →
    App.setBreakpoints d lines = .ok d' → d'.Reached := by
  intro lines
  induction lines with
  | nil =>
    intro d h hset
    cases hset
    exact h
  | cons line lines ih =>
    intro d h hset
    rw [App.setBreakpoints, Debugger.setBreakpoint] at hset
    by_cases hline : 1 ≤ line ∧ line ≤ d.lineCount
    · rw [if_pos hline] at hset
      exact ih (h.breakpoints _) hset
    · rw [if_neg hline] at hset
      cases hset

/-- A debugger that is opened is at the start of a session. -/
theorem reached_of_debugger? {form : DebuggerForm} (h : form.debugger? = some d) : d.Reached := by
  obtain ⟨code, d₀, -, hd₀, hset⟩ := form.exists_of_debugger? h
  exact reached_setBreakpoints (Debugger.reached_of_ofSource hd₀) hset

/-- **What an action makes of a debugger is reached too.** -/
theorem reached_of_perform {a : Action} {body : Body} (h : d.Reached)
    (hperform : a.perform d = some (d', body)) : d'.Reached := by
  cases a with
  | view | dump =>
    cases hperform
    exact h
  | step | resume =>
    cases hperform
    exact h.advance _
  | restart =>
    cases hperform
    exact h.restart
  | setBreakpoints lines =>
    simp only [Action.perform] at hperform
    split at hperform
    · cases hperform
      exact h.breakpoints _
    · cases hperform

/-- An action shows a view of what it makes of a debugger, or a text. -/
theorem body_of_perform {a : Action} {body : Body} (hperform : a.perform d = some (d', body)) :
    (∃ executed, body = viewBody d' executed) ∨ ∃ text, body = .text text := by
  cases a with
  | view | step | resume | restart =>
    cases hperform
    exact .inl ⟨_, rfl⟩
  | dump =>
    cases hperform
    exact .inr ⟨_, rfl⟩
  | setBreakpoints lines =>
    simp only [Action.perform] at hperform
    split at hperform
    · cases hperform
      exact .inl ⟨_, rfl⟩
    · cases hperform

/-! ## Answers with a view -/

/-- The answer is that of a request that succeeds, and shows a debugger. -/
def Answer.showsDebugger (a : Answer) : Bool := a.succeeded && (a.member? "status").isSome

theorem Answer.Consistent.congr {a a' : Answer} (h : a'.Consistent)
    (hsame : ∀ name ∈ ["status", "error", "line"], a.member? name = a'.member? name) :
    a.Consistent := by
  have hstatus := hsame "status" (by simp)
  have herror := hsame "error" (by simp)
  have hline := hsame "line" (by simp)
  exact ⟨by rw [hstatus]; exact h.status, by rw [hstatus, herror]; exact h.no_error_iff,
    by rw [hstatus, herror, hline]; exact h.failed, by rw [hstatus, herror]; exact h.exhausted⟩

/-- Leaving out the identifier leaves the other members as they are. -/
theorem member?_withoutId {status : Nat} {body : Body} {name : String}
    (hname : Text.Loose.ofString name ≠ .ofString "id") :
    Answer.member? (.ok ⟨status, body.withoutId⟩) name = Answer.member? (.ok ⟨status, body⟩) name := by
  cases body with
  | text value => rfl
  | empty => rfl
  | json value =>
    cases value with
    | object members =>
      show Json.member? (members.filter (·.1 != .ofString "id")) name = Json.member? members name
      unfold Json.member?
      rw [← List.filter_reverse, List.find?_filter]
      congr 2
      funext m
      -- a member of that name is none that is left out
      by_cases hm : m.1 = .ofString name <;> simp [hm, hname]
    | _ => rfl

theorem consistent_view_of_reached (h : d.Reached) (id : String) (status executed : Nat) :
    Answer.Consistent (.ok (.view status id d executed)) := by
  obtain ⟨source, p, input, debug, maxSteps, s, hp, htracks, rfl⟩ := h
  exact consistent_view (htracks.consistent hp) id status executed

/-- The answer that an action shows has the members of a view, if it shows a debugger at all. -/
theorem exists_view_of_perform {a : Action} {response : Response}
    (hperform : a.perform d = some (d', response.body.withoutId))
    (hshows : Answer.showsDebugger (.ok response) = true) :
    ∃ executed, ∀ name, Text.Loose.ofString name ≠ .ofString "id" →
      Answer.member? (.ok response) name = Answer.member? (.ok (.view 200 "" d' executed)) name := by
  obtain ⟨status, body⟩ := response
  rcases body_of_perform hperform with ⟨executed, hbody⟩ | ⟨text, hbody⟩
  · refine ⟨executed, fun name hname => ?_⟩
    rw [← member?_withoutId hname, hbody]
    exact member?_withoutId hname
  · have hnone : Answer.member? (.ok ⟨status, body⟩) "status" = none := by
      rw [← member?_withoutId (by decide), hbody]
      rfl
    simp [Answer.showsDebugger, hnone] at hshows

theorem not_showsDebugger_runProgram (form : ProgramForm) (code : String) :
    Answer.showsDebugger (.ok (App.runProgram form code)) = false := by
  have hnone : Answer.member? (.ok (App.runProgram form code)) "status" = none := by
    simp only [App.runProgram]
    split
    · rfl
    · split
      · split <;> rfl
      · rfl
  simp [Answer.showsDebugger, hnone]

/-! ## Every view that is served -/

/-- Some session has come to each debugger that is kept. -/
def App.Reached (app : App) : Prop := ∀ e ∈ app.registry.entries, e.2.Reached

/-- An answer that shows a debugger has the members of a view of it, and of this debugger holds what
holds of all that are kept. -/
theorem Handled.exists_view {P : Debugger → Prop} (h : Handled app fresh r result)
    (hopened : ∀ {form : DebuggerForm} {d : Debugger}, form.debugger? = some d → P d)
    (hacted : ∀ {a : Action} {d d' : Debugger} {body : Body},
      a.perform d = some (d', body) → P d → P d')
    (happ : ∀ e ∈ app.registry.entries, P e.2) (hshows : result.2.showsDebugger = true) :
    ∃ status id d executed, P d ∧ ∀ name, Text.Loose.ofString name ≠ .ofString "id" →
      result.2.member? name = Answer.member? (.ok (.view status id d executed)) name := by
  cases h with
  | rejected _ hfailed | rejectedLate _ _ _ hfailed =>
    simp [Answer.showsDebugger, hfailed.not_succeeded] at hshows
  | missing | crashed | closed => exact nomatch hshows
  | ran =>
    rw [not_showsDebugger_runProgram] at hshows
    exact absurd hshows Bool.false_ne_true
  | @opened _ d _ _ hd => exact ⟨201, fresh, d, 0, hopened hd, fun _ _ => rfl⟩
  | @acted _ d d' _ _ _ hd hperform =>
    obtain ⟨executed, hview⟩ := exists_view_of_perform hperform hshows
    exact ⟨200, "", d', executed, hacted hperform (happ _ (Registry.mem_entries_of_find? hd)), hview⟩

/-- **One request** keeps the debuggers in their sessions. -/
theorem Handled.reached (h : Handled app fresh r result) (happ : app.Reached) :
    result.1.Reached ∧ (result.2.showsDebugger = true → result.2.Consistent) := by
  have hacted : ∀ {a : Action} {d d' : Debugger} {body : Body},
      a.perform d = some (d', body) → d.Reached → d'.Reached :=
    fun hperform hd => reached_of_perform hd hperform
  refine ⟨h.kept reached_of_debugger? hacted happ, fun hshows => ?_⟩
  obtain ⟨status, id, d, executed, hd, hview⟩ :=
    h.exists_view reached_of_debugger? hacted happ hshows
  have hmembers : ∀ name ∈ ["status", "error", "line"],
      Text.Loose.ofString name ≠ .ofString "id" := by decide
  exact (consistent_view_of_reached hd id status executed).congr
    fun name hname => hview name (hmembers name hname)

/-- Over a whole run too. -/
theorem App.Reached.answers {requests : List (String × Request)} (h : app.Reached) :
    ∀ answer ∈ app.answers requests, answer.2.showsDebugger = true → answer.2.Consistent := by
  induction requests generalizing app with
  | nil => exact fun answer hanswer => absurd hanswer List.not_mem_nil
  | cons request rest ih =>
    obtain ⟨fresh, r⟩ := request
    obtain ⟨hnext, hone⟩ := (app.handled fresh r).reached h
    intro answer hanswer
    rcases List.mem_cons.mp hanswer with rfl | hanswer
    · exact hone
    · exact ih hnext answer hanswer

/-- **Every view that a service answers is consistent**, whatever it was asked before. -/
theorem served_views_are_consistent (capacity : Int) (requests : List (String × Request)) :
    ∀ answer ∈ (App.empty capacity).answers requests,
      answer.2.showsDebugger = true → answer.2.Consistent :=
  App.Reached.answers fun _ he => absurd he List.not_mem_nil

end Web

end TapeMachine
