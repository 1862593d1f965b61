import Mathlib
import TapeMachine.Proofs.Budget
import TapeMachine.Proofs.CountedLoops
import TapeMachine.Proofs.Requests

/-!
# Debuggers do not disturb one another

A service answers one request after another, for any number of debuggers, and drops debuggers as it
goes. Still a debugger shows of itself what it would show if it were the only one: what its requests
show is what its actions come to on a debugger that no service keeps (`debuggers_are_isolated`).

A request reaches no debugger but its own (`Handled.shown_or_acted`). As long as no identifier
comes twice, what is found under one is the debugger that was opened under it, or nothing any more.
So nothing has to be said about when debuggers are closed or dropped.
-/

namespace TapeMachine.Web

/-! ## Serving requests -/

/-- A service after requests. Each comes with the identifier for a new debugger. -/
def App.serve (app : App) : List (String × Request) → App
  | [] => app
  | (fresh, r) :: rest => (app.handle fresh r).1.serve rest

/-- The answers to requests. -/
def App.answers (app : App) : List (String × Request) → List (Request × Answer)
  | [] => []
  | (fresh, r) :: rest =>
    (r, (app.handle fresh r).2) :: (app.handle fresh r).1.answers rest

/-- What a request for a debugger shows, if it succeeds. -/
def shown (id : String) : Request × Answer → Option (Request × Body)
  | (r, .ok response) =>
    if r.isFor id && Answer.succeeded (.ok response) then some (r, response.body.withoutId)
    else none
  | (_, .error _) => none

/-- The successful requests for a debugger, with what they show. -/
def App.exchanges (app : App) (id : String) (requests : List (String × Request)) :
    List (Request × Body) :=
  (app.answers requests).filterMap (shown id)

/-- Performs actions one after another: what becomes of the debugger, and what they show. -/
def Action.run (d : Debugger) : List Action → Option (Debugger × List Body)
  | [] => some (d, [])
  | a :: rest =>
    match a.perform d with
    | none => none
    | some (d, body) => (run d rest).map fun (d, bodies) => (d, body :: bodies)

variable {app : App} {fresh id : String} {r : Request} {d : Debugger} {result : App × Answer}
  {requests : List (String × Request)}

/-! ## Identifiers -/

/-- No identifier that comes with a request is in use, and none comes twice. -/
def App.Fresh (app : App) (requests : List (String × Request)) : Prop :=
  (app.registry.ids ++ requests.map (·.1)).Nodup

/-- A request brings in at most the identifier that comes with it. -/
theorem Handled.ids (h : Handled app fresh r result) (hnodup : app.registry.ids.Nodup)
    (hfresh : fresh ∉ app.registry.ids) :
    result.1.registry.ids.Nodup ∧
      ∀ x ∈ result.1.registry.ids, x ∈ app.registry.ids ∨ x = fresh := by
  have hlooked : ∀ {id : String} {d : Debugger} (d' : Debugger), app.registry.find? id = some d →
      ((app.registry.erase id).putLast id d').ids.Nodup ∧
      ∀ x ∈ ((app.registry.erase id).putLast id d').ids, x ∈ app.registry.ids ∨ x = fresh := by
    intro id d d' hd
    have hmem := Registry.mem_ids_of_find? hd
    exact ⟨(Registry.perm_ids_erase_putLast hnodup hmem d').nodup_iff.mpr hnodup,
      fun x hx => .inl ((Registry.mem_ids_erase_putLast hmem d').mp hx)⟩
  cases h with
  | rejected => exact ⟨hnodup, fun x => .inl⟩
  | missing => exact ⟨hnodup, fun x => .inl⟩
  | rejectedLate _ _ hd => exact hlooked _ hd
  | ran => exact ⟨hnodup, fun x => .inl⟩
  | opened =>
    rw [Registry.ids_evict]
    refine ⟨(Registry.nodup_ids_putLast hnodup hfresh _).sublist (List.drop_sublist _ _),
      fun x hx => ?_⟩
    have hx := List.mem_of_mem_drop hx
    rwa [Registry.ids_putLast, List.mem_append, List.mem_singleton] at hx
  | crashed => exact ⟨List.nodup_nil, fun x hx => absurd hx List.not_mem_nil⟩
  | acted haction hd => exact hlooked _ hd
  | closed =>
    rw [Registry.ids_erase]
    exact ⟨hnodup.filter _, fun x hx => .inl (List.mem_of_mem_filter hx)⟩

namespace App.Fresh

theorem nodup_ids (h : app.Fresh requests) : app.registry.ids.Nodup := (List.nodup_append.mp h).1

theorem not_mem_ids (h : app.Fresh ((fresh, r) :: requests)) : fresh ∉ app.registry.ids :=
  fun hmem => (List.nodup_append.mp h).2.2 fresh hmem fresh List.mem_cons_self rfl

theorem not_mem_rest (h : app.Fresh ((fresh, r) :: requests)) : fresh ∉ requests.map (·.1) :=
  (List.nodup_cons.mp (List.nodup_append.mp h).2.1).1

theorem handle (h : app.Fresh ((fresh, r) :: requests)) :
    (app.handle fresh r).1.Fresh requests := by
  obtain ⟨hnodup, hsub⟩ := (app.handled fresh r).ids h.nodup_ids h.not_mem_ids
  obtain ⟨-, hcoming, hdisjoint⟩ := List.nodup_append.mp h
  refine List.nodup_append.mpr ⟨hnodup, (List.nodup_cons.mp hcoming).2, fun x hx y hy => ?_⟩
  rcases hsub x hx with hx | rfl
  · exact hdisjoint x hx y (List.mem_cons_of_mem _ hy)
  · rintro rfl
    exact h.not_mem_rest hy

theorem serve {before : List (String × Request)} (h : app.Fresh (before ++ requests)) :
    (app.serve before).Fresh requests := by
  induction before generalizing app with
  | nil => exact h
  | cons request rest ih => exact ih h.handle

end App.Fresh

/-! ## The debugger of an identifier -/

/-- If there is a debugger under an identifier, it is `d`. -/
def App.KeepsOnly (app : App) (id : String) (d : Debugger) : Prop :=
  ∀ d', app.registry.find? id = some d' → d' = d

theorem Request.isFor_of_action? {a : Action} {x : String} (h : r.action? = some (x, a)) :
    r.isFor id = (x == id) := by
  obtain ⟨route, hroute, hid, hmethod⟩ := Request.route_of_action? h
  simp [isFor, hroute, hid, hmethod]

theorem shown_of_not_succeeded {answer : Answer} (h : answer.succeeded = false) :
    shown id (r, answer) = none := by
  cases answer with
  | error crash => rfl
  | ok response => simp [shown, h]

theorem shown_of_not_isFor {answer : Answer} (h : r.isFor id = false) :
    shown id (r, answer) = none := by
  cases answer with
  | error crash => rfl
  | ok response => simp [shown, h]

/-- **A request reaches no debugger but its own.** What it does to that one, and what it shows of
it, is what the action does that it asks for. -/
theorem Handled.shown_or_acted (h : Handled app fresh r result) (hnodup : app.registry.ids.Nodup)
    (hfresh : fresh ∉ app.registry.ids) (hne : id ≠ fresh) (hkeeps : app.KeepsOnly id d) :
    (shown id (r, result.2) = none ∧ result.1.KeepsOnly id d) ∨
    ∃ a d' body, r.action? = some (id, a) ∧ a.perform d = some (d', body) ∧
      shown id (r, result.2) = some (r, body) ∧ result.1.KeepsOnly id d' := by
  cases h with
  | rejected _ hfailed => exact .inl ⟨shown_of_not_succeeded hfailed.not_succeeded, hkeeps⟩
  | missing => exact .inl ⟨shown_of_not_succeeded rfl, hkeeps⟩
  | @rejectedLate x _ _ _ _ hd hfailed =>
    refine .inl ⟨shown_of_not_succeeded hfailed.not_succeeded, fun d' hd' => hkeeps d' ?_⟩
    by_cases hx : id = x
    · rw [← hd', hx, hd, Registry.find?_erase_putLast_self]
    · rw [← hd', Registry.find?_erase_putLast_of_ne hx]
  | ran hroute =>
    exact .inl ⟨shown_of_not_isFor (by simp [Request.isFor, hroute, Route.id?]), hkeeps⟩
  | opened hroute =>
    refine .inl ⟨shown_of_not_isFor (by simp [Request.isFor, hroute, Route.id?]), fun d' hd' => ?_⟩
    have hd' := Registry.find?_of_find?_evict (Registry.nodup_ids_putLast hnodup hfresh _) hd'
    rw [Registry.find?_putLast_of_ne hne] at hd'
    exact hkeeps d' hd'
  | crashed => exact .inl ⟨rfl, fun d' hd' => absurd hd' (Option.some_ne_none d').symm⟩
  | @acted x old new a response haction hd hperform hstatus =>
    by_cases hx : id = x
    · subst hx
      obtain rfl := hkeeps old hd
      refine .inr ⟨a, new, _, haction, hperform, ?_, fun d' hd' => ?_⟩
      · simp [shown, Request.isFor_of_action? haction, Answer.succeeded, Answer.status?, hstatus]
      · rw [Registry.find?_erase_putLast_self] at hd'
        exact (Option.some.inj hd').symm
    · refine .inl ⟨shown_of_not_isFor ?_, fun d' hd' => hkeeps d' ?_⟩
      · simpa [Request.isFor_of_action? haction] using Ne.symm hx
      · rw [← hd', Registry.find?_erase_putLast_of_ne hx]
  | @closed x _ hroute hmethod =>
    refine .inl ⟨shown_of_not_isFor (by simp [Request.isFor, hmethod]), fun d' hd' => hkeeps d' ?_⟩
    by_cases hx : id = x
    · rw [hx, Registry.find?_erase_self] at hd'
      exact absurd hd' (Option.some_ne_none d').symm
    · rw [← hd', Registry.find?_erase_of_ne hx]

/-- Over a whole run, what the requests for a debugger show is what their actions show. -/
theorem App.KeepsOnly.exchanges (hfresh : app.Fresh requests)
    (hid : id ∉ requests.map (·.1)) (hkeeps : app.KeepsOnly id d) :
    ∃ actions d',
      (app.exchanges id requests).map (·.1.action?) = actions.map (fun a => some (id, a)) ∧
      Action.run d actions = some (d', (app.exchanges id requests).map (·.2)) ∧
      (app.serve requests).KeepsOnly id d' := by
  induction requests generalizing app d with
  | nil => exact ⟨[], d, rfl, rfl, hkeeps⟩
  | cons request rest ih =>
    obtain ⟨fresh, r⟩ := request
    rw [List.map_cons, List.mem_cons, not_or] at hid
    obtain ⟨hne, hrest⟩ := hid
    rcases (app.handled fresh r).shown_or_acted hfresh.nodup_ids hfresh.not_mem_ids hne hkeeps with
      ⟨hshown, hkeeps⟩ | ⟨a, d', body, haction, hperform, hshown, hkeeps⟩
    · obtain ⟨actions, d', hactions, hrun, hkept⟩ := ih hfresh.handle hrest hkeeps
      have hskip : app.exchanges id ((fresh, r) :: rest)
          = (app.handle fresh r).1.exchanges id rest := List.filterMap_cons_none hshown
      rw [hskip]
      exact ⟨actions, d', hactions, hrun, hkept⟩
    · obtain ⟨actions, d'', hactions, hrun, hkept⟩ := ih hfresh.handle hrest hkeeps
      have htake : app.exchanges id ((fresh, r) :: rest)
          = (r, body) :: (app.handle fresh r).1.exchanges id rest := List.filterMap_cons_some hshown
      rw [htake]
      refine ⟨a :: actions, d'', ?_, ?_, hkept⟩
      · rw [List.map_cons, List.map_cons, haction, hactions]
      · rw [Action.run, hperform]
        simp only [hrun, Option.map_some, List.map_cons]

/-! ## Opening and continuing -/

/-- A request with a form that has no breakpoints opens a debugger for its code. -/
theorem App.handle_opening {body : List UInt8} {form : ProgramForm} {code : String} {p : Program}
    (hform : Request.form? ⟨"POST", "/api/debuggers", body⟩ DebuggerForm.check = some ⟨form, []⟩)
    (hcode : form.code.read = .ok code) (hp : Program.prepare (Utf8.encode code) = .ok p)
    (hcapacity : 0 ≤ app.registry.capacity) :
    app.handle fresh ⟨"POST", "/api/debuggers", body⟩
      = (⟨(app.registry.putLast fresh (.start p form.input form.debug form.maxSteps [])).evict⟩,
          .ok (.view 201 fresh (.start p form.input form.debug form.maxSteps []) 0)) := by
  have hroute : Request.route? ⟨"POST", "/api/debuggers", body⟩ = some .debuggers := by
    have hplace : Route.ofPath (pathOf "/api/debuggers") = some .debuggers := by decide +kernel
    rw [Request.route?, hplace]
    rfl
  rw [handle_debuggers hroute hform hcode, openDebugger_of_prepare hp hcapacity]

/-- A request for a debugger of a program without loops, which does not move off the tape, opens one that
is finished when it is resumed. -/
theorem App.exists_opens {body : List UInt8} {code : String} {τ : Store Machine.defaultLength}
    (hbody : readBody body = .ok (some (.object [("code", .string code)])))
    (plain : ∀ b ∈ Utf8.encode code, bracketStep b = none) (hlength : 0 < Machine.defaultLength)
    (hacts : (Utf8.encode code).foldlM (fun σ b => σ.act false b) (Store.start hlength []) = some τ)
    (hbudget : (Utf8.encode code).length < defaultBudget) :
    ∃ form d, Request.form? ⟨"POST", "/api/debuggers", body⟩ DebuggerForm.check = some form ∧
      form.debugger? = some d ∧
      (∀ (app : App) (fresh : String), 0 ≤ app.registry.capacity →
        app.handle fresh ⟨"POST", "/api/debuggers", body⟩
          = (⟨(app.registry.putLast fresh d).evict⟩, .ok (.view 201 fresh d 0))) ∧
      d.resume.1 = (Utf8.encode code).length ∧ d.resume.2.status = .finished ∧
      d.resume.2.state.pointer = τ.pointer ∧ d.resume.2.state.output = τ.output := by
  obtain ⟨p, hp⟩ : ∃ p, Program.prepare (Utf8.encode code) = .ok p :=
    Program.exists_prepare_of_balanced ⟨0, (List.filterMap_eq_nil_iff.mpr plain).symm⟩
  have hform : Request.form? ⟨"POST", "/api/debuggers", body⟩ DebuggerForm.check
      = some ⟨⟨.ofString code, [], false, defaultBudget⟩, []⟩ := Request.form?_eq_some hbody rfl
  have hcode := Text.Loose.read_ofString code
  exact ⟨_, _, hform, DebuggerForm.debugger?_of_prepare hcode hp,
    fun _ _ => handle_opening hform hcode hp,
    Debugger.resume_of_acts (Program.prepared_of_prepare hp) plain hlength hacts hbudget⟩

/-- A request that continues a debugger shows the debugger where it then stands. -/
theorem shown_continued (h : r.route? = some (.continue id)) (executed : Nat) :
    shown id (r, .ok (.view 200 id d executed)) = some (r, viewBody d executed) := by
  have hfor : r.isFor id = true := by
    rw [Request.isFor_of_action? (Request.action?_continue h), beq_self_eq_true]
  simp only [shown, hfor]
  rfl

/-- Two debuggers that are kept are continued one after the other. -/
theorem App.exchanges_continued {first second : String} {d e : Debugger} {r r' : Request}
    (hne : first ≠ second) (hfirst : r.route? = some (.continue first))
    (hsecond : r'.route? = some (.continue second)) (capacity : Int) (fresh fresh' : String) :
    (⟨⟨capacity, [(first, d), (second, e)]⟩⟩ : App).exchanges first [(fresh, r), (fresh', r')]
        = [(r, viewBody d.resume.2 d.resume.1)] ∧
      (⟨⟨capacity, [(first, d), (second, e)]⟩⟩ : App).exchanges second [(fresh, r), (fresh', r')]
        = [(r', viewBody e.resume.2 e.resume.1)] := by
  have hd : (⟨⟨capacity, [(first, d), (second, e)]⟩⟩ : App).handle fresh r
      = (⟨⟨capacity, [(second, e), (first, d.resume.2)]⟩⟩,
          .ok (.view 200 first d.resume.2 d.resume.1)) := by
    rw [handle_continue hfirst (d := d) (by simp [Registry.find?])]
    simp [Registry.erase, Registry.putLast, hne.symm]
  have he : ((⟨⟨capacity, [(second, e), (first, d.resume.2)]⟩⟩ : App).handle fresh' r').2
      = .ok (.view 200 second e.resume.2 e.resume.1) :=
    congrArg Prod.snd (handle_continue hsecond (by simp [Registry.find?]))
  have hnotSecond : r.isFor second = false := by
    rw [Request.isFor_of_action? (Request.action?_continue hfirst), beq_eq_false_iff_ne]
    exact hne
  have hnotFirst : r'.isFor first = false := by
    rw [Request.isFor_of_action? (Request.action?_continue hsecond), beq_eq_false_iff_ne]
    exact hne.symm
  simp only [exchanges, answers, hd, he]
  constructor
  · rw [List.filterMap_cons_some (shown_continued hfirst _),
      List.filterMap_cons_none (shown_of_not_isFor hnotFirst), List.filterMap_nil]
  · rw [List.filterMap_cons_none (shown_of_not_isFor hnotSecond),
      List.filterMap_cons_some (shown_continued hsecond _), List.filterMap_nil]

/-! ## Isolation -/

/-- Only an opened debugger is answered with the status 201. -/
theorem Handled.opened_of_created (h : Handled app fresh r result)
    (hcreated : result.2.status? = some 201) :
    ∃ form d, r.form? DebuggerForm.check = some form ∧ form.debugger? = some d ∧
      result = (⟨(app.registry.putLast fresh d).evict⟩, .ok (.view 201 fresh d 0)) := by
  cases h with
  | rejected _ hfailed => exact absurd hcreated (hfailed.status_ne (by decide))
  | missing => simp [Answer.status?, Response.noDebugger, Response.detail] at hcreated
  | rejectedLate _ _ _ hfailed => exact absurd hcreated (hfailed.status_ne (by decide))
  | ran => exact absurd (status_of_ran hcreated) (by decide)
  | opened hroute hform hd hcapacity => exact ⟨_, _, hform, hd, rfl⟩
  | crashed => exact absurd hcreated (Option.some_ne_none 201).symm
  | acted haction hd hperform hstatus => simp [Answer.status?, hstatus] at hcreated
  | closed => simp [Answer.status?] at hcreated

/-- **Debuggers are isolated from each other.** Serve any requests, and among them `r` that opens a
debugger. The successful requests for it ask for certain actions, and what they show is what these
actions come to, one after another, on a debugger for the form in `r` that no service keeps. As long
as the service keeps its debugger, the two are the same, and the one says of any further request
whether it succeeds with the other. -/
theorem debuggers_are_isolated {app app' : App} {before after : List (String × Request)}
    {id : String} {r : Request} {response : Response}
    (hfresh : app.Fresh (before ++ (id, r) :: after))
    (hopened : (app.serve before).handle id r = (app', .ok response))
    (hcreated : response.status = 201) :
    ∃ form d, r.form? DebuggerForm.check = some form ∧ form.debugger? = some d ∧
      response = .view 201 id d 0 ∧ response.body.withoutId = viewBody d 0 ∧
      ∃ actions d',
        (app'.exchanges id after).map (·.1.action?) = actions.map (fun a => some (id, a)) ∧
        Action.run d actions = some (d', (app'.exchanges id after).map (·.2)) ∧
        (app'.serve after).KeepsOnly id d' ∧
        (id ∈ (app'.serve after).registry.ids → ∀ fresh r' a, r'.action? = some (id, a) →
          (Answer.succeeded ((app'.serve after).handle fresh r').2 ↔ (a.perform d').isSome)) := by
  have hopening := hfresh.serve
  have hnew := hopening.not_mem_ids
  have hhandled := (app.serve before).handled id r
  have hafter := hopening.handle
  rw [hopened] at hhandled hafter
  obtain ⟨form, d, hform, hd, hresult⟩ := hhandled.opened_of_created (congrArg some hcreated)
  obtain ⟨rfl, hresponse⟩ := Prod.mk.inj hresult
  have hkeeps : App.KeepsOnly ⟨((app.serve before).registry.putLast id d).evict⟩ id d := by
    intro d' hd'
    have hnodup := Registry.nodup_ids_putLast hopening.nodup_ids hnew d
    have hd' := Registry.find?_of_find?_evict hnodup hd'
    rw [Registry.find?_putLast_self hnew] at hd'
    exact (Option.some.inj hd').symm
  obtain ⟨actions, d', hactions, hrun, hkept⟩ :=
    hkeeps.exchanges hafter hopening.not_mem_rest
  obtain rfl := Except.ok.inj hresponse
  refine ⟨form, d, hform, hd, rfl, rfl, actions, d', hactions, hrun, hkept, ?_⟩
  intro hmem fresh r' a haction
  obtain ⟨kept, hkeptd⟩ := Registry.exists_find?_of_mem_ids hmem
  rw [App.succeeded_iff_performed haction hkeptd, hkept kept hkeptd]

/-- A debugger of `+.>` is kept as `a` and one of `>>-.` as `b`. Each is continued once, writes what its
own program writes and comes to where its own program ends. -/
theorem continued_debugger_is_isolated :
    let opening : Request :=
      ⟨"POST", "/api/debuggers", Utf8.encode "\x7b\"code\":\"+.>\"\x7d"⟩
    let otherOpening : Request :=
      ⟨"POST", "/api/debuggers", Utf8.encode "\x7b\"code\":\">>-.\"\x7d"⟩
    let continuing : Request := ⟨"POST", "/api/debuggers/a/continue", []⟩
    let other : Request := ⟨"POST", "/api/debuggers/b/continue", []⟩
    let before := [("b", otherOpening)]
    let after := [("c", other), ("d", continuing)]
    ∃ app' response, (App.empty 2).Fresh (before ++ ("a", opening) :: after) ∧
      ((App.empty 2).serve before).handle "a" opening = (app', .ok response) ∧
      response.status = 201 ∧
      ∃ form d a d' body e', opening.form? DebuggerForm.check = some form ∧
        form.debugger? = some d ∧ continuing.action? = some ("a", a) ∧
        Action.run d [a] = some (d', [body]) ∧ app'.exchanges "a" after = [(continuing, body)] ∧
        body = viewBody d' 3 ∧ app'.exchanges "b" after = [(other, viewBody e' 4)] ∧
        (d'.status = .finished ∧ d'.state.pointer = 1 ∧ d'.state.output.toList = [0x01]) ∧
        e'.status = .finished ∧ e'.state.pointer = 2 ∧ e'.state.output.toList = [0xFF] := by
  intro opening otherOpening continuing other before after
  have hlength : 0 < Machine.defaultLength := by decide
  have hcode : Utf8.encode "+.>" = [0x2B, 0x2E, 0x3E] := by decide +kernel
  have hotherCode : Utf8.encode ">>-." = [0x3E, 0x3E, 0x2D, 0x2E] := by decide +kernel
  have hacts : (Utf8.encode "+.>").foldlM (fun σ b => σ.act false b) (Store.start hlength [])
      = some (.holding [1] ⟨1, by decide⟩ [] (Output.empty.push 1)) := by
    rw [hcode, Store.start_eq_holding hlength [] 1]
    simp [Store.act_plus_holding, Store.act_dot_holding, Store.act_right_holding,
      Machine.defaultLength]
  have hotherActs : (Utf8.encode ">>-.").foldlM (fun σ b => σ.act false b) (Store.start hlength [])
      = some (.holding [0, 0, 0xFF] ⟨2, by decide⟩ [] (Output.empty.push 0xFF)) := by
    rw [hotherCode, Store.start_eq_holding hlength [] 3]
    simp [Store.act_right_holding, Store.act_minus_holding, Store.act_dot_holding,
      Machine.defaultLength, List.replicate_succ]
    rfl
  have hbody : App.readBody opening.body = .ok (some (.object [("code", .string "+.>")])) := by cbv
  have hotherBody : App.readBody otherOpening.body
      = .ok (some (.object [("code", .string ">>-.")])) := by cbv
  have hplain : ∀ b ∈ Utf8.encode "+.>", bracketStep b = none := by
    rw [hcode]
    exact List.filterMap_eq_nil_iff.mp rfl
  have hotherPlain : ∀ b ∈ Utf8.encode ">>-.", bracketStep b = none := by
    rw [hotherCode]
    exact List.filterMap_eq_nil_iff.mp rfl
  obtain ⟨form, d, hform, hd, hopen, hcount, hstatus, hpointer, houtput⟩ :=
    App.exists_opens hbody hplain hlength hacts (by rw [hcode]; decide)
  obtain ⟨-, e, -, -, hotherOpen, hotherCount, hotherStatus, hotherPointer, hotherOutput⟩ :=
    App.exists_opens hotherBody hotherPlain hlength hotherActs (by rw [hotherCode]; decide)
  have hbefore : (App.empty 2).serve before = ⟨⟨2, [("b", e)]⟩⟩ := by
    rw [App.serve, hotherOpen _ _ (by decide)]
    rfl
  have hopened : ((App.empty 2).serve before).handle "a" opening
      = (⟨⟨2, [("b", e), ("a", d)]⟩⟩, .ok (.view 201 "a" d 0)) := by
    rw [hbefore, hopen _ _ (show (0 : Int) ≤ 2 by decide)]
    rfl
  have hcontinuingRoute : continuing.route? = some (.continue "a") := by decide +kernel
  have hotherRoute : other.route? = some (.continue "b") := by decide +kernel
  obtain ⟨hotherExchanges, hexchanges⟩ := App.exchanges_continued (d := e) (e := d)
    (show "b" ≠ "a" by decide) hotherRoute hcontinuingRoute 2 "c" "d"
  have hfresh : (App.empty 2).Fresh (before ++ ("a", opening) :: after) := by
    show ["b", "a", "c", "d"].Nodup
    decide
  obtain ⟨form₀, d₀, hform₀, hd₀, -, -, actions, d', hactions, hrun, -⟩ :=
    debuggers_are_isolated hfresh hopened rfl
  obtain rfl := Option.some.inj (hform₀.symm.trans hform)
  obtain rfl := Option.some.inj (hd₀.symm.trans hd)
  have haction := Request.action?_continue hcontinuingRoute
  rw [hexchanges, List.map_singleton, haction] at hactions
  rw [hexchanges] at hrun
  obtain ⟨a, rfl⟩ : ∃ a, actions = [a] := by
    refine List.length_eq_one_iff.mp ?_
    simpa using (congrArg List.length hactions).symm
  obtain rfl : .resume = a := by simpa using hactions
  obtain ⟨rfl, -⟩ := Prod.mk.inj (Option.some.inj hrun)
  refine ⟨_, _, hfresh, hopened, rfl, _, _, .resume, _, _, e.resume.2, hform₀, hd₀, haction, hrun,
    hexchanges, ?_, ?_, ⟨hstatus, hpointer, ?_⟩, hotherStatus, hotherPointer, ?_⟩
  · rw [hcount]
    rfl
  · rw [hotherExchanges, hotherCount]
    rfl
  · rw [houtput]
    rfl
  · rw [hotherOutput]
    rfl

end TapeMachine.Web
