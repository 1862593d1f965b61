import Mathlib.Data.Finset.Card
import TapeMachine.Proofs.Isolation

/-!
# How long an identifier is good for

An identifier that has been issued is good for any number of requests. It is lost when its debugger is
closed, or when as many others as there is room for have been used since it was used itself, and then
it is lost for good (`issued_identifier_stays_usable`).

A service does not count. What it knows of the past is the order of its registry, and there the
identifiers after one are some of those that have been used after it (`Registry.FollowedBy`). A request
that uses one more puts one more after it at most, and so it is not dropped as long as there are fewer
than the capacity.
-/

namespace TapeMachine

/-! ## The identifiers after one -/

namespace Registry

variable {α : Type} {r : Registry α} {id x : String} {others : Finset String} {a : α}

/-- The identifier is kept, and all that stand after it are among `others`. -/
def FollowedBy (r : Registry α) (id : String) (others : Finset String) : Prop :=
  ∃ earlier later, r.ids = earlier ++ id :: later ∧ ∀ x ∈ later, x ∈ others

theorem FollowedBy.mem_ids (h : r.FollowedBy id others) : id ∈ r.ids := by
  obtain ⟨earlier, later, hids, -⟩ := h
  rw [hids]
  exact List.mem_append_right earlier List.mem_cons_self

theorem followedBy_putLast_self (r : Registry α) (id : String) (a : α) :
    (r.putLast id a).FollowedBy id others :=
  ⟨r.ids, [], ids_putLast r id a, fun _ hx => absurd hx List.not_mem_nil⟩

theorem FollowedBy.putLast (h : r.FollowedBy id others) (hx : x ∈ others) (a : α) :
    (r.putLast x a).FollowedBy id others := by
  obtain ⟨earlier, later, hids, hlater⟩ := h
  refine ⟨earlier, later ++ [x], by rw [ids_putLast, hids, List.append_assoc, List.cons_append],
    fun y hy => ?_⟩
  rcases List.mem_append.mp hy with hy | hy
  · exact hlater y hy
  · exact List.mem_singleton.mp hy ▸ hx

theorem FollowedBy.erase (h : r.FollowedBy id others) (hx : x ≠ id) :
    (r.erase x).FollowedBy id others := by
  obtain ⟨earlier, later, hids, hlater⟩ := h
  refine ⟨earlier.filter (· != x), later.filter (· != x), ?_,
    fun y hy => hlater y (List.mem_of_mem_filter hy)⟩
  rw [ids_erase, hids, List.filter_append, List.filter_cons_of_pos (by simpa using hx.symm)]

/-- **An identifier is not dropped as long as few enough stand after it.** -/
theorem FollowedBy.evict (h : r.FollowedBy id others) (hnodup : r.ids.Nodup)
    (hcard : (others.card : Int) < r.capacity) : r.evict.FollowedBy id others := by
  obtain ⟨earlier, later, hids, hlater⟩ := h
  have hfew : later.length ≤ others.card := by
    have hlaterNodup : later.Nodup :=
      (List.nodup_cons.mp (List.nodup_append.mp (hids ▸ hnodup)).2.1).2
    rw [← List.toFinset_card_of_nodup hlaterNodup]
    exact Finset.card_le_card fun y hy => hlater y (List.mem_toFinset.mp hy)
  have hsurplus : r.surplus ≤ earlier.length := by
    have hlength := congrArg List.length hids
    simp only [length_ids, List.length_append, List.length_cons] at hlength
    simp only [surplus]
    omega
  refine ⟨earlier.drop r.surplus, later, ?_, hlater⟩
  rw [ids_evict, hids, List.drop_append_of_le_length hsurplus]

end Registry

namespace Web

variable {app : App} {fresh id : String} {r : Request} {requests : List (String × Request)}

/-! ## What requests do to identifiers -/

/-- The identifier that a request is issued. -/
def App.opened? (app : App) (fresh : String) (r : Request) : Option String :=
  if (app.handle fresh r).2.status? = some 201 then some fresh else none

/-- The identifier whose debugger a request closes. -/
def App.closed? (app : App) (fresh : String) (r : Request) : Option String :=
  if r.method = "DELETE" ∧ (app.handle fresh r).2.status? = some 204 then r.sought? else none

/-- The identifier that a request uses: it is issued, or it is looked up and there. A request that
names what is not there, or does not come to look it up, uses nothing. -/
def App.used? (app : App) (fresh : String) (r : Request) : Option String :=
  (app.opened? fresh r).or (r.sought?.filter fun id => (app.registry.find? id).isSome)

/-- A successful request of an identifier's own: it is issued, or something is asked of its debugger
other than to close it. -/
def App.Renews (app : App) (fresh : String) (r : Request) (id : String) : Prop :=
  app.opened? fresh r = some id ∨ r.isFor id = true ∧ (app.handle fresh r).2.succeeded = true

/-- The identifiers that requests do something to, one after the other. -/
def App.collect (app : App) (f : App → String → Request → Option String) :
    List (String × Request) → List String
  | [] => []
  | (fresh, r) :: rest => (f app fresh r).toList ++ (app.handle fresh r).1.collect f rest

theorem App.opened?_eq_some (h : app.opened? fresh r = some id) :
    fresh = id ∧ (app.handle fresh r).2.status? = some 201 := by
  simp only [opened?, Option.ite_none_right_eq_some, Option.some.injEq] at h
  exact h.symm

theorem App.used?_of_found {d : Debugger} (hsought : r.sought? = some id)
    (hd : app.registry.find? id = some d) (h : app.opened? fresh r = none) :
    app.used? fresh r = some id := by
  rw [used?, h, Option.none_or, hsought]
  simp [hd]

/-- Identifiers are issued as they come with the requests. -/
theorem App.mem_of_mem_opened (h : id ∈ app.collect App.opened? requests) :
    id ∈ requests.map (·.1) := by
  induction requests generalizing app with
  | nil => exact h
  | cons request rest ih =>
    obtain ⟨fresh, r⟩ := request
    rcases List.mem_append.mp h with h | h
    · rw [← (App.opened?_eq_some (Option.mem_toList.mp h)).1]
      exact List.mem_cons_self
    · exact List.mem_cons_of_mem _ (ih h)

/-- What has come once does not come again. -/
theorem App.Fresh.not_mem_later {before : List (String × Request)}
    (h : app.Fresh (before ++ requests)) (hid : id ∈ before.map (·.1)) :
    id ∉ requests.map (·.1) := by
  rw [App.Fresh, List.map_append] at h
  have hcoming := (List.nodup_append.mp h).2.1
  exact fun hlater => (List.nodup_append.mp hcoming).2.2 id hid id hlater rfl

/-! ## One request -/

theorem App.opened?_eq_none_of_rejects (h : (app.handle fresh r).2.Rejects) :
    app.opened? fresh r = none := if_neg (h.status_ne (by decide))

theorem Handled.capacity_eq {result : App × Answer} (h : Handled app fresh r result) :
    result.1.registry.capacity = app.registry.capacity := by
  cases h <;> rfl

/-- **A request of its own puts an identifier last.** -/
theorem App.Renews.followedBy {others : Finset String} (h : app.Renews fresh r id)
    (hnodup : app.registry.ids.Nodup) (hfresh : fresh ∉ app.registry.ids)
    (hcard : (others.card : Int) < app.registry.capacity) :
    (app.handle fresh r).1.registry.FollowedBy id others := by
  have hhandled := app.handled fresh r
  rcases h with hopened | ⟨hfor, hsucceeded⟩
  · obtain ⟨rfl, hcreated⟩ := App.opened?_eq_some hopened
    obtain ⟨form, d, -, -, hresult⟩ := hhandled.opened_of_created hcreated
    rw [hresult]
    exact (Registry.followedBy_putLast_self _ _ d).evict
      (Registry.nodup_ids_putLast hnodup hfresh d) hcard
  · generalize app.handle fresh r = result at hhandled hsucceeded ⊢
    cases hhandled with
    | rejected _ hfailed => exact absurd hsucceeded (by simp [hfailed.not_succeeded])
    | missing => cases hsucceeded
    | rejectedLate _ _ _ hfailed => exact absurd hsucceeded (by simp [hfailed.not_succeeded])
    | ran hroute => simp [Request.isFor, hroute, Route.id?] at hfor
    | opened hroute => simp [Request.isFor, hroute, Route.id?] at hfor
    | crashed => cases hsucceeded
    | acted haction =>
      rw [Request.isFor_of_action? haction] at hfor
      rw [eq_of_beq hfor]
      exact Registry.followedBy_putLast_self _ _ _
    | closed _ hmethod => simp [Request.isFor, hmethod] at hfor

/-- **One request** puts at most the identifier that it uses after another one. -/
theorem App.followedBy_handle {others : Finset String}
    (h : app.registry.FollowedBy id others) (hnodup : app.registry.ids.Nodup)
    (hfresh : fresh ∉ app.registry.ids) (hcard : (others.card : Int) < app.registry.capacity)
    (hclosed : app.closed? fresh r ≠ some id)
    (hused : ∀ x, app.used? fresh r = some x → x = id ∨ x ∈ others) :
    (app.handle fresh r).1.registry.FollowedBy id others := by
  have hlooked : ∀ {x : String} {d : Debugger} (d' : Debugger), r.sought? = some x →
      app.registry.find? x = some d → app.opened? fresh r = none →
      ((app.registry.erase x).putLast x d').FollowedBy id others := by
    intro x d d' hsought hd hopened
    by_cases hx : x = id
    · rw [hx]
      exact Registry.followedBy_putLast_self _ _ _
    · exact (h.erase hx).putLast
        ((hused x (App.used?_of_found hsought hd hopened)).resolve_left hx) d'
  generalize hresult : app.handle fresh r = result
  have hhandled := app.handled fresh r
  rw [hresult] at hhandled
  cases hhandled with
  | rejected => exact h
  | missing => exact h
  | rejectedLate _ hsought hd hfailed =>
    exact hlooked _ hsought hd (App.opened?_eq_none_of_rejects (by rwa [hresult]))
  | ran => exact h
  | opened =>
    -- the registry drops from the front, and what stands after `id` are still no more than `others`
    have hopened : app.opened? fresh r = some fresh := if_pos (by rw [hresult]; rfl)
    have hne : fresh ≠ id := fun hid => hfresh (hid ▸ h.mem_ids)
    have hmem := (hused fresh (by rw [App.used?, hopened, Option.some_or])).resolve_left hne
    exact (h.putLast hmem _).evict (Registry.nodup_ids_putLast hnodup hfresh _) hcard
  | crashed _ hcapacity => omega
  | acted haction hd _ hstatus =>
    refine hlooked _ (Request.sought?_of_action? haction) hd (if_neg ?_)
    simp [hresult, Answer.status?, hstatus]
  | @closed x d hroute hmethod =>
    refine h.erase fun hx => hclosed ?_
    rw [App.closed?, if_pos ⟨hmethod, by rw [hresult]; rfl⟩,
      Request.sought?_of_route hroute (.inl rfl), ← hx]
    rfl

/-- A request for a run changes nothing, nor does one that opens no debugger. -/
theorem App.handle_of_not_opened (hcapacity : 0 ≤ app.registry.capacity)
    (h : r.route? = some .run ∨ r.route? = some .debuggers ∧ app.opened? fresh r = none) :
    (app.handle fresh r).1 = app := by
  have hsought : r.sought? = none := by
    refine Request.sought?_eq_none ?_
    rcases h with h | ⟨h, -⟩ <;> rw [h] <;> rfl
  generalize hresult : app.handle fresh r = result
  have hhandled := app.handled fresh r
  rw [hresult] at hhandled
  cases hhandled with
  | rejected => rfl
  | missing => rfl
  | rejectedLate _ hsome => exact absurd (hsought.symm.trans hsome) (Option.some_ne_none _).symm
  | ran => rfl
  | opened hroute =>
    rcases h with h | ⟨-, h⟩
    · cases hroute.symm.trans h
    · have hopened : app.opened? fresh r = some fresh := if_pos (by rw [hresult]; rfl)
      exact absurd (hopened.symm.trans h) (Option.some_ne_none fresh)
  | crashed _ hnegative => omega
  | acted haction =>
    exact absurd (hsought.symm.trans (Request.sought?_of_action? haction))
      (Option.some_ne_none _).symm
  | closed hroute =>
    exact absurd (hsought.symm.trans (Request.sought?_of_route hroute (.inl rfl)))
      (Option.some_ne_none _).symm

/-- What is missing is not there. -/
theorem App.not_mem_ids_of_missing (h : (app.handle fresh r).2 = .ok (.noDebugger id)) :
    (app.handle fresh r).1 = app ∧ id ∉ app.registry.ids := by
  have hhandled := app.handled fresh r
  have hstatus : (app.handle fresh r).2.status? = some 404 := by
    rw [h]
    rfl
  generalize app.handle fresh r = result at *
  cases hhandled with
  | rejected _ hfailed => exact absurd h (hfailed.not_missing id)
  | missing _ hnone =>
    rw [← noDebugger_injective (Except.ok.inj h)]
    exact ⟨rfl, Registry.find?_eq_none_iff.mp hnone⟩
  | rejectedLate _ _ _ hfailed => exact absurd h (hfailed.not_missing id)
  | ran => exact absurd (status_of_ran hstatus) (by decide)
  | opened => cases hstatus
  | crashed => cases hstatus
  | acted _ _ _ hok => exact absurd (hok.symm.trans (Option.some.inj hstatus)) (by decide)
  | closed => cases hstatus

theorem App.not_mem_ids_of_closed (h : app.closed? fresh r = some id) :
    id ∉ (app.handle fresh r).1.registry.ids := by
  simp only [closed?, Option.ite_none_right_eq_some] at h
  obtain ⟨⟨hdelete, hstatus⟩, hsought⟩ := h
  have hhandled := app.handled fresh r
  generalize app.handle fresh r = result at *
  cases hhandled with
  | rejected _ hfailed => exact absurd hstatus (hfailed.status_ne (by decide))
  | missing => cases hstatus
  | rejectedLate _ _ _ hfailed => exact absurd hstatus (hfailed.status_ne (by decide))
  | ran => exact absurd (status_of_ran hstatus) (by decide)
  | opened => cases hstatus
  | crashed => cases hstatus
  | acted _ _ _ hok => exact absurd (hok.symm.trans (Option.some.inj hstatus)) (by decide)
  | closed hroute =>
    have hid := hsought.symm.trans (Request.sought?_of_route hroute (.inl rfl))
    rw [Option.some.inj hid]
    exact Registry.find?_eq_none_iff.mp (Registry.find?_erase_self _ _)

/-! ## Many requests -/

theorem App.capacity_serve (app : App) (requests : List (String × Request)) :
    (app.serve requests).registry.capacity = app.registry.capacity := by
  induction requests generalizing app with
  | nil => rfl
  | cons request rest ih => exact (ih _).trans (app.handled request.1 request.2).capacity_eq

/-- **A run** puts at most the identifiers that it uses after another one. -/
theorem App.followedBy_serve {others : Finset String} (hfresh : app.Fresh requests)
    (hcard : (others.card : Int) < app.registry.capacity)
    (hkept : app.registry.FollowedBy id others) (hclosed : id ∉ app.collect closed? requests)
    (hused : ∀ x ∈ app.collect used? requests, x = id ∨ x ∈ others) :
    (app.serve requests).registry.FollowedBy id others := by
  induction requests generalizing app with
  | nil => exact hkept
  | cons request rest ih =>
    obtain ⟨fresh, r⟩ := request
    simp only [collect, List.mem_append, Option.mem_toList, not_or] at hclosed hused
    refine ih hfresh.handle ?_ ?_ hclosed.2 fun x hx => hused x (.inr hx)
    · rwa [(app.handled fresh r).capacity_eq]
    · exact app.followedBy_handle hkept hfresh.nodup_ids hfresh.not_mem_ids hcard hclosed.1
        fun x hx => hused x (.inl hx)

/-- **An identifier that is lost stays lost**, if it does not come again. -/
theorem App.not_mem_ids_serve (hfresh : app.Fresh requests) (hid : id ∉ app.registry.ids)
    (hcoming : id ∉ requests.map (·.1)) : id ∉ (app.serve requests).registry.ids := by
  induction requests generalizing app with
  | nil => exact hid
  | cons request rest ih =>
    obtain ⟨fresh, r⟩ := request
    rw [List.map_cons, List.mem_cons, not_or] at hcoming
    refine ih hfresh.handle (fun hmem => ?_) hcoming.2
    rcases ((app.handled fresh r).ids hfresh.nodup_ids hfresh.not_mem_ids).2 id hmem with h | h
    · exact hid h
    · exact hcoming.1 h

/-! ## Identifiers that have been issued -/

/-- **An identifier that has been issued stays usable** until its debugger is closed or enough others
have been used. Requests for a run and for debuggers that cannot be opened take no identifier away. An
identifier that has been closed or was missing once is missing for ever. -/
theorem issued_identifier_stays_usable {capacity : Int} {before between : List (String × Request)}
    {fresh : String} {r : Request} (hcapacity : 1 ≤ capacity)
    (hfresh : (App.empty capacity).Fresh (before ++ (fresh, r) :: between)) :
    let app := (App.empty capacity).serve before
    let next := (app.handle fresh r).1
    let last := next.serve between
    (∀ id, app.Renews fresh r id → id ∉ next.collect App.closed? between →
      (((next.collect App.used? between).toFinset.erase id).card : Int) < capacity →
      id ∈ last.registry.ids ∧ ∀ fresh' r', (last.handle fresh' r').2 ≠ .ok (.noDebugger id)) ∧
    (r.route? = some .run ∨ r.route? = some .debuggers ∧ app.opened? fresh r = none →
      next = app) ∧
    ∀ id ∈ (App.empty capacity).collect App.opened? before,
      app.closed? fresh r = some id ∨ (app.handle fresh r).2 = .ok (.noDebugger id) →
      ∀ fresh' r', r'.sought? = some id → (last.handle fresh' r').2 = .ok (.noDebugger id) := by
  intro app next last
  have hhere : app.Fresh ((fresh, r) :: between) := hfresh.serve
  have happ : app.registry.capacity = capacity := (App.empty capacity).capacity_serve before
  have hnext : next.registry.capacity = capacity := (app.handled fresh r).capacity_eq.trans happ
  refine ⟨fun id hrenews hclosed hcard => ?_, App.handle_of_not_opened (by omega),
    fun id hissued hlost fresh' r' hsought => ?_⟩
  · have hkept : last.registry.FollowedBy id ((next.collect App.used? between).toFinset.erase id) := by
      refine App.followedBy_serve hhere.handle (by rwa [hnext])
        (hrenews.followedBy hhere.nodup_ids hhere.not_mem_ids (by rwa [happ])) hclosed fun x hx => ?_
      rw [Finset.mem_erase, List.mem_toFinset]
      exact or_iff_not_imp_left.mpr fun hne => ⟨hne, hx⟩
    exact ⟨hkept.mem_ids, fun fresh' r' hmissing =>
      (App.not_mem_ids_of_missing hmissing).2 hkept.mem_ids⟩
  · have hgone : id ∉ next.registry.ids := by
      rcases hlost with hclosed | hmissing
      · exact App.not_mem_ids_of_closed hclosed
      · obtain ⟨hsame, hid⟩ := App.not_mem_ids_of_missing hmissing
        rwa [show next = app from hsame]
    have hold : id ∉ between.map (·.1) := fun hcoming =>
      hfresh.not_mem_later (App.mem_of_mem_opened hissued) (List.mem_cons_of_mem fresh hcoming)
    rw [App.handle_missing hsought (App.not_mem_ids_serve hhere.handle hgone hold)]

/-- Two debuggers of the empty program are opened one after the other, and the first is kept unless it
is closed. -/
theorem opened_identifier_stays_usable :
    let opening : Request := ⟨"POST", "/api/debuggers", Utf8.encode "\x7b\x7d"⟩
    let closing : Request := ⟨"DELETE", "/api/debuggers/a", []⟩
    let looking : Request := ⟨"GET", "/api/debuggers/a", []⟩
    let kept := (App.empty 2).serve [("a", opening), ("b", opening)]
    let lost := (App.empty 2).serve [("a", opening), ("b", closing), ("c", opening)]
    (App.empty 2).Fresh [("a", opening), ("b", opening)] ∧
      (App.empty 2).Fresh [("a", opening), ("b", closing), ("c", opening)] ∧
      "a" ∈ kept.registry.ids ∧ (kept.handle "d" looking).2 ≠ .ok (.noDebugger "a") ∧
      (lost.handle "d" looking).2 = .ok (.noDebugger "a") := by
  intro opening closing looking kept lost
  have hbody : App.readBody opening.body = .ok (some (.object [])) := by cbv
  have hform : opening.form? DebuggerForm.check
      = some ⟨⟨.ofString "", [], false, defaultBudget⟩, []⟩ := Request.form?_eq_some hbody rfl
  obtain ⟨p, hp⟩ : ∃ p, Program.prepare (Utf8.encode "") = .ok p := ⟨_, by rfl⟩
  obtain ⟨d, hopen⟩ : ∃ d, ∀ (app : App) (fresh : String), 0 ≤ app.registry.capacity →
      app.handle fresh opening
        = (⟨(app.registry.putLast fresh d).evict⟩, .ok (.view 201 fresh d 0)) :=
    ⟨_, fun _ _ => App.handle_opening hform (Text.Loose.read_ofString "") hp⟩
  have hopened : ∀ (app : App) (fresh : String), 0 ≤ app.registry.capacity →
      app.opened? fresh opening = some fresh := fun app fresh hcapacity =>
    if_pos (by rw [hopen app fresh hcapacity]; rfl)
  have hfirst : (App.empty 2).serve [("a", opening)] = ⟨⟨2, [("a", d)]⟩⟩ := by
    rw [App.serve, hopen _ _ (by decide)]
    rfl
  have hkeptFresh : (App.empty 2).Fresh ([] ++ ("a", opening) :: [("b", opening)]) := by
    show ["a", "b"].Nodup
    decide
  have hlostFresh :
      (App.empty 2).Fresh ([("a", opening)] ++ ("b", closing) :: [("c", opening)]) := by
    show ["a", "b", "c"].Nodup
    decide
  obtain ⟨hstays, -, -⟩ := issued_identifier_stays_usable (show (1 : Int) ≤ 2 by decide) hkeptFresh
  obtain ⟨-, -, hgone⟩ := issued_identifier_stays_usable (show (1 : Int) ≤ 2 by decide) hlostFresh
  obtain ⟨hmem, hfound⟩ : "a" ∈ kept.registry.ids ∧
      ∀ fresh' r', (kept.handle fresh' r').2 ≠ .ok (.noDebugger "a") := by
    refine hstays "a" (.inl (hopened _ "a" (by decide))) ?_ ?_
    · have hnot : ∀ app : App, app.closed? "b" opening = none :=
        fun app => if_neg fun h => absurd h.1 (by decide)
      rw [App.collect, hnot]
      exact List.not_mem_nil
    · rw [show (((App.empty 2).serve []).handle "a" opening).1 = _ from hfirst, App.collect,
        App.used?, hopened _ "b" (show (0 : Int) ≤ 2 by decide)]
      show ((["b"].toFinset.erase "a").card : Int) < 2
      decide
  have hlost : (lost.handle "d" looking).2 = .ok (.noDebugger "a") := by
    have hclosingRoute : closing.route? = some (.debugger "a") := by decide +kernel
    have hlookingRoute : looking.route? = some (.debugger "a") := by decide +kernel
    refine hgone "a" ?_ (.inl ?_) "d" looking (Request.sought?_of_route hlookingRoute (.inl rfl))
    · rw [App.collect, hopened _ "a" (by decide)]
      exact List.mem_cons_self
    · rw [hfirst, App.closed?, Request.sought?_of_route hclosingRoute (.inl rfl),
        App.handle_of_route hclosingRoute]
      rfl
  exact ⟨hkeptFresh, hlostFresh, hmem, hfound "d" looking, hlost⟩

end Web

end TapeMachine
