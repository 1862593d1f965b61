import TapeMachine.Machine.Config

/-!
# Runs

A run is the sequence of configurations that `Config.attempt` leads through. `Config.after s n c` is
the one `n` instructions after `c`, and `EndsAfter s c n d e` says that the run from `c` ends in `e`
at the `n`-th one, `d`.

`Config.attempt` is taken apart once, in `attempt_cases`. Then a run ends at one place at most
(`EndsAfter.unique`), and `Config.execute` finds that place when it makes enough attempts
(`execute_eq_some_iff`).
-/

namespace TapeMachine

namespace Config

/-! ## One attempt -/

/-- What every instruction that is done leaves behind. -/
structure Follows (s : Setup) (c c' : Config) : Prop where
  steps_eq : c'.steps = c.steps + 1
  size_eq : c'.tape.size = c.tape.size
  onTape : c.pointer < c.tape.size → c'.pointer < c'.tape.size
  /-- Only brackets jump. -/
  pc_cases : c'.pc = c.pc + 1 ∨
    (s.program.fetch c.pc = .loopOpen ∧ c'.pc = s.program.partner c.pc + 1) ∨
    (s.program.fetch c.pc = .loopClose ∧ c'.pc = s.program.partner c.pc)

/-- The faults that the instruction at `c.pc` can stop the run with. -/
inductive Blocked (s : Setup) (c : Config) : Fault → Prop where
  | right (hfetch : s.program.fetch c.pc = .moveRight) (hlast : c.pointer + 1 = c.tape.size) :
      Blocked s c (.outOfBounds ((s.program.line? c.pc).getD 0) '>')
  | left (hfetch : s.program.fetch c.pc = .moveLeft) (hfirst : c.pointer = 0) :
      Blocked s c (.outOfBounds ((s.program.line? c.pc).getD 0) '<')
  | noCell (hcell : ¬ c.pointer < c.tape.size) : Blocked s c .noCell

/-- On a tape with cells only a move can stop the run. -/
theorem Blocked.exists_outOfBounds {s : Setup} {c : Config} {fault : Fault} (h : Blocked s c fault)
    (hc : c.pointer < c.tape.size) : ∃ line symbol, fault = .outOfBounds line symbol := by
  cases h with
  | right => exact ⟨_, _, rfl⟩
  | left => exact ⟨_, _, rfl⟩
  | noCell hcell => exact absurd hc hcell

/-- A move that is blocked is blamed on its line. -/
theorem Blocked.line_eq {s : Setup} {c : Config} {line : Nat} {symbol : Char}
    (h : Blocked s c (.outOfBounds line symbol)) : line = (s.program.line? c.pc).getD 0 := by
  cases h with
  | right => rfl
  | left => rfl

/-- Going on is doing one instruction, whatever the instruction did to the cells. -/
theorem exists_follows_goTo {s : Setup} {c c₁ : Config} {pc : Nat} (hsteps : c₁.steps = c.steps)
    (hsize : c₁.tape.size = c.tape.size)
    (hon : c.pointer < c.tape.size → c₁.pointer < c₁.tape.size)
    (hpc : pc = c.pc + 1 ∨ (s.program.fetch c.pc = .loopOpen ∧ pc = s.program.partner c.pc + 1) ∨
      (s.program.fetch c.pc = .loopClose ∧ pc = s.program.partner c.pc)) :
    ∃ c', c₁.goTo pc = .advanced c' ∧ Follows s c c' :=
  ⟨_, rfl, by rw [← hsteps], hsize, hon, hpc⟩

theorem update_cases (s : Setup) (c : Config) (f : UInt8 → UInt8) :
    (∃ c', c.update f = .advanced c' ∧ Follows s c c') ∨
      (c.update f = .stuck .noCell c ∧ ¬ c.pointer < c.tape.size) := by
  obtain ⟨pc, steps, tape, pointer, input, output⟩ := c
  by_cases h : pointer < tape.size
  · simp only [update, dif_pos h]
    exact Or.inl (exists_follows_goTo rfl (Array.size_set h) (by simp) (Or.inl rfl))
  · exact Or.inr ⟨dif_neg h, h⟩

/-- **What an instruction can come to.** It is done, or the run gets stuck where it is. -/
theorem perform_cases (s : Setup) (c : Config) :
    (∃ c', c.perform s = .advanced c' ∧ Follows s c c') ∨
      ∃ fault, c.perform s = .stuck fault c ∧ Blocked s c fault := by
  have hupdate : ∀ f, (∃ c', c.update f = .advanced c' ∧ Follows s c c') ∨
      ∃ fault, c.update f = .stuck fault c ∧ Blocked s c fault := by
    intro f
    rcases update_cases s c f with h | ⟨h, hno⟩
    · exact Or.inl h
    · exact Or.inr ⟨.noCell, h, .noCell hno⟩
  have hcell : c.tape[c.pointer]? = none → ¬ c.pointer < c.tape.size := by
    intro h
    exact Nat.not_lt.mpr (Array.getElem?_eq_none_iff.mp h)
  unfold perform
  cases hfetch : s.program.fetch c.pc with
  | increment => exact hupdate _
  | decrement => exact hupdate _
  | moveRight =>
    -- without cells the pointer runs past the end, which is why `onTape` has a condition
    by_cases h : c.pointer + 1 = c.tape.size
    · exact Or.inr ⟨_, if_pos h, .right hfetch h⟩
    · simp only [if_neg h]
      exact Or.inl (exists_follows_goTo rfl rfl (fun hp => by simp only []; omega) (Or.inl rfl))
  | moveLeft =>
    by_cases h : c.pointer = 0
    · exact Or.inr ⟨_, if_pos h, .left hfetch h⟩
    · simp only [if_neg h]
      exact Or.inl (exists_follows_goTo rfl rfl (fun hp => by simp only []; omega) (Or.inl rfl))
  | loopOpen =>
    cases hget : c.tape[c.pointer]? with
    | none => exact Or.inr ⟨.noCell, rfl, .noCell (hcell hget)⟩
    | some value =>
      refine Or.inl (exists_follows_goTo rfl rfl id ?_)
      by_cases hzero : value = 0
      · exact Or.inr (Or.inl ⟨hfetch, if_pos hzero⟩)
      · exact Or.inl (if_neg hzero)
  | loopClose => exact Or.inl (exists_follows_goTo rfl rfl id (Or.inr (Or.inr ⟨hfetch, rfl⟩)))
  | output =>
    cases hget : c.tape[c.pointer]? with
    | none => exact Or.inr ⟨.noCell, rfl, .noCell (hcell hget)⟩
    | some value => exact Or.inl (exists_follows_goTo rfl rfl id (Or.inl rfl))
  | input =>
    obtain ⟨pc, steps, tape, pointer, input, output⟩ := c
    cases input with
    | nil => exact Or.inl (exists_follows_goTo rfl rfl id (Or.inl rfl))
    | cons b rest =>
      by_cases h : pointer < tape.size
      · simp only [if_pos h]
        exact Or.inl (exists_follows_goTo rfl Array.size_setIfInBounds (by simp) (Or.inl rfl))
      · exact Or.inr ⟨.noCell, if_neg h, .noCell h⟩
  | diagnostic =>
    cases s.debug with
    | true => exact Or.inl (exists_follows_goTo rfl rfl id (Or.inl rfl))
    | false => exact Or.inl (exists_follows_goTo rfl rfl id (Or.inl rfl))
  | inert => exact Or.inl (exists_follows_goTo rfl rfl id (Or.inl rfl))

theorem exhausted_eq_some_iff {budget : Option Int} {steps : Nat} {n : Int} :
    exhausted budget steps = some n ↔ budget = some n ∧ n ≤ steps := by
  simp [exhausted, Option.filter_eq_some_iff]

/-- **What an attempt can come to.** -/
theorem attempt_cases (s : Setup) (c : Config) :
    (s.program.length ≤ c.pc ∧ c.attempt s = .ended c) ∨
      (c.pc < s.program.length ∧
        ((∃ n, s.budget = some n ∧ n ≤ c.steps ∧ c.attempt s = .stuck (.exhausted n) c) ∨
          (exhausted s.budget c.steps = none ∧ c.attempt s = c.perform s))) := by
  unfold attempt
  by_cases hpc : s.program.length ≤ c.pc
  · exact Or.inl ⟨hpc, if_pos hpc⟩
  · rw [if_neg hpc]
    refine Or.inr ⟨Nat.lt_of_not_le hpc, ?_⟩
    cases hb : exhausted s.budget c.steps with
    | none => exact Or.inr ⟨rfl, rfl⟩
    | some n =>
      obtain ⟨hn, hle⟩ := exhausted_eq_some_iff.mp hb
      exact Or.inl ⟨n, hn, hle, rfl⟩

/-- An attempt that does not advance the run leaves it as it is. -/
theorem attempt_stays (s : Setup) (c : Config) :
    (∃ c', c.attempt s = .advanced c' ∧ Follows s c c') ∨ c.attempt s = .ended c ∨
      ∃ fault, c.attempt s = .stuck fault c := by
  rcases attempt_cases s c with ⟨-, h⟩ | ⟨-, ⟨n, -, -, h⟩ | ⟨-, h⟩⟩
  · exact Or.inr (Or.inl h)
  · exact Or.inr (Or.inr ⟨_, h⟩)
  · rcases perform_cases s c with ⟨c', hc', hf⟩ | ⟨fault, hfault, -⟩
    · exact Or.inl ⟨c', by rw [h, hc'], hf⟩
    · exact Or.inr (Or.inr ⟨fault, by rw [h, hfault]⟩)

theorem follows_of_attempt {s : Setup} {c c' : Config} (h : c.attempt s = .advanced c') :
    Follows s c c' := by
  rcases attempt_stays s c with ⟨d, hd, hf⟩ | hd | ⟨fault, hd⟩
  · rw [h] at hd
    cases hd
    exact hf
  · rw [h] at hd
    cases hd
  · rw [h] at hd
    cases hd

theorem attempt_of_within {s : Setup} {c : Config} (hpc : c.pc < s.program.length)
    (hbudget : exhausted s.budget c.steps = none) : c.attempt s = c.perform s := by
  unfold attempt
  rw [if_neg (Nat.not_le.mpr hpc), hbudget]

/-- An instruction that is done is one of the program, and within the budget. -/
theorem performed_of_advanced {s : Setup} {c c' : Config} (h : c.attempt s = .advanced c') :
    c.pc < s.program.length ∧ exhausted s.budget c.steps = none ∧ c.perform s = .advanced c' := by
  rcases attempt_cases s c with ⟨-, hended⟩ | ⟨hpc, ⟨n, -, -, hstuck⟩ | ⟨hbudget, hperform⟩⟩
  · rw [hended] at h
    cases h
  · rw [hstuck] at h
    cases h
  · exact ⟨hpc, hbudget, hperform.symm.trans h⟩

/-! ## The configurations of a run -/

/-- The configuration `n` instructions after `c`, if the run gets that far. -/
def after (s : Setup) : Nat → Config → Option Config
  | 0, c => some c
  | n + 1, c =>
    match c.attempt s with
    | .advanced c' => after s n c'
    | _ => none

@[simp] theorem after_zero (s : Setup) (c : Config) : after s 0 c = some c := rfl

theorem after_succ_of_advanced {s : Setup} {c c' : Config} (h : c.attempt s = .advanced c')
    (n : Nat) : after s (n + 1) c = after s n c' := by
  rw [after, h]

theorem after_add (s : Setup) (m n : Nat) (c : Config) :
    after s (m + n) c = (after s m c).bind (after s n) := by
  induction m generalizing c with
  | zero => rw [Nat.zero_add]; rfl
  | succ m ih =>
    rw [Nat.succ_add, after, after]
    cases c.attempt s with
    | ended c' => rfl
    | stuck fault c' => rfl
    | advanced c' => exact ih c'

theorem after_add_of_eq_some {s : Setup} {m : Nat} {c d : Config} (h : after s m c = some d)
    (n : Nat) : after s (m + n) c = after s n d := by
  rw [after_add, h, Option.bind_some]

/-- A run that gets somewhere has been everywhere before. -/
theorem exists_after_of_le {s : Setup} {m n : Nat} {c d : Config} (h : after s n c = some d)
    (hmn : m ≤ n) : ∃ c', after s m c = some c' ∧ after s (n - m) c' = some d := by
  obtain ⟨k, rfl⟩ := Nat.exists_eq_add_of_le hmn
  rw [after_add] at h
  obtain ⟨c', hc', hd⟩ := Option.bind_eq_some_iff.mp h
  exact ⟨c', hc', by rw [Nat.add_sub_cancel_left]; exact hd⟩

/-- What one instruction keeps, a run keeps. -/
theorem after_induction {s : Setup} {P : Config → Prop}
    (step : ∀ c c', c.attempt s = .advanced c' → P c → P c') :
    ∀ (n : Nat) (c d : Config), after s n c = some d → P c → P d := by
  intro n
  induction n with
  | zero =>
    intro c d h hc
    rw [after_zero, Option.some.injEq] at h
    rwa [← h]
  | succ n ih =>
    intro c d h hc
    rw [after] at h
    split at h
    · next c' hc' => exact ih c' d h (step c c' hc' hc)
    · exact absurd h (Option.some_ne_none d).symm

/-- The step count counts the instructions. -/
theorem steps_after {s : Setup} : ∀ (n : Nat) (c d : Config), after s n c = some d →
    d.steps = c.steps + n := by
  intro n
  induction n with
  | zero =>
    intro c d h
    rw [after_zero, Option.some.injEq] at h
    rw [h, Nat.add_zero]
  | succ n ih =>
    intro c d h
    rw [after] at h
    split at h
    · next c' hc' =>
      rw [ih c' d h, (follows_of_attempt hc').steps_eq]
      omega
    · exact absurd h (Option.some_ne_none d).symm

theorem onTape_after {s : Setup} {n : Nat} {c d : Config} (h : after s n c = some d)
    (hc : c.pointer < c.tape.size) : d.pointer < d.tape.size :=
  after_induction (P := fun d => d.pointer < d.tape.size)
    (fun _ _ hstep => (follows_of_attempt hstep).onTape) n c d h hc

theorem onTape_start {length : Nat} (h : 0 < length) (input : List UInt8) :
    (start length input).pointer < (start length input).tape.size := by
  simpa [start] using h

/-! ## The end of a run -/

/-- How a run ends at `c`, if it does not go on there. -/
def ending? (s : Setup) (c : Config) : Option Ending :=
  match c.attempt s with
  | .ended _ => some .finished
  | .advanced _ => none
  | .stuck fault _ => some (.failed fault)

/-- The run from `c` ends at `d`, after `n` instructions. -/
structure EndsAfter (s : Setup) (c : Config) (n : Nat) (d : Config) (e : Ending) : Prop where
  after_eq : after s n c = some d
  ending_eq : d.ending? s = some e

theorem ending?_eq_none_iff {s : Setup} {c : Config} :
    c.ending? s = none ↔ ∃ c', c.attempt s = .advanced c' := by
  unfold ending?
  cases c.attempt s <;> simp

/-- Where a run fails it stays as it is. Its budget is used up there or its instruction is blocked. -/
theorem stuck_of_failed {s : Setup} {c : Config} {fault : Fault}
    (h : c.ending? s = some (.failed fault)) :
    c.attempt s = .stuck fault c ∧ c.pc < s.program.length ∧
      ((∃ n, s.budget = some n ∧ n ≤ c.steps ∧ fault = .exhausted n) ∨ Blocked s c fault) := by
  unfold ending? at h
  rcases attempt_cases s c with ⟨-, ha⟩ | ⟨hpc, ⟨n, hn, hle, ha⟩ | ⟨-, ha⟩⟩
  · rw [ha] at h
    cases h
  · rw [ha] at h ⊢
    cases h
    exact ⟨rfl, hpc, Or.inl ⟨n, hn, hle, rfl⟩⟩
  · rcases perform_cases s c with ⟨c', hc', -⟩ | ⟨fault', hfault, hblocked⟩
    · rw [ha, hc'] at h
      cases h
    · rw [ha, hfault] at h ⊢
      cases h
      exact ⟨rfl, hpc, Or.inr hblocked⟩

theorem after_eq_none_of_ending {s : Setup} {c : Config} {e : Ending} (h : c.ending? s = some e)
    (n : Nat) : after s (n + 1) c = none := by
  rw [after]
  split
  · next c' hc' =>
    have := ending?_eq_none_iff.mpr ⟨c', hc'⟩
    rw [h] at this
    exact absurd this (Option.some_ne_none e)
  · rfl

/-- No run gets behind its end. -/
theorem EndsAfter.after_eq_none {s : Setup} {c d : Config} {m n : Nat} {e : Ending}
    (h : EndsAfter s c n d e) (hlt : n < m) : after s m c = none := by
  obtain ⟨k, rfl⟩ := Nat.exists_eq_add_of_lt hlt
  rw [Nat.add_assoc, after_add_of_eq_some h.after_eq, after_eq_none_of_ending h.ending_eq]

theorem EndsAfter.le_of_after {s : Setup} {c c' d : Config} {m n : Nat} {e : Ending}
    (h : EndsAfter s c n d e) (hc : after s m c = some c') : m ≤ n := by
  refine Nat.le_of_not_lt fun hlt => ?_
  rw [h.after_eq_none hlt] at hc
  exact absurd hc.symm (Option.some_ne_none c')

/-- **A run ends at one place.** -/
theorem EndsAfter.unique {s : Setup} {c d d' : Config} {n n' : Nat} {e e' : Ending}
    (h : EndsAfter s c n d e) (h' : EndsAfter s c n' d' e') : n = n' ∧ d = d' ∧ e = e' := by
  obtain rfl : n = n' := Nat.le_antisymm (h'.le_of_after h.after_eq) (h.le_of_after h'.after_eq)
  have hd : d = d' := Option.some.inj (h.after_eq.symm.trans h'.after_eq)
  subst hd
  exact ⟨rfl, rfl, Option.some.inj (h.ending_eq.symm.trans h'.ending_eq)⟩

/-- What is left of a run that ends, from somewhere on its way. -/
theorem EndsAfter.of_after {s : Setup} {c c' d : Config} {m n : Nat} {e : Ending}
    (h : EndsAfter s c n d e) (hc : after s m c = some c') :
    m ≤ n ∧ EndsAfter s c' (n - m) d e := by
  have hmn : m ≤ n := h.le_of_after hc
  refine ⟨hmn, ?_, h.ending_eq⟩
  rw [← after_add_of_eq_some hc, Nat.add_sub_cancel' hmn]
  exact h.after_eq

/-! ## Executing -/

/-- `execute` stops where the run ends, if it makes an attempt there. -/
theorem execute_eq_some_iff {s : Setup} {d : Config} {e : Ending} :
    ∀ {fuel : Nat} {c : Config},
      execute s fuel c = (d, some e) ↔ ∃ n, n < fuel ∧ EndsAfter s c n d e := by
  intro fuel
  induction fuel with
  | zero => intro c; simp [execute]
  | succ fuel ih =>
    intro c
    rw [execute]
    rcases attempt_stays s c with ⟨c', hc', -⟩ | hc' | ⟨fault, hc'⟩
    · simp only [hc', ih]
      constructor
      · rintro ⟨n, hn, h⟩
        exact ⟨n + 1, by omega, by rw [after_succ_of_advanced hc', h.after_eq], h.ending_eq⟩
      · rintro ⟨n, hn, h⟩
        obtain ⟨hle, hrest⟩ := h.of_after (m := 1) (by rw [after_succ_of_advanced hc', after_zero])
        exact ⟨n - 1, by omega, hrest⟩
    all_goals
      -- the run ends here, and so does `execute`
      have hhere : ∀ e', c.ending? s = some e' →
          ((c, some e') = (d, some e) ↔ ∃ n, n < fuel + 1 ∧ EndsAfter s c n d e) := by
        intro e' he'
        constructor
        · intro h
          obtain ⟨rfl, he⟩ := Prod.mk.inj h
          exact ⟨0, by omega, rfl, by rw [he', he]⟩
        · rintro ⟨n, -, h⟩
          obtain ⟨-, rfl, rfl⟩ := EndsAfter.unique ⟨after_zero s c, he'⟩ h
          rfl
      simp only [hc']
      exact hhere _ (by rw [ending?, hc'])

theorem exists_endsAfter_of_execute {s : Setup} {c : Config} {e : Ending} {fuel : Nat}
    (h : (execute s fuel c).2 = some e) : ∃ n, EndsAfter s c n (execute s fuel c).1 e := by
  obtain ⟨n, -, hends⟩ := execute_eq_some_iff.mp (show execute s fuel c = (_, some e) by rw [← h])
  exact ⟨n, hends⟩

/-- `execute` comes to no end as long as every attempt advances the run. -/
theorem execute_eq_none_iff {s : Setup} {d : Config} :
    ∀ {fuel : Nat} {c : Config}, execute s fuel c = (d, none) ↔ after s fuel c = some d := by
  intro fuel
  induction fuel with
  | zero => intro c; simp [execute]
  | succ fuel ih =>
    intro c
    rw [execute, after]
    cases c.attempt s with
    | advanced c' => exact ih
    | ended c' => simp
    | stuck fault c' => simp

end Config

/-- What a run ends with does not depend on the number of attempts allowed. -/
theorem Machine.execute_eq_of_ending {m : Machine} {s : Setup} {input : List UInt8}
    {fuel fuel' : Nat} {e e' : Ending} (h : (m.execute s input fuel).ending = some e)
    (h' : (m.execute s input fuel').ending = some e') :
    m.execute s input fuel = m.execute s input fuel' := by
  obtain ⟨n, hends⟩ := Config.exists_endsAfter_of_execute h
  obtain ⟨n', hends'⟩ := Config.exists_endsAfter_of_execute h'
  obtain ⟨-, hconfig, rfl⟩ := hends.unique hends'
  have hexecute : (Config.start m.length input).execute s fuel
      = (Config.start m.length input).execute s fuel' := Prod.ext hconfig (h.trans h'.symm)
  rw [Machine.execute, Machine.execute, hexecute]

end TapeMachine
