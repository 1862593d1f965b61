import TapeMachine.Proofs.Comments

/-!
# Dead loops

A loop is left with a zero in the current cell, and a tape begins with zeros. So a loop that stands
behind another one, or at the beginning of a source, is never entered.

* `StandsBehind.attempt`: what one instruction keeps, so that behind a `]` the current cell is zero
* `Block.Equivalent.deadLoop`: from a zero cell a loop may be left out
-/

namespace TapeMachine

/-! ## Behind a loop -/

section

variable {source : List UInt8} {p : Program} {debug : Bool} {n : Nat}

/-- What keeps a loop behind another one from being entered: the current cell is zero in front of the
loop, and the run is not in the loop. -/
structure StandsBehind (source : List UInt8) (σ : Store n) (pc : Nat) : Prop where
  cell_eq : ∀ j, pc = j + 1 → source[j]? = some closeBracket → σ.cell = 0
  not_inside : ∀ j e, source[j]? = some closeBracket → Matched source (j + 1) e →
    ¬ (j + 1 < pc ∧ pc ≤ e)

namespace StandsBehind

variable {σ τ : Store n} {pc : Nat}

/-- A run stays outside of the dead loops when it goes on behind a byte that opens none of them. -/
theorem succ (h : StandsBehind source σ pc) (hbyte : source[pc]? ≠ some closeBracket)
    (hopen : source[pc]? = some openBracket → σ.cell ≠ 0) : StandsBehind source τ (pc + 1) where
  cell_eq j hj hclose := by
    obtain rfl : pc = j := Nat.succ_injective hj
    exact absurd hclose hbyte
  not_inside j e hclose hm hinside := by
    rcases Nat.lt_or_ge (j + 1) pc with hlt | hge
    · exact h.not_inside j e hclose hm ⟨hlt, by omega⟩
    · obtain rfl : pc = j + 1 := by omega
      exact hopen hm.getElem?_open (h.cell_eq j rfl hclose)

/-- A jump from a bracket to its partner, or behind it, does not lead into a dead loop. -/
theorem jump {target : Nat} (h : StandsBehind source σ pc) (hp : Partners source pc target)
    {j e : Nat} (hclose : source[j]? = some closeBracket) (hm : Matched source (j + 1) e)
    (hlt : j + 1 < target) : ¬ target < e := by
  intro hte
  obtain ⟨hgt, hpe⟩ := hp.symm.between hm hlt hte
  exact h.not_inside j e hclose hm ⟨hgt, hpe.le⟩

/-- The loop is left out. -/
theorem skip {j : Nat} (h : StandsBehind source σ pc) (hj : Matched source pc j)
    (hcell : σ.cell = 0) : StandsBehind source σ (j + 1) where
  cell_eq _ _ _ := hcell
  not_inside j' e hclose hm hinside := by
    rcases Nat.lt_or_ge (j' + 1) j with hlt | hge
    · exact h.jump (Or.inl hj) hclose hm hlt hinside.2
    · obtain rfl : j = j' + 1 := by omega
      exact hm.not_matched hj

/-- The loop is come back to. -/
theorem back {i : Nat} (h : StandsBehind source σ pc) (hi : Matched source i pc) :
    StandsBehind source σ i where
  cell_eq j hj hclose := by
    subst hj
    exact absurd ⟨hi.lt, Nat.le_refl pc⟩ (h.not_inside j pc hclose hi)
  not_inside j e hclose hm hinside := by
    rcases Nat.lt_or_ge i e with hlt | hge
    · exact h.jump (Or.inr hi) hclose hm hinside.1 hlt
    · obtain rfl : i = e := by omega
      exact hi.not_matched hm

/-- **What one instruction keeps.** -/
theorem attempt (hp : p.Prepared source) (h : StandsBehind source σ pc) {steps : Nat} {c : Config}
    (hc : (σ.config pc steps).attempt ⟨p, debug, none⟩ = .advanced c) :
    ∃ (τ : Store n) (pc' steps' : Nat), c = τ.config pc' steps' ∧ StandsBehind source τ pc' := by
  cases hb : source[pc]? with
  | none =>
    rw [attempt_end debug σ steps hp (List.getElem?_eq_none_iff.mp hb)] at hc
    cases hc
  | some b =>
    by_cases plain : bracketStep b = none
    · rw [attempt_plain debug σ steps hp hb plain] at hc
      cases hact : σ.act debug b with
      | none => rw [hact] at hc; cases hc
      | some τ =>
        rw [hact] at hc
        cases hc
        refine ⟨τ, pc + 1, steps + 1, rfl, h.succ ?_ ?_⟩
        · rw [hb, ne_eq, Option.some.injEq]
          exact ne_closeBracket plain
        · rw [hb, Option.some.injEq]
          exact fun hopen => absurd hopen (ne_openBracket plain)
    · obtain ⟨j, -, hj | hj, -⟩ := hp.table.bracket pc b hb plain
      · rw [attempt_open debug σ steps hp hj] at hc
        cases hc
        by_cases hcell : σ.cell = 0
        · exact ⟨σ, j + 1, steps + 1, by rw [if_pos hcell], h.skip hj hcell⟩
        · refine ⟨σ, pc + 1, steps + 1, by rw [if_neg hcell], h.succ ?_ fun _ => hcell⟩
          rw [hj.getElem?_open, ne_eq, Option.some.injEq]
          exact openBracket_ne_closeBracket
      · rw [attempt_close debug σ steps hp hj] at hc
        cases hc
        exact ⟨σ, j, steps + 1, rfl, h.back hj⟩

end StandsBehind

end

/-- Wherever a run of the program comes to just behind a `]`, the current cell is zero. -/
def Program.ZeroBehindLoops (p : Program) : Prop :=
  ∀ (debug : Bool) (m : Machine) (input : List UInt8), 0 < m.length →
    ∀ (k : Nat) (c : Config), Config.after ⟨p, debug, none⟩ k (.start m.length input) = some c →
      ∀ j, c.pc = j + 1 → p.source[j]? = some closeBracket → c.tape[c.pointer]? = some 0

theorem Program.zeroBehindLoops {source : List UInt8} {p : Program} (hp : prepare source = .ok p) :
    p.ZeroBehindLoops := by
  intro debug m input hm k c hc j hj hclose
  have hstart : StandsBehind p.source (Store.start hm input) 0 :=
    ⟨fun _ h => absurd h.symm (Nat.succ_ne_zero _), fun _ _ _ _ h => Nat.not_lt_zero _ h.1⟩
  rw [← Store.config_start hm input] at hc
  obtain ⟨σ, pc, steps, rfl, h⟩ := Config.after_induction
    (P := fun c => ∃ (σ : Store m.length) (pc steps : Nat), c = σ.config pc steps ∧
      StandsBehind p.source σ pc)
    (fun c c' hstep hbehind => by
      obtain ⟨σ, pc, steps, rfl, h⟩ := hbehind
      exact h.attempt (prepared_source hp) hstep) k _ c hc ⟨_, 0, 0, rfl, hstart⟩
  rw [← h.cell_eq j hj hclose]
  exact σ.tape_getElem?

/-! ## Leaving out dead loops -/

/-- The source of a loop. -/
def looped (body : List UInt8) : List UInt8 := openBracket :: (body ++ [closeBracket])

/-- **From a zero cell a loop may be left out.** -/
theorem Block.Equivalent.deadLoop {debug : Bool} {n : Nat} {f f' : Nat → Nat}
    {body rest rest' : Block} {k k' : Nat}
    (h : Equivalent debug f f' (AtZero n) rest (k + 1 + body.size + 1) rest' k') :
    Equivalent debug f f' (AtZero n) (.loop body rest) k rest' k' where
  forth σ hcell r hr := by
    cases hr with
    | skip _ hr => exact h.forth σ hcell r hr
    | again hne => exact absurd hcell hne
    | inside hne => exact absurd hcell hne
  back σ hcell r' hr' := by
    obtain ⟨r, hr, hsame⟩ := h.back σ hcell r' hr'
    exact ⟨r, .skip hcell hr, hsame⟩

theorem Store.atZero_start {n : Nat} (hn : 0 < n) (input : List UInt8) :
    Block.AtZero n (start hn input) := by
  simp [Block.AtZero, start, cell]

/-- Both sources are accepted, and their runs end alike on every tape with cells. -/
def RunAlike (source source' : List UInt8) : Prop :=
  ∃ p q, Program.prepare source = .ok p ∧ Program.prepare source' = .ok q ∧
    ∀ (debug : Bool) (m : Machine) (input : List UInt8), 0 < m.length → EndAlike p q debug m input

/-- Nested programs that come to the same from a zero cell run alike. -/
theorem runAlike_of_equivalent {block block' : Block}
    (h : ∀ debug n, Block.Equivalent debug (fun _ => 0) (fun _ => 0) (Block.AtZero n) block 0
      block' 0) : RunAlike block.code block'.code := by
  obtain ⟨p, hp⟩ := Program.exists_prepare_of_balanced block.balanced_code
  obtain ⟨q, hq⟩ := Program.exists_prepare_of_balanced block'.balanced_code
  refine ⟨p, q, hp, hq, fun debug m input hm => ?_⟩
  exact endBy_of_equivalent (Program.prepared_of_prepare hp) (Program.prepared_of_prepare hq) hm
    (h debug m.length) (Store.atZero_start hm input) fun _ _ => Block.Outcome.alike_of_label _ _

/-- **Loops behind a loop are dead, and so are loops at the beginning.** Without them the source runs
alike. The reason holds of every program: behind a `]` the current cell is zero. -/
theorem loops_behind_loops_are_dead (front body dead back : List UInt8) (hfront : Balanced front)
    (hbody : Balanced body) (hdead : Balanced dead) (hback : Balanced back) :
    RunAlike (front ++ looped body ++ looped dead ++ back) (front ++ looped body ++ back) ∧
      RunAlike (looped dead ++ back) back ∧
      ∀ source p, Program.prepare source = .ok p → p.ZeroBehindLoops := by
  obtain ⟨front, rfl⟩ := Block.balanced_iff_exists_code.mp hfront
  obtain ⟨body, rfl⟩ := Block.balanced_iff_exists_code.mp hbody
  obtain ⟨dead, rfl⟩ := Block.balanced_iff_exists_code.mp hdead
  obtain ⟨back, rfl⟩ := Block.balanced_iff_exists_code.mp hback
  refine ⟨?_, ?_, fun source p hp => Program.zeroBehindLoops hp⟩
  · have hrun : RunAlike (front.append (.loop body (.loop dead back))).code
        (front.append (.loop body back)).code :=
      runAlike_of_equivalent fun debug n => .append front (fun _ _ => rfl)
        (.loop (.moved body fun _ _ => rfl) (.deadLoop (.moved back fun _ _ => rfl)))
    simpa [Block.code, looped] using hrun
  · have hrun : RunAlike (Block.loop dead back).code back.code :=
      runAlike_of_equivalent fun debug n => .deadLoop (.moved back fun _ _ => rfl)
    simpa [Block.code, looped] using hrun

/-- The lines `+[-][.` and `]<` fail in line 2, and without the loop that is over two lines in line 1. -/
theorem loop_behind_loop_changes_failing_line :
    (Balanced [0x2B] ∧ Balanced [0x2D] ∧ Balanced [0x2E, 0x0A] ∧ Balanced [0x3C]) ∧
      RunAlike ([0x2B] ++ looped [0x2D] ++ looped [0x2E, 0x0A] ++ [0x3C])
        ([0x2B] ++ looped [0x2D] ++ [0x3C]) ∧
      ∃ p q, Program.prepare [0x2B, 0x5B, 0x2D, 0x5D, 0x5B, 0x2E, 0x0A, 0x5D, 0x3C] = .ok p ∧
        Program.prepare [0x2B, 0x5B, 0x2D, 0x5D, 0x3C] = .ok q ∧
        ((Machine.blank 1).execute ⟨p, false, none⟩ [] 12).ending
          = some (.failed (.outOfBounds 2 '<')) ∧
        ((Machine.blank 1).execute ⟨q, false, none⟩ [] 12).ending
          = some (.failed (.outOfBounds 1 '<')) := by
  have hfront : Balanced [0x2B] := .plain rfl
  have hbody : Balanced [0x2D] := .plain rfl
  have hdead : Balanced [0x2E, 0x0A] := .append (.plain (b := 0x2E) rfl) (.plain rfl)
  have hback : Balanced [0x3C] := .plain rfl
  exact ⟨⟨hfront, hbody, hdead, hback⟩,
    (loops_behind_loops_are_dead _ _ _ _ hfront hbody hdead hback).1,
    _, _, rfl, rfl, by decide, by decide⟩

end TapeMachine
