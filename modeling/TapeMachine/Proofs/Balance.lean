import Mathlib.Combinatorics.Enumerative.DyckWord
import TapeMachine.Program.Basic

/-!
# Balanced sources

A source is balanced when its brackets, read as steps up and down, form a Dyck word. `ClosesFrom`
says the same of the rest of a source when some brackets are already open; it is what goes through
an induction along the source.
-/

namespace TapeMachine

/-! ## Brackets as steps -/

/-- The byte `[`. -/
def openBracket : UInt8 := 0x5B

/-- The byte `]`. -/
def closeBracket : UInt8 := 0x5D

/-- The step that a bracket is. Other bytes are no steps. -/
def bracketStep (b : UInt8) : Option DyckStep :=
  if b = openBracket then some .U else if b = closeBracket then some .D else none

@[simp] theorem bracketStep_openBracket : bracketStep openBracket = some .U := rfl

@[simp] theorem bracketStep_closeBracket : bracketStep closeBracket = some .D := rfl

theorem ne_openBracket {b : UInt8} (h : bracketStep b = none) : b ≠ openBracket := by
  rintro rfl
  simp at h

theorem ne_closeBracket {b : UInt8} (h : bracketStep b = none) : b ≠ closeBracket := by
  rintro rfl
  simp at h

theorem openBracket_ne_closeBracket : openBracket ≠ closeBracket := by decide

/-- A byte is `[`, `]` or no bracket. -/
theorem bracket_cases (b : UInt8) :
    b = openBracket ∨ b = closeBracket ∨ bracketStep b = none := by
  unfold bracketStep
  by_cases ho : b = openBracket
  · exact Or.inl ho
  · by_cases hc : b = closeBracket
    · exact Or.inr (Or.inl hc)
    · exact Or.inr (Or.inr (by rw [if_neg ho, if_neg hc]))

/-- The brackets of a source, in order. -/
def bracketWord (source : List UInt8) : List DyckStep := source.filterMap bracketStep

@[simp] theorem bracketWord_nil : bracketWord [] = [] := rfl

@[simp] theorem bracketWord_open (source : List UInt8) :
    bracketWord (openBracket :: source) = .U :: bracketWord source :=
  List.filterMap_cons_some bracketStep_openBracket

@[simp] theorem bracketWord_close (source : List UInt8) :
    bracketWord (closeBracket :: source) = .D :: bracketWord source :=
  List.filterMap_cons_some bracketStep_closeBracket

theorem bracketWord_plain {b : UInt8} (h : bracketStep b = none) (source : List UInt8) :
    bracketWord (b :: source) = bracketWord source :=
  List.filterMap_cons_none h

@[simp] theorem bracketWord_append (s t : List UInt8) :
    bracketWord (s ++ t) = bracketWord s ++ bracketWord t := List.filterMap_append

/-- A source is balanced when its brackets form a Dyck word. -/
def Balanced (source : List UInt8) : Prop := ∃ w : DyckWord, w.toList = bracketWord source

theorem Balanced.nil : Balanced [] := ⟨0, rfl⟩

theorem Balanced.append {s t : List UInt8} (hs : Balanced s) (ht : Balanced t) :
    Balanced (s ++ t) := by
  obtain ⟨v, hv⟩ := hs
  obtain ⟨w, hw⟩ := ht
  refine ⟨v + w, ?_⟩
  rw [bracketWord_append, ← hv, ← hw]
  rfl

/-- A byte that is no bracket is balanced. -/
theorem Balanced.plain {b : UInt8} (h : bracketStep b = none) : Balanced [b] :=
  ⟨0, (bracketWord_plain h []).symm⟩

/-- A pair of brackets around what is balanced is balanced. -/
theorem Balanced.nest {s : List UInt8} (h : Balanced s) :
    Balanced (openBracket :: (s ++ [closeBracket])) := by
  obtain ⟨w, hw⟩ := h
  refine ⟨w.nest, ?_⟩
  rw [bracketWord_open, bracketWord_append, ← hw]
  rfl

/-! ## Words that close open brackets -/

/-- With `h` brackets open before it, the word closes what is open and never more than that. -/
def ClosesFrom (h : Nat) (w : List DyckStep) : Prop :=
  w.count .D = h + w.count .U ∧ ∀ k, (w.take k).count .D ≤ h + (w.take k).count .U

theorem balanced_iff_closesFrom {source : List UInt8} :
    Balanced source ↔ ClosesFrom 0 (bracketWord source) := by
  constructor
  · rintro ⟨w, hw⟩
    rw [← hw]
    refine ⟨?_, fun k => ?_⟩
    · rw [Nat.zero_add, w.count_U_eq_count_D]
    · rw [Nat.zero_add]
      exact w.count_D_le_count_U k
  · rintro ⟨hcount, hbelow⟩
    refine ⟨⟨bracketWord source, ?_, fun k => ?_⟩, rfl⟩
    · rw [hcount, Nat.zero_add]
    · have := hbelow k
      rwa [Nat.zero_add] at this

@[simp] theorem closesFrom_nil {h : Nat} : ClosesFrom h [] ↔ h = 0 := by
  simp [ClosesFrom, eq_comm]

/-- The first step is taken off, and the number of open brackets is changed to go with it. -/
theorem closesFrom_cons {step : DyckStep} {h h' : Nat} (added : Nat)
    (hcount : ∀ v : List DyckStep, (step :: v).count .D = v.count .D + added ∧
      h + (step :: v).count .U = h' + v.count .U + added) {w : List DyckStep} :
    ClosesFrom h (step :: w) ↔ ClosesFrom h' w := by
  constructor
  · rintro ⟨htotal, hbelow⟩
    rw [(hcount w).1, (hcount w).2] at htotal
    refine ⟨Nat.add_right_cancel htotal, fun k => ?_⟩
    have := hbelow (k + 1)
    rw [List.take_succ_cons, (hcount _).1, (hcount _).2] at this
    exact Nat.le_of_add_le_add_right this
  · rintro ⟨htotal, hbelow⟩
    refine ⟨by rw [(hcount w).1, (hcount w).2, htotal], fun k => ?_⟩
    cases k with
    | zero => exact Nat.zero_le _
    | succ k =>
      rw [List.take_succ_cons, (hcount _).1, (hcount _).2]
      exact Nat.add_le_add_right (hbelow k) added

@[simp] theorem closesFrom_up {h : Nat} {w : List DyckStep} :
    ClosesFrom h (.U :: w) ↔ ClosesFrom (h + 1) w :=
  closesFrom_cons 0 fun v => by simp; omega

@[simp] theorem closesFrom_down {h : Nat} {w : List DyckStep} :
    ClosesFrom (h + 1) (.D :: w) ↔ ClosesFrom h w :=
  closesFrom_cons 1 fun v => by simp; omega

/-- A step down needs an open bracket. -/
@[simp] theorem not_closesFrom_zero_down {w : List DyckStep} : ¬ ClosesFrom 0 (.D :: w) := by
  rintro ⟨-, hbelow⟩
  have := hbelow 1
  simp at this

/-- What ends in a balanced source after a `[` is not balanced: that `[` stays open. -/
theorem not_balanced_append_open {t v : List UInt8} (hv : Balanced v) :
    ¬ Balanced (t ++ openBracket :: v) := by
  rw [balanced_iff_closesFrom] at hv ⊢
  rintro ⟨htotal, hbelow⟩
  have hword : bracketWord (t ++ openBracket :: v)
      = bracketWord t ++ .U :: bracketWord v := by simp
  have hvtotal := hv.1
  have htake := hbelow (bracketWord t).length
  rw [hword, List.take_left] at htake
  rw [hword, List.count_append, List.count_append, List.count_cons_self,
    List.count_cons_of_ne (by decide)] at htotal
  omega

end TapeMachine
