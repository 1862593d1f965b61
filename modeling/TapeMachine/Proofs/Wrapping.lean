import TapeMachine.Proofs.Insertion

/-!
# Cells wrap around

A cell counts modulo 256. So a piece of `+` and `-` that adds a multiple of 256 may be put anywhere
into a source, and nothing changes but the offsets behind it.

In front of a block the piece adds its net change to the current cell (`Block.eval_append_iff`). If
that is zero, the piece is one that does nothing (`Block.neutral_of_wrapsAround`).
-/

namespace TapeMachine

/-! ## Pieces of `+` and `-` -/

/-- The piece has only the bytes `+` and `-`. -/
def PlusMinus (piece : List UInt8) : Prop := ∀ b ∈ piece, b = 0x2B ∨ b = 0x2D

/-- What a piece of `+` and `-` adds to a cell. -/
def netChange (piece : List UInt8) : UInt8 :=
  .ofNat (piece.count 0x2B) - .ofNat (piece.count 0x2D)

/-- A piece of `+` and `-` with as many of the ones as of the others, up to a multiple of 256. -/
structure WrapsAround (piece : List UInt8) : Prop where
  plusMinus : PlusMinus piece
  dvd : (256 : Int) ∣ (piece.count 0x2B : Int) - (piece.count 0x2D : Int)

section

variable {piece : List UInt8}

theorem netChange_plus (piece : List UInt8) : netChange (0x2B :: piece) = 1 + netChange piece := by
  rw [netChange, List.count_cons_self, List.count_cons_of_ne (by decide), UInt8.ofNat_add, netChange]
  grind

theorem netChange_minus (piece : List UInt8) :
    netChange (0x2D :: piece) = netChange piece - 1 := by
  rw [netChange, List.count_cons_self, List.count_cons_of_ne (by decide), UInt8.ofNat_add, netChange]
  grind

theorem WrapsAround.netChange_eq (h : WrapsAround piece) : netChange piece = 0 := by
  have hdvd := h.dvd
  have hmod : piece.count 0x2B % 256 = piece.count 0x2D % 256 := by omega
  have heq : UInt8.ofNat (piece.count 0x2B) = UInt8.ofNat (piece.count 0x2D) := by
    apply UInt8.toNat_inj.mp
    rw [UInt8.toNat_ofNat', UInt8.toNat_ofNat', hmod]
  rw [netChange, heq, UInt8.sub_self]

theorem PlusMinus.plain (h : PlusMinus piece) : ∀ b ∈ piece, bracketStep b = none := by
  intro b hb
  rcases h b hb with rfl | rfl
  · rfl
  · rfl

theorem PlusMinus.balanced (h : PlusMinus piece) : Balanced piece :=
  ⟨0, (List.filterMap_eq_nil_iff.mpr h.plain).symm⟩

theorem PlusMinus.newline_not_mem (h : PlusMinus piece) : newline ∉ piece := by
  intro hb
  rcases h newline hb with hb | hb
  · exact absurd hb (by decide)
  · exact absurd hb (by decide)

end

/-! ## The current cell -/

namespace Store

variable {n : Nat} (σ : Store n)

@[simp] theorem cell_write (value : UInt8) : (σ.write value).cell = value :=
  Vector.getElem_set_self _

@[simp] theorem write_write (value value' : UInt8) :
    (σ.write value).write value' = σ.write value' := by
  simp [write]

@[simp] theorem write_cell : σ.write σ.cell = σ := by
  simp [write, cell]

end Store

namespace Block

section

variable {debug : Bool} {n : Nat} {r : Outcome n} {block : Block}

/-- **A piece of `+` and `-` adds its net change to the current cell.** -/
theorem eval_append_iff {piece : Block} (h : PlusMinus piece.code) :
    ∀ {k : Nat} {σ : Store n}, Eval debug (piece.append block) k σ r ↔
      Eval debug block (k + piece.size) (σ.write (σ.cell + netChange piece.code)) r := by
  induction piece with
  | nil =>
    intro k σ
    rw [show netChange Block.nil.code = 0 from rfl, UInt8.add_zero, Store.write_cell]
    rfl
  | byte b plain rest ih =>
    intro k σ
    have hrest : PlusMinus rest.code := fun c hc => h c (List.mem_cons_of_mem b hc)
    rcases h b List.mem_cons_self with rfl | rfl
    · have hact : σ.act debug 0x2B = some (σ.write (σ.cell + 1)) := rfl
      rw [append, eval_byte_iff hact, ih hrest, Store.cell_write, Store.write_write, code,
        netChange_plus, size, UInt8.add_assoc, Nat.add_right_comm k 1, Nat.add_assoc k]
    · have hact : σ.act debug 0x2D = some (σ.write (σ.cell - 1)) := rfl
      have hchange : σ.cell - 1 + netChange rest.code = σ.cell + (netChange rest.code - 1) := by
        grind
      rw [append, eval_byte_iff hact, ih hrest, Store.cell_write, Store.write_write, code,
        netChange_minus, size, hchange, Nat.add_right_comm k 1, Nat.add_assoc k]
  | loop body rest =>
    exact absurd (h openBracket List.mem_cons_self) (by decide)

/-- A piece that wraps around does nothing. -/
theorem neutral_of_wrapsAround {piece : Block} (h : WrapsAround piece.code) : piece.Neutral where
  plain := h.plusMinus.plain
  newline_notMem := h.plusMinus.newline_not_mem
  eval_append_iff := by
    intro debug n block k σ r
    rw [eval_append_iff h.plusMinus, h.netChange_eq, UInt8.add_zero, Store.write_cell]

end

end Block

/-! ## Programs -/

theorem endBy_insert {before piece after : List UInt8} (h : WrapsAround piece) {p q : Program}
    (hp : Program.prepare (before ++ after) = .ok p)
    (hq : Program.prepare (before ++ (piece ++ after)) = .ok q) (debug : Bool) (m : Machine)
    (input : List UInt8) (hm : 0 < m.length) : EndBy (· = ·) p q debug m input := by
  obtain ⟨piece, rfl⟩ := Block.balanced_iff_exists_code.mp h.plusMinus.balanced
  exact (Block.neutral_of_wrapsAround h).endBy hp hq debug m input hm

/-- **Cells count modulo 256 everywhere.** A piece of `+` and `-` that adds a multiple of 256 may be
put at any offset of any source: the report stays the same, and a source that is accepted runs as it
did on every tape with cells, and fails in the same line. -/
theorem wrapping_piece_changes_nothing (before piece after : List UInt8) (h : WrapsAround piece) :
    ((∃ p, Program.prepare (before ++ after) = .ok p) ↔
      ∃ q, Program.prepare (before ++ (piece ++ after)) = .ok q) ∧
    (∀ ds, Program.prepare (before ++ after) = .error ds ↔
      Program.prepare (before ++ (piece ++ after)) = .error ds) ∧
    ∀ p q, Program.prepare (before ++ after) = .ok p →
      Program.prepare (before ++ (piece ++ after)) = .ok q →
      ∀ (debug : Bool) (m : Machine) (input : List UInt8), 0 < m.length →
        EndBy (· = ·) p q debug m input := by
  have hsame := Program.diagnostics_insert h.plusMinus.plain h.plusMinus.newline_not_mem before after
  refine ⟨?_, fun ds => ?_, fun p q hp hq debug m input hm => endBy_insert h hp hq debug m input hm⟩
  · simp only [Program.prepare_eq_ok_iff, exists_and_left, exists_eq, and_true]
    rw [← Program.diagnostics_eq_nil_iff, hsame, Program.diagnostics_eq_nil_iff]
  · rw [Program.prepare_eq_error_iff, Program.prepare_eq_error_iff, hsame]

/-- In the loop of `+[.-]` there may be 256 times a `+` in front of the `.`, and it ends as well. -/
theorem wrapping_piece_in_loop :
    WrapsAround (List.replicate 256 0x2B) ∧
      ∃ p q, Program.prepare ([0x2B, 0x5B] ++ [0x2E, 0x2D, 0x5D]) = .ok p ∧
        Program.prepare ([0x2B, 0x5B] ++ (List.replicate 256 0x2B ++ [0x2E, 0x2D, 0x5D])) = .ok q ∧
        0 < (Machine.blank 1).length ∧ EndBy (· = ·) p q false (.blank 1) [] ∧
        ∃ fuel, ((Machine.blank 1).execute ⟨q, false, none⟩ [] fuel).ending = some .finished := by
  have hpiece : WrapsAround (List.replicate 256 0x2B) :=
    ⟨fun b hb => Or.inl (List.eq_of_mem_replicate hb), by
      rw [List.count_replicate_self, List.count_replicate, if_neg (by decide)]
      decide⟩
  obtain ⟨haccepted, -, hruns⟩ :=
    wrapping_piece_changes_nothing [0x2B, 0x5B] _ [0x2E, 0x2D, 0x5D] hpiece
  obtain ⟨p, hp⟩ : ∃ p, Program.prepare ([0x2B, 0x5B] ++ [0x2E, 0x2D, 0x5D]) = .ok p := ⟨_, rfl⟩
  obtain ⟨q, hq⟩ := haccepted.mp ⟨p, hp⟩
  have hsame := hruns p q hp hq false (.blank 1) [] (by decide)
  have hfinished : ((Machine.blank 1).execute ⟨p, false, none⟩ [] 7).ending = some .finished := by
    cases hp
    decide
  obtain ⟨fuel, e, he⟩ := hsame.1.mp ⟨7, _, hfinished⟩
  obtain ⟨-, -, hending⟩ := hsame.2 _ _ _ _ hfinished he
  rw [← hending] at he
  exact ⟨hpiece, p, q, hp, hq, by decide, hsame, fuel, he⟩

end TapeMachine
