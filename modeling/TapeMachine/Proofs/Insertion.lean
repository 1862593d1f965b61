import TapeMachine.Proofs.Equivalence
import TapeMachine.Proofs.LoneBrackets

/-!
# Putting a piece into a source

A piece that does nothing to a store, and that has neither brackets nor newlines, may be put at any
offset of a source. The offsets behind it move by its size, and nothing else changes
(`Interchangeable.insert`).

* `Block.Equivalent.insertAt`: the piece may be put at any offset of a block, also within its loops
* `Program.diagnostics_insert`: the report stays the same
* `Interchangeable`: the relation between the sources, an equivalence
-/

namespace TapeMachine

namespace Block

/-! ## Neutral pieces -/

/-- A piece that does nothing to a store, and that has neither brackets nor newlines. -/
structure Neutral (piece : Block) : Prop where
  plain : ∀ b ∈ piece.code, bracketStep b = none
  newline_notMem : newline ∉ piece.code
  eval_append_iff : ∀ {debug : Bool} {n : Nat} {block : Block} {k : Nat} {σ : Store n}
    {r : Outcome n}, Eval debug (piece.append block) k σ r ↔
      Eval debug block (k + piece.size) σ r

/-- A byte that is neither an instruction nor a newline is neutral. -/
theorem neutral_byte {b : UInt8} (plain : bracketStep b = none) (hinert : Instruction.ofByte b = .inert)
    (hnewline : b ≠ newline) : Neutral (.byte b plain .nil) where
  plain := List.forall_mem_singleton.mpr plain
  newline_notMem h := hnewline (List.mem_singleton.mp h).symm
  eval_append_iff := eval_byte_iff (Store.act_inert hinert _ _)

/-! ## Putting a piece into a block -/

/-- The block with a piece put in at offset `i`. -/
def insertAt (piece : Block) : Block → Nat → Block
  | block, 0 => piece.append block
  | nil, _ + 1 => piece
  | byte b plain rest, i + 1 => byte b plain (piece.insertAt rest i)
  | loop body rest, i + 1 =>
    if i ≤ body.size then loop (piece.insertAt body i) rest
    else loop body (piece.insertAt rest (i - (body.size + 1)))

theorem code_insertAt (piece block : Block) :
    ∀ i, (piece.insertAt block i).code
      = block.code.take i ++ (piece.code ++ block.code.drop i) := by
  induction block with
  | nil =>
    intro i
    cases i with
    | zero => rw [insertAt, code_append]; rfl
    | succ i => rw [insertAt, code, List.take_nil, List.drop_nil, List.append_nil]; rfl
  | byte b plain rest ih =>
    intro i
    cases i with
    | zero => simp [insertAt]
    | succ i => rw [insertAt, code, ih, code, List.take_succ_cons, List.drop_succ_cons]; rfl
  | loop body rest ihBody ihRest =>
    intro i
    cases i with
    | zero => simp [insertAt]
    | succ i =>
      rw [insertAt]
      split
      · next hi =>
        rw [code, ihBody, code, List.take_succ_cons, List.drop_succ_cons,
          List.take_append_of_le_length (by rwa [length_code]),
          List.drop_append_of_le_length (by rwa [length_code])]
        simp
      · next hi =>
        obtain ⟨j, rfl⟩ : ∃ j, i = body.size + 1 + j := ⟨i - (body.size + 1), by omega⟩
        have hlen : body.code.length ≤ body.size + 1 + j := by rw [length_code]; omega
        rw [Nat.add_sub_cancel_left, code, ihRest, code, List.take_succ_cons, List.drop_succ_cons,
          List.take_append, List.drop_append, List.take_of_length_le hlen,
          List.drop_of_length_le hlen, length_code,
          show body.size + 1 + j - body.size = j + 1 by omega, List.take_succ_cons,
          List.drop_succ_cons]
        simp

@[simp] theorem size_insertAt (piece block : Block) (i : Nat) :
    (piece.insertAt block i).size = block.size + piece.size := by
  rw [← length_code, code_insertAt, List.length_append, List.length_append, Nat.add_left_comm,
    ← List.length_append, List.take_append_drop, length_code, length_code, Nat.add_comm]

section

variable {debug : Bool} {n : Nat} {f f' : Nat → Nat} {P : Store n → Prop} {piece : Block}

theorem Equivalent.append_neutral (hpiece : piece.Neutral) (block : Block) {k : Nat}
    (hbehind : ∀ i, i < block.size → f (k + i) = f' (k + i + piece.size)) :
    Equivalent debug f f' P block k (piece.append block) k := by
  have hmoved : Equivalent debug f f' P block k block (k + piece.size) :=
    .moved block fun i hi => by rw [hbehind i hi, Nat.add_right_comm]
  refine ⟨fun σ hσ r hr => ?_, fun σ hσ r hr => ?_⟩
  · obtain ⟨r', hr', hsame⟩ := hmoved.forth σ hσ r hr
    exact ⟨r', (hpiece.eval_append_iff).mpr hr', hsame⟩
  · exact hmoved.back σ hσ r ((hpiece.eval_append_iff).mp hr)

/-- **A neutral piece may be put anywhere into a block.** Before it the labels stay where they are, and
behind it they move by its size. -/
theorem Equivalent.insertAt (hpiece : piece.Neutral) (block : Block) :
    ∀ {P : Store n → Prop} {k i : Nat}, (∀ j, j < k + i → f j = f' j) →
      (∀ j, k + i ≤ j → f j = f' (j + piece.size)) →
      Equivalent debug f f' P block k (piece.insertAt block i) k := by
  induction block with
  | nil =>
    intro P k i _ _
    have h : Equivalent debug f f' P .nil k (piece.append .nil) k :=
      .append_neutral hpiece .nil fun j hj => absurd hj (Nat.not_lt_zero j)
    cases i with
    | zero => exact h
    | succ i => rwa [append_nil] at h
  | byte b plain rest ih =>
    intro P k i hbefore hbehind
    cases i with
    | zero => exact .append_neutral hpiece _ fun j _ => hbehind _ (Nat.le_add_right k j)
    | succ i =>
      refine .byte (hbefore k (by omega)) (ih (fun j hj => hbefore j (by omega)) fun j hj => ?_)
      exact hbehind j (by omega)
  | loop body rest ihBody ihRest =>
    intro P k i hbefore hbehind
    cases i with
    | zero => exact .append_neutral hpiece _ fun j _ => hbehind _ (Nat.le_add_right k j)
    | succ i =>
      rw [Block.insertAt]
      split
      · next hi =>
        -- the piece is put into the body, and what is behind the loop moves
        refine .loop (ihBody (fun j hj => hbefore j (by omega)) fun j hj => hbehind j (by omega))
          (.moved rest fun j hj => ?_)
        rw [size_insertAt, hbehind _ (by omega)]
        congr 1
        omega
      · next hi =>
        refine .loop (.moved body fun j hj => hbefore _ (by omega))
          (ihRest (fun j hj => hbefore j (by omega)) fun j hj => hbehind j (by omega))

end

end Block

/-! ## Lines and reports -/

section

variable {before piece after : List UInt8} {j : Nat}

/-- In front of the piece the lines are as they were. -/
theorem lineAt_insert_of_lt (hj : j < before.length) :
    lineAt (before ++ after) j = lineAt (before ++ (piece ++ after)) j := by
  rw [lineAt, lineAt, List.take_append_of_le_length hj.le, List.take_append_of_le_length hj.le]

/-- Behind a piece without newlines the lines are as they were. -/
theorem lineAt_insert_of_le (hnewline : newline ∉ piece) (hj : before.length ≤ j) :
    lineAt (before ++ after) j = lineAt (before ++ (piece ++ after)) (j + piece.length) := by
  obtain ⟨i, rfl⟩ := Nat.exists_eq_add_of_le hj
  have hcount : piece.count newline = 0 := List.count_eq_zero.mpr hnewline
  rw [lineAt, lineAt, Nat.add_assoc, Nat.add_comm i, List.take_length_add_append,
    List.take_length_add_append, List.take_length_add_append, List.count_append, List.count_append,
    List.count_append, hcount, Nat.zero_add]

theorem getD_lineNumbers {source : List UInt8} (hj : j < source.length) :
    (lineNumbers source)[j]?.getD 0 = lineAt source j := by
  rw [lineNumbers_getElem? hj]
  rfl

/-- The scan passes over bytes that are no brackets. -/
theorem Brackets.scan_plain (hplain : ∀ b ∈ piece, bracketStep b = none) (s : Brackets) :
    ∀ k, s.scan k (piece.map .ofByte) = s := by
  induction piece with
  | nil => intro k; rfl
  | cons b piece ih =>
    intro k
    rw [List.map_cons, scan, push_plain (hplain b List.mem_cons_self)]
    exact ih (fun c hc => hplain c (List.mem_cons_of_mem b hc)) (k + 1)

/-- **A piece without brackets and newlines does not change the report.** -/
theorem Program.diagnostics_insert (hplain : ∀ b ∈ piece, bracketStep b = none)
    (hnewline : newline ∉ piece) (before after : List UInt8) :
    diagnostics (lineNumbers (before ++ after))
        (Brackets.ofInstructions ((before ++ after).map .ofByte))
      = diagnostics (lineNumbers (before ++ (piece ++ after)))
        (Brackets.ofInstructions ((before ++ (piece ++ after)).map .ofByte)) := by
  apply diagnostics_eq_of_sameLabels
  rw [Brackets.ofInstructions, Brackets.ofInstructions, List.map_append, List.map_append,
    List.map_append, Brackets.scan_append, Brackets.scan_append, Brackets.scan_append,
    Brackets.scan_plain hplain, List.length_map, List.length_map]
  refine .scan _ (.scan _ ⟨rfl, rfl⟩ fun j hj => ?_) fun j hj => ?_
  · rw [List.length_map] at hj
    rw [Nat.zero_add, getD_lineNumbers (by simp; omega), getD_lineNumbers (by simp; omega),
      lineAt_insert_of_lt hj]
  · rw [List.length_map] at hj
    rw [Nat.zero_add, getD_lineNumbers (by simp; omega), getD_lineNumbers (by simp; omega),
      lineAt_insert_of_le hnewline (Nat.le_add_right _ j), Nat.add_right_comm]

end

/-! ## Programs -/

/-- Outcomes in the same lines are endings that are the same. -/
theorem Block.Outcome.ending_eq_of_label {n : Nat} {r r' : Outcome n} {source source' : List UInt8}
    (h : r.label (lineAt source) = r'.label (lineAt source')) :
    r.ending source = r'.ending source' := by
  cases r with
  | done σ =>
    rw [eq_done_of_label h]
    rfl
  | stuck offset b σ =>
    obtain ⟨offset', rfl, hline⟩ := eq_stuck_of_label h
    rw [ending, ending, hline]

theorem Block.Neutral.endBy {before after : List UInt8} {piece : Block} (h : piece.Neutral)
    {p q : Program} (hp : Program.prepare (before ++ after) = .ok p)
    (hq : Program.prepare (before ++ (piece.code ++ after)) = .ok q) (debug : Bool) (m : Machine)
    (input : List UInt8) (hm : 0 < m.length) : EndBy (· = ·) p q debug m input := by
  have hp := Program.prepared_of_prepare hp
  have hq := Program.prepared_of_prepare hq
  obtain ⟨block, hblock⟩ := Block.balanced_iff_exists_code.mp hp.balanced
  have hcode : (piece.insertAt block before.length).code = before ++ (piece.code ++ after) := by
    rw [Block.code_insertAt, hblock, List.take_left, List.drop_left]
  have hequivalent : Block.Equivalent debug (lineAt block.code)
      (lineAt (piece.insertAt block before.length).code) (Block.Anywhere m.length) block 0
      (piece.insertAt block before.length) 0 := by
    rw [hcode, hblock]
    refine .insertAt h block (fun j hj => ?_) fun j hj => ?_
    · rw [Nat.zero_add] at hj
      exact lineAt_insert_of_lt hj
    · rw [Nat.zero_add] at hj
      rw [← Block.length_code]
      exact lineAt_insert_of_le h.newline_notMem hj
  rw [← hblock] at hp
  rw [← hcode] at hq
  exact endBy_of_equivalent hp hq hm hequivalent trivial fun r r' =>
    Block.Outcome.ending_eq_of_label

/-! ## Interchangeable sources -/

/-- Both sources are refused with the same report, or else both are accepted and run alike: on every
tape with cells they end in the same way, in the same place and with the same output. -/
structure Interchangeable (source source' : List UInt8) : Prop where
  error_iff : ∀ ds, Program.prepare source = .error ds ↔ Program.prepare source' = .error ds
  endBy : ∀ {p q : Program}, Program.prepare source = .ok p → Program.prepare source' = .ok q →
    ∀ (debug : Bool) (m : Machine) (input : List UInt8), 0 < m.length →
      EndBy (· = ·) p q debug m input

theorem EndBy.symm {p q : Program} {debug : Bool} {m : Machine} {input : List UInt8}
    (h : EndBy (· = ·) p q debug m input) : EndBy (· = ·) q p debug m input := by
  refine ⟨h.1.symm, fun fuel fuel' e e' he he' => ?_⟩
  obtain ⟨houtput, hmachine, rfl⟩ := h.2 fuel' fuel e' e he' he
  exact ⟨houtput.symm, hmachine.symm, rfl⟩

theorem EndBy.trans {p q t : Program} {debug : Bool} {m : Machine} {input : List UInt8}
    (h : EndBy (· = ·) p q debug m input) (h' : EndBy (· = ·) q t debug m input) :
    EndBy (· = ·) p t debug m input := by
  refine ⟨h.1.trans h'.1, fun fuel fuel' e e' he he' => ?_⟩
  obtain ⟨between, e'', hbetween⟩ := h.1.mp ⟨fuel, e, he⟩
  obtain ⟨houtput, hmachine, rfl⟩ := h.2 fuel between e e'' he hbetween
  obtain ⟨houtput', hmachine', rfl⟩ := h'.2 between fuel' e e' hbetween he'
  exact ⟨houtput.trans houtput', hmachine.trans hmachine', rfl⟩

namespace Interchangeable

variable {source source' source'' : List UInt8}

/-- Where no report is the same for both, both are accepted. -/
theorem exists_prepare (h : Interchangeable source source') {p : Program}
    (hp : Program.prepare source = .ok p) : ∃ q, Program.prepare source' = .ok q := by
  cases hq : Program.prepare source' with
  | ok q => exact ⟨q, rfl⟩
  | error ds =>
    rw [(h.error_iff ds).mpr hq] at hp
    cases hp

theorem refl (source : List UInt8) : Interchangeable source source := by
  refine ⟨fun _ => .rfl, fun hp hq debug m input hm => ?_⟩
  rw [hp, Except.ok.injEq] at hq
  subst hq
  refine ⟨.rfl, fun fuel fuel' e e' he he' => ?_⟩
  have hsame := Machine.execute_eq_of_ending he he'
  rw [hsame] at he ⊢
  exact ⟨rfl, rfl, Option.some.inj (he.symm.trans he')⟩

theorem symm (h : Interchangeable source source') : Interchangeable source' source :=
  ⟨fun ds => (h.error_iff ds).symm, fun hp hq debug m input hm => (h.endBy hq hp debug m input hm).symm⟩

theorem trans (h : Interchangeable source source') (h' : Interchangeable source' source'') :
    Interchangeable source source'' := by
  refine ⟨fun ds => (h.error_iff ds).trans (h'.error_iff ds), fun hp hq debug m input hm => ?_⟩
  obtain ⟨between, hbetween⟩ := h.exists_prepare hp
  exact (h.endBy hp hbetween debug m input hm).trans (h'.endBy hbetween hq debug m input hm)

/-- **A neutral piece may be put into a source.** -/
theorem insert {piece : Block} (h : piece.Neutral) (before after : List UInt8) :
    Interchangeable (before ++ after) (before ++ (piece.code ++ after)) := by
  refine ⟨fun ds => ?_, fun hp hq debug m input hm => h.endBy hp hq debug m input hm⟩
  rw [Program.prepare_eq_error_iff, Program.prepare_eq_error_iff,
    Program.diagnostics_insert h.plain h.newline_notMem]

end Interchangeable

end TapeMachine
