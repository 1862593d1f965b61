import TapeMachine.Proofs.Refinement

/-!
# Equivalent blocks

Two blocks are equivalent when they come to the same from the same store. They may stand at different
offsets, so the offset of an outcome is only looked at through a label: the line that it is on, or
nothing at all.

* `Block.Equivalent.byte`, `Block.Equivalent.loop`: a part of a block may be replaced by an equivalent
  one. What stands behind a loop is come to with a zero in the current cell, so its replacement need be
  equivalent from there only.
* `Block.Equivalent.leaveOut`: a byte that does nothing may be left out
* `endBy_of_equivalent`: programs with equivalent blocks end in the same way

The reports of lone brackets are compared through labels of their offsets as well
(`Program.diagnostics_eq_of_sameLabels`).
-/

namespace TapeMachine

/-! ## Equivalence -/

namespace Block

/-- The outcome with a label in place of its offset. -/
def Outcome.label {n : Nat} (f : Nat → Nat) : Outcome n → Outcome n
  | .done σ => .done σ
  | .stuck offset b σ => .stuck (f offset) b σ

theorem Outcome.eq_done_of_label {n : Nat} {f f' : Nat → Nat} {σ : Store n} {r : Outcome n}
    (h : (Outcome.done σ).label f = r.label f') : r = .done σ := by
  cases r with
  | done τ => exact h.symm
  | stuck offset b τ => simp [label] at h

theorem Outcome.eq_stuck_of_label {n : Nat} {f f' : Nat → Nat} {offset : Nat} {b : UInt8}
    {σ : Store n} {r : Outcome n} (h : (Outcome.stuck offset b σ).label f = r.label f') :
    ∃ offset', r = .stuck offset' b σ ∧ f offset = f' offset' := by
  cases r with
  | done τ => simp [label] at h
  | stuck offset' b' τ =>
    simp only [label, stuck.injEq] at h
    obtain ⟨hlabel, rfl, rfl⟩ := h
    exact ⟨offset', rfl, hlabel⟩

/-- Outcomes with the same label have the same store. -/
theorem Outcome.store_eq_of_label {n : Nat} {f f' : Nat → Nat} {r r' : Outcome n}
    (h : r.label f = r'.label f') : r.store = r'.store := by
  cases r with
  | done σ => rw [eq_done_of_label h]
  | stuck offset b σ =>
    obtain ⟨offset', rfl, -⟩ := eq_stuck_of_label h
    rfl

section

variable {n : Nat} {debug : Bool} {f f' : Nat → Nat} {P P' : Store n → Prop}
  {block block' body body' rest rest' : Block} {k k' : Nat}

/-- From the stores with `P`, what `block` at offset `k` comes to, `block'` at offset `k'` comes to as
well. Offsets are labelled by `f` for the first block and by `f'` for the second one. -/
def Simulates (debug : Bool) (f f' : Nat → Nat) (P : Store n → Prop) (block : Block) (k : Nat)
    (block' : Block) (k' : Nat) : Prop :=
  ∀ σ, P σ → ∀ r, Eval debug block k σ r →
    ∃ r', Eval debug block' k' σ r' ∧ r.label f = r'.label f'

/-- From the stores with `P` both blocks come to the same. -/
structure Equivalent (debug : Bool) (f f' : Nat → Nat) (P : Store n → Prop) (block : Block) (k : Nat)
    (block' : Block) (k' : Nat) : Prop where
  forth : Simulates debug f f' P block k block' k'
  back : Simulates debug f' f P block' k' block k

/-- Any store. -/
def Anywhere (n : Nat) (_ : Store n) : Prop := True

/-- The stores behind a loop: the current cell is zero. -/
def AtZero (n : Nat) (σ : Store n) : Prop := σ.cell = 0

theorem Equivalent.of_anywhere (h : Equivalent debug f f' (Anywhere n) block k block' k')
    (P : Store n → Prop) : Equivalent debug f f' P block k block' k' :=
  ⟨fun σ _ => h.forth σ trivial, fun σ _ => h.back σ trivial⟩

theorem Equivalent.nil (k k' : Nat) : Equivalent debug f f' P .nil k .nil k' := by
  refine ⟨fun σ _ r hr => ?_, fun σ _ r hr => ?_⟩ <;>
  · cases hr
    exact ⟨_, .nil, rfl⟩

/-! ## Replacing what is behind a byte -/

/-- A block that begins with a byte comes to what the rest comes to from the store after the byte. -/
theorem eval_byte_iff {b : UInt8} {plain : bracketStep b = none} {σ τ : Store n} {r : Outcome n}
    (hact : σ.act debug b = some τ) :
    Eval debug (.byte b plain rest) k σ r ↔ Eval debug rest (k + 1) τ r := by
  refine ⟨fun h => ?_, .byte hact⟩
  cases h with
  | byte hact' h =>
    rw [hact, Option.some.injEq] at hact'
    rwa [hact']
  | stuck hstuck =>
    rw [hact] at hstuck
    cases hstuck

/-- A byte that does nothing may be left out. -/
theorem Equivalent.leaveOut {b : UInt8} {plain : bracketStep b = none}
    (hact : ∀ σ : Store n, σ.act debug b = some σ)
    (h : Equivalent debug f f' P rest (k + 1) block' k') :
    Equivalent debug f f' P (.byte b plain rest) k block' k' where
  forth σ hσ r hr := h.forth σ hσ r ((eval_byte_iff (hact σ)).mp hr)
  back σ hσ r' hr' := by
    obtain ⟨r, hr, hsame⟩ := h.back σ hσ r' hr'
    exact ⟨r, (eval_byte_iff (hact σ)).mpr hr, hsame⟩

theorem Simulates.byte {b : UInt8} {plain : bracketStep b = none} (hlabel : f k = f' k')
    (hrest : Simulates debug f f' (Anywhere n) rest (k + 1) rest' (k' + 1)) :
    Simulates debug f f' P (.byte b plain rest) k (.byte b plain rest') k' := by
  intro σ _ r hr
  cases hr with
  | byte hact hr =>
    obtain ⟨r', hr', hsame⟩ := hrest _ trivial _ hr
    exact ⟨r', .byte hact hr', hsame⟩
  | stuck hact => exact ⟨_, .stuck hact, by rw [Outcome.label, Outcome.label, hlabel]⟩

theorem Equivalent.byte {b : UInt8} {plain : bracketStep b = none} (hlabel : f k = f' k')
    (hrest : Equivalent debug f f' (Anywhere n) rest (k + 1) rest' (k' + 1)) :
    Equivalent debug f f' P (.byte b plain rest) k (.byte b plain rest') k' :=
  ⟨hrest.forth.byte hlabel, hrest.back.byte hlabel.symm⟩

/-! ## Replacing the body of a loop and what is behind it -/

theorem Simulates.loop (hbody : Simulates debug f f' (Anywhere n) body (k + 1) body' (k' + 1))
    (hrest : Simulates debug f f' (AtZero n) rest (k + 1 + body.size + 1) rest'
      (k' + 1 + body'.size + 1)) :
    Simulates debug f f' P (.loop body rest) k (.loop body' rest') k' := by
  intro σ hσ r hr
  -- the induction follows the rounds of one loop, and only the first of them begins with `P`
  clear hσ
  generalize hblock : Block.loop body rest = block at hr
  generalize hj : k = j at hr
  induction hr with
  | nil => cases hblock
  | byte => cases hblock
  | stuck => cases hblock
  | skip hcell hr =>
    cases hblock
    subst hj
    obtain ⟨r', hr', hsame⟩ := hrest _ hcell _ hr
    exact ⟨r', .skip hcell hr', hsame⟩
  | again hcell hround _ _ ih =>
    cases hblock
    subst hj
    obtain ⟨r₁, hr₁, hdone⟩ := hbody _ trivial _ hround
    obtain rfl := Outcome.eq_done_of_label hdone
    obtain ⟨r', hr', hsame⟩ := ih rfl rfl
    exact ⟨r', .again hcell hr₁ hr', hsame⟩
  | inside hcell hround =>
    cases hblock
    subst hj
    obtain ⟨r₁, hr₁, hstuck⟩ := hbody _ trivial _ hround
    obtain ⟨offset', rfl, -⟩ := Outcome.eq_stuck_of_label hstuck
    exact ⟨_, .inside hcell hr₁, hstuck⟩

theorem Equivalent.loop (hbody : Equivalent debug f f' (Anywhere n) body (k + 1) body' (k' + 1))
    (hrest : Equivalent debug f f' (AtZero n) rest (k + 1 + body.size + 1) rest'
      (k' + 1 + body'.size + 1)) :
    Equivalent debug f f' P (.loop body rest) k (.loop body' rest') k' :=
  ⟨hbody.forth.loop hrest.forth, hbody.back.loop hrest.back⟩

/-! ## Replacing the end of a block -/

/-- The end of a block may be replaced, if the part before it has the same labels. -/
theorem Equivalent.append (block : Block) :
    ∀ {k k' : Nat} {P : Store n → Prop}, (∀ i, i < block.size → f (k + i) = f' (k' + i)) →
      Equivalent debug f f' (Anywhere n) rest (k + block.size) rest' (k' + block.size) →
      Equivalent debug f f' P (block.append rest) k (block.append rest') k' := by
  induction block generalizing rest rest' with
  | nil => intro k k' P _ h; exact h.of_anywhere P
  | byte b plain next ih =>
    intro k k' P hlabel h
    refine .byte (hlabel 0 (Nat.succ_pos _)) (ih (fun i hi => ?_) ?_)
    · have := hlabel (i + 1) (Nat.succ_lt_succ hi)
      rwa [show k + (i + 1) = k + 1 + i by omega, show k' + (i + 1) = k' + 1 + i by omega] at this
    · rwa [Block.size, show k + (next.size + 1) = k + 1 + next.size by omega,
        show k' + (next.size + 1) = k' + 1 + next.size by omega] at h
  | loop body next ihBody ihNext =>
    intro k k' P hlabel h
    rw [Block.size] at hlabel h
    have hbody : Equivalent debug f f' (Anywhere n) (body.append .nil) (k + 1)
        (body.append .nil) (k' + 1) := by
      refine ihBody (fun i hi => ?_) (.nil _ _)
      have := hlabel (i + 1) (by omega)
      rwa [show k + (i + 1) = k + 1 + i by omega, show k' + (i + 1) = k' + 1 + i by omega] at this
    rw [append_nil] at hbody
    refine .loop hbody (ihNext (fun i hi => ?_) ?_)
    · have := hlabel (body.size + 2 + i) (by omega)
      rwa [show k + (body.size + 2 + i) = k + 1 + body.size + 1 + i by omega,
        show k' + (body.size + 2 + i) = k' + 1 + body.size + 1 + i by omega] at this
    · rwa [show k + (body.size + next.size + 2) = k + 1 + body.size + 1 + next.size by omega,
        show k' + (body.size + next.size + 2) = k' + 1 + body.size + 1 + next.size by omega] at h

/-- A block may be moved to where it has the same labels. -/
theorem Equivalent.moved (block : Block) (h : ∀ i, i < block.size → f (k + i) = f' (k' + i)) :
    Equivalent debug f f' P block k block k' := by
  have hnil : Equivalent debug f f' P (block.append .nil) k (block.append .nil) k' :=
    .append block h (.nil _ _)
  rwa [append_nil] at hnil

end

end Block

/-! ## Lone brackets -/

namespace Brackets

/-- The offsets of the lone brackets have the same labels. -/
structure SameLabels (f f' : Nat → Nat) (s s' : Brackets) : Prop where
  loneCloses_eq : s.loneCloses.map f = s'.loneCloses.map f'
  opens_eq : s.opens.map f = s'.opens.map f'

section

variable {f f' : Nat → Nat} {s s' : Brackets}

theorem SameLabels.push (h : SameLabels f f' s s') {i i' : Nat} (hlabel : f i = f' i')
    (instruction : Instruction) :
    SameLabels f f' (s.push i instruction) (s'.push i' instruction) := by
  obtain ⟨hcloses, hopens⟩ := h
  cases instruction with
  | loopOpen => exact ⟨hcloses, congrArg₂ List.cons hlabel hopens⟩
  | loopClose =>
    unfold Brackets.push
    cases ho : s.opens with
    | nil =>
      have ho' : s'.opens = [] := by simpa [ho] using hopens.symm
      simp only [ho']
      exact ⟨congrArg₂ List.cons hlabel hcloses, rfl⟩
    | cons o opens =>
      cases ho' : s'.opens with
      | nil => simp [ho, ho'] at hopens
      | cons o' opens' =>
        rw [ho, ho'] at hopens
        exact ⟨hcloses, (List.cons.inj hopens).2⟩
  | _ => exact ⟨hcloses, hopens⟩

theorem SameLabels.scan (instructions : List Instruction) :
    ∀ {s s' : Brackets} {i i' : Nat}, SameLabels f f' s s' →
      (∀ j, j < instructions.length → f (i + j) = f' (i' + j)) →
      SameLabels f f' (s.scan i instructions) (s'.scan i' instructions) := by
  induction instructions with
  | nil => intro s s' i i' h _; exact h
  | cons instruction rest ih =>
    intro s s' i i' h hlabel
    refine ih (h.push (hlabel 0 (Nat.succ_pos _)) instruction) fun j hj => ?_
    have := hlabel (j + 1) (Nat.succ_lt_succ hj)
    rwa [Nat.add_right_comm i 1 j, Nat.add_right_comm i' 1 j, Nat.add_assoc, Nat.add_assoc]

end

end Brackets

/-- A report only depends on the lines of the lone brackets. -/
theorem Program.diagnostics_eq_of_sameLabels {lines lines' : Array Nat} {s s' : Brackets}
    (h : Brackets.SameLabels (fun i => lines[i]?.getD 0) (fun i => lines'[i]?.getD 0) s s') :
    diagnostics lines s = diagnostics lines' s' := by
  have hdiagnostics : ∀ (lines : Array Nat) (offsets : List Nat) (bracket : Char),
      (offsets.reverse.map (·, bracket)).map
          (fun x => Diagnostic.unbalanced (lines[x.1]?.getD 0) x.2)
        = (offsets.map fun i => lines[i]?.getD 0).reverse.map
          fun line => Diagnostic.unbalanced line bracket := by
    intro lines offsets bracket
    simp [List.map_reverse, Function.comp_def]
  rw [diagnostics, diagnostics, Brackets.lone, Brackets.lone, List.map_append, List.map_append]
  simp only [hdiagnostics, h.loneCloses_eq, h.opens_eq]

/-! ## Runs -/

/-- The runs of two programs end in ways that `E` relates, in the same place of the tape and with the
same output, or both run for ever. -/
def EndBy (E : Ending → Ending → Prop) (p q : Program) (debug : Bool) (m : Machine)
    (input : List UInt8) : Prop :=
  ((∃ fuel e, (m.execute ⟨p, debug, none⟩ input fuel).ending = some e) ↔
    ∃ fuel e, (m.execute ⟨q, debug, none⟩ input fuel).ending = some e) ∧
  ∀ fuel fuel' e e', (m.execute ⟨p, debug, none⟩ input fuel).ending = some e →
    (m.execute ⟨q, debug, none⟩ input fuel').ending = some e' →
    (m.execute ⟨p, debug, none⟩ input fuel).output
        = (m.execute ⟨q, debug, none⟩ input fuel').output ∧
      (m.execute ⟨p, debug, none⟩ input fuel).machine
        = (m.execute ⟨q, debug, none⟩ input fuel').machine ∧
      E e e'

section

variable {p q : Program} {debug : Bool} {m : Machine} {input : List UInt8}
  {E : Ending → Ending → Prop} {block block' : Block}

/-- A program whose outcomes another one has as well ends where that one does. -/
theorem exists_execute_of_eval (hp : p.Prepared block.code) (hq : q.Prepared block'.code)
    (hm : 0 < m.length)
    (heval : ∀ r, Eval debug block 0 (Store.start hm input) r →
      ∃ r', Eval debug block' 0 (Store.start hm input) r' ∧ r.store = r'.store ∧
        E (r.ending block.code) (r'.ending block'.code))
    {fuel : Nat} {e : Ending} (h : (m.execute ⟨p, debug, none⟩ input fuel).ending = some e) :
    ∃ fuel' e', m.execute ⟨q, debug, none⟩ input fuel'
        = ⟨some e', (m.execute ⟨p, debug, none⟩ input fuel).output,
          (m.execute ⟨p, debug, none⟩ input fuel).machine⟩ ∧ E e e' := by
  obtain ⟨r, hr, rfl, htape, hpointer, houtput⟩ :=
    (execute_iff_eval hp m hm input e _ _ _).mp ⟨fuel, by rw [← h]; rfl⟩
  obtain ⟨r', hr', hstore, hending⟩ := heval r hr
  obtain ⟨fuel', hfuel'⟩ := (execute_iff_eval hq m hm input _ _ _ _).mpr
    ⟨r', hr', rfl, rfl, rfl, rfl⟩
  refine ⟨fuel', r'.ending block'.code, hfuel'.trans ?_, hending⟩
  rw [← hstore, htape, hpointer, houtput]
  rfl

/-- **Programs whose nested programs come to the same end in the same place.** -/
theorem endBy_of_eval (hp : p.Prepared block.code) (hq : q.Prepared block'.code)
    (hm : 0 < m.length)
    (hforth : ∀ r, Eval debug block 0 (Store.start hm input) r →
      ∃ r', Eval debug block' 0 (Store.start hm input) r' ∧ r.store = r'.store ∧
        E (r.ending block.code) (r'.ending block'.code))
    (hback : ∀ r', Eval debug block' 0 (Store.start hm input) r' →
      ∃ r, Eval debug block 0 (Store.start hm input) r ∧ r'.store = r.store) :
    EndBy E p q debug m input := by
  refine ⟨⟨?_, ?_⟩, fun fuel fuel' e e' he he' => ?_⟩
  · rintro ⟨fuel, e, he⟩
    obtain ⟨fuel', e', hexecute, -⟩ := exists_execute_of_eval hp hq hm hforth he
    exact ⟨fuel', e', congrArg Execution.ending hexecute⟩
  · rintro ⟨fuel, e, he⟩
    obtain ⟨fuel', e', hexecute, -⟩ := exists_execute_of_eval (E := fun _ _ => True) hq hp hm
      (fun r' hr' => by
        obtain ⟨r, hr, hstore⟩ := hback r' hr'
        exact ⟨r, hr, hstore, trivial⟩) he
    exact ⟨fuel', e', congrArg Execution.ending hexecute⟩
  · obtain ⟨fuel'', e'', hexecute, hrelated⟩ := exists_execute_of_eval hp hq hm hforth he
    have hsame := Machine.execute_eq_of_ending he' (congrArg Execution.ending hexecute)
    rw [hsame, hexecute, Option.some.injEq] at he'
    rw [hsame, hexecute]
    exact ⟨rfl, rfl, he' ▸ hrelated⟩

/-- **Programs with equivalent nested programs end in the same place**, and in ways that only depend on
the labels of the offsets where they may get stuck. -/
theorem endBy_of_equivalent (hp : p.Prepared block.code) (hq : q.Prepared block'.code)
    (hm : 0 < m.length) {f f' : Nat → Nat} {P : Store m.length → Prop}
    (h : Block.Equivalent debug f f' P block 0 block' 0) (hstart : P (Store.start hm input))
    (hending : ∀ r r' : Block.Outcome m.length, r.label f = r'.label f' →
      E (r.ending block.code) (r'.ending block'.code)) :
    EndBy E p q debug m input := by
  refine endBy_of_eval hp hq hm (fun r hr => ?_) fun r' hr' => ?_
  · obtain ⟨r', hr', hsame⟩ := h.forth _ hstart r hr
    exact ⟨r', hr', Block.Outcome.store_eq_of_label hsame, hending r r' hsame⟩
  · obtain ⟨r, hr, hsame⟩ := h.back _ hstart r' hr'
    exact ⟨r, hr, Block.Outcome.store_eq_of_label hsame⟩

end

end TapeMachine
