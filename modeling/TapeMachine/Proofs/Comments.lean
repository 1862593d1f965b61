import TapeMachine.Proofs.Equivalence

/-!
# Comments

A byte is idle when running it does nothing. Deleting the idle bytes of a source moves every offset
and with it every jump, but not what the source does.

The two programs are compared by their nested programs, with one label for all offsets: `dropIdle`
deletes the idle bytes of a block, what is left is equivalent to the block
(`Block.Equivalent.dropIdle`), and each machine does what its block says.
-/

namespace TapeMachine

/-! ## Idle bytes -/

/-- Whether running a byte does nothing: it is no instruction, or one for a dump that is not asked
for. -/
def isIdle (debug : Bool) (b : UInt8) : Bool :=
  match Instruction.ofByte b with
  | .inert => true
  | .diagnostic => !debug
  | _ => false

/-- The source without its idle bytes. -/
def dropIdle (debug : Bool) (source : List UInt8) : List UInt8 :=
  source.filter fun b => !isIdle debug b

theorem dropIdle_cons_of_idle {debug : Bool} {b : UInt8} (h : isIdle debug b = true)
    (source : List UInt8) : dropIdle debug (b :: source) = dropIdle debug source :=
  List.filter_cons_of_neg (by simp [h])

theorem dropIdle_cons_of_not_idle {debug : Bool} {b : UInt8} (h : isIdle debug b = false)
    (source : List UInt8) : dropIdle debug (b :: source) = b :: dropIdle debug source :=
  List.filter_cons_of_pos (by simp [h])

@[simp] theorem isIdle_openBracket (debug : Bool) : isIdle debug openBracket = false := rfl

@[simp] theorem isIdle_closeBracket (debug : Bool) : isIdle debug closeBracket = false := rfl

/-- No bracket is idle. -/
theorem bracketStep_of_isIdle {debug : Bool} {b : UInt8} (h : isIdle debug b = true) :
    bracketStep b = none := by
  rcases bracket_cases b with rfl | rfl | plain
  · simp at h
  · simp at h
  · exact plain

/-- An idle byte leaves the store as it is. -/
theorem Store.act_of_isIdle {n : Nat} {debug : Bool} {b : UInt8} (h : isIdle debug b = true)
    (σ : Store n) : σ.act debug b = some σ := by
  unfold isIdle at h
  split at h
  · next hb => exact Store.act_inert hb debug σ
  · next hb =>
    obtain rfl : b = 0x23 := Instruction.eq_of_symbol_ofByte (c := '#') (by rw [hb]; rfl)
    cases debug with
    | false => rfl
    | true => exact absurd h Bool.false_ne_true
  · exact absurd h Bool.false_ne_true

/-! ## Lone brackets -/

namespace Brackets

theorem SameLabels.length_loneCloses {f f' : Nat → Nat} {s s' : Brackets}
    (h : SameLabels f f' s s') : s.loneCloses.length = s'.loneCloses.length := by
  simpa using congrArg List.length h.loneCloses_eq

theorem SameLabels.length_opens {f f' : Nat → Nat} {s s' : Brackets}
    (h : SameLabels f f' s s') : s.opens.length = s'.opens.length := by
  simpa using congrArg List.length h.opens_eq

/-- Idle bytes do not change how many brackets are lone, and how many are open. -/
theorem SameLabels.scan_dropIdle (debug : Bool) (source : List UInt8) :
    ∀ {s s' : Brackets} (i i' : Nat), SameLabels (fun _ => 0) (fun _ => 0) s s' →
      SameLabels (fun _ => 0) (fun _ => 0) (s.scan i (source.map .ofByte))
        (s'.scan i' ((dropIdle debug source).map .ofByte)) := by
  induction source with
  | nil => intro s s' i i' h; exact h
  | cons b source ih =>
    intro s s' i i' h
    rw [List.map_cons, Brackets.scan]
    cases hb : isIdle debug b with
    | true =>
      rw [dropIdle_cons_of_idle hb, push_plain (bracketStep_of_isIdle hb)]
      exact ih _ _ h
    | false =>
      rw [dropIdle_cons_of_not_idle hb, List.map_cons, Brackets.scan]
      exact ih _ _ (h.push rfl _)

end Brackets

namespace Program

/-- The messages only say which brackets are lone, and those of the closing ones come first. -/
theorem messages_diagnostics (lines : Array Nat) (s : Brackets) :
    (diagnostics lines s).map (·.message)
      = List.replicate s.loneCloses.length "Unbalanced ']'"
        ++ List.replicate s.opens.length "Unbalanced '['" := by
  have hmessages : ∀ (offsets : List Nat) (bracket : Char),
      (offsets.reverse.map (·, bracket)).map
          (fun x => (Diagnostic.unbalanced (lines[x.1]?.getD 0) x.2).message)
        = List.replicate offsets.length ("Unbalanced '" ++ bracket.toString ++ "'") := by
    intro offsets bracket
    rw [List.map_map, List.map_reverse]
    show (offsets.map fun _ => "Unbalanced '" ++ bracket.toString ++ "'").reverse = _
    rw [List.map_const', List.reverse_replicate]
  rw [diagnostics, List.map_map, Brackets.lone, List.map_append]
  exact congrArg₂ _ (hmessages _ ']') (hmessages _ '[')

end Program

/-! ## Blocks without idle bytes -/

namespace Block

/-- The block without its idle bytes. -/
def dropIdle (debug : Bool) : Block → Block
  | nil => nil
  | byte b plain rest =>
    if isIdle debug b then rest.dropIdle debug else byte b plain (rest.dropIdle debug)
  | loop body rest => loop (body.dropIdle debug) (rest.dropIdle debug)

theorem dropIdle_byte_of_idle {debug : Bool} {b : UInt8} (h : isIdle debug b = true)
    (plain : bracketStep b = none) (rest : Block) :
    (byte b plain rest).dropIdle debug = rest.dropIdle debug := if_pos h

theorem dropIdle_byte_of_not_idle {debug : Bool} {b : UInt8} (h : isIdle debug b = false)
    (plain : bracketStep b = none) (rest : Block) :
    (byte b plain rest).dropIdle debug = byte b plain (rest.dropIdle debug) :=
  if_neg (by rw [h]; exact Bool.false_ne_true)

theorem code_dropIdle (debug : Bool) (block : Block) :
    (block.dropIdle debug).code = TapeMachine.dropIdle debug block.code := by
  induction block with
  | nil => rfl
  | byte b plain rest ih =>
    rw [code]
    cases hb : isIdle debug b with
    | true => rw [dropIdle_byte_of_idle hb, dropIdle_cons_of_idle hb, ih]
    | false => rw [dropIdle_byte_of_not_idle hb, dropIdle_cons_of_not_idle hb, code, ih]
  | loop body rest ihBody ihRest =>
    rw [dropIdle, code, code, dropIdle_cons_of_not_idle (isIdle_openBracket debug), ihBody, ihRest,
      TapeMachine.dropIdle, TapeMachine.dropIdle, TapeMachine.dropIdle, List.filter_append,
      List.filter_cons_of_pos (by simp)]

/-- **A block is equivalent to what is left of it without its idle bytes**, but for the offsets. -/
theorem Equivalent.dropIdle {debug : Bool} {n : Nat} (block : Block) :
    ∀ {P : Store n → Prop} {k k' : Nat},
      Equivalent debug (fun _ => 0) (fun _ => 0) P block k (block.dropIdle debug) k' := by
  induction block with
  | nil => intro P k k'; exact .nil k k'
  | byte b plain rest ih =>
    intro P k k'
    cases hb : isIdle debug b with
    | true =>
      rw [dropIdle_byte_of_idle hb]
      exact .leaveOut (Store.act_of_isIdle hb) ih
    | false =>
      rw [dropIdle_byte_of_not_idle hb]
      exact .byte rfl ih
  | loop body rest ihBody ihRest =>
    intro P k k'
    exact .loop ihBody ihRest

end Block

/-! ## Runs -/

/-- Endings that differ in the line of a fault at most. -/
inductive Ending.Alike : Ending → Ending → Prop where
  | same (e : Ending) : Alike e e
  | outOfBounds (line line' : Nat) (symbol : Char) :
      Alike (.failed (.outOfBounds line symbol)) (.failed (.outOfBounds line' symbol))

/-- Outcomes that are the same but for their offsets are endings that are alike. -/
theorem Block.Outcome.alike_of_label {n : Nat} {r r' : Outcome n} (source source' : List UInt8)
    (h : r.label (fun _ => 0) = r'.label fun _ => 0) :
    (r.ending source).Alike (r'.ending source') := by
  cases r with
  | done σ =>
    rw [eq_done_of_label h]
    exact .same _
  | stuck offset b σ =>
    obtain ⟨offset', rfl, -⟩ := eq_stuck_of_label h
    exact .outOfBounds _ _ _

/-- The runs of two programs end alike, in the same place of the tape and with the same output. -/
def EndAlike (p q : Program) (debug : Bool) (m : Machine) (input : List UInt8) : Prop :=
  EndBy Ending.Alike p q debug m input

section Programs

variable {p q : Program} {debug : Bool}

theorem endAlike_dropIdle {source : List UInt8} (hp : Program.prepare source = .ok p)
    (hq : Program.prepare (dropIdle debug source) = .ok q) (m : Machine) (hm : 0 < m.length)
    (input : List UInt8) : EndAlike p q debug m input := by
  have hp := Program.prepared_of_prepare hp
  have hq := Program.prepared_of_prepare hq
  obtain ⟨block, rfl⟩ := Block.balanced_iff_exists_code.mp hp.balanced
  rw [← Block.code_dropIdle] at hq
  exact endBy_of_equivalent hp hq hm (.dropIdle block) (P := Block.Anywhere _) trivial fun _ _ =>
    Block.Outcome.alike_of_label _ _

/-- **Comments do not matter.** A source and what is left of it without its idle bytes are both
accepted, or both refused with the same messages; and they run alike on every tape with cells. -/
theorem comments_do_not_matter (debug : Bool) (source : List UInt8) :
    ((∃ p, Program.prepare source = .ok p) ↔
      ∃ q, Program.prepare (dropIdle debug source) = .ok q) ∧
    (∀ ds ds', Program.prepare source = .error ds →
      Program.prepare (dropIdle debug source) = .error ds' →
      ds.map (·.message) = ds'.map (·.message)) ∧
    ∀ p q, Program.prepare source = .ok p → Program.prepare (dropIdle debug source) = .ok q →
      ∀ (m : Machine) (input : List UInt8), 0 < m.length → EndAlike p q debug m input := by
  have hempty : Brackets.SameLabels (fun _ => 0) (fun _ => 0) .empty .empty := ⟨rfl, rfl⟩
  have hcount := Brackets.SameLabels.scan_dropIdle debug source 0 0 hempty
  refine ⟨?_, fun ds ds' hds hds' => ?_, fun p q hp hq m input hm =>
    endAlike_dropIdle hp hq m hm input⟩
  · have hlone : ∀ s : List UInt8, (∃ p, Program.prepare s = .ok p) ↔
        (Brackets.ofInstructions (s.map .ofByte)).lone = [] := by
      intro s
      simp only [Program.prepare_eq_ok_iff, exists_and_left, exists_eq, and_true]
    rw [hlone, hlone, Brackets.lone_eq_nil_iff, Brackets.lone_eq_nil_iff,
      ← List.length_eq_zero_iff, ← List.length_eq_zero_iff, Brackets.ofInstructions,
      Brackets.ofInstructions, hcount.length_loneCloses, hcount.length_opens, List.length_eq_zero_iff,
      List.length_eq_zero_iff]
  · obtain ⟨-, rfl⟩ := Program.prepare_eq_error_iff.mp hds
    obtain ⟨-, rfl⟩ := Program.prepare_eq_error_iff.mp hds'
    rw [Program.messages_diagnostics, Program.messages_diagnostics, Brackets.ofInstructions,
      Brackets.ofInstructions, hcount.length_loneCloses, hcount.length_opens]

/-- The lines `+a`, `[-]` and `#<` fail in line 3 without dumps, and what is left of them fails
in line 1. -/
theorem comments_change_failing_line :
    ∃ p q, Program.prepare [0x2B, 0x61, 0x0A, 0x5B, 0x2D, 0x5D, 0x0A, 0x23, 0x3C] = .ok p ∧
      dropIdle false [0x2B, 0x61, 0x0A, 0x5B, 0x2D, 0x5D, 0x0A, 0x23, 0x3C]
        = [0x2B, 0x5B, 0x2D, 0x5D, 0x3C] ∧
      Program.prepare [0x2B, 0x5B, 0x2D, 0x5D, 0x3C] = .ok q ∧
      0 < (Machine.blank 1).length ∧ EndAlike p q false (.blank 1) [] ∧
      ((Machine.blank 1).execute ⟨p, false, none⟩ [] 12).ending
        = some (.failed (.outOfBounds 3 '<')) ∧
      ((Machine.blank 1).execute ⟨q, false, none⟩ [] 12).ending
        = some (.failed (.outOfBounds 1 '<')) := by
  refine ⟨_, _, rfl, rfl, rfl, by decide, ?_, by decide, by decide⟩
  exact (comments_do_not_matter false
    [0x2B, 0x61, 0x0A, 0x5B, 0x2D, 0x5D, 0x0A, 0x23, 0x3C]).2.2 _ _ rfl rfl (.blank 1) []
    (by decide)

end Programs

end TapeMachine
