import TapeMachine.Proofs.Prepare
import TapeMachine.Proofs.Run
import TapeMachine.Proofs.Structured

/-!
# The flat machine implements structured loops

The flat machine has a place in the source and jumps from bracket to bracket. Where a block stands
in the source, it does what the structured semantics says of the block, and goes on behind it.

* `endsAfter_of_acts`: a source without brackets, with the number of its instructions
* `endsAfter_of_eval`: forwards, by induction on the derivation
* `exists_eval_of_endsAfter`: a run that ends has a derivation, by induction on its length

The last needs the one before it: the run through the body of a loop has a derivation, so it comes to the
end of the body, and what is left of the run is shorter.
-/

namespace TapeMachine

/-! ## Where a block stands -/

/-- The code of the block begins at offset `k` of the source. -/
def Block.StandsAt (block : Block) (source : List UInt8) (k : Nat) : Prop :=
  ∃ before after, source = before ++ (block.code ++ after) ∧ before.length = k

namespace Block.StandsAt

variable {source : List UInt8} {k : Nat}

theorem byte {b : UInt8} {plain : bracketStep b = none} {rest : Block}
    (h : (Block.byte b plain rest).StandsAt source k) :
    source[k]? = some b ∧ rest.StandsAt source (k + 1) := by
  obtain ⟨before, after, rfl, rfl⟩ := h
  refine ⟨?_, before ++ [b], after, by simp [code], by simp⟩
  rw [code, List.getElem?_append_right (Nat.le_refl _), Nat.sub_self]
  rfl

theorem matched {body rest : Block} (h : (Block.loop body rest).StandsAt source k) :
    Matched source k (k + 1 + body.size) := by
  obtain ⟨before, after, rfl, rfl⟩ := h
  exact ⟨before, body.code, rest.code ++ after, by simp [code], rfl, by rw [length_code],
    balanced_code body⟩

theorem body {body rest : Block} (h : (Block.loop body rest).StandsAt source k) :
    body.StandsAt source (k + 1) := by
  obtain ⟨before, after, rfl, rfl⟩ := h
  exact ⟨before ++ [openBracket], closeBracket :: (rest.code ++ after), by simp [code], by simp⟩

theorem rest {body rest : Block} (h : (Block.loop body rest).StandsAt source k) :
    rest.StandsAt source (k + 1 + body.size + 1) := by
  obtain ⟨before, after, rfl, rfl⟩ := h
  refine ⟨before ++ openBracket :: (body.code ++ [closeBracket]), after, by simp [code], ?_⟩
  simp
  omega

end Block.StandsAt

theorem Block.standsAt_zero (block : Block) : block.StandsAt block.code 0 :=
  ⟨[], [], by simp, rfl⟩

/-! ## Bytes as instructions -/

theorem eq_of_char_eq {b : UInt8} {c : Char} (h : Char.ofNat b.toNat = c) :
    b = UInt8.ofNat c.toNat := by
  have hlt : b.toNat < 256 := b.toNat_lt
  have hchar : (Char.ofNat b.toNat).toNat = b.toNat := by
    rw [Char.ofNat, dif_pos (Or.inl (by omega))]
    rfl
  rw [← h, hchar, UInt8.ofNat_toNat]

/-- An inert byte does nothing. -/
theorem Store.act_inert {n : Nat} {b : UInt8} (h : Instruction.ofByte b = .inert) (debug : Bool)
    (σ : Store n) : σ.act debug b = some σ := by
  unfold Store.act
  split
  case h_8 => rfl
  all_goals
    next hc =>
      rw [eq_of_char_eq hc] at h
      exact absurd h (by decide)

/-! ## The machine at a store -/

namespace Store

variable {n : Nat}

/-- The machine with this store, at `pc` after `steps` instructions. -/
def config (σ : Store n) (pc steps : Nat) : Config :=
  ⟨pc, steps, σ.tape.toArray, σ.pointer.val, σ.input, σ.output⟩

theorem tape_getElem? (σ : Store n) : σ.tape.toArray[σ.pointer.val]? = some σ.cell := by
  rw [Array.getElem?_eq_getElem (by simp)]
  rfl

theorem config_start (hn : 0 < n) (input : List UInt8) :
    (start hn input).config 0 0 = Config.start n input := by
  simp [config, start, Config.start]

end Store

/-! ## One instruction -/

namespace Store

variable {n : Nat}

theorem update_config (σ : Store n) (f : UInt8 → UInt8) (pc steps : Nat) :
    (σ.config pc steps).update f
      = .advanced ((σ.write (f σ.cell)).config (pc + 1) (steps + 1)) := by
  have h : σ.pointer.val < σ.tape.toArray.size := by simp
  rw [config, Config.update, dif_pos h]
  rfl

end Store

section Instructions

variable {source : List UInt8} {p : Program} {n pc : Nat} (debug : Bool) (σ : Store n) (steps : Nat)

theorem attempt_eq_perform (hp : Program.Prepared source p) (hpc : pc < source.length) :
    (σ.config pc steps).attempt ⟨p, debug, none⟩
      = (σ.config pc steps).perform ⟨p, debug, none⟩ := by
  unfold Config.attempt
  rw [if_neg (by rw [hp.length_eq]; exact Nat.not_le.mpr hpc)]
  rfl

/-- A byte that is no bracket acts on the store. A move off the tape stops the run. -/
theorem attempt_plain (hp : Program.Prepared source p) {b : UInt8} (hb : source[pc]? = some b)
    (plain : bracketStep b = none) :
    (σ.config pc steps).attempt ⟨p, debug, none⟩
      = match σ.act debug b with
        | some τ => .advanced (τ.config (pc + 1) (steps + 1))
        | none => .stuck (.outOfBounds (lineAt source pc) (Char.ofNat b.toNat))
            (σ.config pc steps) := by
  have hpc : pc < source.length := (List.getElem?_eq_some_iff.mp hb).1
  have hpointer : σ.pointer.val < n := σ.pointer.isLt
  have hsize : σ.tape.toArray.size = n := Vector.size_toArray σ.tape
  have hline : (p.line? pc).getD 0 = lineAt source pc := by rw [hp.line?_eq pc hpc]; rfl
  have hfetch : p.fetch (σ.config pc steps).pc = .ofByte b := hp.fetch_eq pc b hb
  rw [attempt_eq_perform debug σ steps hp hpc]
  unfold Config.perform
  simp only [hfetch]
  -- an instruction has one byte, so in each case both sides are about a known byte
  cases hi : Instruction.ofByte b with
  | increment =>
    obtain rfl : b = 0x2B := Instruction.eq_of_symbol_ofByte (c := '+') (by rw [hi]; rfl)
    exact σ.update_config (· + 1) pc steps
  | decrement =>
    obtain rfl : b = 0x2D := Instruction.eq_of_symbol_ofByte (c := '-') (by rw [hi]; rfl)
    exact σ.update_config (· - 1) pc steps
  | moveRight =>
    obtain rfl : b = 0x3E := Instruction.eq_of_symbol_ofByte (c := '>') (by rw [hi]; rfl)
    rw [show σ.act debug 0x3E = if h : σ.pointer.val + 1 < n then
      some { σ with pointer := ⟨σ.pointer.val + 1, h⟩ } else none from rfl]
    by_cases h : σ.pointer.val + 1 < n
    · rw [dif_pos h]
      exact if_neg (by simp only [Store.config]; omega)
    · rw [dif_neg h, ← hline]
      exact if_pos (by simp only [Store.config]; omega)
  | moveLeft =>
    obtain rfl : b = 0x3C := Instruction.eq_of_symbol_ofByte (c := '<') (by rw [hi]; rfl)
    rw [show σ.act debug 0x3C = if σ.pointer.val = 0 then none else
      some { σ with pointer := ⟨σ.pointer.val - 1, by omega⟩ } from rfl]
    by_cases h : σ.pointer.val = 0
    · rw [if_pos h, ← hline]
      exact if_pos h
    · rw [if_neg h]
      exact if_neg h
  | loopOpen => exact absurd hi (Instruction.ofByte_ne_loopOpen plain)
  | loopClose => exact absurd hi (Instruction.ofByte_ne_loopClose plain)
  | output =>
    obtain rfl : b = 0x2E := Instruction.eq_of_symbol_ofByte (c := '.') (by rw [hi]; rfl)
    simp only [show (σ.config pc steps).tape[(σ.config pc steps).pointer]? = some σ.cell from
      σ.tape_getElem?]
    rfl
  | input =>
    obtain rfl : b = 0x2C := Instruction.eq_of_symbol_ofByte (c := ',') (by rw [hi]; rfl)
    obtain ⟨tape, pointer, input, output⟩ := σ
    cases input with
    | nil => rfl
    | cons value rest =>
      have hset : tape.toArray.setIfInBounds pointer.val value
          = (tape.set pointer.val value).toArray := dif_pos (by simp)
      refine (if_pos (by simp)).trans ?_
      simp only [Store.config, hset]
      rfl
  | diagnostic =>
    obtain rfl : b = 0x23 := Instruction.eq_of_symbol_ofByte (c := '#') (by rw [hi]; rfl)
    cases debug <;> rfl
  | inert =>
    rw [Store.act_inert hi debug σ]
    rfl

theorem attempt_open (hp : Program.Prepared source p) {j : Nat} (hm : Matched source pc j) :
    (σ.config pc steps).attempt ⟨p, debug, none⟩
      = .advanced (σ.config (if σ.cell = 0 then j + 1 else pc + 1) (steps + 1)) := by
  have hpc : pc < source.length := (List.getElem?_eq_some_iff.mp hm.getElem?_open).1
  have hfetch : p.fetch (σ.config pc steps).pc = .loopOpen :=
    hp.fetch_eq pc openBracket hm.getElem?_open
  have hpartner : p.partner (σ.config pc steps).pc = j := hp.partner_eq (Or.inl hm)
  rw [attempt_eq_perform debug σ steps hp hpc]
  unfold Config.perform
  simp only [hfetch, hpartner, show (σ.config pc steps).tape[(σ.config pc steps).pointer]?
    = some σ.cell from σ.tape_getElem?]
  rfl

theorem attempt_close (hp : Program.Prepared source p) {i : Nat} (hm : Matched source i pc) :
    (σ.config pc steps).attempt ⟨p, debug, none⟩ = .advanced (σ.config i (steps + 1)) := by
  have hfetch : p.fetch (σ.config pc steps).pc = .loopClose :=
    hp.fetch_eq pc closeBracket hm.getElem?_close
  have hpartner : p.partner (σ.config pc steps).pc = i := hp.partner_eq (Or.inr hm)
  rw [attempt_eq_perform debug σ steps hp hm.lt_length]
  unfold Config.perform
  simp only [hfetch, hpartner]
  rfl

theorem attempt_end (hp : Program.Prepared source p) (hpc : source.length ≤ pc) :
    (σ.config pc steps).attempt ⟨p, debug, none⟩ = .ended (σ.config pc steps) := by
  unfold Config.attempt
  exact if_pos (by rw [hp.length_eq]; exact hpc)

end Instructions

/-! ## Bytes that are no brackets -/

section Plain

variable {source : List UInt8} {p : Program} {debug : Bool} {n : Nat}

/-- Bytes that are no brackets act on the store one after the other. -/
theorem after_of_acts (hp : Program.Prepared source p) (bytes behind : List UInt8) :
    ∀ (before : List UInt8) {σ τ : Store n} (steps : Nat), source = before ++ (bytes ++ behind) →
      (∀ b ∈ bytes, bracketStep b = none) → bytes.foldlM (fun σ b => σ.act debug b) σ = some τ →
      Config.after ⟨p, debug, none⟩ bytes.length (σ.config before.length steps)
        = some (τ.config (before.length + bytes.length) (steps + bytes.length)) := by
  induction bytes with
  | nil =>
    intro before σ τ steps _ _ h
    obtain rfl : σ = τ := Option.some.inj h
    rfl
  | cons b bytes ih =>
    intro before σ τ steps hsource plain h
    rw [List.foldlM_cons] at h
    obtain ⟨σ', hact, hrest⟩ := Option.bind_eq_some_iff.mp h
    have hb : source[before.length]? = some b := by simp [hsource]
    have hattempt := attempt_plain debug σ steps hp hb (plain b List.mem_cons_self)
    rw [hact] at hattempt
    have hnext := ih (before ++ [b]) (steps + 1) (by simp [hsource])
      (fun c hc => plain c (List.mem_cons_of_mem b hc)) hrest
    rw [List.length_append, List.length_singleton] at hnext
    rw [List.length_cons, Config.after_succ_of_advanced hattempt, hnext,
      Nat.add_right_comm before.length, Nat.add_right_comm steps]
    rfl

/-- **A program without loops** that does not move off the tape finishes after as many instructions as
it has bytes. -/
theorem endsAfter_of_acts (hp : Program.Prepared source p)
    (plain : ∀ b ∈ source, bracketStep b = none) {σ τ : Store n}
    (h : source.foldlM (fun σ b => σ.act debug b) σ = some τ) :
    Config.EndsAfter ⟨p, debug, none⟩ (σ.config 0 0) source.length
      (τ.config source.length source.length) .finished := by
  have hafter := after_of_acts hp source [] [] 0 (by simp) plain h
  rw [List.length_nil, Nat.zero_add] at hafter
  refine ⟨hafter, ?_⟩
  rw [Config.ending?, attempt_end debug τ _ hp (Nat.le_refl _)]

end Plain

/-! ## Derivations are runs -/

section Simulation

open Config

variable {source : List UInt8} {p : Program} {debug : Bool} {n : Nat}

/-- What the machine has come to with the outcome of a block that ends before offset `stop`. -/
def Block.Outcome.Reached (source : List UInt8) (p : Program) (debug : Bool) (stop : Nat)
    (c : Config) : Outcome n → Prop
  | .done σ => ∃ m steps, after ⟨p, debug, none⟩ m c = some (σ.config stop steps)
  | .stuck offset b σ => source[offset]? = some b ∧ bracketStep b = none ∧ σ.act debug b = none ∧
      ∃ m steps, after ⟨p, debug, none⟩ m c = some (σ.config offset steps)

theorem Block.Outcome.Reached.of_after {stop m : Nat} {c c' : Config} {r : Outcome n}
    (hc : after ⟨p, debug, none⟩ m c = some c')
    (h : r.Reached source p debug stop c') : r.Reached source p debug stop c := by
  cases r with
  | done σ =>
    obtain ⟨k, steps, h⟩ := h
    exact ⟨m + k, steps, by rw [after_add_of_eq_some hc, h]⟩
  | stuck offset b σ =>
    obtain ⟨hb, plain, hact, k, steps, h⟩ := h
    exact ⟨hb, plain, hact, m + k, steps, by rw [after_add_of_eq_some hc, h]⟩

theorem Block.Outcome.Reached.of_advanced {stop : Nat} {c c' : Config} {r : Outcome n}
    (hc : c.attempt ⟨p, debug, none⟩ = .advanced c')
    (h : r.Reached source p debug stop c') : r.Reached source p debug stop c :=
  .of_after (after_succ_of_advanced hc 0) h

/-- **The machine does what the structured semantics says of a block.** -/
theorem reached_of_eval (hp : Program.Prepared source p) {block : Block} {k : Nat} {σ : Store n}
    {r : Block.Outcome n} (h : Eval debug block k σ r) :
    block.StandsAt source k → ∀ steps, r.Reached source p debug (k + block.size)
      (σ.config k steps) := by
  induction h with
  | nil => intro _ steps; exact ⟨0, steps, rfl⟩
  | @byte b plain rest k σ τ r hact hrest ih =>
    intro hstands steps
    obtain ⟨hb, hstandsRest⟩ := hstands.byte
    have hattempt := attempt_plain debug σ steps hp hb plain
    rw [hact] at hattempt
    refine Block.Outcome.Reached.of_advanced hattempt ?_
    rw [Block.size, show k + (rest.size + 1) = k + 1 + rest.size by omega]
    exact ih hstandsRest (steps + 1)
  | @stuck b plain rest k σ hact =>
    intro hstands steps
    exact ⟨hstands.byte.1, plain, hact, 0, steps, rfl⟩
  | @skip body rest k σ r hcell hrest ih =>
    intro hstands steps
    have hattempt := attempt_open debug σ steps hp hstands.matched
    rw [if_pos hcell] at hattempt
    refine Block.Outcome.Reached.of_advanced hattempt ?_
    rw [Block.size, show k + (body.size + rest.size + 2)
      = k + 1 + body.size + 1 + rest.size by omega]
    exact ih hstands.rest (steps + 1)
  | @again body rest k σ τ r hcell hbody hloop ihBody ihLoop =>
    intro hstands steps
    have hopen := attempt_open debug σ steps hp hstands.matched
    rw [if_neg hcell] at hopen
    obtain ⟨m, steps', hreach⟩ := ihBody hstands.body (steps + 1)
    have hclose := attempt_close debug τ steps' hp hstands.matched
    exact .of_advanced hopen (.of_after hreach (.of_advanced hclose (ihLoop hstands _)))
  | @inside body rest k σ τ offset b hcell hbody ih =>
    intro hstands steps
    have hopen := attempt_open debug σ steps hp hstands.matched
    rw [if_neg hcell] at hopen
    exact .of_advanced hopen (ih hstands.body (steps + 1))

/-! ## Runs that end are derivations -/

/-- **A run that ends has a derivation** for every block that it comes to the beginning of. -/
theorem exists_eval_of_endsAfter (hp : Program.Prepared source p) :
    ∀ (m : Nat) (block : Block) (k steps : Nat) (σ : Store n) (d : Config) (e : Ending),
      block.StandsAt source k → EndsAfter ⟨p, debug, none⟩ (σ.config k steps) m d e →
      ∃ r, Eval debug block k σ r := by
  intro m
  induction m using Nat.strongRecOn with
  | _ m ih =>
    intro block k steps σ d e hstands hends
    cases block with
    | nil => exact ⟨_, .nil⟩
    | byte b plain rest =>
      obtain ⟨hb, hstandsRest⟩ := hstands.byte
      cases hact : σ.act debug b with
      | none => exact ⟨_, .stuck hact⟩
      | some τ =>
        have hattempt := attempt_plain debug σ steps hp hb plain
        rw [hact] at hattempt
        obtain ⟨hle, hrest⟩ := hends.of_after (after_succ_of_advanced hattempt 0)
        obtain ⟨r, hr⟩ := ih (m - 1) (by omega) rest _ _ τ d e hstandsRest hrest
        exact ⟨r, .byte hact hr⟩
    | loop body rest =>
      have hopen := attempt_open debug σ steps hp hstands.matched
      obtain ⟨hle, hnext⟩ := hends.of_after (after_succ_of_advanced hopen 0)
      by_cases hcell : σ.cell = 0
      · rw [if_pos hcell] at hnext
        obtain ⟨r, hr⟩ := ih (m - 1) (by omega) rest _ _ σ d e hstands.rest hnext
        exact ⟨r, .skip hcell hr⟩
      · rw [if_neg hcell] at hnext
        obtain ⟨r, hr⟩ := ih (m - 1) (by omega) body _ _ σ d e hstands.body hnext
        cases r with
        | stuck offset b τ => exact ⟨_, .inside hcell hr⟩
        | done τ =>
          -- the run passes the end of the body, and the `]` there brings it back to the loop
          obtain ⟨j, steps', hreach⟩ := reached_of_eval hp hr hstands.body (steps + 1)
          have hclose := attempt_close debug τ steps' hp hstands.matched
          obtain ⟨-, hback⟩ := hnext.of_after hreach
          obtain ⟨-, hagain⟩ := hback.of_after (after_succ_of_advanced hclose 0)
          obtain ⟨r', hr'⟩ := ih _ (by omega) (.loop body rest) _ _ τ d e hstands hagain
          exact ⟨r', .again hcell hr hr'⟩

/-! ## Whole programs -/

/-- The store of an outcome. -/
def Block.Outcome.store : Outcome n → Store n
  | .done σ => σ
  | .stuck _ _ σ => σ

/-- How a run ends with an outcome. -/
def Block.Outcome.ending (source : List UInt8) : Outcome n → Ending
  | .done _ => .finished
  | .stuck offset b _ => .failed (.outOfBounds (lineAt source offset) (Char.ofNat b.toNat))

/-- A derivation for the whole program says where and how its run ends. -/
theorem endsAfter_of_eval {block : Block} (hp : Program.Prepared block.code p) {σ : Store n}
    {r : Block.Outcome n} (h : Eval debug block 0 σ r) (steps : Nat) :
    ∃ m pc steps', EndsAfter ⟨p, debug, none⟩ (σ.config 0 steps) m (r.store.config pc steps')
      (r.ending block.code) := by
  have hreached := reached_of_eval hp h block.standsAt_zero steps
  cases r with
  | done τ =>
    obtain ⟨m, steps', hafter⟩ := hreached
    refine ⟨m, _, steps', hafter, ?_⟩
    have hend : block.code.length ≤ 0 + block.size := by rw [Block.length_code, Nat.zero_add]
    rw [Block.Outcome.store, ending?, attempt_end debug τ steps' hp hend]
    rfl
  | stuck offset b τ =>
    obtain ⟨hb, plain, hact, m, steps', hafter⟩ := hreached
    refine ⟨m, _, steps', hafter, ?_⟩
    have hattempt := attempt_plain debug τ steps' hp hb plain
    rw [hact] at hattempt
    rw [Block.Outcome.store, ending?, hattempt]
    rfl

/-- What `execute` gives when it comes to an end is an outcome of the structured semantics. -/
theorem execute_iff_eval {block : Block} (hp : Program.Prepared block.code p) (m : Machine)
    (hm : 0 < m.length) (input : List UInt8) (e : Ending) (tape : Array UInt8) (pointer : Nat)
    (output : Output) :
    (∃ fuel, m.execute ⟨p, debug, none⟩ input fuel = ⟨some e, output, ⟨tape, pointer, .empty⟩⟩) ↔
      ∃ r, Eval debug block 0 (Store.start hm input) r ∧ r.ending block.code = e ∧
        r.store.tape.toArray = tape ∧ r.store.pointer.val = pointer ∧ r.store.output = output := by
  have hstart := Store.config_start hm input
  constructor
  · rintro ⟨fuel, h⟩
    obtain ⟨k, hends⟩ := exists_endsAfter_of_execute
      (s := ⟨p, debug, none⟩) (c := .start m.length input) (e := e) (congrArg Execution.ending h)
    rw [← hstart] at hends
    obtain ⟨r, hr⟩ := exists_eval_of_endsAfter hp k block 0 0 _ _ e block.standsAt_zero hends
    obtain ⟨k', pc, steps, hends'⟩ := endsAfter_of_eval hp hr 0
    obtain ⟨-, hconfig, he⟩ := hends.unique hends'
    rw [hstart] at hconfig
    exact ⟨r, hr, he.symm,
      (congrArg Config.tape hconfig).symm.trans (congrArg (fun x => x.machine.tape) h),
      (congrArg Config.pointer hconfig).symm.trans (congrArg (fun x => x.machine.pointer) h),
      (congrArg Config.output hconfig).symm.trans (congrArg Execution.output h)⟩
  · rintro ⟨r, hr, rfl, rfl, rfl, rfl⟩
    obtain ⟨k, pc, steps, hends⟩ := endsAfter_of_eval hp hr 0
    rw [hstart] at hends
    refine ⟨k + 1, ?_⟩
    have hexecute := execute_eq_some_iff.mpr ⟨k, Nat.lt_succ_self k, hends⟩
    rw [Machine.execute, hexecute]
    rfl

/-- **The flat machine implements structured loops.** A balanced source is prepared, and it is the
code of one nested program. On every machine that has cells the run of the source ends with a tape,
a pointer and an output if and only if the nested program evaluates to them; it fails at a line with
a symbol if and only if the evaluation gets stuck at such a byte of that line; and it runs for ever
if and only if the evaluation has no outcome. -/
theorem flat_machine_implements_loops (source : List UInt8) (h : Balanced source) :
    ∃ (p : Program) (block : Block), Program.prepare source = .ok p ∧ block.code = source ∧
      (∀ other : Block, other.code = source → other = block) ∧
      ∀ (debug : Bool) (input : List UInt8) (m : Machine) (hm : 0 < m.length),
        (∀ tape pointer output,
          (∃ fuel, m.execute ⟨p, debug, none⟩ input fuel
            = ⟨some .finished, output, ⟨tape, pointer, .empty⟩⟩) ↔
          ∃ σ, Eval debug block 0 (Store.start hm input) (.done σ) ∧
            σ.tape.toArray = tape ∧ σ.pointer.val = pointer ∧ σ.output = output) ∧
        (∀ line symbol tape pointer output,
          (∃ fuel, m.execute ⟨p, debug, none⟩ input fuel
            = ⟨some (.failed (.outOfBounds line symbol)), output, ⟨tape, pointer, .empty⟩⟩) ↔
          ∃ offset b σ, Eval debug block 0 (Store.start hm input) (.stuck offset b σ) ∧
            source[offset]? = some b ∧ line = lineAt source offset ∧
            symbol = Char.ofNat b.toNat ∧
            σ.tape.toArray = tape ∧ σ.pointer.val = pointer ∧ σ.output = output) ∧
        ((∀ fuel, (m.execute ⟨p, debug, none⟩ input fuel).ending = none) ↔
          ¬ ∃ r, Eval debug block 0 (Store.start hm input) r) := by
  obtain ⟨p, hprepare⟩ := Program.exists_prepare_of_balanced h
  obtain ⟨block, rfl⟩ := Block.balanced_iff_exists_code.mp h
  have hp := Program.prepared_of_prepare hprepare
  refine ⟨p, block, hprepare, rfl, fun other hother => Block.code_injective hother, ?_⟩
  intro debug input m hm
  refine ⟨fun tape pointer output => ?_, fun line symbol tape pointer output => ?_, ?_⟩
  · rw [execute_iff_eval hp m hm input]
    constructor
    · rintro ⟨r, hr, he, hstore⟩
      cases r with
      | done σ => exact ⟨σ, hr, hstore⟩
      | stuck offset b σ => cases he
    · rintro ⟨σ, hσ, hstore⟩
      exact ⟨.done σ, hσ, rfl, hstore⟩
  · rw [execute_iff_eval hp m hm input]
    constructor
    · rintro ⟨r, hr, he, hstore⟩
      cases r with
      | done σ => cases he
      | stuck offset b σ =>
        obtain ⟨hb, -⟩ := reached_of_eval hp hr block.standsAt_zero 0
        cases he
        exact ⟨offset, b, σ, hr, hb, rfl, rfl, hstore⟩
    · rintro ⟨offset, b, σ, hσ, -, rfl, rfl, hstore⟩
      exact ⟨.stuck offset b σ, hσ, rfl, hstore⟩
  · constructor
    · rintro hever ⟨r, hr⟩
      obtain ⟨fuel, hfuel⟩ := (execute_iff_eval hp m hm input _ _ _ _).mpr
        ⟨r, hr, rfl, rfl, rfl, rfl⟩
      have := hever fuel
      rw [hfuel] at this
      exact absurd this (Option.some_ne_none _)
    · intro hno fuel
      refine Option.eq_none_iff_forall_ne_some.mpr fun e he => hno ?_
      obtain ⟨r, hr, -⟩ := (execute_iff_eval hp m hm input e _ _ _).mp ⟨fuel, by rw [← he]; rfl⟩
      exact ⟨r, hr⟩

/-- In `+[>+<<]` the second `<` of the loop leaves the tape. -/
theorem flat_machine_stuck_in_loop :
    Balanced [0x2B, 0x5B, 0x3E, 0x2B, 0x3C, 0x3C, 0x5D] ∧
      ∃ p, Program.prepare [0x2B, 0x5B, 0x3E, 0x2B, 0x3C, 0x3C, 0x5D] = .ok p ∧
        ∃ fuel, (Machine.blank 2).execute ⟨p, false, none⟩ [] fuel
          = ⟨some (.failed (.outOfBounds 1 '<')), .empty, ⟨#[1, 1], 0, .empty⟩⟩ := by
  have h : Balanced [0x2B, 0x5B, 0x3E, 0x2B, 0x3C, 0x3C, 0x5D] :=
    Block.balanced_iff_exists_code.mpr
      ⟨.byte 0x2B rfl (.loop (.byte 0x3E rfl (.byte 0x2B rfl
        (.byte 0x3C rfl (.byte 0x3C rfl .nil)))) .nil), rfl⟩
  obtain ⟨p, block, hp, -, hunique, hrun⟩ := flat_machine_implements_loops _ h
  have hblock := hunique (.byte 0x2B rfl (.loop (.byte 0x3E rfl (.byte 0x2B rfl
    (.byte 0x3C rfl (.byte 0x3C rfl .nil)))) .nil)) rfl
  refine ⟨h, p, hp, ((hrun false [] (.blank 2) (by decide)).2.1 1 '<' #[1, 1] 0 .empty).mpr ?_⟩
  rw [← hblock]
  exact ⟨5, 0x3C, _, .byte rfl (.inside (by decide) (.byte rfl (.byte rfl (.byte rfl
    (.stuck rfl))))), rfl, rfl, rfl, rfl, rfl, rfl⟩

end Simulation

end TapeMachine
