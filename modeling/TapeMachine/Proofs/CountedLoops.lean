import TapeMachine.Proofs.Wrapping
import TapeMachine.Text.Utf8

/-!
# Loops that count down

A loop whose body takes one from the cell that it tests makes as many rounds as that cell holds
(`Block.eval_countdown`): it is enough to name the store that stands when the cell is `v`, for every
`v`. With that rule two programs are shown to do what they are for, on every input and every tape.

* `,[.[-],]` copies the input up to the first zero (`copy_program_copies`).
* `a` times `+`, `[>`, `b` times `+` and `[>+<-]<-]` leave `a * b` in the third cell
  (`product_program_multiplies`), whatever the factors.
-/

namespace TapeMachine

/-! ## Tapes with few cells in use -/

namespace Store

variable {n : Nat} {debug : Bool}

theorem act_right {σ : Store n} (h : σ.pointer.val + 1 < n) :
    σ.act debug 0x3E = some { σ with pointer := ⟨σ.pointer.val + 1, h⟩ } := dif_pos h

theorem act_left {σ : Store n} (h : σ.pointer.val ≠ 0) : σ.act debug 0x3C = some { σ with
    pointer := ⟨σ.pointer.val - 1, Nat.lt_of_le_of_lt (Nat.sub_le _ 1) σ.pointer.isLt⟩ } :=
  if_neg h

/-- The first cells of the tape hold `cells`, and the cells behind them are zero. -/
def holding (cells : List UInt8) (i : Fin n) (input : List UInt8) (output : Output) : Store n :=
  ⟨.ofFn fun j => cells.getD j.val 0, i, input, output⟩

section

variable {cells : List UInt8} {i : Fin n} {input : List UInt8} {output : Output}

theorem tape_holding_getElem? {j : Nat} (hj : j < n) :
    (holding cells i input output).tape.toArray[j]? = some (cells.getD j 0) := by
  simp [holding, hj]

theorem tape_holding_zeros (i : Fin n) (input : List UInt8) (output : Output) (count : Nat) :
    (holding (List.replicate count 0) i input output).tape = Vector.replicate n 0 := by
  ext j hj
  rw [Vector.getElem_replicate, holding, Vector.getElem_ofFn, List.getD_eq_getElem?_getD,
    List.getElem?_replicate]
  split
  · rfl
  · rfl

theorem start_eq_holding (hn : 0 < n) (input : List UInt8) (count : Nat) :
    start hn input = holding (List.replicate count 0) ⟨0, hn⟩ input .empty := by
  rw [start, ← tape_holding_zeros ⟨0, hn⟩ input .empty count]
  rfl

theorem cell_holding : (holding cells i input output).cell = cells.getD i.val 0 :=
  Vector.getElem_ofFn i.isLt

theorem write_holding (h : i.val < cells.length) (value : UInt8) :
    (holding cells i input output).write value
      = holding (cells.set i.val value) i input output := by
  simp only [holding, write, mk.injEq, and_true]
  ext j hj
  rw [Vector.getElem_set, Vector.getElem_ofFn, Vector.getElem_ofFn]
  by_cases hij : i.val = j
  · simp [← hij, h]
  · simp [hij]

theorem act_right_holding (h : i.val + 1 < n) :
    (holding cells i input output).act debug 0x3E
      = some (holding cells ⟨i.val + 1, h⟩ input output) := act_right h

theorem act_plus_holding (h : i.val < cells.length) :
    (holding cells i input output).act debug 0x2B
      = some (holding (cells.set i.val (cells.getD i.val 0 + 1)) i input output) := by
  rw [← write_holding h, ← cell_holding]
  rfl

theorem act_minus_holding (h : i.val < cells.length) :
    (holding cells i input output).act debug 0x2D
      = some (holding (cells.set i.val (cells.getD i.val 0 - 1)) i input output) := by
  rw [← write_holding h, ← cell_holding]
  rfl

theorem act_dot_holding : (holding cells i input output).act debug 0x2E
    = some (holding cells i input (output.push (cells.getD i.val 0))) := by
  rw [← cell_holding]
  rfl

theorem act_comma_holding (h : i.val < cells.length) (b : UInt8) :
    (holding cells i (b :: input) output).act debug 0x2C
      = some (holding (cells.set i.val b) i input output) := by
  rw [← write_holding h]
  rfl

end

end Store

/-! ## The rule -/

namespace Block

variable {n : Nat} {debug : Bool} {rest : Block} {k : Nat} {r : Outcome n}

/-- **A loop that counts down.** If a round takes the store for `v` to the store for `v - 1`, the
loop begun in any of these stores ends in the store for zero. -/
theorem eval_countdown {body : Block} {stores : UInt8 → Store n}
    (hcell : ∀ v, (stores v).cell = v)
    (hround : ∀ v, v ≠ 0 → Eval debug body (k + 1) (stores v) (.done (stores (v - 1))))
    (hrest : Eval debug rest (k + 1 + body.size + 1) (stores 0) r) (v : UInt8) :
    Eval debug (.loop body rest) k (stores v) r := by
  induction hcount : v.toNat generalizing v with
  | zero =>
    obtain rfl : v = 0 := UInt8.toNat_inj.mp hcount
    exact .skip (hcell 0) hrest
  | succ count ih =>
    have hv : v ≠ 0 := by
      rintro rfl
      exact absurd hcount (Nat.succ_ne_zero count).symm
    have hle : (1 : UInt8) ≤ v :=
      UInt8.le_iff_toNat_le.mpr (by rw [hcount]; exact Nat.succ_pos count)
    have hnext : (v - 1).toNat = count := by
      rw [UInt8.toNat_sub_of_le _ _ hle, hcount]
      rfl
    exact .again (by rwa [hcell]) (hround v hv) (ih (v - 1) hnext)

/-- The loop `[-]`. -/
def clear (rest : Block) : Block := .loop (.byte 0x2D rfl .nil) rest

theorem eval_clear {σ : Store n} (h : Eval debug rest (k + 3) (σ.write 0) r) :
    Eval debug (clear rest) k σ r := by
  have hround : ∀ v, v ≠ 0 → Eval debug (.byte 0x2D rfl .nil) (k + 1) (σ.write v)
      (.done (σ.write (v - 1))) := by
    intro v _
    have hact : (σ.write v).act debug 0x2D
        = some ((σ.write v).write ((σ.write v).cell - 1)) := rfl
    rw [Store.cell_write, Store.write_write] at hact
    exact .byte hact .nil
  have hloop := eval_countdown (fun v => σ.cell_write v) hround h σ.cell
  rwa [Store.write_cell] at hloop

end Block

/-- A run of a nested program to its end is one of the machine. -/
theorem Program.Prepared.exists_execute {block : Block} {p : Program} (hp : p.Prepared block.code)
    {debug : Bool} {m : Machine} {hm : 0 < m.length} {input : List UInt8} {σ : Store m.length}
    (h : Eval debug block 0 (.start hm input) (.done σ)) :
    ∃ fuel, m.execute ⟨p, debug, none⟩ input fuel
      = ⟨some .finished, σ.output, ⟨σ.tape.toArray, σ.pointer.val, .empty⟩⟩ :=
  (execute_iff_eval hp m hm input _ _ _ _).mpr ⟨_, h, rfl, rfl, rfl, rfl⟩

/-! ## Copying -/

namespace Block

/-- The program `,[.[-],]`. -/
def copying : Block :=
  .byte 0x2C rfl (.loop (.byte 0x2E rfl (clear (.byte 0x2C rfl .nil))) .nil)

theorem code_copying : copying.code = Utf8.encode ",[.[-],]" := by decide +kernel

/-- What is left of the input behind its first zero. -/
def unread (input : List UInt8) : List UInt8 := (input.dropWhile (· ≠ 0)).tail

/-- The loop gets to its `]` with the next byte of the input in the cell, or with a zero there: the
cell has been cleared, and a `,` leaves it alone when there is no input. So the rounds that are left
are those of the whole program begun anew. -/
theorem eval_copying {n : Nat} {debug : Bool} (hn : 0 < n) (input : List UInt8) :
    ∀ (output : Output) (k : Nat), Eval debug copying k (.holding [0] ⟨0, hn⟩ input output)
      (.done (.holding [0] ⟨0, hn⟩ (unread input)
        (output.append (input.takeWhile (· ≠ 0))))) := by
  induction input with
  | nil => exact fun output k => .byte rfl (.skip Store.cell_holding .nil)
  | cons b rest ih =>
    intro output k
    refine .byte (Store.act_comma_holding Nat.one_pos b) ?_
    by_cases hb : b = 0
    · subst hb
      exact .skip Store.cell_holding .nil
    · have hcell : (Store.holding [b] (⟨0, hn⟩ : Fin n) rest output).cell ≠ 0 := by
        rwa [Store.cell_holding]
      obtain ⟨τ, hnext⟩ : ∃ τ,
          (Store.holding [0] (⟨0, hn⟩ : Fin n) rest (output.push b)).act debug 0x2C = some τ := by
        cases rest with
        | nil => exact ⟨_, rfl⟩
        | cons c rest => exact ⟨_, rfl⟩
      have hrounds := (eval_byte_iff hnext).mp (ih (output.push b) k)
      have htake : (output.push b).append (rest.takeWhile (· ≠ 0))
          = output.append ((b :: rest).takeWhile (· ≠ 0)) := by
        simp [Output.push, Output.append, hb]
      have hunread : unread (b :: rest) = unread rest := by simp [unread, hb]
      rw [htake, ← hunread] at hrounds
      refine .again hcell (.byte Store.act_dot_holding (eval_clear ?_)) hrounds
      rw [Store.write_holding Nat.one_pos]
      exact .byte hnext .nil

end Block

/-- **The copy program copies.** On every tape with cells and every input, `,[.[-],]` comes to its
end, and its output is the input up to the first zero. All cells are zero then, and the pointer is
on the first one. -/
theorem copy_program_copies :
    ∃ p, Program.prepare (Utf8.encode ",[.[-],]") = .ok p ∧
      ∀ (debug : Bool) (m : Machine) (input : List UInt8), 0 < m.length →
        ∃ fuel output, m.execute ⟨p, debug, none⟩ input fuel
            = ⟨some .finished, output, .blank m.length⟩ ∧
          output.toList = input.takeWhile (· ≠ 0) := by
  obtain ⟨p, hp⟩ := Program.exists_prepare_of_balanced Block.copying.balanced_code
  refine ⟨p, Block.code_copying ▸ hp, fun debug m input hm => ?_⟩
  have heval : Eval debug Block.copying 0 (.holding [0] ⟨0, hm⟩ input .empty) _ :=
    Block.eval_copying hm input .empty 0
  rw [← List.replicate_one, ← Store.start_eq_holding] at heval
  obtain ⟨fuel, hfuel⟩ := (Program.prepared_of_prepare hp).exists_execute heval
  rw [Store.tape_holding_zeros] at hfuel
  exact ⟨fuel, _, hfuel, by rw [Store.holding, Output.toList_append]; rfl⟩

/-- On one cell, of `ab`, a zero and `c` only `ab` is copied. -/
theorem copy_program_stops_at_zero :
    ∃ p, Program.prepare (Utf8.encode ",[.[-],]") = .ok p ∧ 0 < (Machine.blank 1).length ∧
      ∃ fuel output, (Machine.blank 1).execute ⟨p, false, none⟩ [0x61, 0x62, 0, 0x63] fuel
          = ⟨some .finished, output, .blank 1⟩ ∧ output.toList = [0x61, 0x62] := by
  obtain ⟨p, hp, hruns⟩ := copy_program_copies
  obtain ⟨fuel, output, hfuel, hout⟩ :=
    hruns false (.blank 1) [0x61, 0x62, 0, 0x63] (by decide)
  exact ⟨p, hp, by decide, fuel, output, hfuel, hout.trans (by decide)⟩

/-! ## Multiplying -/

namespace Block

/-- A run of `+`. -/
def pluses : Nat → Block
  | 0 => .nil
  | count + 1 => .byte 0x2B rfl (pluses count)

theorem code_pluses (count : Nat) : (pluses count).code = List.replicate count 0x2B := by
  induction count with
  | zero => rfl
  | succ count ih => simp [pluses, code, ih, List.replicate_succ]

/-- The loop `[>+<-]`. -/
def moving (rest : Block) : Block :=
  .loop (.byte 0x3E rfl (.byte 0x2B rfl (.byte 0x3C rfl (.byte 0x2D rfl .nil)))) rest

/-- The body `>`, `b` times `+`, `[>+<-]<-`. -/
def adding (b : Nat) : Block :=
  .byte 0x3E rfl ((pluses b).append (moving (.byte 0x3C rfl (.byte 0x2D rfl .nil))))

/-- The program that multiplies `a` by `b`. -/
def multiplying (a b : Nat) : Block := (pluses a).append (.loop (adding b) .nil)

theorem code_multiplying (a b : Nat) :
    (multiplying a b).code = List.replicate a 0x2B ++ (Utf8.encode "[>" ++
      (List.replicate b 0x2B ++ Utf8.encode "[>+<-]<-]")) := by
  have hfront : Utf8.encode "[>" = [0x5B, 0x3E] := by decide +kernel
  have hback : Utf8.encode "[>+<-]<-]"
      = [0x5B, 0x3E, 0x2B, 0x3C, 0x2D, 0x5D, 0x3C, 0x2D, 0x5D] := by decide +kernel
  rw [hfront, hback]
  simp [multiplying, adding, moving, code, code_pluses, openBracket, closeBracket]

variable {n : Nat} {debug : Bool} {input : List UInt8} {output : Output} {rest : Block} {k : Nat}
  {r : Outcome n}

/-- A run of `+` fills a cell that is zero. -/
theorem eval_pluses {cells : List UInt8} {i : Fin n} (hi : i.val < cells.length)
    (hzero : cells.getD i.val 0 = 0) {count : Nat} (h : Eval debug rest (k + count)
      (.holding (cells.set i.val (.ofNat count)) i input output) r) :
    Eval debug ((pluses count).append rest) k (.holding cells i input output) r := by
  have hcode := code_pluses count
  have hpm : PlusMinus (pluses count).code := by
    rw [hcode]
    exact fun b hb => .inl (List.eq_of_mem_replicate hb)
  have hchange : netChange (pluses count).code = .ofNat count := by
    rw [netChange, hcode, List.count_replicate_self, List.count_replicate, if_neg (by decide)]
    exact UInt8.sub_zero _
  have hsize : (pluses count).size = count := by
    rw [← length_code, hcode, List.length_replicate]
  rw [eval_append_iff hpm, hchange, hsize, Store.cell_holding, hzero, UInt8.zero_add,
    Store.write_holding hi]
  exact h

section

variable {h0 : 0 < n} {h1 : 1 < n}

/-- The second cell is emptied into the third. -/
theorem eval_moving (h2 : 2 < n) {a b c : UInt8}
    (h : Eval debug rest (k + 6) (.holding [a, 0, c + b] ⟨1, h1⟩ input output) r) :
    Eval debug (moving rest) k (.holding [a, b, c] ⟨1, h1⟩ input output) r := by
  -- what the second cell has lost stands in the third
  let stores (v : UInt8) : Store n := .holding [a, v, c + (b - v)] ⟨1, h1⟩ input output
  have hround : ∀ v, v ≠ 0 → Eval debug
      (.byte 0x3E rfl (.byte 0x2B rfl (.byte 0x3C rfl (.byte 0x2D rfl .nil)))) (k + 1) (stores v)
      (.done (stores (v - 1))) := by
    intro v _
    have hsum : c + (b - (v - 1)) = c + (b - v) + 1 := by grind
    have hright : (stores v).act debug 0x3E
        = some (.holding [a, v, c + (b - v)] ⟨2, h2⟩ input output) := Store.act_right_holding h2
    have hplus : (Store.holding [a, v, c + (b - v)] ⟨2, h2⟩ input output).act debug 0x2B
        = some (.holding [a, v, c + (b - v) + 1] ⟨2, h2⟩ input output) :=
      Store.act_plus_holding (Nat.le_refl 3)
    have hleft : (Store.holding [a, v, c + (b - v) + 1] ⟨2, h2⟩ input output).act debug 0x3C
        = some (.holding [a, v, c + (b - v) + 1] ⟨1, h1⟩ input output) :=
      Store.act_left (Nat.succ_ne_zero 1)
    have hminus : (Store.holding [a, v, c + (b - v) + 1] ⟨1, h1⟩ input output).act debug 0x2D
        = some (stores (v - 1)) := by
      simp only [stores, hsum]
      exact Store.act_minus_holding (Nat.lt_succ_of_lt (Nat.le_refl 2))
    exact .byte hright (.byte hplus (.byte hleft (.byte hminus .nil)))
  have hend : stores 0 = .holding [a, 0, c + b] ⟨1, h1⟩ input output := by
    simp only [stores, UInt8.sub_zero]
  have hbegin : stores b = .holding [a, b, c] ⟨1, h1⟩ input output := by
    simp only [stores, UInt8.sub_self, UInt8.add_zero]
  rw [← hbegin]
  exact eval_countdown (fun v => Store.cell_holding) hround (hend ▸ h) b

/-- One unit of the first cell is worth `b` in the third. -/
theorem eval_adding (h2 : 2 < n) (v c : UInt8) (b : Nat) :
    Eval debug (adding b) k (.holding [v, 0, c] ⟨0, h0⟩ input output)
      (.done (.holding [v - 1, 0, c + .ofNat b] ⟨0, h0⟩ input output)) := by
  have h1 : 1 < n := Nat.lt_of_succ_lt h2
  have hright : (Store.holding [v, 0, c] ⟨0, h0⟩ input output).act debug 0x3E
      = some (.holding [v, 0, c] ⟨1, h1⟩ input output) := Store.act_right_holding h1
  have hleft : (Store.holding [v, 0, c + .ofNat b] ⟨1, h1⟩ input output).act debug 0x3C
      = some (.holding [v, 0, c + .ofNat b] ⟨0, h0⟩ input output) :=
    Store.act_left (Nat.succ_ne_zero 0)
  have hminus : (Store.holding [v, 0, c + .ofNat b] ⟨0, h0⟩ input output).act debug 0x2D
      = some (.holding [v - 1, 0, c + .ofNat b] ⟨0, h0⟩ input output) :=
    Store.act_minus_holding (Nat.succ_pos 2)
  have hback : Eval debug (.byte 0x3C rfl (.byte 0x2D rfl .nil)) (k + 1 + b + 6)
      (.holding [v, 0, c + .ofNat b] ⟨1, h1⟩ input output)
      (.done (.holding [v - 1, 0, c + .ofNat b] ⟨0, h0⟩ input output)) :=
    .byte hleft (.byte hminus .nil)
  exact .byte hright
    (eval_pluses (Nat.lt_succ_of_lt (Nat.le_refl 2)) rfl (eval_moving h2 hback))

theorem eval_multiplying (h2 : 2 < n) (a b : Nat) :
    Eval debug (multiplying a b) k (.holding [0, 0, 0] ⟨0, h0⟩ input output)
      (.done (.holding [0, 0, .ofNat (a * b)] ⟨0, h0⟩ input output)) := by
  -- the third cell holds `b` for each unit that the first has lost
  let stores (v : UInt8) : Store n :=
    .holding [v, 0, (UInt8.ofNat a - v) * UInt8.ofNat b] ⟨0, h0⟩ input output
  have hround : ∀ v, v ≠ 0 → Eval debug (adding b) (k + a + 1) (stores v)
      (.done (stores (v - 1))) := by
    intro v _
    have hsum : (UInt8.ofNat a - (v - 1)) * UInt8.ofNat b
        = (UInt8.ofNat a - v) * UInt8.ofNat b + UInt8.ofNat b := by grind
    simp only [stores, hsum]
    exact eval_adding h2 v _ b
  have hend : stores 0 = .holding [0, 0, .ofNat (a * b)] ⟨0, h0⟩ input output := by
    simp only [stores, UInt8.sub_zero, UInt8.ofNat_mul]
  have hbegin : stores (.ofNat a) = .holding [.ofNat a, 0, 0] ⟨0, h0⟩ input output := by
    simp only [stores, UInt8.sub_self, UInt8.zero_mul]
  have hloop : Eval debug (.loop (adding b) .nil) (k + a) (stores (.ofNat a)) (.done (stores 0)) :=
    eval_countdown (fun v => Store.cell_holding) hround .nil (.ofNat a)
  rw [hbegin, hend] at hloop
  exact eval_pluses (Nat.succ_pos 2) rfl hloop

end

end Block

/-- **The nested loops multiply.** For all factors `a` and `b`, on every tape with three cells or
more, the program comes to its end without output and with the pointer back on the first cell. The
third cell holds the product modulo 256, and all others are zero. -/
theorem product_program_multiplies (a b : Nat) :
    ∃ p, Program.prepare (List.replicate a 0x2B ++ (Utf8.encode "[>" ++
        (List.replicate b 0x2B ++ Utf8.encode "[>+<-]<-]"))) = .ok p ∧
      ∀ (debug : Bool) (m : Machine) (input : List UInt8), 3 ≤ m.length →
        ∃ fuel tape, m.execute ⟨p, debug, none⟩ input fuel
            = ⟨some .finished, .empty, ⟨tape, 0, .empty⟩⟩ ∧
          tape.size = m.length ∧
          (∃ product, tape[2]? = some product ∧ product.toNat = a * b % 256) ∧
          ∀ i < m.length, i ≠ 2 → tape[i]? = some 0 := by
  obtain ⟨p, hp⟩ := Program.exists_prepare_of_balanced (Block.multiplying a b).balanced_code
  refine ⟨p, Block.code_multiplying a b ▸ hp, fun debug m input hm => ?_⟩
  have hpos : 0 < m.length := Nat.zero_lt_of_lt hm
  have heval : Eval debug (Block.multiplying a b) 0 (.holding [0, 0, 0] ⟨0, hpos⟩ input .empty) _ :=
    Block.eval_multiplying hm a b
  rw [show ([0, 0, 0] : List UInt8) = List.replicate 3 0 from rfl,
    ← Store.start_eq_holding] at heval
  obtain ⟨fuel, hfuel⟩ := (Program.prepared_of_prepare hp).exists_execute heval
  refine ⟨fuel, _, hfuel, Vector.size_toArray _,
    ⟨_, Store.tape_holding_getElem? hm, UInt8.toNat_ofNat'⟩, ?_⟩
  intro i hi hne
  rw [Store.tape_holding_getElem? hi]
  match i with
  | 0 | 1 => rfl
  | 2 => exact absurd rfl hne
  | i + 3 => rfl

/-- With `257` and `300`, of which neither fits in a cell, on four cells. -/
theorem product_program_wraps :
    ∃ p, Program.prepare (List.replicate 257 0x2B ++ (Utf8.encode "[>" ++
        (List.replicate 300 0x2B ++ Utf8.encode "[>+<-]<-]"))) = .ok p ∧
      3 ≤ (Machine.blank 4).length ∧
      ∃ fuel tape, (Machine.blank 4).execute ⟨p, true, none⟩ [] fuel
          = ⟨some .finished, .empty, ⟨tape, 0, .empty⟩⟩ ∧
        tape.toList = [0, 0, 44, 0] := by
  obtain ⟨p, hp, hruns⟩ := product_program_multiplies 257 300
  obtain ⟨fuel, tape, hfuel, hsize, ⟨product, hthird, hproduct⟩, hzero⟩ :=
    hruns true (.blank 4) [] (by decide)
  obtain rfl : product = 44 := UInt8.toNat_inj.mp hproduct
  refine ⟨p, hp, by decide, fuel, tape, hfuel, List.ext_getElem? fun i => ?_⟩
  rw [Array.getElem?_toList]
  match i with
  | 0 => exact hzero 0 (by decide) (by decide)
  | 1 => exact hzero 1 (by decide) (by decide)
  | 2 => exact hthird
  | 3 => exact hzero 3 (by decide) (by decide)
  | i + 4 => exact Array.getElem?_eq_none (by rw [hsize]; exact Nat.le_add_left 4 i)

end TapeMachine
