import TapeMachine.Dump
import TapeMachine.Machine.Output
import TapeMachine.Proofs.Block

/-!
# Structured semantics

What a nested program does, told along its structure and without jumps: a byte acts on the store,
and the body of a loop is repeated while the current cell is not zero.

`Eval debug block k σ r` says that `block`, which begins at offset `k` of its source, takes the
store `σ` to the outcome `r`. The offset only names the byte that an evaluation gets stuck at. A
block that runs for ever has no outcome.
-/

namespace TapeMachine

/-- What a nested program works on: a tape of `n` cells with a pointer to one of them, the input not
yet read and the output. -/
structure Store (n : Nat) where
  tape : Vector UInt8 n
  pointer : Fin n
  input : List UInt8
  output : Output

namespace Store

variable {n : Nat}

/-- A zeroed tape with the pointer on its first cell. -/
def start (hn : 0 < n) (input : List UInt8) : Store n :=
  ⟨Vector.replicate n 0, ⟨0, hn⟩, input, .empty⟩

/-- The current cell. -/
def cell (σ : Store n) : UInt8 := σ.tape[σ.pointer]

/-- Replaces the current cell. -/
def write (σ : Store n) (value : UInt8) : Store n :=
  { σ with tape := σ.tape.set σ.pointer value }

/-- What a byte that is no bracket does. A move off the tape has no result. -/
def act (debug : Bool) (b : UInt8) (σ : Store n) : Option (Store n) :=
  match Char.ofNat b.toNat with
  | '+' => some (σ.write (σ.cell + 1))
  | '-' => some (σ.write (σ.cell - 1))
  | '>' =>
    if h : σ.pointer.val + 1 < n then some { σ with pointer := ⟨σ.pointer.val + 1, h⟩ } else none
  | '<' =>
    if σ.pointer.val = 0 then none
    else some { σ with pointer := ⟨σ.pointer.val - 1, by omega⟩ }
  | '.' => some { σ with output := σ.output.push σ.cell }
  | ',' =>
    match σ.input with
    | [] => some σ
    | value :: rest => some ({ σ with input := rest }.write value)
  | '#' =>
    if debug then
      let dump := (Dump.render σ.tape.toArray σ.pointer.val).toUTF8.toList
      some { σ with output := σ.output.append dump }
    else some σ
  | _ => some σ

end Store

/-- What comes of a block. -/
inductive Block.Outcome (n : Nat) where
  | done (σ : Store n)
  /-- The byte `b` at `offset` is a move off the tape. -/
  | stuck (offset : Nat) (b : UInt8) (σ : Store n)

/-- The outcome of a block at offset `k`. -/
inductive Eval (debug : Bool) {n : Nat} : Block → Nat → Store n → Block.Outcome n → Prop where
  | nil {k : Nat} {σ : Store n} : Eval debug .nil k σ (.done σ)
  | byte {b : UInt8} {plain : bracketStep b = none} {rest : Block} {k : Nat} {σ τ : Store n}
      {r : Block.Outcome n} (hact : σ.act debug b = some τ) (hrest : Eval debug rest (k + 1) τ r) :
      Eval debug (.byte b plain rest) k σ r
  | stuck {b : UInt8} {plain : bracketStep b = none} {rest : Block} {k : Nat} {σ : Store n}
      (hact : σ.act debug b = none) : Eval debug (.byte b plain rest) k σ (.stuck k b σ)
  /-- The loop is left out: the current cell is zero. -/
  | skip {body rest : Block} {k : Nat} {σ : Store n} {r : Block.Outcome n} (hcell : σ.cell = 0)
      (hrest : Eval debug rest (k + 1 + body.size + 1) σ r) : Eval debug (.loop body rest) k σ r
  /-- The body is done once, and then it is the loop's turn again. -/
  | again {body rest : Block} {k : Nat} {σ τ : Store n} {r : Block.Outcome n} (hcell : σ.cell ≠ 0)
      (hbody : Eval debug body (k + 1) σ (.done τ))
      (hloop : Eval debug (.loop body rest) k τ r) : Eval debug (.loop body rest) k σ r
  /-- The body gets stuck. -/
  | inside {body rest : Block} {k : Nat} {σ τ : Store n} {offset : Nat} {b : UInt8}
      (hcell : σ.cell ≠ 0) (hbody : Eval debug body (k + 1) σ (.stuck offset b τ)) :
      Eval debug (.loop body rest) k σ (.stuck offset b τ)

end TapeMachine
