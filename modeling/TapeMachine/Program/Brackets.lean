import TapeMachine.Instruction

/-!
# Bracket matching

One pass over the instructions with a stack of open brackets. A `]` closes the innermost open `[`;
a `]` that finds no open bracket is lone, and so is a `[` that is still open at the end.

Offsets count from 0. Every list keeps the newest offset first, since the pass only adds at the head.
-/

namespace TapeMachine

/-- The brackets seen so far. -/
structure Brackets where
  /-- Matched pairs `(open, close)`, the one closed last first. -/
  pairs : List (Nat × Nat)
  /-- Closing brackets without a partner, the last first. -/
  loneCloses : List Nat
  /-- Brackets still open, the innermost first. -/
  opens : List Nat
  deriving DecidableEq, Repr

namespace Brackets

def empty : Brackets := ⟨[], [], []⟩

/-- Takes in the instruction at offset `i`. -/
def push (b : Brackets) (i : Nat) : Instruction → Brackets
  | .loopOpen => { b with opens := i :: b.opens }
  | .loopClose =>
    match b.opens with
    | [] => { b with loneCloses := i :: b.loneCloses }
    | o :: rest => { b with pairs := (o, i) :: b.pairs, opens := rest }
  | _ => b

/-- Takes in the instructions that stand at the offsets from `i` on. -/
def scan (b : Brackets) (i : Nat) : List Instruction → Brackets
  | [] => b
  | instruction :: rest => scan (b.push i instruction) (i + 1) rest

/-- The brackets of a whole program. -/
def ofInstructions (instructions : List Instruction) : Brackets := empty.scan 0 instructions

/-- The brackets without a partner: closing ones in source order, then opening ones. -/
def lone (b : Brackets) : List (Nat × Char) :=
  b.loneCloses.reverse.map (·, ']') ++ b.opens.reverse.map (·, '[')

/-- The partner of every matched bracket among the first `length` offsets. -/
def jumpTable (b : Brackets) (length : Nat) : Array (Option Nat) :=
  b.pairs.foldr
    (fun (o, c) table => (table.setIfInBounds o (some c)).setIfInBounds c (some o))
    (Array.replicate length none)

end Brackets

end TapeMachine
