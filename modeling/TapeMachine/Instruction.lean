/-!
# Instructions

A program is a sequence of bytes. Nine bytes are instructions; every other byte is inert, so text
between instructions is a comment.
-/

namespace TapeMachine

/-- What a byte of a program does. -/
inductive Instruction where
  | increment
  | decrement
  | moveRight
  | moveLeft
  | loopOpen
  | loopClose
  | output
  | input
  | diagnostic
  | inert
  deriving DecidableEq, Repr, Inhabited

namespace Instruction

/-- The character an instruction is written as. Inert bytes have none. -/
def symbol : Instruction → Option Char
  | increment => some '+'
  | decrement => some '-'
  | moveRight => some '>'
  | moveLeft => some '<'
  | loopOpen => some '['
  | loopClose => some ']'
  | output => some '.'
  | input => some ','
  | diagnostic => some '#'
  | inert => none

/-- The instruction of a byte. -/
def ofByte (b : UInt8) : Instruction :=
  match b.toNat with
  | 0x2B => increment
  | 0x2D => decrement
  | 0x3E => moveRight
  | 0x3C => moveLeft
  | 0x5B => loopOpen
  | 0x5D => loopClose
  | 0x2E => output
  | 0x2C => input
  | 0x23 => diagnostic
  | _ => inert

/-- The instruction of any integer. An integer that is no byte is inert. -/
def ofCode (code : Int) : Instruction :=
  if 0 ≤ code ∧ code < 256 then ofByte (UInt8.ofNat code.toNat) else inert

/-- Decoding the symbol of an instruction gives the instruction back. -/
theorem ofByte_symbol {i : Instruction} {c : Char} (h : i.symbol = some c) :
    ofByte (UInt8.ofNat c.toNat) = i := by
  cases i <;> simp [symbol] at h <;> subst h <;> decide

end Instruction

end TapeMachine
