import TapeMachine.Machine.Output

/-!
# Machines

A machine has a tape of byte cells, a pointer to one of them, and the output that was captured from
it. It outlives the runs made on it: every run starts by blanking it.
-/

namespace TapeMachine

/-- A tape with a pointer, and the captured output. -/
structure Machine where
  tape : Array UInt8
  pointer : Nat
  captured : Output
  deriving DecidableEq, Repr

namespace Machine

/-- The number of cells of a tape, unless another one is asked for. -/
def defaultLength : Nat := 30000

/-- A machine whose cells are all zero, with the pointer on the first one. -/
def blank (length : Nat) : Machine := ⟨Array.replicate length 0, 0, .empty⟩

/-- A blank machine of the given length. A negative length is refused. -/
def ofLength? (length : Int) : Option Machine :=
  if length < 0 then none else some (blank length.toNat)

/-- The number of cells. -/
def length (m : Machine) : Nat := m.tape.size

/-- The machine as it was when it was made. -/
def reset (m : Machine) : Machine := blank m.length

@[simp] theorem length_blank (n : Nat) : (blank n).length = n := by simp [blank, length]

@[simp] theorem reset_blank (n : Nat) : (blank n).reset = blank n := by simp [reset]

end Machine

end TapeMachine
