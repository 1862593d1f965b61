/-!
# Output

The bytes a run has written. They are kept last first, so that a byte is added in one step and the
outputs of successive states share their memory; `toList` is the view in the order written.
-/

namespace TapeMachine

/-- Bytes written so far. -/
structure Output where
  newestFirst : List UInt8
  deriving DecidableEq, Repr, Inhabited

namespace Output

def empty : Output := ⟨[]⟩

/-- The bytes in the order they were written. -/
def toList (o : Output) : List UInt8 := o.newestFirst.reverse

/-- Writes one byte. -/
def push (o : Output) (b : UInt8) : Output := ⟨b :: o.newestFirst⟩

/-- Writes several bytes. -/
def append (o : Output) (bytes : List UInt8) : Output := ⟨bytes.reverse ++ o.newestFirst⟩

@[simp] theorem toList_empty : empty.toList = [] := rfl

@[simp] theorem toList_push (o : Output) (b : UInt8) : (o.push b).toList = o.toList ++ [b] := by
  simp [toList, push]

@[simp] theorem toList_append (o : Output) (bytes : List UInt8) :
    (o.append bytes).toList = o.toList ++ bytes := by
  simp [toList, append]

end Output

end TapeMachine
