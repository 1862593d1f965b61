import Mathlib.Data.List.Basic
import TapeMachine.Program.Lines

/-!
# Line numbers

The line of a byte is 1 more than the number of newlines before it. So the pieces between the newlines
are enough for the lines of all bytes. They are the pieces of a list that is split at newlines
(`toList_splitLines`).
-/

namespace TapeMachine

/-- The line of the byte at an offset: one more than there are newlines before it. -/
def lineAt (source : List UInt8) (k : Nat) : Nat := 1 + (source.take k).count newline

theorem lineNumbersFrom_eq_append (source : List UInt8) :
    ∀ (line : Nat) (done : Array Nat),
      lineNumbersFrom line source done = done ++ lineNumbersFrom line source #[] := by
  induction source with
  | nil => intro line done; simp [lineNumbersFrom]
  | cons b rest ih =>
    intro line done
    rw [lineNumbersFrom, lineNumbersFrom, ih _ (done.push line), ih _ (#[].push line),
      Array.push_eq_append, Array.append_assoc]
    rfl

@[simp] theorem size_lineNumbersFrom (source : List UInt8) :
    ∀ line, (lineNumbersFrom line source #[]).size = source.length := by
  induction source with
  | nil => intro line; rfl
  | cons b rest ih =>
    intro line
    rw [lineNumbersFrom, lineNumbersFrom_eq_append, Array.size_append, ih]
    simp [Nat.add_comm]

theorem lineNumbersFrom_getElem? (source : List UInt8) :
    ∀ (line k : Nat), k < source.length →
      (lineNumbersFrom line source #[])[k]? = some (line + (source.take k).count newline) := by
  induction source with
  | nil => intro line k hk; simp at hk
  | cons b rest ih =>
    intro line k hk
    rw [lineNumbersFrom, lineNumbersFrom_eq_append]
    cases k with
    | zero =>
      rw [Array.getElem?_append_left (by simp)]
      rfl
    | succ k =>
      rw [Array.getElem?_append_right (by simp)]
      have hrest := ih (if b = newline then line + 1 else line) k (by simpa using hk)
      simp only [Array.size_push, Array.size_empty, Nat.zero_add, Nat.add_sub_cancel, hrest,
        List.take_succ_cons, List.count_cons]
      by_cases hb : b = newline
      · simp [hb]; omega
      · simp [hb]

theorem size_lineNumbers (source : List UInt8) : (lineNumbers source).size = source.length :=
  size_lineNumbersFrom source 1

theorem lineNumbers_getElem? {source : List UInt8} {k : Nat} (hk : k < source.length) :
    (lineNumbers source)[k]? = some (lineAt source k) :=
  lineNumbersFrom_getElem? source 1 k hk

/-- There is one piece more than there are newlines. -/
theorem size_splitLinesFrom (source : List UInt8) :
    ∀ (current : List UInt8) (done : Array (List UInt8)),
      (splitLinesFrom current source done).size = done.size + source.count newline + 1 := by
  induction source with
  | nil => intro current done; simp [splitLinesFrom]
  | cons b rest ih =>
    intro current done
    rw [splitLinesFrom]
    by_cases hb : b = newline
    · rw [if_pos hb, ih, Array.size_push, hb, List.count_cons_self]
      omega
    · rw [if_neg hb, ih, List.count_cons_of_ne hb]

theorem size_splitLines (source : List UInt8) :
    (splitLines source).size = source.count newline + 1 := by
  rw [splitLines, size_splitLinesFrom, Array.size_empty, Nat.zero_add]

/-- There is a piece for the line of every byte. -/
theorem lineAt_le_size_splitLines (source : List UInt8) (k : Nat) :
    lineAt source k ≤ (splitLines source).size := by
  rw [size_splitLines, lineAt, Nat.add_comm 1]
  exact Nat.add_le_add_right ((List.take_sublist k source).count_le newline) 1

theorem lineAt_mono (source : List UInt8) {j k : Nat} (h : j ≤ k) :
    lineAt source j ≤ lineAt source k := by
  unfold lineAt
  exact Nat.add_le_add_left ((List.take_sublist_take_left h).count_le newline) 1

theorem newline_notMem_splitLinesFrom (source : List UInt8) :
    ∀ (current : List UInt8) (done : Array (List UInt8)), newline ∉ current →
      (∀ piece ∈ done, newline ∉ piece) →
      ∀ piece ∈ splitLinesFrom current source done, newline ∉ piece := by
  have hpush : ∀ (current : List UInt8) (done : Array (List UInt8)), newline ∉ current →
      (∀ piece ∈ done, newline ∉ piece) →
      ∀ piece ∈ done.push current.reverse, newline ∉ piece := by
    intro current done hcurrent hdone piece hpiece
    rcases Array.mem_push.mp hpiece with hpiece | rfl
    · exact hdone piece hpiece
    · rwa [List.mem_reverse]
  induction source with
  | nil => exact hpush
  | cons b rest ih =>
    intro current done hcurrent hdone
    rw [splitLinesFrom]
    by_cases hb : b = newline
    · rw [if_pos hb]
      exact ih _ _ List.not_mem_nil (hpush current done hcurrent hdone)
    · rw [if_neg hb]
      exact ih _ _ (List.not_mem_cons_of_ne_of_not_mem (Ne.symm hb) hcurrent) hdone

/-- A line is no more than what stands between newlines. -/
theorem newline_notMem_splitLines (source : List UInt8) :
    ∀ piece ∈ splitLines source, newline ∉ piece :=
  newline_notMem_splitLinesFrom source [] #[] List.not_mem_nil (by simp)

/-- The splitting carries its pieces along. -/
theorem toList_splitLinesFrom (source : List UInt8) :
    ∀ (current : List UInt8) (done : Array (List UInt8)),
      (splitLinesFrom current source done).toList
        = done.toList ++ source.splitOnPPrepend (· == newline) current := by
  induction source with
  | nil => intro current done; simp [splitLinesFrom]
  | cons b rest ih =>
    intro current done
    unfold splitLinesFrom
    split
    · next hb => simp [ih, hb, List.splitOnPPrepend_cons_pos]
    · next hb => rw [ih, List.splitOnPPrepend_cons_neg (by simpa using hb)]

/-- The pieces of a source are those of the list, split at its newlines. -/
theorem toList_splitLines (source : List UInt8) :
    (splitLines source).toList = source.splitOn newline := by
  simp [splitLines, toList_splitLinesFrom, List.splitOn_eq_splitOnP]

/-- The lines with newlines between them are the source. -/
theorem intercalate_splitLines (source : List UInt8) :
    [newline].intercalate (splitLines source).toList = source := by
  rw [toList_splitLines, List.intercalate_splitOn]

end TapeMachine
