import TapeMachine.Text.Radix
import TapeMachine.Text.Split

/-!
# Reading texts back

A number is written by its digits in a base, which may be filled with zeros and put in upper case. It
is read from the values of these digits (`Text.valueIn_map_toDigits`), and no other characters occur
among them (`Text.exists_digitChar`).

Pieces that have been put together with a separator are found again by splitting there, as long as it
occurs in none of them.
-/

namespace TapeMachine.Text

/-! ## Numbers -/

/-- Whether a character is a digit in a base of up to 16, in either case. -/
def isDigitIn (base : Nat) (c : Char) : Bool := (hexDigit? c).any (· < base)

/-- The number that digits in a base stand for. -/
def valueIn (base : Nat) (cs : List Char) : Nat :=
  cs.foldl (fun n c => base * n + (hexDigit? c).getD 0) 0

/-- Every character of a number written in a base is the digit of some value in it. -/
theorem exists_digitChar {base : Nat} (hbase : 1 < base) (n : Nat) :
    ∀ c ∈ Nat.toDigits base n, ∃ d, d < base ∧ c = Nat.digitChar d := by
  induction n using Nat.strongRecOn with
  | _ n ih =>
    intro c hc
    rw [Nat.toDigits_eq_if hbase] at hc
    split at hc
    · next hn => exact ⟨n, hn, List.mem_singleton.mp hc⟩
    · next hn =>
      rcases List.mem_append.mp hc with hc | hc
      · exact ih (n / base) (Nat.div_lt_self (by omega) hbase) c hc
      · exact ⟨n % base, Nat.mod_lt n (by omega), List.mem_singleton.mp hc⟩

theorem hexDigit?_digitChar : ∀ d < 16, hexDigit? (Nat.digitChar d) = some d := by decide

theorem hexDigit?_toUpper_digitChar :
    ∀ d < 16, hexDigit? (Nat.digitChar d).toUpper = some d := by decide

section

variable {base : Nat} {form : Char → Char}

/-- **The digits of a number stand for it**, in whatever form a digit of each value is written. -/
theorem valueIn_map_toDigits (hbase : 1 < base)
    (hform : ∀ d < base, hexDigit? (form (Nat.digitChar d)) = some d) (n : Nat) :
    valueIn base ((Nat.toDigits base n).map form) = n := by
  induction n using Nat.strongRecOn with
  | _ n ih =>
    rw [Nat.toDigits_eq_if hbase]
    split
    · next hn => simp [valueIn, hform n hn]
    · next hn =>
      have hlast := hform (n % base) (Nat.mod_lt n (by omega))
      have hrest := ih (n / base) (Nat.div_lt_self (by omega) hbase)
      unfold valueIn at hrest ⊢
      rw [List.map_append, List.foldl_append, hrest, List.map_singleton, List.foldl_cons,
        List.foldl_nil, hlast, Option.getD_some, Nat.div_add_mod]

/-- Zeros in front of a number do not change it. -/
theorem valueIn_map_digits (hbase : 1 < base)
    (hform : ∀ d < base, hexDigit? (form (Nat.digitChar d)) = some d) (width n : Nat) :
    valueIn base ((digits base width n).map form) = n := by
  have hzero : hexDigit? (form '0') = some 0 := hform 0 (by omega)
  have hzeros : ∀ k, (List.replicate k (form '0')).foldl
      (fun n c => base * n + (hexDigit? c).getD 0) 0 = 0 := by
    intro k
    induction k with
    | zero => rfl
    | succ k ih => rw [List.replicate_succ, List.foldl_cons, hzero, Option.getD_some]; exact ih
  rw [digits, List.map_append, List.map_replicate, valueIn, List.foldl_append, hzeros]
  exact valueIn_map_toDigits hbase hform n

theorem isDigitIn_of_mem_digits (hbase : 1 < base)
    (hform : ∀ d < base, hexDigit? (form (Nat.digitChar d)) = some d) (width n : Nat) :
    ∀ c ∈ (digits base width n).map form, isDigitIn base c = true := by
  intro c hc
  obtain ⟨digit, hdigit, rfl⟩ := List.mem_map.mp hc
  obtain ⟨d, hd, rfl⟩ : ∃ d, d < base ∧ digit = Nat.digitChar d := by
    rcases List.mem_append.mp hdigit with h | h
    · exact ⟨0, by omega, List.eq_of_mem_replicate h⟩
    · exact exists_digitChar hbase n digit h
  simp [isDigitIn, hform d hd, hd]

/-- The digits of a number stand for it as they are. -/
theorem valueIn_toDigits (hbase : 1 < base) (hle : base ≤ 16) (n : Nat) :
    valueIn base (Nat.toDigits base n) = n := by
  have h : valueIn base ((Nat.toDigits base n).map id) = n := valueIn_map_toDigits hbase
    (fun d hd => hexDigit?_digitChar d (Nat.lt_of_lt_of_le hd hle)) n
  rwa [List.map_id] at h

theorem isDigitIn_of_mem_toDigits (hbase : 1 < base) (hle : base ≤ 16) (n : Nat) :
    ∀ c ∈ Nat.toDigits base n, isDigitIn base c = true := by
  intro c hc
  obtain ⟨d, hd, rfl⟩ := exists_digitChar hbase n c hc
  simp [isDigitIn, hexDigit?_digitChar d (Nat.lt_of_lt_of_le hd hle), hd]

end

theorem not_mem_of_isDigitIn {base : Nat} {cs : List Char}
    (h : ∀ c ∈ cs, isDigitIn base c = true) {c : Char} (hc : isDigitIn base c = false) : c ∉ cs := by
  intro hmem
  rw [h c hmem] at hc
  exact Bool.noConfusion hc

/-- Digits are read as far as they go. -/
theorem span_digits {base : Nat} {cs : List Char} (hcs : ∀ c ∈ cs, isDigitIn base c = true)
    (rest : List Char) (hrest : ∀ c ∈ rest.head?, isDigitIn base c = false) :
    (cs ++ rest).takeWhile (isDigitIn base) = cs ∧
      (cs ++ rest).dropWhile (isDigitIn base) = rest := by
  rw [List.takeWhile_append_of_pos hcs, List.dropWhile_append_of_pos hcs]
  cases rest with
  | nil => simp
  | cons c rest =>
    have hc : ¬ isDigitIn base c = true := by simp [hrest c rfl]
    rw [List.takeWhile_cons_of_neg hc, List.dropWhile_cons_of_neg hc, List.append_nil]
    exact ⟨rfl, rfl⟩

/-! ## Pieces -/

section

variable {separator : Char}

theorem splitFrom_eq (cs : List Char) :
    ∀ current, splitFrom separator current cs
      = (cs.splitOnPPrepend (· == separator) current).map String.ofList := by
  induction cs with
  | nil => intro current; simp [splitFrom]
  | cons c rest ih =>
    intro current
    unfold splitFrom
    split
    · next hc => simp [ih, hc, List.splitOnPPrepend_cons_pos]
    · next hc => rw [ih, List.splitOnPPrepend_cons_neg (by simpa using hc)]

/-- The pieces of a text are those of its characters. -/
theorem split_eq (cs : List Char) :
    split separator cs = (cs.splitOn separator).map String.ofList :=
  splitFrom_eq cs []

/-- The first piece goes as far as the first separator. -/
theorem split_append {piece : List Char} (h : separator ∉ piece) (rest : List Char) :
    split separator (piece ++ separator :: rest)
      = String.ofList piece :: split separator rest := by
  rw [split_eq, split_eq, List.splitOn_append_cons_self_of_not_mem h, List.map_cons]

/-- Behind the last separator there is a piece, though an empty one. -/
theorem split_flatMap_concat {pieces : List (List Char)} (h : ∀ piece ∈ pieces, separator ∉ piece) :
    split separator (pieces.flatMap (· ++ [separator])) = pieces.map String.ofList ++ [""] := by
  induction pieces with
  | nil => rfl
  | cons piece pieces ih =>
    obtain ⟨hpiece, hpieces⟩ := List.forall_mem_cons.mp h
    rw [List.flatMap_cons, List.append_assoc, List.singleton_append, split_append hpiece,
      ih hpieces]
    rfl

/-- **Splitting finds the pieces again**, if there are any. -/
theorem split_intercalate {pieces : List (List Char)} (hne : pieces ≠ [])
    (h : ∀ piece ∈ pieces, separator ∉ piece) :
    split separator ([separator].intercalate pieces) = pieces.map String.ofList := by
  rw [split_eq, List.splitOn_intercalate separator h hne]

/-- Pieces that can each be read are read one after the other. -/
theorem mapM_map_eq_some {ι α β : Type} (write : ι → β) (read : β → Option α) {meaning : ι → α}
    (h : ∀ i, read (write i) = some (meaning i)) (l : List ι) :
    (l.map write).mapM read = some (l.map meaning) := by
  have hread : read ∘ write = fun i => some (meaning i) := funext h
  rw [List.mapM_map, hread]
  exact List.mapM_pure

end

end TapeMachine.Text
