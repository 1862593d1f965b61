import TapeMachine.Machine.Snapshot
import TapeMachine.Proofs.Reading

/-!
# The cells in a text

The cells around the pointer are shown in two texts, a dump and the summary of a state. Both are read
back here: each cell has its index and its value, and may be marked.

* `Dump.read?_render`: what a dump says are the cells in the window around the pointer
* `Snapshot.readCells?_summary`: what a summary says are the cells of the state
-/

namespace TapeMachine

/-- A cell as a text shows it. -/
structure ShownCell where
  index : Nat
  value : Nat
  marked : Bool
  deriving DecidableEq, Repr

namespace Dump

/-! ## The rows of a dump -/

/-- What a row says of a cell. -/
structure Entry where
  index : Nat
  /-- The value that is written in decimal. -/
  decimal : Nat
  /-- The value that is written in hexadecimal. -/
  hexadecimal : Nat
  marked : Bool
  deriving DecidableEq, Repr

/-- What the row of a cell is to say. -/
def Entry.ofCell (cell : ShownCell) : Entry := ⟨cell.index, cell.value, cell.value, cell.marked⟩

/-- Reads a row. -/
def Entry.read? (line : List Char) : Option Entry :=
  match line.dropWhile (Text.isDigitIn 10) with
  | ':' :: ' ' :: values =>
    match values.dropWhile (Text.isDigitIn 10) with
    | '|' :: '0' :: 'x' :: digits =>
      let entry := Entry.mk (Text.valueIn 10 (line.takeWhile (Text.isDigitIn 10)))
        (Text.valueIn 10 (values.takeWhile (Text.isDigitIn 10)))
        (Text.valueIn 16 (digits.takeWhile (Text.isDigitIn 16)))
      match digits.dropWhile (Text.isDigitIn 16) with
      | [] => some (entry false)
      | [' ', '<'] => some (entry true)
      | _ => none
    | _ => none
  | _ => none

/-- The characters of a row, but for its end. -/
def rowChars (index : Nat) (value : UInt8) (marked : Bool) : List Char :=
  (numeral 10 5 index).toList ++ ':' :: ' ' :: ((numeral 10 3 value.toNat).toList ++
    '|' :: '0' :: 'x' :: ((numeral 16 2 value.toNat).toList ++ if marked then [' ', '<'] else []))

theorem toList_row (index : Nat) (value : UInt8) (marked : Bool) :
    (row index value marked).toList = rowChars index value marked ++ ['\n'] := by
  cases marked <;> simp [row, rowChars]

section

variable {base : Nat}

theorem isDigitIn_of_mem_numeral (hbase : 1 < base) (hle : base ≤ 16) (width n : Nat) :
    ∀ c ∈ (numeral base width n).toList, Text.isDigitIn base c = true := by
  rw [numeral, String.toList_ofList]
  exact Text.isDigitIn_of_mem_digits hbase
    (fun d hd => Text.hexDigit?_toUpper_digitChar d (Nat.lt_of_lt_of_le hd hle)) width n

/-- A numeral is read up to where it ends. -/
theorem read_numeral (hbase : 1 < base) (hle : base ≤ 16) (width n : Nat) (rest : List Char)
    (hrest : ∀ c ∈ rest.head?, Text.isDigitIn base c = false) :
    Text.valueIn base (((numeral base width n).toList ++ rest).takeWhile (Text.isDigitIn base)) = n ∧
      ((numeral base width n).toList ++ rest).dropWhile (Text.isDigitIn base) = rest := by
  obtain ⟨htake, hdrop⟩ := Text.span_digits (isDigitIn_of_mem_numeral hbase hle width n) rest hrest
  refine ⟨?_, hdrop⟩
  rw [htake, numeral, String.toList_ofList]
  exact Text.valueIn_map_digits hbase
    (fun d hd => Text.hexDigit?_toUpper_digitChar d (Nat.lt_of_lt_of_le hd hle)) width n

end

/-- **A row says what it is to say.** -/
theorem read?_rowChars (index : Nat) (value : UInt8) (marked : Bool) :
    Entry.read? (rowChars index value marked) = some (.ofCell ⟨index, value.toNat, marked⟩) := by
  have hmark : ∀ c ∈ (if marked then [' ', '<'] else []).head?, Text.isDigitIn 16 c = false := by
    cases marked with
    | true => simp; decide
    | false => simp
  -- the line is read from its start on, each numeral up to the character behind it
  obtain ⟨hindex, hcolon⟩ := read_numeral (show 1 < 10 by decide) (by decide) 5 index
    (':' :: ' ' :: ((numeral 10 3 value.toNat).toList ++ '|' :: '0' :: 'x' ::
      ((numeral 16 2 value.toNat).toList ++ if marked then [' ', '<'] else []))) (by simp; decide)
  obtain ⟨hdecimal, hbar⟩ := read_numeral (show 1 < 10 by decide) (by decide) 3 value.toNat
    ('|' :: '0' :: 'x' :: ((numeral 16 2 value.toNat).toList ++
      if marked then [' ', '<'] else [])) (by simp; decide)
  obtain ⟨hhexadecimal, hend⟩ := read_numeral (by decide) (by decide) 2 value.toNat _ hmark
  simp only [Entry.read?, rowChars, hindex, hcolon, hdecimal, hbar, hhexadecimal, hend]
  cases marked <;> rfl

theorem newline_not_mem_rowChars (index : Nat) (value : UInt8) (marked : Bool) :
    '\n' ∉ rowChars index value marked := by
  have hten := fun width n => Text.not_mem_of_isDigitIn (c := '\n')
    (isDigitIn_of_mem_numeral (show 1 < 10 by decide) (by decide) width n) (by decide)
  have hsixteen := fun width n => Text.not_mem_of_isDigitIn (c := '\n')
    (isDigitIn_of_mem_numeral (show 1 < 16 by decide) (by decide) width n) (by decide)
  cases marked <;> simp [rowChars, hten, hsixteen]

/-! ## A whole dump -/

/-- Reads a dump: its first line, and rows that are each ended. -/
def read? (text : String) : Option (List Entry) :=
  match Text.split '\n' text.toList with
  | [] => none
  | first :: rows =>
    if first ++ "\n" = header ∧ rows.getLast? = some "" then
      rows.dropLast.mapM fun row => Entry.read? row.toList
    else none

/-- The cells of a tape in the window around a pointer, which may lie off the tape. -/
def cells (tape : Array UInt8) (pointer : Int) : List ShownCell :=
  (Window.around pointer tape.size).indices.map fun i =>
    ⟨i, (tape[i]?.getD 0).toNat, i == pointer⟩

theorem toList_foldl_row (tape : Array UInt8) (pointer : Int) (indices : List Nat) :
    ∀ text : String,
      (indices.foldl (fun text i => text ++ row i (tape[i]?.getD 0) (i == pointer)) text).toList
        = text.toList ++ (indices.map fun i =>
            rowChars i (tape[i]?.getD 0) (i == pointer)).flatMap (· ++ ['\n']) := by
  induction indices with
  | nil => intro text; simp
  | cons i indices ih =>
    intro text
    rw [List.foldl_cons, ih, String.toList_append, toList_row, List.map_cons, List.flatMap_cons,
      List.append_assoc]

theorem split_render (tape : Array UInt8) (pointer : Int) :
    Text.split '\n' (render tape pointer).toList
      = " CELL  VALUE (dec|hex)" ::
        ((Window.around pointer tape.size).indices.map fun i =>
          String.ofList (rowChars i (tape[i]?.getD 0) (i == pointer))) ++ [""] := by
  have hheader : header.toList = " CELL  VALUE (dec|hex)".toList ++ ['\n'] := by decide
  rw [render, toList_foldl_row, hheader, List.append_assoc, List.singleton_append,
    Text.split_append (by decide), Text.split_flatMap_concat, List.map_map]
  · rw [String.ofList_toList]
    rfl
  · intro piece hpiece
    obtain ⟨i, -, rfl⟩ := List.mem_map.mp hpiece
    exact newline_not_mem_rowChars _ _ _

/-- **A dump says what it is to say.** -/
theorem read?_render (tape : Array UInt8) (pointer : Int) :
    read? (render tape pointer) = some ((cells tape pointer).map .ofCell) := by
  have hrows := Text.mapM_map_eq_some
    (fun i : Nat => String.ofList (rowChars i (tape[i]?.getD 0) (i == pointer)))
    (fun row => Entry.read? row.toList)
    (fun i => by rw [String.toList_ofList, read?_rowChars])
    (Window.around pointer tape.size).indices
  rw [read?, split_render]
  simp only [List.cons_append, List.getLast?_append, List.getLast?_singleton, Option.some_or,
    List.dropLast_concat, hrows, cells, List.map_map]
  exact if_pos ⟨by decide, trivial⟩

end Dump

/-! ## The cells of a summary -/

namespace Snapshot

/-- The cells that a state shows. -/
def shownCells (s : Snapshot) : List ShownCell :=
  s.cells.mapIdx fun i value => ⟨s.cellsStart + i, value.toNat, s.cellsStart + i == s.pointer⟩

/-- Reads the value of a cell, and whether it is in brackets. -/
def readCell? : List Char → Option (Nat × Bool)
  | '[' :: rest =>
    if rest.dropWhile (Text.isDigitIn 10) = [']'] then
      some (Text.valueIn 10 (rest.takeWhile (Text.isDigitIn 10)), true)
    else none
  | text =>
    if text ≠ [] ∧ text.dropWhile (Text.isDigitIn 10) = [] then
      some (Text.valueIn 10 (text.takeWhile (Text.isDigitIn 10)), false)
    else none

/-- Reads the cells of a summary, which stand behind the index of the first one. -/
def readCells? (text : String) : Option (List ShownCell) :=
  let shown := (text.toList.dropWhile (· ≠ '@')).drop 1
  let start := Text.valueIn 10 (shown.takeWhile (Text.isDigitIn 10))
  match shown.dropWhile (Text.isDigitIn 10) with
  | ':' :: ' ' :: cells =>
    ((Text.split ' ' cells).mapM fun cell => readCell? cell.toList).map
      (·.mapIdx fun i (value, marked) => ⟨start + i, value, marked⟩)
  | _ => none

/-- The characters of a cell in a summary. -/
def cellChars (value : Nat) (marked : Bool) : List Char :=
  if marked then '[' :: (Nat.toDigits 10 value ++ [']']) else Nat.toDigits 10 value

theorem isDigitIn_of_mem_toDigits (n : Nat) :
    ∀ c ∈ Nat.toDigits 10 n, Text.isDigitIn 10 c = true :=
  Text.isDigitIn_of_mem_toDigits (by decide) (by decide) n

theorem read_toDigits (n : Nat) (rest : List Char)
    (hrest : ∀ c ∈ rest.head?, Text.isDigitIn 10 c = false) :
    Text.valueIn 10 ((Nat.toDigits 10 n ++ rest).takeWhile (Text.isDigitIn 10)) = n ∧
      (Nat.toDigits 10 n ++ rest).dropWhile (Text.isDigitIn 10) = rest := by
  obtain ⟨htake, hdrop⟩ := Text.span_digits (isDigitIn_of_mem_toDigits n) rest hrest
  refine ⟨?_, hdrop⟩
  rw [htake]
  exact Text.valueIn_toDigits (by decide) (by decide) n

theorem not_mem_cellChars (value : Nat) (marked : Bool) : ' ' ∉ cellChars value marked := by
  have hdigits := Text.not_mem_of_isDigitIn (c := ' ') (isDigitIn_of_mem_toDigits value) (by decide)
  cases marked <;> simp [cellChars, hdigits]

/-- **The value of a cell and its mark can be told.** -/
theorem readCell?_cellChars (value : Nat) (marked : Bool) :
    readCell? (cellChars value marked) = some (value, marked) := by
  cases marked with
  | true =>
    obtain ⟨hvalue, hend⟩ := read_toDigits value [']'] (by simp; decide)
    simp only [cellChars, if_true, readCell?, hvalue, hend]
  | false =>
    obtain ⟨hvalue, hend⟩ := read_toDigits value [] (by simp)
    rw [List.append_nil] at hvalue hend
    have hne : Nat.toDigits 10 value ≠ [] := Nat.toDigits_ne_nil
    simp only [cellChars, Bool.false_eq_true, if_false]
    rw [readCell?]
    · rw [if_pos ⟨hne, hend⟩, hvalue]
    · rintro rest hrest
      have hbracket : '[' ∈ Nat.toDigits 10 value := by
        rw [hrest]
        exact List.mem_cons_self
      exact absurd (isDigitIn_of_mem_toDigits value '[' hbracket) (by decide)

/-- The characters of all cells in a summary. -/
def cellsChars (s : Snapshot) : List Char :=
  [' '].intercalate (s.shownCells.map fun cell => cellChars cell.value cell.marked)

/-- A number is written by its digits. -/
theorem toList_repr_natCast (n : Nat) : (n : Int).repr.toList = Nat.toDigits 10 n := by
  show n.repr.toList = _
  simp

theorem toList_cellsText (s : Snapshot) :
    (cellsText s.pointer s.cellsStart (s.cells.map fun b => Int.ofNat b.toNat)).toList
      = s.cellsChars := by
  have htexts : ∀ value index : Nat,
      (if (index : Int) = s.pointer then s!"[{(value : Int)}]" else toString (value : Int)).toList
        = cellChars value (index == s.pointer) := by
    intro value index
    by_cases h : index = s.pointer
    · simp [toString, toList_repr_natCast, cellChars, h]
    · rw [if_neg (mt Int.ofNat_inj.mp h)]
      simp [toList_repr_natCast, cellChars, h]
  rw [cellsText, String.toList_intercalate, cellsChars, shownCells, List.mapIdx_eq_zipIdx_map,
    List.zipIdx_map]
  simp only [List.map_map]
  congr 2
  funext b
  exact htexts b.1.toNat (s.cellsStart + b.2)

/-- Splitting the text of the cells gives that of each one. There has to be one, since the text of
none is split into one piece, which is empty. -/
theorem split_cellsChars (s : Snapshot) (h : s.cells ≠ []) :
    Text.split ' ' s.cellsChars
      = s.shownCells.map fun cell => String.ofList (cellChars cell.value cell.marked) := by
  rw [cellsChars, Text.split_intercalate, List.map_map]
  · rfl
  · simpa [shownCells] using h
  · intro piece hpiece
    obtain ⟨cell, -, rfl⟩ := List.mem_map.mp hpiece
    exact not_mem_cellChars _ _

/-- What a summary starts with. -/
def heading (s : Snapshot) : String :=
  let place := match s.line with
    | some n => s!"line {(n : Int)}"
    | none => "end"
  s!"step {(s.step : Int)} | {place} | pc {(s.pc : Int)} | ptr {(s.pointer : Int)} | cells"

theorem not_mem_heading (s : Snapshot) : '@' ∉ s.heading.toList := by
  have hdigits := fun n => Text.not_mem_of_isDigitIn (c := '@') (isDigitIn_of_mem_toDigits n)
    (by decide)
  unfold heading
  cases s.line <;> simp [toString, toList_repr_natCast, hdigits]

theorem toList_summary (s : Snapshot) :
    s.summary.toList = s.heading.toList
      ++ '@' :: (Nat.toDigits 10 s.cellsStart ++ ':' :: ' ' :: s.cellsChars) := by
  rw [← toList_cellsText]
  unfold summary summaryOf heading
  cases s.line <;> simp [toString, toList_repr_natCast]

/-- The first `@` of a summary stands before the index of the first cell. -/
theorem drop_summary (s : Snapshot) :
    (s.summary.toList.dropWhile (· ≠ '@')).drop 1
      = Nat.toDigits 10 s.cellsStart ++ ':' :: ' ' :: s.cellsChars := by
  have hheading : ∀ c ∈ s.heading.toList, decide (c ≠ '@') = true := by
    intro c hc
    exact decide_eq_true (ne_of_mem_of_not_mem hc s.not_mem_heading)
  rw [toList_summary, List.dropWhile_append_of_pos hheading]
  rfl

/-- The indices of the cells count from that of the first one on. -/
theorem mapIdx_shownCells (s : Snapshot) :
    (s.shownCells.map fun cell => (cell.value, cell.marked)).mapIdx
      (fun i (value, marked) => ShownCell.mk (s.cellsStart + i) value marked) = s.shownCells := by
  refine List.ext_getElem (by simp) (fun i hi hi' => ?_)
  simp [shownCells]

/-- **A summary says what the cells are.** -/
theorem readCells?_summary (s : Snapshot) (h : s.cells ≠ []) :
    readCells? s.summary = some s.shownCells := by
  obtain ⟨hstart, hcells⟩ := read_toDigits s.cellsStart (':' :: ' ' :: s.cellsChars)
    (by simp; decide)
  have hread := Text.mapM_map_eq_some
    (fun cell : ShownCell => String.ofList (cellChars cell.value cell.marked))
    (fun text => readCell? text.toList)
    (fun cell => by rw [String.toList_ofList, readCell?_cellChars]) s.shownCells
  simp only [readCells?, drop_summary, hstart, hcells, split_cellsChars s h, hread,
    Option.map_some]
  exact congrArg some s.mapIdx_shownCells

end Snapshot

end TapeMachine
