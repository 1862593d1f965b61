import Mathlib.Data.List.Intervals
import TapeMachine.Proofs.ShownCells
import TapeMachine.Proofs.SourceLines

/-!
# Listings

What the command `list` writes is read back here row by row (`readListing?`): each row has its marks,
a number and the text of a line. The rows are those of the lines around the current one, and at the
end of the program around the last one (`listing_shows_source`).

The text of a line may be anything, an arrow and a number too, but it holds no newline and stands
behind the rest of its row. So no row can be mistaken for another.
-/

namespace TapeMachine

/-! ## Rows -/

/-- What a row of a listing says. -/
structure ListedRow where
  arrow : Bool
  star : Bool
  number : Nat
  text : String
  deriving DecidableEq, Repr

namespace ListedRow

/-- Reads a row: two characters for the arrow, one for the star, a number behind blanks, two blanks
and the text. -/
def read? : List Char → Option ListedRow
  | a :: b :: c :: rest =>
    let numbered := rest.dropWhile (· = ' ')
    match numbered.dropWhile (Text.isDigitIn 10) with
    | ' ' :: ' ' :: text =>
      if (a, b) ∈ [('-', '>'), (' ', ' ')] ∧ c ∈ ['*', ' '] then
        some ⟨a = '-', c = '*', Text.valueIn 10 (numbered.takeWhile (Text.isDigitIn 10)),
          .ofList text⟩
      else none
    | _ => none
  | _ => none

/-- The characters of a row, but for its end. -/
def chars (r : ListedRow) : List Char :=
  (if r.arrow then ['-', '>'] else [' ', ' ']) ++ (if r.star then '*' else ' ') ::
    (List.replicate (4 - (Nat.toDigits 10 r.number).length) ' ' ++
      (Nat.toDigits 10 r.number ++ ' ' :: ' ' :: r.text.toList))

/-- Digits begin with no blank. -/
theorem dropWhile_toDigits (n : Nat) (rest : List Char) :
    (Nat.toDigits 10 n ++ rest).dropWhile (· = ' ') = Nat.toDigits 10 n ++ rest := by
  have hblank : ' ' ∉ Nat.toDigits 10 n :=
    Text.not_mem_of_isDigitIn (Snapshot.isDigitIn_of_mem_toDigits n) (by decide)
  cases hdigits : Nat.toDigits 10 n with
  | nil => exact absurd hdigits Nat.toDigits_ne_nil
  | cons c digits =>
    rw [hdigits, List.mem_cons, not_or] at hblank
    exact List.dropWhile_cons_of_neg (by simpa using Ne.symm hblank.1)

/-- **A row says what it is to say.** -/
theorem read?_chars (r : ListedRow) : read? r.chars = some r := by
  obtain ⟨arrow, star, number, text⟩ := r
  obtain ⟨hnumber, htext⟩ := Snapshot.read_toDigits number (' ' :: ' ' :: text.toList)
    (by simp; decide)
  cases arrow <;> cases star <;>
    simp [read?, chars, dropWhile_toDigits, hnumber, htext]

theorem newline_not_mem_chars {r : ListedRow} (h : OneLine r.text) : '\n' ∉ r.chars := by
  have hdigits : '\n' ∉ Nat.toDigits 10 r.number := newline_not_mem_toDigits (by decide) r.number
  have htext : '\n' ∉ r.text.toList := h
  have hblanks : ∀ count, '\n' ∉ List.replicate count ' ' := fun count hmem =>
    absurd (List.eq_of_mem_replicate hmem) (by decide)
  unfold chars
  cases r.arrow <;> cases r.star <;> simp [hdigits, htext]

end ListedRow

/-- Reads a listing, which is rows that are each ended. -/
def readListing? (text : String) : Option (List ListedRow) :=
  let rows := Text.split '\n' text.toList
  if rows.getLast? = some "" then rows.dropLast.mapM fun row => ListedRow.read? row.toList else none

/-- **A listing says what its rows are.** -/
theorem readListing?_join {rows : List ListedRow} (h : ∀ row ∈ rows, OneLine row.text) :
    readListing? (String.join (rows.map fun row => .ofList (row.chars ++ ['\n']))) = some rows := by
  have hchars : (String.join (rows.map fun row => .ofList (row.chars ++ ['\n']))).toList
      = (rows.map ListedRow.chars).flatMap (· ++ ['\n']) := by
    simp [String.toList_join, List.flatMap_map]
  have hread := Text.mapM_map_eq_some (fun row : ListedRow => String.ofList row.chars)
    (fun text => ListedRow.read? text.toList)
    (fun row => by rw [String.toList_ofList, ListedRow.read?_chars]) rows
  rw [readListing?, hchars, Text.split_flatMap_concat]
  · simp only [List.getLast?_append, List.getLast?_singleton, Option.some_or, List.dropLast_concat,
      List.map_map, Function.comp_def, hread, if_true, List.map_id']
  · intro piece hpiece
    obtain ⟨row, hrow, rfl⟩ := List.mem_map.mp hpiece
    exact ListedRow.newline_not_mem_chars (h row hrow)

example : readListing? "->*   1  +\n      2  \n"
    = some [⟨true, true, 1, "+"⟩, ⟨false, false, 2, ""⟩] := by decide +kernel

/-! ## The rows that are listed -/

/-- What the row of a line is to say. -/
def ListedRow.ofLine (d : Debugger) (n : Nat) : ListedRow where
  arrow := d.state.line = some n
  star := d.breakpoints.contains n
  number := n
  text := (textLines d.program.source).getD (n - 1) ""

/-- The line of the next instruction, none at the end of the program. -/
def Debugger.nextLine (d : Debugger) : Option Nat :=
  if d.state.pc < d.program.source.length then some (lineAt d.program.source d.state.pc) else none

/-- The rows show the source around the line of the next instruction, or around the last line. -/
structure Debugger.ShowsSource (d : Debugger) (rows : List ListedRow) : Prop where
  numbers : rows.map (·.number)
    = List.Ico (max 1 (d.nextLine.getD d.lineCount - 3))
        (min d.lineCount (d.nextLine.getD d.lineCount + 3) + 1)
  text : ∀ row ∈ rows, (textLines d.program.source)[row.number - 1]? = some row.text
  arrow : (rows.filter (·.arrow)).map (·.number) = d.nextLine.toList
  star : ∀ row ∈ rows, row.star = true ↔ row.number ∈ d.breakpoints

section

variable {d : Debugger}

theorem Debugger.Sound.line_eq (h : d.Sound) : d.state.line = d.nextLine := by
  have hline : d.state.line = d.program.line? d.state.pc := by
    obtain ⟨source, p, input, debug, maxSteps, s, hp, htracks, rfl⟩ := h.reached
    obtain ⟨c, hafter, hsnapshot, -⟩ := htracks.stands
    obtain ⟨command, hcommand⟩ := Config.exists_snapshotAfter hafter
    rw [hsnapshot, Option.some.injEq] at hcommand
    rw [hcommand, htracks.program_eq]
    rfl
  rw [hline, nextLine]
  split
  · next hpc => exact h.prepared.line?_eq _ hpc
  · next hpc => exact h.prepared.line?_end _ (Nat.le_of_not_lt hpc)

theorem Debugger.Sound.lineCount_pos (h : d.Sound) (hsource : d.program.source ≠ []) :
    0 < d.lineCount := by
  have hfirst := h.prepared.line?_eq 0 (List.length_pos_of_ne_nil hsource)
  obtain ⟨hone, hle⟩ := h.prepared.line?_bounds hfirst
  exact Nat.lt_of_lt_of_le hone hle

namespace Shell

theorem sourceLine_of_mem_listedLines (h : d.Sound) {n : Nat} (hn : n ∈ listedLines d) :
    d.sourceLine n = .ok (ListedRow.ofLine d n).text ∧
      (textLines d.program.source)[n - 1]? = some (ListedRow.ofLine d n).text := by
  obtain ⟨hone, hle⟩ := mem_listedLines hn
  obtain ⟨text, htext⟩ := exists_sourceLine hone (Nat.le_trans hle h.prepared.lineCount_le)
  obtain ⟨k, rfl⟩ := Nat.exists_eq_succ_of_ne_zero (Nat.ne_of_gt hone)
  have hline := Debugger.sourceLine_eq_ok_iff.mp htext
  have hrow : (ListedRow.ofLine d (k + 1)).text = text := by
    simp [ListedRow.ofLine, hline]
  exact ⟨hrow ▸ htext, hrow ▸ hline⟩

theorem listRow_eq (n : Nat) : listRow d n (ListedRow.ofLine d n).text
    = .ofList ((ListedRow.ofLine d n).chars ++ ['\n']) := by
  have hlength : n.repr.length = (Nat.toDigits 10 n).length := by
    rw [← String.length_toList, Nat.repr, String.toList_ofList]
  apply String.toList_inj.mp
  by_cases hline : d.state.line = some n <;> by_cases hstar : n ∈ d.breakpoints <;>
    simp [listRow, lineNumber, ListedRow.ofLine, ListedRow.chars, hline, hstar, hlength]

theorem mapM_eq_ok {α β ε : Type} {f : α → Except ε β} {g : α → β} {as : List α}
    (h : ∀ a ∈ as, f a = .ok (g a)) : as.mapM f = .ok (as.map g) := by
  induction as with
  | nil => rfl
  | cons a as ih =>
    obtain ⟨ha, hrest⟩ := List.forall_mem_cons.mp h
    rw [List.mapM_cons, ha, ih hrest]
    rfl

/-- There is a row for each of the lines to list. -/
theorem listing_eq (h : d.Sound) (hsource : d.program.source ≠ []) :
    listing d = .ok (String.join (((listedLines d).map (ListedRow.ofLine d)).map fun row =>
      .ofList (row.chars ++ ['\n']))) := by
  have hrows : (listedLines d).mapM
        (fun (n : Nat) => do let text ← d.sourceLine n; return listRow d n text)
      = .ok ((listedLines d).map fun n => .ofList ((ListedRow.ofLine d n).chars ++ ['\n'])) := by
    refine mapM_eq_ok fun n hn => ?_
    rw [(sourceLine_of_mem_listedLines h hn).1, ← listRow_eq]
    rfl
  rw [listing, if_neg (Nat.ne_of_gt (h.lineCount_pos hsource)), hrows, List.map_map]
  rfl

/-- The arrow stands at the line of the next instruction. -/
theorem filter_arrow (h : d.Sound) :
    (((listedLines d).map (ListedRow.ofLine d)).filter (·.arrow)).map (·.number)
      = d.state.line.toList := by
  rw [List.filter_map, List.map_map]
  show ((listedLines d).filter fun n => d.state.line = some n).map id = _
  rw [List.map_id]
  cases hline : d.state.line with
  | none => simp
  | some current =>
    obtain ⟨hone, hle⟩ := h.reached.line_bounds hline
    have hmem : current ∈ listedLines d := by
      simp only [listedLines, hline, Option.getD_some, List.mem_range'_1]
      omega
    have hnodup : (listedLines d).Nodup := List.nodup_range'
    simp only [Option.some.injEq, eq_comm (a := current)]
    rw [List.filter_eq, List.count_eq_one_of_mem hnodup hmem]
    rfl

theorem showsSource (h : d.Sound) :
    d.ShowsSource ((listedLines d).map (ListedRow.ofLine d)) where
  numbers := by
    rw [List.map_map, ← h.line_eq]
    exact List.map_id _
  text row hrow := by
    obtain ⟨n, hn, rfl⟩ := List.mem_map.mp hrow
    exact (sourceLine_of_mem_listedLines h hn).2
  arrow := h.line_eq ▸ filter_arrow h
  star row hrow := by
    obtain ⟨n, hn, rfl⟩ := List.mem_map.mp hrow
    exact List.contains_iff_mem

end Shell

end

/-- **A listing shows the source around the next instruction.** Whatever was done to a debugger of a
program that is not empty, and whatever the bytes of its source are, `list` answers with rows for
the lines from three before the current one to three after it, as far as there are such lines. The
arrow stands at the line of the next instruction alone, and there is none at the end of the
program. -/
theorem listing_shows_source {d : Debugger} (hd : d.Arises) (hsource : d.program.source ≠ [])
    {typed : String} {args : List String} (hasks : Shell.Asks typed .list args) (last : String) :
    ∃ text rows, Shell.execute ⟨d, last⟩ typed = (⟨d, typed⟩, .say text) ∧
      readListing? text = some rows ∧ d.ShowsSource rows := by
  have hsound := hd.sound
  have hlines : ∀ row ∈ (Shell.listedLines d).map (ListedRow.ofLine d), OneLine row.text := by
    intro row hrow
    obtain ⟨n, hn, rfl⟩ := List.mem_map.mp hrow
    exact oneLine_textLines _ _
      (List.mem_of_getElem? (Shell.sourceLine_of_mem_listedLines hsound hn).2)
  refine ⟨_, _, ?_, readListing?_join hlines, Shell.showsSource hsound⟩
  rw [Shell.execute_of_asks hasks, Shell.perform, Shell.doList, Shell.listing_eq hsound hsource]

/-- There is a breakpoint on the second of five lines, and the run is still on the first. The fifth
line is not listed. -/
theorem listing_of_five_lines :
    ∃ d : Debugger, d.Arises ∧ d.program.source ≠ [] ∧ Shell.Asks "L" .list [] ∧
      ∃ text rows, Shell.execute ⟨d, "step"⟩ "L" = (⟨d, "L"⟩, .say text) ∧
        readListing? text = some rows ∧ rows.map (·.number) = [1, 2, 3, 4] ∧
        (rows.filter (·.arrow)).map (·.number) = [1] ∧
        ∀ row ∈ rows, (row.star = true ↔ row.number = 2) ∧
          (row.number = 2 → row.text = "\uFFFD-") := by
  let source : List UInt8 := [0x2B, 0x0A, 0xFF, 0x2D, 0x0A, 0x0A, 0x0A, 0x2E]
  obtain ⟨p, hp, hcount⟩ : ∃ p, Program.prepare source = .ok p ∧ p.lineCount = 5 := ⟨_, rfl, rfl⟩
  obtain ⟨d₀, hd₀, hprogram, hnone, hpc⟩ : ∃ d₀ : Debugger, d₀.Arises ∧ d₀.program = p ∧
      d₀.breakpoints = [] ∧ d₀.state.pc = 0 :=
    ⟨.start p [] false 9 [], .new (by rw [Debugger.ofSource, hp]), rfl, rfl, rfl⟩
  have hset : ((Session.ofDebugger d₀).call (.setBreakpoint 2)).debugger
      = { d₀ with breakpoints := [2] } := by
    have hline : (1 : Int) ≤ 2 ∧ (2 : Int) ≤ d₀.lineCount := by
      rw [Debugger.lineCount, hprogram, hcount]
      decide
    simp only [Session.call, Session.ofDebugger, Debugger.setBreakpoint, if_pos hline, hnone]
    rfl
  have hd : Debugger.Arises { d₀ with breakpoints := [2] } := hset ▸ .called hd₀ (.setBreakpoint 2)
  have hasks : Shell.Asks "L" .list [] := by
    refine ⟨"L", by decide +kernel, .inr ⟨by decide +kernel, fun c hc => ?_⟩⟩
    cases c <;> first | rfl | exact absurd hc (by decide +kernel)
  have hbytes : d₀.program.source = source := hprogram ▸ Program.source_of_prepare hp
  have hne : d₀.program.source ≠ [] := by rw [hbytes]; exact List.cons_ne_nil _ _
  obtain ⟨text, rows, hexecute, hread, hshows⟩ := listing_shows_source hd hne hasks "step"
  have hnext : Debugger.nextLine { d₀ with breakpoints := [2] } = some 1 := by
    rw [Debugger.nextLine, hbytes, hpc]
    rfl
  have hlineCount : Debugger.lineCount { d₀ with breakpoints := [2] } = 5 := by
    rw [Debugger.lineCount, hprogram, hcount]
  have hnumbers := hshows.numbers
  have harrow := hshows.arrow
  rw [hnext] at harrow
  rw [hnext, hlineCount] at hnumbers
  refine ⟨_, hd, hne, hasks, text, rows, hexecute, hread, hnumbers, harrow,
    fun row hrow => ⟨?_, ?_⟩⟩
  · rw [hshows.star row hrow, List.mem_singleton]
  · intro htwo
    have htext := hshows.text row hrow
    rw [hbytes, htwo] at htext
    have hline : (textLines source)[1]? = some "\uFFFD-" := by cbv
    exact Option.some.inj (htext.symm.trans hline)

end TapeMachine
