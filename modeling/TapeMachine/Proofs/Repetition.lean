import Mathlib.Data.List.DropRight
import TapeMachine.Proofs.Shell

/-!
# Repeating the last command

A blank line stands for the nearest line before it that asks for a command, whatever came of that
command. So blank lines may be written out beforehand (`Shell.writtenOut`), by looking at the lines
alone, and the shell then says and does the same.

A shell keeps the line as `lastCommand`, without the blanks at its ends, and reads the same words in it
(`Text.words_trim`). That this is the line which `Shell.repeated` finds is what every line keeps
(`Shell.Recalls.submit`).
-/

namespace TapeMachine

/-! ## Blanks at the ends of a text -/

namespace Text

theorem trim_eq_rdropWhile (cs : List Char) :
    trim cs = (cs.dropWhile isBlank).rdropWhile isBlank := rfl

theorem trim_eq_nil_iff {cs : List Char} : trim cs = [] ↔ ∀ c ∈ cs, isBlank c = true := by
  rw [trim_eq_rdropWhile, List.rdropWhile_eq_nil_iff, ← List.dropWhile_eq_nil_iff,
    List.dropWhile_idempotent, List.dropWhile_eq_nil_iff]

theorem trim_trim (cs : List Char) : trim (trim cs) = trim cs := by
  have hstart : (trim cs).dropWhile isBlank = trim cs := by
    cases htrim : trim cs with
    | nil => rfl
    | cons c rest =>
      obtain ⟨after, hafter⟩ := List.rdropWhile_prefix isBlank (cs.dropWhile isBlank)
      rw [← trim_eq_rdropWhile, htrim] at hafter
      have hc := List.head?_dropWhile_not isBlank cs
      rw [← hafter] at hc
      exact List.dropWhile_cons_of_neg (by simp [show isBlank c = false from hc])
  rw [trim_eq_rdropWhile (trim cs), hstart]
  exact List.rdropWhile_idempotent isBlank (cs.dropWhile isBlank)

/-- Blanks at the end of a text end the last word, as the end of the text does. -/
theorem wordsFrom_append_blanks {blanks : List Char} (h : ∀ c ∈ blanks, isBlank c = true)
    (cs : List Char) :
    ∀ current, wordsFrom current (cs ++ blanks) = wordsFrom current cs := by
  induction cs with
  | nil =>
    intro current
    cases blanks with
    | nil => rfl
    | cons c rest =>
      obtain ⟨hc, hrest⟩ := List.forall_mem_cons.mp h
      have hnone : wordsFrom [] rest = [] := Shell.words_of_blank hrest
      simp only [List.nil_append, wordsFrom, hc, if_true, hnone]
  | cons c cs ih =>
    intro current
    simp only [List.cons_append, wordsFrom, ih]

theorem words_dropWhile (cs : List Char) : words (cs.dropWhile isBlank) = words cs := by
  induction cs with
  | nil => rfl
  | cons c rest ih =>
    by_cases hc : isBlank c = true
    · rw [List.dropWhile_cons_of_pos hc, ih]
      simp [words, wordsFrom, hc]
    · rw [List.dropWhile_cons_of_neg hc]

/-- **The blanks at the ends do not matter to the words of a text.** -/
theorem words_trim (cs : List Char) : words (trim cs) = words cs := by
  have hends : cs.dropWhile isBlank
      = trim cs ++ (cs.dropWhile isBlank).rtakeWhile isBlank :=
    List.rdropWhile_append_rtakeWhile.symm
  rw [← words_dropWhile cs, hends, words, words]
  exact (wordsFrom_append_blanks (fun c hc => List.mem_rtakeWhile_imp hc) (trim cs) []).symm

end Text

namespace Shell

/-! ## Writing out blank lines -/

/-- There are only blanks in a line. -/
def IsBlankLine (line : String) : Prop := ∀ c ∈ line.toList, Text.isBlank c = true

instance : DecidablePred IsBlankLine :=
  fun line => decidable_of_iff (line.toList.all Text.isBlank = true) List.all_eq_true

/-- A line asks for some command, which may refuse its argument. -/
def IsCommandLine (line : String) : Prop := ∃ c args, Asks line c args

/-- A line asks the shell to end. -/
def Quits (line : String) : Prop := ∃ args, Asks line .quit args

/-- The command that a request is for, if it is for one. -/
def Request.command? : Request → Option Command
  | .command c _ => some c
  | _ => none

theorem command?_ofLine_eq_some_iff {line : String} {c : Command} :
    (Request.ofLine line).command? = some c ↔ ∃ args, Asks line c args := by
  simp only [← ofLine_eq_command_iff]
  cases Request.ofLine line <;> simp [Request.command?]

theorem isSome_command?_ofLine_iff {line : String} :
    (Request.ofLine line).command?.isSome = true ↔ IsCommandLine line := by
  simp only [Option.isSome_iff_exists, command?_ofLine_eq_some_iff, IsCommandLine]

instance : DecidablePred IsCommandLine := fun _ => decidable_of_iff _ isSome_command?_ofLine_iff

instance : DecidablePred Quits := fun _ => decidable_of_iff _ command?_ofLine_eq_some_iff

/-- A line without the blanks at its ends. -/
def stripped (line : String) : String := String.ofList (Text.trim line.toList)

/-- What a blank line after the lines `earlier` stands for: the last of them that asks for a command,
or `step` if there is none. -/
def repeated (earlier : List String) : String :=
  ((earlier.filter IsCommandLine).getLast?.map stripped).getD Command.step.name

/-- The lines, with what it stands for in the place of every blank one. -/
def writtenOut (lines : List String) : List String :=
  lines.mapIdx fun i line => if IsBlankLine line then repeated (lines.take i) else line

/-- The lines that follow on `earlier`, with what it stands for in the place of every blank one. -/
def writtenOutAfter (earlier lines : List String) : List String :=
  lines.mapIdx fun i line => if IsBlankLine line then repeated (earlier ++ lines.take i) else line

theorem writtenOutAfter_cons (earlier : List String) (line : String) (rest : List String) :
    writtenOutAfter earlier (line :: rest)
      = (if IsBlankLine line then repeated earlier else line)
        :: writtenOutAfter (earlier ++ [line]) rest := by
  simp [writtenOutAfter, List.mapIdx_cons]

theorem asks_stripped_iff {line : String} {c : Command} {args : List String} :
    Asks (stripped line) c args ↔ Asks line c args := by
  simp only [Asks, stripped, String.toList_ofList, Text.words_trim]

theorem isCommandLine_stripped_iff {line : String} :
    IsCommandLine (stripped line) ↔ IsCommandLine line := by
  simp only [IsCommandLine, asks_stripped_iff]

theorem not_isCommandLine_of_isBlankLine {line : String} (h : IsBlankLine line) :
    ¬ IsCommandLine line := by
  rintro ⟨c, args, hasks⟩
  exact not_asks_of_blank h c args hasks

theorem repeated_concat_of_isCommandLine (earlier : List String) {line : String}
    (h : IsCommandLine line) : repeated (earlier ++ [line]) = stripped line := by
  simp [repeated, h]

theorem repeated_concat_of_not_isCommandLine (earlier : List String) {line : String}
    (h : ¬ IsCommandLine line) : repeated (earlier ++ [line]) = repeated earlier := by
  simp [repeated, h]

/-! ## The line that is executed -/

theorem effectiveLine_of_isBlankLine (s : Shell) {line : String} (h : IsBlankLine line) :
    s.effectiveLine line = s.lastCommand := by
  unfold effectiveLine
  rw [Text.trim_eq_nil_iff.mpr h]

theorem effectiveLine_of_not_isBlankLine (s : Shell) {line : String} (h : ¬ IsBlankLine line) :
    s.effectiveLine line = stripped line := by
  unfold effectiveLine stripped
  split
  · next hnil => exact absurd (Text.trim_eq_nil_iff.mp hnil) h
  · rfl

theorem repeated_cases (earlier : List String) :
    repeated earlier = Command.step.name ∨
      ∃ line, IsCommandLine line ∧ repeated earlier = stripped line := by
  unfold repeated
  cases hlast : (earlier.filter IsCommandLine).getLast? with
  | none => exact Or.inl rfl
  | some line =>
    have hmem := List.mem_filter.mp (List.mem_of_getLast? hlast)
    exact Or.inr ⟨line, of_decide_eq_true hmem.2, rfl⟩

/-- What a blank line stands for is executed as it is. -/
theorem effectiveLine_repeated (s : Shell) (earlier : List String) :
    s.effectiveLine (repeated earlier) = repeated earlier := by
  rcases repeated_cases earlier with h | ⟨line, hline, h⟩
  · rw [h, effectiveLine_of_not_isBlankLine s (by decide)]
    decide
  · have hcommand := isCommandLine_stripped_iff.mpr hline
    have hblank : ¬ IsBlankLine (stripped line) :=
      fun hblank => not_isCommandLine_of_isBlankLine hblank hcommand
    rw [h, effectiveLine_of_not_isBlankLine s hblank]
    simp only [stripped, String.toList_ofList, Text.trim_trim]

theorem lastCommand_execute (s : Shell) (line : String) :
    (s.execute line).1.lastCommand = if IsCommandLine line then line else s.lastCommand := by
  by_cases h : IsCommandLine line
  · obtain ⟨c, args, hasks⟩ := id h
    rw [if_pos h, execute_of_asks hasks]
    split <;> rfl
  · rw [if_neg h, (execute_of_not_asks fun c args hasks => h ⟨c, args, hasks⟩).1]

/-! ## One line -/

section

variable {s : Shell} {earlier : List String}

/-- **A blank line may be written out.** -/
theorem submit_repeated (h : s.lastCommand = repeated earlier) (line : String) :
    s.submit (if IsBlankLine line then repeated earlier else line) = s.submit line := by
  by_cases hblank : IsBlankLine line
  · rw [if_pos hblank, submit, submit, effectiveLine_repeated,
      effectiveLine_of_isBlankLine s hblank, h]
  · rw [if_neg hblank]

/-- **Every line keeps what a blank one would stand for.** -/
theorem lastCommand_submit (h : s.lastCommand = repeated earlier) (line : String) :
    (s.submit line).1.lastCommand = repeated (earlier ++ [line]) := by
  rw [submit, lastCommand_execute]
  by_cases hblank : IsBlankLine line
  · rw [repeated_concat_of_not_isCommandLine earlier (not_isCommandLine_of_isBlankLine hblank),
      effectiveLine_of_isBlankLine s hblank, ite_self, h]
  · rw [effectiveLine_of_not_isBlankLine s hblank]
    by_cases hcommand : IsCommandLine line
    · rw [repeated_concat_of_isCommandLine earlier hcommand,
        if_pos (isCommandLine_stripped_iff.mpr hcommand)]
    · rw [repeated_concat_of_not_isCommandLine earlier hcommand,
        if_neg (mt isCommandLine_stripped_iff.mp hcommand), h]

end

/-! ## Any lines -/

theorem loop_cons (s : Shell) (line : String) (rest : List String) :
    s.loop (line :: rest) = ⟨(s.submit line).1, (s.submit line).2⟩ ::
      if (s.submit line).2.more then (s.submit line).1.loop rest else [] := by
  rw [loop]

/-- **Blank lines may be written out**, wherever they are among the lines. -/
theorem loop_writtenOutAfter (lines : List String) :
    ∀ {s : Shell} {earlier : List String}, s.lastCommand = repeated earlier →
      s.loop (writtenOutAfter earlier lines) = s.loop lines := by
  induction lines with
  | nil => intro s earlier _; rfl
  | cons line rest ih =>
    intro s earlier h
    rw [writtenOutAfter_cons, loop_cons, loop_cons, submit_repeated h, ih (lastCommand_submit h line)]

/-! ## The line that ends the shell -/

section

variable {s : Shell}

theorem not_quits_of_isBlankLine {line : String} (h : IsBlankLine line) : ¬ Quits line := by
  rintro ⟨args, hasks⟩
  exact not_asks_of_blank h .quit args hasks

theorem more_submit_iff (h : ¬ Quits s.lastCommand) (line : String) :
    (s.submit line).2.more = false ↔ Quits line := by
  rw [submit, more_execute_iff]
  by_cases hblank : IsBlankLine line
  · rw [effectiveLine_of_isBlankLine s hblank]
    exact iff_of_false h (not_quits_of_isBlankLine hblank)
  · simp only [effectiveLine_of_not_isBlankLine s hblank, asks_stripped_iff, Quits]

/-- No blank line after a line that the shell goes on after ends it. -/
theorem not_quits_lastCommand_submit (h : ¬ Quits s.lastCommand) {line : String}
    (hline : ¬ Quits line) : ¬ Quits (s.submit line).1.lastCommand := by
  rw [submit, lastCommand_execute]
  by_cases hblank : IsBlankLine line
  · rwa [effectiveLine_of_isBlankLine s hblank, ite_self]
  · rw [effectiveLine_of_not_isBlankLine s hblank]
    split
    · simpa only [Quits, asks_stripped_iff] using hline
    · exact h

theorem loop_cons_of_quits (h : ¬ Quits s.lastCommand) {line : String} (hline : Quits line)
    (rest : List String) : s.loop (line :: rest) = [⟨(s.submit line).1, (s.submit line).2⟩] := by
  rw [loop_cons, (more_submit_iff h line).mpr hline, if_neg Bool.false_ne_true]

theorem loop_cons_of_not_quits (h : ¬ Quits s.lastCommand) {line : String} (hline : ¬ Quits line)
    (rest : List String) :
    s.loop (line :: rest)
      = ⟨(s.submit line).1, (s.submit line).2⟩ :: (s.submit line).1.loop rest := by
  have hmore : (s.submit line).2.more = true :=
    Bool.eq_true_of_not_eq_false (mt (more_submit_iff h line).mp hline)
  rw [loop_cons, hmore, if_pos rfl]

end

/-- Without a line that ends the shell, all lines are read. -/
theorem length_loop_of_not_quits (lines : List String) :
    ∀ {s : Shell}, ¬ Quits s.lastCommand → (∀ line ∈ lines, ¬ Quits line) →
      (s.loop lines).length = lines.length := by
  induction lines with
  | nil => intro s _ _; rfl
  | cons line rest ih =>
    intro s h hlines
    obtain ⟨hline, hrest⟩ := List.forall_mem_cons.mp hlines
    rw [loop_cons_of_not_quits h hline, List.length_cons, List.length_cons,
      ih (not_quits_lastCommand_submit h hline) hrest]

/-- Behind the first line that ends the shell no line is read. -/
theorem loop_append_quits (before : List String) {line : String} (hline : Quits line) :
    ∀ {s : Shell}, ¬ Quits s.lastCommand → (∀ l ∈ before, ¬ Quits l) →
      ∃ turns, turns.length = before.length + 1 ∧
        ∀ after, s.loop (before ++ line :: after) = turns := by
  induction before with
  | nil =>
    intro s h _
    exact ⟨_, rfl, fun after => loop_cons_of_quits h hline after⟩
  | cons first rest ih =>
    intro s h hbefore
    obtain ⟨hfirst, hrest⟩ := List.forall_mem_cons.mp hbefore
    obtain ⟨turns, hlength, hturns⟩ := ih (not_quits_lastCommand_submit h hfirst) hrest
    refine ⟨⟨(s.submit first).1, (s.submit first).2⟩ :: turns,
      by rw [List.length_cons, List.length_cons, hlength], fun after => ?_⟩
    rw [List.cons_append, loop_cons_of_not_quits h hfirst, hturns after]

/-! ## What can be seen of a shell -/

/-- What comes of a shell that is given lines until they or the shell end. -/
structure Transcript where
  out : String
  err : String
  /-- The debugger at the end. -/
  debugger : Debugger
  /-- The last command at the end. -/
  lastCommand : String
  /-- The number of lines that were read. -/
  linesRead : Nat

/-- Gives lines to a shell. -/
def transcript (s : Shell) (lines : List String) : Transcript :=
  let turns := s.loop lines
  let last := (turns.getLast?.map Turn.shell).getD s
  { out := s.greeting ++ String.join (turns.map (·.reply.out))
    err := String.join (turns.map (·.reply.err))
    debugger := last.debugger
    lastCommand := last.lastCommand
    linesRead := turns.length }

theorem not_quits_step : ¬ Quits Command.step.name := by decide +kernel

/-- **A blank line repeats the last command.** Blank lines may be written out, from the lines before
them alone: the shell writes the same and ends with the same debugger, the same last command and as
many lines read. It reads all lines up to the first one that asks it to end, and none behind. -/
theorem blank_line_repeats_last_command (d : Debugger) (lines : List String) :
    (ofDebugger d).transcript (writtenOut lines) = (ofDebugger d).transcript lines ∧
    ((∀ line ∈ lines, ¬ Quits line) →
      ((ofDebugger d).transcript lines).linesRead = lines.length) ∧
    ∀ before line after, lines = before ++ line :: after → (∀ l ∈ before, ¬ Quits l) → Quits line →
      ((ofDebugger d).transcript lines).linesRead = before.length + 1 ∧
      ∀ others, (ofDebugger d).transcript (before ++ line :: others)
        = (ofDebugger d).transcript lines := by
  have hquits : ¬ Quits (ofDebugger d).lastCommand := not_quits_step
  refine ⟨?_, length_loop_of_not_quits lines hquits, ?_⟩
  · have hloop : (ofDebugger d).loop (writtenOutAfter [] lines) = (ofDebugger d).loop lines :=
      loop_writtenOutAfter lines rfl
    rw [transcript, transcript, ← hloop]
    rfl
  · rintro before line after rfl hbefore hline
    obtain ⟨turns, hlength, hturns⟩ := loop_append_quits before hline hquits hbefore
    refine ⟨by rw [transcript, hturns, hlength], fun others => ?_⟩
    rw [transcript, transcript, hturns, hturns]

/-- Blank lines after a command that refuses its argument, and after a word that means none. -/
def linesWithBlanks : List String := ["", "  BREAK x ", "", "undo", "\t", "Qu", "", "step"]

/-- They are written out, and the shell of a debugger reads the first six lines. -/
theorem blank_line_repeats_refused_command :
    writtenOut linesWithBlanks
      = ["step", "  BREAK x ", "BREAK x", "undo", "BREAK x", "Qu", "Qu", "step"] ∧
    ∃ d, Debugger.ofSource [0x2B, 0x2E] [] false 9 = .ok d ∧
      (ofDebugger d).transcript (writtenOut linesWithBlanks)
        = (ofDebugger d).transcript linesWithBlanks ∧
      ((ofDebugger d).transcript linesWithBlanks).linesRead = 6 := by
  obtain ⟨p, hp⟩ : ∃ p, Program.prepare [0x2B, 0x2E] = .ok p := ⟨_, rfl⟩
  obtain ⟨d, hd⟩ : ∃ d, Debugger.ofSource [0x2B, 0x2E] [] false 9 = .ok d :=
    ⟨_, by rw [Debugger.ofSource, hp]⟩
  obtain ⟨hsame, -, hread⟩ := blank_line_repeats_last_command d linesWithBlanks
  have hsix := (hread ["", "  BREAK x ", "", "undo", "\t"] "Qu" ["", "step"] rfl
    (by decide +kernel) (by decide +kernel)).1
  exact ⟨by decide +kernel, d, hd, hsame, hsix⟩

end Shell

end TapeMachine
