import Mathlib.Algebra.Order.BigOperators.Group.List
import Mathlib.Algebra.Order.Group.Nat
import TapeMachine.CommandLine.Run
import TapeMachine.Proofs.Options

/-!
# Arguments of the interpreter

The interpreter is to report every unknown option, and more than one file. It reads its command line
by the general rules for options, where only the first files that stand together are files. A file
behind an option that follows these is an extra word, and is reported as an option.

So the reports are right if and only if the files stand together
(`arguments_reported_iff_files_together`).
-/

namespace TapeMachine.CommandLine.Run

/-! ## Sorting the words -/

/-- The switch of `--debug`. -/
def debugSwitch : Switch Flag := ⟨.debug, ["--debug"], false⟩

/-- A file, `--debug` or an unknown option. -/
def IsArgument (word : String) : Prop :=
  IsOperand word ∨ word = "--debug" ∨ options.IsUnknown word

/-- What an argument is sorted as. -/
def kind (word : String) : Word Flag :=
  if IsOperand word then .operand word
  else if word = "--debug" then .option ⟨word, debugSwitch, none⟩
  else .unknown word

section

variable {word : String}

theorem kind_of_isOperand (h : IsOperand word) : kind word = .operand word := if_pos h

theorem isPlain_kind (word : String) : (kind word).IsPlain := by
  unfold kind
  split
  · trivial
  · split
    · exact ⟨rfl, rfl⟩
    · trivial

theorem isOperand_kind (h : ¬ IsOperand word) : (kind word).isOperand = false := by
  rw [kind, if_neg h]
  split
  · rfl
  · rfl

theorem extra?_kind (word : String) :
    (kind word).extra? = if word = "--debug" then none else some word := by
  unfold kind
  split
  · next h =>
    rw [if_neg]
    · rfl
    · rintro rfl
      exact absurd h (by decide)
  · split
    · rfl
    · rfl

theorem item?_kind (word : String) :
    (kind word).item? = if word = "--debug" then some (.switch debugSwitch) else none := by
  unfold kind
  split
  · next h =>
    rw [if_neg]
    · rfl
    · rintro rfl
      exact absurd h (by decide)
  · split
    · rfl
    · rfl

theorem IsArgument.classify_eq (h : IsArgument word) :
    word ≠ "--" ∧ options.classify word = .ok (kind word) := by
  rcases h with h | rfl | h
  · refine ⟨?_, by rw [kind_of_isOperand h]; exact Options.classify_of_isOperand h⟩
    rintro rfl
    exact absurd h (by decide)
  · exact ⟨by decide, rfl⟩
  · have hflag : ("--debug", debugSwitch) ∈ options.flags := by
      simp [Options.flags, options, debugSwitch]
    have hdebug : word ≠ "--debug" := by
      rintro rfl
      exact h.notTaken _ hflag (.start List.prefix_rfl)
    refine ⟨?_, ?_⟩
    · rintro rfl
      exact h.notTaken _ hflag (.start (by decide))
    · rw [kind, if_neg h.not_isOperand, if_neg hdebug]
      exact Options.classify_eq_unknown_iff.mpr h

end

/-! ## Taking in the words -/

/-- The arguments cut in three: the files in the middle are the first ones, and all up to the next
other word. -/
structure Cut (argv before files after : List String) : Prop where
  argv_eq : argv = before ++ (files ++ after)
  not_before : ∀ word ∈ before, ¬ IsOperand word
  isOperand : ∀ word ∈ files, IsOperand word
  not_next : ∀ word ∈ after.head?, ¬ IsOperand word
  after_eq_nil : files = [] → after = []

theorem exists_cut (argv : List String) : ∃ before files after, Cut argv before files after := by
  refine ⟨argv.takeWhile (¬ IsOperand ·), (argv.dropWhile (¬ IsOperand ·)).takeWhile (IsOperand ·),
    (argv.dropWhile (¬ IsOperand ·)).dropWhile (IsOperand ·), ?_, ?_, ?_, ?_, ?_⟩
  · rw [List.takeWhile_append_dropWhile, List.takeWhile_append_dropWhile]
  · exact fun word hword => by simpa using List.mem_takeWhile_imp hword
  · exact fun word hword => by simpa using List.mem_takeWhile_imp hword
  · intro word hword
    have hnot := List.head?_dropWhile_not (IsOperand ·) (argv.dropWhile (¬ IsOperand ·))
    rw [Option.mem_def.mp hword] at hnot
    simpa using hnot
  · intro hnone
    have hnot := List.head?_dropWhile_not (¬ IsOperand ·) argv
    cases hrest : argv.dropWhile (¬ IsOperand ·) with
    | nil => rfl
    | cons word rest =>
      rw [hrest] at hnone hnot
      have hword : IsOperand word := by simpa using hnot
      simp [hword] at hnone

/-- The words in front of the files and behind them, but for `--debug`. -/
def extraWords (before after : List String) : List String :=
  (before ++ after).filter (· ≠ "--debug")

section

variable {argv before files after : List String}

theorem collect_items (words : List String) (items : List (Item Flag)) :
    ∀ args, collect args ((words.map kind).filterMap Word.item? ++ items)
      = collect { args with debug := args.debug || decide ("--debug" ∈ words) } items := by
  induction words with
  | nil => intro args; simp
  | cons word words ih =>
    intro args
    rw [List.map_cons, List.filterMap_cons, item?_kind]
    by_cases h : word = "--debug"
    · rw [if_pos h, List.cons_append, collect, debugSwitch, ih]
      simp [h]
    · rw [if_neg h, ih]
      simp [Ne.symm h]

theorem filterMap_extra? (words : List String) :
    (words.map kind).filterMap Word.extra? = words.filter (· ≠ "--debug") := by
  induction words with
  | nil => rfl
  | cons word words ih =>
    rw [List.map_cons, List.filterMap_cons, extra?_kind, ih]
    by_cases h : word = "--debug"
    · simp [h]
    · simp [h]

/-- **What is planned.** The files are the first ones that stand together, and all other words but
`--debug` are reported as options. -/
theorem plan_eq (h : ∀ word ∈ argv, IsArgument word) (hcut : Cut argv before files after) :
    plan argv = planArgs ⟨files, decide ("--debug" ∈ argv)⟩ (extraWords before after) := by
  have hplain : ∀ words : List String, ∀ w ∈ words.map kind, w.IsPlain := by
    intro words w hw
    obtain ⟨word, -, rfl⟩ := List.mem_map.mp hw
    exact isPlain_kind word
  have hbefore : ∀ w ∈ before.map kind, w.isOperand = false := by
    intro w hw
    obtain ⟨word, hword, rfl⟩ := List.mem_map.mp hw
    exact isOperand_kind (hcut.not_before word hword)
  have hafter : ∀ w ∈ (after.map kind).head?, w.isOperand = false := by
    intro w hw
    rw [List.head?_map] at hw
    obtain ⟨word, hword, rfl⟩ := Option.map_eq_some_iff.mp hw
    exact isOperand_kind (hcut.not_next word hword)
  have hfiles : files.map kind = files.map .operand :=
    List.map_congr_left fun word hword => kind_of_isOperand (hcut.isOperand word hword)
  have hsort : options.sort argv = .ok (argv.map kind) :=
    Options.sort_eq_ok fun word hword => (h word hword).classify_eq
  have hparse : options.parse argv = options.read (.waiting .many) [] [] (argv.map kind) := by
    rw [Options.parse, hsort]
    rfl
  have hoperand : ∀ word, ¬ IsOperand word → word ∉ files :=
    fun word hword hmem => hword (hcut.isOperand word hmem)
  have hdebug : decide ("--debug" ∈ argv)
      = (decide ("--debug" ∈ before) || decide ("--debug" ∈ after)) := by
    simp [hcut.argv_eq, hoperand "--debug" (by decide)]
  rw [hdebug, plan, hparse]
  cases files with
  | nil =>
    obtain rfl := hcut.after_eq_nil rfl
    have hcollect := collect_items before [] ⟨[], false⟩
    rw [List.append_nil] at hcollect
    rw [hcut.argv_eq, List.nil_append, List.append_nil,
      Options.read_plain_of_no_operand (hplain before) hbefore]
    simp only [hcollect, collect, filterMap_extra?, Bool.false_or, List.not_mem_nil, decide_false,
      Bool.or_false, extraWords, List.append_nil]
  | cons file files =>
    have hcollect := collect_items before
      (.positional (file :: files) :: (after.map kind).filterMap Word.item?) ⟨[], false⟩
    have hcollect' := collect_items after [] ⟨file :: files, decide ("--debug" ∈ before)⟩
    rw [List.append_nil] at hcollect'
    rw [hcut.argv_eq, List.map_append, List.map_append, hfiles,
      Options.read_plain (hplain before) (hplain after) hbefore hafter,
      List.erase_of_not_mem (hoperand "--" (by decide))]
    simp only [hcollect, hcollect', collect, filterMap_extra?, Bool.false_or, extraWords,
      List.filter_append]

end

/-! ## Reports -/

/-- A line of the error output. -/
def reportLine (message : String) : String := "error: " ++ message ++ "\n"

/-- The report of an unknown option. -/
def unknownReport (word : String) : String :=
  reportLine ("Unrecognized command line option '" ++ word ++ "'")

/-- The report of more than one file. -/
def manyReport : String := reportLine "More than one file provided"

/-- The reports of extra words, and of files. -/
def reports (files extras : List String) : List String :=
  extras.map unknownReport ++ if 1 < files.length then [manyReport] else []

/-- The reports that are due: one for each unknown option, and one if there are several files. -/
def dueReports (argv : List String) : List String :=
  reports (argv.filter (IsOperand ·)) (argv.filter fun word => ¬ IsOperand word ∧ word ≠ "--debug")

/-- Every argument is reported as what it is. If there is nothing to report, a single file is read
and interpreted. -/
structure ReportsArguments (argv : List String) : Prop where
  refused : dueReports argv ≠ [] → ∀ fs stdin fuel,
    run fs argv stdin fuel = some (.refused (String.join (dueReports argv)))
  interpreted : dueReports argv = [] → ∀ path, argv.filter (IsOperand ·) = [path] →
    ∀ fs stdin fuel, run fs argv stdin fuel =
      match fs.read path with
      | .error e => some (.unreadable e)
      | .ok source =>
        (interpret source stdin (decide ("--debug" ∈ argv)) fuel).map ofInterpretation

section

variable {files extras : List String} {debug : Bool}

theorem map_argumentErrors (files extras : List String) :
    (argumentErrors files extras).map (fun e => s!"error: {e}\n") = reports files extras := by
  rw [show (fun e : String => s!"error: {e}\n") = reportLine from rfl, argumentErrors,
    List.map_append, List.map_map, reports]
  split
  · rfl
  · rfl

theorem planArgs_of_ne_nil (h : reports files extras ≠ []) : planArgs ⟨files, debug⟩ extras
    = .finish (.refused (String.join (reports files extras))) := by
  rw [← map_argumentErrors] at h ⊢
  unfold planArgs
  split
  · next hnone _ => exact absurd (by rw [hnone]; rfl) h
  · next hnone _ => exact absurd (by rw [hnone]; rfl) h
  · rfl

theorem planArgs_of_eq_nil {path : String} (h : reports [path] extras = []) :
    planArgs ⟨[path], debug⟩ extras = .load path debug := by
  rw [← map_argumentErrors, List.map_eq_nil_iff] at h
  simp only [planArgs, h]

end

/-! ## Files that stand together -/

section

variable {argv before files after : List String}

theorem takeWhile_files (hfiles : ∀ word ∈ files, IsOperand word)
    (hafter : ∀ word ∈ after.head?, ¬ IsOperand word) :
    (files ++ after).takeWhile (IsOperand ·) = files := by
  rw [List.takeWhile_append_of_pos fun word hword => decide_eq_true (hfiles word hword)]
  cases after with
  | nil => exact List.append_nil files
  | cons word after => simp [hafter word rfl]

theorem dropWhile_before {rest : List String} (hbefore : ∀ word ∈ before, ¬ IsOperand word)
    (hrest : ∀ word ∈ rest.head?, IsOperand word) :
    (before ++ rest).dropWhile (¬ IsOperand ·) = rest := by
  rw [List.dropWhile_append_of_pos fun word hword => decide_eq_true (hbefore word hword)]
  cases rest with
  | nil => rfl
  | cons word rest => simp [hrest word rfl]

theorem Cut.filter_eq (hcut : Cut argv before files after) :
    argv.filter (IsOperand ·) = files ++ after.filter (IsOperand ·) := by
  have hbefore : before.filter (IsOperand ·) = [] := by
    simpa [List.filter_eq_nil_iff] using hcut.not_before
  have hfiles : files.filter (IsOperand ·) = files := by
    simpa [List.filter_eq_self] using hcut.isOperand
  rw [hcut.argv_eq, List.filter_append, List.filter_append, hbefore, hfiles, List.nil_append]

/-- The files stand together if there are none behind the first ones. -/
theorem Cut.together_iff (hcut : Cut argv before files after) :
    argv.filter (IsOperand ·) <:+: argv ↔ ∀ word ∈ after, ¬ IsOperand word := by
  constructor
  · rintro ⟨front, back, heq⟩
    have hall : ∀ word ∈ argv.filter (IsOperand ·), IsOperand word :=
      fun word hword => by simpa using (List.mem_filter.mp hword).2
    have hcount := congrArg (fun words => (words.filter (IsOperand ·)).length) heq
    simp only [List.filter_append, List.filter_filter, Bool.and_self, List.length_append] at hcount
    have hfront : ∀ word ∈ front, ¬ IsOperand word := by
      have hnil : front.filter (IsOperand ·) = [] := List.length_eq_zero_iff.mp (by omega)
      simpa [List.filter_eq_nil_iff] using hnil
    have hback : ∀ word ∈ back, ¬ IsOperand word := by
      have hnil : back.filter (IsOperand ·) = [] := List.length_eq_zero_iff.mp (by omega)
      simpa [List.filter_eq_nil_iff] using hnil
    cases files with
    | nil =>
      rw [hcut.after_eq_nil rfl]
      exact fun word hword => absurd hword List.not_mem_nil
    | cons file files =>
      -- what is in front of the first file is the same in both ways of cutting
      have hhead : ∀ words : List String, ∀ word ∈ (file :: files ++ words).head?,
          IsOperand word := by
        rintro words _ ⟨⟩
        exact hcut.isOperand file List.mem_cons_self
      have hrest : argv.filter (IsOperand ·) ++ back = file :: files ++ after := by
        have hfirst := hhead (after.filter (IsOperand ·) ++ back)
        rw [← List.append_assoc, ← hcut.filter_eq] at hfirst
        rw [← dropWhile_before hfront hfirst, ← List.append_assoc, heq, hcut.argv_eq,
          dropWhile_before hcut.not_before (hhead after)]
      have hfiles := congrArg (List.takeWhile (IsOperand ·)) hrest
      rw [takeWhile_files hall fun word hword => hback word (List.mem_of_mem_head? hword),
        takeWhile_files hcut.isOperand hcut.not_next, hcut.filter_eq] at hfiles
      have hnil := List.append_right_eq_self.mp hfiles
      simpa [List.filter_eq_nil_iff] using hnil
  · intro hafter
    have hnone : after.filter (IsOperand ·) = [] := by
      simpa [List.filter_eq_nil_iff] using hafter
    refine ⟨before, after, ?_⟩
    rw [hcut.filter_eq, hnone, List.append_nil, List.append_assoc, ← hcut.argv_eq]

/-- The unknown options are the extra words that are no operands. -/
theorem Cut.unknown_eq (hcut : Cut argv before files after) :
    argv.filter (fun word => ¬ IsOperand word ∧ word ≠ "--debug")
      = (extraWords before after).filter (¬ IsOperand ·) := by
  have hfiles : files.filter (fun word => ¬ IsOperand word ∧ word ≠ "--debug") = [] :=
    List.filter_eq_nil_iff.mpr fun word hword => by simp [hcut.isOperand word hword]
  rw [hcut.argv_eq, List.filter_append, List.filter_append, hfiles, List.nil_append, extraWords,
    ← List.filter_append, List.filter_filter]
  simp only [Bool.decide_and]

theorem Cut.dueReports_of_together (hcut : Cut argv before files after)
    (hafter : ∀ word ∈ after, ¬ IsOperand word) :
    dueReports argv = reports files (extraWords before after) := by
  have hnone : after.filter (IsOperand ·) = [] := by
    simpa [List.filter_eq_nil_iff] using hafter
  have hextras : ∀ word ∈ extraWords before after, decide (¬ IsOperand word) = true := by
    intro word hword
    rcases List.mem_append.mp (List.mem_filter.mp hword).1 with hmem | hmem
    · exact decide_eq_true (hcut.not_before word hmem)
    · exact decide_eq_true (hafter word hmem)
  rw [dueReports, hcut.filter_eq, hnone, List.append_nil, hcut.unknown_eq,
    List.filter_eq_self.mpr hextras]

/-- If there is a file behind the first ones, there are several. -/
theorem Cut.dueReports_of_apart (hcut : Cut argv before files after)
    (hafter : ∃ word ∈ after, IsOperand word) : dueReports argv
      = ((extraWords before after).filter (¬ IsOperand ·)).map unknownReport ++ [manyReport] := by
  obtain ⟨word, hword, hoperand⟩ := hafter
  have hfirst : files ≠ [] := fun hnil => by
    rw [hcut.after_eq_nil hnil] at hword
    exact List.not_mem_nil hword
  have hlater : after.filter (IsOperand ·) ≠ [] :=
    List.ne_nil_of_mem (List.mem_filter.mpr ⟨hword, decide_eq_true hoperand⟩)
  have hmany : 1 < (argv.filter (IsOperand ·)).length := by
    rw [hcut.filter_eq, List.length_append]
    exact Nat.add_le_add (List.length_pos_of_ne_nil hfirst) (List.length_pos_of_ne_nil hlater)
  rw [dueReports, reports, if_pos hmany, hcut.unknown_eq]

/-! ## Lengths of reports -/

theorem length_unknownReport (word : String) : (unknownReport word).length = 43 + word.length := by
  simp only [unknownReport, reportLine, String.length_append]
  have hlengths : "error: ".length = 7 ∧
      "Unrecognized command line option '".length = 34 ∧ "'".length = 1 ∧ "\n".length = 1 := by
    decide
  omega

theorem length_manyReport : manyReport.length = 35 := by decide

/-- A report of an extra operand is longer than that of more than one file. -/
theorem length_join_lt {extras files : List String} (h : ∃ word ∈ extras, IsOperand word) :
    (String.join ((extras.filter (¬ IsOperand ·)).map unknownReport ++ [manyReport])).length
      < (String.join (reports files extras)).length := by
  obtain ⟨word, hword, hoperand⟩ := h
  have hsplit := List.sum_map_filter_add_sum_map_filter_not (¬ IsOperand ·)
    (fun word => (unknownReport word).length) extras
  have hreport : (unknownReport word).length ≤
      ((extras.filter (¬ ¬ IsOperand ·)).map fun word => (unknownReport word).length).sum :=
    List.le_sum_of_mem (List.mem_map_of_mem (List.mem_filter.mpr ⟨hword, by simpa using hoperand⟩))
  rw [length_unknownReport] at hreport
  simp only [reports, String.length_join, List.map_append, List.sum_append, List.map_map,
    Function.comp_def, List.map_cons, List.map_nil, List.sum_cons, List.sum_nil, length_manyReport]
  omega

end

/-! ## The reports of the interpreter -/

theorem run_of_finish {argv : List String} {o : Outcome} (h : plan argv = .finish o)
    (fs : FileSystem) (stdin : List UInt8) (fuel : Nat) : run fs argv stdin fuel = some o := by
  rw [run, h]

/-- **Unknown options and surplus files are reported as what they are if and only if the files
stand together.** A file behind an option that follows the first files is reported as an unknown
option. -/
theorem arguments_reported_iff_files_together {argv : List String}
    (h : ∀ word ∈ argv, IsArgument word) :
    ReportsArguments argv ↔ argv.filter (IsOperand ·) <:+: argv := by
  obtain ⟨before, files, after, hcut⟩ := exists_cut argv
  have hplan := plan_eq h hcut
  rw [hcut.together_iff]
  constructor
  · intro hreports word hword hoperand
    have hextra : word ∈ extraWords before after := by
      refine List.mem_filter.mpr ⟨List.mem_append_right before hword, decide_eq_true ?_⟩
      rintro rfl
      exact absurd hoperand (by decide)
    have hne : reports files (extraWords before after) ≠ [] :=
      List.append_ne_nil_of_left_ne_nil (List.ne_nil_of_mem (List.mem_map_of_mem hextra)) _
    have hdue := hcut.dueReports_of_apart ⟨word, hword, hoperand⟩
    have hrun := hreports.refused (by rw [hdue]; exact List.concat_ne_nil _ _) ⟨.empty, []⟩ [] 0
    rw [run_of_finish (hplan.trans (planArgs_of_ne_nil hne)), hdue, Option.some.injEq] at hrun
    exact Nat.ne_of_gt (length_join_lt ⟨word, hextra, hoperand⟩)
      (congrArg String.length (congrArg Outcome.err hrun))
  · intro hafter
    have hdue := hcut.dueReports_of_together hafter
    refine ⟨fun hne fs stdin fuel => ?_, fun hnil path hpath fs stdin fuel => ?_⟩
    · rw [hdue] at hne ⊢
      exact run_of_finish (hplan.trans (planArgs_of_ne_nil hne)) fs stdin fuel
    · have hfiles : files = [path] := by
        rw [← hpath, hcut.filter_eq]
        simpa [List.filter_eq_nil_iff] using hafter
      rw [hdue, hfiles] at hnil
      rw [hfiles, planArgs_of_eq_nil hnil] at hplan
      cases hread : fs.read path with
      | error e => simp only [run, hplan, hread]
      | ok source => simp only [run, hplan, hread]

/-- An unknown option, two files and `--debug`. -/
theorem arguments_reported_behind_option :
    (∀ word ∈ ["-q", "a.b", "b.b", "--debug"], IsArgument word) ∧
      ReportsArguments ["-q", "a.b", "b.b", "--debug"] ∧
      dueReports ["-q", "a.b", "b.b", "--debug"]
        = ["error: Unrecognized command line option '-q'\n",
          "error: More than one file provided\n"] := by
  have hfiles : ["-q", "a.b", "b.b", "--debug"].filter (IsOperand ·) = ["a.b", "b.b"] := by decide
  have harguments : ∀ word ∈ ["-q", "a.b", "b.b", "--debug"], IsArgument word := by
    simp only [List.forall_mem_cons, List.not_mem_nil, false_imp_iff, implies_true, and_true]
    exact ⟨.inr (.inr (Options.classify_eq_unknown_iff.mp rfl)), .inl (by decide), .inl (by decide),
      .inr (.inl rfl)⟩
  refine ⟨harguments, (arguments_reported_iff_files_together harguments).mpr ?_, by decide +kernel⟩
  rw [hfiles]
  exact ⟨["-q"], ["--debug"], rfl⟩

/-- Of two files with `--debug` between them the second one is reported as an unknown option. -/
theorem file_behind_debug_reported_as_option :
    (∀ word ∈ ["a.b", "--debug", "b.b"], IsArgument word) ∧
      dueReports ["a.b", "--debug", "b.b"] = ["error: More than one file provided\n"] ∧
      (∀ fs stdin fuel, run fs ["a.b", "--debug", "b.b"] stdin fuel
        = some (.refused "error: Unrecognized command line option 'b.b'\n")) ∧
      ¬ ReportsArguments ["a.b", "--debug", "b.b"] := by
  have harguments : ∀ word ∈ ["a.b", "--debug", "b.b"], IsArgument word := by
    simp only [List.forall_mem_cons, List.not_mem_nil, false_imp_iff, implies_true, and_true]
    exact ⟨.inl (by decide), .inr (.inl rfl), .inl (by decide)⟩
  have hdue : dueReports ["a.b", "--debug", "b.b"] = ["error: More than one file provided\n"] := by
    decide +kernel
  have hrun : ∀ fs stdin fuel, run fs ["a.b", "--debug", "b.b"] stdin fuel
      = some (.refused "error: Unrecognized command line option 'b.b'\n") :=
    run_of_finish (by decide +kernel)
  refine ⟨harguments, hdue, hrun, fun hreports => ?_⟩
  have hclaimed := hreports.refused (by rw [hdue]; exact List.cons_ne_nil _ _) ⟨.empty, []⟩ [] 0
  rw [hrun, hdue, Option.some.injEq] at hclaimed
  exact absurd (congrArg Outcome.err hclaimed) (by decide +kernel)

end TapeMachine.CommandLine.Run
