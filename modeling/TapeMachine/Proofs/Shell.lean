import TapeMachine.Proofs.Consistency
import TapeMachine.Proofs.Reading
import TapeMachine.Shell

/-!
# The shell of a debugger

A shell is given any text at all, and does what its first word means (`Command.IsMeantBy`). What a
command makes of the debugger is one of a few things (`Shell.Effect`), and none of them leaves the
debuggers that a session comes to. So whatever was typed before, every command gets what it asks of
the debugger (`Debugger.Serves`): a run that comes to an end, a first state, and every line to list.

A word that means nothing leaves the shell as it is, and an argument that is refused the debugger
(`shell_never_fails`).
-/

namespace TapeMachine

/-! ## Texts of one line -/

/-- There is no line end in a text. -/
def OneLine (s : String) : Prop := '\n' ∉ s.toList

instance (s : String) : Decidable (OneLine s) := inferInstanceAs (Decidable ('\n' ∉ s.toList))

section

variable {s t : String}

theorem OneLine.append (hs : OneLine s) (ht : OneLine t) : OneLine (s ++ t) := by
  rw [OneLine, String.toList_append, List.mem_append, not_or]
  exact ⟨hs, ht⟩

theorem oneLine_ofList {cs : List Char} (h : '\n' ∉ cs) : OneLine (String.ofList cs) := by
  rwa [OneLine, String.toList_ofList]

theorem newline_not_mem_toDigits {base : Nat} (hbase : 1 < base) (n : Nat) :
    '\n' ∉ Nat.toDigits base n := by
  intro h
  obtain ⟨d, -, hd⟩ := Text.exists_digitChar hbase n _ h
  exact Nat.digitChar_ne '\n' (by decide) hd.symm

theorem oneLine_toString_nat (n : Nat) : OneLine (toString n) := by
  rw [Nat.toString_eq_ofList_toDigits]
  exact oneLine_ofList (newline_not_mem_toDigits (by decide) n)

theorem oneLine_toString_int (n : Int) : OneLine (toString n) := by
  rw [Int.toString_eq_repr, Int.repr_eq_if]
  split
  · exact oneLine_toString_nat n.toNat
  · exact OneLine.append (by decide) (oneLine_toString_nat (-n).toNat)

theorem newline_not_mem_escapeCode (n : Nat) : '\n' ∉ Text.escapeCode n := by
  have hdigits : ∀ width, '\n' ∉ Text.digits 16 width n := by
    intro width
    rw [Text.digits, List.mem_append, not_or]
    exact ⟨fun h => absurd (List.eq_of_mem_replicate h) (by decide),
      newline_not_mem_toDigits (by decide) n⟩
  unfold Text.escapeCode
  split
  · simp [hdigits]
  · split <;> simp [hdigits]

/-- Line ends are escaped between quotes. -/
theorem newline_not_mem_escapeChar (keep : Char → Bool) {quote : Char} (hquote : quote ≠ '\n')
    (c : Char) : '\n' ∉ Text.escapeChar keep quote c := by
  unfold Text.escapeChar
  split
  · next hc =>
    rcases hc with rfl | rfl
    · simpa using hquote.symm
    · decide
  · split
    · decide
    · split
      · decide
      · next hc =>
        split
        · decide
        · split
          · simpa using Ne.symm hc
          · exact newline_not_mem_escapeCode c.toNat

theorem oneLine_quoted (s : String) : OneLine (Text.quoted s) := by
  have hquote : Text.quoteFor s.toList ≠ '\n' := by
    unfold Text.quoteFor
    split <;> decide
  refine oneLine_ofList ?_
  simp only [Text.quotedBy, List.cons_append, List.mem_cons, List.mem_append, List.mem_flatMap,
    List.not_mem_nil, or_false, not_or, not_exists, not_and]
  exact ⟨hquote.symm, fun c _ => newline_not_mem_escapeChar _ hquote c, hquote.symm⟩

theorem oneLine_message_numeral (e : Text.NumeralError) : OneLine e.message := by
  cases e with
  | malformed text =>
    exact OneLine.append (by decide)
      (oneLine_ofList fun h => oneLine_quoted text (List.mem_of_mem_take h))
  | tooLong digits =>
    refine OneLine.append (OneLine.append (OneLine.append (OneLine.append (OneLine.append ?_ ?_) ?_)
      (oneLine_toString_nat digits)) ?_) ?_ <;> decide

theorem Refusal.oneLine_message (e : Refusal) : OneLine e.message := by
  cases e with
  | numeral e => exact oneLine_message_numeral e
  | countNotPositive => decide
  | line e =>
    exact OneLine.append (OneLine.append (OneLine.append (OneLine.append (by decide)
      (oneLine_toString_int e.line)) (by decide)) (oneLine_toString_nat e.lineCount)) (by decide)

end

/-! ## Words that mean a command -/

namespace Command

/-- A word means a command if it is the name of the command, or the start of this name and of no
other. -/
def IsMeantBy (c : Command) (word : String) : Prop :=
  c.name = word ∨
    word.toList <+: c.name.toList ∧ ∀ c' : Command, word.toList <+: c'.name.toList → c' = c

theorem mem_all (c : Command) : c ∈ all := by cases c <;> decide

theorem name_injective {c c' : Command} (h : c.name = c'.name) : c = c' := by
  have hall : ∀ c ∈ all, ∀ c' ∈ all, c.name = c'.name → c = c' := by decide
  exact hall c (mem_all c) c' (mem_all c') h

theorem filter_all_eq_singleton_iff {test : Command → Bool} {c : Command} :
    all.filter test = [c] ↔ test c = true ∧ ∀ c', test c' = true → c' = c := by
  have hmem : ∀ c', c' ∈ all.filter test ↔ test c' = true := fun c' => by
    rw [List.mem_filter, and_iff_right (mem_all c')]
  constructor
  · intro h
    rw [h] at hmem
    exact ⟨(hmem c).mp List.mem_cons_self, fun c' hc' => List.mem_singleton.mp ((hmem c').mpr hc')⟩
  · rintro ⟨hc, hunique⟩
    have hnodup : (all.filter test).Nodup := List.Nodup.filter _ (by decide)
    refine List.perm_singleton.mp ((List.perm_ext_iff_of_nodup hnodup (List.nodup_singleton c)).mpr
      fun c' => ?_)
    rw [hmem, List.mem_singleton]
    exact ⟨hunique c', fun heq => heq ▸ hc⟩

theorem matching_name (c : Command) : matching c.name = [c] := by
  have hexact : all.filter (·.name == c.name) = [c] :=
    filter_all_eq_singleton_iff.mpr ⟨beq_self_eq_true c.name, fun c' h => name_injective (eq_of_beq h)⟩
  rw [matching, hexact]

theorem matching_eq_singleton_iff {word : String} {c : Command} :
    matching word = [c] ↔ c.IsMeantBy word := by
  by_cases hname : ∃ c' : Command, c'.name = word
  · obtain ⟨c', rfl⟩ := hname
    rw [matching_name, List.singleton_inj]
    constructor
    · rintro rfl
      exact .inl rfl
    · rintro (h | ⟨-, hunique⟩)
      · exact (name_injective h).symm
      · exact hunique c' List.prefix_rfl
  · have hnone : all.filter (·.name == word) = [] :=
      List.filter_eq_nil_iff.mpr fun c' _ h => hname ⟨c', eq_of_beq h⟩
    rw [matching, hnone]
    simp only [filter_all_eq_singleton_iff, String.startsWith_string_iff]
    exact ⟨.inr, fun h => h.resolve_left fun h => hname ⟨c, h⟩⟩

/-- An argument that a command refuses. -/
inductive Refuses (d : Debugger) (argument : String) : Command → Prop where
  | notInteger {c : Command} {e : Text.NumeralError} (hc : c = .step ∨ c = .break ∨ c = .delete)
    (h : Text.parseInt argument = .error e) : Refuses d argument c
  | notPositive {count : Int} (h : Text.parseInt argument = .ok count) (hcount : count < 1) :
    Refuses d argument .step
  | outside {line : Int} (h : Text.parseInt argument = .ok line)
    (hline : ¬ (1 ≤ line ∧ line ≤ d.lineCount)) : Refuses d argument .break

end Command

namespace Shell

/-! ## Reading a command line -/

/-- A command line asks for a command if its first word means it, in lower case. The other words are
the arguments. -/
def Asks (line : String) (c : Command) (args : List String) : Prop :=
  ∃ word, (Text.words line.toList).map String.ofList = word :: args ∧
    c.IsMeantBy (Text.lowercase word)

theorem ofLine_eq_command_iff {line : String} {c : Command} {args : List String} :
    Request.ofLine line = .command c args ↔ Asks line c args := by
  unfold Request.ofLine Asks
  cases (Text.words line.toList).map String.ofList with
  | nil => simp
  | cons word rest =>
    simp only [List.cons.injEq, ← Command.matching_eq_singleton_iff]
    split
    · next h => simp [h]
    · next c' h => simp [h, and_comm]
    · next hmany =>
      constructor
      · intro h
        cases h
      · rintro ⟨_, ⟨rfl, -⟩, h⟩
        exact (hmany c h).elim

/-- There are no words in a blank text. -/
theorem words_of_blank {cs : List Char} (h : ∀ c ∈ cs, Text.isBlank c = true) :
    Text.words cs = [] := by
  unfold Text.words
  induction cs with
  | nil => rfl
  | cons c rest ih =>
    obtain ⟨hc, hrest⟩ := List.forall_mem_cons.mp h
    rw [Text.wordsFrom, if_pos hc]
    exact ih hrest

theorem not_asks_of_blank {line : String} (h : ∀ ch ∈ line.toList, Text.isBlank ch = true)
    (c : Command) (args : List String) : ¬ Asks line c args := by
  rintro ⟨word, hwords, -⟩
  rw [words_of_blank h] at hwords
  cases hwords

/-! ## What a command does -/

/-- What becomes of a debugger by a command. -/
inductive Effect (d : Debugger) : Debugger → Prop where
  | none : Effect d d
  | advanced (stop : Debugger.Stop) : Effect d (d.advance stop).2
  | restarted : Effect d d.restart
  | marked {d' : Debugger} {line : Int} (h : d.setBreakpoint line = .ok d') : Effect d d'
  | unmarked (line : Int) : Effect d (d.clearBreakpoint line).2
  | unmarkedAll : Effect d d.clearAll

section

variable {d d' : Debugger} {reply : Reply} {text : String} {args rest : List String}

theorem more_stopReport (d : Debugger) : (stopReport d).more = true := by
  unfold stopReport
  dsimp only
  split <;> rfl

theorem doStep_cons (d : Debugger) (text : String) (rest : List String) :
    doStep d (text :: rest) =
      match Text.parseInt text with
      | .error e => .error (.numeral e)
      | .ok count =>
        if count < 1 then .error .countNotPositive
        else .ok ((d.step count).2, stopReport (d.step count).2) := by
  simp only [doStep, argument]
  cases Text.parseInt text <;> rfl

theorem doBreak_cons (d : Debugger) (text : String) (rest : List String) :
    doBreak d (text :: rest) =
      match Text.parseInt text with
      | .error e => .error (.numeral e)
      | .ok line =>
        match d.setBreakpoint line with
        | .ok d => .ok (d, .say s!"breakpoint set at line {line}\n")
        | .error e => .error (.line e) := by
  simp only [doBreak, argument]
  cases Text.parseInt text <;> rfl

theorem doDelete_cons (d : Debugger) (text : String) (rest : List String) :
    doDelete d (text :: rest) =
      match Text.parseInt text with
      | .error e => .error (.numeral e)
      | .ok line =>
        match d.clearBreakpoint line with
        | (true, d) => .ok (d, .say s!"breakpoint at line {text} deleted\n")
        | (false, d) => .ok (d, .say s!"no breakpoint at line {text}\n") := by
  simp only [doDelete, argument]
  cases Text.parseInt text <;> rfl

theorem doStep_effect (h : doStep d args = .ok (d', reply)) :
    Effect d d' ∧ reply.more = true := by
  cases args with
  | nil =>
    cases h
    exact ⟨.advanced (.after 1), more_stopReport _⟩
  | cons text rest =>
    rw [doStep_cons] at h
    split at h
    · cases h
    · split at h
      · cases h
      · cases h
        exact ⟨.advanced (.after _), more_stopReport _⟩

theorem doBreak_effect (h : doBreak d args = .ok (d', reply)) :
    Effect d d' ∧ reply.more = true := by
  cases args with
  | nil =>
    cases h
    exact ⟨.none, rfl⟩
  | cons text rest =>
    rw [doBreak_cons] at h
    split at h
    · cases h
    · split at h
      · next hset =>
        cases h
        exact ⟨.marked hset, rfl⟩
      · cases h

theorem doDelete_effect (h : doDelete d args = .ok (d', reply)) :
    Effect d d' ∧ reply.more = true := by
  cases args with
  | nil =>
    cases h
    exact ⟨.unmarkedAll, rfl⟩
  | cons text rest =>
    rw [doDelete_cons] at h
    split at h
    · cases h
    · next line _ =>
      have hcleared := Effect.unmarked (d := d) line
      split at h <;> next hclear =>
        cases h
        rw [hclear] at hcleared
        exact ⟨hcleared, rfl⟩

theorem doList_same (d : Debugger) : (doList d).1 = d ∧ (doList d).2.more = true := by
  unfold doList
  split <;> exact ⟨rfl, rfl⟩

/-- **What a command does to a debugger**, and which one ends the shell. -/
theorem perform_effect {c : Command} (h : perform d c args = .ok (d', reply)) :
    Effect d d' ∧ (reply.more = false ↔ c = .quit) := by
  have hgoesOn : c ≠ .quit → reply.more = true → (reply.more = false ↔ c = .quit) :=
    fun hc hmore => by simp [hc, hmore]
  cases c with
  | step => exact (doStep_effect h).imp_right (hgoesOn (by decide))
  | «continue» =>
    cases h
    exact ⟨.advanced .atBreakpoint, hgoesOn (by decide) (more_stopReport _)⟩
  | «break» => exact (doBreak_effect h).imp_right (hgoesOn (by decide))
  | delete => exact (doDelete_effect h).imp_right (hgoesOn (by decide))
  | list =>
    obtain ⟨hsame, hmore⟩ := doList_same d
    rw [Except.ok.inj (h : Except.ok (doList d) = .ok (d', reply))] at hsame hmore
    exact ⟨hsame ▸ .none, hgoesOn (by decide) hmore⟩
  | dump | output | help =>
    cases h
    exact ⟨.none, hgoesOn (by decide) rfl⟩
  | restart =>
    cases h
    exact ⟨.restarted, hgoesOn (by decide) rfl⟩
  | quit =>
    cases h
    exact ⟨.none, by simp⟩

/-- A refused argument is answered with a refusal. -/
theorem perform_of_refuses {c : Command} (h : c.Refuses d text) (rest : List String) :
    ∃ e, perform d c (text :: rest) = .error e := by
  cases h with
  | @notInteger _ e hc herror =>
    refine ⟨.numeral e, ?_⟩
    rcases hc with rfl | rfl | rfl
    · rw [perform, doStep_cons, herror]
    · rw [perform, doBreak_cons, herror]
    · rw [perform, doDelete_cons, herror]
  | notPositive hok hcount =>
    exact ⟨.countNotPositive, by rw [perform, doStep_cons, hok]; exact if_pos hcount⟩
  | @outside line hok hline =>
    refine ⟨.line ⟨line, d.lineCount⟩, ?_⟩
    rw [perform, doBreak_cons, hok]
    simp only [Debugger.setBreakpoint, if_neg hline]

/-! ## The debuggers of a shell -/

theorem program_start (p : Program) (input : List UInt8) (debug : Bool) (maxSteps : Int)
    (breakpoints : List Nat) :
    (Debugger.start p input debug maxSteps breakpoints).program = p := rfl

theorem Effect.program_eq (h : Effect d d') : d'.program = d.program := by
  cases h with
  | none => rfl
  | advanced stop =>
    cases hhalted : d.halted with
    | true => rw [Debugger.advance_of_halted hhalted]
    | false => rw [Debugger.advance_of_not_halted hhalted]
  | restarted => exact program_start d.program d.input d.debug d.maxSteps d.breakpoints
  | marked h =>
    unfold Debugger.setBreakpoint at h
    split at h <;> cases h
    rfl
  | unmarked line =>
    unfold Debugger.clearBreakpoint
    split <;> rfl
  | unmarkedAll => rfl

/-- **A session comes to whatever a command makes of a debugger.** -/
theorem Effect.reached (h : Effect d d') (hd : d.Reached) : d'.Reached := by
  cases h with
  | none => exact hd
  | advanced stop => exact hd.advance stop
  | restarted => exact hd.restart
  | marked h =>
    unfold Debugger.setBreakpoint at h
    split at h <;> cases h
    exact hd.breakpoints _
  | unmarked line =>
    unfold Debugger.clearBreakpoint
    split
    · exact hd.breakpoints _
    · exact hd
  | unmarkedAll => exact hd.breakpoints []

end

/-! ## The lines to list -/

theorem exists_sourceLine {d : Debugger} {n : Nat} (h : 1 ≤ n)
    (hn : n ≤ (splitLines d.program.source).size) : ∃ text, d.sourceLine n = .ok text := by
  have hoffset : ¬ ((n : Int) - 1 < 0) := by omega
  obtain ⟨piece, hpiece⟩ : ∃ piece,
      (splitLines d.program.source)[((n : Int) - 1).toNat]? = some piece :=
    ⟨_, Array.getElem?_eq_getElem (by omega)⟩
  exact ⟨Utf8.decode piece, by simp only [Debugger.sourceLine, hoffset, if_false, hpiece]⟩

theorem mem_listedLines {d : Debugger} {n : Nat} (h : n ∈ listedLines d) :
    1 ≤ n ∧ n ≤ d.lineCount := by
  simp only [listedLines, List.mem_range'_1] at h
  omega

theorem exists_mapM {α β ε : Type} {f : α → Except ε β} {as : List α}
    (h : ∀ a ∈ as, ∃ b, f a = .ok b) : ∃ bs, as.mapM f = .ok bs := by
  induction as with
  | nil => exact ⟨[], rfl⟩
  | cons a as ih =>
    obtain ⟨⟨b, hb⟩, hrest⟩ := List.forall_mem_cons.mp h
    obtain ⟨bs, hbs⟩ := ih hrest
    exact ⟨b :: bs, by rw [List.mapM_cons, hb, hbs]; rfl⟩

/-- **There is every line to list.** -/
theorem exists_listing {d : Debugger} (hp : d.program.Prepared d.program.source) :
    ∃ text, listing d = .ok text := by
  have hrow : ∀ n ∈ listedLines d, ∃ row,
      (do let text ← d.sourceLine n; return listRow d n text : Except NoSuchLine String)
        = .ok row := by
    intro n hn
    obtain ⟨hone, hle⟩ := mem_listedLines hn
    obtain ⟨text, htext⟩ := exists_sourceLine hone (Nat.le_trans hle hp.lineCount_le)
    exact ⟨listRow d n text, by rw [htext]; rfl⟩
  obtain ⟨rows, hrows⟩ := exists_mapM hrow
  unfold listing
  split
  · exact ⟨_, rfl⟩
  · exact ⟨String.join rows, by rw [hrows]; rfl⟩

/-! ## One command line -/

section

variable {s : Shell} {line : String} {c : Command} {args : List String}

theorem execute_of_asks (h : Asks line c args) :
    s.execute line =
      match perform s.debugger c args with
      | .ok (d, reply) => (⟨d, line⟩, reply)
      | .error e => (⟨s.debugger, line⟩, ⟨"", Reply.error e.message, true⟩) := by
  have hline := ofLine_eq_command_iff.mpr h
  cases hperform : perform s.debugger c args <;> simp only [execute, hline, hperform]

/-- **A line that asks for no command leaves the shell as it is.** -/
theorem execute_of_not_asks (h : ∀ c args, ¬ Asks line c args) :
    (s.execute line).1 = s ∧ (s.execute line).2.more = true := by
  unfold execute
  split
  · exact ⟨rfl, rfl⟩
  · exact ⟨rfl, rfl⟩
  · exact ⟨rfl, rfl⟩
  · next c args hcommand => exact absurd (ofLine_eq_command_iff.mp hcommand) (h c args)

theorem execute_effect (s : Shell) (line : String) :
    Effect s.debugger (s.execute line).1.debugger := by
  by_cases h : ∃ c args, Asks line c args
  · obtain ⟨c, args, hasks⟩ := h
    rw [execute_of_asks hasks]
    cases hperform : perform s.debugger c args with
    | error e => exact .none
    | ok result => exact (perform_effect hperform).1
  · rw [(execute_of_not_asks fun c args hasks => h ⟨c, args, hasks⟩).1]
    exact .none

theorem more_execute_iff (s : Shell) (line : String) :
    (s.execute line).2.more = false ↔ ∃ args, Asks line .quit args := by
  by_cases h : ∃ c args, Asks line c args
  · obtain ⟨c, args, hasks⟩ := h
    have honly : (∃ args, Asks line .quit args) ↔ c = .quit := by
      refine ⟨fun ⟨args', hquit⟩ => ?_, fun hc => ⟨args, hc ▸ hasks⟩⟩
      have hsame := (ofLine_eq_command_iff.mpr hasks).symm.trans (ofLine_eq_command_iff.mpr hquit)
      exact (Request.command.inj hsame).1
    rw [honly, execute_of_asks hasks]
    cases hperform : perform s.debugger c args with
    | error e =>
      constructor
      · intro h
        cases h
      · rintro rfl
        cases hperform
    | ok result => exact (perform_effect hperform).2
  · rw [(execute_of_not_asks fun c args hasks => h ⟨c, args, hasks⟩).2]
    constructor
    · intro h
      cases h
    · rintro ⟨args, hasks⟩
      exact (h ⟨.quit, args, hasks⟩).elim

/-- **A refused argument leaves the debugger as it is**, and there is one line to say why. -/
theorem execute_of_refuses {text : String} {rest : List String} (h : Asks line c (text :: rest))
    (hrefuses : c.Refuses s.debugger text) :
    ∃ message, OneLine message ∧
      s.execute line = (⟨s.debugger, line⟩, ⟨"", "error: " ++ message ++ "\n", true⟩) := by
  obtain ⟨e, he⟩ := perform_of_refuses hrefuses rest
  exact ⟨e.message, e.oneLine_message, by rw [execute_of_asks h, he]; rfl⟩

end

/-! ## Any command lines -/

/-- A debugger can do whatever a command asks of it. -/
structure CanServe (d : Debugger) : Prop where
  /-- A run comes to the end of its loop. -/
  advances : d.halted = false → ∀ stop, ∃ P : Debugger.Progress,
    Debugger.ComesTo stop d.breakpoints 0 d.machine d.stepper d.state P ∧
    d.advance stop = (P.executed, { d with
      machine := P.machine, stepper := P.stepper, state := P.state
      error := P.error, status := P.status })
  /-- There is a first state to start over from. -/
  restarts : (Stepper.ofSetup ⟨d.program, d.debug, some d.maxSteps⟩ d.input).next
      (.blank Machine.defaultLength)
    = (.state d.restart.state, d.restart.stepper, d.restart.machine)
  /-- There is every line to list. -/
  lists : ∃ text, listing d = .ok text

/-- What comes of a command line, whatever stands in it. -/
structure Answers (s : Shell) (line : String) : Prop where
  canServe : CanServe s.debugger
  quits_iff : (s.execute line).2.more = false ↔ ∃ args, Asks line .quit args
  blank : (∀ ch ∈ line.toList, Text.isBlank ch = true) → (s.execute line).1 = s
  not_recognised : (∀ c args, ¬ Asks line c args) → (s.execute line).1 = s
  refused : ∀ c text rest, Asks line c (text :: rest) → c.Refuses s.debugger text →
    ∃ message, OneLine message ∧
      s.execute line = (⟨s.debugger, line⟩, ⟨"", "error: " ++ message ++ "\n", true⟩)

/-- The shell after command lines. -/
def after (s : Shell) (lines : List String) : Shell :=
  lines.foldl (fun s line => (s.execute line).1) s

/-- Some session has come to the debugger of the shell, and its program has the lines of its
source. -/
structure Sound (s : Shell) : Prop where
  reached : s.debugger.Reached
  prepared : s.debugger.program.Prepared s.debugger.program.source

namespace Sound

variable {s : Shell}

theorem execute (h : s.Sound) (line : String) : (s.execute line).1.Sound := by
  have heffect := execute_effect s line
  refine ⟨heffect.reached h.reached, ?_⟩
  rw [heffect.program_eq]
  exact h.prepared

theorem after (h : s.Sound) (lines : List String) : (s.after lines).Sound := by
  induction lines generalizing s with
  | nil => exact h
  | cons line rest ih => exact ih (h.execute line)

theorem canServe (h : s.Sound) : CanServe s.debugger := by
  obtain ⟨source, p, input, debug, maxSteps, session, hp, htracks, hsession⟩ := h.reached
  have hconsistent := htracks.consistent hp
  have hlisting := exists_listing h.prepared
  rw [← hsession] at hlisting ⊢
  exact ⟨hconsistent.advances, hconsistent.restarts, hlisting⟩

theorem answers (h : s.Sound) (line : String) : s.Answers line where
  canServe := h.canServe
  quits_iff := more_execute_iff s line
  blank hblank := (execute_of_not_asks (not_asks_of_blank hblank)).1
  not_recognised hasks := (execute_of_not_asks hasks).1
  refused _ _ _ := execute_of_refuses

end Sound

/-- The shell of a debugger starts sound, whatever was called on the debugger. -/
theorem sound_ofDebugger {source input : List UInt8} {debug : Bool} {maxSteps : Int} {d : Debugger}
    (hd : Debugger.ofSource source input debug maxSteps = .ok d) (calls : List Call) :
    (ofDebugger ((Session.ofDebugger d).run calls).debugger).Sound := by
  unfold Debugger.ofSource at hd
  split at hd
  · next p hp =>
    cases hd
    have hprepared := Program.prepared_of_prepare hp
    have htracks := (Session.tracks_start p input debug maxSteps []).run hprepared calls
    refine ⟨⟨source, p, input, debug, maxSteps, _, hprepared, htracks, rfl⟩, ?_⟩
    rw [ofDebugger, htracks.program_eq]
    exact Program.prepared_source hp
  · cases hd

/-- **The shell of a debugger never fails**, and a command line that is wrong does nothing. This is so
for any debugger, whatever was called on it and whatever was typed before. -/
theorem shell_never_fails {source input : List UInt8} {debug : Bool} {maxSteps : Int} {d : Debugger}
    (hd : Debugger.ofSource source input debug maxSteps = .ok d) (calls : List Call)
    (earlier : List String) (line : String) :
    ((ofDebugger ((Session.ofDebugger d).run calls).debugger).after earlier).Answers line :=
  ((sound_ofDebugger hd calls).after earlier).answers line

/-- A debugger of `+[.-]` has run to a breakpoint, and is to have one on a line that is not there. -/
theorem shell_never_fails_on_line_zero :
    ∃ d, Debugger.ofSource [0x2B, 0x5B, 0x2E, 0x2D, 0x5D] [] false 9 = .ok d ∧
      let s := (ofDebugger ((Session.ofDebugger d).run [.step 2]).debugger).after
        ["break 1", "continue"]
      ∃ message, OneLine message ∧
        s.execute "Br 0" = (⟨s.debugger, "Br 0"⟩, ⟨"", "error: " ++ message ++ "\n", true⟩) := by
  obtain ⟨p, hp⟩ : ∃ p, Program.prepare [0x2B, 0x5B, 0x2E, 0x2D, 0x5D] = .ok p := ⟨_, rfl⟩
  obtain ⟨d, hd⟩ : ∃ d, Debugger.ofSource [0x2B, 0x5B, 0x2E, 0x2D, 0x5D] [] false 9 = .ok d :=
    ⟨_, by rw [Debugger.ofSource, hp]⟩
  have hword : Text.lowercase "Br" = "br" := by decide +kernel
  have hwords : (Text.words "Br 0".toList).map String.ofList = ["Br", "0"] := by decide +kernel
  have hbreak : Command.break.IsMeantBy "br" := by
    refine .inr ⟨by decide, fun c hc => ?_⟩
    cases c <;> first | rfl | exact absurd hc (by decide)
  have hzero : Text.parseInt "0" = .ok 0 := by decide +kernel
  have hrefuses : ∀ d : Debugger, Command.break.Refuses d "0" := fun d => .outside hzero (by omega)
  exact ⟨d, hd, (shell_never_fails hd [.step 2] ["break 1", "continue"] "Br 0").refused .break "0" []
    ⟨"Br", hwords, hword ▸ hbreak⟩ (hrefuses _)⟩

end Shell

end TapeMachine
