import TapeMachine.Proofs.FrontEnds
import TapeMachine.Proofs.Insertion
import TapeMachine.Proofs.Sharing
import TapeMachine.Proofs.Utf8

/-!
# Program text beyond ASCII

A program that comes with a request is text, and what is run are its bytes. A character beyond ASCII
has several bytes, and none of them is an instruction or a newline. So it is a comment, and other
comments may stand in its place (`Replaced`).

* `Interchangeable.uncommented`: the comments of a source may be left out
* `Replaced.interchangeable`: the bytes of a text and of one with other comments run alike
* `Web.countsCharacters_runProgram`: what the diagnostics of a run are about are characters of its
  text (`Web.Blames`), and their lines are counted in characters
-/

namespace TapeMachine

/-! ## Sources without their comments -/

/-- The source without the bytes that are neither instructions nor newlines. -/
def uncommented (source : List UInt8) : List UInt8 :=
  source.filter fun b => Instruction.ofByte b ≠ .inert ∨ b = newline

theorem uncommented_append (source source' : List UInt8) :
    uncommented (source ++ source') = uncommented source ++ uncommented source' :=
  List.filter_append ..

theorem bracketStep_of_inert {b : UInt8} (h : Instruction.ofByte b = .inert) :
    bracketStep b = none := by
  rcases bracket_cases b with rfl | rfl | plain
  · cases h
  · cases h
  · exact plain

/-- **Without its comments a source runs as it did.** They are left out one byte after the other. -/
theorem Interchangeable.uncommented (source : List UInt8) : ∀ before : List UInt8,
    Interchangeable (before ++ source) (before ++ uncommented source) := by
  induction source with
  | nil => exact fun before => .refl _
  | cons b rest ih =>
    intro before
    by_cases hb : Instruction.ofByte b ≠ .inert ∨ b = newline
    · have hkept : TapeMachine.uncommented (b :: rest) = b :: TapeMachine.uncommented rest :=
        List.filter_cons_of_pos (by simpa using hb)
      rw [hkept]
      simpa using ih (before ++ [b])
    · have hdropped : TapeMachine.uncommented (b :: rest) = TapeMachine.uncommented rest :=
        List.filter_cons_of_neg (by simpa using hb)
      rw [not_or, not_not] at hb
      have hneutral := Block.neutral_byte (bracketStep_of_inert hb.1) hb.1 hb.2
      rw [hdropped]
      exact (insert hneutral before rest).symm.trans (ih before)

/-! ## Comments in a text -/

/-- The character is neither an instruction nor a newline. -/
def IsComment (c : Char) : Prop := c ≠ '\n' ∧ ∀ i : Instruction, i.symbol ≠ some c

/-- The second text has other comments where the first one has characters beyond ASCII. -/
inductive Replaced : List Char → List Char → Prop where
  | nil : Replaced [] []
  | ascii {c : Char} {cs cs' : List Char} (hc : c.toNat < 0x80) (h : Replaced cs cs') :
    Replaced (c :: cs) (c :: cs')
  | foreign {c : Char} {piece cs cs' : List Char} (hc : 0x80 ≤ c.toNat)
    (hpiece : ∀ x ∈ piece, x.toNat < 0x80 ∧ IsComment x) (h : Replaced cs cs') :
    Replaced (c :: cs) (piece ++ cs')

theorem Instruction.symbol_lt {i : Instruction} {c : Char} (h : i.symbol = some c) :
    c.toNat < 0x80 := by
  cases i <;> simp [symbol] at h <;> subst h <;> decide

theorem Instruction.exists_symbol {b : UInt8} (h : ofByte b ≠ .inert) :
    ∃ c, (ofByte b).symbol = some c ∧ c.toNat = b.toNat := by
  obtain ⟨c, hc⟩ : ∃ c, (ofByte b).symbol = some c := by
    cases hi : ofByte b with
    | inert => exact absurd hi h
    | _ => exact ⟨_, rfl⟩
  have hlt := symbol_lt hc
  exact ⟨c, hc, by rw [eq_of_symbol_ofByte hc, Utf8.toNat_ofNat_of_lt (by omega)]⟩

theorem isComment_of_le {c : Char} (h : 0x80 ≤ c.toNat) : IsComment c := by
  constructor
  · rintro rfl
    exact absurd h (by decide)
  · intro i hi
    exact absurd (Instruction.symbol_lt hi) (Nat.not_lt.mpr h)

/-- The bytes of a comment are comments. -/
theorem IsComment.uncommented_eq_nil {c : Char} (h : IsComment c) :
    uncommented (String.utf8EncodeChar c) = [] := by
  refine List.filter_eq_nil_iff.mpr fun b hb => ?_
  rw [decide_eq_true_eq, not_or, not_not]
  constructor
  · by_contra hinstruction
    obtain ⟨s, hs, hnat⟩ := Instruction.exists_symbol hinstruction
    have hlt := Instruction.symbol_lt hs
    obtain ⟨-, hc⟩ := Utf8.utf8EncodeChar_eq_of_mem (by omega) hb
    rw [Char.toNat_inj.mp (hnat.trans hc.symm)] at hs
    exact h.2 _ hs
  · rintro rfl
    obtain ⟨-, hc⟩ := Utf8.utf8EncodeChar_eq_of_mem (by decide) hb
    exact h.1 (Char.toNat_inj.mp hc)

theorem uncommented_of_comments {cs : List Char} (h : ∀ c ∈ cs, IsComment c) :
    uncommented (cs.flatMap String.utf8EncodeChar) = [] := by
  induction cs with
  | nil => rfl
  | cons c cs ih =>
    rw [List.flatMap_cons, uncommented_append, (h c List.mem_cons_self).uncommented_eq_nil,
      ih fun c hc => h c (List.mem_cons_of_mem _ hc)]
    rfl

namespace Replaced

theorem uncommented_eq {cs cs' : List Char} (h : Replaced cs cs') :
    uncommented (cs.flatMap String.utf8EncodeChar)
      = uncommented (cs'.flatMap String.utf8EncodeChar) := by
  induction h with
  | nil => rfl
  | ascii _ _ ih => simp only [List.flatMap_cons, uncommented_append, ih]
  | foreign hc hpiece _ ih =>
    rw [List.flatMap_cons, List.flatMap_append, uncommented_append, uncommented_append,
      (isComment_of_le hc).uncommented_eq_nil,
      uncommented_of_comments fun x hx => (hpiece x hx).2, ih]

/-- **Other comments make no other program.** -/
theorem interchangeable {code code' : String} (h : Replaced code.toList code'.toList) :
    Interchangeable (Utf8.encode code) (Utf8.encode code') := by
  have hcode := Interchangeable.uncommented (Utf8.encode code) []
  have hcode' := Interchangeable.uncommented (Utf8.encode code') []
  have hsame : uncommented (Utf8.encode code) = uncommented (Utf8.encode code') := h.uncommented_eq
  rw [hsame] at hcode
  exact hcode.trans hcode'.symm

end Replaced

namespace Web

/-! ## Answers to runs -/

/-- The request asks for a run with this form, and for one of this text. -/
structure Request.Runs (r : Request) (form : ProgramForm) (code : String) : Prop where
  route_eq : r.route? = some .run
  form_eq : r.form? ProgramForm.check = some form
  code_eq : form.code.read = .ok code

/-- The text has at `k` what the diagnostic is about: a bracket without a partner, or the move with
which the run of the text leaves the tape. -/
inductive Blames (form : ProgramForm) (code : String) (k : Nat) : Diagnostic → Prop where
  | lone {bracket : Char} {line : Nat} (hbracket : bracket = '[' ∨ bracket = ']')
    (hchar : code.toList[k]? = some bracket)
    (hlone : LoneAt (Utf8.encode code) (.ofNat bracket.toNat) (Utf8.offset code.toList k)) :
    Blames form code k (.unbalanced line bracket)
  | offTape {p : Program} {n line : Nat} {c : Config} {symbol : Char}
    (hchar : code.toList[k]? = some symbol)
    (hprepare : Program.prepare (Utf8.encode code) = .ok p)
    (hends : Config.EndsAfter ⟨p, form.debug, some form.maxSteps⟩
      (.start Machine.defaultLength form.input) n c (.failed (.outOfBounds line symbol)))
    (hpc : c.pc = Utf8.offset code.toList k)
    (hoff : symbol = '<' ∧ c.pointer = 0 ∨ symbol = '>' ∧ c.pointer + 1 = c.tape.size) :
    Blames form code k (.outOfBounds line symbol.toString)

/-- The diagnostics of a run are about characters of its text, and their lines are counted in
characters. -/
def CountsCharacters (form : ProgramForm) (code : String) (answer : Answer) : Prop :=
  answer.status? = some 200 → ∃ ds : List Diagnostic,
    answer.member? "diagnostics" = some (.array (ds.map diagnosticJson)) ∧
    ∀ d ∈ ds, ∃ k, Blames form code k d ∧
      d.line = (1 + (code.toList.take k).count '\n' : Nat)

section

variable {form : ProgramForm} {code code' : String}

/-! ## Lines -/

/-- A bracket without a partner is blamed where it stands. -/
theorem exists_blames_of_loneAt (form : ProgramForm) {bracket : Char}
    (hbracket : bracket = '[' ∨ bracket = ']') {i : Nat}
    (h : LoneAt (Utf8.encode code) (.ofNat bracket.toNat) i) :
    ∃ k, Blames form code k (.unbalanced (lineAt (Utf8.encode code) i) bracket) ∧
      lineAt (Utf8.encode code) i = 1 + (code.toList.take k).count '\n' := by
  have hascii : bracket.toNat < 0x80 := by rcases hbracket with rfl | rfl <;> decide
  obtain ⟨k, hchar, rfl, hline⟩ := Utf8.exists_index_of_char hascii h.1
  exact ⟨k, .lone hbracket hchar h, hline⟩

/-- Every diagnostic of a text that is refused blames a bracket. -/
theorem exists_blames_of_error {ds : List Diagnostic}
    (hds : Program.prepare (Utf8.encode code) = .error ds) :
    ∀ d ∈ ds, ∃ k, Blames form code k d ∧
      d.line = (1 + (code.toList.take k).count '\n' : Nat) := by
  obtain ⟨-, rfl⟩ := Program.prepare_eq_error_iff.mp hds
  rw [Program.diagnostics_eq (Brackets.scanned_ofInstructions _).1]
  intro d hd
  rcases List.mem_append.mp hd with hd | hd
  all_goals
    obtain ⟨i, hi, rfl⟩ := List.mem_map.mp hd
    rw [List.mem_reverse] at hi
  · obtain ⟨k, hk, hline⟩ := exists_blames_of_loneAt form (.inr rfl)
      (Brackets.mem_loneCloses_iff.mp hi)
    exact ⟨k, hk, congrArg Nat.cast hline⟩
  · obtain ⟨k, hk, hline⟩ := exists_blames_of_loneAt form (.inl rfl)
      (Brackets.mem_opens_iff.mp hi)
    exact ⟨k, hk, congrArg Nat.cast hline⟩

/-- A run that leaves the tape is blamed on the move that does. -/
theorem exists_blames_of_endsAfter {p : Program} {n line : Nat} {c : Config} {symbol : Char}
    (hp : Program.prepare (Utf8.encode code) = .ok p)
    (hends : Config.EndsAfter ⟨p, form.debug, some form.maxSteps⟩
      (.start Machine.defaultLength form.input) n c (.failed (.outOfBounds line symbol))) :
    ∃ k, Blames form code k (.outOfBounds line symbol.toString) ∧
      line = 1 + (code.toList.take k).count '\n' := by
  have hsource : p.source = Utf8.encode code := Program.source_of_prepare hp
  have hprepared := Program.prepared_source hp
  have hsound := (Config.sound_start ⟨p, form.debug, some form.maxSteps⟩ form.input
    (show 0 < Machine.defaultLength by decide)).after hprepared hends.after_eq
  obtain ⟨-, hfails⟩ := hsound.stuck_of_ending hprepared hends.ending_eq
  cases hfails with
  | right hbyte hlast =>
    rw [hsource] at hbyte hends ⊢
    obtain ⟨k, hchar, hpc, hline⟩ := Utf8.exists_index_of_char (c := '>') (by decide) hbyte
    exact ⟨k, .offTape hchar hp hends hpc.symm (.inr ⟨rfl, hlast⟩), hline⟩
  | left hbyte hfirst =>
    rw [hsource] at hbyte hends ⊢
    obtain ⟨k, hchar, hpc, hline⟩ := Utf8.exists_index_of_char (c := '<') (by decide) hbyte
    exact ⟨k, .offTape hchar hp hends hpc.symm (.inl ⟨rfl, hfirst⟩), hline⟩

/-- **The lines of every run are those of characters.** -/
theorem countsCharacters_runProgram (form : ProgramForm) (code : String) :
    CountsCharacters form code (.ok (App.runProgram form code)) := by
  intro hstatus
  cases hp : Program.prepare (Utf8.encode code) with
  | error ds =>
    rw [runProgram_of_error hp]
    exact ⟨ds, rfl, exists_blames_of_error hp⟩
  | ok p =>
    obtain ⟨n, c, e, hends, hrun⟩ := exists_runProgram_eq form hp
    rw [hrun] at hstatus ⊢
    cases budgeted_of_endsAfter hends with
    | finished => exact ⟨[], rfl, List.forall_mem_nil _⟩
    | outOfBounds line symbol =>
      obtain ⟨k, hk, hline⟩ := exists_blames_of_endsAfter hp hends
      refine ⟨[.outOfBounds line symbol.toString], rfl, ?_⟩
      exact List.forall_mem_singleton.mpr ⟨k, hk, congrArg Nat.cast hline⟩
    | exhausted budget => cases hstatus

/-! ## Runs of interchangeable texts -/

/-- A run that is not refused for its budget ends as it would without one. -/
theorem execute_of_endsAfter {p : Program} {n : Nat} {c : Config} {e : Ending}
    (hends : Config.EndsAfter ⟨p, form.debug, some form.maxSteps⟩
      (.start Machine.defaultLength form.input) n c e)
    (hstatus : (Response.ofEnding c.output e).status ≠ 409) :
    ∃ fuel, ((Machine.blank Machine.defaultLength).execute ⟨p, form.debug, none⟩ form.input
        fuel).ending = some e ∧
      ((Machine.blank Machine.defaultLength).execute ⟨p, form.debug, none⟩ form.input
        fuel).output = c.output := by
  have hwithin : ∀ m, e ≠ .failed (.exhausted m) := by
    rintro m rfl
    exact hstatus rfl
  have hexecute := Config.execute_eq_some_iff.mpr
    ⟨n, Nat.lt_succ_self n, hends.without_budget hwithin⟩
  refine ⟨n + 1, ?_⟩
  simp only [Machine.execute, Machine.length_blank, hexecute, and_self]

/-- Interchangeable texts have the same answers, unless a budget is used up. -/
theorem runProgram_eq_of_interchangeable (h : Interchangeable (Utf8.encode code) (Utf8.encode code'))
    (hran : (App.runProgram form code).status ≠ 409)
    (hran' : (App.runProgram form code').status ≠ 409) :
    (App.runProgram form code).status = 200 ∧
      App.runProgram form code = App.runProgram form code' := by
  cases hp : Program.prepare (Utf8.encode code) with
  | error ds =>
    rw [runProgram_of_error hp, runProgram_of_error ((h.error_iff ds).mp hp)]
    exact ⟨rfl, rfl⟩
  | ok p =>
    obtain ⟨q, hq⟩ := h.exists_prepare hp
    obtain ⟨n, c, e, hends, hrun⟩ := exists_runProgram_eq form hp
    obtain ⟨n', c', e', hends', hrun'⟩ := exists_runProgram_eq form hq
    rw [hrun] at hran ⊢
    rw [hrun'] at hran' ⊢
    obtain ⟨fuel, he, houtput⟩ := execute_of_endsAfter hends hran
    obtain ⟨fuel', he', houtput'⟩ := execute_of_endsAfter hends' hran'
    have hcells : 0 < (Machine.blank Machine.defaultLength).length := by
      rw [Machine.length_blank]
      decide
    obtain ⟨hsame, -, rfl⟩ := (h.endBy hp hq form.debug _ form.input hcells).2 fuel fuel' e e' he he'
    refine ⟨?_, by rw [← houtput, ← houtput', hsame]⟩
    cases budgeted_of_endsAfter hends with
    | finished => rfl
    | outOfBounds line symbol => rfl
    | exhausted budget => exact absurd rfl hran

/-- **Program text beyond ASCII is a comment.** A run that is asked for with other comments in the
place of the characters beyond ASCII has the same answer, unless one of the two uses up its budget, and
every line in the answers is counted in characters. -/
theorem foreign_text_is_comment (app app' : App) (fresh fresh' : String) {r r' : Request}
    {form form' : ProgramForm} (hr : r.Runs form code) (hr' : r'.Runs form' code')
    (hfields : form' = { form with code := form'.code })
    (hreplaced : Replaced code.toList code'.toList) :
    ((app.handle fresh r).2.status? ≠ some 409 → (app'.handle fresh' r').2.status? ≠ some 409 →
      (app.handle fresh r).2.status? = some 200 ∧
        (app.handle fresh r).2 = (app'.handle fresh' r').2) ∧
    CountsCharacters form code (app.handle fresh r).2 ∧
    CountsCharacters form' code' (app'.handle fresh' r').2 := by
  rw [App.handle_run hr.route_eq hr.form_eq hr.code_eq,
    App.handle_run hr'.route_eq hr'.form_eq hr'.code_eq]
  refine ⟨fun hran hran' => ?_, countsCharacters_runProgram form code,
    countsCharacters_runProgram form' code'⟩
  have hsame : App.runProgram form' code' = App.runProgram form code' := by rw [hfields]; rfl
  rw [hsame] at hran' ⊢
  obtain ⟨hstatus, hanswer⟩ := runProgram_eq_of_interchangeable hreplaced.interchangeable
    (fun h => hran (congrArg some h)) (fun h => hran' (congrArg some h))
  exact ⟨congrArg some hstatus, congrArg Except.ok hanswer⟩

/-- A letter of two bytes is replaced by two letters, before a move that leaves the tape from the second
line. -/
theorem foreign_text_is_comment_before_failing_move :
    let form : ProgramForm := ⟨.ofString "é\n<", [], false, 9⟩
    let form' : ProgramForm := ⟨.ofString "ae\n<", [], false, 9⟩
    let r : Request := ⟨"POST", "/api/run",
      Utf8.encode "\x7b\"code\":\"é\\n<\",\"max_steps\":9\x7d"⟩
    let r' : Request := ⟨"POST", "/api/run",
      Utf8.encode "\x7b\"code\":\"ae\\n<\",\"max_steps\":9\x7d"⟩
    (r.Runs form "é\n<" ∧ r'.Runs form' "ae\n<" ∧ form' = { form with code := form'.code } ∧
      Replaced "é\n<".toList "ae\n<".toList) ∧
    ((App.empty 1).handle "" r).2 = ((App.empty 1).handle "" r').2 ∧
    ((App.empty 1).handle "" r).2.member? "diagnostics"
      = some (.array [diagnosticJson (.outOfBounds 2 "<")]) := by
  intro form form' r r'
  have hbody : App.readBody r.body = .ok (some
      (.object [(.ofString "code", .string "é\n<"), (.ofString "max_steps", .int 9)])) := by cbv
  have hbody' : App.readBody r'.body = .ok (some
      (.object [(.ofString "code", .string "ae\n<"), (.ofString "max_steps", .int 9)])) := by cbv
  have hr : r.Runs form "é\n<" :=
    ⟨by decide +kernel, Request.form?_eq_some hbody rfl, by cbv⟩
  have hr' : r'.Runs form' "ae\n<" :=
    ⟨by decide +kernel, Request.form?_eq_some hbody' rfl, by cbv⟩
  have hpiece : ∀ x ∈ ['a', 'e'], x.toNat < 0x80 ∧ IsComment x := by
    intro x hx
    rcases List.mem_pair.mp hx with rfl | rfl
    all_goals exact ⟨by decide, by decide, fun i => by cases i <;> decide⟩
  have hreplaced : Replaced "é\n<".toList "ae\n<".toList :=
    .foreign (by decide) hpiece (.ascii (by decide) (.ascii (by decide) .nil))
  have hanswer : ((App.empty 1).handle "" r).2
      = .ok ⟨200, .json (runJson [] [.outOfBounds 2 "<"])⟩ := by
    rw [App.handle_run hr.route_eq hr.form_eq hr.code_eq]
    rfl
  have hanswer' : ((App.empty 1).handle "" r').2.status? = some 200 := by
    rw [App.handle_run hr'.route_eq hr'.form_eq hr'.code_eq]
    rfl
  obtain ⟨hsame, -, -⟩ := foreign_text_is_comment (App.empty 1) (App.empty 1) "" "" hr hr' rfl
    hreplaced
  refine ⟨⟨hr, hr', rfl, hreplaced⟩, (hsame ?_ ?_).2, ?_⟩
  · rw [hanswer]
    decide
  · rw [hanswer']
    decide
  · rw [hanswer]
    rfl

end

end Web

end TapeMachine
