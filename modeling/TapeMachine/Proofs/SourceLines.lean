import TapeMachine.Proofs.Arising
import TapeMachine.Proofs.Reading
import TapeMachine.Proofs.Utf8

/-!
# Source lines

A debugger splits its source at newline bytes, and reads each piece on its own. A newline stands in no
other character and in no ill-formed part, so the lines it shows are the lines of the whole source as
that is read (`Utf8.reads_intercalate`), and a source that is a text in bytes has the lines of this text
(`source_lines_are_lines_of_text`).
-/

namespace TapeMachine

/-! ## Reading line by line -/

namespace Utf8

theorem reads_decode (bytes : List UInt8) : Reads bytes (decode bytes).toList :=
  reads_iff.mpr String.ofList_toList.symm

/-- **The pieces between newlines are read on their own.** -/
theorem reads_intercalate {pieces : List (List UInt8)} (hne : pieces ≠ []) :
    Reads ([newline].intercalate pieces) ("\n".intercalate (pieces.map decode)).toList := by
  rw [String.toList_intercalate]
  show Reads _ (['\n'].intercalate ((pieces.map decode).map String.toList))
  induction pieces with
  | nil => exact absurd rfl hne
  | cons piece rest ih =>
    cases rest with
    | nil => simpa using reads_decode piece
    | cons next rest =>
      simp only [List.map_cons, List.intercalate_cons_cons, List.append_assoc] at ih ⊢
      exact (reads_decode piece).append_newline (ih (List.cons_ne_nil next rest))

end Utf8

/-! ## The lines of a source -/

/-- The lines of a source as texts. -/
def textLines (source : List UInt8) : List String := (splitLines source).toList.map Utf8.decode

section

variable (source : List UInt8)

theorem length_textLines : (textLines source).length = source.count newline + 1 := by
  rw [textLines, List.length_map, Array.length_toList, size_splitLines]

theorem oneLine_textLines : ∀ line ∈ textLines source, OneLine line := by
  intro line hline
  obtain ⟨piece, hpiece, rfl⟩ := List.mem_map.mp hline
  exact (Utf8.reads_decode piece).newline_notMem
    (newline_notMem_splitLines source piece (Array.mem_toList_iff.mp hpiece))

theorem reads_textLines : Utf8.Reads source ("\n".intercalate (textLines source)).toList := by
  have hne : (splitLines source).toList ≠ [] := by simp [toList_splitLines]
  have hreads := Utf8.reads_intercalate hne
  rwa [intercalate_splitLines] at hreads

/-- A text in bytes has the lines of the text. -/
theorem textLines_encode (text : String) :
    textLines (Utf8.encode text) = Text.split '\n' text.toList := by
  have htext : "\n".intercalate (textLines (Utf8.encode text)) = text := by
    have hreads := Utf8.reads_iff.mp (reads_textLines (Utf8.encode text))
    rw [Utf8.reads_iff.mp (Utf8.reads_encode text), String.ofList_toList, String.ofList_toList]
      at hreads
    exact hreads.symm
  have hne : (textLines (Utf8.encode text)).map String.toList ≠ [] := by
    simp [textLines, toList_splitLines]
  have hoff : ∀ line ∈ (textLines (Utf8.encode text)).map String.toList, '\n' ∉ line := by
    intro chars hchars
    obtain ⟨line, hline, rfl⟩ := List.mem_map.mp hchars
    exact oneLine_textLines _ line hline
  have hsplit := Text.split_intercalate hne hoff
  conv_rhs => rw [← htext, String.toList_intercalate]
  rw [show "\n".toList = ['\n'] from rfl, hsplit, List.map_map]
  exact (List.map_id'' (fun _ => String.ofList_toList) _).symm

end

/-! ## The lines that a debugger shows -/

theorem Debugger.sourceLine_eq_ok_iff {d : Debugger} {n : Nat} {line : String} :
    d.sourceLine (n + 1 : Nat) = .ok line ↔ (textLines d.program.source)[n]? = some line := by
  have hindex : ((n + 1 : Nat) : Int) - 1 = n := by omega
  have hoffset : ¬ (n : Int) < 0 := by omega
  rw [textLines, List.getElem?_map, Array.getElem?_toList]
  simp only [sourceLine, hindex, hoffset, if_false, Int.toNat_natCast]
  cases (splitLines d.program.source)[n]? <;> simp

/-- Every line number that a debugger can come up with is one of its program. -/
theorem Debugger.Sound.line_bounds {d : Debugger} (h : d.Sound) {n : Nat}
    (hn : d.state.line = some n ∨ n ∈ d.breakpoints ∨ n ∈ Shell.listedLines d) :
    1 ≤ n ∧ n ≤ d.lineCount := by
  rcases hn with hn | hn | hn
  · exact h.reached.line_bounds hn
  · exact h.marks.inside n hn
  · exact Shell.mem_listedLines hn

/-- **The lines that a debugger shows are the lines of its source as a text.** Whatever the bytes of an
accepted source are, there is one line more than newlines, and together they are what the source as a
whole is read as. Whatever was done to a debugger of it, these are the lines it shows, and there is one
for every line of the program; so there is one for whatever its state, its breakpoints or a listing
may name. -/
theorem source_lines_are_lines_of_text {source : List UInt8} {p : Program}
    (hp : Program.prepare source = .ok p) :
    ∃ lines : List String, lines.length = source.count newline + 1 ∧
      (∀ line ∈ lines, OneLine line) ∧
      Utf8.Reads source ("\n".intercalate lines).toList ∧
      (∀ text, source = Utf8.encode text → lines = Text.split '\n' text.toList) ∧
      ∀ d : Debugger, d.Arises → d.program = p →
        (∀ n line, d.sourceLine (n + 1 : Nat) = .ok line ↔ lines[n]? = some line) ∧
        (∀ n : Nat, 1 ≤ n → n ≤ d.lineCount → ∃ line ∈ lines, d.sourceLine n = .ok line) ∧
        ∀ n, d.state.line = some n ∨ n ∈ d.breakpoints ∨ n ∈ Shell.listedLines d →
          1 ≤ n ∧ n ≤ d.lineCount := by
  refine ⟨textLines source, length_textLines source, oneLine_textLines source,
    reads_textLines source, fun text htext => htext ▸ textLines_encode text, ?_⟩
  rintro d hd rfl
  have hsource := Program.source_of_prepare hp
  have hsound := hd.sound
  have hshows : ∀ (n : Nat) line, d.sourceLine (n + 1 : Nat) = .ok line ↔
      (textLines source)[n]? = some line := fun n line => by
    rw [Debugger.sourceLine_eq_ok_iff, hsource]
  refine ⟨hshows, fun n hone hle => ?_, fun n => hsound.line_bounds⟩
  obtain ⟨line, hline⟩ := Shell.exists_sourceLine hone (Nat.le_trans hle hsound.prepared.lineCount_le)
  obtain ⟨k, rfl⟩ := Nat.exists_eq_succ_of_ne_zero (Nat.ne_of_gt hone)
  exact ⟨line, List.mem_of_getElem? ((hshows k line).mp hline), hline⟩

/-- The bytes of a character stand on two lines, and there is a breakpoint on the second one. -/
theorem source_lines_of_torn_character :
    ∃ (p : Program) (d : Debugger), Program.prepare [0x2B, 0xC3, 0x0A, 0xA9, 0x2B] = .ok p ∧
      d.Arises ∧ d.program = p ∧ d.breakpoints = [2] ∧ d.sourceLine 1 = .ok "+\uFFFD" ∧
      d.sourceLine 2 = .ok "\uFFFD+" ∧
      Utf8.Reads [0x2B, 0xC3, 0x0A, 0xA9, 0x2B] "+\uFFFD\n\uFFFD+".toList := by
  obtain ⟨p, hp, hcount⟩ : ∃ p, Program.prepare [0x2B, 0xC3, 0x0A, 0xA9, 0x2B] = .ok p ∧
      p.lineCount = 2 := ⟨_, rfl, rfl⟩
  obtain ⟨d₀, hd₀, hprogram, hnone⟩ : ∃ d₀ : Debugger, d₀.Arises ∧ d₀.program = p ∧
      d₀.breakpoints = [] :=
    ⟨.start p [] false 9 [], .new (by rw [Debugger.ofSource, hp]), rfl, rfl⟩
  have hset : ((Session.ofDebugger d₀).call (.setBreakpoint 2)).debugger
      = { d₀ with breakpoints := [2] } := by
    have hline : (1 : Int) ≤ 2 ∧ (2 : Int) ≤ d₀.lineCount := by
      rw [Debugger.lineCount, hprogram, hcount]
      decide
    simp only [Session.call, Session.ofDebugger, Debugger.setBreakpoint, if_pos hline, hnone]
    rfl
  have hd : Debugger.Arises { d₀ with breakpoints := [2] } := hset ▸ .called hd₀ (.setBreakpoint 2)
  obtain ⟨lines, -, -, hreads, -, hshown⟩ := source_lines_are_lines_of_text hp
  obtain ⟨hshows, -, -⟩ := hshown _ hd hprogram
  have htext : textLines [0x2B, 0xC3, 0x0A, 0xA9, 0x2B] = ["+\uFFFD", "\uFFFD+"] := by cbv
  obtain rfl : lines = ["+\uFFFD", "\uFFFD+"] := List.ext_getElem? fun n => Option.ext fun line => by
    rw [← hshows n line, Debugger.sourceLine_eq_ok_iff, hprogram, Program.source_of_prepare hp, htext]
  exact ⟨p, _, hp, hd, hprogram, rfl, (hshows 0 _).mpr rfl, (hshows 1 _).mpr rfl, hreads⟩

end TapeMachine
