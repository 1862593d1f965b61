import TapeMachine.Proofs.SourceLines

/-!
# The line map

The lines of the bytes are counted while the brackets are matched, and a source is split at its newlines
where it is shown. Neither makes use of the other, but they agree: the bytes on a line are a piece of
the source and the newline that ends it (`line_map_is_newline_split`).

The line of a byte is known from the newlines before it (`lineAt`). So a byte put in front of a source
joins its first line, or it is a newline and all other lines move on by one (`bytesAt_cons`). This is
also what it does to the pieces of the source.
-/

namespace TapeMachine

/-- The offsets of the bytes on a line, ascending. -/
def Program.offsetsOn (p : Program) (n : Nat) : List Nat :=
  (List.range p.source.length).filter fun i => p.line? i = some n

/-- The bytes on a line, in order. -/
def Program.bytesOn (p : Program) (n : Nat) : List UInt8 :=
  (p.offsetsOn n).filterMap fun i => p.source[i]?

/-- The piece of a number, counting from 0, with the newline that ends it. Nothing ends the last piece,
and there are no bytes past it. -/
def endedPiece (pieces : List (List UInt8)) (n : Nat) : List UInt8 :=
  match pieces[n]? with
  | some piece => if n + 1 < pieces.length then piece ++ [newline] else piece
  | none => []

/-! ## Lines and pieces -/

section

variable {pieces : List (List UInt8)}

theorem endedPiece_cons_zero (piece : List UInt8) (hne : pieces ≠ []) :
    endedPiece (piece :: pieces) 0 = piece ++ [newline] := by
  simp [endedPiece, List.length_pos_of_ne_nil hne]

theorem endedPiece_cons_succ (piece : List UInt8) (n : Nat) :
    endedPiece (piece :: pieces) (n + 1) = endedPiece pieces n := by
  simp [endedPiece]

/-- A byte put in front of the first piece is its first byte. -/
theorem endedPiece_modifyHead (hne : pieces ≠ []) (b : UInt8) (n : Nat) :
    endedPiece (pieces.modifyHead (b :: ·)) n
      = (if n = 0 then [b] else []) ++ endedPiece pieces n := by
  obtain ⟨piece, rest, rfl⟩ := List.exists_cons_of_ne_nil hne
  cases n with
  | zero =>
    by_cases hrest : rest = []
    · simp [endedPiece, hrest]
    · simp [endedPiece_cons_zero _ hrest]
  | succ n => simp [endedPiece_cons_succ]

end

/-- The bytes on a line of a source. -/
def bytesAt (source : List UInt8) (n : Nat) : List UInt8 :=
  ((List.range source.length).filter fun i => lineAt source i = n).filterMap fun i => source[i]?

section

variable (source : List UInt8)

@[simp] theorem lineAt_zero : lineAt source 0 = 1 := by simp [lineAt]

theorem lineAt_cons_succ (b : UInt8) (i : Nat) :
    lineAt (b :: source) (i + 1) = lineAt source i + if b = newline then 1 else 0 := by
  simp [lineAt, List.count_cons, Nat.add_assoc]

/-- Lines are counted from 1. -/
@[simp] theorem bytesAt_zero : bytesAt source 0 = [] := by simp [bytesAt, lineAt]

theorem bytesAt_cons (b : UInt8) (n : Nat) :
    bytesAt (b :: source) (n + 1)
      = (if n = 0 then [b] else []) ++ bytesAt source (if b = newline then n else n + 1) := by
  have hrest : (fun i => decide (lineAt (b :: source) i = n + 1)) ∘ Nat.succ
      = fun i => decide (lineAt source i = if b = newline then n else n + 1) := by
    funext i
    rw [Function.comp_apply, Nat.succ_eq_add_one, lineAt_cons_succ]
    split <;> simp
  rw [bytesAt, List.length_cons, List.range_succ_eq_map, List.filter_cons, List.filter_map, hrest]
  cases n with
  | zero => simp [bytesAt, List.filterMap_map]
  | succ n => simp [bytesAt, List.filterMap_map]

/-- **The bytes on a line are a piece with the newline that ends it.** -/
theorem bytesAt_eq_endedPiece :
    ∀ n, bytesAt source (n + 1) = endedPiece (source.splitOn newline) n := by
  induction source with
  | nil =>
    intro n
    cases n <;> simp [bytesAt, endedPiece]
  | cons b rest ih =>
    intro n
    have hne : rest.splitOn newline ≠ [] := List.splitOn_ne_nil newline rest
    rw [bytesAt_cons, List.splitOn_cons_eq_if_modifyHead]
    by_cases hb : b = newline
    -- A newline is a line of its own, and all lines of the rest move on by one.
    · cases n with
      | zero => simp [hb, endedPiece_cons_zero [] hne]
      | succ n => simp [hb, endedPiece_cons_succ, ih]
    -- Any other byte stands on the first line of the rest, in front of what is there.
    · simp [hb, endedPiece_modifyHead hne, ih]

/-- From byte to byte the lines go on by one at most. -/
theorem lineAt_succ_le (k : Nat) : lineAt source (k + 1) ≤ lineAt source k + 1 := by
  have hlast : source[k]?.toList.count newline ≤ 1 :=
    Nat.le_trans List.count_le_length (by cases source[k]? <;> simp)
  unfold lineAt
  rw [List.take_add_one, List.count_append]
  omega

/-- So no line up to that of a byte is left out. -/
theorem exists_lineAt_eq {n k : Nat} (hone : 1 ≤ n) (hle : n ≤ lineAt source k) :
    ∃ j ≤ k, lineAt source j = n := by
  induction k with
  | zero =>
    rw [lineAt_zero] at hle
    exact ⟨0, Nat.le_refl 0, by rw [lineAt_zero]; omega⟩
  | succ k ih =>
    rcases Nat.lt_or_ge (lineAt source k) n with hlt | hge
    · exact ⟨k + 1, Nat.le_refl _, by have := lineAt_succ_le source k; omega⟩
    · obtain ⟨j, hj, hline⟩ := ih hge
      exact ⟨j, Nat.le_succ_of_le hj, hline⟩

end

/-! ## The lines of a program -/

namespace Program

variable {source : List UInt8} {p : Program}

theorem Prepared.bytesOn_eq (hp : Prepared p.source p) (n : Nat) :
    p.bytesOn n = bytesAt p.source n := by
  have hoffsets : p.offsetsOn n
      = (List.range p.source.length).filter fun i => lineAt p.source i = n := by
    refine List.filter_congr fun i hi => ?_
    simp [hp.line?_eq i (List.mem_range.mp hi)]
  rw [bytesOn, hoffsets, bytesAt]

theorem Prepared.pairwise_lines (hp : Prepared source p) : p.lines.toList.Pairwise (· ≤ ·) := by
  rw [hp.toList_lines, List.pairwise_map]
  exact List.pairwise_le_range.imp (lineAt_mono source)

/-- There is a byte on every line. -/
theorem Prepared.mem_lines_iff (hp : Prepared source p) (n : Nat) :
    n ∈ p.lines ↔ 1 ≤ n ∧ n ≤ p.lineCount := by
  constructor
  · intro hn
    obtain ⟨k, hk⟩ := Array.mem_iff_getElem?.mp hn
    exact hp.line?_bounds hk
  · rintro ⟨hone, hle⟩
    have hne : source ≠ [] := by
      rintro rfl
      rw [hp.lineCount_nil] at hle
      omega
    have hpos := List.length_pos_of_ne_nil hne
    rw [hp.lineCount_eq hne] at hle
    obtain ⟨j, hj, hline⟩ := exists_lineAt_eq source hone hle
    rw [← Array.mem_toList_iff, hp.toList_lines]
    exact List.mem_map.mpr ⟨j, List.mem_range.mpr (by omega), hline⟩

/-- There is a line for every piece, but for an empty one at the end. -/
theorem Prepared.lineCount_add (hp : Prepared source p) :
    p.lineCount + (if source = [] ∨ source.getLast? = some newline then 1 else 0)
      = (source.splitOn newline).length := by
  rw [← toList_splitLines, Array.length_toList, size_splitLines]
  rcases List.eq_nil_or_concat' source with rfl | ⟨init, last, rfl⟩
  · simp [hp.lineCount_nil]
  · have hne : init ++ [last] ≠ [] := List.append_ne_nil_of_right_ne_nil init (List.cons_ne_nil last [])
    have hline : lineAt (init ++ [last]) ((init ++ [last]).length - 1) = 1 + init.count newline := by
      simp [lineAt]
    have hcount : (init ++ [last]).count newline
        = init.count newline + if last = newline then 1 else 0 := by
      simp [List.count_singleton]
    have hends : (init ++ [last] = [] ∨ (init ++ [last]).getLast? = some newline)
        ↔ last = newline := by
      simp
    rw [hp.lineCount_eq hne, hline, hcount]
    simp only [hends]
    omega

end Program

/-- **The lines of a program are the pieces of its source between newlines.** The bytes on a line are,
in order, its piece and the newline that ends it, if there is one; so the line of a byte is one more
than there are newlines before it, and lines never go back. There is a debugger for every accepted
source. Any debugger of the program counts the lines up to the last one with a byte on it, which are as
many as the pieces but for an empty one at the end, and what it shows are the pieces. -/
theorem line_map_is_newline_split {source : List UInt8} {p : Program}
    (hp : Program.prepare source = .ok p) :
    (∀ n, p.bytesOn (n + 1) = endedPiece (source.splitOn newline) n) ∧
      p.lines.toList
        = (List.range source.length).map (fun i => 1 + (source.take i).count newline) ∧
      p.lines.toList.Pairwise (· ≤ ·) ∧
      (∀ input debug maxSteps, ∃ d,
        Debugger.ofSource source input debug maxSteps = .ok d ∧ d.program = p) ∧
      ∀ d : Debugger, d.program = p →
        (∀ n, n ∈ p.lines ↔ 1 ≤ n ∧ n ≤ d.lineCount) ∧
        d.lineCount + (if source = [] ∨ source.getLast? = some newline then 1 else 0)
          = (source.splitOn newline).length ∧
        ∀ n line, d.sourceLine (n + 1 : Nat) = .ok line ↔
          ((source.splitOn newline)[n]?).map Utf8.decode = some line := by
  have hprepared := Program.prepared_of_prepare hp
  obtain rfl := Program.source_of_prepare hp
  refine ⟨fun n => ?_, hprepared.toList_lines, hprepared.pairwise_lines,
    fun input debug maxSteps => ⟨_, by rw [Debugger.ofSource, hp], rfl⟩, ?_⟩
  · rw [hprepared.bytesOn_eq, bytesAt_eq_endedPiece]
  · rintro d rfl
    refine ⟨hprepared.mem_lines_iff, hprepared.lineCount_add, fun n line => ?_⟩
    rw [Debugger.sourceLine_eq_ok_iff, textLines, toList_splitLines, List.getElem?_map]

/-- Some lines have nothing but their newline, and nothing stands behind the last newline. -/
theorem line_map_of_empty_lines :
    ∃ (p : Program) (d : Debugger),
      Program.prepare [0x0A, 0x2B, 0x5B, 0x0A, 0x0A, 0x2D, 0x5D, 0x0A] = .ok p ∧ d.program = p ∧
      p.bytesOn 1 = [0x0A] ∧ p.bytesOn 2 = [0x2B, 0x5B, 0x0A] ∧ p.bytesOn 3 = [0x0A] ∧
      p.bytesOn 4 = [0x2D, 0x5D, 0x0A] ∧ p.bytesOn 5 = [] ∧
      p.lines.toList = [1, 2, 2, 2, 3, 4, 4, 4] ∧ d.lineCount = 4 ∧ d.sourceLine 4 = .ok "-]" := by
  obtain ⟨p, hp⟩ : ∃ p,
      Program.prepare [0x0A, 0x2B, 0x5B, 0x0A, 0x0A, 0x2D, 0x5D, 0x0A] = .ok p := ⟨_, rfl⟩
  obtain ⟨hbytes, hlines, -, hdebugger, hshown⟩ := line_map_is_newline_split hp
  obtain ⟨d, -, hd⟩ := hdebugger [] false 1
  obtain ⟨-, hcount, hsource⟩ := hshown d hd
  refine ⟨p, d, hp, hd, hbytes 0, hbytes 1, hbytes 2, hbytes 3, hbytes 4, hlines, ?_,
    (hsource 3 _).mpr (by cbv)⟩
  exact Nat.add_right_cancel hcount

end TapeMachine
