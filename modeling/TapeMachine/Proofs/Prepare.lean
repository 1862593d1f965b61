import TapeMachine.Proofs.Lines
import TapeMachine.Proofs.Matching

/-!
# Preparing a source

`Program.prepare` accepts the balanced sources, and the jumps it builds are their table of partners.

The scan meets a block with some stack of open brackets and leaves it with the same stack
(`Brackets.scan_code`). So a balanced source, which is the code of a block, leaves no lone bracket.
The other way round, a source that leaves none never closed more than was open.
-/

namespace TapeMachine

/-! ## Decoding brackets -/

namespace Instruction

/-- An instruction is decoded from its symbol only. -/
theorem eq_of_symbol_ofByte {b : UInt8} {c : Char} (h : (ofByte b).symbol = some c) :
    b = UInt8.ofNat c.toNat := by
  apply UInt8.toNat_inj.mp
  unfold ofByte at h
  split at h <;> simp only [symbol, Option.some.injEq, reduceCtorEq] at h <;>
    subst h <;> assumption

@[simp] theorem ofByte_openBracket : ofByte openBracket = .loopOpen := rfl

@[simp] theorem ofByte_closeBracket : ofByte closeBracket = .loopClose := rfl

theorem ofByte_ne_loopOpen {b : UInt8} (h : bracketStep b = none) : ofByte b ≠ .loopOpen := by
  intro he
  exact ne_openBracket h (eq_of_symbol_ofByte (c := '[') (by rw [he]; rfl))

theorem ofByte_ne_loopClose {b : UInt8} (h : bracketStep b = none) : ofByte b ≠ .loopClose := by
  intro he
  exact ne_closeBracket h (eq_of_symbol_ofByte (c := ']') (by rw [he]; rfl))

end Instruction

/-! ## The scan -/

namespace Brackets

theorem push_plain {b : UInt8} (h : bracketStep b = none) (s : Brackets) (k : Nat) :
    s.push k (Instruction.ofByte b) = s := by
  unfold push
  split
  · next he => exact absurd he (Instruction.ofByte_ne_loopOpen h)
  · next he => exact absurd he (Instruction.ofByte_ne_loopClose h)
  · rfl

/-- **The scan passes over a block.** It takes in the pairs of the block and nothing else. -/
theorem scan_code (block : Block) :
    ∀ (s : Brackets) (k : Nat) (rest : List Instruction),
      s.scan k (block.code.map Instruction.ofByte ++ rest)
        = { s with pairs := block.pairs k ++ s.pairs }.scan (k + block.size) rest := by
  induction block with
  | nil => intro s k rest; rfl
  | byte b plain next ih =>
    intro s k rest
    rw [Block.code, List.map_cons, List.cons_append, scan, push_plain plain, ih]
    rw [Block.pairs, Block.size, show k + 1 + next.size = k + (next.size + 1) by omega]
  | loop body next ihBody ihNext =>
    intro s k rest
    rw [Block.code, List.map_cons, List.map_append, List.map_cons, List.cons_append,
      List.append_assoc, List.cons_append, scan, Instruction.ofByte_openBracket, ihBody, scan,
      Instruction.ofByte_closeBracket]
    simp only [push]
    rw [ihNext]
    simp only [Block.pairs, Block.size, List.append_assoc, List.cons_append]
    rw [show k + 1 + body.size + 1 + next.size = k + (body.size + next.size + 2) by omega]

/-- The scan of a whole block. -/
theorem ofInstructions_code (block : Block) :
    ofInstructions (block.code.map Instruction.ofByte) = ⟨block.pairs 0, [], []⟩ := by
  have := scan_code block empty 0 []
  rw [List.append_nil] at this
  rw [ofInstructions, this]
  simp [scan, empty]

theorem lone_eq_nil_iff {s : Brackets} : s.lone = [] ↔ s.loneCloses = [] ∧ s.opens = [] := by
  simp [lone]

/-- What a scan leaves without lone brackets closes the brackets that were open before. -/
theorem closesFrom_of_lone_scan (source : List UInt8) :
    ∀ (s : Brackets) (k : Nat), (s.scan k (source.map Instruction.ofByte)).lone = [] →
      s.loneCloses = [] ∧ ClosesFrom s.opens.length (bracketWord source) := by
  induction source with
  | nil =>
    intro s k h
    obtain ⟨hcloses, hopens⟩ := lone_eq_nil_iff.mp h
    exact ⟨hcloses, closesFrom_nil.mpr (List.length_eq_zero_iff.mpr hopens)⟩
  | cons b source ih =>
    intro s k h
    rw [List.map_cons, scan] at h
    obtain ⟨hcloses, hrest⟩ := ih _ _ h
    rcases bracket_cases b with rfl | rfl | plain
    · rw [bracketWord_open, closesFrom_up]
      exact ⟨hcloses, hrest⟩
    · rw [Instruction.ofByte_closeBracket] at hcloses hrest
      cases ho : s.opens with
      | nil => simp [push, ho] at hcloses
      | cons o opens =>
        simp only [push, ho] at hcloses hrest
        rw [bracketWord_close, List.length_cons, closesFrom_down]
        exact ⟨hcloses, hrest⟩
    · rw [push_plain plain] at hcloses hrest
      rw [bracketWord_plain plain]
      exact ⟨hcloses, hrest⟩

theorem balanced_of_lone {source : List UInt8}
    (h : (ofInstructions (source.map Instruction.ofByte)).lone = []) : Balanced source :=
  balanced_iff_closesFrom.mpr (closesFrom_of_lone_scan source empty 0 h).2

/-! ## The jump table -/

@[simp] theorem size_jumpTable (s : Brackets) (n : Nat) : (s.jumpTable n).size = n := by
  obtain ⟨pairs, loneCloses, opens⟩ := s
  unfold jumpTable
  induction pairs with
  | nil => exact Array.size_replicate
  | cons pair pairs ih => simpa using ih

/-- An entry of the table comes from a pair, and every pair leaves an entry at both its ends. -/
theorem jumpTable_getElem? (s : Brackets) {n i : Nat} (hi : i < n) :
    (∃ j, (s.jumpTable n)[i]? = some (some j) ∧ ((i, j) ∈ s.pairs ∨ (j, i) ∈ s.pairs)) ∨
      ((s.jumpTable n)[i]? = some none ∧ ∀ j, (i, j) ∉ s.pairs ∧ (j, i) ∉ s.pairs) := by
  obtain ⟨pairs, loneCloses, opens⟩ := s
  induction pairs with
  | nil =>
    refine Or.inr ⟨?_, fun j => ⟨List.not_mem_nil, List.not_mem_nil⟩⟩
    simp [jumpTable, hi]
  | cons pair pairs ih =>
    obtain ⟨o, c⟩ := pair
    have hsize : ((⟨pairs, loneCloses, opens⟩ : Brackets).jumpTable n).size = n :=
      size_jumpTable _ n
    have hcons : (⟨(o, c) :: pairs, loneCloses, opens⟩ : Brackets).jumpTable n
        = (((⟨pairs, loneCloses, opens⟩ : Brackets).jumpTable n).setIfInBounds o
            (some c)).setIfInBounds c (some o) := rfl
    -- `c` is set last, so it is the first to be asked for
    rw [hcons, Array.getElem?_setIfInBounds, Array.getElem?_setIfInBounds,
      Array.size_setIfInBounds, hsize]
    by_cases hc : c = i
    · subst hc
      exact Or.inl ⟨o, by rw [if_pos rfl, if_pos hi], Or.inr List.mem_cons_self⟩
    · rw [if_neg hc]
      by_cases ho : o = i
      · subst ho
        exact Or.inl ⟨c, by rw [if_pos rfl, if_pos hi], Or.inl List.mem_cons_self⟩
      · rw [if_neg ho]
        rcases ih with ⟨j, hj, hmem⟩ | ⟨hnone, hmem⟩
        · exact Or.inl ⟨j, hj, hmem.imp (List.mem_cons_of_mem _) (List.mem_cons_of_mem _)⟩
        · refine Or.inr ⟨hnone, fun j => ⟨?_, ?_⟩⟩
          · simpa [Ne.symm ho] using (hmem j).1
          · simpa [Ne.symm hc] using (hmem j).2

/-- The jump table of a block has the partners of its brackets. -/
theorem partnerTable_jumpTable_pairs (block : Block) (loneCloses opens : List Nat) :
    PartnerTable block.code
      ((⟨block.pairs 0, loneCloses, opens⟩ : Brackets).jumpTable block.code.length) := by
  have hmatched : ∀ i j, (i, j) ∈ block.pairs 0 → Matched block.code i j := by
    intro i j h
    have := block.matched_of_mem_pairs [] [] i j h
    rwa [List.append_nil, List.nil_append] at this
  have hpartners : ∀ i j, (i, j) ∈ block.pairs 0 ∨ (j, i) ∈ block.pairs 0 →
      Partners block.code i j := fun i j h => h.imp (hmatched i j) (hmatched j i)
  refine ⟨size_jumpTable _ _, fun i b hb hplain => ?_, fun i b hb hbracket => ?_⟩
  · obtain ⟨hi, -⟩ := List.getElem?_eq_some_iff.mp hb
    rcases jumpTable_getElem? ⟨block.pairs 0, loneCloses, opens⟩ hi with ⟨j, -, h | h⟩ | ⟨h, -⟩
    · rw [(hmatched i j h).getElem?_open] at hb
      exact absurd (Option.some.inj hb).symm (ne_openBracket hplain)
    · rw [(hmatched j i h).getElem?_close] at hb
      exact absurd (Option.some.inj hb).symm (ne_closeBracket hplain)
    · exact h
  · obtain ⟨hi, -⟩ := List.getElem?_eq_some_iff.mp hb
    obtain ⟨k, hk⟩ := block.exists_mem_pairs 0 i b hb hbracket
    rw [Nat.zero_add] at hk
    rcases jumpTable_getElem? ⟨block.pairs 0, loneCloses, opens⟩ hi with ⟨j, hj, hij⟩ | ⟨-, hno⟩
    · refine ⟨j, hj, hpartners i j hij, ?_⟩
      -- the entry at `j` comes from a pair too, and `j` has no other partner than `i`
      rcases jumpTable_getElem? ⟨block.pairs 0, loneCloses, opens⟩
        (hpartners i j hij).lt_length with ⟨i', hi', hji⟩ | ⟨-, hno⟩
      · rw [hi', (hpartners j i' hji).unique (hpartners i j hij).symm]
      · rcases hij with h | h
        · exact absurd h (hno i).2
        · exact absurd h (hno i).1
    · rcases hk with h | h
      · exact absurd h (hno k).1
      · exact absurd h (hno k).2

end Brackets

/-! ## Prepared programs -/

namespace Program

theorem diagnostics_eq_nil_iff (lines : Array Nat) {s : Brackets} :
    diagnostics lines s = [] ↔ s.lone = [] := List.map_eq_nil_iff

/-- What `prepare` builds, when it builds anything. -/
theorem prepare_eq_ok_iff {source : List UInt8} {p : Program} :
    prepare source = .ok p ↔
      (Brackets.ofInstructions (source.map Instruction.ofByte)).lone = [] ∧
        p = ⟨source, (source.map Instruction.ofByte).toArray, lineNumbers source,
          (Brackets.ofInstructions (source.map Instruction.ofByte)).jumpTable source.length⟩ := by
  unfold prepare
  rw [← diagnostics_eq_nil_iff (lineNumbers source)]
  cases hd : diagnostics (lineNumbers source)
      (Brackets.ofInstructions (source.map Instruction.ofByte)) with
  | nil => simp only [hd, Except.ok.injEq, true_and, eq_comm]
  | cons d ds => simp only [hd, reduceCtorEq, false_and]

/-- Why `prepare` builds nothing. -/
theorem prepare_eq_error_iff {source : List UInt8} {ds : List Diagnostic} :
    prepare source = .error ds ↔ ds ≠ [] ∧
      ds = diagnostics (lineNumbers source)
        (Brackets.ofInstructions (source.map Instruction.ofByte)) := by
  unfold prepare
  cases hd : diagnostics (lineNumbers source)
      (Brackets.ofInstructions (source.map Instruction.ofByte)) with
  | nil => simp [hd]
  | cons d rest =>
    simp only [hd, Except.error.injEq]
    constructor
    · rintro rfl
      exact ⟨List.cons_ne_nil d rest, rfl⟩
    · rintro ⟨-, rfl⟩
      rfl

/-- What a prepared program has in its tables. -/
structure Prepared (source : List UInt8) (p : Program) : Prop where
  balanced : Balanced source
  length_eq : p.length = source.length
  fetch_eq : ∀ (k : Nat) (b : UInt8), source[k]? = some b → p.fetch k = .ofByte b
  line?_eq : ∀ k, k < source.length → p.line? k = some (lineAt source k)
  line?_end : ∀ k, source.length ≤ k → p.line? k = none
  table : PartnerTable source p.jumps

theorem prepared_of_prepare {source : List UInt8} {p : Program} (h : prepare source = .ok p) :
    Prepared source p := by
  obtain ⟨hlone, rfl⟩ := prepare_eq_ok_iff.mp h
  have hbalanced := Brackets.balanced_of_lone hlone
  refine ⟨hbalanced, ?_, fun k b hb => ?_, fun k hk => ?_, fun k hk => ?_, ?_⟩
  · simp [length]
  · simp [fetch, hb]
  · exact lineNumbers_getElem? hk
  · exact Array.getElem?_eq_none (by rw [size_lineNumbers]; exact hk)
  · obtain ⟨block, rfl⟩ := Block.balanced_iff_exists_code.mp hbalanced
    rw [Brackets.ofInstructions_code]
    exact Brackets.partnerTable_jumpTable_pairs block [] []

/-- A prepared program keeps its source. -/
theorem source_of_prepare {source : List UInt8} {p : Program} (h : prepare source = .ok p) :
    p.source = source := by
  obtain ⟨-, rfl⟩ := prepare_eq_ok_iff.mp h
  rfl

theorem prepared_source {source : List UInt8} {p : Program} (h : prepare source = .ok p) :
    p.Prepared p.source := by
  rw [source_of_prepare h]
  exact prepared_of_prepare h

theorem Prepared.toList_lines {source : List UInt8} {p : Program} (hp : Prepared source p) :
    p.lines.toList = (List.range source.length).map (lineAt source) := by
  refine List.ext_getElem? fun k => ?_
  rw [Array.getElem?_toList, List.getElem?_map]
  show p.line? k = _
  rcases Nat.lt_or_ge k source.length with hk | hk
  · rw [hp.line?_eq k hk, List.getElem?_range hk, Option.map_some]
  · rw [hp.line?_end k hk, List.getElem?_eq_none (by simpa using hk), Option.map_none]

/-- The last line is that of the last byte. -/
theorem Prepared.lineCount_eq {source : List UInt8} {p : Program} (hp : Prepared source p)
    (hne : source ≠ []) : p.lineCount = lineAt source (source.length - 1) := by
  have hlast : p.lines.back? = p.lines.toList.getLast? := by simp
  rw [lineCount, hlast, hp.toList_lines, List.getLast?_map, List.getLast?_range,
    if_neg (mt List.length_eq_zero_iff.mp hne), Option.map_some, Option.getD_some]

/-- The empty program has no lines. -/
theorem Prepared.lineCount_nil {p : Program} (hp : Prepared [] p) : p.lineCount = 0 := by
  have hlines : p.lines = #[] := Array.toList_eq_nil_iff.mp hp.toList_lines
  rw [lineCount, hlines]
  rfl

/-- Every line of a program is in its source. -/
theorem Prepared.lineCount_le {source : List UInt8} {p : Program} (hp : Prepared source p) :
    p.lineCount ≤ (splitLines source).size := by
  cases source with
  | nil =>
    rw [hp.lineCount_nil]
    exact Nat.zero_le _
  | cons b rest =>
    rw [hp.lineCount_eq (List.cons_ne_nil b rest)]
    exact lineAt_le_size_splitLines _ _

/-- The lines of a program are numbered from 1 to its last one. -/
theorem Prepared.line?_bounds {source : List UInt8} {p : Program} (hp : Prepared source p)
    {k n : Nat} (h : p.line? k = some n) : 1 ≤ n ∧ n ≤ p.lineCount := by
  have hk : k < source.length := by
    by_contra hle
    rw [hp.line?_end k (Nat.le_of_not_lt hle)] at h
    cases h
  rw [hp.line?_eq k hk, Option.some.injEq] at h
  rw [← h, hp.lineCount_eq (List.ne_nil_of_length_pos (Nat.zero_lt_of_lt hk))]
  exact ⟨Nat.le_add_right 1 _, lineAt_mono source (Nat.le_sub_one_of_lt hk)⟩

theorem Prepared.partner_eq {source : List UInt8} {p : Program} (hp : Prepared source p)
    {i j : Nat} (h : Partners source i j) : p.partner i = j := by
  rw [partner, hp.table.getElem?_of_partners h]
  rfl

/-- A balanced source is accepted. -/
theorem exists_prepare_of_balanced {source : List UInt8} (h : Balanced source) :
    ∃ p, prepare source = .ok p := by
  obtain ⟨block, rfl⟩ := Block.balanced_iff_exists_code.mp h
  exact ⟨_, prepare_eq_ok_iff.mpr ⟨by rw [Brackets.ofInstructions_code]; rfl, rfl⟩⟩

/-- **`prepare` accepts the balanced sources, and builds the one table of partners.** -/
theorem prepare_builds_matching (source : List UInt8) :
    ((∃ p, prepare source = .ok p) ↔ Balanced source) ∧
      ∀ p, prepare source = .ok p →
        PartnerTable source p.jumps ∧
          ∀ table, PartnerTable source table → table = p.jumps := by
  refine ⟨⟨?_, exists_prepare_of_balanced⟩, fun p h => ?_⟩
  · rintro ⟨p, h⟩
    exact (prepared_of_prepare h).balanced
  · have htable := (prepared_of_prepare h).table
    exact ⟨htable, fun table ht => ht.unique htable⟩

end Program

end TapeMachine
