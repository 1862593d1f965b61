import TapeMachine.Proofs.Balance

/-!
# Nested programs

A block is a program as a tree: bytes that are no brackets, and loops, one after the other. `code`
writes it down as a source.

* `balanced_iff_exists_code`: the balanced sources are the ones that are written down from a block
* `Block.code_injective`: a source is written down from one block at most
-/

namespace TapeMachine

/-- A nested program. -/
inductive Block where
  | nil
  /-- A byte that is no bracket, and what comes after it. -/
  | byte (b : UInt8) (plain : bracketStep b = none) (rest : Block)
  /-- A loop, and what comes after it. -/
  | loop (body rest : Block)

namespace Block

/-- The source of a block. -/
def code : Block → List UInt8
  | nil => []
  | byte b _ rest => b :: rest.code
  | loop body rest => openBracket :: (body.code ++ closeBracket :: rest.code)

/-- The number of bytes of a block. -/
def size : Block → Nat
  | nil => 0
  | byte _ _ rest => rest.size + 1
  | loop body rest => body.size + rest.size + 2

@[simp] theorem length_code (block : Block) : block.code.length = block.size := by
  induction block with
  | nil => rfl
  | byte b plain rest ih => simp [code, size, ih]
  | loop body rest ihBody ihRest =>
    simp only [code, size, List.length_cons, List.length_append, ihBody, ihRest]
    omega

/-! ## Blocks one after the other -/

/-- A block and another one behind it. -/
def append : Block → Block → Block
  | nil, other => other
  | byte b plain rest, other => byte b plain (rest.append other)
  | loop body rest, other => loop body (rest.append other)

@[simp] theorem code_append (block other : Block) :
    (block.append other).code = block.code ++ other.code := by
  induction block with
  | nil => rfl
  | byte b plain rest ih => rw [append, code, ih, code, List.cons_append]
  | loop body rest _ ih =>
    rw [append, code, ih, code, List.cons_append, List.append_assoc, List.cons_append]

@[simp] theorem append_nil (block : Block) : block.append nil = block := by
  induction block with
  | nil => rfl
  | byte b plain rest ih => rw [append, ih]
  | loop body rest _ ih => rw [append, ih]

/-! ## Blocks are balanced -/

/-- A block in front of a word neither opens nor closes anything of the word. -/
theorem closesFrom_code_append (block : Block) :
    ∀ (h : Nat) (w : List DyckStep),
      ClosesFrom h (bracketWord block.code ++ w) ↔ ClosesFrom h w := by
  induction block with
  | nil => intro h w; rfl
  | byte b plain rest ih =>
    intro h w
    rw [code, bracketWord_plain plain]
    exact ih h w
  | loop body rest ihBody ihRest =>
    intro h w
    simp only [code, bracketWord_open, bracketWord_append, bracketWord_close, List.cons_append,
      List.append_assoc, closesFrom_up]
    rw [ihBody, closesFrom_down, ihRest]

theorem balanced_code (block : Block) : Balanced block.code := by
  rw [balanced_iff_closesFrom]
  have := closesFrom_code_append block 0 []
  rw [List.append_nil] at this
  exact this.mpr (closesFrom_nil.mpr rfl)

/-- What closes `h` open brackets is a block, then `h` times a `]` with a block after it. -/
theorem exists_code_of_closesFrom (source : List UInt8) :
    ∀ h, ClosesFrom h (bracketWord source) →
      ∃ (block : Block) (later : List Block), later.length = h ∧
        source = block.code ++ later.flatMap (fun next => closeBracket :: next.code) := by
  induction source with
  | nil =>
    intro h hc
    obtain rfl : h = 0 := closesFrom_nil.mp hc
    exact ⟨.nil, [], rfl, rfl⟩
  | cons b source ih =>
    intro h hc
    rcases bracket_cases b with rfl | rfl | plain
    · -- the loop opened here ends at the first `]` that the rest leaves over
      rw [bracketWord_open, closesFrom_up] at hc
      obtain ⟨body, later, hlen, hsource⟩ := ih (h + 1) hc
      cases later with
      | nil => simp at hlen
      | cons rest later =>
        refine ⟨.loop body rest, later, by simpa using hlen, ?_⟩
        rw [hsource]
        simp [code]
    · cases h with
      | zero =>
        rw [bracketWord_close] at hc
        exact absurd hc not_closesFrom_zero_down
      | succ h =>
        rw [bracketWord_close, closesFrom_down] at hc
        obtain ⟨block, later, hlen, hsource⟩ := ih h hc
        refine ⟨.nil, block :: later, by rw [List.length_cons, hlen], ?_⟩
        rw [hsource]
        simp [code]
    · rw [bracketWord_plain plain] at hc
      obtain ⟨block, later, hlen, hsource⟩ := ih h hc
      refine ⟨.byte b plain block, later, hlen, ?_⟩
      rw [hsource, code, List.cons_append]

/-- **The balanced sources are the sources of blocks.** -/
theorem balanced_iff_exists_code {source : List UInt8} :
    Balanced source ↔ ∃ block : Block, block.code = source := by
  constructor
  · intro h
    obtain ⟨block, later, hlen, hsource⟩ :=
      exists_code_of_closesFrom source 0 (balanced_iff_closesFrom.mp h)
    obtain rfl : later = [] := List.length_eq_zero_iff.mp hlen
    exact ⟨block, by rw [hsource]; simp⟩
  · rintro ⟨block, rfl⟩
    exact balanced_code block

/-! ## A source has one block -/

/-- Where a block may end: at the end of the source, or before a `]`. -/
def EndsBlock (source : List UInt8) : Prop :=
  source = [] ∨ ∃ rest, source = closeBracket :: rest

theorem EndsBlock.close (rest : List UInt8) : EndsBlock (closeBracket :: rest) :=
  Or.inr ⟨rest, rfl⟩

theorem EndsBlock.eq_closeBracket {b : UInt8} {rest : List UInt8} (h : EndsBlock (b :: rest)) :
    b = closeBracket := by
  rcases h with h | ⟨r, h⟩
  · exact absurd h (List.cons_ne_nil b rest)
  · exact (List.cons.inj h).1

/-- Only the empty block can stand where a block may end. -/
theorem eq_nil_of_endsBlock {block : Block} {rest : List UInt8}
    (h : EndsBlock (block.code ++ rest)) : block = .nil := by
  cases block with
  | nil => rfl
  | byte b plain next => exact absurd h.eq_closeBracket (ne_closeBracket plain)
  | loop body next => exact absurd h.eq_closeBracket openBracket_ne_closeBracket

/-- **A block is read off in one way.** -/
theorem code_append_inj (block : Block) :
    ∀ (other : Block) (x y : List UInt8), EndsBlock x → EndsBlock y →
      block.code ++ x = other.code ++ y → block = other ∧ x = y := by
  induction block with
  | nil =>
    intro other x y hx _ h
    -- `x` may end a block, so the other block in front of it has nothing to begin with
    rw [code, List.nil_append] at h
    obtain rfl : other = .nil := eq_nil_of_endsBlock (h ▸ hx)
    exact ⟨rfl, h⟩
  | byte b plain rest ih =>
    intro other x y hx hy h
    cases other with
    | nil =>
      rw [show Block.nil.code ++ y = y from rfl] at h
      exact absurd (eq_nil_of_endsBlock (h ▸ hy)) (by simp)
    | byte b' plain' rest' =>
      obtain ⟨rfl, htail⟩ := List.cons.inj h
      obtain ⟨rfl, hxy⟩ := ih rest' x y hx hy htail
      exact ⟨rfl, hxy⟩
    | loop body' rest' => exact absurd (List.cons.inj h).1 (ne_openBracket plain)
  | loop body rest ihBody ihRest =>
    intro other x y hx hy h
    cases other with
    | nil =>
      rw [show Block.nil.code ++ y = y from rfl] at h
      exact absurd (eq_nil_of_endsBlock (h ▸ hy)) (by simp)
    | byte b' plain' rest' => exact absurd (List.cons.inj h).1.symm (ne_openBracket plain')
    | loop body' rest' =>
      have htail := (List.cons.inj h).2
      simp only [List.append_eq, List.append_assoc, List.cons_append] at htail
      -- both bodies stand before a `]`, and both rests where the whole may end
      obtain ⟨rfl, hclose⟩ := ihBody body' _ _ (.close _) (.close _) htail
      obtain ⟨rfl, hxy⟩ := ihRest rest' x y hx hy (List.cons.inj hclose).2
      exact ⟨rfl, hxy⟩

theorem code_injective {block other : Block} (h : block.code = other.code) : block = other :=
  (code_append_inj block other [] [] (Or.inl rfl) (Or.inl rfl)
    (by rw [List.append_nil, List.append_nil, h])).1

end Block

end TapeMachine
