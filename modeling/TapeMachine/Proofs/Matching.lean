import TapeMachine.Proofs.Block

/-!
# Partners of brackets

Two brackets are partners when what stands between them is balanced. A bracket has one partner at
most, so the table of partners of a source is determined by what it says of each byte
(`PartnerTable.unique`).
-/

namespace TapeMachine

/-- The byte at `i` is a `[`, the byte at `j` is a later `]`, and what is between is balanced. -/
def Matched (source : List UInt8) (i j : Nat) : Prop :=
  ∃ before between after,
    source = before ++ openBracket :: (between ++ closeBracket :: after) ∧
      before.length = i ∧ i + 1 + between.length = j ∧ Balanced between

/-! ## Partners are unique -/

theorem Matched.getElem?_open {source : List UInt8} {i j : Nat} (h : Matched source i j) :
    source[i]? = some openBracket := by
  obtain ⟨before, between, after, rfl, rfl, -, -⟩ := h
  rw [List.getElem?_append_right (Nat.le_refl _), Nat.sub_self, List.getElem?_cons_zero]

theorem Matched.getElem?_close {source : List UInt8} {i j : Nat} (h : Matched source i j) :
    source[j]? = some closeBracket := by
  obtain ⟨before, between, after, rfl, rfl, rfl, -⟩ := h
  have hsplit : before ++ openBracket :: (between ++ closeBracket :: after)
      = (before ++ openBracket :: between) ++ closeBracket :: after := by simp
  have hlen : (before ++ openBracket :: between).length = before.length + 1 + between.length := by
    simp; omega
  rw [hsplit, ← hlen, List.getElem?_append_right (Nat.le_refl _), Nat.sub_self,
    List.getElem?_cons_zero]

theorem Matched.lt {source : List UInt8} {i j : Nat} (h : Matched source i j) : i < j := by
  obtain ⟨-, between, -, -, -, hj, -⟩ := h
  omega

theorem Matched.lt_length {source : List UInt8} {i j : Nat} (h : Matched source i j) :
    j < source.length := (List.getElem?_eq_some_iff.mp h.getElem?_close).1

/-- A `[` has one partner. -/
theorem Matched.right_unique {source : List UInt8} {i j j' : Nat} (h : Matched source i j)
    (h' : Matched source i j') : j = j' := by
  obtain ⟨before, between, after, rfl, rfl, rfl, hb⟩ := h
  obtain ⟨before', between', after', heq, hlen, rfl, hb'⟩ := h'
  obtain ⟨block, rfl⟩ := Block.balanced_iff_exists_code.mp hb
  obtain ⟨block', rfl⟩ := Block.balanced_iff_exists_code.mp hb'
  have htail := (List.cons.inj (List.append_inj heq hlen.symm).2).2
  obtain ⟨rfl, -⟩ := Block.code_append_inj block block' _ _ (.close _) (.close _) htail
  rfl

theorem Matched.not_lt {source : List UInt8} {i i' j : Nat} (h : Matched source i j)
    (h' : Matched source i' j) : ¬ i < i' := by
  intro hlt
  obtain ⟨before, between, after, rfl, rfl, rfl, hb⟩ := h
  obtain ⟨before', between', after', heq, rfl, hlen, hb'⟩ := h'
  have hsplit : (before ++ openBracket :: between) ++ closeBracket :: after
      = (before' ++ openBracket :: between') ++ closeBracket :: after' := by
    simpa using heq
  have hhead : before ++ openBracket :: between = before' ++ openBracket :: between' :=
    (List.append_inj hsplit (by simp; omega)).1
  -- the later `[` lies in what is between the earlier one and the `]`
  rcases List.append_eq_append_iff.mp hhead with ⟨mid, hbefore, hmid⟩ | ⟨mid, hbefore, -⟩
  · cases mid with
    | nil =>
      rw [hbefore, List.append_nil] at hlt
      omega
    | cons b mid =>
      have hbetween : between = mid ++ openBracket :: between' := (List.cons.inj hmid).2
      rw [hbetween] at hb
      exact not_balanced_append_open hb' hb
  · rw [hbefore, List.length_append] at hlt
    omega

/-- A `]` has one partner. -/
theorem Matched.left_unique {source : List UInt8} {i i' j : Nat} (h : Matched source i j)
    (h' : Matched source i' j) : i = i' := by
  have hlt := h.not_lt h'
  have hgt := h'.not_lt h
  omega

/-- No byte is both a `[` and a `]`. -/
theorem Matched.not_matched {source : List UInt8} {i j k : Nat} (h : Matched source i j) :
    ¬ Matched source k i := by
  intro h'
  have := h'.getElem?_close
  rw [h.getElem?_open] at this
  exact absurd (Option.some.inj this) openBracket_ne_closeBracket

/-- The brackets at two offsets are partners, whichever is the `[`. -/
def Partners (source : List UInt8) (i j : Nat) : Prop := Matched source i j ∨ Matched source j i

theorem Partners.symm {source : List UInt8} {i j : Nat} (h : Partners source i j) :
    Partners source j i := Or.symm h

theorem Partners.lt_length {source : List UInt8} {i j : Nat} (h : Partners source i j) :
    j < source.length := by
  rcases h with h | h
  · exact h.lt_length
  · exact Nat.lt_trans h.lt h.lt_length

/-- What has a partner is a bracket. -/
theorem Partners.exists_bracket {source : List UInt8} {i j : Nat} (h : Partners source i j) :
    ∃ b, source[i]? = some b ∧ bracketStep b ≠ none := by
  rcases h with h | h
  · exact ⟨openBracket, h.getElem?_open, by simp⟩
  · exact ⟨closeBracket, h.getElem?_close, by simp⟩

/-- A bracket has one partner. -/
theorem Partners.unique {source : List UInt8} {i j j' : Nat} (h : Partners source i j)
    (h' : Partners source i j') : j = j' := by
  rcases h with h | h <;> rcases h' with h' | h'
  · exact h.right_unique h'
  · exact absurd h' h.not_matched
  · exact absurd h h'.not_matched
  · exact h.left_unique h'

/-! ## Tables of partners -/

/-- The table has the partner of every bracket, and nothing at other bytes. -/
structure PartnerTable (source : List UInt8) (table : Array (Option Nat)) : Prop where
  size_eq : table.size = source.length
  /-- There is nothing at a byte that is no bracket. -/
  plain : ∀ (i : Nat) (b : UInt8), source[i]? = some b → bracketStep b = none →
    table[i]? = some none
  /-- At a bracket stands its partner, and it stands at its partner. -/
  bracket : ∀ (i : Nat) (b : UInt8), source[i]? = some b → bracketStep b ≠ none →
    ∃ j, table[i]? = some (some j) ∧ Partners source i j ∧ table[j]? = some (some i)

theorem PartnerTable.getElem?_of_partners {source : List UInt8} {table : Array (Option Nat)}
    {i j : Nat} (ht : PartnerTable source table) (h : Partners source i j) :
    table[i]? = some (some j) := by
  obtain ⟨b, hb, hbracket⟩ := h.exists_bracket
  obtain ⟨k, hk, hpartners, -⟩ := ht.bracket i b hb hbracket
  rw [hk, h.unique hpartners]

/-- **A source has one table of partners.** -/
theorem PartnerTable.unique {source : List UInt8} {table table' : Array (Option Nat)}
    (h : PartnerTable source table) (h' : PartnerTable source table') : table = table' := by
  apply Array.ext_getElem?
  intro i
  by_cases hi : i < source.length
  · have hget : source[i]? = some source[i] := List.getElem?_eq_getElem hi
    by_cases hb : bracketStep source[i] = none
    · rw [h.plain i _ hget hb, h'.plain i _ hget hb]
    · obtain ⟨j, hj, hpartners, -⟩ := h.bracket i _ hget hb
      rw [hj, h'.getElem?_of_partners hpartners]
  · rw [Array.getElem?_eq_none (by rw [h.size_eq]; omega),
      Array.getElem?_eq_none (by rw [h'.size_eq]; omega)]

/-! ## The pairs of a block -/

namespace Block

/-- The pairs of brackets of a block at offset `k`, the one closed last first. -/
def pairs : Block → Nat → List (Nat × Nat)
  | nil, _ => []
  | byte _ _ rest, k => rest.pairs (k + 1)
  | loop body rest, k =>
    rest.pairs (k + 1 + body.size + 1) ++ (k, k + 1 + body.size) :: body.pairs (k + 1)

/-- Each pair of a block consists of partners, whatever stands around the block. -/
theorem matched_of_mem_pairs (block : Block) :
    ∀ (before after : List UInt8) (i j : Nat), (i, j) ∈ block.pairs before.length →
      Matched (before ++ (block.code ++ after)) i j := by
  induction block with
  | nil => intro before after i j h; exact absurd h List.not_mem_nil
  | byte b plain rest ih =>
    intro before after i j h
    have := ih (before ++ [b]) after i j (by simpa [pairs] using h)
    simpa [code] using this
  | loop body rest ihBody ihRest =>
    intro before after i j h
    rcases List.mem_append.mp h with h | h
    · have := ihRest (before ++ openBracket :: (body.code ++ [closeBracket])) after i j (by
        simpa [Nat.add_assoc, Nat.add_comm 1] using h)
      simpa [code] using this
    · rcases List.mem_cons.mp h with h | h
      · obtain ⟨rfl, rfl⟩ := Prod.mk.inj h
        exact ⟨before, body.code, rest.code ++ after, by simp [code], rfl, by simp,
          balanced_code body⟩
      · have := ihBody (before ++ [openBracket]) (closeBracket :: (rest.code ++ after)) i j (by
          simpa using h)
        simpa [code] using this

/-- Each bracket of a block is in one of its pairs. -/
theorem exists_mem_pairs (block : Block) :
    ∀ (k i : Nat) (b : UInt8), block.code[i]? = some b → bracketStep b ≠ none →
      ∃ j, (k + i, j) ∈ block.pairs k ∨ (j, k + i) ∈ block.pairs k := by
  induction block with
  | nil => intro k i b h; simp [code] at h
  | byte c plain rest ih =>
    intro k i b h hb
    cases i with
    | zero =>
      obtain rfl : c = b := by simpa [code] using h
      exact absurd plain hb
    | succ i =>
      obtain ⟨j, hj⟩ := ih (k + 1) i b (by simpa [code] using h) hb
      rw [show k + (i + 1) = k + 1 + i by omega]
      exact ⟨j, hj⟩
  | loop body rest ihBody ihRest =>
    intro k i b h hb
    simp only [pairs, List.mem_append, List.mem_cons, Prod.mk.injEq]
    rcases Nat.lt_trichotomy i (body.size + 1) with hi | rfl | hi
    · cases i with
      | zero => exact ⟨k + 1 + body.size, Or.inl (Or.inr (Or.inl ⟨rfl, rfl⟩))⟩
      | succ i =>
        have hbody : body.code[i]? = some b := by
          rw [code, List.getElem?_cons_succ,
            List.getElem?_append_left (by rw [length_code]; omega)] at h
          exact h
        obtain ⟨j, hj⟩ := ihBody (k + 1) i b hbody hb
        rw [show k + (i + 1) = k + 1 + i by omega]
        exact ⟨j, hj.imp (fun hj => Or.inr (Or.inr hj)) (fun hj => Or.inr (Or.inr hj))⟩
    · exact ⟨k, Or.inr (Or.inr (Or.inl ⟨rfl, by omega⟩))⟩
    · obtain ⟨i, rfl⟩ : ∃ i', i = body.size + 2 + i' := ⟨i - (body.size + 2), by omega⟩
      have hrest : rest.code[i]? = some b := by
        rw [code, show body.size + 2 + i = body.size + 1 + i + 1 by omega,
          List.getElem?_cons_succ, List.getElem?_append_right (by rw [length_code]; omega),
          length_code, show body.size + 1 + i - body.size = i + 1 by omega,
          List.getElem?_cons_succ] at h
        exact h
      obtain ⟨j, hj⟩ := ihRest (k + 1 + body.size + 1) i b hrest hb
      rw [show k + (body.size + 2 + i) = k + 1 + body.size + 1 + i by omega]
      exact ⟨j, hj.imp Or.inl Or.inl⟩

/-- The pairs of a block lie in it. -/
theorem bounds_of_mem_pairs (block : Block) :
    ∀ (k i j : Nat), (i, j) ∈ block.pairs k → k ≤ i ∧ i < j ∧ j < k + block.size := by
  induction block with
  | nil => intro k i j h; exact absurd h List.not_mem_nil
  | byte b plain rest ih =>
    intro k i j h
    have := ih (k + 1) i j h
    rw [size]
    omega
  | loop body rest ihBody ihRest =>
    intro k i j h
    rw [size]
    rcases List.mem_append.mp h with h | h
    · have := ihRest _ i j h
      omega
    · rcases List.mem_cons.mp h with h | h
      · obtain ⟨rfl, rfl⟩ := Prod.mk.inj h
        omega
      · have := ihBody _ i j h
        omega

end Block

/-- **Brackets do not cross.** What is between two partners has its partner there too. -/
theorem Partners.between {source : List UInt8} {i e a b : Nat} (hp : Partners source a b)
    (h : Matched source i e) (hia : i < a) (hae : a < e) : i < b ∧ b < e := by
  obtain ⟨before, between, after, hsource, rfl, rfl, hbalanced⟩ := h
  obtain ⟨block, rfl⟩ := Block.balanced_iff_exists_code.mp hbalanced
  obtain ⟨c, hc, hbracket⟩ := hp.exists_bracket
  have hsplit : source = (before ++ [openBracket]) ++ (block.code ++ closeBracket :: after) := by
    simp [hsource]
  have hlen : (before ++ [openBracket]).length = before.length + 1 := by simp
  obtain ⟨k, rfl⟩ : ∃ k, a = before.length + 1 + k := ⟨a - (before.length + 1), by omega⟩
  have hcode : block.code[k]? = some c := by
    rw [hsplit, List.getElem?_append_right (by omega), hlen, Nat.add_sub_cancel_left,
      List.getElem?_append_left (by omega)] at hc
    exact hc
  have hmatched := block.matched_of_mem_pairs (before ++ [openBracket]) (closeBracket :: after)
  rw [← hsplit, hlen] at hmatched
  obtain ⟨j, hj⟩ := block.exists_mem_pairs (before.length + 1) k c hcode hbracket
  obtain rfl : b = j := hp.unique (hj.imp (hmatched _ _) (hmatched _ _))
  rw [Block.length_code]
  rcases hj with hj | hj
  · have := block.bounds_of_mem_pairs _ _ _ hj
    omega
  · have := block.bounds_of_mem_pairs _ _ _ hj
    omega

end TapeMachine
