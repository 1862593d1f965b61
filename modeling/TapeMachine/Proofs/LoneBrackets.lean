import Mathlib.Order.Bounds.Defs
import TapeMachine.Proofs.Prepare

/-!
# Lone brackets

A bracket is lone when it has no partner. `Program.prepare` reports the lone brackets of a source,
the closing ones before the opening ones, each kind in source order.

The scan sees one byte after the other, while partners are told of the whole source. `Scanned` joins
the two: what has been scanned has the open brackets as a stack, with something balanced behind each
of them, and every other bracket has its partner or is a `]` that found nothing open. `Tallied` counts
along: the lone `]` are as many as the most by which a prefix has more `]` than `[`.
-/

namespace TapeMachine

/-- The byte at `i` is this bracket, and it has no partner. -/
def LoneAt (source : List UInt8) (bracket : UInt8) (i : Nat) : Prop :=
  source[i]? = some bracket ∧ ∀ j, ¬ Partners source i j

/-! ## Partners in a longer source -/

theorem Matched.append {source : List UInt8} {i j : Nat} (h : Matched source i j)
    (t : List UInt8) : Matched (source ++ t) i j := by
  obtain ⟨before, between, after, rfl, hi, hj, hb⟩ := h
  exact ⟨before, between, after ++ t, by simp, hi, hj, hb⟩

theorem Partners.append {source : List UInt8} {i j : Nat} (h : Partners source i j)
    (t : List UInt8) : Partners (source ++ t) i j :=
  h.imp (fun h => h.append t) (fun h => h.append t)

/-- The byte at an offset of a source with one more byte. -/
theorem getElem?_concat_cases {source : List UInt8} {b c : UInt8} {i : Nat}
    (h : (source ++ [b])[i]? = some c) :
    source[i]? = some c ∨ (i = source.length ∧ c = b) := by
  rcases Nat.lt_trichotomy i source.length with hi | rfl | hi
  · rw [List.getElem?_append_left hi] at h
    exact Or.inl h
  · rw [List.getElem?_concat_length, Option.some.injEq] at h
    exact Or.inr ⟨rfl, h.symm⟩
  · rw [List.getElem?_eq_none (by simp; omega)] at h
    exact absurd h.symm (Option.some_ne_none c)

theorem getElem?_concat_of_eq_some {source : List UInt8} {c : UInt8} {i : Nat}
    (h : source[i]? = some c) (b : UInt8) : (source ++ [b])[i]? = some c := by
  rw [List.getElem?_append_left (List.getElem?_eq_some_iff.mp h).1, h]

/-! ## The stack of open brackets -/

/-- The offsets of brackets that are open at the end of a source, the innermost first. Behind each
of them there is something balanced, up to the next one or to the end. -/
inductive OpenAt : List UInt8 → List Nat → Prop where
  | none (source : List UInt8) : OpenAt source []
  | bracket {outer between : List UInt8} {opens : List Nat} (h : OpenAt outer opens)
      (hbalanced : Balanced between) :
      OpenAt (outer ++ openBracket :: between) (outer.length :: opens)

/-- What is balanced leaves the open brackets as they are. -/
theorem OpenAt.append {source t : List UInt8} {opens : List Nat} (h : OpenAt source opens)
    (ht : Balanced t) : OpenAt (source ++ t) opens := by
  cases h with
  | none => exact .none _
  | bracket h hbalanced =>
    rw [List.append_assoc, List.cons_append]
    exact .bracket h (hbalanced.append ht)

/-- A `]` closes the innermost open bracket. -/
theorem OpenAt.close {source : List UInt8} {o : Nat} {opens : List Nat}
    (h : OpenAt source (o :: opens)) :
    Matched (source ++ [closeBracket]) o source.length ∧
      OpenAt (source ++ [closeBracket]) opens := by
  cases h with
  | @bracket outer between _ h hbalanced =>
    refine ⟨⟨outer, between, [], by simp, rfl, by simp; omega, hbalanced⟩, ?_⟩
    rw [List.append_assoc, List.cons_append]
    exact h.append hbalanced.nest

/-! ## What the scan knows -/

/-- What the scan knows of the bytes that it has passed. -/
structure Scanned (source : List UInt8) (s : Brackets) : Prop where
  openAt : OpenAt source s.opens
  opens_get : ∀ i ∈ s.opens, source[i]? = some openBracket
  opens_sorted : s.opens.Pairwise (· > ·)
  closes_get : ∀ i ∈ s.loneCloses, source[i]? = some closeBracket
  closes_sorted : s.loneCloses.Pairwise (· > ·)
  /-- No bracket is forgotten. -/
  settled : ∀ (i : Nat) (b : UInt8), source[i]? = some b → bracketStep b ≠ none →
    (∃ j, Partners source i j) ∨ i ∈ s.loneCloses ∨ i ∈ s.opens

/-- The lone `]` and the open `[`, counted. -/
structure Tallied (source : List UInt8) (s : Brackets) : Prop where
  balance : source.count closeBracket + s.opens.length
    = source.count openBracket + s.loneCloses.length
  most : ∀ t, t <+: source → t.count closeBracket ≤ t.count openBracket + s.loneCloses.length
  reached : ∃ t, t <+: source ∧
    t.count closeBracket = t.count openBracket + s.loneCloses.length

namespace Scanned

variable {source : List UInt8} {s : Brackets}

theorem nil : Scanned [] .empty :=
  ⟨.none [], fun _ h => absurd h List.not_mem_nil, .nil, fun _ h => absurd h List.not_mem_nil,
    .nil, fun i b h => absurd h (by simp)⟩

/-- An offset further on comes first in a list that has the last one first. -/
theorem pairwise_cons_length {offsets : List Nat} {bracket : UInt8}
    (hget : ∀ i ∈ offsets, source[i]? = some bracket) (hsorted : offsets.Pairwise (· > ·)) :
    (source.length :: offsets).Pairwise (· > ·) :=
  List.pairwise_cons.mpr
    ⟨fun i hi => (List.getElem?_eq_some_iff.mp (hget i hi)).1, hsorted⟩

/-- The new byte is the bracket that the offset is kept for. -/
theorem get_cons_length {offsets : List Nat} {bracket : UInt8}
    (hget : ∀ i ∈ offsets, source[i]? = some bracket) :
    ∀ i ∈ source.length :: offsets, (source ++ [bracket])[i]? = some bracket := by
  intro i hi
  rcases List.mem_cons.mp hi with rfl | hi
  · exact List.getElem?_concat_length
  · exact getElem?_concat_of_eq_some (hget i hi) bracket

theorem push_plain (h : Scanned source s) {b : UInt8} (hb : bracketStep b = none) :
    Scanned (source ++ [b]) s := by
  refine ⟨h.openAt.append (.plain hb), fun i hi => getElem?_concat_of_eq_some (h.opens_get i hi) b,
    h.opens_sorted, fun i hi => getElem?_concat_of_eq_some (h.closes_get i hi) b, h.closes_sorted,
    fun i c hc hbracket => ?_⟩
  rcases getElem?_concat_cases hc with hold | ⟨-, rfl⟩
  · exact (h.settled i c hold hbracket).imp_left fun ⟨j, hj⟩ => ⟨j, hj.append [b]⟩
  · exact absurd hb hbracket

theorem push_open (h : Scanned source s) :
    Scanned (source ++ [openBracket]) { s with opens := source.length :: s.opens } := by
  refine ⟨.bracket h.openAt .nil, get_cons_length h.opens_get,
    pairwise_cons_length h.opens_get h.opens_sorted,
    fun i hi => getElem?_concat_of_eq_some (h.closes_get i hi) _, h.closes_sorted,
    fun i c hc hbracket => ?_⟩
  rcases getElem?_concat_cases hc with hold | ⟨rfl, -⟩
  · rcases h.settled i c hold hbracket with ⟨j, hj⟩ | hi | hi
    · exact Or.inl ⟨j, hj.append _⟩
    · exact Or.inr (Or.inl hi)
    · exact Or.inr (Or.inr (List.mem_cons_of_mem _ hi))
  · exact Or.inr (Or.inr List.mem_cons_self)

/-- A `]` with nothing open before it is kept as lone. -/
theorem push_lone (h : Scanned source s) (hopens : s.opens = []) :
    Scanned (source ++ [closeBracket]) { s with loneCloses := source.length :: s.loneCloses } := by
  refine ⟨?_, ?_, h.opens_sorted, get_cons_length h.closes_get,
    pairwise_cons_length h.closes_get h.closes_sorted, fun i c hc hbracket => ?_⟩
  · simp only [hopens]
    exact .none _
  · intro i hi
    exact getElem?_concat_of_eq_some (h.opens_get i hi) _
  · rcases getElem?_concat_cases hc with hold | ⟨rfl, -⟩
    · rcases h.settled i c hold hbracket with ⟨j, hj⟩ | hi | hi
      · exact Or.inl ⟨j, hj.append _⟩
      · exact Or.inr (Or.inl (List.mem_cons_of_mem _ hi))
      · exact Or.inr (Or.inr hi)
    · exact Or.inr (Or.inl List.mem_cons_self)

/-- A `]` becomes the partner of the innermost open bracket. -/
theorem push_close (h : Scanned source s) {o : Nat} {opens : List Nat}
    (hopens : s.opens = o :: opens) :
    Scanned (source ++ [closeBracket])
      { s with pairs := (o, source.length) :: s.pairs, opens := opens } := by
  have hopenAt := h.openAt
  have hget := h.opens_get
  have hsorted := h.opens_sorted
  rw [hopens] at hopenAt hget hsorted
  obtain ⟨hmatched, hrest⟩ := hopenAt.close
  refine ⟨hrest, fun i hi => getElem?_concat_of_eq_some (hget i (List.mem_cons_of_mem _ hi)) _,
    hsorted.of_cons, fun i hi => getElem?_concat_of_eq_some (h.closes_get i hi) _,
    h.closes_sorted, fun i c hc hbracket => ?_⟩
  rcases getElem?_concat_cases hc with hold | ⟨rfl, -⟩
  · rcases h.settled i c hold hbracket with ⟨j, hj⟩ | hi | hi
    · exact Or.inl ⟨j, hj.append _⟩
    · exact Or.inr (Or.inl hi)
    · rw [hopens] at hi
      rcases List.mem_cons.mp hi with rfl | hi
      · exact Or.inl ⟨_, Or.inl hmatched⟩
      · exact Or.inr (Or.inr hi)
  · exact Or.inl ⟨o, Or.inr hmatched⟩

end Scanned

namespace Tallied

variable {source : List UInt8} {s : Brackets}

theorem nil : Tallied [] .empty := by
  refine ⟨rfl, fun t ht => ?_, [], List.prefix_rfl, rfl⟩
  rw [List.prefix_nil.mp ht]
  exact Nat.le_refl 0

/-- One more byte is one more prefix, and of the whole the balance says enough. -/
theorem concat (h : Tallied source s) (b : UInt8) {s' : Brackets}
    (hlone : s.loneCloses.length ≤ s'.loneCloses.length)
    (hbalance : (source ++ [b]).count closeBracket + s'.opens.length
      = (source ++ [b]).count openBracket + s'.loneCloses.length)
    (hreached : s'.loneCloses.length = s.loneCloses.length ∨ s'.opens = []) :
    Tallied (source ++ [b]) s' := by
  refine ⟨hbalance, fun t ht => ?_, ?_⟩
  · rcases List.prefix_concat_iff.mp ht with rfl | ht
    · omega
    · have := h.most t ht
      omega
  · rcases hreached with hsame | hopens
    · obtain ⟨t, ht, hcount⟩ := h.reached
      exact ⟨t, ht.trans (List.prefix_append _ _), by rw [hcount, hsame]⟩
    · rw [hopens, List.length_nil, Nat.add_zero] at hbalance
      exact ⟨_, List.prefix_rfl, hbalance⟩

/-- A suffix has at most as many `[` more than `]` as there are open brackets. -/
theorem suffix_le (h : Tallied source s) {t : List UInt8} (ht : t <:+ source) :
    t.count openBracket ≤ t.count closeBracket + s.opens.length := by
  obtain ⟨u, rfl⟩ := ht
  have hu := h.most u (List.prefix_append _ _)
  have hbalance := h.balance
  rw [List.count_append, List.count_append] at hbalance
  omega

/-- Behind the prefix with the most `]` there are the open brackets. -/
theorem exists_suffix_eq (h : Tallied source s) :
    ∃ t, t <:+ source ∧ t.count openBracket = t.count closeBracket + s.opens.length := by
  obtain ⟨u, ⟨t, rfl⟩, hu⟩ := h.reached
  have hbalance := h.balance
  rw [List.count_append, List.count_append] at hbalance
  exact ⟨t, List.suffix_append _ _, by omega⟩

end Tallied

/-! ## The whole scan -/

namespace Brackets

/-- **One byte further the scan knows as much.** -/
theorem scanned_push {source : List UInt8} {s : Brackets} (h : Scanned source s)
    (ht : Tallied source s) (b : UInt8) :
    Scanned (source ++ [b]) (s.push source.length (.ofByte b)) ∧
      Tallied (source ++ [b]) (s.push source.length (.ofByte b)) := by
  have hbalance := ht.balance
  rcases bracket_cases b with rfl | rfl | plain
  · refine ⟨h.push_open, ht.concat _ (Nat.le_refl _) ?_ (Or.inl rfl)⟩
    simp [push, List.count_append, openBracket_ne_closeBracket]
    omega
  · rw [Instruction.ofByte_closeBracket]
    cases ho : s.opens with
    | nil =>
      have hpush : s.push source.length .loopClose
          = { s with loneCloses := source.length :: s.loneCloses } := by simp only [push, ho]
      rw [hpush]
      refine ⟨h.push_lone ho, ht.concat _ (Nat.le_succ _) ?_ (Or.inr ho)⟩
      simp [List.count_append, openBracket_ne_closeBracket.symm]
      omega
    | cons o opens =>
      have hpush : s.push source.length .loopClose
          = { s with pairs := (o, source.length) :: s.pairs, opens := opens } := by
        simp only [push, ho]
      rw [hpush]
      refine ⟨h.push_close ho, ht.concat _ (Nat.le_refl _) ?_ (Or.inl rfl)⟩
      rw [ho] at hbalance
      simp [List.count_append, openBracket_ne_closeBracket.symm] at hbalance ⊢
      omega
  · rw [push_plain plain]
    refine ⟨h.push_plain plain, ht.concat _ (Nat.le_refl _) ?_ (Or.inl rfl)⟩
    simp [List.count_append, ne_openBracket plain, ne_closeBracket plain]
    omega

theorem scanned_scan (rest : List UInt8) :
    ∀ {source : List UInt8} {s : Brackets}, Scanned source s → Tallied source s →
      Scanned (source ++ rest) (s.scan source.length (rest.map Instruction.ofByte)) ∧
        Tallied (source ++ rest) (s.scan source.length (rest.map Instruction.ofByte)) := by
  induction rest with
  | nil =>
    intro source s h ht
    rw [List.append_nil]
    exact ⟨h, ht⟩
  | cons b rest ih =>
    intro source s h ht
    obtain ⟨h', ht'⟩ := scanned_push h ht b
    have := ih h' ht'
    rwa [List.append_assoc, List.length_append] at this

theorem scanned_ofInstructions (source : List UInt8) :
    Scanned source (ofInstructions (source.map Instruction.ofByte)) ∧
      Tallied source (ofInstructions (source.map Instruction.ofByte)) :=
  scanned_scan source .nil .nil

/-! ## What is kept as lone is lone -/

/-- The offset is that of a bracket without a partner so far. -/
def Unpaired (s : Brackets) (i : Nat) : Prop := i ∈ s.loneCloses ∨ i ∈ s.opens

theorem unpaired_of_push {s : Brackets} {i k : Nat} {instruction : Instruction}
    (h : (s.push k instruction).Unpaired i) : s.Unpaired i ∨ i = k := by
  unfold push at h
  split at h
  · rcases h with h | h
    · exact Or.inl (Or.inl h)
    · exact (List.mem_cons.mp h).symm.imp_left Or.inr
  · split at h
    · rcases h with h | h
      · exact (List.mem_cons.mp h).symm.imp_left Or.inl
      · exact Or.inl (Or.inr h)
    · next o rest ho =>
      rcases h with h | h
      · exact Or.inl (Or.inl h)
      · exact Or.inl (Or.inr (by rw [ho]; exact List.mem_cons_of_mem _ h))
  · exact Or.inl h

theorem unpaired_of_scan (instructions : List Instruction) :
    ∀ {s : Brackets} {i k : Nat}, (s.scan k instructions).Unpaired i →
      s.Unpaired i ∨ (k ≤ i ∧ i < k + instructions.length) := by
  induction instructions with
  | nil => intro s i k h; exact Or.inl h
  | cons instruction rest ih =>
    intro s i k h
    rw [List.length_cons]
    rcases ih h with h | ⟨hle, hlt⟩
    · rcases unpaired_of_push h with h | rfl
      · exact Or.inl h
      · exact Or.inr ⟨Nat.le_refl _, by omega⟩
    · exact Or.inr ⟨by omega, by omega⟩

theorem scan_append (s : Brackets) (k : Nat) (xs ys : List Instruction) :
    s.scan k (xs ++ ys) = (s.scan k xs).scan (k + xs.length) ys := by
  induction xs generalizing s k with
  | nil => rfl
  | cons x xs ih =>
    rw [List.cons_append, scan, ih, scan, List.length_cons, Nat.add_assoc, Nat.add_comm 1]

/-- **No bracket with a partner is reported.** The scan passes over a pair and what is between. -/
theorem not_unpaired_of_partners {source : List UInt8} {i j : Nat} (h : Partners source i j) :
    ¬ (ofInstructions (source.map Instruction.ofByte)).Unpaired i := by
  have hpair : ∀ {i j : Nat}, Matched source i j → ∀ k, i ≤ k → k ≤ j →
      ¬ (ofInstructions (source.map Instruction.ofByte)).Unpaired k := by
    rintro i j ⟨before, between, after, rfl, rfl, rfl, hb⟩ k hik hkj hk
    obtain ⟨body, rfl⟩ := Block.balanced_iff_exists_code.mp hb
    have hsource : before ++ openBracket :: (body.code ++ closeBracket :: after)
        = before ++ ((Block.loop body .nil).code ++ after) := by simp [Block.code]
    rw [Block.length_code] at hkj
    rw [hsource, ofInstructions, List.map_append, List.map_append, scan_append, scan_code] at hk
    rcases unpaired_of_scan _ hk with hk | ⟨hle, -⟩
    · rcases unpaired_of_scan _ (show (empty.scan 0 (before.map Instruction.ofByte)).Unpaired k
        from hk) with hk | ⟨-, hlt⟩
      · exact hk.elim List.not_mem_nil List.not_mem_nil
      · rw [List.length_map] at hlt
        omega
    · rw [List.length_map, Block.size, Block.size] at hle
      omega
  rcases h with h | h
  · exact hpair h i (Nat.le_refl i) (Nat.le_of_lt h.lt)
  · exact hpair h i (Nat.le_of_lt h.lt) (Nat.le_refl i)

/-- The lone `]` are those that the scan keeps as lone. -/
theorem mem_loneCloses_iff {source : List UInt8} {i : Nat} :
    i ∈ (ofInstructions (source.map Instruction.ofByte)).loneCloses ↔
      LoneAt source closeBracket i := by
  obtain ⟨h, -⟩ := scanned_ofInstructions source
  constructor
  · intro hi
    exact ⟨h.closes_get i hi, fun j hj => not_unpaired_of_partners hj (Or.inl hi)⟩
  · rintro ⟨hget, hlone⟩
    rcases h.settled i _ hget (by simp) with ⟨j, hj⟩ | hi | hi
    · exact absurd hj (hlone j)
    · exact hi
    · rw [h.opens_get i hi] at hget
      exact absurd (Option.some.inj hget) openBracket_ne_closeBracket

/-- The lone `[` are those that are open at the end of the scan. -/
theorem mem_opens_iff {source : List UInt8} {i : Nat} :
    i ∈ (ofInstructions (source.map Instruction.ofByte)).opens ↔
      LoneAt source openBracket i := by
  obtain ⟨h, -⟩ := scanned_ofInstructions source
  constructor
  · intro hi
    exact ⟨h.opens_get i hi, fun j hj => not_unpaired_of_partners hj (Or.inr hi)⟩
  · rintro ⟨hget, hlone⟩
    rcases h.settled i _ hget (by simp) with ⟨j, hj⟩ | hi | hi
    · exact absurd hj (hlone j)
    · rw [h.closes_get i hi] at hget
      exact absurd (Option.some.inj hget) openBracket_ne_closeBracket.symm
    · exact hi

end Brackets

/-! ## The report -/

namespace Program

/-- The diagnostics of lone brackets, with their lines counted in the source. -/
theorem diagnostics_eq {source : List UInt8} {s : Brackets} (h : Scanned source s) :
    diagnostics (lineNumbers source) s
      = s.loneCloses.reverse.map (fun i => ⟨lineAt source i, "Unbalanced ']'"⟩)
        ++ s.opens.reverse.map (fun i => ⟨lineAt source i, "Unbalanced '['"⟩) := by
  have hline : ∀ {i : Nat} {b : UInt8}, source[i]? = some b →
      (lineNumbers source)[i]?.getD 0 = lineAt source i := by
    intro i b hi
    rw [lineNumbers_getElem? (List.getElem?_eq_some_iff.mp hi).1]
    rfl
  rw [diagnostics, Brackets.lone, List.map_append, List.map_map, List.map_map]
  congr 1
  · refine List.map_congr_left fun i hi => ?_
    simp only [Function.comp_apply, hline (h.closes_get i (List.mem_reverse.mp hi))]
    rfl
  · refine List.map_congr_left fun i hi => ?_
    simp only [Function.comp_apply, hline (h.opens_get i (List.mem_reverse.mp hi))]
    rfl

/-- **`prepare` reports every lone bracket and nothing else.** The diagnostics of a source that is
not balanced are those of its lone `]` in source order, then those of its lone `[` in source order.
There are as many of the first as the most by which a prefix has more `]` than `[`, and as many of
the second as the most by which a suffix has more `[` than `]`. -/
theorem prepare_reports_lone_brackets (source : List UInt8) (h : ¬ Balanced source) :
    ∃ closes opens : List Nat,
      closes.Pairwise (· < ·) ∧ (∀ i, i ∈ closes ↔ LoneAt source closeBracket i) ∧
      opens.Pairwise (· < ·) ∧ (∀ i, i ∈ opens ↔ LoneAt source openBracket i) ∧
      prepare source = .error
        (closes.map (fun i => ⟨lineAt source i, "Unbalanced ']'"⟩)
          ++ opens.map (fun i => ⟨lineAt source i, "Unbalanced '['"⟩)) ∧
      IsGreatest {n : Int | ∃ t, t <+: source ∧
        n = (t.count closeBracket : Int) - t.count openBracket} closes.length ∧
      IsGreatest {n : Int | ∃ t, t <:+ source ∧
        n = (t.count openBracket : Int) - t.count closeBracket} opens.length := by
  obtain ⟨hscanned, htallied⟩ := Brackets.scanned_ofInstructions source
  refine ⟨(Brackets.ofInstructions (source.map Instruction.ofByte)).loneCloses.reverse,
    (Brackets.ofInstructions (source.map Instruction.ofByte)).opens.reverse,
    List.pairwise_reverse.mpr hscanned.closes_sorted,
    fun i => List.mem_reverse.trans Brackets.mem_loneCloses_iff,
    List.pairwise_reverse.mpr hscanned.opens_sorted,
    fun i => List.mem_reverse.trans Brackets.mem_opens_iff, ?_, ?_, ?_⟩
  · rw [← diagnostics_eq hscanned]
    refine prepare_eq_error_iff.mpr ⟨fun hnil => h ?_, rfl⟩
    exact Brackets.balanced_of_lone ((diagnostics_eq_nil_iff _).mp hnil)
  · rw [List.length_reverse]
    obtain ⟨t, ht, hcount⟩ := htallied.reached
    refine ⟨⟨t, ht, by omega⟩, ?_⟩
    rintro n ⟨t, ht, rfl⟩
    have := htallied.most t ht
    omega
  · rw [List.length_reverse]
    obtain ⟨t, ht, hcount⟩ := htallied.exists_suffix_eq
    refine ⟨⟨t, ht, by omega⟩, ?_⟩
    rintro n ⟨t, ht, rfl⟩
    have := htallied.suffix_le ht
    omega

/-- In `]`, a new line and `[[]`, the first bracket of each line is lone. -/
theorem prepare_reports_brackets_on_two_lines :
    ¬ Balanced [0x5D, 0x0A, 0x5B, 0x5B, 0x5D] ∧
      ∃ closes opens : List Nat,
        (∀ i, i ∈ closes ↔ LoneAt [0x5D, 0x0A, 0x5B, 0x5B, 0x5D] closeBracket i) ∧
        (∀ i, i ∈ opens ↔ LoneAt [0x5D, 0x0A, 0x5B, 0x5B, 0x5D] openBracket i) ∧
        closes.map (fun i => lineAt [0x5D, 0x0A, 0x5B, 0x5B, 0x5D] i)
          ++ opens.map (fun i => lineAt [0x5D, 0x0A, 0x5B, 0x5B, 0x5D] i) = [1, 2] := by
  have hreport : prepare [0x5D, 0x0A, 0x5B, 0x5B, 0x5D]
      = .error [⟨1, "Unbalanced ']'"⟩, ⟨2, "Unbalanced '['"⟩] := rfl
  have h : ¬ Balanced [0x5D, 0x0A, 0x5B, 0x5B, 0x5D] := by
    intro hbalanced
    obtain ⟨p, hp⟩ := exists_prepare_of_balanced hbalanced
    rw [hreport] at hp
    cases hp
  obtain ⟨closes, opens, -, hcloses, -, hopens, hprepare, -, -⟩ :=
    prepare_reports_lone_brackets _ h
  refine ⟨h, closes, opens, hcloses, hopens, ?_⟩
  have hlines := congrArg (List.map Diagnostic.line) (Except.error.inj (hprepare.symm.trans hreport))
  rw [List.map_append, List.map_map, List.map_map] at hlines
  apply List.map_injective_iff.mpr Int.ofNat_injective
  rw [List.map_append, List.map_map, List.map_map]
  exact hlines

end Program

end TapeMachine
