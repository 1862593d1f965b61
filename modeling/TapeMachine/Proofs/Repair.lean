import Mathlib.Data.Finset.Card
import TapeMachine.Proofs.LoneBrackets

/-!
# Repairing a source

A repair of a source is a set of offsets of brackets whose deletion makes the rest balanced. The lone
brackets are one, and no repair is smaller.

* `closesFrom_eraseAt_scan`: without the brackets that the scan leaves over, the source closes what the
  scan closes. So the lone brackets are a repair.
* `lone_le_card`: the scan has found a place before which there are too many `]`, behind which there are
  too many `[`, and each by as many as are lone. A deletion mends one bracket on one side of it.
-/

namespace TapeMachine

/-! ## Deleting bytes -/

/-- The source, which begins at offset `k`, without the bytes at some offsets. -/
def eraseAt (offsets : Finset Nat) (k : Nat) (source : List UInt8) : List UInt8 :=
  ((source.zipIdx k).filter fun x => x.2 ∉ offsets).map Prod.fst

/-- The bytes at some offsets of the source, which begins at offset `k`. -/
def erasedAt (offsets : Finset Nat) (k : Nat) (source : List UInt8) : List UInt8 :=
  ((source.zipIdx k).filter fun x => x.2 ∈ offsets).map Prod.fst

section

variable {offsets : Finset Nat} {k : Nat} {b : UInt8}

theorem eraseAt_cons_of_mem (h : k ∈ offsets) (source : List UInt8) :
    eraseAt offsets k (b :: source) = eraseAt offsets (k + 1) source := by
  simp [eraseAt, List.zipIdx_cons, h]

theorem eraseAt_cons_of_not_mem (h : k ∉ offsets) (source : List UInt8) :
    eraseAt offsets k (b :: source) = b :: eraseAt offsets (k + 1) source := by
  simp [eraseAt, List.zipIdx_cons, h]

/-- A byte that is no bracket may be deleted or not. -/
theorem bracketWord_eraseAt_plain (offsets : Finset Nat) (k : Nat) (plain : bracketStep b = none)
    (source : List UInt8) :
    bracketWord (eraseAt offsets k (b :: source)) = bracketWord (eraseAt offsets (k + 1) source) := by
  by_cases h : k ∈ offsets
  · rw [eraseAt_cons_of_mem h]
  · rw [eraseAt_cons_of_not_mem h, bracketWord_plain plain]

theorem eraseAt_append (offsets : Finset Nat) (k : Nat) (s t : List UInt8) :
    eraseAt offsets k (s ++ t) = eraseAt offsets k s ++ eraseAt offsets (k + s.length) t := by
  simp [eraseAt, List.zipIdx_append]

theorem erasedAt_append (offsets : Finset Nat) (k : Nat) (s t : List UInt8) :
    erasedAt offsets k (s ++ t) = erasedAt offsets k s ++ erasedAt offsets (k + s.length) t := by
  simp [erasedAt, List.zipIdx_append]

/-- Every byte is deleted or kept. -/
theorem count_eraseAt (offsets : Finset Nat) (b : UInt8) (source : List UInt8) :
    ∀ k, source.count b = (eraseAt offsets k source).count b + (erasedAt offsets k source).count b := by
  induction source with
  | nil => intro k; rfl
  | cons c source ih =>
    intro k
    have hrest := ih (k + 1)
    by_cases h : k ∈ offsets
    · simp only [eraseAt, erasedAt, List.zipIdx_cons] at hrest ⊢
      simp [h, List.count_cons] at hrest ⊢
      omega
    · simp only [eraseAt, erasedAt, List.zipIdx_cons] at hrest ⊢
      simp [h, List.count_cons] at hrest ⊢
      omega

/-- No more bytes are deleted than there are offsets. -/
theorem length_erasedAt_le (offsets : Finset Nat) (k : Nat) (source : List UInt8) :
    (erasedAt offsets k source).length ≤ offsets.card := by
  have hnodup : (((source.zipIdx k).filter fun x => x.2 ∈ offsets).map Prod.snd).Nodup := by
    refine List.Nodup.sublist (List.filter_sublist.map Prod.snd) ?_
    rw [List.zipIdx_map_snd]
    exact List.nodup_range'
  have hsubset : (((source.zipIdx k).filter fun x => x.2 ∈ offsets).map Prod.snd).toFinset
      ⊆ offsets := by
    intro i hi
    obtain ⟨x, hx, rfl⟩ := List.mem_map.mp (List.mem_toFinset.mp hi)
    exact of_decide_eq_true (List.mem_filter.mp hx).2
  have hcard := Finset.card_le_card hsubset
  rw [List.toFinset_card_of_nodup hnodup, List.length_map] at hcard
  rw [erasedAt, List.length_map]
  exact hcard

end

/-! ## The lone brackets are a repair -/

namespace Brackets

/-- The offsets of the brackets without a partner. -/
def loneOffsets (s : Brackets) : Finset Nat := (s.loneCloses ++ s.opens).toFinset

theorem mem_loneOffsets {s : Brackets} {i : Nat} :
    i ∈ s.loneOffsets ↔ i ∈ s.loneCloses ∨ i ∈ s.opens := by
  rw [loneOffsets, List.mem_toFinset, List.mem_append]

/-- The brackets that the scan keeps stand before offset `k`. -/
structure Before (s : Brackets) (k : Nat) : Prop where
  loneCloses_lt : ∀ i ∈ s.loneCloses, i < k
  opens_lt : ∀ i ∈ s.opens, i < k

theorem Before.push {s : Brackets} {k : Nat} (h : s.Before k) (instruction : Instruction) :
    (s.push k instruction).Before (k + 1) := by
  have hloneCloses : ∀ i ∈ s.loneCloses, i < k + 1 := fun i hi =>
    Nat.lt_succ_of_lt (h.loneCloses_lt i hi)
  have hopens : ∀ i ∈ s.opens, i < k + 1 := fun i hi => Nat.lt_succ_of_lt (h.opens_lt i hi)
  unfold Brackets.push
  split
  · exact ⟨hloneCloses, List.forall_mem_cons.mpr ⟨Nat.lt_succ_self k, hopens⟩⟩
  · split
    · exact ⟨List.forall_mem_cons.mpr ⟨Nat.lt_succ_self k, hloneCloses⟩, hopens⟩
    · next o rest ho =>
      exact ⟨hloneCloses, fun i hi => hopens i (by rw [ho]; exact List.mem_cons_of_mem _ hi)⟩
  · exact ⟨hloneCloses, hopens⟩

theorem Before.not_mem_loneCloses {s : Brackets} {k : Nat} (h : s.Before k) : k ∉ s.loneCloses :=
  fun hk => absurd (h.loneCloses_lt k hk) (Nat.lt_irrefl k)

theorem Before.not_mem_opens {s : Brackets} {k : Nat} (h : s.Before k) : k ∉ s.opens :=
  fun hk => absurd (h.opens_lt k hk) (Nat.lt_irrefl k)

/-- What a scan from offset `k` on does to the brackets before it: of the open ones it closes some, the
innermost first. -/
structure Closes (k closed : Nat) (s s' : Brackets) : Prop where
  closed_le : closed ≤ s.opens.length
  mem_loneCloses : ∀ i, i < k → (i ∈ s'.loneCloses ↔ i ∈ s.loneCloses)
  mem_opens : ∀ i, i < k → (i ∈ s'.opens ↔ i ∈ s.opens.drop closed)

namespace Closes

variable {s s' : Brackets} {k closed : Nat}

/-- A bracket is kept unless it is lone by now and stays so. -/
theorem not_mem_loneOffsets (h : Closes (k + 1) closed s s') (hclose : k ∉ s.loneCloses)
    (hopen : k ∉ s.opens.drop closed) : k ∉ s'.loneOffsets := by
  rw [mem_loneOffsets, h.mem_loneCloses k (Nat.lt_succ_self k), h.mem_opens k (Nat.lt_succ_self k)]
  exact not_or.mpr ⟨hclose, hopen⟩

/-- The scan begins with a byte that is no bracket. -/
theorem plain (h : Closes (k + 1) closed s s') : Closes k closed s s' :=
  ⟨h.closed_le, fun i hi => h.mem_loneCloses i (Nat.lt_succ_of_lt hi),
    fun i hi => h.mem_opens i (Nat.lt_succ_of_lt hi)⟩

/-- The scan begins with a `[` that it leaves open. -/
theorem leftOpen (h : Closes (k + 1) 0 (s.push k .loopOpen) s') :
    Closes k 0 s s' ∧ k ∈ s'.loneOffsets := by
  refine ⟨⟨Nat.zero_le _, fun i hi => h.mem_loneCloses i (Nat.lt_succ_of_lt hi), fun i hi => ?_⟩,
    mem_loneOffsets.mpr (Or.inr ((h.mem_opens k (Nat.lt_succ_self k)).mpr List.mem_cons_self))⟩
  have hmem := h.mem_opens i (Nat.lt_succ_of_lt hi)
  rw [List.drop_zero, push, List.mem_cons] at hmem
  rw [hmem, List.drop_zero, or_iff_right (Nat.ne_of_lt hi)]

/-- The scan begins with a `[` that it closes later. -/
theorem nested (hs : s.Before k) (h : Closes (k + 1) (closed + 1) (s.push k .loopOpen) s') :
    Closes k closed s s' ∧ k ∉ s'.loneOffsets := by
  refine ⟨⟨Nat.le_of_succ_le_succ h.closed_le, fun i hi => h.mem_loneCloses i (Nat.lt_succ_of_lt hi),
    fun i hi => h.mem_opens i (Nat.lt_succ_of_lt hi)⟩, ?_⟩
  refine h.not_mem_loneOffsets hs.not_mem_loneCloses fun hmem => hs.not_mem_opens ?_
  exact List.mem_of_mem_drop hmem

/-- The scan begins with a `]` that finds nothing open. -/
theorem lone (ho : s.opens = []) (h : Closes (k + 1) closed (s.push k .loopClose) s') :
    Closes k closed s s' ∧ closed = 0 ∧ k ∈ s'.loneOffsets := by
  have hpush : s.push k .loopClose = { s with loneCloses := k :: s.loneCloses } := by
    simp only [push, ho]
  rw [hpush] at h
  obtain rfl : closed = 0 := Nat.le_zero.mp (by simpa [ho] using h.closed_le)
  refine ⟨⟨Nat.zero_le _, fun i hi => ?_, fun i hi => h.mem_opens i (Nat.lt_succ_of_lt hi)⟩, rfl,
    mem_loneOffsets.mpr (Or.inl ((h.mem_loneCloses k (Nat.lt_succ_self k)).mpr List.mem_cons_self))⟩
  rw [h.mem_loneCloses i (Nat.lt_succ_of_lt hi), List.mem_cons, or_iff_right (Nat.ne_of_lt hi)]

/-- The scan begins with a `]` that closes the innermost open bracket. -/
theorem close {o : Nat} {opens : List Nat} (hs : s.Before k) (ho : s.opens = o :: opens)
    (h : Closes (k + 1) closed (s.push k .loopClose) s') :
    Closes k (closed + 1) s s' ∧ k ∉ s'.loneOffsets := by
  have hpush : s.push k .loopClose = { s with pairs := (o, k) :: s.pairs, opens := opens } := by
    simp only [push, ho]
  rw [hpush] at h
  refine ⟨⟨by rw [ho]; exact Nat.succ_le_succ h.closed_le,
    fun i hi => h.mem_loneCloses i (Nat.lt_succ_of_lt hi), fun i hi => ?_⟩, ?_⟩
  · rw [ho]
    exact h.mem_opens i (Nat.lt_succ_of_lt hi)
  · refine h.not_mem_loneOffsets hs.not_mem_loneCloses fun hmem => hs.not_mem_opens ?_
    rw [ho]
    exact List.mem_cons_of_mem o (List.mem_of_mem_drop hmem)

end Closes

/-- **What the scan keeps of a source closes what the scan closes.** -/
theorem closesFrom_eraseAt_scan (source : List UInt8) :
    ∀ (s : Brackets) (k : Nat), s.Before k →
      ∃ closed, Closes k closed s (s.scan k (source.map .ofByte)) ∧
        ClosesFrom closed
          (bracketWord (eraseAt (s.scan k (source.map .ofByte)).loneOffsets k source)) := by
  induction source with
  | nil =>
    intro s k hs
    exact ⟨0, ⟨Nat.zero_le _, fun i _ => Iff.rfl, fun i _ => Iff.rfl⟩, closesFrom_nil.mpr rfl⟩
  | cons b source ih =>
    intro s k hs
    rw [List.map_cons, scan]
    obtain ⟨closed, hcloses, hword⟩ := ih _ (k + 1) (hs.push (.ofByte b))
    rcases bracket_cases b with rfl | rfl | plain
    · rw [Instruction.ofByte_openBracket] at hcloses hword ⊢
      cases closed with
      | zero =>
        obtain ⟨hleft, hlone⟩ := hcloses.leftOpen
        exact ⟨0, hleft, by rwa [eraseAt_cons_of_mem hlone]⟩
      | succ closed =>
        obtain ⟨hleft, hkept⟩ := hcloses.nested hs
        refine ⟨closed, hleft, ?_⟩
        rwa [eraseAt_cons_of_not_mem hkept, bracketWord_open, closesFrom_up]
    · rw [Instruction.ofByte_closeBracket] at hcloses hword ⊢
      cases ho : s.opens with
      | nil =>
        obtain ⟨hleft, rfl, hlone⟩ := hcloses.lone ho
        exact ⟨0, hleft, by rwa [eraseAt_cons_of_mem hlone]⟩
      | cons o opens =>
        obtain ⟨hleft, hkept⟩ := hcloses.close hs ho
        refine ⟨closed + 1, hleft, ?_⟩
        rwa [eraseAt_cons_of_not_mem hkept, bracketWord_close, closesFrom_down]
    · rw [push_plain plain] at hcloses hword ⊢
      exact ⟨closed, hcloses.plain, by rwa [bracketWord_eraseAt_plain _ _ plain]⟩

/-- **A source without its lone brackets is balanced.** -/
theorem balanced_eraseAt_lone (source : List UInt8) :
    Balanced (eraseAt (ofInstructions (source.map .ofByte)).loneOffsets 0 source) := by
  have hempty : empty.Before 0 :=
    ⟨fun i hi => absurd hi List.not_mem_nil, fun i hi => absurd hi List.not_mem_nil⟩
  obtain ⟨closed, hcloses, hword⟩ := closesFrom_eraseAt_scan source empty 0 hempty
  obtain rfl : closed = 0 := Nat.le_zero.mp hcloses.closed_le
  exact balanced_iff_closesFrom.mpr hword

/-- No bracket is counted twice. -/
theorem card_loneOffsets (source : List UInt8) :
    (ofInstructions (source.map .ofByte)).loneOffsets.card
      = (ofInstructions (source.map .ofByte)).loneCloses.length
        + (ofInstructions (source.map .ofByte)).opens.length := by
  obtain ⟨h, -⟩ := scanned_ofInstructions source
  rw [loneOffsets, List.toFinset_card_of_nodup, List.length_append]
  refine List.nodup_append.mpr ⟨h.closes_sorted.imp Nat.ne_of_gt, h.opens_sorted.imp Nat.ne_of_gt,
    fun i hi j hj hij => ?_⟩
  have hclose := h.closes_get i hi
  rw [hij, h.opens_get j hj, Option.some.injEq] at hclose
  exact openBracket_ne_closeBracket hclose

/-! ## No repair is smaller -/

/-- A balanced source has no lone brackets. -/
theorem lone_of_balanced {source : List UInt8} (h : Balanced source) :
    (ofInstructions (source.map .ofByte)).loneCloses = [] ∧
      (ofInstructions (source.map .ofByte)).opens = [] := by
  obtain ⟨block, rfl⟩ := Block.balanced_iff_exists_code.mp h
  rw [ofInstructions_code]
  exact ⟨rfl, rfl⟩

/-- Wherever a balanced source is cut, the first part has no more `]` than `[`, and the second part no
more `[` than `]`. -/
theorem count_le_of_balanced {s t : List UInt8} (h : Balanced (s ++ t)) :
    s.count closeBracket ≤ s.count openBracket ∧ t.count openBracket ≤ t.count closeBracket := by
  obtain ⟨-, htallied⟩ := scanned_ofInstructions (s ++ t)
  obtain ⟨hcloses, hopens⟩ := lone_of_balanced h
  have hfirst := htallied.most s (List.prefix_append s t)
  have hsecond := htallied.suffix_le (List.suffix_append s t)
  rw [hcloses] at hfirst
  rw [hopens] at hsecond
  exact ⟨hfirst, hsecond⟩

/-- **As many bytes have to be deleted as brackets are lone**, whatever bytes are deleted. -/
theorem lone_le_card {source : List UInt8} {offsets : Finset Nat}
    (h : Balanced (eraseAt offsets 0 source)) :
    (ofInstructions (source.map .ofByte)).loneCloses.length
        + (ofInstructions (source.map .ofByte)).opens.length ≤ offsets.card := by
  obtain ⟨-, htallied⟩ := scanned_ofInstructions source
  -- the prefix with the most `]` that are too many, and the rest behind it
  obtain ⟨s, ⟨t, rfl⟩, hs⟩ := htallied.reached
  have hbalance := htallied.balance
  rw [List.count_append, List.count_append] at hbalance
  rw [eraseAt_append] at h
  obtain ⟨hfirst, hsecond⟩ := count_le_of_balanced h
  have hcard := length_erasedAt_le offsets 0 (s ++ t)
  rw [erasedAt_append, List.length_append] at hcard
  have hcloses := List.count_le_length (a := closeBracket) (l := erasedAt offsets 0 s)
  have hopens := List.count_le_length (a := openBracket) (l := erasedAt offsets (0 + s.length) t)
  have h₁ := count_eraseAt offsets closeBracket s 0
  have h₂ := count_eraseAt offsets openBracket s 0
  have h₃ := count_eraseAt offsets closeBracket t (0 + s.length)
  have h₄ := count_eraseAt offsets openBracket t (0 + s.length)
  omega

end Brackets

/-! ## The report -/

namespace Program

/-- The diagnostics that `prepare` reports. There are none for a source that it accepts. -/
def report (source : List UInt8) : List Diagnostic :=
  match prepare source with
  | .ok _ => []
  | .error ds => ds

theorem length_report (source : List UInt8) :
    (report source).length
      = (Brackets.ofInstructions (source.map .ofByte)).loneCloses.length
        + (Brackets.ofInstructions (source.map .ofByte)).opens.length := by
  unfold report
  cases hprepare : prepare source with
  | ok p =>
    obtain ⟨hcloses, hopens⟩ :=
      Brackets.lone_of_balanced (prepared_of_prepare hprepare).balanced
    rw [hcloses, hopens]
    rfl
  | error ds =>
    obtain ⟨-, rfl⟩ := prepare_eq_error_iff.mp hprepare
    simp [diagnostics, Brackets.lone]

/-- Deleting the brackets at these offsets makes `prepare` accept the source. -/
structure Repairs (source : List UInt8) (offsets : Finset Nat) : Prop where
  brackets : ∀ i ∈ offsets, source[i]? = some openBracket ∨ source[i]? = some closeBracket
  accepted : ∃ p, prepare (eraseAt offsets 0 source) = .ok p

theorem repairs_loneOffsets (source : List UInt8) :
    Repairs source (Brackets.ofInstructions (source.map .ofByte)).loneOffsets := by
  obtain ⟨h, -⟩ := Brackets.scanned_ofInstructions source
  refine ⟨fun i hi => ?_, exists_prepare_of_balanced (Brackets.balanced_eraseAt_lone source)⟩
  rcases Brackets.mem_loneOffsets.mp hi with hi | hi
  · exact Or.inr (h.closes_get i hi)
  · exact Or.inl (h.opens_get i hi)

/-- **The report is a smallest repair.** There are as many diagnostics as the least number of brackets
whose deletion makes `prepare` accept the source, and deleting the brackets that are reported, which are
the lone ones, is a way to do it. -/
theorem report_is_minimal_repair (source : List UInt8) :
    IsLeast {n | ∃ offsets : Finset Nat, Repairs source offsets ∧ offsets.card = n}
        (report source).length ∧
      ∃ offsets : Finset Nat, Repairs source offsets ∧ offsets.card = (report source).length ∧
        ∀ i, i ∈ offsets ↔ LoneAt source closeBracket i ∨ LoneAt source openBracket i := by
  have hrepairs := repairs_loneOffsets source
  have hcard := (Brackets.card_loneOffsets source).trans (length_report source).symm
  refine ⟨⟨⟨_, hrepairs, hcard⟩, ?_⟩, _, hrepairs, hcard, fun i => ?_⟩
  · rintro n ⟨offsets, ⟨-, p, hp⟩, rfl⟩
    rw [length_report]
    exact Brackets.lone_le_card (prepared_of_prepare hp).balanced
  · rw [Brackets.mem_loneOffsets, Brackets.mem_loneCloses_iff, Brackets.mem_opens_iff]

/-- In `]][[]` all but the last two brackets are lone. -/
example : (report [0x5D, 0x5D, 0x5B, 0x5B, 0x5D]).length = 3 := by decide

end Program

end TapeMachine
