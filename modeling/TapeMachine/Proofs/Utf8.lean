import Mathlib.Data.Nat.Find
import TapeMachine.Proofs.Lines
import TapeMachine.Text.Utf8

/-!
# Reading UTF-8

What bytes are read as can be told from the bytes of single characters alone (`Utf8.Reads`): where the
bytes of a character stand it is that character, and anywhere else the longest start of a character
that stands there is read as one U+FFFD, or one byte if no character starts with it.

* `Utf8.reads_iff`: `decode` reads all bytes in this way, and there is no other text for them
* `Utf8.Reads.append_newline`: a newline byte stands in no other character, so that a source may be
  split there before it is read
* `Utf8.exists_index_of_char`: the bytes of ASCII are characters, and the line of a character may be
  counted in characters
-/

namespace TapeMachine.Utf8

/-! ## The text of bytes -/

/-- The bytes are the first ones of a character, or all of them. -/
def IsStart (bytes : List UInt8) : Prop := ∃ c : Char, bytes <+: String.utf8EncodeChar c

/-- No character stands where `part` begins, and `part` is the longest start of a character that does,
or one byte if there is none. -/
structure IllFormed (part rest : List UInt8) : Prop where
  ne_nil : part ≠ []
  no_char : ∀ c, ¬ String.utf8EncodeChar c <+: part ++ rest
  isStart_or_single : IsStart part ∨ part.length = 1
  longest : ∀ longer, longer <+: part ++ rest → IsStart longer → longer.length ≤ part.length

/-- The text that bytes are read as. -/
inductive Reads : List UInt8 → List Char → Prop where
  | nil : Reads [] []
  | char (c : Char) {rest : List UInt8} {text : List Char} (h : Reads rest text) :
    Reads (String.utf8EncodeChar c ++ rest) (c :: text)
  | illFormed {part rest : List UInt8} {text : List Char} (hpart : IllFormed part rest)
    (h : Reads rest text) : Reads (part ++ rest) ('\uFFFD' :: text)

/-! ## Continuation bytes -/

/-- The bytes are `more` continuation bytes, the first of them between `low` and `high`. -/
def Continues : Nat → Nat → Nat → List UInt8 → Prop
  | 0, _, _, bytes => bytes = []
  | _ + 1, _, _, [] => False
  | more + 1, low, high, b :: rest =>
    (low ≤ b.toNat ∧ b.toNat ≤ high) ∧ Continues more 0x80 0xBF rest

/-- The value of a character, with `value` from the bytes before the continuation bytes. -/
def valueAfter (value : Nat) (bytes : List UInt8) : Nat :=
  bytes.foldl (fun value b => value * 0x40 + (b.toNat - 0x80)) value

@[simp] theorem valueAfter_nil (value : Nat) : valueAfter value [] = value := List.foldl_nil

@[simp] theorem valueAfter_cons (value : Nat) (b : UInt8) (rest : List UInt8) :
    valueAfter value (b :: rest) = valueAfter (value * 0x40 + (b.toNat - 0x80)) rest :=
  List.foldl_cons ..

theorem Continues.le_of_mem {more low high : Nat} {bytes : List UInt8} (hlow : 0x80 ≤ low)
    (h : Continues more low high bytes) : ∀ b ∈ bytes, 0x80 ≤ b.toNat := by
  induction more generalizing low high bytes with
  | zero =>
    obtain rfl : bytes = [] := h
    exact fun b hb => absurd hb List.not_mem_nil
  | succ more ih =>
    cases bytes with
    | nil => exact h.elim
    | cons first rest =>
      obtain ⟨⟨hfirst, -⟩, hrest⟩ := h
      intro b hb
      rcases List.mem_cons.mp hb with rfl | hb
      · exact Nat.le_trans hlow hfirst
      · exact ih (Nat.le_refl 0x80) hrest b hb

/-- All continuation bytes are read, and no byte behind them. -/
theorem continue?_append {more low high : Nat} {bytes : List UInt8}
    (h : Continues more low high bytes) (bits : Nat) (rest : List UInt8) :
    continue? bits more low high (bytes ++ rest) = (some (valueAfter bits bytes), rest) := by
  induction more generalizing bits low high bytes with
  | zero =>
    obtain rfl : bytes = [] := h
    rw [List.nil_append, continue?, valueAfter_nil]
  | succ more ih =>
    cases bytes with
    | nil => exact h.elim
    | cons b bytes =>
      obtain ⟨hb, hbytes⟩ := h
      rw [List.cons_append, continue?, if_pos hb, ih hbytes, valueAfter_cons]

/-- There are continuation bytes for every range. -/
theorem exists_continues {more low high : Nat} (hle : low ≤ high) (hhigh : high < 0x100) :
    ∃ bytes, Continues more low high bytes := by
  induction more generalizing low high with
  | zero => exact ⟨[], rfl⟩
  | succ more ih =>
    obtain ⟨bytes, hbytes⟩ := ih (show 0x80 ≤ 0xBF by decide) (by decide)
    have hlow : (UInt8.ofNat low).toNat = low := by
      rw [UInt8.toNat_ofNat', Nat.mod_eq_of_lt (by omega)]
    exact ⟨.ofNat low :: bytes, ⟨by rw [hlow]; exact ⟨Nat.le_refl low, hle⟩, hbytes⟩⟩

/-- Continuation bytes are read up to the first one that is none. -/
theorem continue?_cases {more low high : Nat} (hle : low ≤ high) (hhigh : high < 0x100) (bits : Nat)
    (bytes : List UInt8) :
    (∃ read rest, bytes = read ++ rest ∧ Continues more low high read ∧
      continue? bits more low high bytes = (some (valueAfter bits read), rest)) ∨
    ∃ read rest, bytes = read ++ rest ∧ continue? bits more low high bytes = (none, rest) ∧
      (∃ missing, Continues more low high (read ++ missing)) ∧
      ∀ more', more' <+: rest → more' ≠ [] → ∀ missing,
        ¬ Continues more low high (read ++ more' ++ missing) := by
  induction more generalizing bits low high bytes with
  | zero => exact .inl ⟨[], bytes, rfl, rfl, by rw [continue?, valueAfter_nil]⟩
  | succ more ih =>
    cases bytes with
    | nil =>
      refine .inr ⟨[], [], rfl, by rw [continue?], exists_continues hle hhigh, ?_⟩
      exact fun more' hmore' hne => absurd (List.prefix_nil.mp hmore') hne
    | cons b rest =>
      by_cases hb : low ≤ b.toNat ∧ b.toNat ≤ high
      · rw [continue?, if_pos hb]
        rcases ih (show 0x80 ≤ 0xBF by decide) (by decide)
          (bits * 0x40 + (b.toNat - 0x80)) rest with
          ⟨read, after, rfl, hread, hcontinue⟩ | ⟨read, after, rfl, hcontinue, ⟨missing, hmissing⟩, hstop⟩
        · exact .inl ⟨b :: read, after, rfl, ⟨hb, hread⟩, by rw [hcontinue, valueAfter_cons]⟩
        · exact .inr ⟨b :: read, after, rfl, hcontinue, ⟨missing, hb, hmissing⟩,
            fun more' hmore' hne missing h => hstop more' hmore' hne missing h.2⟩
      · refine .inr ⟨[], b :: rest, rfl, by rw [continue?, if_neg hb], exists_continues hle hhigh, ?_⟩
        intro more' hmore' hne missing h
        cases more' with
        | nil => exact hne rfl
        | cons b' more' =>
          obtain ⟨rfl, -⟩ := List.cons_prefix_cons.mp hmore'
          exact hb h.1

/-! ## The bytes of a character -/

theorem toNat_ofNat_of_lt {n : Nat} (h : n < 0x100) : (UInt8.ofNat n).toNat = n := by
  rw [UInt8.toNat_ofNat', Nat.mod_eq_of_lt h]

theorem utf8EncodeChar_of_lt {c : Char} (h : c.toNat < 0x80) :
    String.utf8EncodeChar c = [.ofNat c.toNat] := by
  unfold String.utf8EncodeChar
  exact if_pos (Nat.le_of_lt_succ h)

/-- What each lead byte asks for. The first continuation byte may not make the form overlong, a
surrogate, or too large. -/
theorem lead?_eq_some_iff {b : UInt8} {lead : Lead} :
    lead? b = some lead ↔
      ((0xC2 ≤ b.toNat ∧ b.toNat ≤ 0xDF) ∧ lead = ⟨b.toNat - 0xC0, 1, 0x80, 0xBF⟩) ∨
      ((0xE0 ≤ b.toNat ∧ b.toNat ≤ 0xEF) ∧ lead = ⟨b.toNat - 0xE0, 2,
        if b.toNat = 0xE0 then 0xA0 else 0x80, if b.toNat = 0xED then 0x9F else 0xBF⟩) ∨
      ((0xF0 ≤ b.toNat ∧ b.toNat ≤ 0xF4) ∧ lead = ⟨b.toNat - 0xF0, 3,
        if b.toNat = 0xF0 then 0x90 else 0x80, if b.toNat = 0xF4 then 0x8F else 0xBF⟩) := by
  obtain ⟨bits, more, low, high⟩ := lead
  simp only [lead?, Lead.mk.injEq]
  generalize b.toNat = n
  split_ifs <;> simp <;> omega

/-- The bytes of a character beyond ASCII are a lead byte and the continuation bytes it asks for. -/
theorem exists_lead {c : Char} (h : 0x80 ≤ c.toNat) :
    ∃ b lead bytes, String.utf8EncodeChar c = b :: bytes ∧ lead? b = some lead ∧
      Continues lead.more lead.low lead.high bytes ∧ valueAfter lead.bits bytes = c.toNat := by
  have hvalid : c.toNat < 0xD800 ∨ 0xDFFF < c.toNat ∧ c.toNat < 0x110000 := c.valid
  unfold String.utf8EncodeChar
  rw [show c.val.toNat = c.toNat from rfl]
  generalize c.toNat = n at h hvalid
  simp only [if_neg (show ¬ n ≤ 127 by omega)]
  have htail : ∀ m, (UInt8.ofNat (m % 64 + 128)).toNat = m % 64 + 128 := fun m =>
    toNat_ofNat_of_lt (by omega)
  split
  · have hb : (UInt8.ofNat (n / 64 % 32 + 192)).toNat = n / 64 + 192 := by
      rw [toNat_ofNat_of_lt (by omega)]
      omega
    refine ⟨_, _, _, rfl, lead?_eq_some_iff.mpr (.inl ⟨by rw [hb]; omega, rfl⟩), ?_, ?_⟩
    · simp only [Continues, htail, and_true]
      omega
    · simp only [valueAfter_cons, valueAfter_nil, htail, hb]
      omega
  · split
    · have hb : (UInt8.ofNat (n / 4096 % 16 + 224)).toNat = n / 4096 + 224 := by
        rw [toNat_ofNat_of_lt (by omega)]
        omega
      refine ⟨_, _, _, rfl, lead?_eq_some_iff.mpr (.inr (.inl ⟨by rw [hb]; omega, rfl⟩)), ?_, ?_⟩
      · simp only [Continues, htail, hb, and_true]
        split_ifs <;> omega
      · simp only [valueAfter_cons, valueAfter_nil, htail, hb]
        omega
    · have hb : (UInt8.ofNat (n / 262144 % 8 + 240)).toNat = n / 262144 + 240 := by
        rw [toNat_ofNat_of_lt (by omega)]
        omega
      refine ⟨_, _, _, rfl, lead?_eq_some_iff.mpr (.inr (.inr ⟨by rw [hb]; omega, rfl⟩)), ?_, ?_⟩
      · simp only [Continues, htail, hb, and_true]
        split_ifs <;> omega
      · simp only [valueAfter_cons, valueAfter_nil, htail, hb]
        omega

theorem Continues.exists_cons {more low high : Nat} {bytes : List UInt8}
    (h : Continues (more + 1) low high bytes) : ∃ b rest, bytes = b :: rest ∧
      (low ≤ b.toNat ∧ b.toNat ≤ high) ∧ Continues more 0x80 0xBF rest := by
  cases bytes with
  | nil => exact h.elim
  | cons b rest => exact ⟨b, rest, rfl, h⟩

/-- A lead byte and the continuation bytes it asks for are the bytes of a character. -/
theorem exists_char {b : UInt8} {lead : Lead} {bytes : List UInt8} (hlead : lead? b = some lead)
    (h : Continues lead.more lead.low lead.high bytes) :
    ∃ c : Char, c.toNat = valueAfter lead.bits bytes ∧ String.utf8EncodeChar c = b :: bytes := by
  have heq : ∀ {n : Nat} {x : UInt8}, n = x.toNat → UInt8.ofNat n = x := fun h =>
    h ▸ UInt8.ofNat_toNat
  have hchar : ∀ {n : Nat}, (n < 0xD800 ∨ 0xDFFF < n ∧ n < 0x110000) →
      ∃ c : Char, c.val.toNat = n := fun hvalid => ⟨Char.ofNatAux _ hvalid, rfl⟩
  rcases lead?_eq_some_iff.mp hlead with ⟨hb, rfl⟩ | ⟨hb, rfl⟩ | ⟨hb, rfl⟩
  · obtain ⟨b₁, _, rfl, h₁, rfl⟩ := h.exists_cons
    simp only [valueAfter_cons, valueAfter_nil] at h₁ ⊢
    obtain ⟨c, hc⟩ := hchar (n := (b.toNat - 0xC0) * 0x40 + (b₁.toNat - 0x80)) (by omega)
    refine ⟨c, hc, ?_⟩
    unfold String.utf8EncodeChar
    simp only [hc]
    rw [if_neg (by omega), if_pos (by omega), heq (x := b) (by omega), heq (x := b₁) (by omega)]
  · obtain ⟨b₁, _, rfl, h₁, h⟩ := h.exists_cons
    obtain ⟨b₂, _, rfl, h₂, rfl⟩ := h.exists_cons
    simp only [valueAfter_cons, valueAfter_nil] at h₁ ⊢
    generalize hn : ((b.toNat - 0xE0) * 0x40 + (b₁.toNat - 0x80)) * 0x40 + (b₂.toNat - 0x80) = n
    -- The range of the first continuation byte keeps out overlong forms and surrogates.
    obtain ⟨hb₁, hlow, hvalid⟩ : (0x80 ≤ b₁.toNat ∧ b₁.toNat ≤ 0xBF) ∧ 0x7FF < n ∧
        (n < 0xD800 ∨ 0xDFFF < n ∧ n < 0x10000) := by
      split_ifs at h₁ <;> omega
    obtain ⟨c, hc⟩ := hchar (n := n) (by omega)
    refine ⟨c, hc, ?_⟩
    unfold String.utf8EncodeChar
    simp only [hc]
    rw [if_neg (by omega), if_neg (by omega), if_pos (by omega), heq (x := b) (by omega),
      heq (x := b₁) (by omega), heq (x := b₂) (by omega)]
  · obtain ⟨b₁, _, rfl, h₁, h⟩ := h.exists_cons
    obtain ⟨b₂, _, rfl, h₂, h⟩ := h.exists_cons
    obtain ⟨b₃, _, rfl, h₃, rfl⟩ := h.exists_cons
    simp only [valueAfter_cons, valueAfter_nil] at h₁ ⊢
    generalize hn : (((b.toNat - 0xF0) * 0x40 + (b₁.toNat - 0x80)) * 0x40 + (b₂.toNat - 0x80)) *
      0x40 + (b₃.toNat - 0x80) = n
    obtain ⟨hb₁, hlow, hhigh⟩ : (0x80 ≤ b₁.toNat ∧ b₁.toNat ≤ 0xBF) ∧ 0xFFFF < n ∧
        n < 0x110000 := by
      split_ifs at h₁ <;> omega
    obtain ⟨c, hc⟩ := hchar (n := n) (by omega)
    refine ⟨c, hc, ?_⟩
    unfold String.utf8EncodeChar
    simp only [hc]
    rw [if_neg (by omega), if_neg (by omega), if_neg (by omega), heq (x := b) (by omega),
      heq (x := b₁) (by omega), heq (x := b₂) (by omega), heq (x := b₃) (by omega)]

theorem exists_utf8EncodeChar_of_lt {b : UInt8} (hb : b.toNat < 0x80) :
    ∃ c : Char, String.utf8EncodeChar c = [b] := by
  obtain ⟨c, hc⟩ : ∃ c : Char, c.toNat = b.toNat :=
    ⟨Char.ofNatAux b.toNat (.inl (by omega)), rfl⟩
  exact ⟨c, by rw [utf8EncodeChar_of_lt (hc ▸ hb), hc, UInt8.ofNat_toNat]⟩

theorem utf8EncodeChar_ne_nil (c : Char) : String.utf8EncodeChar c ≠ [] := by
  intro h
  have := String.length_utf8EncodeChar c
  rw [h, List.length_nil] at this
  exact absurd c.utf8Size_pos (by omega)

theorem bounds_of_lead? {b : UInt8} {lead : Lead} (h : lead? b = some lead) :
    0x80 ≤ b.toNat ∧ 0x80 ≤ lead.low ∧ lead.low ≤ lead.high ∧ lead.high < 0x100 := by
  rcases lead?_eq_some_iff.mp h with ⟨hb, rfl⟩ | ⟨hb, rfl⟩ | ⟨hb, rfl⟩
  · exact ⟨by omega, by simp only; omega⟩
  · simp only
    split_ifs <;> omega
  · simp only
    split_ifs <;> omega

/-- Of what begins with a byte beyond ASCII, exactly the characters' starts have a lead byte and no
byte that does not continue it. -/
theorem isStart_cons_iff {b : UInt8} (hb : 0x80 ≤ b.toNat) {bytes : List UInt8} :
    IsStart (b :: bytes) ↔ ∃ lead missing, lead? b = some lead ∧
      Continues lead.more lead.low lead.high (bytes ++ missing) := by
  constructor
  · rintro ⟨c, missing, h⟩
    by_cases hc : c.toNat < 0x80
    · rw [utf8EncodeChar_of_lt hc, List.cons_append, List.cons.injEq] at h
      rw [h.1, toNat_ofNat_of_lt (by omega)] at hb
      exact absurd hc (by omega)
    · obtain ⟨b', lead, bytes', hbytes', hlead, hcontinues, -⟩ := exists_lead (Nat.le_of_not_lt hc)
      rw [hbytes', List.cons_append, List.cons.injEq] at h
      exact ⟨lead, missing, h.1 ▸ hlead, h.2 ▸ hcontinues⟩
  · rintro ⟨lead, missing, hlead, hcontinues⟩
    obtain ⟨c, -, hc⟩ := exists_char hlead hcontinues
    exact ⟨c, missing, by rw [hc, List.cons_append]⟩

/-- A byte of ASCII is a character of its own, and no part of another one. -/
theorem utf8EncodeChar_eq_of_mem {c : Char} {b : UInt8} (hb : b.toNat < 0x80)
    (h : b ∈ String.utf8EncodeChar c) : String.utf8EncodeChar c = [b] ∧ c.toNat = b.toNat := by
  by_cases hc : c.toNat < 0x80
  · rw [utf8EncodeChar_of_lt hc] at h ⊢
    obtain rfl := List.mem_singleton.mp h
    exact ⟨rfl, (toNat_ofNat_of_lt (by omega)).symm⟩
  · obtain ⟨b', lead, bytes, hbytes, hlead, hcontinues, -⟩ := exists_lead (Nat.le_of_not_lt hc)
    obtain ⟨hb', hlow, -⟩ := bounds_of_lead? hlead
    rw [hbytes] at h
    rcases List.mem_cons.mp h with rfl | h
    · exact absurd hb' (by omega)
    · exact absurd (hcontinues.le_of_mem hlow b h) (by omega)

/-! ## What the decoder does -/

theorem decodeAfter_char (text : String) (c : Char) (rest : List UInt8) :
    decodeAfter text (String.utf8EncodeChar c ++ rest) = decodeAfter (text.push c) rest := by
  by_cases hc : c.toNat < 0x80
  · rw [utf8EncodeChar_of_lt hc, List.singleton_append, decodeAfter,
      toNat_ofNat_of_lt (by omega), if_pos hc, Char.ofNat_toNat]
  · obtain ⟨b, lead, bytes, hbytes, hlead, hcontinues, hvalue⟩ := exists_lead (Nat.le_of_not_lt hc)
    rw [hbytes, List.cons_append, decodeAfter, if_neg (Nat.not_lt.mpr (bounds_of_lead? hlead).1)]
    split
    · rename_i hnone
      rw [hlead] at hnone
      cases hnone
    · rename_i lead' hlead'
      obtain rfl : lead = lead' := Option.some.inj (hlead.symm.trans hlead')
      split
      · rename_i heq
        rw [continue?_append hcontinues, Prod.mk.injEq, Option.some.injEq] at heq
        rw [← heq.1, ← heq.2, hvalue, Char.ofNat_toNat]
      · rename_i heq
        rw [continue?_append hcontinues, Prod.mk.injEq] at heq
        exact absurd heq.1 (Option.some_ne_none _)

theorem decodeAfter_illFormed (text : String) {part rest : List UInt8} (h : IllFormed part rest) :
    decodeAfter text (part ++ rest) = decodeAfter (text.push '\uFFFD') rest := by
  obtain ⟨hne, hnone, hstart, hlongest⟩ := h
  obtain ⟨b, more, rfl⟩ := List.exists_cons_of_ne_nil hne
  have hb : 0x80 ≤ b.toNat := by
    refine Nat.le_of_not_lt fun hb => ?_
    obtain ⟨c, hc⟩ := exists_utf8EncodeChar_of_lt hb
    exact hnone c ⟨more ++ rest, by rw [hc]; rfl⟩
  rw [List.cons_append, decodeAfter, if_neg (Nat.not_lt.mpr hb)]
  split
  · rename_i hlead
    rcases hstart with hstart | hlength
    · obtain ⟨lead, -, hlead', -⟩ := (isStart_cons_iff hb).mp hstart
      rw [hlead] at hlead'
      cases hlead'
    · rw [List.length_eq_zero_iff.mp (Nat.succ.inj hlength), List.nil_append]
  · rename_i lead hlead
    obtain ⟨-, -, hle, hhigh⟩ := bounds_of_lead? hlead
    rcases continue?_cases hle hhigh lead.bits (more ++ rest) with
      ⟨read, after, heq, hread, hcontinue⟩ | ⟨read, after, heq, hcontinue, ⟨missing, hmissing⟩, hstop⟩
    · obtain ⟨c, -, hc⟩ := exists_char hlead hread
      exact absurd ⟨after, by rw [hc, List.cons_append, List.cons_append, heq]⟩ (hnone c)
    · -- The bytes read are a start, so `part` has all of them; and it has no byte that stops one.
      have hlength : (b :: read).length ≤ (b :: more).length :=
        hlongest _ ⟨after, by rw [List.cons_append, List.cons_append, heq]⟩
          ((isStart_cons_iff hb).mpr ⟨lead, missing, hlead, hmissing⟩)
      obtain ⟨more', rfl⟩ : read <+: more := List.prefix_of_prefix_length_le
        (heq ▸ List.prefix_append read after) (List.prefix_append more rest)
        (Nat.le_of_succ_le_succ hlength)
      rw [List.append_assoc, List.append_cancel_left_eq] at heq
      obtain rfl : more' = [] := by
        by_contra hmore'
        rcases hstart with hstart | hlength
        · obtain ⟨lead', missing', hlead', hcontinues⟩ := (isStart_cons_iff hb).mp hstart
          obtain rfl : lead = lead' := Option.some.inj (hlead.symm.trans hlead')
          exact hstop more' ⟨rest, heq⟩ hmore' missing' hcontinues
        · rw [List.length_cons, List.length_append] at hlength
          exact hmore' (List.length_eq_zero_iff.mp (by omega))
      rw [List.nil_append] at heq
      subst heq
      rw [List.append_nil] at hcontinue ⊢
      rw [hcontinue]

/-- Where no character stands, an ill-formed part does. -/
theorem exists_illFormed {bytes : List UInt8} (hne : bytes ≠ [])
    (hnone : ∀ c, ¬ String.utf8EncodeChar c <+: bytes) :
    ∃ part rest, bytes = part ++ rest ∧ IllFormed part rest := by
  classical
  have hlength : 0 < bytes.length := List.length_pos_iff.mpr hne
  obtain ⟨k, hk⟩ : ∃ k, k = Nat.findGreatest (fun k => IsStart (bytes.take k)) bytes.length :=
    ⟨_, rfl⟩
  have hle : k ≤ bytes.length := hk ▸ Nat.findGreatest_le _
  have hstart : IsStart (bytes.take k) := by
    rw [hk]
    exact Nat.findGreatest_spec (P := fun k => IsStart (bytes.take k)) (Nat.zero_le _)
      ⟨'\n', by rw [List.take_zero]; exact List.nil_prefix⟩
  have hpart : (bytes.take (max k 1)).length = max k 1 := by
    rw [List.length_take]
    omega
  refine ⟨bytes.take (max k 1), bytes.drop (max k 1), (List.take_append_drop ..).symm, ?_, ?_, ?_, ?_⟩
  · intro hnil
    rw [hnil, List.length_nil] at hpart
    omega
  · rwa [List.take_append_drop]
  · by_cases hzero : k = 0
    · exact .inr (by rw [hpart, hzero]; rfl)
    · exact .inl (by rwa [Nat.max_eq_left (by omega)])
  · rw [List.take_append_drop]
    intro longer hlonger hstart
    rw [hpart]
    refine Nat.le_trans (hk ▸ Nat.le_findGreatest hlonger.length_le ?_) (Nat.le_max_left k 1)
    rwa [← List.prefix_iff_eq_take.mp hlonger]

theorem exists_reads (bytes : List UInt8) : ∃ text, Reads bytes text := by
  induction hn : bytes.length using Nat.strong_induction_on generalizing bytes with
  | _ n ih =>
    by_cases hne : bytes = []
    · exact ⟨[], hne ▸ .nil⟩
    by_cases hchar : ∃ c, String.utf8EncodeChar c <+: bytes
    · obtain ⟨c, rest, rfl⟩ := hchar
      have hpos := List.length_pos_iff.mpr (utf8EncodeChar_ne_nil c)
      rw [List.length_append] at hn
      obtain ⟨text, htext⟩ := ih rest.length (by omega) rest rfl
      exact ⟨_, .char c htext⟩
    · obtain ⟨part, rest, rfl, hpart⟩ := exists_illFormed hne (not_exists.mp hchar)
      have hpos := List.length_pos_iff.mpr hpart.ne_nil
      rw [List.length_append] at hn
      obtain ⟨text, htext⟩ := ih rest.length (by omega) rest rfl
      exact ⟨_, .illFormed hpart htext⟩

theorem Reads.decodeAfter_eq {bytes : List UInt8} {text : List Char} (h : Reads bytes text)
    (before : String) : decodeAfter before bytes = before ++ String.ofList text := by
  induction h generalizing before with
  | nil => rw [decodeAfter, String.ofList_nil, String.append_empty]
  | char c _ ih => rw [decodeAfter_char, ih, String.ofList_cons, String.push_eq_append,
      String.append_assoc]
  | illFormed hpart _ ih => rw [decodeAfter_illFormed _ hpart, ih, String.ofList_cons, String.push_eq_append,
      String.append_assoc]

/-- **The decoder reads the characters that stand in the bytes**, and each maximal ill-formed part as
U+FFFD. -/
theorem reads_iff {bytes : List UInt8} {text : List Char} :
    Reads bytes text ↔ decode bytes = String.ofList text := by
  have hdecode : ∀ {text}, Reads bytes text → decode bytes = String.ofList text := fun h => by
    rw [decode, h.decodeAfter_eq, String.empty_append]
  refine ⟨hdecode, fun h => ?_⟩
  obtain ⟨text', htext'⟩ := exists_reads bytes
  rwa [← String.ofList_injective ((hdecode htext').symm.trans h)]

/-- The bytes of a text are read as the text. -/
theorem reads_encode (text : String) : Reads (encode text) text.toList := by
  unfold encode
  induction text.toList with
  | nil => exact .nil
  | cons c rest ih => exact List.flatMap_cons ▸ .char c ih

/-! ## Newlines -/

theorem utf8EncodeChar_newline : String.utf8EncodeChar '\n' = [newline] := by decide

/-- What stands before a newline is no start of a character with the newline in it. -/
theorem prefix_of_isStart {longer bytes rest : List UInt8} (hne : bytes ≠ [])
    (h : longer <+: bytes ++ newline :: rest) (hstart : IsStart longer) : longer <+: bytes := by
  by_cases hle : longer.length ≤ bytes.length
  · exact List.prefix_of_prefix_length_le h (List.prefix_append ..) hle
  · obtain ⟨c, hc⟩ := hstart
    have hmem : newline ∈ longer := by
      have : bytes ++ [newline] <+: longer := List.prefix_of_prefix_length_le
        ⟨rest, by rw [List.append_assoc, List.singleton_append]⟩ h
        (by rw [List.length_append, List.length_singleton]; omega)
      exact this.subset (List.mem_append_right bytes (List.mem_singleton_self newline))
    have hsingle := (utf8EncodeChar_eq_of_mem (by decide) (hc.subset hmem)).1
    rw [hsingle] at hc
    have hlength := hc.length_le
    have hpos := List.length_pos_iff.mpr hne
    rw [List.length_singleton] at hlength
    exact absurd hlength (by omega)

theorem IllFormed.append_newline {part before : List UInt8} (h : IllFormed part before)
    (rest : List UInt8) : IllFormed part (before ++ newline :: rest) := by
  have hne : part ++ before ≠ [] := List.append_ne_nil_of_left_ne_nil h.ne_nil before
  refine ⟨h.ne_nil, fun c hc => ?_, h.isStart_or_single, fun longer hlonger hstart => ?_⟩
  · rw [← List.append_assoc] at hc
    exact h.no_char c (prefix_of_isStart hne hc ⟨c, List.prefix_refl _⟩)
  · rw [← List.append_assoc] at hlonger
    exact h.longest longer (prefix_of_isStart hne hlonger hstart) hstart

/-- **What is before a newline and what is after it are read on their own.** -/
theorem Reads.append_newline {before after : List UInt8} {text text' : List Char}
    (h : Reads before text) (h' : Reads after text') :
    Reads (before ++ newline :: after) (text ++ '\n' :: text') := by
  induction h with
  | nil =>
    rw [List.nil_append, List.nil_append, ← List.singleton_append, ← utf8EncodeChar_newline]
    exact .char '\n' h'
  | char c _ ih =>
    rw [List.append_assoc]
    exact .char c ih
  | illFormed hpart _ ih =>
    rw [List.append_assoc]
    exact .illFormed (hpart.append_newline after) ih

theorem Reads.newline_notMem {bytes : List UInt8} {text : List Char} (h : Reads bytes text)
    (hbytes : newline ∉ bytes) : '\n' ∉ text := by
  induction h with
  | nil => exact List.not_mem_nil
  | char c _ ih =>
    rw [List.mem_append, not_or] at hbytes
    rw [List.mem_cons, not_or]
    refine ⟨?_, ih hbytes.2⟩
    rintro rfl
    exact hbytes.1 (by decide)
  | illFormed hpart _ ih =>
    rw [List.mem_append, not_or] at hbytes
    rw [List.mem_cons, not_or]
    exact ⟨by decide, ih hbytes.2⟩

/-! ## Characters and their offsets -/

/-- The offset of the bytes of the character at an index. -/
def offset (cs : List Char) (k : Nat) : Nat := ((cs.take k).flatMap String.utf8EncodeChar).length

theorem take_offset (cs : List Char) (k : Nat) :
    (cs.flatMap String.utf8EncodeChar).take (offset cs k)
      = (cs.take k).flatMap String.utf8EncodeChar := by
  have hsplit : cs.flatMap String.utf8EncodeChar
      = (cs.take k).flatMap String.utf8EncodeChar ++ (cs.drop k).flatMap String.utf8EncodeChar := by
    rw [← List.flatMap_append, List.take_append_drop]
  rw [hsplit, offset, List.take_left]

theorem count_newline_utf8EncodeChar (c : Char) :
    (String.utf8EncodeChar c).count newline = if c = '\n' then 1 else 0 := by
  by_cases hc : c = '\n'
  · rw [if_pos hc, hc]
    decide
  · rw [if_neg hc, List.count_eq_zero]
    intro hmem
    have hnat : c.toNat = '\n'.toNat := (utf8EncodeChar_eq_of_mem (by decide) hmem).2
    exact hc (Char.toNat_inj.mp hnat)

/-- Newlines may be counted among the bytes as well as among the characters. -/
theorem count_newline_flatMap (cs : List Char) :
    (cs.flatMap String.utf8EncodeChar).count newline = cs.count '\n' := by
  induction cs with
  | nil => rfl
  | cons c cs ih =>
    rw [List.flatMap_cons, List.count_append, ih, count_newline_utf8EncodeChar, List.count_cons,
      Nat.add_comm]
    simp

/-- The line of a character, counted in characters. -/
theorem lineAt_offset (text : String) (k : Nat) :
    lineAt (encode text) (offset text.toList k) = 1 + (text.toList.take k).count '\n' := by
  rw [lineAt, encode, take_offset, count_newline_flatMap]

/-- A byte of ASCII is a character. -/
theorem exists_index_of_byte {b : UInt8} (hb : b.toNat < 0x80) (cs : List Char) :
    ∀ {i : Nat}, (cs.flatMap String.utf8EncodeChar)[i]? = some b →
      ∃ k c, cs[k]? = some c ∧ c.toNat = b.toNat ∧ offset cs k = i := by
  induction cs with
  | nil => intro i hi; cases hi
  | cons c cs ih =>
    intro i hi
    rw [List.flatMap_cons] at hi
    by_cases hlt : i < (String.utf8EncodeChar c).length
    · rw [List.getElem?_append_left hlt] at hi
      obtain ⟨hsingle, hnat⟩ := utf8EncodeChar_eq_of_mem hb (List.mem_of_getElem? hi)
      rw [hsingle, List.length_singleton] at hlt
      obtain rfl : i = 0 := by omega
      exact ⟨0, c, rfl, hnat, rfl⟩
    · rw [List.getElem?_append_right (by omega)] at hi
      obtain ⟨k, c', hk, hnat, hoffset⟩ := ih hi
      refine ⟨k + 1, c', hk, hnat, ?_⟩
      unfold offset at hoffset ⊢
      rw [List.take_succ_cons, List.flatMap_cons, List.length_append, hoffset]
      omega

/-- Where the byte of an ASCII character stands, there is this character, and it has the line of its
byte. -/
theorem exists_index_of_char {text : String} {c : Char} (hc : c.toNat < 0x80) {i : Nat}
    (hi : (encode text)[i]? = some (.ofNat c.toNat)) :
    ∃ k, text.toList[k]? = some c ∧ offset text.toList k = i ∧
      lineAt (encode text) i = 1 + (text.toList.take k).count '\n' := by
  have hb : (UInt8.ofNat c.toNat).toNat = c.toNat := toNat_ofNat_of_lt (by omega)
  obtain ⟨k, c', hk, hnat, rfl⟩ := exists_index_of_byte (by omega) text.toList hi
  obtain rfl := Char.toNat_inj.mp (hnat.trans hb)
  exact ⟨k, hk, rfl, lineAt_offset text k⟩

end TapeMachine.Utf8
