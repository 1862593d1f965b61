import Mathlib.Data.List.TakeWhile
import TapeMachine.CommandLine.Options

/-!
# Words of a command line

A word that starts with `-` may be a flag, or something that is taken for one (`TakenFor`). If it is
neither, nor a number, nor has a blank in it, it is an unknown option
(`Options.classify_eq_unknown_iff`).

Where the positional argument takes many words, it gets the first operands that stand together. All
operands behind these are extra words, just as unknown options are (`Options.read_plain`).
-/

namespace TapeMachine.CommandLine

/-! ## Kinds of words -/

/-- A word that no option can be: it does not start with `-`. -/
def IsOperand (word : String) : Prop := word.toList.head? ≠ some '-'

instance : DecidablePred IsOperand :=
  fun word => inferInstanceAs (Decidable (word.toList.head? ≠ some '-'))

/-- A word is taken for a flag: it is the flag or a start of it, or one of these followed by `=` and
a value, where only a long flag may be cut short. A short flag may also have text directly after
it. -/
inductive TakenFor : List Char → List Char → Prop where
  | start {word flag : List Char} (h : word <+: flag) : TakenFor word flag
  | valued {name value flag : List Char} (hname : '=' ∉ name)
      (h : name = flag ∨ ['-', '-'] <+: name ∧ name <+: flag) :
      TakenFor (name ++ '=' :: value) flag
  | cluster {c : Char} {rest : List Char} (hc : c ≠ '-') : TakenFor ('-' :: c :: rest) ['-', c]

namespace Options

variable {α : Type} {o : Options α}

/-- An unknown option. -/
structure IsUnknown (o : Options α) (word : String) : Prop where
  dashed : ∃ c rest, word.toList = '-' :: c :: rest
  notTaken : ∀ f ∈ o.flags, ¬ TakenFor word.toList f.1.toList
  notNumber : isNegativeNumber word.toList = false
  notBlank : ' ' ∉ word.toList

theorem IsUnknown.not_isOperand {word : String} (h : o.IsUnknown word) : ¬ IsOperand word := by
  obtain ⟨c, rest, hword⟩ := h.dashed
  simp [IsOperand, hword]

theorem find?_eq_none_iff {flag : String} :
    o.find? flag = none ↔ ∀ f ∈ o.flags, f.1.toList ≠ flag.toList := by
  simp [find?, List.find?_eq_none, String.toList_inj]

/-- A word is split at its first `=`. -/
theorem splitEquals_append {name : List Char} (h : '=' ∉ name) (value : List Char) :
    splitEquals (name ++ '=' :: value) = (name, some value) := by
  have hname : ∀ c ∈ name, decide (c ≠ '=') = true :=
    fun c hc => decide_eq_true (ne_of_mem_of_not_mem hc h)
  have hdrop : (name ++ '=' :: value).dropWhile (· ≠ '=') = '=' :: value := by
    rw [List.dropWhile_append_of_pos hname]
    rfl
  have htake : (name ++ '=' :: value).takeWhile (· ≠ '=') = name := by
    rw [List.takeWhile_append_of_pos hname]
    exact List.append_nil name
  simp only [splitEquals, hdrop, htake]

theorem splitEquals_of_not_mem {word : List Char} (h : '=' ∉ word) :
    splitEquals word = (word, none) := by
  have hdrop : word.dropWhile (· ≠ '=') = [] :=
    List.dropWhile_eq_nil_iff.mpr fun c hc => decide_eq_true (ne_of_mem_of_not_mem hc h)
  simp only [splitEquals, hdrop]

theorem classify_of_isOperand {word : String} (h : IsOperand word) :
    o.classify word = .ok (.operand word) := by
  simp only [classify]
  split
  · next hword => simp [IsOperand, hword] at h
  · rfl

/-- The flags that a word which starts with `-` may mean, though it is none. -/
theorem candidates_eq_nil_iff {c : Char} {rest : List Char} :
    o.candidates ('-' :: c :: rest) = [] ↔ ∀ f ∈ o.flags,
      if c = '-' then ¬ (splitEquals ('-' :: c :: rest)).1 <+: f.1.toList
      else f.1.toList ≠ ['-', c] ∧ ¬ '-' :: c :: rest <+: f.1.toList := by
  by_cases hc : c = '-'
  · subst hc
    simp [candidates]
  · unfold candidates
    split
    · next heq => exact absurd (List.cons.inj (List.cons.inj heq).2).1 hc
    · simp only [List.filterMap_eq_nil_iff, if_neg hc]
      refine forall₂_congr fun f _ => ?_
      by_cases hflag : f.1.toList = ['-', c]
      · simp [hflag]
      · simp [hflag]

theorem splitEquals_isPrefix_word (word : List Char) : (splitEquals word).1 <+: word := by
  by_cases h : '=' ∈ word
  · obtain ⟨name, value, rfl, hname⟩ := List.eq_append_cons_of_mem h
    rw [splitEquals_append hname]
    exact List.prefix_append name _
  · simp only [splitEquals_of_not_mem h, List.prefix_rfl]

/-- A word is taken for none of the flags if it is none, has none before its first `=`, and there
are no candidates for it. -/
theorem notTaken_iff {c : Char} {rest : List Char} :
    (∀ f ∈ o.flags, ¬ TakenFor ('-' :: c :: rest) f.1.toList) ↔
      (∀ f ∈ o.flags, f.1.toList ≠ '-' :: c :: rest) ∧
      (∀ value, (splitEquals ('-' :: c :: rest)).2 = some value →
        ∀ f ∈ o.flags, f.1.toList ≠ (splitEquals ('-' :: c :: rest)).1) ∧
      o.candidates ('-' :: c :: rest) = [] := by
  rw [candidates_eq_nil_iff]
  constructor
  · intro h
    refine ⟨fun f hf heq => h f hf (.start (heq ▸ List.prefix_rfl)),
      fun value hvalue f hf heq => ?_, fun f hf => ?_⟩
    · by_cases hequals : '=' ∈ '-' :: c :: rest
      · obtain ⟨name, value, hword, hname⟩ := List.eq_append_cons_of_mem hequals
        rw [hword, splitEquals_append hname] at heq
        exact h f hf (hword ▸ .valued hname (.inl heq.symm))
      · rw [splitEquals_of_not_mem hequals] at hvalue
        cases hvalue
    split
    · next hc =>
      subst hc
      intro hstart
      by_cases hequals : '=' ∈ '-' :: '-' :: rest
      · obtain ⟨name, value, hword, hname⟩ := List.eq_append_cons_of_mem hequals
        rw [hword, splitEquals_append hname] at hstart
        refine h f hf (hword ▸ .valued hname (.inr ⟨?_, hstart⟩))
        match name, hword with
        | a :: b :: long, hword =>
          simp only [List.cons_append, List.cons.injEq] at hword
          obtain ⟨rfl, rfl, -⟩ := hword
          exact ⟨long, rfl⟩
      · rw [splitEquals_of_not_mem hequals] at hstart
        exact h f hf (.start hstart)
    · next hc => exact ⟨fun heq => h f hf (heq ▸ .cluster hc), fun hstart => h f hf (.start hstart)⟩
  · rintro ⟨hexact, hvalued, hcandidates⟩ f hf htaken
    have hcandidate := hcandidates f hf
    have hvalued := fun value hvalue => hvalued value hvalue f hf
    generalize f.1.toList = flag at htaken hcandidate hvalued
    generalize hword : '-' :: c :: rest = word at htaken hcandidate hvalued
    cases htaken with
    | start hstart =>
      split at hcandidate
      · exact hcandidate ((splitEquals_isPrefix_word word).trans hstart)
      · exact hcandidate.2 hstart
    | @valued name value _ hname h =>
      rw [splitEquals_append hname] at hvalued hcandidate
      rcases h with rfl | ⟨⟨long, rfl⟩, hstart⟩
      · exact hvalued value rfl rfl
      · have hc : c = '-' := (List.cons.inj (List.cons.inj hword).2).1
        rw [if_pos hc] at hcandidate
        exact hcandidate hstart
    | @cluster d rest hd =>
      obtain rfl : c = d := (List.cons.inj (List.cons.inj hword).2).1
      rw [if_neg hd] at hcandidate
      exact hcandidate.1 rfl

/-- **The words that are unknown options.** -/
theorem classify_eq_unknown_iff {word : String} :
    o.classify word = .ok (.unknown word) ↔ o.IsUnknown word := by
  by_cases hdashed : ∃ c rest, word.toList = '-' :: c :: rest
  · obtain ⟨c, rest, hword⟩ := hdashed
    have hunknown : o.IsUnknown word ↔ (∀ f ∈ o.flags, ¬ TakenFor word.toList f.1.toList) ∧
        isNegativeNumber word.toList = false ∧ ' ' ∉ word.toList :=
      ⟨fun h => ⟨h.notTaken, h.notNumber, h.notBlank⟩,
        fun h => ⟨⟨c, rest, hword⟩, h.1, h.2.1, h.2.2⟩⟩
    have hname : o.find? (.ofList (splitEquals ('-' :: c :: rest)).1) = none ↔
        ∀ f ∈ o.flags, f.1.toList ≠ (splitEquals ('-' :: c :: rest)).1 := by
      rw [find?_eq_none_iff, String.toList_ofList]
    rw [hunknown, hword, notTaken_iff, ← hname, ← hword, ← find?_eq_none_iff]
    simp only [classify, hword]
    generalize splitEquals ('-' :: c :: rest) = split
    generalize o.candidates ('-' :: c :: rest) = candidates
    obtain ⟨start, attached⟩ := split
    -- each thing that may be found decides the word
    cases o.find? word <;> cases o.find? (.ofList start) <;> cases attached <;>
      rcases candidates with _ | ⟨_, _ | _⟩ <;> simp
  · have hne : ¬ o.IsUnknown word := fun h => hdashed h.dashed
    simp only [classify, hne, iff_false]
    split
    · next c rest hword => exact absurd ⟨c, rest, hword⟩ hdashed
    · intro h
      cases h

end Options

/-! ## Plain words -/

namespace Word

variable {α : Type}

/-- Operands, unknown options, and options that have no value. -/
def IsPlain : Word α → Prop
  | operand _ | unknown _ => True
  | separator => False
  | option c => c.attached = none ∧ c.switch.takesValue = false

@[simp] def isOperand : Word α → Bool
  | operand _ => true
  | _ => false

/-- The item that a plain word is read as, if it is an option. -/
@[simp] def item? : Word α → Option (Item α)
  | option c => some (.switch c.switch)
  | _ => none

/-- The extra word that a plain word is, if it belongs to no argument. -/
@[simp] def extra? : Word α → Option String
  | operand text | unknown text => some text
  | _ => none

end Word

namespace Options

variable {α : Type} {o : Options α}

theorem expand_of_isPlain {c : Candidate α} (h : (Word.option c).IsPlain) :
    o.expand c = .ok ⟨[.switch c.switch], none⟩ := by
  simp [expand, expandBare, h.1, h.2]

/-- Behind the words of the positional argument every operand is an extra word. -/
theorem read_taken {words : List (Word α)} (h : ∀ w ∈ words, w.IsPlain) :
    ∀ items extras, o.read (.taken false) items extras words
      = ⟨items.reverse ++ words.filterMap Word.item?,
          .ok (extras.reverse ++ words.filterMap Word.extra?)⟩ := by
  induction words with
  | nil => intro items extras; simp [read, Stage.close]
  | cons w words ih =>
    intro items extras
    obtain ⟨hw, hwords⟩ := List.forall_mem_cons.mp h
    cases w with
    | operand text => simp [read, ih hwords, List.filterMap_cons]
    | separator => exact hw.elim
    | unknown text =>
      simp [read, ih hwords, Stage.afterOption, Stage.close, List.filterMap_cons]
    | option c =>
      simp [read, expand_of_isPlain hw, ih hwords, Stage.afterOption, Stage.close,
        List.filterMap_cons]

/-- The positional argument takes the operands up to the next other word. -/
theorem read_taking (texts : List String) {words : List (Word α)} (h : ∀ w ∈ words, w.IsPlain)
    (hend : ∀ w ∈ words.head?, w.isOperand = false) :
    ∀ taken items extras, o.read (.taking taken) items extras (texts.map .operand ++ words)
      = o.read (.taken false)
          (.positional ((taken.reverse ++ texts).erase "--") :: items) extras words := by
  induction texts with
  | nil =>
    intro taken items extras
    cases words with
    | nil => simp [read, Stage.close]
    | cons w words =>
      cases w with
      | operand text => cases hend _ rfl
      | separator => exact (h _ List.mem_cons_self).elim
      | unknown text => simp [read, Stage.close, Stage.afterOption]
      | option c =>
        have hexpand := expand_of_isPlain (o := o) (h _ List.mem_cons_self)
        simp [read, hexpand, Stage.close, Stage.afterOption]
  | cons text texts ih =>
    intro taken items extras
    simp [read, ih]

/-- Before the first operand nothing is taken. -/
theorem read_waiting {before : List (Word α)} (h : ∀ w ∈ before, w.IsPlain)
    (hbefore : ∀ w ∈ before, w.isOperand = false) (words : List (Word α)) :
    ∀ items extras, o.read (.waiting .many) items extras (before ++ words)
      = o.read (.waiting .many) ((before.filterMap Word.item?).reverse ++ items)
          ((before.filterMap Word.extra?).reverse ++ extras) words := by
  induction before with
  | nil => intro items extras; rfl
  | cons w before ih =>
    intro items extras
    obtain ⟨hw, hwords⟩ := List.forall_mem_cons.mp h
    obtain ⟨hfirst, hrest⟩ := List.forall_mem_cons.mp hbefore
    cases w with
    | operand text => cases hfirst
    | separator => exact hw.elim
    | unknown text =>
      simp [read, ih hwords hrest, Stage.afterOption, Stage.close, List.filterMap_cons]
    | option c =>
      simp [read, expand_of_isPlain hw, ih hwords hrest, Stage.afterOption, Stage.close,
        List.filterMap_cons]

/-- **Only the first operands that stand together are taken.** -/
theorem read_plain {before after : List (Word α)} {text : String} {texts : List String}
    (hbefore : ∀ w ∈ before, w.IsPlain) (hafter : ∀ w ∈ after, w.IsPlain)
    (hfirst : ∀ w ∈ before, w.isOperand = false) (hend : ∀ w ∈ after.head?, w.isOperand = false) :
    o.read (.waiting .many) [] [] (before ++ ((text :: texts).map .operand ++ after))
      = ⟨before.filterMap Word.item? ++ .positional ((text :: texts).erase "--") ::
            after.filterMap Word.item?,
          .ok (before.filterMap Word.extra? ++ after.filterMap Word.extra?)⟩ := by
  rw [read_waiting hbefore hfirst, List.map_cons, List.cons_append, read,
    read_taking texts hafter hend, read_taken hafter]
  simp

theorem read_plain_of_no_operand {words : List (Word α)} (h : ∀ w ∈ words, w.IsPlain)
    (hnone : ∀ w ∈ words, w.isOperand = false) :
    o.read (.waiting .many) [] [] words
      = ⟨words.filterMap Word.item?, .ok (words.filterMap Word.extra?)⟩ := by
  have hread := read_waiting (o := o) h hnone [] [] []
  rw [List.append_nil] at hread
  rw [hread, read]
  simp [Stage.close]

theorem sort_eq_ok {argv : List String} {kind : String → Word α} (h : ∀ word ∈ argv,
    word ≠ "--" ∧ o.classify word = .ok (kind word)) : o.sort argv = .ok (argv.map kind) := by
  induction argv with
  | nil => rfl
  | cons word argv ih =>
    obtain ⟨⟨hne, hword⟩, hrest⟩ := List.forall_mem_cons.mp h
    rw [sort, if_neg hne, hword, ih hrest]
    rfl

end Options

end TapeMachine.CommandLine
