import TapeMachine.Text.Numeral

/-!
# Command-line options

A command line is read in two passes. The first one sorts its words into options, operands and the
separator `--`, after which every word is an operand. A word is an option if it is a flag, if it starts
one long flag and no other (both also with `=` and a value), if it is a short flag with text directly
after it, or if it starts with `-` and is neither a negative number nor holds a space; in the last case
it is unknown.

The second pass goes through the words in order. Operands that belong to the positional argument are
taken once, at the first place where some stand: up to the next option if the argument takes many, and
the first one if it takes one. Unknown options and operands left over are extra words.

Text in the same word as an option is its value, except that `--` there leaves it without one. After a
short flag that takes no value it is further short flags, and all of them have to be flags.

An error stops the reading, but only after what was read in the words before it has taken effect: a help
option before an error still gives help. So the answer keeps the items read before the error.
-/

namespace TapeMachine.CommandLine

/-- An option, under one or several flags. -/
structure Switch (α : Type) where
  meaning : α
  flags : List String
  takesValue : Bool

/-- How many words the positional argument takes. -/
inductive Arity where
  | none
  | one
  | many
  deriving DecidableEq, Repr

/-- What a command line may hold. -/
structure Options (α : Type) where
  switches : List (Switch α)
  positional : Arity

/-- What is wrong with a command line. -/
inductive UsageError where
  | ambiguous (word : String) (flags : List String)
  | valueIgnored (flags : List String) (value : String)
  | valueExpected (flags : List String)
  | notAnInteger (flags : List String) (value : String)
  | required (names : List String)
  | unrecognized (words : List String)
  deriving DecidableEq, Repr

/-- The text of an error. -/
def UsageError.message : UsageError → String
  | ambiguous word flags =>
    s!"ambiguous option: {word} could match " ++ ", ".intercalate flags
  | valueIgnored flags value =>
    "argument " ++ "/".intercalate flags ++ ": ignored explicit argument " ++ Text.quoted value
  | valueExpected flags => "argument " ++ "/".intercalate flags ++ ": expected one argument"
  | notAnInteger flags value =>
    "argument " ++ "/".intercalate flags ++ ": invalid int value: " ++ Text.quoted value
  | required names => "the following arguments are required: " ++ ", ".intercalate names
  | unrecognized words => "unrecognized arguments: " ++ " ".intercalate words

/-- Something that was read from a command line. -/
inductive Item (α : Type) where
  | switch (s : Switch α)
  /-- An option that takes a value, with the text that it has got, if any. -/
  | value (s : Switch α) (text : Option String)
  | positional (words : List String)

/-- What a command line holds: the items in order, and then the extra words, or an error. -/
structure Parsed (α : Type) where
  items : List (Item α)
  extras : Except UsageError (List String)

/-! ## Sorting the words -/

/-- A flag that a word may mean. -/
structure Candidate (α : Type) where
  flag : String
  switch : Switch α
  /-- The text in the same word, after an `=` or directly after a short flag. -/
  attached : Option (List Char)

/-- A word of the command line. -/
inductive Word (α : Type) where
  | operand (text : String)
  | separator
  | unknown (text : String)
  | option (c : Candidate α)

namespace Options

variable {α : Type}

/-- All flags, in the order they were declared. -/
def flags (o : Options α) : List (String × Switch α) :=
  o.switches.flatMap fun s => s.flags.map (·, s)

/-- The option of a flag. -/
def find? (o : Options α) (flag : String) : Option (Switch α) :=
  (o.flags.find? (·.1 == flag)).map (·.2)

/-- The text before the first `=` of a word, and the text after it if there is one. -/
def splitEquals (word : List Char) : List Char × Option (List Char) :=
  match word.dropWhile (· ≠ '=') with
  | [] => (word, none)
  | _ :: value => (word.takeWhile (· ≠ '='), some value)

/-- The flags that a word which is no flag itself may mean. A long flag may be cut short. -/
def candidates (o : Options α) (word : List Char) : List (Candidate α) :=
  match word with
  | '-' :: '-' :: _ =>
    let (start, attached) := splitEquals word
    o.flags.filterMap fun (flag, switch) =>
      if start.isPrefixOf flag.toList then some ⟨flag, switch, attached⟩ else none
  | _ =>
    o.flags.filterMap fun (flag, switch) =>
      if flag.toList = word.take 2 then some ⟨flag, switch, some (word.drop 2)⟩
      else if word.isPrefixOf flag.toList then some ⟨flag, switch, none⟩
      else none

/-- Whether all characters are decimal digits, and there is at least one. -/
def isDigits (cs : List Char) : Bool :=
  !cs.isEmpty && cs.all fun c => (Text.digitValue? c).isSome

/-- Whether a word is a negative number, with or without a fraction. A newline may follow it. -/
def isNegativeNumber (word : List Char) : Bool :=
  let word := if word.getLast? = some '\n' then word.dropLast else word
  match word with
  | '-' :: rest =>
    isDigits rest ||
      match rest.dropWhile (· ≠ '.') with
      | _ :: fractional =>
        isDigits fractional && (rest.takeWhile (· ≠ '.')).all fun c => (Text.digitValue? c).isSome
      | [] => false
  | _ => false

/-- Sorts a word that is not the separator. -/
def classify (o : Options α) (text : String) : Except UsageError (Word α) :=
  let word := text.toList
  match word with
  | '-' :: _ :: _ =>
    match o.find? text with
    | some switch => .ok (.option ⟨text, switch, none⟩)
    | none =>
      let (start, attached) := splitEquals word
      match o.find? (String.ofList start), attached with
      | some switch, some value =>
        .ok (.option ⟨String.ofList start, switch, some value⟩)
      | _, _ =>
        match o.candidates word with
        | [c] => .ok (.option c)
        | [] =>
          if isNegativeNumber word || word.contains ' ' then .ok (.operand text)
          else .ok (.unknown text)
        | several => .error (.ambiguous text (several.map (·.flag)))
  | _ => .ok (.operand text)

/-- Sorts all words. -/
def sort (o : Options α) : List String → Except UsageError (List (Word α))
  | [] => .ok []
  | word :: rest =>
    if word = "--" then .ok (.separator :: rest.map .operand)
    else do
      let w ← o.classify word
      let ws ← o.sort rest
      return w :: ws

/-! ## Reading the words -/

/-- What an option word comes to. -/
structure Expansion (α : Type) where
  items : List (Item α)
  /-- An option that still needs its value from the next word. -/
  awaits : Option (Switch α)

/-- An option with nothing attached, after the items `done`. -/
def expandBare (s : Switch α) (done : List (Item α)) : Expansion α :=
  if s.takesValue then ⟨done, some s⟩ else ⟨done ++ [.switch s], none⟩

/-- The value that an attached text is. The separator is no value. -/
def attachedValue (text : List Char) : Option String :=
  if text = ['-', '-'] then none else some (String.ofList text)

/-- An option with a text attached, after the items `done`. The text is the value of the option, or
further short flags after a short flag that takes no value. -/
def expandAttached (o : Options α) (isShort : Bool) (s : Switch α) (text : List Char)
    (done : List (Item α)) : Except UsageError (Expansion α) :=
  let ignored := UsageError.valueIgnored s.flags (String.ofList text)
  if s.takesValue then .ok ⟨done ++ [.value s (attachedValue text)], none⟩
  else
    match text with
    | [] => .error ignored
    | c :: rest =>
      match isShort, o.find? (String.ofList ['-', c]) with
      | true, some next =>
        let done := done ++ [.switch s]
        if rest.isEmpty then .ok (expandBare next done) else expandAttached o true next rest done
      | _, _ => .error ignored

/-- Whether a flag is a single letter after a single dash. -/
def isShortFlag (flag : String) : Bool :=
  match flag.toList with
  | ['-', c] => c ≠ '-'
  | _ => false

/-- What an option word comes to. -/
def expand (o : Options α) (c : Candidate α) : Except UsageError (Expansion α) :=
  match c.attached with
  | none => .ok (expandBare c.switch [])
  | some text => o.expandAttached (isShortFlag c.flag) c.switch text []

/-- How far the positional argument has come. -/
inductive Stage where
  | waiting (arity : Arity)
  /-- Some words of many, the last one first. -/
  | taking (words : List String)
  /-- It has its words; `adjacent` says that the word before was the last of them. -/
  | taken (adjacent : Bool)
  deriving DecidableEq, Repr

/-- The stage before the first word. -/
def Stage.start : Arity → Stage
  | .none => .taken false
  | arity => .waiting arity

/-- The items of a stage when its words end. One separator among many words is dropped. -/
def Stage.close : Stage → List (Item α)
  | .taking words => [.positional (words.reverse.erase "--")]
  | _ => []

/-- The stage after an option. -/
def Stage.afterOption : Stage → Stage
  | .taking _ => .taken false
  | .taken _ => .taken false
  | stage => stage

/-- Reads words in order. `items` and `extras` hold what was read before, the last one first. -/
def read (o : Options α) (stage : Stage) (items : List (Item α)) (extras : List String)
    (words : List (Word α)) : Parsed α :=
  match words, stage with
  | [], stage => ⟨items.reverse ++ stage.close, .ok extras.reverse⟩
  | .operand w :: rest, .waiting .many => read o (.taking [w]) items extras rest
  | .operand w :: rest, .waiting .one =>
    read o (.taken true) (.positional [w] :: items) extras rest
  | .operand w :: rest, .taking ws => read o (.taking (w :: ws)) items extras rest
  | .operand w :: rest, _ => read o (.taken false) items (w :: extras) rest
  | .separator :: rest, .waiting .many => read o (.taking ["--"]) items extras rest
  | .separator :: .operand w :: rest, .waiting .one =>
    read o (.taken false) (.positional [w] :: items) extras rest
  | .separator :: rest, .taking ws => read o (.taking ("--" :: ws)) items extras rest
  | .separator :: rest, .taken true => read o (.taken false) items extras rest
  | .separator :: rest, stage => read o stage items ("--" :: extras) rest
  | .unknown w :: rest, stage =>
    read o stage.afterOption (stage.close ++ items) (w :: extras) rest
  | .option c :: rest, stage =>
    let items := stage.close ++ items
    match o.expand c with
    | .error e => ⟨items.reverse, .error e⟩
    | .ok ⟨new, none⟩ => read o stage.afterOption (new.reverse ++ items) extras rest
    | .ok ⟨new, some s⟩ =>
      match rest with
      | .operand value :: rest =>
        read o stage.afterOption (.value s (some value) :: (new.reverse ++ items)) extras rest
      | _ => ⟨items.reverse, .error (.valueExpected s.flags)⟩

/-- Reads a command line. -/
def parse (o : Options α) (argv : List String) : Parsed α :=
  match o.sort argv with
  | .error e => ⟨[], .error e⟩
  | .ok words => o.read (.start o.positional) [] [] words

end Options

/-- The integer value of an option, if it has got a value. -/
def intValue {α : Type} (s : Switch α) : Option String → Except UsageError (Option Int)
  | none => .ok none
  | some text =>
    match Text.parseInt text with
    | .ok n => .ok (some n)
    | .error _ => .error (.notAnInteger s.flags text)

end TapeMachine.CommandLine
