/-!
# Texts with surrogates

A loose text is a list of code points, and a code point is a character or a surrogate: half of a UTF-16
pair, which stands for no character by itself. A loose text without surrogates is a text; in any other
the first run of surrogates says what is wrong with it.
-/

namespace TapeMachine.Text

/-- A code point. -/
inductive Point where
  | char (c : Char)
  /-- The surrogate with this number, counted from the first one, U+D800. -/
  | surrogate (number : Fin 0x800)
  deriving DecidableEq, Repr

namespace Point

/-- The value of a code point. -/
def toNat : Point → Nat
  | char c => c.toNat
  | surrogate number => 0xD800 + number

/-- The code point of a value. -/
def ofNat? (n : Nat) : Option Point :=
  if h : 0xD800 ≤ n ∧ n < 0xE000 then some (surrogate ⟨n - 0xD800, by omega⟩)
  else if n < 0x110000 then some (char (Char.ofNat n))
  else none

/-- Whether a code point is a surrogate. -/
def isSurrogate : Point → Bool
  | char _ => false
  | surrogate _ => true

/-- The character that a code point is, if it is one. -/
def char? : Point → Option Char
  | char c => some c
  | surrogate _ => none

/-- The character of two UTF-16 units, if they are a pair. -/
def ofPair? (high low : Nat) : Option Point :=
  if 0xD800 ≤ high ∧ high < 0xDC00 ∧ 0xDC00 ≤ low ∧ low < 0xE000 then
    some (char (Char.ofNat (0x10000 + (high - 0xD800) * 0x400 + (low - 0xDC00))))
  else none

end Point

/-- A text that may hold surrogates. -/
structure Loose where
  points : List Point
  deriving DecidableEq, Repr, Inhabited

/-- The first run of surrogates in a text. -/
structure SurrogateRun where
  position : Nat
  first : Fin 0x800
  length : Nat
  deriving DecidableEq, Repr

/-- The text of the error that a run of surrogates is. -/
def SurrogateRun.message (r : SurrogateRun) : String :=
  let place :=
    if r.length = 1 then
      let digits := String.ofList (Nat.toDigits 16 (Point.surrogate r.first).toNat)
      s!"character '\\u{digits}' in position {r.position}"
    else s!"characters in position {r.position}-{r.position + r.length - 1}"
  "'utf-8' codec can't encode " ++ place ++ ": surrogates not allowed"

namespace Loose

/-- A text without surrogates. -/
def ofString (s : String) : Loose := ⟨s.toList.map .char⟩

instance : Coe String Loose := ⟨ofString⟩

/-- Reads code points as characters, after `position` characters that make up `text`. -/
def readFrom (position : Nat) (text : String) : List Point → Except SurrogateRun String
  | [] => .ok text
  | .char c :: rest => readFrom (position + 1) (text.push c) rest
  | .surrogate first :: rest =>
    .error ⟨position, first, 1 + (rest.takeWhile Point.isSurrogate).length⟩

/-- The text that a loose text is, unless it holds surrogates. -/
def read (t : Loose) : Except SurrogateRun String := readFrom 0 "" t.points

theorem readFrom_map_char (cs : List Char) :
    ∀ (position : Nat) (text : String),
      readFrom position text (cs.map .char) = .ok (text ++ String.ofList cs) := by
  induction cs with
  | nil => intro position text; simp [readFrom]
  | cons c cs ih =>
    intro position text
    rw [List.map_cons, readFrom, ih, String.push_eq_append, String.append_assoc]
    simp

@[simp] theorem read_ofString (s : String) : (ofString s).read = .ok s := by
  simp [ofString, read, readFrom_map_char]

end Loose

end TapeMachine.Text
