/-!
# UTF-8

`Utf8.decode` reads bytes as text and never fails: every maximal ill-formed part is read as one
U+FFFD. Such a part is the longest start of a character's bytes that stands there, or one byte if no
character starts with it. `Utf8.readAfter` refuses ill-formed parts, and it can be told that there is
more to come after the bytes.

A lead byte says how many continuation bytes follow, and for some leads the first of them has a
narrower range than the others; this rules out overlong forms, surrogates and values beyond U+10FFFF.
-/

namespace TapeMachine.Utf8

/-- What a lead byte asks for. -/
structure Lead where
  /-- The bits that the lead byte contributes. -/
  bits : Nat
  /-- The number of continuation bytes. -/
  more : Nat
  /-- The range of the first continuation byte. -/
  low : Nat
  high : Nat

/-- The lead bytes of characters beyond ASCII. -/
def lead? (b : UInt8) : Option Lead :=
  let n := b.toNat
  if 0xC2 ≤ n ∧ n ≤ 0xDF then some ⟨n - 0xC0, 1, 0x80, 0xBF⟩
  else if n = 0xE0 then some ⟨0, 2, 0xA0, 0xBF⟩
  else if n = 0xED then some ⟨0xD, 2, 0x80, 0x9F⟩
  else if 0xE1 ≤ n ∧ n ≤ 0xEF then some ⟨n - 0xE0, 2, 0x80, 0xBF⟩
  else if n = 0xF0 then some ⟨0, 3, 0x90, 0xBF⟩
  else if n = 0xF4 then some ⟨4, 3, 0x80, 0x8F⟩
  else if 0xF1 ≤ n ∧ n ≤ 0xF3 then some ⟨n - 0xF0, 3, 0x80, 0xBF⟩
  else none

/-- Reads up to `more` continuation bytes, the first one between `low` and `high`. The answer is the
value if all were there, and what follows the bytes read. -/
def continue? (value more low high : Nat) (bytes : List UInt8) : Option Nat × List UInt8 :=
  match more, bytes with
  | 0, rest => (some value, rest)
  | _ + 1, [] => (none, [])
  | more + 1, b :: rest =>
    if low ≤ b.toNat ∧ b.toNat ≤ high then
      continue? (value * 0x40 + (b.toNat - 0x80)) more 0x80 0xBF rest
    else (none, b :: rest)

theorem length_continue? (value more low high : Nat) (bytes : List UInt8) :
    (continue? value more low high bytes).2.length ≤ bytes.length := by
  fun_induction continue? value more low high bytes with
  | case1 => simp
  | case2 => simp
  | case3 value low high more b rest h ih => simp; omega
  | case4 => simp

/-- The text of the bytes. -/
def decodeAfter (text : String) (bytes : List UInt8) : String :=
  match bytes with
  | [] => text
  | b :: rest =>
    if b.toNat < 0x80 then decodeAfter (text.push (Char.ofNat b.toNat)) rest
    else
      match lead? b with
      | none => decodeAfter (text.push '\uFFFD') rest
      | some lead =>
        match _h : continue? lead.bits lead.more lead.low lead.high rest with
        | (some n, after) => decodeAfter (text.push (Char.ofNat n)) after
        | (none, after) => decodeAfter (text.push '\uFFFD') after
termination_by bytes.length
decreasing_by
  all_goals simp_wf
  all_goals
    have := length_continue? lead.bits lead.more lead.low lead.high rest
    rw [_h] at this
    simp at this
    omega

/-- Bytes read as text. -/
def decode (bytes : List UInt8) : String := decodeAfter "" bytes

/-! ## Reading in blocks -/

/-- What is wrong with an ill-formed part. -/
inductive Flaw where
  | start
  | continuation
  | truncated
  deriving DecidableEq, Repr

/-- The text of a flaw. -/
def Flaw.message : Flaw → String
  | start => "invalid start byte"
  | continuation => "invalid continuation byte"
  | truncated => "unexpected end of data"

/-- An ill-formed part among bytes. -/
structure Malformed where
  position : Nat
  first : UInt8
  length : Nat
  flaw : Flaw
  deriving DecidableEq, Repr

/-- The text of the error that an ill-formed part is. -/
def Malformed.message (m : Malformed) : String :=
  let place :=
    if m.length = 1 then
      "byte 0x" ++ String.ofList (Nat.toDigits 16 m.first.toNat) ++ s!" in position {m.position}"
    else s!"bytes in position {m.position}-{m.position + m.length - 1}"
  "'utf-8' codec can't decode " ++ place ++ ": " ++ m.flaw.message

/-- Whether bytes may be the first ones of a character, as far as a reader of blocks can tell. It takes
the third byte of a surrogate to see that it is one. -/
def mayGoOn (bytes : List UInt8) : Bool :=
  match bytes with
  | [] => false
  | [0xED, b] => 0x80 ≤ b.toNat && b.toNat ≤ 0xBF
  | b :: rest =>
    match lead? b with
    | none => false
    | some lead =>
      match continue? lead.bits lead.more lead.low lead.high rest with
      | (none, []) => true
      | _ => false

/-- The ill-formed part at the start of bytes, `position` bytes after the first one. -/
def malformedAt (position : Nat) (b : UInt8) (rest : List UInt8) : Malformed :=
  match lead? b with
  | none => ⟨position, b, 1, .start⟩
  | some lead =>
    let (_, after) := continue? lead.bits lead.more lead.low lead.high rest
    let flaw := if after.isEmpty then .truncated else .continuation
    ⟨position, b, 1 + (rest.length - after.length), flaw⟩

/-- The text of bytes that come after `position` bytes with the text `text`, and the bytes at their end
that may be the first ones of a character. If there is more to come, those are no error. -/
def readAfter (more : Bool) (position : Nat) (text : String) (bytes : List UInt8) :
    Except Malformed (String × List UInt8) :=
  match bytes with
  | [] => .ok (text, [])
  | b :: rest =>
    if b.toNat < 0x80 then readAfter more (position + 1) (text.push (Char.ofNat b.toNat)) rest
    else if more && mayGoOn (b :: rest) then .ok (text, b :: rest)
    else
      match lead? b with
      | none => .error (malformedAt position b rest)
      | some lead =>
        match _h : continue? lead.bits lead.more lead.low lead.high rest with
        | (some n, after) =>
          readAfter more (position + 1 + lead.more) (text.push (Char.ofNat n)) after
        | (none, _) => .error (malformedAt position b rest)
termination_by bytes.length
decreasing_by
  all_goals simp_wf
  all_goals
    have := length_continue? lead.bits lead.more lead.low lead.high rest
    rw [_h] at this
    simp at this
    omega

/-! ## Writing -/

/-- A text as bytes. -/
def encode (text : String) : List UInt8 := text.toList.flatMap String.utf8EncodeChar

end TapeMachine.Utf8
