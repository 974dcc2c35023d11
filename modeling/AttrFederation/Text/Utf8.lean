/-!
# Reading bytes as UTF-8 text

`lossy` reads any bytes as text.  A well-formed sequence gives its character; the longest start of
a well-formed sequence that cannot be completed, or a byte that starts none, gives one replacement
character.  The reader is a machine that takes one byte at a time; its state is the sequence begun
but not completed.
-/

namespace AttrFederation.Text

/-- The UTF-8 bytes of a text. -/
def utf8 (s : String) : List UInt8 :=
  s.toUTF8.toList

/-- A sequence begun: how many bytes it lacks after the next one, the bytes admitted next, and the
bits read so far. -/
structure Utf8Start where
  /-- Bytes lacking after the next one. -/
  lacking : Nat
  /-- The least byte that may come next. -/
  low : Nat
  /-- The greatest byte that may come next. -/
  high : Nat
  /-- The bits read so far. -/
  code : Nat
deriving DecidableEq, Repr

/-- The character that stands for bytes that are not text. -/
def replacement : Char := '\ufffd'

/-- The sequence begun by a byte that is not a character by itself. -/
def Utf8Start.ofLead? (b : Nat) : Option Utf8Start :=
  if 0xC2 ≤ b ∧ b ≤ 0xDF then some ⟨0, 0x80, 0xBF, b - 0xC0⟩
  else if b = 0xE0 then some ⟨1, 0xA0, 0xBF, 0⟩
  else if b = 0xED then some ⟨1, 0x80, 0x9F, 0xD⟩
  else if 0xE1 ≤ b ∧ b ≤ 0xEF then some ⟨1, 0x80, 0xBF, b - 0xE0⟩
  else if b = 0xF0 then some ⟨2, 0x90, 0xBF, 0⟩
  else if 0xF1 ≤ b ∧ b ≤ 0xF3 then some ⟨2, 0x80, 0xBF, b - 0xF0⟩
  else if b = 0xF4 then some ⟨2, 0x80, 0x8F, 4⟩
  else none

/-- A byte read between characters: the characters it gives and the sequence it begins. -/
def utf8Lead (b : Nat) : List Char × Option Utf8Start :=
  if b < 0x80 then ([Char.ofNat b], none)
  else
    match Utf8Start.ofLead? b with
    | some start => ([], some start)
    | none => ([replacement], none)

/-- A byte read after the start of a sequence. -/
def Utf8Start.next (start : Utf8Start) (b : Nat) : List Char × Option Utf8Start :=
  if start.low ≤ b ∧ b ≤ start.high then
    let code := start.code * 64 + b % 64
    match start.lacking with
    | 0 => ([Char.ofNat code], none)
    | k + 1 => ([], some ⟨k, 0x80, 0xBF, code⟩)
  else (replacement :: (utf8Lead b).1, (utf8Lead b).2)

/-- One byte of the reading machine. -/
def utf8Step : Option Utf8Start → UInt8 → List Char × Option Utf8Start
  | none, b => utf8Lead b.toNat
  | some start, b => start.next b.toNat

/-- The characters of the bytes that follow a sequence begun. -/
def lossyFrom : Option Utf8Start → List UInt8 → List Char
  | none, [] => []
  | some _, [] => [replacement]
  | state, b :: bytes => (utf8Step state b).1 ++ lossyFrom (utf8Step state b).2 bytes

/-- Bytes read as text, with a replacement character for what is not UTF-8. -/
def lossy (bytes : List UInt8) : String :=
  String.ofList (lossyFrom none bytes)

end AttrFederation.Text
