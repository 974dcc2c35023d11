import AttrFederation.Text.CaseTable

/-!
# Lower case

`lowercase` is the full Unicode lower-case mapping of a text.  It works character by character with
two exceptions: a capital sigma becomes `ς` at the end of a word and `σ` elsewhere, and the dotted
capital `İ` becomes an `i` and a combining dot.

`asciiEq` compares texts up to the case of the letters A to Z and nothing else.
-/

namespace AttrFederation.Text

/-! ## Full lower case -/

/-- The lower-case code point of a character beyond ASCII, if it has one of its own. -/
def lowerCode? (n : Nat) : Option Nat :=
  lowerRanges.findSome? fun (first, last, step, lower) =>
    if first ≤ n ∧ n ≤ last ∧ (n - first) % step = 0 then some (lower + (n - first)) else none

/-- The lower-case form of a character taken alone. -/
def lowerChar (c : Char) : Char :=
  if c.toNat < 0x80 then c.toLower
  else
    match lowerCode? c.toNat with
    | some n => Char.ofNat n
    | none => c

/-- Membership of a code point in a list of inclusive ranges. -/
def inRanges (ranges : List (Nat × Nat)) (c : Char) : Bool :=
  ranges.any fun (first, last) => first ≤ c.toNat && c.toNat ≤ last

/-- The first character that is not case-ignorable has letter case. -/
def startsCased (cs : List Char) : Bool :=
  match cs.dropWhile (inRanges caseIgnorableRanges) with
  | c :: _ => inRanges casedRanges c
  | [] => false

/-- The lower-case form of a character between the characters before it, nearest first, and those
after it. -/
def lowerBetween (before : List Char) (c : Char) (after : List Char) : List Char :=
  if c = 'Σ' then [if startsCased before && !startsCased after then 'ς' else 'σ']
  else if c = 'İ' then ['i', '\u0307']
  else [lowerChar c]

/-- Lower case of the rest of a text, given the characters before it, nearest first. -/
def lowerAfter (before : List Char) : List Char → List Char
  | [] => []
  | c :: rest => lowerBetween before c rest ++ lowerAfter (c :: before) rest

/-- The lower-case form of a text. -/
def lowercase (s : String) : String :=
  String.ofList (lowerAfter [] s.toList)

/-! ## ASCII letters only -/

/-- A text with the letters A to Z in lower case. -/
def asciiLower (s : String) : String :=
  String.ofList (s.toList.map Char.toLower)

/-- Equality up to the case of the letters A to Z. -/
def asciiEq (s t : String) : Bool :=
  asciiLower s == asciiLower t

@[simp] theorem asciiEq_refl (s : String) : asciiEq s s = true := by
  simp [asciiEq]

theorem asciiEq_iff {s t : String} : asciiEq s t = true ↔ asciiLower s = asciiLower t := by
  simp [asciiEq]

theorem asciiEq_comm (s t : String) : asciiEq s t = asciiEq t s := by
  simp only [asciiEq, Bool.beq_comm]

end AttrFederation.Text
