/-!
# Numerals

Natural numbers in decimal digits.

* `readNatural` reads a whole text as a number up to a bound, with an optional plus sign, and
  reports the first fault from the left;
* `takeNumber` reads at most so many digits at the front of a text;
* `zeroPadded` and `upperHex` print.
-/

namespace AttrFederation.Text

/-! ## Reading a whole text -/

/-- Why a text is not a number within its bound. -/
inductive NumeralError where
  | empty
  /-- A character is not a digit. -/
  | invalidDigit
  /-- The digits read so far already exceed the bound. -/
  | tooLarge
deriving DecidableEq, Repr

def NumeralError.message : NumeralError → String
  | .empty => "cannot parse integer from empty string"
  | .invalidDigit => "invalid digit found in string"
  | .tooLarge => "number too large to fit in target type"

/-- The value of a decimal digit. -/
def digitValue (c : Char) : Nat :=
  c.toNat - '0'.toNat

/-- The number that digits continue, refused at the first fault from the left. -/
def readDigits (bound value : Nat) : List Char → Except NumeralError Nat
  | [] => .ok value
  | c :: cs =>
    if c.isDigit then
      let next := value * 10 + digitValue c
      if bound < next then .error .tooLarge else readDigits bound next cs
    else .error .invalidDigit

/-- A number up to a bound: one or more digits after an optional plus sign. -/
def readNatural (bound : Nat) (s : String) : Except NumeralError Nat :=
  match s.toList with
  | [] => .error .empty
  | ['+'] => .error .invalidDigit
  | '+' :: digits => readDigits bound 0 digits
  | digits => readDigits bound 0 digits

/-- A number read from a text stays within the bound. -/
theorem readDigits_le {bound value n : Nat} {cs : List Char} (hv : value ≤ bound)
    (h : readDigits bound value cs = .ok n) : n ≤ bound := by
  induction cs generalizing value with
  | nil => simp only [readDigits, Except.ok.injEq] at h; omega
  | cons c cs ih =>
    simp only [readDigits] at h
    split at h
    · split at h
      · exact nomatch h
      · exact ih (by omega) h
    · exact nomatch h

theorem readNatural_le {bound n : Nat} {s : String} (h : readNatural bound s = .ok n) :
    n ≤ bound := by
  unfold readNatural at h
  split at h
  · exact nomatch h
  · exact nomatch h
  · exact readDigits_le (Nat.zero_le _) h
  · exact readDigits_le (Nat.zero_le _) h

/-- A 16-bit number. -/
def readUInt16 (s : String) : Except NumeralError UInt16 :=
  (readNatural (UInt16.size - 1) s).map UInt16.ofNat

/-- A 32-bit number, if the text is one. -/
def readUInt32? (s : String) : Option UInt32 :=
  (readNatural (UInt32.size - 1) s).toOption.map UInt32.ofNat

/-- A 64-bit number, if the text is one. -/
def readUInt64? (s : String) : Option UInt64 :=
  (readNatural (UInt64.size - 1) s).toOption.map UInt64.ofNat

/-! ## Reading at the front of a text -/

/-- The longest run of at most `width` digits, and the rest. -/
def spanDigits : Nat → List Char → List Char × List Char
  | 0, cs => ([], cs)
  | _, [] => ([], [])
  | width + 1, c :: cs =>
    if c.isDigit then (c :: (spanDigits width cs).1, (spanDigits width cs).2) else ([], c :: cs)

/-- The number that digits stand for. -/
def ofDigits (digits : List Char) : Nat :=
  digits.foldl (fun value c => value * 10 + digitValue c) 0

/-- A number of one to `width` digits, and the rest of the text. -/
def takeNumber (width : Nat) (cs : List Char) : Option (Nat × List Char) :=
  match spanDigits width cs with
  | ([], _) => none
  | (digits, rest) => some (ofDigits digits, rest)

/-! ## Printing -/

/-- Decimal digits, filled up with zeros to a width. -/
def zeroPadded (width n : Nat) : String :=
  let digits := Nat.toDigits 10 n
  String.ofList (List.replicate (width - digits.length) '0' ++ digits)

/-- Hexadecimal digits in upper case. -/
def upperHex (n : Nat) : String :=
  String.ofList ((Nat.toDigits 16 n).map Char.toUpper)

end AttrFederation.Text
