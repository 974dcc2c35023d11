/-!
# Blank characters, trimming and splitting

Text settings are read loosely: blanks around a value do not count, and lists are written with
separators.  The blanks are the twenty-five characters with the Unicode property `White_Space`.

* `trim` removes blanks at both ends, and `isBlankText` holds of what trims to nothing;
* `split` cuts a text at every separator and `join` puts the pieces back (`join_split`);
* `cutAtFirst` cuts at the first separator only.

The work is done on lists of characters; the functions on `String` are wrappers.
-/

namespace AttrFederation.Text

/-! ## Blanks -/

/-- The characters with the property `White_Space`. -/
def isBlank (c : Char) : Bool :=
  let n := c.toNat
  (0x9 ≤ n && n ≤ 0xD) || n == 0x20 || n == 0x85 || n == 0xA0 || n == 0x1680
    || (0x2000 ≤ n && n ≤ 0x200A) || n == 0x2028 || n == 0x2029 || n == 0x202F || n == 0x205F
    || n == 0x3000

/-- Characters without the blanks before the first other one. -/
def trimStartChars (cs : List Char) : List Char :=
  cs.dropWhile isBlank

/-- Characters without the blanks after the last other one. -/
def trimEndChars (cs : List Char) : List Char :=
  (cs.reverse.dropWhile isBlank).reverse

/-- Characters without the blanks at both ends. -/
def trimChars (cs : List Char) : List Char :=
  trimEndChars (trimStartChars cs)

/-- A text without the blanks at both ends. -/
def trim (s : String) : String :=
  String.ofList (trimChars s.toList)

/-- A text of blanks only. -/
def isBlankText (s : String) : Bool :=
  s.toList.all isBlank

/-! ## Pieces between separators -/

/-- The pieces between the separators: one more than there are separators. -/
def splitChars (sep : Char) : List Char → List (List Char)
  | [] => [[]]
  | c :: cs =>
    if c = sep then [] :: splitChars sep cs
    else
      match splitChars sep cs with
      | [] => [[c]]
      | piece :: pieces => (c :: piece) :: pieces

/-- Pieces with a separator between neighbours. -/
def joinChars (sep : Char) : List (List Char) → List Char
  | [] => []
  | [piece] => piece
  | piece :: pieces => piece ++ sep :: joinChars sep pieces

theorem splitChars_ne_nil (sep : Char) (cs : List Char) : splitChars sep cs ≠ [] := by
  cases cs with
  | nil => simp [splitChars]
  | cons c cs => simp only [splitChars]; split <;> (try split) <;> simp

/-- Splitting loses nothing. -/
theorem joinChars_splitChars (sep : Char) (cs : List Char) :
    joinChars sep (splitChars sep cs) = cs := by
  induction cs with
  | nil => rfl
  | cons c cs ih =>
    have hne := splitChars_ne_nil sep cs
    simp only [splitChars]
    split
    next h =>
      cases hs : splitChars sep cs with
      | nil => exact absurd hs hne
      | cons piece pieces => simp_all [joinChars]
    next h =>
      cases hs : splitChars sep cs with
      | nil => exact absurd hs hne
      | cons piece pieces => cases pieces <;> simp_all [joinChars]

/-- The pieces of a text between its separators. -/
def split (sep : Char) (s : String) : List String :=
  (splitChars sep s.toList).map String.ofList

/-- Texts with a separator between neighbours. -/
def join (sep : Char) (pieces : List String) : String :=
  String.ofList (joinChars sep (pieces.map String.toList))

/-- Joining the pieces of a text gives the text. -/
theorem join_split (sep : Char) (s : String) : join sep (split sep s) = s := by
  simp [join, split, Function.comp_def, joinChars_splitChars]

/-- The characters before and after the first separator. -/
def cutCharsAtFirst (sep : Char) : List Char → Option (List Char × List Char)
  | [] => none
  | c :: cs =>
    if c = sep then some ([], cs)
    else (cutCharsAtFirst sep cs).map fun (before, after) => (c :: before, after)

/-- The text before and after the first separator, if there is one. -/
def cutAtFirst (sep : Char) (s : String) : Option (String × String) :=
  (cutCharsAtFirst sep s.toList).map fun (before, after) =>
    (String.ofList before, String.ofList after)

/-- The trimmed pieces of a list that are not blank. -/
def splitTrimmed (sep : Char) (s : String) : List String :=
  ((split sep s).map trim).filter fun piece => !piece.isEmpty

end AttrFederation.Text
