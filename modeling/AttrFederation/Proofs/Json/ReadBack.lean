import Mathlib.Data.List.DropRight
import AttrFederation.Json.Text
import AttrFederation.Proofs.Assoc
import AttrFederation.Proofs.Numeral

/-!
# JSON values read back from their text

A value without numbers kept as text, none of whose objects repeats a name, is `Plain`.

Main result: `parse?_render` — a plain value is read back from its text.

The reader is followed through the text of a value with any rest behind it.  Only a number could go
on in the rest, so that must not begin with a character of one (`NoNumberAhead`).  Twice the length
of the text is enough fuel: each step into a value, an item or a member has used up a character.
-/

namespace AttrFederation.Json

/-! ## Strings -/

/-- A control character is written in four digits. -/
theorem exists_of_control {n : Nat} (h : n < 32) : ∃ x y z w,
    (Hex.padded 4 n).toList = [x, y, z, w] ∧ Hex.number? [x, y, z, w] = some n := by
  have hall : ∀ n < 32, (Hex.padded 4 n).toList.length = 4 ∧
      Hex.number? (Hex.padded 4 n).toList = some n := by decide
  obtain ⟨hlength, hnumber⟩ := hall n h
  obtain ⟨x, y, z, w, hdigits⟩ := List.length_eq_four.mp hlength
  exact ⟨x, y, z, w, hdigits, hdigits ▸ hnumber⟩

/-- An escaped character is read as its code point. -/
theorem readCodes_escape (read : List Nat) (c : Char) (rest : List Char) :
    readCodes read ((escape c).toList ++ rest) = readCodes (c.toNat :: read) rest := by
  by_cases hquote : c = '"'
  · subst hquote
    rfl
  by_cases hslash : c = '\\'
  · subst hslash
    rfl
  by_cases hcontrol : c.toNat < 32
  · obtain ⟨x, y, z, w, hpadded, hnumber⟩ := exists_of_control hcontrol
    have hescape : (escape c).toList = '\\' :: 'u' :: [x, y, z, w] := by
      simp [escape, hquote, hslash, hcontrol, hpadded]
    rw [hescape]
    change readCodes read ('\\' :: 'u' :: x :: y :: z :: w :: rest) = _
    rw [readCodes, hnumber, Option.bind_eq_bind, Option.bind_some]
  · have hescape : (escape c).toList = [c] := by
      simp [escape, hquote, hslash, hcontrol]
    rw [hescape, List.singleton_append]
    simp [readCodes, hslash]

theorem readCodes_flatMap (read : List Nat) (cs rest : List Char) :
    readCodes read (cs.flatMap (fun c => (escape c).toList) ++ '"' :: rest) =
      some (read.reverse ++ cs.map Char.toNat, rest) := by
  induction cs generalizing read with
  | nil => simp [readCodes]
  | cons c cs ih =>
      rw [List.flatMap_cons, List.append_assoc, readCodes_escape, ih]
      simp

/-- No character is half of a pair of surrogates. -/
theorem joinSurrogates_map_toNat (cs : List Char) :
    joinSurrogates (cs.map Char.toNat) = some cs := by
  induction cs with
  | nil => rfl
  | cons c cs ih =>
      have hvalid : c.toNat < 0xD800 ∨ 0xDFFF < c.toNat ∧ c.toNat < 0x110000 := c.valid
      have hhigh : isHighSurrogate c.toNat = false := by
        simp [isHighSurrogate]
        omega
      have hlow : isLowSurrogate c.toNat = false := by
        simp [isLowSurrogate]
        omega
      rw [List.map_cons]
      unfold joinSurrogates
      simp [hhigh, hlow, ih]

theorem toList_quote (s : String) :
    (quote s).toList = '"' :: (s.toList.flatMap (fun c => (escape c).toList) ++ ['"']) := by
  simp [quote, List.flatMap_map]

/-- A quoted string is read back. -/
theorem readString_quote (s : String) (rest : List Char) :
    ∃ body, (quote s).toList ++ rest = '"' :: body ∧ readString body = some (s, rest) := by
  refine ⟨s.toList.flatMap (fun c => (escape c).toList) ++ '"' :: rest, ?_, ?_⟩
  · simp [toList_quote]
  · rw [readString, readCodes_flatMap]
    simp [joinSurrogates_map_toNat]

/-! ## Blanks -/

/-- The character is a blank between the parts of a value. -/
def isSpace (c : Char) : Bool :=
  c == ' ' || c == '\n' || c == '\r' || c == '\t'

theorem skipBlanks_cons {c : Char} {cs : List Char} (h : isSpace c = false) :
    skipBlanks (c :: cs) = c :: cs :=
  List.dropWhile_cons_of_neg (by simpa [isSpace] using h)

/-! ## Numbers -/

/-- The text does not go on with a character of a number. -/
def NoNumberAhead (cs : List Char) : Prop :=
  ∀ c ∈ cs.head?, isNumberChar c = false

theorem noNumberAhead_cons {c : Char} {cs : List Char} (h : isNumberChar c = false) :
    NoNumberAhead (c :: cs) := by
  rintro d ⟨⟩
  exact h

theorem isSpace_of_isDigit {c : Char} (h : c.isDigit = true) : isSpace c = false := by
  rw [← Bool.not_eq_true]
  intro hspace
  simp only [isSpace, Bool.or_eq_true, beq_iff_eq] at hspace
  obtain ((rfl | rfl) | rfl) | rfl := hspace <;> exact nomatch h

theorem isNumberChar_of_isDigit {c : Char} (h : c.isDigit = true) : isNumberChar c = true := by
  simp [isNumberChar, h]

/-- Digits are taken whole as a number. -/
theorem span_digits {digits rest : List Char} (hdigits : ∀ c ∈ digits, c.isDigit = true)
    (hrest : NoNumberAhead rest) :
    (digits ++ rest).takeWhile isNumberChar = digits ∧
      (digits ++ rest).dropWhile isNumberChar = rest := by
  have hchars : ∀ c ∈ digits, isNumberChar c = true :=
    fun c hc => isNumberChar_of_isDigit (hdigits c hc)
  rw [List.takeWhile_append_of_pos hchars, List.dropWhile_append_of_pos hchars]
  cases rest with
  | nil => simp
  | cons c rest =>
      have hc : isNumberChar c = false := hrest c rfl
      simp [hc]

theorem readValue_digits {fuel : Nat} {digits rest : List Char} (hne : digits ≠ [])
    (hdigits : ∀ c ∈ digits, c.isDigit = true) (hrest : NoNumberAhead rest) :
    readValue (fuel + 1) (digits ++ rest) = some (natural (Text.ofDigits digits), rest) := by
  obtain ⟨htake, hdrop⟩ := span_digits hdigits hrest
  cases digits with
  | nil => contradiction
  | cons d digits =>
      have hd : d.isDigit = true := hdigits d List.mem_cons_self
      have hother {c : Char} {cs cs' : List Char} (hc : c.isDigit = false) :
          d :: cs ≠ c :: cs' := by
        intro heq
        rw [List.head_eq_of_cons_eq heq, hc] at hd
        contradiction
      rw [readValue, List.cons_append, skipBlanks_cons (isSpace_of_isDigit hd)]
      split
      iterate 6
        · next heq => exact absurd heq (hother rfl)
      · rw [List.cons_append] at htake hdrop
        simp [htake, hdrop, ofNumberChars, List.all_eq_true.mpr hdigits]

/-! ## The text of a value -/

/-- The characters of a value's text. -/
def text (j : Json) : List Char :=
  (render j).toList

/-- The characters of a member's text. -/
def memberText (member : String × Json) : List Char :=
  (quote member.1).toList ++ ':' :: text member.2

/-- Texts with a comma between neighbours. -/
def commaJoined (texts : List (List Char)) : List Char :=
  [','].intercalate texts

theorem commaJoined_singleton (t : List Char) : commaJoined [t] = t :=
  List.intercalate_singleton

theorem commaJoined_cons_cons (t u : List Char) (texts : List (List Char)) :
    commaJoined (t :: u :: texts) = t ++ ',' :: commaJoined (u :: texts) := by
  rw [commaJoined, List.intercalate_cons_cons, List.append_assoc]
  rfl

theorem toList_renderItems (items : List Json) :
    (renderItems items).map String.toList = items.map text := by
  induction items with
  | nil => rfl
  | cons item items ih => rw [renderItems, List.map_cons, ih, List.map_cons, text]

theorem toList_renderMembers (members : List (String × Json)) :
    (renderMembers members).map String.toList = members.map memberText := by
  induction members with
  | nil => rfl
  | cons member members ih =>
      obtain ⟨name, value⟩ := member
      rw [renderMembers, List.map_cons, ih, List.map_cons, memberText]
      simp [text]

theorem text_array (items : List Json) :
    text (array items) = '[' :: (commaJoined (items.map text) ++ [']']) := by
  simp [text, render, String.toList_intercalate, ← toList_renderItems, commaJoined]

theorem text_object (members : List (String × Json)) :
    text (object members) = '\x7b' :: (commaJoined (members.map memberText) ++ ['\x7d']) := by
  simp [text, render, String.toList_intercalate, ← toList_renderMembers, commaJoined]

/-! ## Values -/

/-- With fuel for its text, the value is read back from it, whatever follows. -/
def ReadBack (j : Json) : Prop :=
  ∀ fuel rest, 2 * (text j).length ≤ fuel → NoNumberAhead rest →
    readValue fuel (text j ++ rest) = some (j, rest)

theorem skipBlanks_skipBlanks (cs : List Char) : skipBlanks (skipBlanks cs) = skipBlanks cs :=
  List.dropWhile_idempotent ..

theorem readValue_skipBlanks (fuel : Nat) (cs : List Char) :
    readValue fuel (skipBlanks cs) = readValue fuel cs := by
  cases fuel with
  | zero => rfl
  | succ fuel => rw [readValue, readValue, skipBlanks_skipBlanks]

theorem readItems_skipBlanks (fuel : Nat) (cs : List Char) :
    readItems fuel (skipBlanks cs) = readItems fuel cs := by
  cases fuel with
  | zero => rfl
  | succ fuel => rw [readItems, readItems, readValue_skipBlanks]

theorem readMembers_skipBlanks (fuel : Nat) (cs : List Char) :
    readMembers fuel (skipBlanks cs) = readMembers fuel cs := by
  cases fuel with
  | zero => rfl
  | succ fuel => rw [readMembers, readMembers, skipBlanks_skipBlanks]

/-- Items are read back if each one is. -/
theorem readItems_commaJoined {items : List Json} (h : ∀ item ∈ items, ReadBack item)
    (hne : items ≠ []) {fuel : Nat} (hfuel : 2 * (commaJoined (items.map text)).length + 1 ≤ fuel)
    (rest : List Char) :
    readItems fuel (commaJoined (items.map text) ++ ']' :: rest) = some (items, rest) := by
  induction items generalizing fuel with
  | nil => contradiction
  | cons item items ih =>
      obtain ⟨fuel, rfl⟩ : ∃ n, fuel = n + 1 := ⟨fuel - 1, by omega⟩
      rw [List.forall_mem_cons] at h
      cases items with
      | nil =>
          simp only [List.map_cons, List.map_nil, commaJoined_singleton] at hfuel ⊢
          rw [readItems, h.1 fuel _ (by omega) (noNumberAhead_cons rfl)]
          rfl
      | cons next items =>
          simp only [List.map_cons, commaJoined_cons_cons, List.length_append, List.length_cons,
            List.append_assoc, List.cons_append] at hfuel ih ⊢
          have hitems := @ih h.2 (List.cons_ne_nil _ _) fuel (by omega)
          rw [readItems, h.1 fuel _ (by omega) (noNumberAhead_cons rfl)]
          simp [skipBlanks_cons (show isSpace ',' = false by rfl), hitems]

/-- A name and a value are read behind each other. -/
theorem exists_of_memberText {member : String × Json} (h : ReadBack member.2) {fuel : Nat}
    (hfuel : 2 * (memberText member).length ≤ fuel) (c : Char) (hc : isNumberChar c = false)
    (rest : List Char) :
    ∃ body after, memberText member ++ c :: rest = '"' :: body ∧
      readString body = some (member.1, ':' :: after) ∧
      readValue fuel after = some (member.2, c :: rest) := by
  obtain ⟨name, value⟩ := member
  obtain ⟨body, hbody, hread⟩ := readString_quote name (':' :: (text value ++ c :: rest))
  simp only [memberText, List.length_append, List.length_cons] at hfuel
  refine ⟨body, text value ++ c :: rest, ?_, hread, ?_⟩
  · rw [← hbody, memberText, List.append_assoc, List.cons_append]
  · exact h fuel _ (by dsimp only; omega) (noNumberAhead_cons hc)

theorem readMembers_last {member : String × Json} (h : ReadBack member.2) {fuel : Nat}
    (hfuel : 2 * (memberText member).length ≤ fuel) (rest : List Char) :
    readMembers (fuel + 1) (memberText member ++ '\x7d' :: rest) = some ([member], rest) := by
  obtain ⟨body, after, htext, hname, hvalue⟩ := exists_of_memberText h hfuel '\x7d' rfl rest
  rw [htext, readMembers, skipBlanks_cons rfl]
  change (readString body).bind _ = _
  rw [hname]
  change (readValue fuel after).bind _ = _
  rw [hvalue]
  rfl

theorem readMembers_next {member : String × Json} (h : ReadBack member.2) {fuel : Nat}
    (hfuel : 2 * (memberText member).length ≤ fuel) (rest : List Char) :
    readMembers (fuel + 1) (memberText member ++ ',' :: rest) =
      (readMembers fuel rest).map fun read => (member :: read.1, read.2) := by
  obtain ⟨body, after, htext, hname, hvalue⟩ := exists_of_memberText h hfuel ',' rfl rest
  rw [htext, readMembers, skipBlanks_cons rfl]
  change (readString body).bind _ = _
  rw [hname]
  change (readValue fuel after).bind _ = _
  rw [hvalue]
  rfl

/-- Members are read back if each one's value is. -/
theorem readMembers_commaJoined {members : List (String × Json)}
    (h : ∀ member ∈ members, ReadBack member.2) (hne : members ≠ []) {fuel : Nat}
    (hfuel : 2 * (commaJoined (members.map memberText)).length + 1 ≤ fuel) (rest : List Char) :
    readMembers fuel (commaJoined (members.map memberText) ++ '\x7d' :: rest) =
      some (members, rest) := by
  induction members generalizing fuel with
  | nil => contradiction
  | cons member members ih =>
      obtain ⟨fuel, rfl⟩ : ∃ n, fuel = n + 1 := ⟨fuel - 1, by omega⟩
      rw [List.forall_mem_cons] at h
      cases members with
      | nil =>
          simp only [List.map_cons, List.map_nil, commaJoined_singleton] at hfuel ⊢
          exact readMembers_last h.1 (by omega) rest
      | cons next members =>
          simp only [List.map_cons, commaJoined_cons_cons, List.length_append, List.length_cons,
            List.append_assoc, List.cons_append] at hfuel ih ⊢
          have hmembers := @ih h.2 (List.cons_ne_nil _ _) fuel (by omega)
          rw [readMembers_next h.1 (by omega), hmembers, Option.map_some]

/-- No number is kept as text, and no object repeats a name. -/
inductive Plain : Json → Prop
  | null : Plain null
  | bool (value : Bool) : Plain (bool value)
  | natural (value : Nat) : Plain (natural value)
  | string (value : String) : Plain (string value)
  | array {items : List Json} (h : ∀ item ∈ items, Plain item) : Plain (array items)
  | object {members : List (String × Json)} (hnames : (members.map Prod.fst).Nodup)
      (h : ∀ member ∈ members, Plain member.2) : Plain (object members)

/-- A value is read back if a step with fuel reads it back. -/
theorem readBack_of_step {j : Json} (hne : text j ≠ [])
    (h : ∀ fuel rest, 2 * (text j).length ≤ fuel + 1 → NoNumberAhead rest →
      readValue (fuel + 1) (text j ++ rest) = some (j, rest)) : ReadBack j := by
  intro fuel rest hfuel hrest
  have hpos := List.length_pos_iff.mpr hne
  obtain ⟨fuel, rfl⟩ : ∃ n, fuel = n + 1 := ⟨fuel - 1, by omega⟩
  exact h fuel rest hfuel hrest

theorem readBack_natural (n : Nat) : ReadBack (natural n) := by
  have htext : text (natural n) = Nat.toDigits 10 n := by
    simp [text, render]
  refine readBack_of_step (htext ▸ Nat.toDigits_ne_nil) fun fuel rest _ hrest => ?_
  have hdigits : ∀ c ∈ Nat.toDigits 10 n, c.isDigit = true :=
    fun c => Nat.isDigit_of_mem_toDigits (by decide) (by decide)
  rw [htext, readValue_digits Nat.toDigits_ne_nil hdigits hrest, Text.ofDigits_eq_ofDigitChars,
    Nat.ofDigitChars_ten_toDigits]

theorem readBack_string (s : String) : ReadBack (string s) := by
  have htext : text (string s) = (quote s).toList := rfl
  refine readBack_of_step (by simp [htext, toList_quote]) fun fuel rest _ _ => ?_
  obtain ⟨body, hbody, hread⟩ := readString_quote s rest
  rw [htext, hbody, readValue, skipBlanks_cons rfl]
  simp [hread]

/-- No item begins with the bracket that closes the items. -/
theorem readItems_bracket (fuel : Nat) (rest : List Char) :
    readItems fuel (']' :: rest) = none := by
  have hvalue (fuel : Nat) : readValue fuel (']' :: rest) = none := by
    cases fuel <;> rfl
  cases fuel with
  | zero => rfl
  | succ fuel => rw [readItems, hvalue, Option.bind_eq_bind, Option.bind_none]

/-- No member begins with the brace that closes the members. -/
theorem readMembers_brace (fuel : Nat) (rest : List Char) :
    readMembers fuel ('\x7d' :: rest) = none := by
  cases fuel <;> rfl

/-- What is read as items behind a bracket is not empty. -/
theorem readValue_bracket {fuel : Nat} {items : List Json} {cs rest : List Char}
    (h : readItems fuel cs = some (items, rest)) :
    readValue (fuel + 1) ('[' :: cs) = some (array items, rest) := by
  rw [← readItems_skipBlanks] at h
  rw [readValue, skipBlanks_cons rfl]
  simp only
  split
  · next hclosed =>
      rw [hclosed, readItems_bracket] at h
      contradiction
  · rw [h, Option.map_some]

/-- What is read as members behind a brace is not empty. -/
theorem readValue_brace {fuel : Nat} {members : List (String × Json)} {cs rest : List Char}
    (h : readMembers fuel cs = some (members, rest)) :
    readValue (fuel + 1) ('\x7b' :: cs) = some (object (Assoc.ofList members).entries, rest) := by
  rw [← readMembers_skipBlanks] at h
  rw [readValue, skipBlanks_cons rfl]
  simp only
  split
  · next hclosed =>
      rw [hclosed, readMembers_brace] at h
      contradiction
  · rw [h, Option.map_some]

theorem readBack_array {items : List Json} (h : ∀ item ∈ items, ReadBack item) :
    ReadBack (array items) := by
  refine readBack_of_step (by simp [text_array]) fun fuel rest hfuel _ => ?_
  simp only [text_array, List.length_cons, List.length_append, List.length_nil] at hfuel
  rw [text_array, List.cons_append, List.append_assoc, List.singleton_append]
  by_cases hne : items = []
  · rw [hne]
    rfl
  · exact readValue_bracket (readItems_commaJoined h hne (by omega) rest)

theorem readBack_object {members : List (String × Json)} (hnames : (members.map Prod.fst).Nodup)
    (h : ∀ member ∈ members, ReadBack member.2) : ReadBack (object members) := by
  refine readBack_of_step (by simp [text_object]) fun fuel rest hfuel _ => ?_
  simp only [text_object, List.length_cons, List.length_append, List.length_nil] at hfuel
  rw [text_object, List.cons_append, List.append_assoc, List.singleton_append]
  by_cases hne : members = []
  · rw [hne]
    rfl
  · rw [readValue_brace (readMembers_commaJoined h hne (by omega) rest),
      Assoc.entries_ofList hnames]

theorem Plain.readBack {j : Json} (h : Plain j) : ReadBack j := by
  induction h with
  | null => exact readBack_of_step nofun fun _ _ _ _ => rfl
  | bool value => cases value <;> exact readBack_of_step nofun fun _ _ _ _ => rfl
  | natural value => exact readBack_natural value
  | string value => exact readBack_string value
  | array _ ih => exact readBack_array ih
  | object hnames _ ih => exact readBack_object hnames ih

/-- **A plain value is read back** from its text. -/
theorem parse?_render {j : Json} (h : Plain j) : parse? (render j) = some j := by
  have hread : readValue (2 * (render j).toList.length + 2) (render j).toList = some (j, []) := by
    have htext := h.readBack (2 * (text j).length + 2) [] (by omega) nofun
    rwa [List.append_nil] at htext
  rw [parse?]
  dsimp only
  rw [hread]
  rfl

end AttrFederation.Json
