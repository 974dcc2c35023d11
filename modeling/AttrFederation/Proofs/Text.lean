import AttrFederation.Text.Blank
import AttrFederation.Text.Hex
import AttrFederation.Text.Lowercase
import AttrFederation.Text.Numeral
import Mathlib.Data.List.DropRight
import Mathlib.Data.List.Induction

/-!
# Texts read back

What is written can be read again, and what is compared in two ways compares alike.

* `splitChars_joinChars` — pieces that are joined can be taken apart, if no piece has a separator in
  it.
* `cutCharsAtFirst_eq_some_iff` — a text is cut at the first separator in it.
* `trim_trim`, `trimEndChars_eq_iff` — trimming takes blanks away from the ends, and all of them.
* `Hex.number?_upperHex` — a number is read back from its hexadecimal digits.
* `asciiEq_iff_lowercase_eq` — texts of ASCII characters have one lower-case form exactly if they
  are the same up to ASCII case.
-/

namespace AttrFederation

/-! ## Pieces between separators -/

namespace Text

theorem joinChars_cons (sep : Char) (piece : List Char) {pieces : List (List Char)}
    (h : pieces ≠ []) : joinChars sep (piece :: pieces) = piece ++ sep :: joinChars sep pieces := by
  cases pieces with
  | nil => contradiction
  | cons next rest => rfl

/-- Joined pieces are the first one, and each other one after a separator. -/
theorem joinChars_cons_eq_append (sep : Char) (piece : List Char) (pieces : List (List Char)) :
    joinChars sep (piece :: pieces) = piece ++ pieces.flatMap fun next => sep :: next := by
  induction pieces generalizing piece with
  | nil => rw [List.flatMap_nil, List.append_nil, joinChars]
  | cons next pieces ih =>
      rw [joinChars_cons sep piece (List.cons_ne_nil next pieces), ih, List.flatMap_cons,
        List.cons_append]

/-- Texts with a separator between them are split apart there, each by itself. -/
theorem splitChars_append (sep : Char) (cs ds : List Char) :
    splitChars sep (cs ++ sep :: ds) = splitChars sep cs ++ splitChars sep ds := by
  induction cs with
  | nil => simp [splitChars]
  | cons c cs ih =>
      simp only [List.cons_append, splitChars, ih]
      split
      · rfl
      · -- The character joins the first piece, which is one of the first text.
        cases hcs : splitChars sep cs with
        | nil => exact absurd hcs (splitChars_ne_nil sep cs)
        | cons piece pieces => rfl

/-- A text without separators is one piece. -/
theorem splitChars_of_notMem {sep : Char} {piece : List Char} (h : sep ∉ piece) :
    splitChars sep piece = [piece] := by
  induction piece with
  | nil => rfl
  | cons c piece ih =>
      rw [List.mem_cons, not_or] at h
      rw [splitChars, if_neg (Ne.symm h.1), ih h.2]

/-- Splitting stops for the first time at the first separator. -/
theorem splitChars_append_cons {sep : Char} {piece : List Char} (h : sep ∉ piece)
    (cs : List Char) : splitChars sep (piece ++ sep :: cs) = piece :: splitChars sep cs := by
  rw [splitChars_append, splitChars_of_notMem h, List.singleton_append]

/-- **Splitting undoes joining**, if no piece has a separator in it. -/
theorem splitChars_joinChars {sep : Char} {pieces : List (List Char)} (hne : pieces ≠ [])
    (hfree : ∀ piece ∈ pieces, sep ∉ piece) :
    splitChars sep (joinChars sep pieces) = pieces := by
  induction pieces with
  | nil => contradiction
  | cons piece pieces ih =>
      have hpiece := hfree piece List.mem_cons_self
      by_cases hpieces : pieces = []
      · rw [hpieces]
        exact splitChars_of_notMem hpiece
      · rw [joinChars_cons sep piece hpieces, splitChars_append_cons hpiece]
        rw [ih hpieces fun other hmem => hfree other (List.mem_cons_of_mem piece hmem)]

/-- There is one piece more than there are separators. -/
theorem length_splitChars (sep : Char) (cs : List Char) :
    (splitChars sep cs).length = cs.count sep + 1 := by
  induction cs with
  | nil => rfl
  | cons c cs ih =>
      rw [splitChars, List.count_cons]
      split
      · next hsep => simp [hsep, ih]
      · next hsep =>
          cases hcs : splitChars sep cs with
          | nil => exact absurd hcs (splitChars_ne_nil sep cs)
          | cons piece pieces => simp [hsep, ← ih, hcs]

/-- A text is two pieces if it has one separator, and that between them. -/
theorem split_eq_pair_iff {sep : Char} {s before after : String} :
    split sep s = [before, after] ↔
      s = before ++ String.singleton sep ++ after ∧ s.toList.count sep = 1 := by
  constructor
  · intro h
    have hlength := congrArg List.length h
    rw [split, List.length_map, length_splitChars] at hlength
    refine ⟨?_, Nat.succ.inj hlength⟩
    rw [← join_split sep s, h, ← String.toList_inj]
    simp [join, joinChars]
  · rintro ⟨rfl, hcount⟩
    simp only [String.toList_append, String.toList_singleton, List.append_assoc,
      List.singleton_append, List.count_append, List.count_cons_self] at hcount
    have hbefore : sep ∉ before.toList := List.count_eq_zero.mp (by omega)
    have hafter : sep ∉ after.toList := List.count_eq_zero.mp (by omega)
    rw [split, String.toList_append, String.toList_append, String.toList_singleton,
      List.append_assoc, List.singleton_append, splitChars_append_cons hbefore,
      splitChars_of_notMem hafter]
    simp

/-- Texts with a separator between them are split apart there. -/
theorem split_append (sep : Char) (s t : String) :
    split sep (s ++ String.singleton sep ++ t) = split sep s ++ split sep t := by
  simp only [split, String.toList_append, String.toList_singleton, List.append_assoc,
    List.singleton_append, splitChars_append, List.map_append]

theorem split_of_notMem {sep : Char} {s : String} (h : sep ∉ s.toList) : split sep s = [s] := by
  rw [split, splitChars_of_notMem h, List.map_singleton, String.ofList_toList]

theorem split_join {sep : Char} {pieces : List String} (hne : pieces ≠ [])
    (hfree : ∀ piece ∈ pieces, sep ∉ piece.toList) : split sep (join sep pieces) = pieces := by
  rw [split, join, String.toList_ofList,
    splitChars_joinChars (by simpa using hne) (by simpa using hfree)]
  simp

/-- A text is cut where it has the separator for the first time. -/
theorem cutCharsAtFirst_eq_some_iff {sep : Char} {cs before after : List Char} :
    cutCharsAtFirst sep cs = some (before, after) ↔ cs = before ++ sep :: after ∧ sep ∉ before := by
  induction cs generalizing before with
  | nil => simp [cutCharsAtFirst]
  | cons c cs ih =>
      rw [cutCharsAtFirst]
      split
      · next hsep =>
          subst hsep
          cases before with
          | nil => simp [eq_comm]
          | cons d before => simp +contextual [eq_comm]
      · next hsep =>
          cases before with
          | nil => simp [hsep]
          | cons d before =>
              constructor
              · intro h
                obtain ⟨_, hcut, ⟨⟩⟩ := Option.map_eq_some_iff.mp h
                obtain ⟨rfl, hmem⟩ := ih.mp hcut
                exact ⟨rfl, by simp [hmem, Ne.symm hsep]⟩
              · rintro ⟨⟨⟩, hmem⟩
                rw [ih.mpr ⟨rfl, mt (List.mem_cons_of_mem _) hmem⟩, Option.map_some]

/-- A text without the separator is not cut. -/
theorem cutAtFirst_eq_none_iff {sep : Char} {s : String} :
    cutAtFirst sep s = none ↔ sep ∉ s.toList := by
  rw [cutAtFirst, Option.map_eq_none_iff]
  induction s.toList with
  | nil => simp [cutCharsAtFirst]
  | cons c cs ih =>
      rw [cutCharsAtFirst, List.mem_cons, not_or, ← ih]
      split
      · next hsep => simp [hsep]
      · next hsep => simp [Ne.symm hsep]

/-! ## Blanks at the ends -/

/-- A text does not begin with a blank if one that it begins does not. -/
theorem trimStartChars_of_prefix {cs longer : List Char} (h : cs <+: longer)
    (hlonger : trimStartChars longer = longer) : trimStartChars cs = cs := by
  obtain ⟨rest, rfl⟩ := h
  refine List.dropWhile_eq_self_iff.mpr fun hcs => ?_
  cases cs with
  | nil => simp at hcs
  | cons c cs => exact List.dropWhile_eq_self_iff.mp hlonger (by simp)

theorem trimStartChars_trimChars (cs : List Char) : trimStartChars (trimChars cs) = trimChars cs :=
  trimStartChars_of_prefix (List.rdropWhile_prefix isBlank _) (List.dropWhile_idempotent isBlank cs)

/-- Trimming again takes nothing away. -/
theorem trim_trim (s : String) : trim (trim s) = trim s := by
  rw [trim, trim, String.toList_ofList, trimChars, trimStartChars_trimChars]
  exact congrArg String.ofList (List.rdropWhile_idempotent isBlank _)

/-- Trimming leaves nothing just of blanks. -/
theorem trim_eq_empty_iff {s : String} : trim s = "" ↔ isBlankText s = true := by
  rw [trim, String.ofList_eq_empty_iff, isBlankText, List.all_eq_true, ← List.dropWhile_eq_nil_iff]
  constructor
  · intro h
    by_contra hne
    have hblank := List.rdropWhile_eq_nil_iff.mp h _ (List.head_mem hne)
    rw [List.head_eq_getElem] at hblank
    exact List.dropWhile_get_zero_not isBlank s.toList (List.length_pos_iff.mpr hne) hblank
  · intro h
    rw [trimChars, trimStartChars, h]
    rfl

theorem isBlankText_trim (s : String) : isBlankText (trim s) = isBlankText s := by
  rw [Bool.eq_iff_iff, ← trim_eq_empty_iff, ← trim_eq_empty_iff, trim_trim]

/-- The members of a list are its parts between separators that are not blank, trimmed. -/
theorem mem_splitTrimmed_iff {sep : Char} {s piece : String} :
    piece ∈ splitTrimmed sep s ↔
      ∃ part ∈ split sep s, isBlankText part = false ∧ trim part = piece := by
  simp only [splitTrimmed, List.mem_filter, List.mem_map, Bool.not_eq_true', ← Bool.not_eq_true,
    String.isEmpty_iff, ← trim_eq_empty_iff]
  constructor
  · rintro ⟨⟨part, hpart, rfl⟩, hne⟩
    exact ⟨part, hpart, hne, rfl⟩
  · rintro ⟨part, hpart, hne, rfl⟩
    exact ⟨⟨part, hpart, rfl⟩, hne⟩

theorem trimChars_eq_self_iff {cs : List Char} :
    trimChars cs = cs ↔ trimStartChars cs = cs ∧ trimEndChars cs = cs := by
  constructor
  · intro h
    have hstart := trimStartChars_trimChars cs
    rw [h] at hstart
    exact ⟨hstart, by rwa [trimChars, hstart] at h⟩
  · rintro ⟨hstart, hend⟩
    rw [trimChars, hstart, hend]

theorem trim_eq_self_iff {s : String} : trim s = s ↔ trimChars s.toList = s.toList := by
  rw [trim, ← String.toList_inj, String.toList_ofList]

/-- Texts that begin and end with other characters than blanks have none at their ends together. -/
theorem trimChars_append {cs ds : List Char} (hcs : cs ≠ []) (hds : ds ≠ [])
    (hstart : trimStartChars cs = cs) (hend : trimEndChars ds = ds) :
    trimChars (cs ++ ds) = cs ++ ds := by
  refine trimChars_eq_self_iff.mpr ⟨?_, ?_⟩
  · refine List.dropWhile_eq_self_iff.mpr fun hlength => ?_
    rw [List.getElem_append_left (List.length_pos_iff.mpr hcs)]
    exact List.dropWhile_eq_self_iff.mp hstart _
  · refine List.rdropWhile_eq_self_iff.mpr fun hne => ?_
    rw [List.getLast_append_of_ne_nil hne hds]
    exact List.rdropWhile_eq_self_iff.mp hend hds

/-- Trimming at the end leaves what has only blanks after it. -/
theorem trimEndChars_eq_iff {cs kept : List Char} (hkept : trimEndChars kept = kept) :
    trimEndChars cs = kept ↔ ∃ blanks, (∀ c ∈ blanks, isBlank c = true) ∧ cs = kept ++ blanks := by
  constructor
  · rintro rfl
    exact ⟨cs.rtakeWhile isBlank, fun c => List.mem_rtakeWhile_imp,
      List.rdropWhile_append_rtakeWhile.symm⟩
  · rintro ⟨blanks, hblanks, rfl⟩
    rw [trimEndChars, List.reverse_append, List.dropWhile_append_of_pos (by simpa using hblanks)]
    exact hkept

/-! ## Numbers in digits -/

/-- Decimal digits have no other character among them. -/
theorem notMem_toDigits {c : Char} (hc : c.isDigit = false) (n : Nat) : c ∉ Nat.toDigits 10 n := by
  intro hmem
  have hdigit := Nat.isDigit_of_mem_toDigits (by omega) (by omega) hmem
  simp [hc] at hdigit

end Text

namespace Hex

theorem digit?_upper : ∀ d < 16, digit? d.digitChar.toUpper = some d := by
  decide

theorem number?_concat (digits : List Char) (c : Char) :
    number? (digits ++ [c]) = (number? digits).bind fun n => (digit? c).map (n * 16 + ·) := by
  simp [number?, List.foldlM_append]

/-- **Hexadecimal digits read back** as the number that they were written for. -/
theorem number?_upperHex (n : Nat) : number? (Text.upperHex n).toList = some n := by
  simp only [Text.upperHex, String.toList_ofList]
  induction n using Nat.strongRecOn with
  | ind n ih =>
      rw [Nat.toDigits_eq_if (by omega)]
      split
      · next h => simp [number?, digit?_upper n h]
      · next h =>
          rw [List.map_append, List.map_singleton, number?_concat, ih (n / 16) (by omega),
            digit?_upper (n % 16) (by omega)]
          simp only [Option.bind_some, Option.map_some, Option.some.injEq]
          omega

/-- What reads as a number has digits only. -/
theorem isSome_digit?_of_number? {digits : List Char} {n : Nat} (h : number? digits = some n)
    {c : Char} (hc : c ∈ digits) : (digit? c).isSome = true := by
  induction digits using List.reverseRecOn generalizing n with
  | nil => simp at hc
  | append_singleton digits last ih =>
      rw [number?_concat] at h
      obtain ⟨m, hm, h⟩ := Option.bind_eq_some_iff.mp h
      obtain ⟨d, hd, -⟩ := Option.map_eq_some_iff.mp h
      cases List.mem_append.mp hc with
      | inl hmem => exact ih hm hmem
      | inr hlast => rw [List.mem_singleton.mp hlast, hd, Option.isSome_some]

/-- Hexadecimal digits have no other character among them. -/
theorem notMem_upperHex {c : Char} (hc : digit? c = none) (n : Nat) :
    c ∉ (Text.upperHex n).toList := by
  intro hmem
  have hdigit := isSome_digit?_of_number? (number?_upperHex n) hmem
  simp [hc] at hdigit

end Hex

/-! ## Letter case within ASCII -/

namespace Text

/-- The text has ASCII characters only. -/
def IsAscii (s : String) : Prop :=
  ∀ c ∈ s.toList, c.toNat < 0x80

instance (s : String) : Decidable (IsAscii s) :=
  List.decidableBAll (fun c : Char => c.toNat < 0x80) s.toList

/-- An ASCII character is put in lower case alone, whatever stands around it. -/
theorem lowerBetween_of_ascii {c : Char} (h : c.toNat < 0x80) (before after : List Char) :
    lowerBetween before c after = [c.toLower] := by
  have hsigma : c ≠ 'Σ' := by
    rintro rfl
    simp at h
  have hdotted : c ≠ 'İ' := by
    rintro rfl
    simp at h
  rw [lowerBetween, if_neg hsigma, if_neg hdotted, lowerChar, if_pos h]

theorem lowerAfter_of_ascii (before : List Char) {cs : List Char} (h : ∀ c ∈ cs, c.toNat < 0x80) :
    lowerAfter before cs = cs.map Char.toLower := by
  induction cs generalizing before with
  | nil => rfl
  | cons c cs ih =>
      rw [List.forall_mem_cons] at h
      rw [lowerAfter, lowerBetween_of_ascii h.1, ih (c :: before) h.2, List.singleton_append,
        List.map_cons]

/-- Lower case is ASCII lower case on a text of ASCII characters. -/
theorem lowercase_of_isAscii {s : String} (h : IsAscii s) : lowercase s = asciiLower s := by
  rw [lowercase, asciiLower, lowerAfter_of_ascii [] h]

/-- **Two comparisons agree on ASCII texts**: the one up to ASCII case, and that of lower-case
forms. -/
theorem asciiEq_iff_lowercase_eq {s t : String} (hs : IsAscii s) (ht : IsAscii t) :
    asciiEq s t = true ↔ lowercase s = lowercase t := by
  rw [lowercase_of_isAscii hs, lowercase_of_isAscii ht, asciiEq_iff]

/-- Beyond ASCII they do not: the Kelvin sign is a `k` in lower case. -/
example : lowercase "\u212a" = lowercase "k" ∧ asciiEq "\u212a" "k" = false := by
  decide +kernel

end Text

end AttrFederation
