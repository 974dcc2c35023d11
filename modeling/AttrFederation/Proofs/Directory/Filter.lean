import AttrFederation.Directory.Filter

/-!
# Escaped values and identity filters

A value is escaped character by character: one that means something in a filter becomes a backslash
and two digits, and any other stays.  Replacing the five characters one after another comes to the
same (`escape_eq_replaceInTurn`), since the backslash, which every code begins with, has its turn
first.

What escaping gives is `Escaped`: plain characters and codes, and nothing else.  So it has none of
the characters that shape a filter, and the value can be read back.

* `escape_invertible` — escaping leaves nothing that means something, and nothing is lost.
* `identity_narrows_enumeration` — the identity shapes nothing in an identity filter, which is the
  filter for every object of the class with one more clause.
-/

namespace AttrFederation.Filter

/-- An end of two texts that begins with a character foreign to the first is an end of the second. -/
theorem suffix_of_suffix_append {α : Type} {a : α} {after xs ys : List α} (ha : a ∉ xs)
    (h : a :: after <:+ xs ++ ys) : a :: after <:+ ys := by
  induction xs with
  | nil => exact h
  | cons x xs ih =>
      rw [List.mem_cons, not_or] at ha
      cases List.suffix_cons_iff.mp h with
      | inl heq => exact absurd (List.cons.inj heq).1 ha.1
      | inr h => exact ih ha.2 h

/-! ## Replacing in turn -/

/-- A text with another one in place of each occurrence of a character. -/
def replaceChar (c : Char) (replacement s : String) : String :=
  String.ofList (s.toList.flatMap fun d => if d = c then replacement.toList else [d])

/-- The characters that mean something in a filter, with the digits of their codes, in the order of
their turns. -/
def codes : List (Char × String) :=
  [('\\', "5c"), ('*', "2a"), ('(', "28"), (')', "29"), ('\x00', "00")]

/-- A value with one character after another replaced by its code. -/
def replaceInTurn (value : String) : String :=
  codes.foldl (fun s (c, digits) => replaceChar c ("\\" ++ digits) s) value

/-- The character means nothing in a filter. -/
def Plain (c : Char) : Prop :=
  c ∉ codes.map Prod.fst

instance (c : Char) : Decidable (Plain c) :=
  inferInstanceAs (Decidable (c ∉ codes.map Prod.fst))

theorem plain_iff {c : Char} :
    Plain c ↔ c ≠ '\\' ∧ c ≠ '*' ∧ c ≠ '(' ∧ c ≠ ')' ∧ c ≠ '\x00' := by
  simp [Plain, codes]

theorem plain_or_mem_codes (c : Char) : Plain c ∨ ∃ digits, (c, digits) ∈ codes := by
  by_cases h : c ∈ codes.map Prod.fst
  · obtain ⟨⟨c, digits⟩, hmem, rfl⟩ := List.mem_map.mp h
    exact .inr ⟨digits, hmem⟩
  · exact .inl h

theorem mem_codes_iff {c : Char} {digits : String} :
    (c, digits) ∈ codes ↔ (c = '\\' ∧ digits = "5c") ∨ (c = '*' ∧ digits = "2a") ∨
      (c = '(' ∧ digits = "28") ∨ (c = ')' ∧ digits = "29") ∨ (c = '\x00' ∧ digits = "00") := by
  simp [codes]

theorem escapeChar_of_plain {c : Char} (h : Plain c) : escapeChar c = [c] := by
  simp [escapeChar, plain_iff.mp h]

theorem escapeChar_of_mem {c : Char} {digits : String} (h : (c, digits) ∈ codes) :
    escapeChar c = '\\' :: digits.toList := by
  obtain ⟨rfl, rfl⟩ | ⟨rfl, rfl⟩ | ⟨rfl, rfl⟩ | ⟨rfl, rfl⟩ | ⟨rfl, rfl⟩ := mem_codes_iff.mp h <;>
    decide

theorem toList_escape (value : String) :
    (escape value).toList = value.toList.flatMap escapeChar := by
  simp [escape]

theorem toList_replaceChar (c : Char) (replacement s : String) :
    (replaceChar c replacement s).toList =
      s.toList.flatMap fun d => if d = c then replacement.toList else [d] := by
  simp [replaceChar]

/-- **One turn after another** gives what escaping each character gives: no turn meets a character
that an earlier one has put in. -/
theorem escape_eq_replaceInTurn (value : String) : escape value = replaceInTurn value := by
  apply String.toList_inj.mp
  simp only [toList_escape, replaceInTurn, codes, List.foldl_cons, List.foldl_nil,
    toList_replaceChar, List.flatMap_assoc]
  congr 1
  funext c
  cases plain_or_mem_codes c with
  | inl h =>
      rw [escapeChar_of_plain h]
      simp [plain_iff.mp h]
  | inr h =>
      obtain ⟨digits, h⟩ := h
      obtain ⟨rfl, -⟩ | ⟨rfl, -⟩ | ⟨rfl, -⟩ | ⟨rfl, -⟩ | ⟨rfl, -⟩ := mem_codes_iff.mp h <;> decide

/-! ## What escaping gives -/

/-- Characters of which none means anything in a filter but the backslashes of codes. -/
inductive Escaped : List Char → Prop
  | nil : Escaped []
  | plain {c : Char} {cs : List Char} : Plain c → Escaped cs → Escaped (c :: cs)
  | code {c : Char} {digits : String} {cs : List Char} :
      (c, digits) ∈ codes → Escaped cs → Escaped ('\\' :: (digits.toList ++ cs))

theorem escaped_flatMap (cs : List Char) : Escaped (cs.flatMap escapeChar) := by
  induction cs with
  | nil => exact .nil
  | cons c cs ih =>
      rw [List.flatMap_cons]
      cases plain_or_mem_codes c with
      | inl h =>
          rw [escapeChar_of_plain h]
          exact .plain h ih
      | inr h =>
          obtain ⟨digits, h⟩ := h
          rw [escapeChar_of_mem h]
          exact .code h ih

theorem escaped_escape (value : String) : Escaped (escape value).toList := by
  rw [toList_escape]
  exact escaped_flatMap value.toList

/-- The character shapes a filter: it opens or closes a clause, stands for any text or ends the
whole. -/
def isMark (c : Char) : Bool :=
  c = '*' || c = '(' || c = ')' || c = '\x00'

/-- The digits of a code are plain. -/
theorem plain_of_mem_digits {c d : Char} {digits : String} (h : (c, digits) ∈ codes)
    (hd : d ∈ digits.toList) : Plain d := by
  have hcodes : (codes.all fun entry => entry.2.toList.all fun d => decide (Plain d)) = true := by
    decide
  have hdigits := List.all_eq_true.mp hcodes (c, digits) h
  exact of_decide_eq_true (List.all_eq_true.mp hdigits d hd)

theorem isMark_of_plain {c : Char} (h : Plain c) : isMark c = false := by
  simp [isMark, plain_iff.mp h]

namespace Escaped

/-- **No marks**: an escaped value has none of the characters that shape a filter. -/
theorem isMark_eq_false {c : Char} {cs : List Char} (h : Escaped cs) (hc : c ∈ cs) :
    isMark c = false := by
  induction h with
  | nil => simp at hc
  | plain hplain _ ih =>
      cases List.mem_cons.mp hc with
      | inl heq => rw [heq, isMark_of_plain hplain]
      | inr hc => exact ih hc
  | code hmem _ ih =>
      simp only [List.mem_cons, List.mem_append] at hc
      obtain rfl | hc | hc := hc
      · decide
      · exact isMark_of_plain (plain_of_mem_digits hmem hc)
      · exact ih hc

/-- **Backslashes begin codes**: after a backslash of an escaped value come the digits of a code. -/
theorem digits_of_backslash {cs after : List Char} (h : Escaped cs)
    (hafter : '\\' :: after <:+ cs) :
    ∃ digits ∈ codes.map Prod.snd, digits.toList <+: after := by
  induction h with
  | nil => simp at hafter
  | plain hplain _ ih =>
      cases List.suffix_cons_iff.mp hafter with
      | inl heq => exact absurd (List.cons.inj heq).1.symm (plain_iff.mp hplain).1
      | inr hafter => exact ih hafter
  | @code c digits cs hmem _ ih =>
      cases List.suffix_cons_iff.mp hafter with
      | inl heq =>
          refine ⟨digits, List.mem_map_of_mem hmem, cs, ?_⟩
          exact (List.cons.inj heq).2.symm
      | inr hafter =>
          -- The digits have no backslash, so it stands behind them.
          have hdigits : '\\' ∉ digits.toList := fun hd =>
            (plain_iff.mp (plain_of_mem_digits hmem hd)).1 rfl
          exact ih (suffix_of_suffix_append hdigits hafter)

end Escaped

/-! ## Reading back -/

/-- Each code replaced by the character that it stands for. -/
def unescapeChars : List Char → List Char
  | '\\' :: '5' :: 'c' :: cs => '\\' :: unescapeChars cs
  | '\\' :: '2' :: 'a' :: cs => '*' :: unescapeChars cs
  | '\\' :: '2' :: '8' :: cs => '(' :: unescapeChars cs
  | '\\' :: '2' :: '9' :: cs => ')' :: unescapeChars cs
  | '\\' :: '0' :: '0' :: cs => '\x00' :: unescapeChars cs
  | c :: cs => c :: unescapeChars cs
  | [] => []

/-- A text with each code replaced by the character that it stands for. -/
def unescape (s : String) : String :=
  String.ofList (unescapeChars s.toList)

theorem unescapeChars_cons_of_ne {c : Char} (h : c ≠ '\\') (cs : List Char) :
    unescapeChars (c :: cs) = c :: unescapeChars cs := by
  simp [unescapeChars, h]

theorem unescapeChars_escapeChar_append (c : Char) (cs : List Char) :
    unescapeChars (escapeChar c ++ cs) = c :: unescapeChars cs := by
  cases plain_or_mem_codes c with
  | inl h =>
      rw [escapeChar_of_plain h]
      exact unescapeChars_cons_of_ne (plain_iff.mp h).1 cs
  | inr h =>
      obtain ⟨digits, h⟩ := h
      obtain ⟨rfl, -⟩ | ⟨rfl, -⟩ | ⟨rfl, -⟩ | ⟨rfl, -⟩ | ⟨rfl, -⟩ := mem_codes_iff.mp h <;> rfl

theorem unescapeChars_flatMap (cs : List Char) : unescapeChars (cs.flatMap escapeChar) = cs := by
  induction cs with
  | nil => rfl
  | cons c cs ih => rw [List.flatMap_cons, unescapeChars_escapeChar_append, ih]

/-- **Escaping is undone** by replacing each code. -/
theorem unescape_escape (value : String) : unescape (escape value) = value := by
  rw [unescape, toList_escape, unescapeChars_flatMap, String.ofList_toList]

/-- **Escaping leaves nothing that means something, and nothing is lost.**  Whether the characters
are replaced at once or in turn, the escaped value has no asterisk, parenthesis or null character, a
backslash only before the digits of a code, and replacing each code by the character that it stands
for gives back the value.  So no two values have one escaped form. -/
theorem escape_invertible :
    (∀ value : String,
      escape value = replaceInTurn value ∧
      (∀ c ∈ (escape value).toList, c ≠ '*' ∧ c ≠ '(' ∧ c ≠ ')' ∧ c ≠ '\x00') ∧
      (∀ after, '\\' :: after <:+ (escape value).toList →
        ∃ digits ∈ ["5c", "2a", "28", "29", "00"], digits.toList <+: after) ∧
      unescape (escape value) = value) ∧
    Function.Injective escape := by
  constructor
  · intro value
    have hescaped := escaped_escape value
    refine ⟨escape_eq_replaceInTurn value, fun c hc => ?_, fun after hafter => ?_,
      unescape_escape value⟩
    · simpa [isMark, and_assoc] using hescaped.isMark_eq_false hc
    · exact hescaped.digits_of_backslash hafter
  · intro value other h
    rw [← unescape_escape value, h, unescape_escape]

/-- What looks escaped already is escaped once more. -/
example : escape "\\2a" = "\\5c2a" ∧ unescape "\\5c2a" = "\\2a" := by
  decide

/-! ## Identity filters -/

/-- The characters of a text that shape a filter, in order. -/
def marks (s : String) : List Char :=
  s.toList.filter isMark

theorem marks_append (s t : String) : marks (s ++ t) = marks s ++ marks t := by
  simp [marks]

theorem marks_join (texts : List String) : marks (String.join texts) = texts.flatMap marks := by
  simp only [marks, String.toList_join, List.filter_flatMap]
  rfl

theorem marks_escape (value : String) : marks (escape value) = [] := by
  simpa [marks] using fun c => (escaped_escape value).isMark_eq_false (c := c)

/-- What a clause asserts of an attribute does not shape it. -/
theorem marks_assertion (name value : String) :
    marks (assertion name value) = '(' :: (marks name ++ [')']) := by
  simp only [assertion, marks_append, marks_escape]
  simp [marks, isMark]

theorem marks_anyKey (c : ObjectClass) (id : String) :
    marks (anyKey c id) =
      '(' :: (c.keys.flatMap (fun key => '(' :: (marks key.name ++ [')'])) ++ [')']) := by
  rw [anyKey, marks_append, marks_append, marks_join, List.flatMap_map]
  simp only [marks_assertion]
  simp [marks, isMark]

/-- **An identity narrows the search and does nothing else.**  The characters that shape an identity
filter are the same for every identity.  The filter is the one for every object of the class, with
the same choice about disabled accounts, and before its last parenthesis the clause that some key
attribute has the value, the key attributes in order. -/
theorem identity_narrows_enumeration (c : ObjectClass) (includeDisabled : Bool) :
    (∀ id other, marks (identity c includeDisabled id) = marks (identity c includeDisabled other)) ∧
    ∀ id, ∃ front,
      enumeration c includeDisabled = front ++ ")" ∧
      identity c includeDisabled id =
        front ++
          ("(|" ++ String.join (c.keys.map fun key => "(" ++ key.name ++ "=" ++ escape id ++ ")") ++
            ")") ++
          ")" := by
  constructor
  · intro id other
    simp only [identity, marks_append, marks_anyKey]
  · intro id
    exact ⟨"(&" ++ classClauses c includeDisabled, rfl, rfl⟩

end AttrFederation.Filter
