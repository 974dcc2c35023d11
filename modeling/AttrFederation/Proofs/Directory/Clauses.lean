import AttrFederation.Proofs.Directory.Filter
import AttrFederation.Proofs.Lowercase

/-!
# Assertions that occur in a filter

A filter that is searched for an assertion `(name=value)`, both put in lower case as a whole, has it
exactly where a reader of the filter would expect it.

* Escaping does not get in the way of lower case (`lowercase_escape`), except for a capital sigma
  after a code that ends in a letter (`SigmaApart`).
* A clause begins at an opening parenthesis and has no other one, so it occurs in a text before such
  a parenthesis or from there on (`occurs_append_open`).
* So an assertion occurs in an identity filter if it occurs in the filter of the class, is the
  clause on disabled accounts, or asserts the identity of a key attribute (`occurs_identity_iff`).
-/

namespace AttrFederation.Filter

open Text

/-! ## Escaping and lower case -/

/-- The nearest character that is not case-ignorable is one whose code ends in a letter. -/
def afterLetterCode (before : List Char) : Bool :=
  match before.dropWhile (inRanges caseIgnorableRanges) with
  | c :: _ => c == '\\' || c == '*'
  | [] => false

/-- No capital sigma stands after a backslash or an asterisk, with nothing but case-ignorable
characters between them.  Escaped, such a sigma comes after a letter. -/
def SigmaApart (value : String) : Prop :=
  ∀ before after, value.toList = before ++ 'Σ' :: after → afterLetterCode before.reverse = false

theorem sigmaApart_of_notMem {value : String} (h : 'Σ' ∉ value.toList) : SigmaApart value := by
  intro before after heq
  rw [heq] at h
  simp at h

/-- The characters before a place in an escaped text, nearest first. -/
def escapedBefore (before : List Char) : List Char :=
  before.flatMap fun c => (escapeChar c).reverse

theorem afterLetterCode_cons_eq (c : Char) (before : List Char) :
    afterLetterCode (c :: before) =
      if inRanges caseIgnorableRanges c then afterLetterCode before
      else c == '\\' || c == '*' := by
  unfold afterLetterCode
  rw [List.dropWhile_cons]
  cases inRanges caseIgnorableRanges c <;> rfl

theorem escapedBefore_cons (c : Char) (before : List Char) :
    escapedBefore (c :: before) = (escapeChar c).reverse ++ escapedBefore before :=
  List.flatMap_cons

theorem isBound_of_mem_codes {c : Char} {digits : String} (h : (c, digits) ∈ codes) :
    IsBound c := by
  obtain ⟨rfl, -⟩ | ⟨rfl, -⟩ | ⟨rfl, -⟩ | ⟨rfl, -⟩ | ⟨rfl, -⟩ := mem_codes_iff.mp h <;>
    decide +kernel

/-- What follows has case after escaping if it had before. -/
theorem startsCased_flatMap_escapeChar (cs : List Char) :
    startsCased (cs.flatMap escapeChar) = startsCased cs := by
  induction cs with
  | nil => rfl
  | cons c cs ih =>
      rw [List.flatMap_cons]
      cases plain_or_mem_codes c with
      | inl h =>
          rw [escapeChar_of_plain h, List.singleton_append, startsCased_cons_eq,
            startsCased_cons_eq, ih]
      | inr h =>
          obtain ⟨digits, h⟩ := h
          rw [escapeChar_of_mem h, List.cons_append, startsCased_cons (isBound_of_mem_codes h),
            startsCased_cons (by decide +kernel)]

/-- What comes before has case after escaping if it had before, but for codes that end in a
letter. -/
theorem startsCased_escapedBefore {before : List Char} (h : afterLetterCode before = false) :
    startsCased (escapedBefore before) = startsCased before := by
  induction before with
  | nil => rfl
  | cons c before ih =>
      rw [afterLetterCode_cons_eq] at h
      rw [escapedBefore_cons]
      cases plain_or_mem_codes c with
      | inl hplain =>
          rw [escapeChar_of_plain hplain, List.reverse_singleton, List.singleton_append,
            startsCased_cons_eq, startsCased_cons_eq]
          split
          · next hignorable => exact ih (by rwa [if_pos hignorable] at h)
          · rfl
      | inr hcode =>
          obtain ⟨digits, hcode⟩ := hcode
          have hbound := isBound_of_mem_codes hcode
          rw [if_neg (not_ignorable_of_isBound hbound)] at h
          rw [startsCased_cons hbound]
          obtain ⟨rfl, -⟩ | ⟨rfl, -⟩ | ⟨rfl, -⟩ | ⟨rfl, -⟩ | ⟨rfl, -⟩ := mem_codes_iff.mp hcode
          · exact absurd h (by decide)
          · exact absurd h (by decide)
          all_goals exact startsCased_cons (by decide +kernel) _

/-- Codes are in lower case. -/
theorem isLower_of_mem_escapeChar {c d : Char} {digits : String} (h : (c, digits) ∈ codes)
    (hd : d ∈ escapeChar c) : IsLower d := by
  have hall : ∀ entry ∈ codes,
      (escapeChar entry.1).all (fun d => d.toNat < 0x80 && d.toLower == d) = true := by
    decide
  have hcode := List.all_eq_true.mp (hall (c, digits) h) d hd
  rw [Bool.and_eq_true, decide_eq_true_eq, beq_iff_eq] at hcode
  exact isLower_of_ascii hcode.1 hcode.2

/-- What a plain character becomes is plain. -/
theorem plain_of_mem_lowerBetween {before after : List Char} {c d : Char} (hplain : Plain c)
    (h : d ∈ lowerBetween before c after) : Plain d := by
  cases eq_or_le_of_mem_lowerBetween h with
  | inl heq => rwa [heq]
  | inr hle =>
      rw [plain_iff]
      refine ⟨?_, ?_, ?_, ?_, ?_⟩ <;> (rintro rfl; exact absurd hle (by decide))

theorem flatMap_escapeChar_of_plain {cs : List Char} (h : ∀ c ∈ cs, Plain c) :
    cs.flatMap escapeChar = cs := by
  induction cs with
  | nil => rfl
  | cons c cs ih =>
      rw [List.forall_mem_cons] at h
      rw [List.flatMap_cons, escapeChar_of_plain h.1, ih h.2, List.singleton_append]

/-- A step further into a text, the same sigmas are in sight. -/
theorem lowerAfter_flatMap_escapeChar {before cs : List Char}
    (h : ∀ passed after, cs = passed ++ 'Σ' :: after →
      afterLetterCode (passed.reverse ++ before) = false) :
    lowerAfter (escapedBefore before) (cs.flatMap escapeChar) =
      (lowerAfter before cs).flatMap escapeChar := by
  induction cs generalizing before with
  | nil => rfl
  | cons c cs ih =>
      have hrest : lowerAfter (escapedBefore (c :: before)) (cs.flatMap escapeChar) =
          (lowerAfter (c :: before) cs).flatMap escapeChar := by
        refine ih fun passed after heq => ?_
        simpa using h (c :: passed) after (by rw [heq, List.cons_append])
      rw [escapedBefore_cons] at hrest
      rw [List.flatMap_cons, lowerAfter, List.flatMap_append, ← hrest]
      cases plain_or_mem_codes c with
      | inl hplain =>
          rw [escapeChar_of_plain hplain, List.singleton_append, lowerAfter, List.reverse_singleton,
            List.singleton_append,
            flatMap_escapeChar_of_plain fun d => plain_of_mem_lowerBetween hplain]
          congr 1
          by_cases hsigma : c = 'Σ'
          · have happart : afterLetterCode before = false := h [] cs (by rw [hsigma]; rfl)
            exact lowerBetween_congr (startsCased_escapedBefore happart)
              (startsCased_flatMap_escapeChar cs) c
          · exact lowerBetween_of_ne_sigma hsigma ..
      | inr hcode =>
          obtain ⟨digits, hcode⟩ := hcode
          rw [lowerAfter_append_of_isLower fun d => isLower_of_mem_escapeChar hcode,
            lowerBetween_of_isBound (isBound_of_mem_codes hcode), List.flatMap_singleton]

/-- **Escaping keeps out of the way of lower case**: a value can be escaped before it is put in
lower case or after that. -/
theorem lowercase_escape {value : String} (h : SigmaApart value) :
    lowercase (escape value) = escape (lowercase value) := by
  rw [← String.toList_inj, toList_lowercase, toList_escape, toList_escape, toList_lowercase]
  refine @lowerAfter_flatMap_escapeChar [] value.toList fun passed after heq => ?_
  rw [List.append_nil]
  exact h passed after heq

/-- Escaped values are the same up to letter case if the values are. -/
theorem lowercase_escape_eq_iff {value other : String} (h : SigmaApart value)
    (h' : SigmaApart other) :
    lowercase (escape value) = lowercase (escape other) ↔ lowercase value = lowercase other := by
  rw [lowercase_escape h, lowercase_escape h']
  constructor
  · intro heq
    rw [← unescape_escape (lowercase value), heq, unescape_escape]
  · exact congrArg escape

/-! ## Clauses in a text -/

/-- Characters in parentheses. -/
def clause (inner : List Char) : List Char :=
  '(' :: (inner ++ [')'])

/-- The clause occurs in a text that is put in lower case. -/
def Occurs (inner text : List Char) : Prop :=
  clause inner <:+: lowerAfter [] text

section Clauses

variable {inner : List Char}

/-- A clause does not occur in a text that lacks a character of it, other than a letter. -/
theorem not_occurs_of_notMem {text : List Char} {c : Char} (hmem : c ∈ clause inner)
    (h : c ∉ text ∧ c.toNat < 0x61) : ¬ Occurs inner text :=
  fun hoccurs => h.1 (mem_of_mem_lowerAfter h.2 (hoccurs.subset hmem))

theorem open_mem_clause : '(' ∈ clause inner :=
  List.mem_cons_self

theorem close_mem_clause : ')' ∈ clause inner := by
  simp [clause]

/-- A clause does not go on over an opening parenthesis. -/
theorem clause_infix_append_open (hopen : '(' ∉ inner) (xs ys : List Char) :
    clause inner <:+: xs ++ '(' :: ys ↔ clause inner <:+: xs ∨ clause inner <:+: '(' :: ys := by
  rw [List.infix_append_iff]
  constructor
  · rintro (hleft | hright | ⟨front, back, hclause, hfront, hback⟩)
    · exact .inl hleft
    · exact .inr hright
    · cases front with
      | nil => exact .inr (hclause ▸ hback.isInfix)
      | cons c front =>
          cases back with
          | nil =>
              rw [List.append_nil] at hclause
              exact .inl (hclause ▸ hfront.isInfix)
          | cons d back =>
              -- The parenthesis would stand behind the one that the clause begins with.
              obtain rfl := (List.cons_prefix_cons.mp hback).1
              have hinner : inner ++ [')'] = front ++ '(' :: back := (List.cons.inj hclause).2
              have hmem : '(' ∈ inner ++ [')'] := by simp [hinner]
              simp [hopen] at hmem
  · rintro (hleft | hright)
    · exact .inl hleft
    · exact .inr (.inl hright)

/-- A clause does not begin where there is no opening parenthesis. -/
theorem clause_infix_append_of_notMem {xs : List Char} (h : '(' ∉ xs) (ys : List Char) :
    clause inner <:+: xs ++ ys ↔ clause inner <:+: ys := by
  induction xs with
  | nil => rw [List.nil_append]
  | cons c xs ih =>
      rw [List.mem_cons, not_or] at h
      have hstart : ¬ clause inner <+: c :: (xs ++ ys) := fun hprefix =>
        h.1 (List.cons_prefix_cons.mp hprefix).1
      rw [List.cons_append, List.infix_cons_iff, or_iff_right hstart, ih h.2]

/-- Two lists agree up to the first place of a character in each and go on alike. -/
theorem append_cons_prefix_iff {c : Char} {xs ys : List Char} (hxs : c ∉ xs) (hys : c ∉ ys)
    (s t : List Char) : xs ++ c :: s <+: ys ++ c :: t ↔ xs = ys ∧ s <+: t := by
  induction xs generalizing ys with
  | nil =>
      cases ys with
      | nil => simp
      | cons d ys =>
          have hne : ¬ c = d := fun heq => hys (heq ▸ List.mem_cons_self)
          simp [hne]
  | cons e xs ih =>
      cases ys with
      | nil =>
          have hne : ¬ e = c := fun heq => hxs (heq ▸ List.mem_cons_self)
          simp [hne]
      | cons d ys =>
          rw [List.mem_cons, not_or] at hxs hys
          rw [List.cons_append, List.cons_append, List.cons_prefix_cons, ih hxs.2 hys.2,
            List.cons.injEq, and_assoc]

/-- **A clause is on one side of an opening parenthesis or on the other.** -/
theorem occurs_append_open (hopen : '(' ∉ inner) (xs ys : List Char) :
    Occurs inner (xs ++ '(' :: ys) ↔ Occurs inner xs ∨ Occurs inner ('(' :: ys) := by
  unfold Occurs
  rw [lowerAfter_append_cons (by decide +kernel), lowerAfter_cons (by decide +kernel)]
  exact clause_infix_append_open hopen _ _

theorem lowerAfter_clause (other : List Char) :
    lowerAfter [] (clause other) = clause (lowerAfter [] other) := by
  rw [clause, lowerAfter_cons (by decide +kernel), lowerAfter_append_cons (by decide +kernel),
    lowerAfter, clause]

end Clauses

/-! ## Assertions -/

/-- In the place of an attribute's name, the text begins no clause and no value. -/
def IsName (name : String) : Prop :=
  '(' ∉ name.toList ∧ '=' ∉ name.toList

instance (name : String) : Decidable (IsName name) :=
  inferInstanceAs (Decidable (_ ∧ _))

/-- What an assertion has between its parentheses. -/
def asserted (name value : String) : List Char :=
  name.toList ++ '=' :: (escape value).toList

/-- That, in lower case. -/
def lowerAsserted (name value : String) : List Char :=
  lowerAfter [] (asserted name value)

theorem toList_assertion (name value : String) :
    (assertion name value).toList = clause (asserted name value) := by
  simp [assertion, clause, asserted]

theorem notMem_escape {c : Char} (h : isMark c = true) (value : String) :
    c ∉ (escape value).toList := fun hmem =>
  absurd h (by rw [(escaped_escape value).isMark_eq_false hmem]; exact Bool.false_ne_true)

theorem open_notMem_asserted {name : String} (h : IsName name) (value : String) :
    '(' ∉ asserted name value := by
  have hvalue : '(' ∉ (escape value).toList := notMem_escape (by decide) value
  simp [asserted, h.1, hvalue]

theorem open_notMem_lowerAsserted {name : String} (h : IsName name) (value : String) :
    '(' ∉ lowerAsserted name value :=
  mt (mem_of_mem_lowerAfter (by decide)) (open_notMem_asserted h value)

theorem lowerAsserted_eq (name value : String) :
    lowerAsserted name value =
      (lowercase name).toList ++ '=' :: (lowercase (escape value)).toList := by
  rw [toList_lowercase, toList_lowercase]
  exact lowerAfter_append_cons (by decide +kernel) ..

/-- An assertion at the front of a text is another one if their names and their values are the same
in lower case. -/
theorem lowerAsserted_prefix_iff {name other value id : String} (h : IsName name)
    (h' : IsName other) (ys : List Char) :
    lowerAsserted name value ++ [')'] <+: lowerAsserted other id ++ ')' :: ys ↔
      lowercase name = lowercase other ∧ lowercase (escape value) = lowercase (escape id) := by
  have hequals : ∀ {name : String}, IsName name → '=' ∉ (lowercase name).toList := by
    intro name hname
    rw [toList_lowercase]
    exact mt (mem_of_mem_lowerAfter (by decide)) hname.2
  have hclose : ∀ value : String, ')' ∉ (lowercase (escape value)).toList := by
    intro value
    rw [toList_lowercase]
    exact mt (mem_of_mem_lowerAfter (by decide)) (notMem_escape (by decide) value)
  rw [lowerAsserted_eq, lowerAsserted_eq, List.append_assoc, List.append_assoc, List.cons_append,
    List.cons_append, append_cons_prefix_iff (hequals h) (hequals h'),
    append_cons_prefix_iff (hclose value) (hclose id), String.toList_inj, String.toList_inj,
    and_iff_left List.nil_prefix]

/-- **An assertion occurs around another one** before it, after it, or if their names and their
values are the same in lower case. -/
theorem occurs_around_assertion {name other value id : String} (h : IsName name) (h' : IsName other)
    (xs ys : List Char) :
    Occurs (lowerAsserted name value) (xs ++ (assertion other id).toList ++ ys) ↔
      Occurs (lowerAsserted name value) xs ∨
      (lowercase name = lowercase other ∧ lowercase (escape value) = lowercase (escape id)) ∨
      Occurs (lowerAsserted name value) ys := by
  have htext : xs ++ (assertion other id).toList ++ ys =
      xs ++ '(' :: (asserted other id ++ ')' :: ys) := by
    simp [toList_assertion, clause]
  have hlower : lowerAfter [] ('(' :: (asserted other id ++ ')' :: ys)) =
      '(' :: (lowerAsserted other id ++ ')' :: lowerAfter [] ys) := by
    rw [lowerAfter_cons (by decide +kernel), lowerAfter_append_cons (by decide +kernel),
      lowerAsserted]
  have hopen : '(' ∉ lowerAsserted other id ++ [')'] := by
    simp [open_notMem_lowerAsserted h' id]
  rw [htext, occurs_append_open (open_notMem_lowerAsserted h value)]
  refine or_congr_right ?_
  unfold Occurs
  rw [hlower, List.infix_cons_iff]
  refine or_congr ?_ ?_
  · rw [← lowerAsserted_prefix_iff h h' (lowerAfter [] ys), clause, List.cons_prefix_cons]
    exact and_iff_right rfl
  · rw [List.append_cons]
    exact clause_infix_append_of_notMem hopen _

/-! ## Assertions in an identity filter -/

/-- The name under which the clause on disabled accounts asserts a value. -/
def accountBits : String :=
  "userAccountControl:1.2.840.113556.1.4.803:"

theorem toList_enabledOnly :
    enabledOnly.toList = ['(', '!'] ++ (assertion accountBits "2").toList ++ [')'] := by
  decide

theorem exists_parenthesize (filter : String) :
    ∃ rest, (parenthesize filter).toList = '(' :: rest := by
  unfold parenthesize
  dsimp only
  split
  · next hhead =>
      obtain ⟨rest, hrest⟩ := List.head?_eq_some_iff.mp hhead
      exact ⟨rest, hrest⟩
  · exact ⟨(Text.trim filter ++ ")").toList, by simp⟩

section Identity

variable {name value : String} (hname : IsName name)

include hname

/-- Among assertions that follow each other, one occurs exactly if it is there. -/
theorem occurs_flatMap_iff {keys : List KeyAttribute} (hkeys : ∀ key ∈ keys, IsName key.name)
    (id : String) :
    Occurs (lowerAsserted name value)
        ((keys.flatMap fun key => (assertion key.name id).toList) ++ [')', ')']) ↔
      ∃ key ∈ keys, lowercase name = lowercase key.name ∧
        lowercase (escape value) = lowercase (escape id) := by
  induction keys with
  | nil => simpa using not_occurs_of_notMem open_mem_clause (by decide)
  | cons key keys ih =>
      rw [List.forall_mem_cons] at hkeys
      have hbefore : ¬ Occurs (lowerAsserted name value) [] :=
        not_occurs_of_notMem open_mem_clause (by decide)
      rw [List.flatMap_cons, List.append_assoc, ← List.nil_append (assertion key.name id).toList,
        occurs_around_assertion hname hkeys.1, or_iff_right hbefore, ih hkeys.2]
      simp only [List.mem_cons, exists_eq_or_imp]

/-- In the clause on key attributes, an assertion occurs exactly if it is that of a key. -/
theorem occurs_anyKey_iff {c : ObjectClass} (hkeys : ∀ key ∈ c.keys, IsName key.name)
    (id : String) :
    Occurs (lowerAsserted name value) ((anyKey c id).toList ++ [')']) ↔
      ∃ key ∈ c.keys, lowercase name = lowercase key.name ∧
        lowercase (escape value) = lowercase (escape id) := by
  have htext : (anyKey c id).toList ++ [')'] =
      ['(', '|'] ++ ((c.keys.flatMap fun key => (assertion key.name id).toList) ++ [')', ')']) := by
    simp [anyKey, String.toList_join, List.flatMap_map]
  rw [htext]
  generalize c.keys = keys at hkeys
  cases keys with
  | nil =>
      -- What remains is a clause, but has no equals sign.
      have hequals : '=' ∈ clause (lowerAsserted name value) := by simp [clause, lowerAsserted_eq]
      simpa using not_occurs_of_notMem hequals (by decide)
  | cons key keys =>
      have hfront : ¬ Occurs (lowerAsserted name value) ['(', '|'] :=
        not_occurs_of_notMem close_mem_clause (by decide)
      rw [List.forall_mem_cons] at hkeys
      rw [List.flatMap_cons, List.append_assoc, ← List.append_assoc,
        occurs_around_assertion hname hkeys.1, or_iff_right hfront,
        occurs_flatMap_iff hname hkeys.2]
      simp only [List.mem_cons, exists_eq_or_imp]

/-- In the clause on disabled accounts, an assertion occurs exactly if it is the one there. -/
theorem occurs_enabledOnly_iff :
    Occurs (lowerAsserted name value) enabledOnly.toList ↔
      lowercase name = lowercase accountBits ∧
        lowercase (escape value) = lowercase (escape "2") := by
  have hfront : ¬ Occurs (lowerAsserted name value) ['(', '!'] :=
    not_occurs_of_notMem close_mem_clause (by decide)
  have hback : ¬ Occurs (lowerAsserted name value) [')'] :=
    not_occurs_of_notMem open_mem_clause (by decide)
  rw [toList_enabledOnly, occurs_around_assertion hname (by decide), or_iff_right hfront,
    or_iff_left hback]

/-- **An assertion occurs in an identity filter where it is meant to**: in the filter of the class,
as the clause on disabled accounts, or as the identity of a key attribute. -/
theorem occurs_identity_iff {c : ObjectClass} (hkeys : ∀ key ∈ c.keys, IsName key.name)
    (includeDisabled : Bool) (id : String) :
    Occurs (lowerAsserted name value) (identity c includeDisabled id).toList ↔
      Occurs (lowerAsserted name value) (parenthesize c.filter).toList ∨
      (includeDisabled = false ∧ lowercase name = lowercase accountBits ∧
        lowercase (escape value) = lowercase (escape "2")) ∨
      ∃ key ∈ c.keys, lowercase name = lowercase key.name ∧
        lowercase (escape value) = lowercase (escape id) := by
  have hopen := open_notMem_lowerAsserted hname value
  have hfront : ¬ Occurs (lowerAsserted name value) ['(', '&'] :=
    not_occurs_of_notMem close_mem_clause (by decide)
  obtain ⟨first, hfirst⟩ := exists_parenthesize c.filter
  obtain ⟨last, hlast⟩ : ∃ last, (anyKey c id).toList ++ [')'] = '(' :: last :=
    ⟨_, by simp [anyKey]; rfl⟩
  rw [← occurs_anyKey_iff hname hkeys, ← occurs_enabledOnly_iff hname, hfirst, hlast]
  cases includeDisabled with
  | true =>
      have htext : (identity c true id).toList = ['(', '&'] ++ '(' :: (first ++ '(' :: last) := by
        simp [identity, classClauses, hfirst, ← hlast]
      rw [htext, occurs_append_open hopen, or_iff_right hfront, ← List.cons_append,
        occurs_append_open hopen]
      simp
  | false =>
      obtain ⟨rest, hrest⟩ : ∃ rest, enabledOnly.toList = '(' :: rest := ⟨_, rfl⟩
      have htext : (identity c false id).toList =
          ['(', '&'] ++ '(' :: (first ++ '(' :: (rest ++ '(' :: last)) := by
        simp [identity, classClauses, hfirst, ← hlast, hrest]
      rw [htext, occurs_append_open hopen, or_iff_right hfront, ← List.cons_append,
        occurs_append_open hopen, ← List.cons_append, occurs_append_open hopen, hrest]
      simp

end Identity

end AttrFederation.Filter
