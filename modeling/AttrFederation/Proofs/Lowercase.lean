import AttrFederation.Proofs.Text

/-!
# Full lower case

What stands around a character counts for a capital sigma only, and there only as far as the next
character that has case or is not case-ignorable.  So a text is put in lower case piece by piece
between characters without case (`lowerAfter_append_cons`).

What is put in lower case stays so (`lowercase_lowercase`): the table of lower-case forms sends
nothing to a character that it sends elsewhere.  Characters below the small letters of ASCII are
not made from others (`mem_of_mem_lowerAfter`).
-/

namespace AttrFederation.Text

theorem toList_lowercase (s : String) : (lowercase s).toList = lowerAfter [] s.toList := by
  simp [lowercase]

/-! ## Characters between words -/

/-- The character is its own lower case, and what stands on one side of it does not count on the
other. -/
def IsBound (c : Char) : Prop :=
  c.toNat < 0x80 ∧ c.toLower = c ∧
    inRanges caseIgnorableRanges c = false ∧ inRanges casedRanges c = false

instance (c : Char) : Decidable (IsBound c) :=
  inferInstanceAs (Decidable (_ ∧ _ ∧ _ ∧ _))

theorem lowerBetween_of_isBound {c : Char} (h : IsBound c) (before after : List Char) :
    lowerBetween before c after = [c] := by
  rw [lowerBetween_of_ascii h.1, h.2.1]

theorem not_ignorable_of_isBound {c : Char} (h : IsBound c) :
    ¬ inRanges caseIgnorableRanges c = true := by
  rw [h.2.2.1]
  exact Bool.false_ne_true

theorem startsCased_cons_eq (c : Char) (cs : List Char) :
    startsCased (c :: cs) =
      if inRanges caseIgnorableRanges c then startsCased cs else inRanges casedRanges c := by
  unfold startsCased
  rw [List.dropWhile_cons]
  cases inRanges caseIgnorableRanges c <;> rfl

/-- A bound ends the search for a cased neighbour. -/
theorem startsCased_append_cons {c : Char} (h : IsBound c) (cs rest : List Char) :
    startsCased (cs ++ c :: rest) = startsCased cs := by
  induction cs with
  | nil =>
      rw [List.nil_append, startsCased_cons_eq, if_neg (not_ignorable_of_isBound h), h.2.2.2]
      rfl
  | cons d cs ih => rw [List.cons_append, startsCased_cons_eq, startsCased_cons_eq, ih]

theorem startsCased_cons {c : Char} (h : IsBound c) (rest : List Char) :
    startsCased (c :: rest) = false :=
  startsCased_append_cons h [] rest

/-- Only the cased neighbours count. -/
theorem lowerBetween_congr {before before' after after' : List Char}
    (hbefore : startsCased before = startsCased before')
    (hafter : startsCased after = startsCased after') (c : Char) :
    lowerBetween before c after = lowerBetween before' c after' := by
  unfold lowerBetween
  rw [hbefore, hafter]

/-- Other characters than the capital sigma have no regard to neighbours. -/
theorem lowerBetween_of_ne_sigma {c : Char} (h : c ≠ 'Σ')
    (before before' after after' : List Char) :
    lowerBetween before c after = lowerBetween before' c after' := by
  rw [lowerBetween, lowerBetween, if_neg h, if_neg h]

theorem lowerAfter_congr {before before' : List Char}
    (h : ∀ between, startsCased (between ++ before) = startsCased (between ++ before'))
    (cs : List Char) : lowerAfter before cs = lowerAfter before' cs := by
  induction cs generalizing before before' with
  | nil => rfl
  | cons c cs ih =>
      have hnext : ∀ between,
          startsCased (between ++ c :: before) = startsCased (between ++ c :: before') := by
        intro between
        simpa using h (between ++ [c])
      have hhere : startsCased before = startsCased before' := h []
      rw [lowerAfter, lowerAfter, lowerBetween_congr hhere rfl, ih hnext]

/-- **Lower case piece by piece**: what stands before a bound and what stands after it are put in
lower case each by itself. -/
theorem lowerAfter_append_cons {c : Char} (h : IsBound c) (before cs rest : List Char) :
    lowerAfter before (cs ++ c :: rest) = lowerAfter before cs ++ c :: lowerAfter [] rest := by
  induction cs generalizing before with
  | nil =>
      rw [List.nil_append, lowerAfter.eq_2, lowerBetween_of_isBound h, List.singleton_append,
        lowerAfter.eq_1, List.nil_append]
      congr 1
      refine lowerAfter_congr (fun between => ?_) rest
      rw [startsCased_append_cons h, List.append_nil]
  | cons d cs ih =>
      rw [List.cons_append, lowerAfter, lowerAfter, ih, List.append_assoc]
      rw [lowerBetween_congr rfl (startsCased_append_cons h cs rest)]

theorem lowerAfter_cons {c : Char} (h : IsBound c) (rest : List Char) :
    lowerAfter [] (c :: rest) = c :: lowerAfter [] rest :=
  lowerAfter_append_cons h [] [] rest

/-! ## The table -/

/-- A row sends nothing to a capital letter of ASCII or a character before these, to `İ`, or to what
is not a character. -/
def sendsToLetters : Nat × Nat × Nat × Nat → Bool
  | (first, last, _, lower) =>
    0x61 ≤ lower && (lower + (last - first) < 0x130 || 0x130 < lower) &&
      (lower + (last - first) < 0xD800 || (0xDFFF < lower && lower + (last - first) < 0x110000))

/-- A row sends nothing to what a row sends elsewhere. -/
def sendsForGood : Nat × Nat × Nat × Nat → Bool
  | (first, last, step, lower) =>
    lowerRanges.all fun (first', last', step', _) =>
      !(Nat.ble lower last' && Nat.ble first' (lower + (last - first))) ||
        ((step == 2 || first == last) && step' == 2 && (lower + first') % 2 == 1)

theorem all_sendsToLetters : lowerRanges.all sendsToLetters = true := by
  decide +kernel

theorem all_sendsForGood : lowerRanges.all sendsForGood = true := by
  decide +kernel

theorem lowerCode?_eq_some {n m : Nat} (h : lowerCode? n = some m) :
    ∃ first last step lower, (first, last, step, lower) ∈ lowerRanges ∧
      first ≤ n ∧ n ≤ last ∧ (n - first) % step = 0 ∧ m = lower + (n - first) := by
  obtain ⟨⟨first, last, step, lower⟩, hrow, hsends⟩ := List.exists_of_findSome?_eq_some h
  simp only [Option.ite_none_right_eq_some, Option.some.injEq] at hsends
  obtain ⟨⟨hfirst, hlast, hstep⟩, rfl⟩ := hsends
  exact ⟨first, last, step, lower, hrow, hfirst, hlast, hstep, rfl⟩

/-- Lower-case forms are small letters of ASCII or characters after these. -/
theorem isLetter_of_lowerCode? {n m : Nat} (h : lowerCode? n = some m) :
    0x61 ≤ m ∧ m ≠ 0x130 ∧ m.isValidChar := by
  obtain ⟨first, last, step, lower, hrow, hfirst, hlast, -, rfl⟩ := lowerCode?_eq_some h
  have hletters := List.all_eq_true.mp all_sendsToLetters _ hrow
  simp only [sendsToLetters, Bool.and_eq_true, Bool.or_eq_true, decide_eq_true_eq] at hletters
  unfold Nat.isValidChar
  omega

/-- Lower-case forms have no other lower-case form. -/
theorem lowerCode?_of_lowerCode? {n m : Nat} (h : lowerCode? n = some m) : lowerCode? m = none := by
  by_contra hne
  obtain ⟨m', hm'⟩ := Option.ne_none_iff_exists'.mp hne
  obtain ⟨first, last, step, lower, hrow, hfirst, hlast, hstep, rfl⟩ := lowerCode?_eq_some h
  obtain ⟨first', last', step', lower', hrow', hfirst', hlast', hstep', -⟩ := lowerCode?_eq_some hm'
  have hgood := List.all_eq_true.mp (List.all_eq_true.mp all_sendsForGood _ hrow) _ hrow'
  simp only [Bool.or_eq_true, Bool.not_eq_true', ← Bool.not_eq_true, Bool.and_eq_true, Nat.ble_eq,
    beq_iff_eq] at hgood
  rcases hgood with hgood | ⟨⟨rfl | rfl, rfl⟩, hgood⟩ <;> omega

/-! ## Single characters -/

theorem toLower_ascii : ∀ n < 0x80,
    (Char.ofNat n).toLower.toNat < 0x80 ∧
      (Char.ofNat n).toLower.toLower = (Char.ofNat n).toLower ∧
      ((Char.ofNat n).toLower = Char.ofNat n ∨ 0x61 ≤ (Char.ofNat n).toLower.toNat) ∧
      (0x61 ≤ n → (Char.ofNat n).toLower = Char.ofNat n) := by
  decide +kernel

theorem lowerChar_of_ascii {c : Char} (h : c.toNat < 0x80) : lowerChar c = c.toLower :=
  if_pos h

theorem lowerChar_of_none {c : Char} (h : ¬ c.toNat < 0x80) (hcode : lowerCode? c.toNat = none) :
    lowerChar c = c := by
  rw [lowerChar, if_neg h, hcode]

/-- A character has a lower-case form that is a letter, or is its own lower case. -/
theorem lowerChar_cases (c : Char) :
    lowerChar c = c ∨
      (0x61 ≤ (lowerChar c).toNat ∧ lowerChar c ≠ 'İ' ∧ lowerChar (lowerChar c) = lowerChar c) := by
  by_cases hascii : c.toNat < 0x80
  · obtain ⟨hlt, hagain, hsame, -⟩ := toLower_ascii c.toNat hascii
    rw [Char.ofNat_toNat] at hlt hagain hsame
    rw [lowerChar_of_ascii hascii, lowerChar_of_ascii hlt]
    refine hsame.imp_right fun hle => ⟨hle, ?_, hagain⟩
    intro hdotted
    rw [hdotted] at hlt
    exact absurd hlt (by decide)
  · cases hcode : lowerCode? c.toNat with
    | none => exact .inl (lowerChar_of_none hascii hcode)
    | some m =>
        obtain ⟨hle, hdotted, hvalid⟩ := isLetter_of_lowerCode? hcode
        have hm : (Char.ofNat m).toNat = m := by rw [Char.ofNat, dif_pos hvalid]; rfl
        have hlower : lowerChar c = Char.ofNat m := by rw [lowerChar, if_neg hascii, hcode]
        rw [hlower]
        refine .inr ⟨by rw [hm]; exact hle, fun heq => hdotted ?_, ?_⟩
        · rw [← hm, heq]
          rfl
        · by_cases hsmall : m < 0x80
          · rw [lowerChar_of_ascii (by rw [hm]; exact hsmall)]
            exact (toLower_ascii m hsmall).2.2.2 hle
          · refine lowerChar_of_none (by rw [hm]; exact hsmall) ?_
            rw [hm, lowerCode?_of_lowerCode? hcode]

/-! ## What is in lower case -/

/-- The character is its own lower case wherever it stands. -/
structure IsLower (c : Char) : Prop where
  ne_dotted : c ≠ 'İ'
  lowerChar : lowerChar c = c

theorem isLower_of_ascii {c : Char} (h : c.toNat < 0x80) (hlower : c.toLower = c) : IsLower c := by
  refine ⟨?_, by rw [lowerChar_of_ascii h, hlower]⟩
  rintro rfl
  exact absurd h (by decide)

theorem IsLower.ne_sigma {c : Char} (h : IsLower c) : c ≠ 'Σ' := by
  rintro rfl
  exact absurd h.lowerChar (by decide +kernel)

theorem lowerBetween_of_isLower {c : Char} (h : IsLower c) (before after : List Char) :
    lowerBetween before c after = [c] := by
  rw [lowerBetween, if_neg h.ne_sigma, if_neg h.ne_dotted, h.lowerChar]

theorem isLower_lowerChar {c : Char} (h : c ≠ 'İ') : IsLower (lowerChar c) := by
  rcases lowerChar_cases c with hsame | ⟨-, hdotted, hagain⟩
  · exact ⟨hsame.symm ▸ h, by rw [hsame, hsame]⟩
  · exact ⟨hdotted, hagain⟩

/-- What a character becomes is in lower case. -/
theorem isLower_of_mem_lowerBetween {before after : List Char} {c d : Char}
    (h : d ∈ lowerBetween before c after) : IsLower d := by
  unfold lowerBetween at h
  split at h
  · split at h <;> rw [List.mem_singleton.mp h] <;> exact ⟨by decide, by decide +kernel⟩
  · split at h
    · simp only [List.mem_cons, List.not_mem_nil, or_false] at h
      rcases h with rfl | rfl <;> exact ⟨by decide, by decide +kernel⟩
    · next hdotted =>
        rw [List.mem_singleton.mp h]
        exact isLower_lowerChar hdotted

theorem isLower_of_mem_lowerAfter {before cs : List Char} {d : Char}
    (h : d ∈ lowerAfter before cs) : IsLower d := by
  induction cs generalizing before with
  | nil => simp [lowerAfter] at h
  | cons c cs ih =>
      rw [lowerAfter, List.mem_append] at h
      exact h.elim isLower_of_mem_lowerBetween ih

theorem lowerAfter_append_of_isLower {cs : List Char} (h : ∀ c ∈ cs, IsLower c)
    (before rest : List Char) :
    lowerAfter before (cs ++ rest) = cs ++ lowerAfter (cs.reverse ++ before) rest := by
  induction cs generalizing before with
  | nil => rfl
  | cons c cs ih =>
      rw [List.forall_mem_cons] at h
      rw [List.cons_append, lowerAfter, lowerBetween_of_isLower h.1, ih h.2, List.reverse_cons,
        List.append_assoc, List.singleton_append, List.singleton_append, List.cons_append]

theorem lowerAfter_of_isLower {cs : List Char} (h : ∀ c ∈ cs, IsLower c) (before : List Char) :
    lowerAfter before cs = cs := by
  simpa [lowerAfter] using lowerAfter_append_of_isLower h before []

/-- **Lower case is final**: what is in lower case stays as it is. -/
theorem lowercase_lowercase (s : String) : lowercase (lowercase s) = lowercase s := by
  rw [← String.toList_inj, toList_lowercase, toList_lowercase]
  exact lowerAfter_of_isLower (fun c => isLower_of_mem_lowerAfter) []

/-- What a character becomes is the character itself or a letter. -/
theorem eq_or_le_of_mem_lowerBetween {before after : List Char} {c d : Char}
    (h : d ∈ lowerBetween before c after) : d = c ∨ 0x61 ≤ d.toNat := by
  unfold lowerBetween at h
  split at h
  · split at h <;> rw [List.mem_singleton.mp h] <;> exact .inr (by decide)
  · split at h
    · simp only [List.mem_cons, List.not_mem_nil, or_false] at h
      rcases h with rfl | rfl <;> exact .inr (by decide)
    · rw [List.mem_singleton.mp h]
      exact (lowerChar_cases c).imp_right And.left

/-- **No character before the small letters** comes in by lower case. -/
theorem mem_of_mem_lowerAfter {before cs : List Char} {d : Char} (hd : d.toNat < 0x61)
    (h : d ∈ lowerAfter before cs) : d ∈ cs := by
  induction cs generalizing before with
  | nil => simp [lowerAfter] at h
  | cons c cs ih =>
      rw [lowerAfter, List.mem_append] at h
      cases h with
      | inl h =>
          have hsame := (eq_or_le_of_mem_lowerBetween h).resolve_right (by omega)
          exact hsame ▸ List.mem_cons_self
      | inr h => exact List.mem_cons_of_mem c (ih h)

end AttrFederation.Text
