import AttrFederation.Text.Numeral
import Mathlib.Algebra.Group.Nat.Defs

/-!
# Numerals as texts

Which texts the readers of numbers accept, said by the digits alone, and that what is printed is
read back.  The number that digits stand for is that of `Nat.ofDigitChars`.

* A whole text is a numeral if it is one or more digits after an optional plus sign (`Denotes`), and
  it is read exactly if its number is within the bound (`readNatural_eq_ok_iff`).
* At the front of a text a number takes the digits up to a width (`takeNumber_append`,
  `exists_of_takeNumber`).
* `isNumber_zeroPadded` — digits filled up with zeros are a number of their width.
-/

namespace AttrFederation.Text

theorem ofDigits_eq_ofDigitChars (digits : List Char) :
    ofDigits digits = Nat.ofDigitChars 10 digits 0 := by
  simp only [ofDigits, Nat.ofDigitChars, digitValue, Nat.mul_comm]

/-! ## Whole texts -/

/-- The text is one or more digits after an optional plus sign, and they stand for the number. -/
def Denotes (s : String) (n : Nat) : Prop :=
  ∃ digits, digits ≠ [] ∧ (∀ c ∈ digits, c.isDigit = true) ∧ Nat.ofDigitChars 10 digits 0 = n ∧
    (s.toList = digits ∨ s.toList = '+' :: digits)

theorem le_ofDigitChars (digits : List Char) (value : Nat) :
    value ≤ Nat.ofDigitChars 10 digits value := by
  rw [Nat.ofDigitChars_eq_ofDigitChars_zero]
  have hpos : 0 < 10 ^ digits.length := Nat.pow_pos (by decide)
  exact Nat.le_trans (Nat.le_mul_of_pos_left value hpos) (Nat.le_add_right _ _)

/-- Digits are read if their number stays within the bound; it only grows with each of them. -/
theorem readDigits_eq_ok_iff {bound value n : Nat} {cs : List Char} (hvalue : value ≤ bound) :
    readDigits bound value cs = .ok n ↔
      (∀ c ∈ cs, c.isDigit = true) ∧ Nat.ofDigitChars 10 cs value = n ∧ n ≤ bound := by
  induction cs generalizing value with
  | nil =>
      simp only [readDigits, Except.ok.injEq, Nat.ofDigitChars_nil]
      constructor
      · rintro rfl
        exact ⟨fun c hc => absurd hc List.not_mem_nil, rfl, hvalue⟩
      · exact fun h => h.2.1
  | cons c cs ih =>
      have hnext : 10 * value + (c.toNat - '0'.toNat) = value * 10 + digitValue c := by
        rw [digitValue, Nat.mul_comm]
      rw [readDigits, List.forall_mem_cons, Nat.ofDigitChars_cons, hnext]
      cases hdigit : c.isDigit with
      | false => simp
      | true =>
          rw [if_pos rfl]
          dsimp only
          split
          · next hlarge =>
              have hgrow := le_ofDigitChars cs (value * 10 + digitValue c)
              simp only [reduceCtorEq, false_iff, not_and]
              rintro - rfl
              omega
          · next hsmall =>
              rw [ih (by omega)]
              simp

theorem denotes_iff_of_plus {s : String} {n : Nat} {digits : List Char}
    (h : s.toList = '+' :: digits) :
    Denotes s n ↔ digits ≠ [] ∧ (∀ c ∈ digits, c.isDigit = true) ∧
      Nat.ofDigitChars 10 digits 0 = n := by
  constructor
  · rintro ⟨read, hne, hdigits, hn, hplain | hplus⟩
    · have hmem : '+' ∈ read := by rw [← hplain, h]; exact List.mem_cons_self
      have hsign : Char.isDigit '+' = true := hdigits _ hmem
      exact absurd hsign (by decide)
    · obtain rfl : digits = read := List.tail_eq_of_cons_eq (h.symm.trans hplus)
      exact ⟨hne, hdigits, hn⟩
  · exact fun ⟨hne, hdigits, hn⟩ => ⟨digits, hne, hdigits, hn, .inr h⟩

theorem denotes_iff_of_ne_plus {s : String} {n : Nat} (h : ∀ digits, s.toList ≠ '+' :: digits) :
    Denotes s n ↔ s.toList ≠ [] ∧ (∀ c ∈ s.toList, c.isDigit = true) ∧
      Nat.ofDigitChars 10 s.toList 0 = n := by
  constructor
  · rintro ⟨digits, hne, hdigits, hn, rfl | hplus⟩
    · exact ⟨hne, hdigits, hn⟩
    · exact absurd hplus (h digits)
  · exact fun ⟨hne, hdigits, hn⟩ => ⟨s.toList, hne, hdigits, hn, .inl rfl⟩

/-- **A text reads as a number** within a bound exactly if it is a numeral of it. -/
theorem readNatural_eq_ok_iff {bound n : Nat} {s : String} :
    readNatural bound s = .ok n ↔ Denotes s n ∧ n ≤ bound := by
  unfold readNatural
  split
  · next h => simp [denotes_iff_of_ne_plus, h]
  · next h => simp [denotes_iff_of_plus h]
  · next digits hne h =>
      rw [denotes_iff_of_plus h, readDigits_eq_ok_iff (Nat.zero_le bound), and_assoc, and_assoc]
      exact (and_iff_right (show digits ≠ [] from hne)).symm
  · next hne _ hplus =>
      rw [denotes_iff_of_ne_plus hplus, readDigits_eq_ok_iff (Nat.zero_le bound), and_assoc,
        and_assoc]
      exact (and_iff_right (show s.toList ≠ [] from hne)).symm

theorem denotes_iff_readNatural {size n : Nat} {s : String} (h : n < size) :
    Denotes s n ↔ readNatural (size - 1) s = .ok n := by
  rw [readNatural_eq_ok_iff, and_iff_left (Nat.le_sub_one_of_lt h)]

/-- No number is read exactly if there is none that the text denotes within the bound. -/
theorem toOption_readNatural_eq_none_iff {bound : Nat} {s : String} :
    (readNatural bound s).toOption = none ↔ ¬ ∃ n, Denotes s n ∧ n ≤ bound := by
  simp only [← readNatural_eq_ok_iff]
  cases readNatural bound s <;> simp [Except.toOption]

theorem readUInt32?_eq_none_iff {s : String} :
    readUInt32? s = none ↔ ¬ ∃ n, Denotes s n ∧ n < UInt32.size := by
  rw [readUInt32?, Option.map_eq_none_iff, toOption_readNatural_eq_none_iff]
  simp only [Nat.le_sub_one_iff_lt (show 0 < UInt32.size by decide)]

theorem readUInt64?_eq_none_iff {s : String} :
    readUInt64? s = none ↔ ¬ ∃ n, Denotes s n ∧ n < UInt64.size := by
  rw [readUInt64?, Option.map_eq_none_iff, toOption_readNatural_eq_none_iff]
  simp only [Nat.le_sub_one_iff_lt (show 0 < UInt64.size by decide)]

/-- A 64-bit number is read exactly of its numerals. -/
theorem readUInt64?_eq_some_iff {s : String} {n : UInt64} :
    readUInt64? s = some n ↔ Denotes s n.toNat := by
  rw [denotes_iff_readNatural (show n.toNat < UInt64.size from n.toNat_lt), readUInt64?]
  cases h : readNatural (UInt64.size - 1) s with
  | error e => simp [Except.toOption]
  | ok m =>
      have hm : m < UInt64.size := Nat.lt_of_le_sub_one (by decide) (readNatural_le h)
      simp only [Except.toOption, Option.map_some, Option.some.injEq, Except.ok.injEq,
        ← UInt64.toNat_inj, UInt64.toNat_ofNat']
      rw [Nat.mod_eq_of_lt hm]

/-- A 16-bit number is read exactly of its numerals. -/
theorem readUInt16_eq_ok_iff {s : String} {n : UInt16} :
    readUInt16 s = .ok n ↔ Denotes s n.toNat := by
  rw [denotes_iff_readNatural (show n.toNat < UInt16.size from n.toNat_lt), readUInt16]
  cases h : readNatural (UInt16.size - 1) s with
  | error e => simp [Except.map]
  | ok m =>
      have hm : m < UInt16.size := Nat.lt_of_le_sub_one (by decide) (readNatural_le h)
      simp only [Except.map, Except.ok.injEq, ← UInt16.toNat_inj, UInt16.toNat_ofNat']
      rw [Nat.mod_eq_of_lt hm]

theorem exists_readUInt16_iff {s : String} :
    (∃ n, readUInt16 s = .ok n) ↔ ∃ n, Denotes s n ∧ n < UInt16.size := by
  simp only [readUInt16_eq_ok_iff]
  constructor
  · exact fun ⟨n, hn⟩ => ⟨n.toNat, hn, n.toNat_lt⟩
  · rintro ⟨n, hn, hlt⟩
    exact ⟨UInt16.ofNat n, by rwa [UInt16.toNat_ofNat', Nat.mod_eq_of_lt hlt]⟩

/-! ## Digits at the front -/

/-- The text does not go on with a digit. -/
def NoDigitAhead (cs : List Char) : Prop :=
  ∀ c ∈ cs.head?, c.isDigit = false

theorem noDigitAhead_nil : NoDigitAhead [] := by
  rintro c ⟨⟩

theorem noDigitAhead_cons {c : Char} {cs : List Char} (h : c.isDigit = false) :
    NoDigitAhead (c :: cs) := by
  rintro d ⟨⟩
  exact h

/-- A run of digits is taken whole if it is not too long and what follows does not go on with it. -/
theorem spanDigits_append {width : Nat} {digits rest : List Char}
    (hdigits : ∀ c ∈ digits, c.isDigit = true) (hlength : digits.length ≤ width)
    (hrest : NoDigitAhead rest) : spanDigits width (digits ++ rest) = (digits, rest) := by
  induction digits generalizing width with
  | nil =>
      cases rest with
      | nil => cases width <;> rfl
      | cons c rest =>
          have hc : c.isDigit = false := hrest c rfl
          cases width with
          | zero => rfl
          | succ width => rw [List.nil_append, spanDigits, if_neg (by simp [hc])]
  | cons c digits ih =>
      rw [List.forall_mem_cons] at hdigits
      cases width with
      | zero => simp at hlength
      | succ width =>
          rw [List.cons_append, spanDigits, if_pos hdigits.1,
            ih hdigits.2 (Nat.le_of_succ_le_succ hlength)]

theorem spanDigits_spec (width : Nat) (cs : List Char) :
    (∀ c ∈ (spanDigits width cs).1, c.isDigit = true) ∧ (spanDigits width cs).1.length ≤ width ∧
      (spanDigits width cs).1 ++ (spanDigits width cs).2 = cs := by
  induction cs generalizing width with
  | nil => cases width <;> simp [spanDigits]
  | cons c cs ih =>
      cases width with
      | zero => simp [spanDigits]
      | succ width =>
          obtain ⟨hdigits, hlength, happend⟩ := ih width
          rw [spanDigits]
          split
          · next hc => simpa [hc, hlength, happend] using hdigits
          · simp

/-- The text is one to so many digits. -/
structure IsNumber (width : Nat) (digits : List Char) : Prop where
  ne_nil : digits ≠ []
  length_le : digits.length ≤ width
  isDigit : ∀ c ∈ digits, c.isDigit = true

theorem takeNumber_append {width : Nat} {digits rest : List Char} (hdigits : IsNumber width digits)
    (hrest : NoDigitAhead rest) :
    takeNumber width (digits ++ rest) = some (Nat.ofDigitChars 10 digits 0, rest) := by
  have hspan := spanDigits_append hdigits.isDigit hdigits.length_le hrest
  rw [← ofDigits_eq_ofDigitChars, takeNumber, hspan]
  split
  · next heq => exact absurd (Prod.mk.inj heq).1 hdigits.ne_nil
  · next heq =>
      obtain ⟨rfl, rfl⟩ := Prod.mk.inj heq
      rfl

theorem exists_of_takeNumber {width n : Nat} {cs rest : List Char}
    (h : takeNumber width cs = some (n, rest)) :
    ∃ digits, IsNumber width digits ∧ Nat.ofDigitChars 10 digits 0 = n ∧ cs = digits ++ rest := by
  obtain ⟨hdigits, hlength, happend⟩ := spanDigits_spec width cs
  unfold takeNumber at h
  split at h
  · exact nomatch h
  · next digits behind hne heq =>
      obtain ⟨rfl, rfl⟩ := Prod.mk.inj (Option.some.inj h)
      rw [heq] at hdigits hlength happend
      exact ⟨digits, ⟨hne, hlength, hdigits⟩, (ofDigits_eq_ofDigitChars digits).symm, happend.symm⟩

/-! ## Printed digits -/

theorem toList_zeroPadded (width n : Nat) :
    (zeroPadded width n).toList =
      List.replicate (width - (Nat.toDigits 10 n).length) '0' ++ Nat.toDigits 10 n :=
  String.toList_ofList

/-- Digits filled up with zeros are a number of their width. -/
theorem isNumber_zeroPadded {width n : Nat} (hwidth : 0 < width) (hn : n < 10 ^ width) :
    IsNumber width (zeroPadded width n).toList ∧ (zeroPadded width n).toList.length = width ∧
      Nat.ofDigitChars 10 (zeroPadded width n).toList 0 = n := by
  have hlength : (Nat.toDigits 10 n).length ≤ width :=
    (Nat.length_toDigits_le_iff (by decide) hwidth).mpr hn
  have hpadded : (zeroPadded width n).toList.length = width := by
    rw [toList_zeroPadded, List.length_append, List.length_replicate]
    omega
  refine ⟨⟨?_, Nat.le_of_eq hpadded, ?_⟩, hpadded, ?_⟩
  · exact List.length_pos_iff.mp (hpadded.symm ▸ hwidth)
  · rw [toList_zeroPadded, List.forall_mem_append]
    refine ⟨fun c hc => ?_, fun c => Nat.isDigit_of_mem_toDigits (by decide) (by decide)⟩
    rw [List.eq_of_mem_replicate hc]
    rfl
  · rw [toList_zeroPadded, Nat.ofDigitChars_append, Nat.ofDigitChars_replicate_zero, Nat.mul_zero,
      Nat.ofDigitChars_ten_toDigits]

end AttrFederation.Text
