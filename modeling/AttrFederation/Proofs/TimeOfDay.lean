import AttrFederation.Proofs.Numeral
import AttrFederation.Proofs.Text
import AttrFederation.TimeOfDay

/-!
# Times of day as texts

The fields of a time are numbers of one or two digits with blanks before them, and reading a field
takes just its digits (`takeField_append`, `exists_of_takeField`).

* `TimeOfDay.exists_ofHourMinute?_iff` — which texts are an hour and a minute;
* `TimeOfDay.ofText?_toText` — a time is read back from its text, if a leap second is the last of its
  minute, as in all times that are read (`leapsAtMinuteEnd_of?`).
-/

namespace AttrFederation

namespace Text

/-! ## Blanks before digits -/

theorem isDigit_of_isBlank {c : Char} (h : isBlank c = true) : c.isDigit = false := by
  have hdigit : c.isDigit = true ↔ 48 ≤ c.toNat ∧ c.toNat ≤ 57 := Char.isDigit_iff_toNat
  rw [← Bool.not_eq_true, hdigit]
  simp only [isBlank, Bool.or_eq_true, Bool.and_eq_true, decide_eq_true_eq, beq_iff_eq] at h
  omega

theorem trimStartChars_blanks_append {blanks : List Char} (h : ∀ c ∈ blanks, isBlank c = true)
    (cs : List Char) : trimStartChars (blanks ++ cs) = trimStartChars cs :=
  List.dropWhile_append_of_pos h

/-- Digits have no blanks before them. -/
theorem trimStartChars_digits_append {width : Nat} {digits : List Char}
    (h : IsNumber width digits) (rest : List Char) :
    trimStartChars (digits ++ rest) = digits ++ rest := by
  obtain ⟨hne, -, hdigits⟩ := h
  cases digits with
  | nil => contradiction
  | cons c digits =>
      have hblank : ¬ isBlank c = true := fun hblank => by
        simpa [isDigit_of_isBlank hblank] using hdigits c List.mem_cons_self
      exact List.dropWhile_cons_of_neg hblank

end Text

namespace TimeOfDay

open Text

/-! ## Fields -/

theorem takeField_digits_append {digits rest : List Char} (hdigits : IsNumber 2 digits)
    (hrest : NoDigitAhead rest) :
    takeField (digits ++ rest) = some (Nat.ofDigitChars 10 digits 0, rest) := by
  rw [takeField, trimStartChars_digits_append hdigits, takeNumber_append hdigits hrest]

theorem takeField_append {blanks digits rest : List Char} (hblanks : ∀ c ∈ blanks, isBlank c = true)
    (hdigits : IsNumber 2 digits) (hrest : NoDigitAhead rest) :
    takeField (blanks ++ (digits ++ rest)) = some (Nat.ofDigitChars 10 digits 0, rest) := by
  rw [← takeField_digits_append hdigits hrest, takeField, trimStartChars_blanks_append hblanks,
    takeField]

theorem exists_of_takeField {n : Nat} {cs rest : List Char} (h : takeField cs = some (n, rest)) :
    ∃ blanks digits, (∀ c ∈ blanks, isBlank c = true) ∧ IsNumber 2 digits ∧
      Nat.ofDigitChars 10 digits 0 = n ∧ cs = blanks ++ (digits ++ rest) := by
  obtain ⟨digits, hdigits, hn, hcs⟩ := exists_of_takeNumber h
  refine ⟨cs.takeWhile isBlank, digits, fun c hc => List.mem_takeWhile_imp hc, hdigits, hn, ?_⟩
  rw [← hcs]
  exact (List.takeWhile_append_dropWhile).symm

/-- A time has fields within their bounds. -/
theorem of?_eq_some {hour minute second nanos : Nat} {t : TimeOfDay}
    (h : of? hour minute second nanos = some t) :
    hour < 24 ∧ minute < 60 ∧ second ≤ 60 ∧ nanos < 1000000000 := by
  unfold of? at h
  split at h
  · assumption
  · exact nomatch h

/-- Two fields with a colon right after the first and nothing after the second are read. -/
theorem ofHourMinute?_eq_some_iff {s : String} {t : TimeOfDay} :
    ofHourMinute? s = some t ↔ ∃ hour minute rest, takeField s.toList = some (hour, ':' :: rest) ∧
      takeField rest = some (minute, []) ∧ of? hour minute 0 0 = some t := by
  constructor
  · intro h
    obtain ⟨⟨hour, afterHour⟩, hhour, hcolon⟩ := Option.bind_eq_some_iff.mp h
    dsimp only at hcolon
    split at hcolon
    · next rest =>
        obtain ⟨⟨minute, afterMinute⟩, hminute, htime⟩ := Option.bind_eq_some_iff.mp hcolon
        dsimp only at htime
        split at htime
        · next hend =>
            rw [List.isEmpty_iff] at hend
            subst hend
            exact ⟨hour, minute, rest, hhour, hminute, htime⟩
        · exact nomatch htime
    · exact nomatch hcolon
  · rintro ⟨hour, minute, rest, hhour, hminute, htime⟩
    rw [ofHourMinute?, hhour]
    simp [hminute, htime]

/-- The text is an hour and a minute, each of one or two digits, with a colon between them and
blanks at most before the digits. -/
def IsHourMinute (s : String) : Prop :=
  ∃ before hour between minute, (∀ c ∈ before ++ between, isBlank c = true) ∧
    IsNumber 2 hour ∧ Nat.ofDigitChars 10 hour 0 < 24 ∧
    IsNumber 2 minute ∧ Nat.ofDigitChars 10 minute 0 < 60 ∧
    s.toList = before ++ (hour ++ ':' :: (between ++ minute))

/-- A time is read exactly of an hour and a minute. -/
theorem exists_ofHourMinute?_iff {s : String} :
    (∃ t, ofHourMinute? s = some t) ↔ IsHourMinute s := by
  simp only [ofHourMinute?_eq_some_iff]
  constructor
  · rintro ⟨t, hour, minute, rest, hhour, hminute, htime⟩
    obtain ⟨before, hourDigits, hbefore, hhourDigits, rfl, hcut⟩ := exists_of_takeField hhour
    obtain ⟨between, minuteDigits, hbetween, hminuteDigits, rfl, rfl⟩ :=
      exists_of_takeField hminute
    obtain ⟨hlt, hlt', -⟩ := of?_eq_some htime
    refine ⟨before, hourDigits, between, minuteDigits, ?_, hhourDigits, hlt, hminuteDigits,
      hlt', ?_⟩
    · exact List.forall_mem_append.mpr ⟨hbefore, hbetween⟩
    · rw [hcut, List.append_nil]
  · rintro ⟨before, hour, between, minute, hblanks, hhour, hlt, hminute, hlt', htext⟩
    rw [List.forall_mem_append] at hblanks
    have hafter : NoDigitAhead (':' :: (between ++ minute)) := noDigitAhead_cons rfl
    have hend : takeField (between ++ minute) = some (Nat.ofDigitChars 10 minute 0, []) := by
      rw [← takeField_append hblanks.2 hminute noDigitAhead_nil, List.append_nil]
    have hof : ∃ t,
        of? (Nat.ofDigitChars 10 hour 0) (Nat.ofDigitChars 10 minute 0) 0 0 = some t := by
      simp [of?, hlt, hlt']
    obtain ⟨t, ht⟩ := hof
    rw [htext]
    exact ⟨t, _, _, _, takeField_append hblanks.1 hhour hafter, hend, ht⟩

/-! ## Times that are written -/

theorem inLeapSecond_iff {t : TimeOfDay} : t.inLeapSecond = true ↔ 1000000000 ≤ t.nanos.val :=
  decide_eq_true_iff

/-- A leap second is the last of a minute. -/
def LeapsAtMinuteEnd (t : TimeOfDay) : Prop :=
  t.inLeapSecond = true → t.second.val % 60 = 59

theorem leapsAtMinuteEnd_of? {hour minute second nanos : Nat} {t : TimeOfDay}
    (h : of? hour minute second nanos = some t) : t.LeapsAtMinuteEnd := by
  intro hleap
  unfold of? at h
  split at h
  · split at h
    · next hbounds _ =>
        obtain rfl := Option.some.inj h
        have hnanos : 1000000000 ≤ nanos := inLeapSecond_iff.mp hleap
        omega
    · obtain rfl := Option.some.inj h
      dsimp only
      omega
  · exact nomatch h

theorem leapsAtMinuteEnd_of_ofHourMinute? {s : String} {t : TimeOfDay}
    (h : ofHourMinute? s = some t) : t.LeapsAtMinuteEnd := by
  obtain ⟨hour, minute, rest, -, -, htime⟩ := ofHourMinute?_eq_some_iff.mp h
  exact leapsAtMinuteEnd_of? htime

/-- The second of the minute, as it is written. -/
def writtenSecond (t : TimeOfDay) : Nat :=
  t.second.val % 60 + if t.inLeapSecond then 1 else 0

theorem writtenSecond_le (t : TimeOfDay) : t.writtenSecond ≤ 60 := by
  unfold writtenSecond
  split <;> omega

/-- The parts that are written make up the time. -/
theorem of?_written {t : TimeOfDay} (h : t.LeapsAtMinuteEnd) :
    of? t.hour (t.second.val / 60 % 60) t.writtenSecond (t.nanos.val % nanosPerSecond) =
      some t := by
  have hhour : t.hour = t.second.val / 3600 := rfl
  have hsecond := t.second.isLt
  have hnanos := t.nanos.isLt
  have hwhole : ∀ second nanos, second.val = t.second.val → nanos.val = t.nanos.val →
      some (⟨second, nanos⟩ : TimeOfDay) = some t := by
    intro second nanos hsecond hnanos
    rw [Fin.ext hsecond, Fin.ext hnanos]
  by_cases hleap : t.inLeapSecond = true
  · have hend := h hleap
    rw [inLeapSecond_iff] at hleap
    rw [writtenSecond, if_pos (inLeapSecond_iff.mpr hleap)]
    unfold of? nanosPerSecond
    rw [dif_pos (by omega), dif_neg (by omega)]
    exact hwhole _ _ (by dsimp only; omega) (by dsimp only; omega)
  · rw [writtenSecond, if_neg hleap]
    rw [inLeapSecond_iff] at hleap
    unfold of? nanosPerSecond
    rw [dif_pos (by omega), dif_pos (by omega)]
    exact hwhole _ _ (by dsimp only; omega) (by dsimp only; omega)

/-! ## Written times read back -/

theorem takeColonField_append {digits rest : List Char} (hdigits : IsNumber 2 digits)
    (hrest : NoDigitAhead rest) :
    takeColonField (':' :: (digits ++ rest)) = some (Nat.ofDigitChars 10 digits 0, rest) :=
  takeField_digits_append hdigits hrest

theorem takeFraction_point {digits : List Char} (hdigits : IsNumber 9 digits) :
    takeFraction ('.' :: digits) =
      some (Nat.ofDigitChars 10 digits 0 * 10 ^ (9 - digits.length), []) := by
  have hspan : spanDigits 9 digits = (digits, []) := by
    rw [← spanDigits_append hdigits.isDigit hdigits.length_le noDigitAhead_nil, List.append_nil]
  rw [takeFraction, hspan]
  split
  · next heq => exact absurd (Prod.mk.inj heq).1 hdigits.ne_nil
  · next heq =>
      obtain ⟨rfl, rfl⟩ := Prod.mk.inj heq
      rw [ofDigits_eq_ofDigitChars]
      rfl

theorem takeFraction_zeroPadded {places n : Nat} (hpos : 0 < places) (hplaces : places ≤ 9)
    (hn : n < 10 ^ places) :
    takeFraction ("." ++ zeroPadded places n).toList = some (n * 10 ^ (9 - places), []) := by
  obtain ⟨hdigits, hlength, hvalue⟩ := isNumber_zeroPadded hpos hn
  rw [String.toList_append]
  refine (takeFraction_point ⟨hdigits.ne_nil, by omega, hdigits.isDigit⟩).trans ?_
  rw [hlength, hvalue]

/-- As many places as a fraction needs are enough to read it. -/
theorem takeFraction_fractionText {nanos : Nat} (h : nanos < nanosPerSecond) :
    takeFraction (fractionText nanos).toList = some (nanos, []) := by
  unfold nanosPerSecond at h
  unfold fractionText
  split
  · next hzero => rw [hzero]; rfl
  · split
    · rw [takeFraction_zeroPadded (by omega) (by omega) (by omega)]
      congr 2
      omega
    · split
      · rw [takeFraction_zeroPadded (by omega) (by omega) (by omega)]
        congr 2
        omega
      · rw [takeFraction_zeroPadded (by omega) (by omega) (by omega)]
        congr 2
        omega

theorem noDigitAhead_fractionText (nanos : Nat) : NoDigitAhead (fractionText nanos).toList := by
  unfold fractionText NoDigitAhead
  split_ifs <;> simp

theorem readSeconds?_append {digits : List Char} {nanos : Nat} (hdigits : IsNumber 2 digits)
    (hnanos : nanos < nanosPerSecond) :
    readSeconds? (':' :: (digits ++ (fractionText nanos).toList)) =
      some (Nat.ofDigitChars 10 digits 0, nanos) := by
  rw [readSeconds?, takeColonField_append hdigits (noDigitAhead_fractionText nanos)]
  change (takeFraction (fractionText nanos).toList).bind _ = _
  rw [takeFraction_fractionText hnanos]
  rfl

/-- Fields of two digits and a fraction are read as what they are. -/
theorem ofText?_fields {hour minute second nanos : Nat} (hhour : hour < 10 ^ 2)
    (hminute : minute < 10 ^ 2) (hsecond : second < 10 ^ 2) (hnanos : nanos < nanosPerSecond) :
    ofText? (zeroPadded 2 hour ++ ":" ++ zeroPadded 2 minute ++ ":" ++ zeroPadded 2 second ++
      fractionText nanos) = of? hour minute second nanos := by
  obtain ⟨hhour, -, hhour'⟩ := isNumber_zeroPadded (by decide) hhour
  obtain ⟨hminute, -, hminute'⟩ := isNumber_zeroPadded (by decide) hminute
  obtain ⟨hsecond, -, hsecond'⟩ := isNumber_zeroPadded (by decide) hsecond
  have hcolon (cs : List Char) : NoDigitAhead (':' :: cs) := noDigitAhead_cons rfl
  have htext : (zeroPadded 2 hour ++ ":" ++ zeroPadded 2 minute ++ ":" ++ zeroPadded 2 second ++
      fractionText nanos).toList = (zeroPadded 2 hour).toList ++
        ':' :: ((zeroPadded 2 minute).toList ++
          ':' :: ((zeroPadded 2 second).toList ++ (fractionText nanos).toList)) := by
    simp
  have hmore (cs : List Char) : ¬ (':' :: cs).all isBlank = true := by
    rw [List.all_cons, show isBlank ':' = false from rfl]
    exact Bool.false_ne_true
  rw [ofText?, htext, takeField_digits_append hhour (hcolon _), hhour', Option.bind_eq_bind,
    Option.bind_some]
  dsimp only
  rw [takeColonField_append hminute (hcolon _), hminute', Option.bind_some]
  dsimp only
  rw [if_neg (hmore _), readSeconds?_append hsecond hnanos, hsecond', Option.bind_eq_bind,
    Option.bind_some]

/-- **A written time is read back**, unless it leaps within a minute. -/
theorem ofText?_toText {t : TimeOfDay} (h : t.LeapsAtMinuteEnd) : ofText? t.toText = some t := by
  have hhour : t.hour < 10 ^ 2 := by unfold hour; omega
  have hsecond : t.writtenSecond < 10 ^ 2 := Nat.lt_of_le_of_lt t.writtenSecond_le (by decide)
  calc
    ofText? t.toText = of? t.hour (t.second.val / 60 % 60) t.writtenSecond
        (t.nanos.val % nanosPerSecond) :=
      ofText?_fields hhour (by omega) hsecond (Nat.mod_lt _ (by decide))
    _ = some t := of?_written h

end TimeOfDay

end AttrFederation
