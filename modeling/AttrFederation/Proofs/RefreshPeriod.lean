import AttrFederation.Proofs.Numeral
import AttrFederation.Proofs.Properties
import AttrFederation.Scheduler

/-!
# The period of directory refreshes

The directory is refreshed at the period that a property states.  A job with the period zero ends
before it refreshes anything, and `0` as the whole value asks for no job; but a count of zero before
a unit is a period too, and it is zero (`Text.StatesZero`).

Main result: `Settings.pos_refreshPeriod_iff`.
-/

namespace AttrFederation

/-! ## Texts that state zero -/

namespace Text

/-- One or more zeros after an optional plus sign. -/
def IsZero (cs : List Char) : Prop :=
  ∃ zeros, zeros ≠ [] ∧ (∀ c ∈ zeros, c = '0') ∧ (cs = zeros ∨ cs = '+' :: zeros)

/-- A count of zero before an underscore, with anything after it. -/
def StatesZero (s : String) : Prop :=
  ∃ count blanks unit, IsZero count ∧ (∀ c ∈ blanks, isBlank c = true) ∧
    s.toList = count ++ blanks ++ '_' :: unit

/-- Digits that stand for zero are zeros. -/
theorem ofDigitChars_eq_zero_iff {digits : List Char} (h : ∀ c ∈ digits, c.isDigit = true)
    {value : Nat} :
    Nat.ofDigitChars 10 digits value = 0 ↔ value = 0 ∧ ∀ c ∈ digits, c = '0' := by
  induction digits generalizing value with
  | nil => simp
  | cons c digits ih =>
      rw [List.forall_mem_cons] at h
      have hzero : c.toNat - '0'.toNat = 0 ↔ c = '0' := by
        rw [← Char.toNat_inj]
        have := (Char.isDigit_iff_toNat.mp h.1).1
        omega
      rw [Nat.ofDigitChars_cons, ih h.2, List.forall_mem_cons, ← hzero, ← and_assoc]
      exact and_congr_left fun _ => by omega

theorem denotes_zero_iff {s : String} : Denotes s 0 ↔ IsZero s.toList := by
  constructor
  · rintro ⟨digits, hne, hdigits, hvalue, htext⟩
    exact ⟨digits, hne, ((ofDigitChars_eq_zero_iff hdigits).mp hvalue).2, htext⟩
  · rintro ⟨zeros, hne, hzeros, htext⟩
    have hdigits : ∀ c ∈ zeros, c.isDigit = true := fun c hc => hzeros c hc ▸ rfl
    exact ⟨zeros, hne, hdigits, (ofDigitChars_eq_zero_iff hdigits).mpr ⟨rfl, hzeros⟩, htext⟩

theorem readUInt64?_eq_some_zero_iff {s : String} : readUInt64? s = some 0 ↔ IsZero s.toList :=
  readUInt64?_eq_some_iff.trans denotes_zero_iff

/-- A number does not end with a blank. -/
theorem trimEndChars_of_isZero {cs : List Char} (h : IsZero cs) : trimEndChars cs = cs := by
  refine List.rdropWhile_eq_self_iff.mpr fun hcs => ?_
  have hlast : cs.getLast hcs = '0' := by
    obtain ⟨zeros, hne, hzeros, rfl | rfl⟩ := h
    · exact hzeros _ (List.getLast_mem hcs)
    · rw [List.getLast_cons hne]
      exact hzeros _ (List.getLast_mem hne)
  rw [hlast]
  decide

theorem notMem_of_isZero {cs : List Char} (h : IsZero cs) : '_' ∉ cs := by
  intro hmem
  obtain ⟨zeros, -, hzeros, rfl | rfl⟩ := h
  · exact absurd (hzeros _ hmem) (by decide)
  · rcases List.mem_cons.mp hmem with hplus | hmem
    · exact absurd hplus (by decide)
    · exact absurd (hzeros _ hmem) (by decide)

/-- In a trimmed text the count is all that stands before the first underscore. -/
theorem statesZero_iff {s : String} (hs : trim s = s) :
    StatesZero s ↔
      ∃ count unit, cutAtFirst '_' s = some (count, unit) ∧ IsZero (trim count).toList := by
  -- The text does not begin with a blank, so neither does the count: it is trimmed at its end.
  have hstart : trimStartChars s.toList = s.toList := by
    have htrim := trimStartChars_trimChars s.toList
    rwa [← String.toList_ofList (l := trimChars s.toList), ← trim, hs] at htrim
  have hcount : ∀ before after, s.toList = before ++ '_' :: after →
      (trim (String.ofList before)).toList = trimEndChars before := by
    intro before after hcut
    have hbefore : trimStartChars before = before :=
      trimStartChars_of_prefix ⟨_, hcut.symm⟩ hstart
    rw [trim, String.toList_ofList, String.toList_ofList, trimChars, hbefore]
  constructor
  · rintro ⟨count, blanks, unit, hzero, hblanks, hcut⟩
    have hmem : '_' ∉ count ++ blanks := by
      rw [List.mem_append, not_or]
      exact ⟨notMem_of_isZero hzero, fun h => absurd (hblanks _ h) (by decide)⟩
    refine ⟨String.ofList (count ++ blanks), String.ofList unit, ?_, ?_⟩
    · rw [cutAtFirst, cutCharsAtFirst_eq_some_iff.mpr ⟨hcut, hmem⟩, Option.map_some]
    · rwa [hcount _ _ hcut,
        (trimEndChars_eq_iff (trimEndChars_of_isZero hzero)).mpr ⟨blanks, hblanks, rfl⟩]
  · rintro ⟨count, unit, hcut, hzero⟩
    obtain ⟨⟨before, after⟩, hbefore, ⟨⟩⟩ := Option.map_eq_some_iff.mp hcut
    obtain ⟨hcut, -⟩ := cutCharsAtFirst_eq_some_iff.mp hbefore
    rw [hcount _ _ hcut] at hzero
    obtain ⟨blanks, hblanks, heq⟩ :=
      (trimEndChars_eq_iff (trimEndChars_of_isZero hzero)).mp rfl
    exact ⟨_, blanks, after, hzero, hblanks, by rw [← heq, hcut]⟩

end Text

/-! ## Times to live of zero -/

namespace TimeToLive

theorem unitSecs_pos (unit : String) : 0 < unitSecs unit := by
  unfold unitSecs daySecs
  split_ifs <;> omega

/-- A count of units is no time at all just if it is zero; it does not overflow to that. -/
theorem lifetime?_ofUnits (count : UInt64) {unitSecs : Nat} (h : 0 < unitSecs) :
    ∃ lifetime, (ofUnits count unitSecs).lifetime? = some lifetime ∧
      (lifetime.toNanos = 0 ↔ count = 0) := by
  refine ⟨_, rfl, ?_⟩
  have hlt : min (count.toNat * unitSecs) (UInt64.size - 1) < 2 ^ 64 :=
    Nat.lt_of_le_of_lt (Nat.min_le_right _ _) (by decide)
  have hcount : count = 0 ↔ count.toNat * unitSecs = 0 := by
    rw [← UInt64.toNat_inj, UInt64.toNat_zero, Nat.mul_eq_zero]
    omega
  rw [hcount, Span.toNanos, Span.ofSecs, UInt64.toNat_ofNat', Nat.mod_eq_of_lt hlt]
  simp only [nanosPerSecond, UInt64.size]
  omega

/-- The word for an infinite time to live has no underscore. -/
theorem cutAtFirst_of_infinite {s : String} (h : Text.asciiEq s "INFINITE" = true) :
    Text.cutAtFirst '_' s = none := by
  rw [Text.cutAtFirst_eq_none_iff]
  intro hmem
  have hlower : '_' ∈ (Text.asciiLower s).toList := by
    rw [Text.asciiLower, String.toList_ofList]
    exact List.mem_map_of_mem hmem
  rw [Text.asciiEq_iff.mp h] at hlower
  exact absurd hlower (by decide)

/-- A text is a time to live of zero just if it has a count of zero before an underscore. -/
theorem lifetime?_ofText_eq_zero_iff {raw : String} (hraw : Text.trim raw = raw) :
    (∃ lifetime, (ofText raw).lifetime? = some lifetime ∧ lifetime.toNanos = 0) ↔
      Text.StatesZero raw := by
  rw [Text.statesZero_iff hraw, ofText, hraw]
  by_cases hinfinite : Text.asciiEq raw "INFINITE" = true
  · simp [hinfinite, cutAtFirst_of_infinite, lifetime?]
  · rw [if_neg hinfinite]
    cases hcut : Text.cutAtFirst '_' raw with
    | none =>
        have hday : (Span.ofSecs 86400).toNanos ≠ 0 := by decide
        simp [oneDay, lifetime?, hday]
    | some parts =>
        obtain ⟨count, unit⟩ := parts
        obtain ⟨lifetime, hlifetime, hzero⟩ := lifetime?_ofUnits
          ((Text.readUInt64? (Text.trim count)).getD 1) (unitSecs_pos (Text.trim unit))
        have hcount : (Text.readUInt64? (Text.trim count)).getD 1 = 0 ↔
            Text.IsZero (Text.trim count).toList := by
          rw [← Text.readUInt64?_eq_some_zero_iff]
          cases Text.readUInt64? (Text.trim count) <;> simp
        simp [hlifetime, hzero, hcount]

end TimeToLive

/-! ## The period -/

namespace Properties

/-- The period of directory refreshes is stated as a count of zero and a unit. -/
def StatesZeroPeriod (props : Properties) : Prop :=
  ∃ raw, props.get? "cache_refresh_period" = some raw ∧ Text.StatesZero raw

end Properties

namespace Settings

theorem readRefreshPeriod_eq_zero_iff (props : Properties) :
    (∃ period, readRefreshPeriod props = some period ∧ period.toNanos = 0) ↔
      props.StatesZeroPeriod := by
  unfold readRefreshPeriod Properties.StatesZeroPeriod
  cases hraw : props.get? "cache_refresh_period" with
  | none => simp
  | some raw =>
      have htrim := Properties.trim_of_get?_eq_some hraw
      simp only [Option.some.injEq, exists_eq_left',
        ← TimeToLive.lifetime?_ofText_eq_zero_iff htrim]
      split
      · next hzero =>
          have hday : (TimeToLive.ofText raw).lifetime? = some (.ofSecs 86400) := by
            subst hzero
            decide +kernel
          have hpos : (Span.ofSecs 86400).toNanos ≠ 0 := by decide
          simp [hday, hpos]
      · rfl

end Settings

namespace Scheduler

/-- The jobs have periods in which time passes if the directory is refreshed at such a period, or
not at all. -/
theorem forall_mem_jobs_pos_iff (s : Settings) (now : Instant) :
    (∀ job ∈ jobs s now, 0 < job.schedule.period) ↔
      ∀ period, s.directoryRefreshPeriod = some period → 0 < period.toNanos := by
  have hbackend : 0 < (backendJob s now).schedule.period := Nat.zero_lt_succ _
  have hdirectory : ∀ period : Span, 0 < (directoryJob period).schedule.period ↔
      0 < period.toNanos := by
    intro period
    simp only [directoryJob, Span.toMillis]
    omega
  have hfirst : ∀ job ∈ (if s.orgUnitMode = .purge then [backendJob s now] else []),
      0 < job.schedule.period := by
    split <;> simp [hbackend]
  rw [jobs, List.forall_mem_append, and_iff_right hfirst]
  cases s.directoryRefreshPeriod <;> simp [hdirectory]

end Scheduler

namespace Settings

/-- **The period of directory refreshes** that settings have is not zero, and no job has the period
zero, just if the property does not state a count of zero and a unit. -/
theorem pos_refreshPeriod_iff (props : Properties) :
    ((∀ period, (ofProperties props).directoryRefreshPeriod = some period → 0 < period.toNanos) ↔
        ¬ props.StatesZeroPeriod) ∧
      ∀ now, (∀ job ∈ Scheduler.jobs (ofProperties props) now, 0 < job.schedule.period) ↔
        ¬ props.StatesZeroPeriod := by
  have hperiod :
      (∀ period, (ofProperties props).directoryRefreshPeriod = some period → 0 < period.toNanos) ↔
        ¬ props.StatesZeroPeriod := by
    rw [← readRefreshPeriod_eq_zero_iff]
    simp only [ofProperties, not_exists, not_and, Nat.pos_iff_ne_zero]
  exact ⟨hperiod, fun now => (Scheduler.forall_mem_jobs_pos_iff _ now).trans hperiod⟩

/-- No seconds are a period. -/
theorem not_pos_refreshPeriod_of_zeroSecs :
    ¬ ∀ period, (ofProperties ⟨[("cache_refresh_period", "0_SECS")]⟩).directoryRefreshPeriod =
      some period → 0 < period.toNanos := by
  intro h
  have hzero : (ofProperties ⟨[("cache_refresh_period", "0_SECS")]⟩).directoryRefreshPeriod =
      some (.ofSecs 0) := by
    decide +kernel
  exact absurd (h _ hzero) (by decide)

end Settings

end AttrFederation
