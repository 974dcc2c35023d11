import AttrFederation.Scheduler
import Mathlib.Algebra.Ring.Int.Defs

/-!
# The first refresh of the backend

Instants outside leap seconds lie on a line: `Instant.later` goes on along it, and `Instant.since`
is how far it has gone (`since_later`, `later_since`).  The hours that `Scheduler.firstDelay`
compares decide on which day the purge time is next.

Main result: `Scheduler.firstDelay_earliest`.
-/

namespace AttrFederation

/-- Nanoseconds in a day. -/
def nanosPerDay : Nat := 86400 * nanosPerSecond

/-! ## Times of day -/

namespace TimeOfDay

/-- Nanoseconds since the day began. -/
def sinceMidnight (t : TimeOfDay) : Nat :=
  t.second.val * nanosPerSecond + t.nanos.val

/-- The time so many nanoseconds after a day began, on that day or a later one. -/
def afterMidnight (nanos : Nat) : TimeOfDay :=
  ⟨⟨nanos / nanosPerSecond % 86400, Nat.mod_lt _ (by decide)⟩,
    ⟨nanos % nanosPerSecond, Nat.lt_trans (Nat.mod_lt _ (by decide)) (by decide)⟩⟩

theorem inLeapSecond_afterMidnight (nanos : Nat) : (afterMidnight nanos).inLeapSecond = false :=
  decide_eq_false (Nat.not_le_of_lt (Nat.mod_lt _ (by decide)))

theorem sinceMidnight_afterMidnight (nanos : Nat) :
    (afterMidnight nanos).sinceMidnight = nanos % nanosPerDay := by
  simp only [sinceMidnight, afterMidnight, nanosPerDay, nanosPerSecond]
  omega

variable {t : TimeOfDay}

theorem nanos_lt (h : t.inLeapSecond = false) : t.nanos.val < nanosPerSecond :=
  Nat.lt_of_not_le (of_decide_eq_false h)

theorem sinceMidnight_lt (h : t.inLeapSecond = false) : t.sinceMidnight < nanosPerDay := by
  have hnanos := nanos_lt h
  have hsecond := t.second.isLt
  simp only [sinceMidnight, nanosPerDay, nanosPerSecond] at *
  omega

theorem afterMidnight_sinceMidnight (h : t.inLeapSecond = false) (days : Nat) :
    afterMidnight (t.sinceMidnight + days * nanosPerDay) = t := by
  have hnanos := nanos_lt h
  have hsecond := t.second.isLt
  obtain ⟨⟨second, _⟩, ⟨nanos, _⟩⟩ := t
  simp only [afterMidnight, sinceMidnight, nanosPerDay, nanosPerSecond, TimeOfDay.mk.injEq,
    Fin.ext_iff] at *
  omega

/-- The hour tells the time within an hour. -/
theorem hour_eq_div (h : t.inLeapSecond = false) :
    t.hour = t.sinceMidnight / (3600 * nanosPerSecond) := by
  have hnanos := nanos_lt h
  simp only [hour, sinceMidnight, nanosPerSecond] at *
  omega

end TimeOfDay

/-! ## Instants -/

namespace Instant

/-- The instant so many nanoseconds later, when neither lies in a leap second. -/
def later (i : Instant) (nanos : Nat) : Instant :=
  ⟨i.day + ((i.time.sinceMidnight + nanos) / nanosPerDay : Nat),
    .afterMidnight (i.time.sinceMidnight + nanos)⟩

variable {i j : Instant}

/-- Outside leap seconds, all days are as long. -/
theorem since_eq (hi : i.time.inLeapSecond = false) (hj : j.time.inLeapSecond = false) :
    j.since i = (j.day - i.day) * nanosPerDay + (j.time.sinceMidnight - i.time.sinceMidnight) := by
  have happart : secondsApart j.time i.time = (j.time.second.val : Int) - i.time.second.val := by
    simp [secondsApart, hi, hj]
  rw [since, happart]
  simp only [TimeOfDay.sinceMidnight, nanosPerDay, nanosPerSecond]
  omega

theorem since_later (hi : i.time.inLeapSecond = false) (nanos : Nat) :
    (i.later nanos).since i = nanos := by
  rw [since_eq hi (TimeOfDay.inLeapSecond_afterMidnight _)]
  simp only [later, TimeOfDay.sinceMidnight_afterMidnight]
  simp only [nanosPerDay, nanosPerSecond]
  omega

theorem later_since (hi : i.time.inLeapSecond = false) (hj : j.time.inLeapSecond = false)
    {nanos : Nat} (h : j.since i = nanos) : i.later nanos = j := by
  have hlt := TimeOfDay.sinceMidnight_lt hj
  rw [since_eq hi hj] at h
  obtain ⟨days, hnanos, hday⟩ : ∃ days : Nat,
      i.time.sinceMidnight + nanos = j.time.sinceMidnight + days * nanosPerDay ∧
      i.day + days = j.day := by
    refine ⟨(j.day - i.day).toNat, ?_⟩
    simp only [nanosPerDay, nanosPerSecond] at *
    omega
  rw [later, hnanos, TimeOfDay.afterMidnight_sinceMidnight hj,
    Nat.add_mul_div_right _ _ (by decide), Nat.div_eq_of_lt hlt, Nat.zero_add, hday]

end Instant

/-! ## The delay -/

namespace Scheduler

variable {now : Instant} {time : TimeOfDay}

section FirstDue

variable (hnow : now.time.inLeapSecond = false) (htime : time.inLeapSecond = false)

include hnow htime

theorem since_firstDue : (firstDue now time).since now =
    (if now.time.hour ≤ time.hour then 0 else nanosPerDay : Nat) +
      (time.sinceMidnight - now.time.sinceMidnight) := by
  unfold firstDue
  split
  · rw [Instant.since_eq hnow htime]
    simp
  · rw [Instant.since_eq hnow htime, add_sub_cancel_left, one_mul]

/-- The first refresh is due within a day, and it is overdue just if its time has passed within this
hour. -/
theorem since_firstDue_lt : (firstDue now time).since now < nanosPerDay ∧
    (0 ≤ (firstDue now time).since now ↔
      ¬ (now.time.hour = time.hour ∧ time.sinceMidnight < now.time.sinceMidnight)) := by
  have hnowlt := TimeOfDay.sinceMidnight_lt hnow
  have htimelt := TimeOfDay.sinceMidnight_lt htime
  rw [since_firstDue hnow htime, TimeOfDay.hour_eq_div hnow, TimeOfDay.hour_eq_div htime]
  -- Of two times in different hours the hours tell which one is earlier.
  split
  all_goals
    simp only [nanosPerDay, nanosPerSecond] at *
    omega

/-- No instant from now on at the purge time is before the one at which the refresh is due. -/
theorem since_firstDue_le {due : Instant} (hdue : due.time = time) (hlater : 0 ≤ due.since now) :
    (firstDue now time).since now ≤ due.since now := by
  have hnowlt := TimeOfDay.sinceMidnight_lt hnow
  have htimelt := TimeOfDay.sinceMidnight_lt htime
  subst hdue
  rw [Instant.since_eq hnow htime] at hlater ⊢
  rw [since_firstDue hnow htime, TimeOfDay.hour_eq_div hnow, TimeOfDay.hour_eq_div htime]
  -- Two instants at one time of day are whole days apart, and `due` is not before today.
  split
  all_goals
    simp only [nanosPerDay, nanosPerSecond] at *
    omega

end FirstDue

/-- **The delay to the first refresh** is less than a day.  After it comes the first instant, from
now on, at the purge time; but within the hour of that time, once it has passed, there is no
delay. -/
theorem firstDelay_earliest (now : Instant) (time : TimeOfDay)
    (hnow : now.time.inLeapSecond = false) (htime : time.inLeapSecond = false) :
    firstDelay now (some time) < nanosPerDay ∧
      if now.time.hour = time.hour ∧ time.sinceMidnight < now.time.sinceMidnight then
        firstDelay now (some time) = 0
      else
        (now.later (firstDelay now (some time))).time = time ∧
          ∀ due : Instant, due.time = time → 0 ≤ due.since now →
            firstDelay now (some time) ≤ due.since now := by
  obtain ⟨hlt, hdue⟩ := since_firstDue_lt hnow htime
  have hdelay : firstDelay now (some time) = ((firstDue now time).since now).toNat := rfl
  have hpos : 0 < nanosPerDay := by decide
  refine ⟨by omega, ?_⟩
  split
  · next hpassed => omega
  · next hahead =>
      have hsince : (firstDue now time).since now = firstDelay now (some time) := by omega
      have hfirst : (firstDue now time).time = time := by
        unfold firstDue
        split <;> rfl
      rw [Instant.later_since hnow (by rwa [hfirst]) hsince, ← hsince]
      exact ⟨hfirst, fun due => since_firstDue_le hnow htime⟩

/-- From half a second before midnight at the end of a February to a quarter of a second after. -/
theorem firstDelay_earliest_leapDay :
    firstDelay ⟨Instant.dayNumber 2024 2 29, ⟨86399, 500000000⟩⟩ (some ⟨0, 250000000⟩) = 750000000 ∧
      Instant.later ⟨Instant.dayNumber 2024 2 29, ⟨86399, 500000000⟩⟩ 750000000 =
        ⟨Instant.dayNumber 2024 3 1, ⟨0, 250000000⟩⟩ ∧
      ∀ due : Instant, due.time = ⟨0, 250000000⟩ →
        0 ≤ due.since ⟨Instant.dayNumber 2024 2 29, ⟨86399, 500000000⟩⟩ →
        750000000 ≤ due.since ⟨Instant.dayNumber 2024 2 29, ⟨86399, 500000000⟩⟩ := by
  have hdelay : firstDelay ⟨Instant.dayNumber 2024 2 29, ⟨86399, 500000000⟩⟩
      (some ⟨0, 250000000⟩) = 750000000 := by decide
  have hfirst := (firstDelay_earliest ⟨Instant.dayNumber 2024 2 29, ⟨86399, 500000000⟩⟩
    ⟨0, 250000000⟩ (by decide) (by decide)).2
  rw [if_neg (by decide), hdelay] at hfirst
  exact ⟨hdelay, by decide, hfirst.2⟩

end Scheduler

end AttrFederation
