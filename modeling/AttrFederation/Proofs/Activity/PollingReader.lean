import AttrFederation.Activity.Gate
import AttrFederation.Proofs.Activity.AchievesAt
import Mathlib.Data.Set.Basic
import Mathlib.Order.Nat

/-!
# Readers that wait

A reader that waits for a refresh looks at the flag again and again.  How the flag goes up and down
meanwhile is a schedule (`Gate.Schedule`), and any schedule is possible.  The reader reads at its
first look for which the flag is down or the time is up (`Gate.LastLook`).

Main result: `Gate.readWhenIdle_reads`, when it reads, how long it can have waited, and when it
reads although the flag is up.  The time between two looks is the poll interval, but no longer than
any wait can be (`not_readsAtPolls_of_longer`).
-/

namespace AttrFederation

namespace Gate

variable {σ β : Type} {flag : Field σ Bool}

/-- How others change the state as time goes by, and the flag with it. -/
structure Schedule (flag : Field σ Bool) where
  /-- When the flag is up. -/
  up : Nat → Bool
  /-- What can have become of a state by a time. -/
  Change : Nat → σ → σ → Prop
  get_eq : ∀ {time s s'}, Change time s s' → flag.get s' = up time
  trans : ∀ {time time' s₁ s₂ s₃}, Change time s₁ s₂ → Change time' s₂ s₃ → Change time' s₁ s₃

/-- Others do nothing but raise and lower the flag. -/
def Schedule.flagOnly (flag : Field σ Bool) (up : Nat → Bool) : Schedule flag where
  up := up
  Change time s s' := s' = flag.set (up time) s
  get_eq := by
    rintro _ _ _ rfl
    exact flag.get_set _ _
  trans := by
    rintro _ _ _ _ _ rfl rfl
    exact flag.set_set _ _ _

theorem Schedule.flagOnly_serial (up : Nat → Bool) (time : Nat) (s : σ) :
    ∃ s', (flagOnly flag up).Change time s s' :=
  ⟨_, rfl⟩

/-- The first look, of those at some time and then every `poll` milliseconds, that finds the flag
down or comes when the reader has waited for the time-out. -/
def LastLook (up : Nat → Bool) (poll timeout time waited look : Nat) : Prop :=
  IsLeast {k | up (time + k * poll) = false ∨ timeout ≤ waited + k * poll} look

section LastLook

variable {up : Nat → Bool} {poll timeout time waited look : Nat}

/-- When a look is the last one, there is none after it. -/
theorem LastLook.eq_zero (h : LastLook up poll timeout time waited look)
    (hlast : up time = false ∨ timeout ≤ waited) : look = 0 :=
  Nat.le_zero.mp (h.2 (by simpa using hlast))

/-- When a look is not the last one, there is another one after the poll interval. -/
theorem LastLook.exists_succ (h : LastLook up poll timeout time waited look)
    (hup : up time = true) (hmore : ¬ timeout ≤ waited) :
    ∃ next, look = next + 1 ∧ LastLook up poll timeout (time + poll) (waited + poll) next := by
  have hshift : ∀ a k, a + poll + k * poll = a + (k + 1) * poll := fun a k => by
    rw [Nat.succ_mul]
    omega
  cases look with
  | zero =>
      have hnow : up time = false ∨ timeout ≤ waited := by simpa using h.1
      simp [hup, hmore] at hnow
  | succ next =>
      refine ⟨next, rfl, ?_, fun k hk => ?_⟩
      · simpa only [Set.mem_ofPred_eq, hshift] using h.1
      · simp only [Set.mem_ofPred_eq, hshift] at hk
        exact Nat.le_of_succ_le_succ (h.2 hk)

/-- There is a last look: at the latest it is the one at which the looks of a reader end. -/
theorem exists_lastLook (up : Nat → Bool) (timeout time : Nat) (hpoll : 0 < poll) :
    ∃ look, LastLook up poll timeout time 0 look := by
  have hover : timeout ≤ 0 + pollsWithin poll timeout * poll :=
    Nat.le_add_left_of_le (le_pollsWithin_mul timeout hpoll)
  exact ⟨_, Nat.isLeast_find (p := fun k => up (time + k * poll) = false ∨ timeout ≤ 0 + k * poll)
    ⟨_, .inr hover⟩⟩

/-- The wait is over less than one poll interval after the time-out. -/
theorem LastLook.lt (h : LastLook up poll timeout time 0 look) (hpoll : 0 < poll) :
    look * poll < timeout + poll := by
  cases look with
  | zero => omega
  | succ before =>
      have hbefore : ¬ (up (time + before * poll) = false ∨ timeout ≤ 0 + before * poll) :=
        fun hk => Nat.not_succ_le_self before (h.2 hk)
      rw [Nat.succ_mul]
      omega

end LastLook

/-! ## The rule -/

theorem achievesAt_readOr {R : Nat → σ → σ → Prop} {read : σ → β × σ}
    {otherwise : Unit → Activity σ β} {s : σ} {time : Nat} {P : β → σ → Nat → Prop} :
    (readOr flag read otherwise).AchievesAt R s time P ↔ ∀ s', R time s s' →
      if flag.get s' then (otherwise ()).AchievesAt R s' time P
      else P (read s').1 (read s').2 time := by
  refine Activity.achievesAt_bind.trans (Activity.achievesAt_modifyGet.trans ?_)
  refine forall_congr' fun s' => imp_congr_right fun _ => ?_
  unfold tryRead
  cases flag.get s' with
  | false => rfl
  | true => rfl

/-- **Looks at a flag** end at the last one, with what a read comes to in a state at that time.  The
induction is on the looks that are left, which are enough to reach the time-out. -/
theorem achievesAt_readPolling (schedule : Schedule flag) {poll timeout : Nat} {read : σ → β × σ}
    (hpoll : Activity.waitTime poll = poll) {polls waited time look : Nat} {s : σ}
    (hlook : LastLook schedule.up poll timeout time waited look)
    (hpolls : timeout ≤ waited + polls * poll) :
    (readPolling flag poll timeout read polls waited).AchievesAt schedule.Change s time
      fun b t time' => time' = time + look * poll ∧
        ∃ s', schedule.Change time' s s' ∧ read s' = (b, t) := by
  induction polls generalizing waited time look s with
  | zero =>
      obtain rfl := hlook.eq_zero (.inr (by simpa using hpolls))
      refine achievesAt_readOr.mpr fun s' hs' => ?_
      split
      · exact fun s'' hs'' => ⟨by simp, s'', schedule.trans hs' hs'', rfl⟩
      · exact ⟨by simp, s', hs', rfl⟩
  | succ polls ih =>
      refine achievesAt_readOr.mpr fun s' hs' => ?_
      rw [schedule.get_eq hs']
      split
      · next hup =>
          split
          · next hover =>
              obtain rfl := hlook.eq_zero (.inr hover)
              exact fun s'' hs'' => ⟨by simp, s'', schedule.trans hs' hs'', rfl⟩
          · next hmore =>
              obtain ⟨look, rfl, hnext⟩ := hlook.exists_succ hup hmore
              intro s'' hs''
              rw [hpoll] at hs'' ⊢
              refine (ih hnext ?_).mono ?_
              · rw [Nat.succ_mul] at hpolls
                omega
              · rintro b t time' ⟨rfl, u, hu, hread⟩
                refine ⟨?_, u, schedule.trans hs' (schedule.trans hs'' hu), hread⟩
                rw [Nat.succ_mul]
                omega
      · next hdown =>
          obtain rfl := hlook.eq_zero (.inl (by simpa using hdown))
          exact ⟨by simp, s', hs', rfl⟩

/-! ## The reader -/

/-- The read of a reader is at the last of its looks, which are `lookInterval` apart. -/
theorem achievesAt_readWhenIdle (schedule : Schedule flag) (poll : Nat) {timeout start look : Nat}
    {read : σ → β × σ} (hlook : LastLook schedule.up (lookInterval poll) timeout start 0 look)
    (s : σ) :
    (readWhenIdle flag poll timeout read).AchievesAt schedule.Change s start
      fun b t time => time = start + look * lookInterval poll ∧
        ∃ s', schedule.Change time s s' ∧ read s' = (b, t) :=
  achievesAt_readPolling schedule (waitTime_lookInterval poll) hlook
    (Nat.le_add_left_of_le (le_pollsWithin_mul timeout (lookInterval_pos poll)))

/-- **A reader that waits**, with looks at a time and then every poll interval, as far as it can
wait so long, reads just once, at the first of them that finds the flag down or comes when the
time-out has passed.  So it has waited for less than the time-out and one interval, and it reads
while the flag is up only after the time-out. -/
theorem readWhenIdle_reads (schedule : Schedule flag) (poll timeout start : Nat)
    (read : σ → β × σ) (s : σ) (hpoll : 0 < poll) :
    ∃ k, IsLeast {k | schedule.up (start + k * Activity.waitTime poll) = false ∨
        timeout ≤ k * Activity.waitTime poll} k ∧
      k * Activity.waitTime poll < timeout + Activity.waitTime poll ∧
      (readWhenIdle flag poll timeout read).AchievesAt schedule.Change s start fun b t time =>
        time = start + k * Activity.waitTime poll ∧
          (∃ s', schedule.Change time s s' ∧ read s' = (b, t)) ∧
          (schedule.up time = true → timeout ≤ time - start) := by
  rw [← lookInterval_of_pos hpoll]
  obtain ⟨k, hk⟩ := exists_lastLook schedule.up timeout start (lookInterval_pos poll)
  refine ⟨k, by simpa [LastLook] using hk, hk.lt (lookInterval_pos poll), ?_⟩
  refine (achievesAt_readWhenIdle schedule poll hk s).mono ?_
  rintro b t _ ⟨rfl, hread⟩
  refine ⟨rfl, hread, fun hup => ?_⟩
  have hover : timeout ≤ 0 + k * lookInterval poll := hk.1.resolve_left (by simp [hup])
  omega

/-- The flag goes down between the fifth look and the sixth. -/
theorem readWhenIdle_reads_sixthLook :
    (readWhenIdle Field.whole 20 60000 fun up => (up, up)).AchievesAt
      (Schedule.flagOnly Field.whole fun time => decide (10 ≤ time ∧ time < 105)).Change false 20
        fun up _ time => up = false ∧ time = 120 := by
  obtain ⟨k, hk, -, hreads⟩ :=
    readWhenIdle_reads (Schedule.flagOnly Field.whole fun time => decide (10 ≤ time ∧ time < 105))
      20 60000 20 (fun up => (up, up)) false (by decide)
  have hwait : Activity.waitTime 20 = 20 := rfl
  simp only [hwait, Schedule.flagOnly] at hk hreads
  obtain rfl : k = 5 := by
    have hle : k ≤ 5 := hk.2 (by simp)
    have hmem := hk.1
    simp at hmem
    omega
  refine hreads.mono ?_
  rintro up _ _ ⟨rfl, ⟨_, rfl, hread⟩, -⟩
  exact ⟨(congrArg Prod.fst hread).symm, rfl⟩

/-- The reader reads just at its last look when its looks are one poll interval apart. -/
def ReadsAtPolls (schedule : Schedule flag) (poll timeout start : Nat) (read : σ → β × σ) (s : σ) :
    Prop :=
  ∃ k, IsLeast {k | schedule.up (start + k * poll) = false ∨ timeout ≤ k * poll} k ∧
    (readWhenIdle flag poll timeout read).AchievesAt schedule.Change s start fun _ _ time =>
      time = start + k * poll

/-- One second more than the longest wait is not waited for in full. -/
theorem not_readsAtPolls_of_longer :
    ¬ ReadsAtPolls (Schedule.flagOnly Field.whole fun time => decide (10 ≤ time ∧ time < 1010))
      946080001000 1 20 (fun up => (up, up)) true := by
  rintro ⟨k, hk, hreads⟩
  have hwait : lookInterval 946080001000 = 946080000000 := rfl
  obtain ⟨look, hlook⟩ := exists_lastLook _ 1 20 (lookInterval_pos 946080001000)
  obtain ⟨_, _, _, rfl, htime, -⟩ := (hreads.and
    (achievesAt_readWhenIdle _ _ hlook true)).exists_end (Schedule.flagOnly_serial _)
  have hlt := hlook.lt (lookInterval_pos 946080001000)
  have hsome : k ≠ 0 := by
    rintro rfl
    simpa [Schedule.flagOnly] using hk.1
  rw [hwait] at hlt htime
  omega

end Gate

end AttrFederation
