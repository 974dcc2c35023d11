import AttrFederation.Proofs.Activity.AchievesAt
import AttrFederation.Total
import Mathlib.Order.Bounds.Basic
import Mathlib.Tactic.ByContra

/-!
# Attempts

An operation that is retried is called until an attempt settles it (`RetryPolicy.Settles`): an
attempt that succeeds, one that fails for good, or the last one that the policy allows.  The rule
for attempts is `achievesAt_attempts`, which follows them on a clock; without the clock it is
`achieves_attempts`.

What a policy does is said of an operation that notes the time of each of its calls (`CallLog`).
Main result: `RetryPolicy.execute_calls`, the number of the calls, when each of them is made, and
what they come to.  A pause lasts the interval, but no longer than any wait can
(`not_pausesInFull_of_longer`).
-/

namespace AttrFederation

namespace RetryPolicy

/-! ## The attempt that settles an operation -/

/-- Of attempts with these outcomes, the last one made with so many retries: the ones before fail
for reasons that may pass, and it does not, or there are no more retries. -/
def Settles {α : Type} (outcomes : Nat → Except SourceError α) (retries last : Nat) : Prop :=
  last ≤ retries ∧ (∀ i < last, ∃ e, outcomes i = .error e ∧ e.retryable = true) ∧
    (last = retries ∨ ∀ e, outcomes last = .error e → e.retryable = false)

section Settles

variable {α β : Type} {outcomes : Nat → Except SourceError α} {retries last : Nat}

theorem settles_zero (h : retries = 0 ∨ ∀ e, outcomes 0 = .error e → e.retryable = false) :
    Settles outcomes retries 0 :=
  ⟨Nat.zero_le _, fun i hi => absurd hi (Nat.not_lt_zero i), h.imp_left Eq.symm⟩

/-- After a failure that may pass there is one retry less. -/
theorem Settles.succ {e : SourceError} (hfirst : outcomes 0 = .error e) (he : e.retryable = true)
    (h : Settles (fun i => outcomes (i + 1)) retries last) :
    Settles outcomes (retries + 1) (last + 1) := by
  obtain ⟨hle, hbefore, hlast⟩ := h
  refine ⟨Nat.succ_le_succ hle, fun i hi => ?_, hlast.imp_left (congrArg (· + 1))⟩
  cases i with
  | zero => exact ⟨e, hfirst, he⟩
  | succ i => exact hbefore i (Nat.lt_of_succ_lt_succ hi)

/-- It is the first attempt that is the last one allowed, or that does not fail for a reason that
may pass. -/
theorem settles_iff_isLeast : Settles outcomes retries last ↔
    IsLeast {i | i = retries ∨ ∀ e, outcomes i = .error e → e.retryable = false} last := by
  constructor
  · rintro ⟨hle, hbefore, hlast⟩
    refine ⟨hlast, fun i hi => ?_⟩
    by_contra hlt
    obtain ⟨e, he, hretryable⟩ := hbefore i (Nat.lt_of_not_le hlt)
    rcases hi with rfl | hfinal
    · exact hlt hle
    · rw [hfinal e he] at hretryable
      contradiction
  · rintro ⟨hlast, hleast⟩
    refine ⟨hleast (.inl rfl), fun i hi => ?_, hlast⟩
    have hnot : ¬ ∀ e, outcomes i = .error e → e.retryable = false := fun hfinal =>
      Nat.not_le_of_lt hi (hleast (.inr hfinal))
    simpa using hnot

/-- Just one attempt settles. -/
theorem Settles.unique {other : Nat} (h : Settles outcomes retries last)
    (h' : Settles outcomes retries other) : last = other :=
  (settles_iff_isLeast.mp h).unique (settles_iff_isLeast.mp h')

theorem map_eq_error_iff {outcome : Except SourceError α} {f : α → β} {e : SourceError} :
    outcome.map f = .error e ↔ outcome = .error e := by
  cases outcome <;> simp [Except.map]

/-- What is made of a success does not matter. -/
theorem Settles.of_map {f : α → β} (h : Settles (fun i => (outcomes i).map f) retries last) :
    Settles outcomes retries last := by
  simpa only [Settles, map_eq_error_iff] using h

end Settles

/-! ## The rule -/

section Rule

variable {σ α : Type} {interval : Nat} {operation : Activity σ (Except SourceError α)}

/-- **Attempts** end with the outcome of the one that settles them.  `I n` says of a state and a
time that so many attempts were made, and `Q n` what the attempt after these leaves. -/
theorem achievesAt_attempts (outcomes : Nat → Except SourceError α) {R : Nat → σ → σ → Prop}
    {I Q : Nat → σ → Nat → Prop}
    (hoperation : ∀ n s time, I n s time → operation.AchievesAt R s time fun outcome t time' =>
      outcome = outcomes n ∧ Q n t time')
    (hagain : ∀ n e t t' time, outcomes n = .error e → Q n t time →
      R (time + Activity.waitTime interval) t t' → I (n + 1) t' (time + Activity.waitTime interval))
    (retries : Nat) {n : Nat} {s : σ} {time : Nat} (hs : I n s time) :
    (attempts interval operation retries).AchievesAt R s time fun outcome t time' =>
      ∃ last, Settles (fun i => outcomes (n + i)) retries last ∧ outcome = outcomes (n + last) ∧
        Q (n + last) t time' := by
  -- The attempt that settles the rest is one further on after a failure that may pass.
  induction retries generalizing n s time with
  | zero =>
      refine (hoperation n s time hs).mono fun outcome t time' h => ⟨0, settles_zero (.inl rfl), h⟩
  | succ retries ih =>
      refine Activity.achievesAt_bind.mpr ((hoperation n s time hs).mono ?_)
      rintro outcome t time' ⟨rfl, hQ⟩
      cases houtcome : outcomes n with
      | ok a =>
          have hnone : ∀ e, outcomes (n + 0) = .error e → e.retryable = false := by
            simp [houtcome]
          exact ⟨0, settles_zero (.inr hnone), houtcome.symm, hQ⟩
      | error e =>
          cases he : e.retryable with
          | false =>
              have hnone : ∀ e, outcomes (n + 0) = .error e → e.retryable = false := by
                simp [houtcome, he]
              simp only [he]
              exact ⟨0, settles_zero (.inr hnone), houtcome.symm, hQ⟩
          | true =>
              simp only [he, if_true]
              intro t' ht'
              refine (ih (hagain n e t t' time' houtcome hQ ht')).mono ?_
              rintro outcome u time'' ⟨last, hsettles, rfl, hlast⟩
              rw [Nat.add_right_comm] at hlast ⊢
              refine ⟨last + 1, .succ houtcome he ?_, rfl, hlast⟩
              simpa only [Nat.add_right_comm, ← Nat.add_assoc] using hsettles

/-- Attempts at any time. -/
theorem achieves_attempts {outcomes : Nat → Except SourceError α} {R : σ → σ → Prop}
    {I Q : Nat → σ → Prop}
    (hstable : ∀ n s s', I n s → R s s' → I n s')
    (hoperation : ∀ n s, I n s → operation.Achieves R s fun outcome t =>
      outcome = outcomes n ∧ Q n t)
    (hagain : ∀ n e t, outcomes n = .error e → Q n t → I (n + 1) t) (retries : Nat) {n : Nat}
    {s : σ} (hs : I n s) :
    (attempts interval operation retries).Achieves R s fun outcome t =>
      ∃ last, Settles (fun i => outcomes (n + i)) retries last ∧ outcome = outcomes (n + last) ∧
        Q (n + last) t := by
  refine (Activity.achieves_iff_achievesAt 0).mpr (achievesAt_attempts outcomes
    (I := fun n s _ => I n s) (Q := fun n t _ => Q n t) (fun n s time hs => ?_) ?_ retries hs)
  · exact (Activity.achieves_iff_achievesAt time).mp (hoperation n s hs)
  · exact fun n e t t' time he hQ ht' => hstable _ _ _ (hagain n e t he hQ) ht'

end Rule

/-! ## The counter -/

/-- How many retries there were so far. -/
abbrev Counter (policy : RetryPolicy) : Type :=
  { attempt : UInt32 // attempt ≤ policy.retries }

namespace Counter

variable {policy : RetryPolicy}

/-- Before the first retry. -/
def zero : policy.Counter :=
  ⟨0, UInt32.zero_le⟩

/-- One retry more, if there is one left. -/
def next (attempt : policy.Counter) (h : ¬ policy.retries ≤ attempt.val) : policy.Counter :=
  ⟨attempt.val + 1, by
    rw [UInt32.le_iff_toNat_le] at h ⊢
    have := policy.retries.toNat_lt
    rw [UInt32.toNat_add, UInt32.toNat_one, Nat.mod_eq_of_lt] <;> omega⟩

theorem toNat_next {attempt : policy.Counter} (h : ¬ policy.retries ≤ attempt.val) :
    (attempt.next h).val.toNat = attempt.val.toNat + 1 := by
  rw [UInt32.le_iff_toNat_le] at h
  have := policy.retries.toNat_lt
  rw [next, UInt32.toNat_add, UInt32.toNat_one, Nat.mod_eq_of_lt]
  omega

end Counter

variable {σ α : Type}

/-- The attempts as a loop that counts its retries. -/
def counting (policy : RetryPolicy) (operation : Activity σ (Except SourceError α))
    (attempt : policy.Counter) : Activity σ (Except SourceError α) :=
  operation.bind fun outcome =>
    match outcome with
    | .ok a => .done (.ok a)
    | .error e =>
      if e.retryable then
        if h : policy.retries ≤ attempt.val then .done (.error e)
        else .sleep policy.intervalMillis id (policy.counting operation (attempt.next h))
      else .done (.error e)
termination_by policy.retries.toNat - attempt.val.toNat
decreasing_by
  rw [Counter.toNat_next]
  rw [UInt32.le_iff_toNat_le] at h
  omega

theorem counting_eq_attempts (policy : RetryPolicy) (operation : Activity σ (Except SourceError α))
    (attempt : policy.Counter) :
    policy.counting operation attempt =
      attempts policy.intervalMillis operation (policy.retries.toNat - attempt.val.toNat) := by
  induction hleft : policy.retries.toNat - attempt.val.toNat generalizing attempt with
  | zero =>
      have hover : policy.retries ≤ attempt.val := by
        rw [UInt32.le_iff_toNat_le]
        omega
      rw [counting, attempts]
      refine (congrArg _ (funext fun outcome => ?_)).trans (Activity.bind_done operation)
      cases outcome with
      | ok a => rfl
      | error e => simp [hover]
  | succ left ih =>
      have hmore : ¬ policy.retries ≤ attempt.val := by
        rw [UInt32.le_iff_toNat_le]
        omega
      have hnext := ih (attempt.next hmore) (by rw [Counter.toNat_next]; omega)
      rw [counting, attempts]
      refine congrArg _ (funext fun outcome => ?_)
      cases outcome with
      | ok a => rfl
      | error e => simp only [hmore, dif_neg, not_false_eq_true, hnext]

/-- **The counter stays within the retries**: the attempts are made by a loop that counts from zero
and has no counter beyond them. -/
theorem execute_eq_counting (policy : RetryPolicy)
    (operation : Activity σ (Except SourceError α)) :
    policy.execute operation = policy.counting operation .zero := by
  rw [counting_eq_attempts]
  rfl

end RetryPolicy

/-! ## Calls at a clock -/

/-- A clock, and when an operation was called. -/
structure CallLog where
  clock : Nat := 0
  /-- The time of each call, the latest last. -/
  calls : List Nat := []

namespace CallLog

variable {α : Type}

/-- Nothing happens but that the clock goes on to a time. -/
def Ticks (time : Nat) (log log' : CallLog) : Prop :=
  log' = { log with clock := time }

/-- An operation that notes when it was called; each call takes its time and has its outcome. -/
def call (outcomes : Nat → Except SourceError α) (took : Nat → Nat) :
    Activity CallLog (Except SourceError α) :=
  .step (fun log => { log with calls := log.calls ++ [log.clock] }) fun log =>
    .sleep (took log.calls.length) id (.done (outcomes log.calls.length))

/-- How long the first calls take together. -/
def busy (took : Nat → Nat) (calls : Nat) : Nat :=
  total ((List.range calls).map fun i => Activity.waitTime (took i))

@[simp] theorem busy_zero (took : Nat → Nat) : busy took 0 = 0 := rfl

theorem busy_succ (took : Nat → Nat) (calls : Nat) :
    busy took (calls + 1) = busy took calls + Activity.waitTime (took calls) := by
  simp [busy, List.range_succ]

theorem ticks_serial (time : Nat) (log : CallLog) : ∃ log', Ticks time log log' :=
  ⟨_, rfl⟩

end CallLog

namespace RetryPolicy

variable {α : Type}

/-- When a call is made: after the calls before it, and after a pause for each of them. -/
def callTime (policy : RetryPolicy) (took : Nat → Nat) (start i : Nat) : Nat :=
  start + CallLog.busy took i + i * Activity.waitTime policy.intervalMillis

/-- The calls of an operation end with the one that settles it. -/
theorem execute_call (policy : RetryPolicy) (outcomes : Nat → Except SourceError α)
    (took : Nat → Nat) (start : Nat) :
    (policy.execute (CallLog.call outcomes took)).AchievesAt CallLog.Ticks {} start
      fun outcome log time => ∃ last, Settles outcomes policy.retries.toNat last ∧
        outcome = outcomes last ∧
        log.calls = (List.range (last + 1)).map (policy.callTime took start) ∧
        time = policy.callTime took start last + Activity.waitTime (took last) := by
  refine (achievesAt_attempts outcomes (n := 0)
    (I := fun n log time => log.calls = (List.range n).map (policy.callTime took start) ∧
      time = policy.callTime took start n)
    (Q := fun n log time => log.calls = (List.range (n + 1)).map (policy.callTime took start) ∧
      time = policy.callTime took start n + Activity.waitTime (took n)) ?_ ?_ _ ?_).mono ?_
  · rintro n log time ⟨hcalls, rfl⟩ _ rfl _ rfl
    simp [hcalls, List.range_succ, Activity.AchievesAt]
  · rintro n e log _ _ - ⟨hcalls, rfl⟩ rfl
    refine ⟨hcalls, ?_⟩
    simp only [callTime, CallLog.busy_succ, Nat.succ_mul]
    omega
  · simp [callTime]
  · rintro outcome log time ⟨last, hsettles, hrest⟩
    simp only [Nat.zero_add] at hsettles hrest
    exact ⟨last, hsettles, hrest⟩

/-- **What a policy does** with an operation of any outcomes and durations: the calls that it makes,
one more than its pauses, are those up to the first that succeeds, fails for good or is the last one
allowed; each pause comes before a call and lasts the interval, as far as a wait can; and the
outcome is that of the last call.  The counter is never beyond the retries. -/
theorem execute_calls (policy : RetryPolicy) (outcomes : Nat → Except SourceError α)
    (took : Nat → Nat) (start : Nat) :
    (∃ n, IsLeast {i | i = policy.retries.toNat ∨
          ∀ e, outcomes i = .error e → e.retryable = false} n ∧
        (policy.execute (CallLog.call outcomes took)).AchievesAt CallLog.Ticks {} start
          fun outcome log time => outcome = outcomes n ∧
            log.calls = (List.range (n + 1)).map (policy.callTime took start) ∧
            time = start + CallLog.busy took (n + 1) +
              n * Activity.waitTime policy.intervalMillis) ∧
      ∀ {σ β : Type} (operation : Activity σ (Except SourceError β)),
        policy.execute operation = policy.counting operation .zero := by
  refine ⟨?_, policy.execute_eq_counting⟩
  have hcall := policy.execute_call outcomes took start
  obtain ⟨_, _, _, n, hn, -⟩ := hcall.exists_end CallLog.ticks_serial
  refine ⟨n, settles_iff_isLeast.mp hn, hcall.mono ?_⟩
  rintro outcome log time ⟨last, hlast, houtcome, hcalls, rfl⟩
  obtain rfl := hlast.unique hn
  refine ⟨houtcome, hcalls, ?_⟩
  rw [callTime, CallLog.busy_succ]
  omega

/-- The pauses of the policy together last its interval for each call after the first, when the
calls take no time. -/
def PausesInFull (policy : RetryPolicy) (outcomes : Nat → Except SourceError α) : Prop :=
  ∃ n, Settles outcomes policy.retries.toNat n ∧
    (policy.execute (CallLog.call outcomes fun _ => 0)).AchievesAt CallLog.Ticks {} 0
      fun _ _ time => time = n * policy.intervalMillis

/-- One second more than the longest wait is not paused for in full. -/
theorem not_pausesInFull_of_longer :
    ¬ PausesInFull { retries := 1, intervalSecs := 946080001 }
      (fun | 0 => .error (.transient "down") | i => .ok i) := by
  rintro ⟨n, hn, hfull⟩
  obtain ⟨_, _, _, rfl, last, hlast, -, -, htime⟩ :=
    (hfull.and (execute_call _ _ _ 0)).exists_end CallLog.ticks_serial
  have hone : Settles (fun | 0 => .error (.transient "down") | i => .ok i) 1 1 :=
    .succ rfl rfl (settles_zero (.inl rfl))
  obtain rfl := hn.unique hone
  obtain rfl := hlast.unique hone
  exact absurd htime (by decide)

end RetryPolicy

end AttrFederation
