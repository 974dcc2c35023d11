import AttrFederation.Activity.Basic
import AttrFederation.Activity.Field

/-!
# Refresh gates

A refresh empties a region and fills it again.  Meanwhile a flag is up, so that a reader does not
take the emptied region for the truth.  Raising the flag and emptying the region are one step;
testing the flag and reading are one step.

A reader may also wait: it looks at the flag again and again and, after a time-out, reads whatever
is there.
-/

namespace AttrFederation.Gate

variable {σ α β : Type}

/-- Raises the flag and empties the region. -/
def raise (flag : Field σ Bool) (purge : σ → σ) (s : σ) : σ :=
  purge (flag.set true s)

/-- An activity during which the flag is up, begun by emptying the region. -/
def refreshing (flag : Field σ Bool) (purge : σ → σ) (body : Activity σ α) : Activity σ α :=
  .step (raise flag purge) fun _ => body.guarded (flag.set false)

/-- A read that happens only while the flag is down. -/
def tryRead (flag : Field σ Bool) (read : σ → β × σ) (s : σ) : Option β × σ :=
  if flag.get s then (none, s)
  else
    let (result, s) := read s
    (some result, s)

theorem tryRead_of_up {flag : Field σ Bool} {s : σ} (h : flag.get s = true) (read : σ → β × σ) :
    tryRead flag read s = (none, s) :=
  if_pos h

theorem tryRead_of_down {flag : Field σ Bool} {s : σ} (h : flag.get s = false)
    (read : σ → β × σ) : tryRead flag read s = (some (read s).1, (read s).2) := by
  simp [tryRead, h]

/-- A look at the flag does what the read does, or nothing. -/
theorem rel_tryRead {R : σ → σ → Prop} (hrefl : ∀ s, R s s) {read : σ → β × σ}
    (hread : ∀ s, R s (read s).2) (flag : Field σ Bool) (s : σ) : R s (tryRead flag read s).2 := by
  cases h : flag.get s with
  | true => simpa only [tryRead_of_up h] using hrefl s
  | false => simpa only [tryRead_of_down h] using hread s

/-- A read if the flag is down, and something else otherwise. -/
def readOr (flag : Field σ Bool) (read : σ → β × σ) (otherwise : Unit → Activity σ β) :
    Activity σ β :=
  (Activity.modifyGet (tryRead flag read)).bind fun result =>
    match result with
    | some result => .done result
    | none => otherwise ()

/-- Looks at the flag every `poll` milliseconds, at most so many times more, and reads when it is
down; after `timeout` milliseconds in all it reads anyway. -/
def readPolling (flag : Field σ Bool) (poll timeout : Nat) (read : σ → β × σ) :
    (polls waited : Nat) → Activity σ β
  | 0, _ => readOr flag read fun _ => .modifyGet read
  | polls + 1, waited =>
    readOr flag read fun _ =>
      if timeout ≤ waited then .modifyGet read
      else .sleep poll id (readPolling flag poll timeout read polls (waited + poll))

/-- How many looks after the first one it takes to reach the time-out. -/
def pollsWithin (poll timeout : Nat) : Nat :=
  (timeout + poll - 1) / poll

/-- The looks of a reader are enough to reach the time-out. -/
theorem le_pollsWithin_mul {poll : Nat} (timeout : Nat) (hpoll : 0 < poll) :
    timeout ≤ pollsWithin poll timeout * poll := by
  have hlt : timeout + poll - 1 < pollsWithin poll timeout * poll + poll :=
    Nat.lt_div_mul_add hpoll
  omega

/-- Milliseconds from one look to the next.  Time is counted in milliseconds, so a reader that is
not to wait at all has a look in every one of them. -/
def lookInterval (poll : Nat) : Nat :=
  max 1 (Activity.waitTime poll)

theorem lookInterval_pos (poll : Nat) : 0 < lookInterval poll :=
  Nat.le_max_left _ _

theorem lookInterval_of_pos {poll : Nat} (h : 0 < poll) :
    lookInterval poll = Activity.waitTime poll :=
  Nat.max_eq_right (Nat.le_min.mpr ⟨h, by decide⟩)

/-- A reader can wait from one look to the next. -/
theorem waitTime_lookInterval (poll : Nat) :
    Activity.waitTime (lookInterval poll) = lookInterval poll :=
  Activity.waitTime_of_le (Nat.max_le.mpr ⟨by decide, Nat.min_le_right _ _⟩)

/-- A read that waits for the flag to be down, but not longer than the time-out. -/
def readWhenIdle (flag : Field σ Bool) (poll timeout : Nat) (read : σ → β × σ) : Activity σ β :=
  let interval := lookInterval poll
  readPolling flag interval timeout read (pollsWithin interval timeout) 0

end AttrFederation.Gate
