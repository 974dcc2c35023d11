import AttrFederation.Activity.Basic

/-!
# Periodic jobs

A job runs a piece of work again and again.  Its schedule has a delay before the first run and a
period; the due times that pass while the work is still running are either made up for one after
the other, or given up, so that the period starts anew.  A period of zero cannot be kept, and a job
with one ends at once; one beyond the longest wait is cut to it.
-/

namespace AttrFederation

/-- What happens to due times that were missed. -/
inductive MissedRuns where
  /-- Each is made up for. -/
  | makeUp
  /-- They are given up, and the period starts anew. -/
  | giveUp
deriving DecidableEq, Repr

structure Schedule where
  /-- Milliseconds before the first run. -/
  delay : Nat
  /-- Milliseconds from one run to the next. -/
  period : Nat
  /-- What happens to missed due times. -/
  missed : MissedRuns
deriving DecidableEq, Repr

namespace Schedule

/-- A run that begins no later than this many milliseconds after its due time is on time. -/
def tolerance : Nat := 5

/-- The due time after the one at `due`, for which the run begins at `now`. -/
def nextDue (s : Schedule) (due now : Nat) : Nat :=
  let period := Activity.waitTime s.period
  match s.missed with
  | .makeUp => due + period
  | .giveUp => if due + tolerance < now then now + period else due + period

end Schedule

/-- What has become of a job. -/
inductive JobStatus where
  | active
  /-- It has been told to stop. -/
  | aborted
  /-- It has ended by itself. -/
  | ended
deriving DecidableEq, Repr

/-- A job that does work of some kind. -/
structure Job (κ : Type) where
  kind : κ
  schedule : Schedule
  status : JobStatus := .active
deriving DecidableEq, Repr

/-- Jobs with another status of one of them. -/
def Job.setStatus {κ : Type} (status : JobStatus) : Nat → List (Job κ) → List (Job κ)
  | _, [] => []
  | 0, job :: jobs => { job with status } :: jobs
  | n + 1, job :: jobs => job :: setStatus status n jobs

/-- An active job is told to stop. -/
def Job.abort {κ : Type} (index : Nat) (jobs : List (Job κ)) : List (Job κ) :=
  match jobs[index]? with
  | some job => if job.status = .active then Job.setStatus .aborted index jobs else jobs
  | none => jobs

end AttrFederation
