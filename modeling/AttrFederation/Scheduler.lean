import AttrFederation.Activity.Timeline
import AttrFederation.Settings
import AttrFederation.Source.Backend
import AttrFederation.Source.Directory

/-!
# The scheduler

In purge mode the backend is refreshed once a day at the purge time; when a period is configured,
the directory is refreshed at that period, beginning at once.

`firstDelay` is the time to the first refresh of the backend.  Only hours are compared: up to the
hour of the purge time the refresh is due today, or at once when that minute has already passed;
later it is due tomorrow.
-/

namespace AttrFederation

namespace Scheduler

/-- The instant of the purge time on the day on which the first refresh is due. -/
def firstDue (now : Instant) (purgeTime : TimeOfDay) : Instant :=
  if now.time.hour ≤ purgeTime.hour then ⟨now.day, purgeTime⟩ else ⟨now.day + 1, purgeTime⟩

/-- The time to the first refresh of the backend, in nanoseconds. -/
def firstDelay (now : Instant) (purgeTime : Option TimeOfDay) : Nat :=
  match purgeTime with
  | none => 0
  | some time => ((firstDue now time).since now).toNat

/-- A day in milliseconds. -/
def dayMillis : Nat := 24 * 60 * 60 * 1000

/-- The daily refresh of the backend. -/
def backendJob (s : Settings) (now : Instant) : Job RefreshKind where
  kind := .backend
  schedule :=
    { delay := (Span.ofNanos (firstDelay now s.purgeTime)).toMillis
      period := dayMillis
      missed := .makeUp }

/-- The periodic refresh of the directory. -/
def directoryJob (period : Span) : Job RefreshKind where
  kind := .directory
  schedule := { delay := 0, period := period.toMillis, missed := .giveUp }

/-- The jobs that settings ask for. -/
def jobs (s : Settings) (now : Instant) : List (Job RefreshKind) :=
  (if s.orgUnitMode = .purge then [backendJob s now] else [])
    ++ (s.directoryRefreshPeriod.map directoryJob).toList

variable {δ : Type}

/-- Asks for the jobs of the settings. -/
def start (s : Settings) (w : World δ) : SchedulerHandle × World δ :=
  let added := jobs s w.localTime
  (⟨(List.range added.length).map (w.jobs.length + ·)⟩, { w with jobs := w.jobs ++ added })

end Scheduler

namespace SchedulerHandle

variable {δ : Type}

/-- Some job has not ended. -/
def isRunning (h : SchedulerHandle) (w : World δ) : Bool :=
  h.jobs.any fun index =>
    match w.jobs[index]? with
    | some job => job.status ≠ .ended
    | none => false

end SchedulerHandle

end AttrFederation
