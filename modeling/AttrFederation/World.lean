import AttrFederation.Activity.Gate
import AttrFederation.Activity.Job
import AttrFederation.Activity.Lock
import AttrFederation.Cache.Store
import AttrFederation.Metrics

/-!
# The shared state

All that the activities of a service share: the cache and its clock, the metrics, the gates and
locks of the two refreshes, whether the service is started, and the periodic jobs.  What the sources
keep for themselves is a further part, of any type.
-/

namespace AttrFederation

/-- The work of a periodic job. -/
inductive RefreshKind where
  /-- The backend is purged and reloaded. -/
  | backend
  | directory
deriving DecidableEq, Repr

/-- The jobs that one start of the scheduler asked for, by their place among all jobs. -/
structure SchedulerHandle where
  jobs : List Nat
deriving DecidableEq, Repr

/-- What the activities of a service share. -/
structure World (δ : Type) where
  cache : Cache
  /-- The present instant on the clock of the cache, in nanoseconds. -/
  now : Nat := 0
  localTime : Instant := .first
  metrics : Metrics := {}
  /-- A refresh of the directory is in progress. -/
  directoryRefreshing : Bool := false
  /-- Refreshes of the directory run one after another. -/
  directoryLock : Lock := {}
  /-- A refresh of the backend is in progress. -/
  backendRefreshing : Bool := false
  /-- Refreshes of the backend run one after another. -/
  backendLock : Lock := {}
  started : Bool := false
  /-- The scheduler that the service has installed. -/
  scheduler : Option SchedulerHandle := none
  /-- All jobs ever asked for. -/
  jobs : List (Job RefreshKind) := []
  /-- What the sources keep. -/
  sources : δ

namespace World

variable {δ : Type}

/-! ## Parts -/

def directoryFlag : Field (World δ) Bool where
  get w := w.directoryRefreshing
  set b w := { w with directoryRefreshing := b }

def directoryLockField : Field (World δ) Lock where
  get w := w.directoryLock
  set l w := { w with directoryLock := l }

def backendFlag : Field (World δ) Bool where
  get w := w.backendRefreshing
  set b w := { w with backendRefreshing := b }

def backendLockField : Field (World δ) Lock where
  get w := w.backendLock
  set l w := { w with backendLock := l }

def jobsField : Field (World δ) (List (Job RefreshKind)) where
  get w := w.jobs
  set j w := { w with jobs := j }

def sourcesField : Field (World δ) δ where
  get w := w.sources
  set s w := { w with sources := s }

/-! ## Changes -/

/-- The state with the cache changed. -/
def onCache (f : Cache → Cache) (w : World δ) : World δ :=
  { w with cache := f w.cache }

/-- The state with the cache changed, and a result. -/
def withCache {β : Type} (f : Cache → β × Cache) (w : World δ) : β × World δ :=
  let (result, cache) := f w.cache
  (result, { w with cache })

/-- The state with the metrics changed. -/
def onMetrics (f : Metrics → Metrics) (w : World δ) : World δ :=
  { w with metrics := f w.metrics }

/-- The state with all jobs of a scheduler told to stop. -/
def abort (handle : SchedulerHandle) (w : World δ) : World δ :=
  { w with jobs := handle.jobs.foldl (fun jobs index => Job.abort index jobs) w.jobs }

end World

end AttrFederation
