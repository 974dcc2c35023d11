import AttrFederation.Resolution
import AttrFederation.Scheduler

/-!
# The service

The service puts a resolver together from a property set and two clients, and keeps the cache fresh
in the background between `start` and `shutdown`.

A start claims the service, loads the org units once in purge mode, asks for the periodic jobs and
installs them, unless the service was shut down in the meantime.  A start of a service that is
started already does nothing.
-/

namespace AttrFederation

/-- Why the service cannot do as asked. -/
inductive ServiceError where
  /-- A source or the configuration is at fault. -/
  | source (fault : SourceError)
  | profile (fault : ProfileError)
  | scheduler
deriving DecidableEq, Repr

def ServiceError.message : ServiceError → String
  | .source fault => fault.message
  | .profile fault => "Profile error: " ++ fault.message
  | .scheduler => "Scheduler error: jobs cannot be run"

/-- A service: its resolver, which knows the settings, the directory and the backend. -/
abbrev Service (δ : Type) := Resolver δ

namespace Service

variable {δ : Type}

/-! ## Putting it together -/

/-- The service of a property set over two clients; neither may be missing.  Invalid profiles are
left out. -/
def build (props : Properties) (directory : Option (DirectoryClient (World δ)))
    (backend : Option (BackendClient (World δ))) : Except SourceError (Service δ) :=
  match directory, backend with
  | none, _ => .error (.configuration "directory client not set")
  | some _, none => .error (.configuration "backend client not set")
  | some directory, some backend =>
    let settings := Settings.ofProperties props
    .ok
      { settings
        directory :=
          { client := directory
            catalog := .load props settings.profileNames
            pageSize := settings.pagingSize
            retry := settings.retry
            refreshEnabled := settings.directoryRefreshEnabled }
        backend :=
          { client := backend
            profile := (BackendProfile.parse props).toOption
            retry := settings.retry
            reloadEnabled := settings.backendRefreshEnabled } }

/-- The state of a service at first. -/
def initial (settings : Settings) (sources : δ) : World δ where
  cache := .ofSettings settings
  sources := sources

def background (s : Service δ) : Background (World δ) RefreshKind where
  jobs := World.jobsField
  work
    | .backend => s.backend.refreshAll.bind fun _ => .done ()
    | .directory => s.directory.refreshAll.bind fun _ => .done ()

/-! ## Starting and stopping -/

/-- Claims the service for a start, if nobody has. -/
def claim (w : World δ) : Bool × World δ :=
  if w.started then (false, w) else (true, { w with started := true })

/-- Loads the org units before the first start of the jobs, in purge mode. -/
def initialLoad (s : Service δ) : Activity (World δ) Unit :=
  if s.settings.orgUnitMode = .purge then s.backend.refreshAll.bind fun _ => .done () else .done ()

/-- Makes jobs those of the service, in place of earlier ones; when the service was shut down
meanwhile, the jobs are told to stop. -/
def install (handle : SchedulerHandle) (w : World δ) : World δ :=
  if w.started then
    { (w.scheduler.map fun old => w.abort old).getD w with scheduler := some handle }
  else w.abort handle

/-- Starts the service.  Where jobs cannot be run, a start that would ask for them fails. -/
def start (s : Service δ) (canRunJobs : Bool) : Activity (World δ) (Except ServiceError Unit) :=
  (Activity.modifyGet claim).bind fun claimed =>
  if claimed then
    s.initialLoad.bind fun _ =>
    if canRunJobs then
      (Activity.modifyGet (Scheduler.start s.settings)).bind fun handle =>
      (Activity.modify (install handle)).bind fun _ => .done (.ok ())
    else
      (Activity.modify fun w => { w with started := false }).bind fun _ =>
      .done (.error .scheduler)
  else .done (.ok ())

def shutdown (w : World δ) : World δ :=
  { (w.scheduler.map fun handle => w.abort handle).getD w with started := false, scheduler := none }

end Service

end AttrFederation
