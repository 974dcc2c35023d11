import AttrFederation.Activity.Retry
import AttrFederation.Backend.Batch
import AttrFederation.Profile.Backend
import AttrFederation.Source.Client
import AttrFederation.World

/-!
# Reading the backend

The backend is read in two ways.  A query asks for the org units of some ids and stores what the
response says about each; its failures are taken as no answer.  A refresh empties the org-unit
region, under the gate, and loads every org unit anew, with retries.
-/

namespace AttrFederation

structure BackendSource (δ : Type) where
  client : BackendClient (World δ)
  /-- The server and the function, if they are known. -/
  profile : Option BackendProfile
  retry : RetryPolicy
  /-- A refresh loads the region anew after it has emptied it. -/
  reloadEnabled : Bool

structure BackendRefresh where
  loaded : Nat := 0
  /-- Loading was attempted. -/
  reloaded : Bool := false
deriving DecidableEq, Repr

/-- The cache with the units of a batch, negative ones first. -/
def Batch.storeIn (b : Batch) (now : Nat) (c : Cache) : Cache :=
  (b.negatives ++ b.records).foldl (fun c unit => c.putOrgUnit now unit) c

namespace BackendSource

variable {δ : Type}

/-- Calls the function of the profile.  A server or function that the backend does not know, like no
profile at all, is answered with no tables. -/
def call (b : BackendSource δ) (request : BackendRequest) :
    Activity (World δ) (Except SourceError BackendResponse) :=
  match b.profile with
  | none => .done (.ok .empty)
  | some profile =>
    (b.client.invoke profile.serverPrefix profile.handler request.imports).bind fun outcome =>
    match outcome with
    | .ok response => .done (.ok response)
    | .error e => if e.namesUnknown then .done (.ok .empty) else .done (.error e)

/-- Stores the units of a batch. -/
def store (batch : Batch) : Activity (World δ) Unit :=
  .modify fun w => w.onCache (batch.storeIn w.now)

/-- Asks for the org units of some ids, stores what is said about each, and returns those that are
known. -/
def query (b : BackendSource δ) (ids : List String) : Activity (World δ) (List OrgUnit) :=
  if ids.isEmpty then .done []
  else
    (b.call (.only ids)).bind fun outcome =>
    match outcome with
    | .error _ => .done []
    | .ok response =>
      let batch := Batch.ofResponse response ids
      (store batch).bind fun _ => .done batch.records

/-- Loads every org unit once. -/
def loadAll (b : BackendSource δ) : Activity (World δ) (Except SourceError Nat) :=
  if b.profile.isNone then .done (.ok 0)
  else
    (b.call .all).bindOk fun response =>
    let batch := Batch.ofResponse response []
    (store batch).bind fun _ => .done (.ok batch.records.length)

def purge (w : World δ) : World δ :=
  w.onCache (·.clear .orgUnit)

/-- Loads the region anew, unless that is off. -/
def reload (b : BackendSource δ) : Activity (World δ) BackendRefresh :=
  if b.reloadEnabled then
    (b.retry.execute b.loadAll).bind fun outcome =>
    match outcome with
    | .ok loaded => .done { loaded, reloaded := true }
    | .error _ => .done { loaded := 0, reloaded := true }
  else .done {}

/-- Empties the org-unit region and loads it anew, one refresh after another. -/
def refreshAll (b : BackendSource δ) : Activity (World δ) BackendRefresh :=
  Lock.holding World.backendLockField (Gate.refreshing World.backendFlag purge b.reload)

end BackendSource

end AttrFederation
