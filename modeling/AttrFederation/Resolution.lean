import AttrFederation.Routes
import AttrFederation.Source.Backend
import AttrFederation.Source.Directory

/-!
# Resolving attributes

An attribute of a subject is resolved in two stages.  First the principal is found, by the value of
the subject's correlation attribute: in the cache under that alias or its lower-case form, else in
the directory.  Then the attribute is read off the principal's record, or composed from the column
it names in each of the principal's org units, those in the cache first and the others after one
call of the backend.

Resolving never fails: what cannot be resolved has the configured null value.
-/

namespace AttrFederation

structure Subject where
  uid : String
  /-- What is known of the subject, under names in lower case. -/
  attributes : Assoc String := ∅
deriving DecidableEq, Repr

namespace Subject

/-- The subject with a further attribute. -/
def insert (s : Subject) (name value : String) : Subject :=
  { s with attributes := s.attributes.set (Text.lowercase name) value }

/-- The value of an attribute. -/
def get? (s : Subject) (name : String) : Option String :=
  s.attributes.get? (Text.lowercase name)

/-- A subject with attributes, later ones winning. -/
def of (uid : String) (attributes : List (String × String)) : Subject :=
  attributes.foldl (fun s (name, value) => s.insert name value) { uid }

end Subject

/-- The value of what cannot be resolved. -/
def Settings.nullValue (s : Settings) : AttributeValue :=
  match s.nullString with
  | none => .null
  | some text => .single text

/-! ## Reading the cache -/

namespace Cache

/-- The record that a key leads to as an alias, as it is or in lower case. -/
def findPrincipal (c : Cache) (now : Nat) (key : String) : Option Record × Cache :=
  match c.getByAlias now key with
  | (some record, c) => (some record, c)
  | (none, c) =>
    if Text.lowercase key = key then (none, c) else c.getByAlias now (Text.lowercase key)

/-- The org unit of an id, as it is or in lower case. -/
def findOrgUnit (c : Cache) (now : Nat) (id : String) : Option OrgUnit × Cache :=
  match c.getOrgUnit now id with
  | (some unit, c) => (some unit, c)
  | (none, c) => c.getOrgUnit now (Text.lowercase id)

end Cache

/-- What a unit supplies for an attribute. -/
def OrgUnit.supply (u : OrgUnit) (attributeName : String) : List String :=
  (u.columnNamed attributeName).getD []

/-- What the org units in the cache supply, and the ids that are not there. -/
structure CachedValues where
  /-- The values, in the order of the ids. -/
  values : List String := []
  /-- The ids without a unit. -/
  misses : List String := []
deriving DecidableEq, Repr

namespace CachedValues

/-- What the org units of ids supply from the cache. -/
def collect (attributeName : String) (now : Nat) : List String → Cache → CachedValues × Cache
  | [], c => ({}, c)
  | id :: ids, c =>
    let (found, c) := c.findOrgUnit now id
    let (rest, c) := collect attributeName now ids c
    match found with
    | some unit => ({ rest with values := unit.supply attributeName ++ rest.values }, c)
    | none => ({ rest with misses := id :: rest.misses }, c)

end CachedValues

/-! ## Resolving -/

/-- All that attributes are resolved with. -/
structure Resolver (δ : Type) where
  settings : Settings
  directory : DirectorySource δ
  backend : BackendSource δ

namespace Resolver

variable {δ : Type}

def routes (r : Resolver δ) : Routes :=
  .build r.directory.catalog r.backend.profile

/-- Looks for a principal in the cache. -/
def lookUp (key : String) (w : World δ) : Option Record × World δ :=
  let (found, w) := w.withCache fun c => c.findPrincipal w.now key
  (found, w.onMetrics (·.recordLookup found.isSome))

/-- Finds a principal in the cache or else in the directory; a failure there is as good as nothing
found. -/
def findPrincipal (r : Resolver δ) (key attributeName : String) :
    Activity (World δ) (Option Record) :=
  (Activity.modifyGet (lookUp key)).bind fun cached =>
  match cached with
  | some record => .done (some record)
  | none =>
    (r.directory.queryIdentity key attributeName).bind fun outcome =>
    match outcome with
    | .ok found => .done found
    | .error _ => (Activity.modify (World.onMetrics Metrics.recordError)).bind fun _ => .done none

/-- What a record says about an attribute. -/
def readRecord (record : Record) (attributeName : String) : Option AttributeValue :=
  match record.get? attributeName with
  | some .null | none => none
  | some value => some value

/-- The org units of a record, if they are a list. -/
def orgUnitIds (r : Resolver δ) (record : Record) : Option (List String) :=
  (record.get? r.settings.orgUnitKeyAttribute).bind AttributeValue.multi?

/-- Counts a request that meets a refresh of the backend. -/
def noteRefresh (w : World δ) : World δ :=
  if w.backendRefreshing then w.onMetrics Metrics.recordRefreshWait else w

/-- The units that the cache lacks, asked of the backend. -/
def fetch (r : Resolver δ) (misses : List String) : Activity (World δ) (List OrgUnit) :=
  if misses.isEmpty then .done []
  else
    (Activity.modify (World.onMetrics Metrics.recordBackendQuery)).bind fun _ =>
      r.backend.query misses

/-- The values that org units supply for an attribute, if there are any. -/
def compose (r : Resolver δ) (ids : List String) (attributeName : String) :
    Activity (World δ) (Option AttributeValue) :=
  (Gate.readWhenIdle World.backendFlag r.settings.refreshPollIntervalMs.toNat
      r.settings.refreshWaitTimeoutMs.toNat fun w =>
        w.withCache (CachedValues.collect attributeName w.now ids)).bind fun cached =>
  (r.fetch cached.misses).bind fun units =>
  let values := cached.values ++ units.flatMap fun unit => unit.supply attributeName
  .done (if values.isEmpty then none else some (.multi values))

/-- The value of an attribute for a record, and the way it was found. -/
def resolveFor (r : Resolver δ) (record : Record) (attributeName : String) :
    Activity (World δ) (ResolutionPath × Option AttributeValue) :=
  match r.routes.route record.domain record.kind attributeName with
  | .directory => .done (.directory, readRecord record attributeName)
  | .unknown => .done (.unknown, none)
  | .backend =>
    (Activity.modify noteRefresh).bind fun _ =>
    match r.orgUnitIds record with
    | none => .done (.backend, none)
    | some ids => (r.compose ids attributeName).bind fun value => .done (.backend, value)

/-- The value of a subject's attribute, if it can be resolved, and the way it was found. -/
def resolve? (r : Resolver δ) (subject : Subject) (attributeName : String) :
    Activity (World δ) (ResolutionPath × Option AttributeValue) :=
  match subject.get? r.settings.correlationKey with
  | none => .done (.unresolved, none)
  | some key =>
    (r.findPrincipal key attributeName).bind fun found =>
    match found with
    | none => .done (.unresolved, none)
    | some record => r.resolveFor record attributeName

/-- Counts an answered request that began at an instant. -/
def noteAnswer (path : ResolutionPath) (isNull : Bool) (since : Nat) (w : World δ) : World δ :=
  w.onMetrics fun m =>
    (m.recordResolution path isNull).recordLatency (.ofNanos (w.now - since))

/-- The value of a subject's attribute. -/
def resolve (r : Resolver δ) (subject : Subject) (attributeName : String) :
    Activity (World δ) AttributeValue :=
  (Activity.read World.now).bind fun since =>
  (r.resolve? subject attributeName).bind fun (path, found) =>
  let value := found.getD r.settings.nullValue
  (Activity.modify (noteAnswer path (value == r.settings.nullValue) since)).bind fun _ =>
  .done value

end Resolver

end AttrFederation
