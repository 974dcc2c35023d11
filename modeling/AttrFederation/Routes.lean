import AttrFederation.Profile.Backend
import AttrFederation.Profile.Catalog

/-!
# Routes

Where an attribute comes from.  For a record of a profile and a class, an attribute that the profile
pulls for the class comes from the directory; any other that the backend supplies comes from the
backend.  Attribute names do not distinguish case.
-/

namespace AttrFederation

/-- Where an attribute comes from. -/
inductive AttributeSource where
  | directory
  /-- From the org units of the record. -/
  | backend
  /-- From nowhere. -/
  | unknown
deriving DecidableEq, Repr

/-- The attributes pulled for a profile and a class. -/
structure ClassRoute where
  profile : String
  kind : ObjectKind
  /-- The attributes in lower case. -/
  names : List String
deriving DecidableEq, Repr

/-- The attributes of every source, in lower case. -/
structure Routes where
  /-- What the directory supplies; of two entries for a profile and a class the last counts. -/
  directory : List ClassRoute
  /-- What the backend supplies. -/
  backend : List String
deriving DecidableEq, Repr

namespace Routes

/-- The names of pull attributes in lower case. -/
def lowerNames (pulls : PullAttributes) : List String :=
  pulls.names.map Text.lowercase

/-- The routes of a profile: for principals, and for groups if it has them. -/
def ofProfile (p : DirectoryProfile) : List ClassRoute :=
  [ObjectKind.principal, ObjectKind.group].filterMap fun kind =>
    (p.objectClass? kind).map fun c => ⟨p.name, kind, lowerNames c.pulls⟩

def build (catalog : DirectoryCatalog) (backend : Option BackendProfile) : Routes where
  directory := catalog.profiles.flatMap ofProfile
  backend := (backend.map fun b => lowerNames b.pulls).getD []

/-- The attributes pulled for a profile and a class. -/
def pulled (r : Routes) (profile : String) (kind : ObjectKind) : List String :=
  match r.directory.reverse.find? fun route => route.profile == profile && route.kind == kind with
  | some route => route.names
  | none => []

def isBackend (r : Routes) (attributeName : String) : Bool :=
  r.backend.contains (Text.lowercase attributeName)

/-- Where an attribute comes from for a record of a profile and a class. -/
def route (r : Routes) (profile : String) (kind : ObjectKind) (attributeName : String) :
    AttributeSource :=
  if (r.pulled profile kind).contains (Text.lowercase attributeName) then .directory
  else if r.isBackend attributeName then .backend
  else .unknown

end Routes

end AttrFederation
