import AttrFederation.Profile.ObjectClass
import AttrFederation.Properties
import AttrFederation.Record

/-!
# Directory profiles

A profile says how one directory domain is reached and searched.  It is read from the properties
whose names start with the profile's name and an underscore.  The fields are checked in a fixed
order, and the first one that is missing or invalid refuses the whole profile:

host, port, authentication, the credentials if authentication is simple, then for users, and for
groups if they have a search base: search base, filter, key attributes, attributes to pull.
-/

namespace AttrFederation

/-! ## Faults -/

/-- Why a profile is refused. -/
inductive ProfileError where
  /-- A required field is absent or blank. -/
  | missing (domain field : String)
  /-- A field has no acceptable value. -/
  | invalid (domain field reason : String)
deriving DecidableEq, Repr

namespace ProfileError

def field : ProfileError → String
  | missing _ field => field
  | invalid _ field _ => field

def message : ProfileError → String
  | missing domain field => domain ++ ": required property '" ++ field ++ "' is undefined"
  | invalid domain field reason => domain ++ ": property '" ++ field ++ "' is invalid: " ++ reason

end ProfileError

/-! ## Profiles -/

/-- What a directory client needs to connect. -/
structure ConnectionSettings where
  domain : String
  url : String
  useTls : Bool
  authentication : String
  bindDn : Option String
  encryptedPassword : Option String
deriving DecidableEq, Repr

/-- How a directory domain is reached and searched. -/
structure DirectoryProfile where
  name : String
  host : String
  port : UInt16
  useTls : Bool
  authentication : String
  /-- The name to bind with, under simple authentication. -/
  username : Option String
  /-- The password as configured, under simple authentication. -/
  encryptedPassword : Option String
  /-- Searches also find disabled accounts. -/
  includeDisabled : Bool
  users : ObjectClass
  /-- How groups are found, if they are. -/
  groups : Option ObjectClass
deriving DecidableEq, Repr

namespace DirectoryProfile

def url (p : DirectoryProfile) : String :=
  (if p.useTls then "ldaps" else "ldap") ++ "://" ++ p.host ++ ":" ++ toString p.port.toNat ++ "/"

/-- What a client needs to connect. -/
def connectionSettings (p : DirectoryProfile) : ConnectionSettings where
  domain := p.name
  url := p.url
  useTls := p.useTls
  authentication := p.authentication
  bindDn := p.username
  encryptedPassword := p.encryptedPassword

/-- The search settings of a class; groups may have none. -/
def objectClass? (p : DirectoryProfile) : ObjectKind → Option ObjectClass
  | .principal => some p.users
  | .group => p.groups

/-! ## Reading -/

/-- The property that holds a profile's field. -/
def fieldKey (name field : String) : String :=
  name ++ "_" ++ field

def field? (props : Properties) (name field : String) : Option String :=
  props.get? (fieldKey name field)

/-- The value of a field that has to be there. -/
def requireField (props : Properties) (name field : String) : Except ProfileError String :=
  match field? props name field with
  | some value => .ok value
  | none => .error (.missing name field)

def readPort (props : Properties) (name : String) : Except ProfileError UInt16 := do
  let raw ← requireField props name "port"
  match Text.readUInt16 raw with
  | .ok port => .ok port
  | .error fault => .error (.invalid name "port" fault.message)

/-- The search bases: the trimmed, non-blank parts between semicolons, at least one. -/
def readSearchBases (props : Properties) (name field : String) :
    Except ProfileError (List String) := do
  let bases := Text.splitTrimmed ';' (← requireField props name field)
  if bases.isEmpty then .error (.missing name field) else .ok bases

/-- The search settings of the class whose fields start with a word. -/
def readObjectClass (props : Properties) (name word : String) :
    Except ProfileError ObjectClass := do
  let searchBases ← readSearchBases props name (word ++ "_search_base")
  let filter ← requireField props name (word ++ "_filter")
  let keys ← requireField props name (word ++ "_key_attributes")
  let pulls ← requireField props name (word ++ "_attributes_to_pull")
  return {
    searchBases
    filter
    keys := KeyAttribute.parseList keys
    pulls := PullAttributes.parseList pulls }

/-- The credentials, which only simple authentication has. -/
def readCredentials (props : Properties) (name authentication : String) :
    Except ProfileError (Option String × Option String) := do
  if Text.asciiEq authentication "simple" then
    let username ← requireField props name "username"
    let password ← requireField props name "password"
    return (some username, some password)
  else return (none, none)

/-- The settings of groups, which only a profile with a group search base has. -/
def readGroups (props : Properties) (name : String) : Except ProfileError (Option ObjectClass) := do
  match field? props name "group_search_base" with
  | some _ => return some (← readObjectClass props name "group")
  | none => return none

/-- The profile of a name, or its first fault. -/
def parse (name : String) (props : Properties) : Except ProfileError DirectoryProfile := do
  let host ← requireField props name "host"
  let port ← readPort props name
  let authentication ← requireField props name "authentication"
  let (username, encryptedPassword) ← readCredentials props name authentication
  let users ← readObjectClass props name "user"
  let groups ← readGroups props name
  return {
    name
    host
    port
    useTls := field? props name "ssl" == some "true"
    authentication
    username
    encryptedPassword
    includeDisabled := field? props name "get_disabled_accounts" == some "true"
    users
    groups }

end DirectoryProfile

end AttrFederation
