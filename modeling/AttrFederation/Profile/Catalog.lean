import AttrFederation.Profile.Directory

/-!
# The catalog of directory profiles

The valid profiles in configuration order.  An invalid profile is left out and does not affect the
others.  Without configured names the catalog has the default profile at most and is not
multi-domain, in which case every attribute is looked for in that profile.
-/

namespace AttrFederation

/-- The valid directory profiles. -/
structure DirectoryCatalog where
  /-- The profiles, in configuration order. -/
  profiles : List DirectoryProfile
  /-- Identities are looked for only where the attribute is pulled. -/
  multiDomain : Bool
deriving DecidableEq, Repr

namespace DirectoryCatalog

/-- The profile that is loaded when none is named. -/
def defaultName : String := "DOMAIN_1"

/-- The names to load. -/
def namesToLoad (names : List String) : List String :=
  if names.isEmpty then [defaultName] else names

/-- The catalog of the named profiles that are valid. -/
def load (props : Properties) (names : List String) : DirectoryCatalog where
  profiles := (namesToLoad names).filterMap fun name => (DirectoryProfile.parse name props).toOption
  multiDomain := !names.isEmpty

def ofProfiles (profiles : List DirectoryProfile) : DirectoryCatalog where
  profiles := profiles
  multiDomain := 1 < profiles.length

/-- The first profile of a name. -/
def get? (c : DirectoryCatalog) (name : String) : Option DirectoryProfile :=
  c.profiles.find? fun p => p.name == name

/-- The profile pulls an attribute for a class. -/
def provides (p : DirectoryProfile) (attributeName : String) (kind : ObjectKind) : Bool :=
  match p.objectClass? kind with
  | some objectClass => objectClass.pulls.contains attributeName
  | none => false

/-- The profiles to look in for an attribute, in configuration order. -/
def providersOf (c : DirectoryCatalog) (attributeName : String) (kind : ObjectKind) :
    List DirectoryProfile :=
  if c.multiDomain then c.profiles.filter fun p => provides p attributeName kind else c.profiles

end DirectoryCatalog

end AttrFederation
