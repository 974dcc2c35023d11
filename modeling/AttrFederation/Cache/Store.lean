import AttrFederation.Cache.Alias
import AttrFederation.Cache.Region

/-!
# The cache

Two regions and the alias index: principals and groups under their combined identifiers, org units
under their ids.  A cache may lack its regions; then nothing is kept and every read finds nothing.
-/

namespace AttrFederation

inductive RegionName where
  | principal
  | orgUnit
deriving DecidableEq, Repr

/-- The cache. -/
structure Cache where
  principals : Option (Region Record) := none
  orgUnits : Option (Region OrgUnit) := none
  /-- The aliases of principals and groups. -/
  aliases : AliasIndex := {}
deriving DecidableEq, Repr

namespace Cache

/-- The empty cache with both regions. -/
def ofSettings (s : Settings) : Cache where
  principals := some { settings := s.principalCache }
  orgUnits := some { settings := s.orgUnitCache }

def uninitialized : Cache := {}

def hasRegion (c : Cache) : RegionName → Bool
  | .principal => c.principals.isSome
  | .orgUnit => c.orgUnits.isSome

/-! ## Principals and groups -/

/-- Stores a record under its identifier. -/
def putPrincipal (c : Cache) (now : Nat) (record : Record) : Cache :=
  { c with principals := c.principals.map fun region => region.put now record.id record }

def getPrincipal (c : Cache) (now : Nat) (id : String) : Option Record × Cache :=
  match c.principals with
  | none => (none, c)
  | some region =>
    let (found, region) := region.get now id
    (found, { c with principals := some region })

/-- The record that an alias leads to. -/
def getByAlias (c : Cache) (now : Nat) (name : String) : Option Record × Cache :=
  match c.aliases.resolve? name with
  | none => (none, c)
  | some id => c.getPrincipal now id

/-- Removes the record that an alias leads to or, for no alias, the one of an identifier.  The alias
stays. -/
def removePrincipal (c : Cache) (key : String) : Bool × Cache :=
  match c.principals with
  | none => (false, c)
  | some region =>
    let (removed, region) := region.remove ((c.aliases.resolve? key).getD key)
    (removed, { c with principals := some region })

/-- Lets an alias lead to a record. -/
def addAlias (c : Cache) (name id : String) (kind : ObjectKind) : Cache :=
  { c with aliases := c.aliases.insert name id kind }

/-! ## Org units -/

/-- Stores an org unit under its id. -/
def putOrgUnit (c : Cache) (now : Nat) (unit : OrgUnit) : Cache :=
  { c with orgUnits := c.orgUnits.map fun region => region.put now unit.id unit }

/-- The org unit of an id. -/
def getOrgUnit (c : Cache) (now : Nat) (id : String) : Option OrgUnit × Cache :=
  match c.orgUnits with
  | none => (none, c)
  | some region =>
    let (found, region) := region.get now id
    (found, { c with orgUnits := some region })

/-- Removes the org unit of an id. -/
def removeOrgUnit (c : Cache) (id : String) : Bool × Cache :=
  match c.orgUnits with
  | none => (false, c)
  | some region =>
    let (removed, region) := region.remove id
    (removed, { c with orgUnits := some region })

/-! ## Whole regions -/

/-- Empties a region; the aliases stay. -/
def clear (c : Cache) : RegionName → Cache
  | .principal => { c with principals := c.principals.map Region.clear }
  | .orgUnit => { c with orgUnits := c.orgUnits.map Region.clear }

/-- The number of entries of a region. -/
def size (c : Cache) : RegionName → Nat
  | .principal => (c.principals.map Region.size).getD 0
  | .orgUnit => (c.orgUnits.map Region.size).getD 0

def stats (c : Cache) : RegionName → RegionStats
  | .principal => (c.principals.map Region.stats).getD {}
  | .orgUnit => (c.orgUnits.map Region.stats).getD {}

/-- A line for every key and every alias. -/
def contents (c : Cache) : List String :=
  ((c.principals.map Region.keys).getD []).map (fun key => "principal: " ++ key)
    ++ ((c.orgUnits.map Region.keys).getD []).map (fun key => "org_unit: " ++ key)
    ++ c.aliases.pairs.map fun (name, id) => "alias: " ++ name ++ " -> " ++ id

end Cache

end AttrFederation
