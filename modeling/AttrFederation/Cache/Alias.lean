import AttrFederation.Assoc
import AttrFederation.Record

/-!
# The alias index

Leads from key values to record identifiers.  An alias is never taken out: when its record has gone,
it still tells the record's identifier and class.
-/

namespace AttrFederation

/-- What an alias leads to. -/
structure AliasTarget where
  id : String
  kind : ObjectKind
deriving DecidableEq, Repr

/-- The targets of all aliases ever recorded. -/
structure AliasIndex where
  targets : Assoc AliasTarget := ∅
deriving DecidableEq, Repr

namespace AliasIndex

/-- The index with a target for an alias. -/
def insert (index : AliasIndex) (name id : String) (kind : ObjectKind) : AliasIndex :=
  ⟨index.targets.set name ⟨id, kind⟩⟩

/-- The identifier an alias leads to. -/
def resolve? (index : AliasIndex) (name : String) : Option String :=
  (index.targets.get? name).map AliasTarget.id

/-- The class of the record an alias last led to. -/
def kindOf? (index : AliasIndex) (name : String) : Option ObjectKind :=
  (index.targets.get? name).map AliasTarget.kind

def size (index : AliasIndex) : Nat :=
  index.targets.size

/-- Every alias and the identifier it leads to. -/
def pairs (index : AliasIndex) : List (String × String) :=
  index.targets.entries.map fun (name, target) => (name, target.id)

end AliasIndex

end AttrFederation
