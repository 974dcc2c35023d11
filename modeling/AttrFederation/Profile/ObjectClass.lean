import AttrFederation.Profile.Specifier

/-!
# Object classes

How the objects of one class, principals or groups, are found in a directory and which of their
attributes matter.
-/

namespace AttrFederation

/-- The search settings of a class of directory objects. -/
structure ObjectClass where
  searchBases : List String
  filter : String
  /-- The attributes that identify an object. -/
  keys : List KeyAttribute
  pulls : PullAttributes
deriving DecidableEq, Repr

namespace ObjectClass

/-- A list with a name at its end unless it holds the name already. -/
def addName (names : List String) (name : String) : List String :=
  if names.any fun other => Text.asciiEq other name then names else names ++ [name]

/-- The attributes asked of the directory: keys, then pulls, each once. -/
def requested (c : ObjectClass) : List String :=
  (c.keys.map KeyAttribute.name ++ c.pulls.names).foldl addName []

end ObjectClass

end AttrFederation
