import AttrFederation.Assoc
import AttrFederation.AttributeValue
import AttrFederation.Text.Blank
import AttrFederation.Text.Lowercase

/-!
# Records of principals and groups

A record holds the attributes of one directory object.  Its identifier joins the name of its profile
and the values of its key attributes, in sorted order so that one set of values has one identifier.
Attribute names do not distinguish case.
-/

namespace AttrFederation

/-- The class of directory objects a record comes from. -/
inductive ObjectKind where
  | principal
  | group
deriving DecidableEq, Repr, Inhabited

def ObjectKind.name : ObjectKind → String
  | .principal => "principal"
  | .group => "group"

/-- The attributes of a directory object. -/
structure Record where
  /-- The profile that the object was read with. -/
  domain : String
  id : String
  kind : ObjectKind
  /-- The values, under attribute names in lower case. -/
  attributes : Assoc AttributeValue := ∅
deriving DecidableEq, Repr

namespace Record

/-! ## Combined identifiers -/

/-- The value of a key attribute that the object lacks. -/
def undefinedKey : String := "UNDEFINED"

/-- What stands before each key value. -/
def separator : Char := '#'

/-- Texts in ascending order of their code points. -/
def sorted (values : List String) : List String :=
  values.mergeSort fun a b => decide (a ≤ b)

/-- The identifier of an object: the profile, then each key value after a separator. -/
def combinedId (profile : String) (keyValues : List String) : String :=
  profile ++ String.join ((sorted keyValues).map fun value => separator.toString ++ value)

/-- The text before the first separator of an identifier. -/
def profileOf (id : String) : String :=
  match Text.cutAtFirst separator id with
  | some (profile, _) => profile
  | none => id

/-! ## Attributes -/

/-- The value of an attribute. -/
def get? (r : Record) (name : String) : Option AttributeValue :=
  r.attributes.get? (Text.lowercase name)

/-- The record with a value for an attribute. -/
def insert (r : Record) (name : String) (value : AttributeValue) : Record :=
  { r with attributes := r.attributes.set (Text.lowercase name) value }

theorem get?_insert (r : Record) (name other : String) (value : AttributeValue) :
    (r.insert name value).get? other
      = if Text.lowercase other = Text.lowercase name then some value else r.get? other :=
  Assoc.get?_set ..

/-- The bytes that the texts of a record take. -/
def size (r : Record) : Nat :=
  r.domain.utf8ByteSize + r.id.utf8ByteSize
    + total (r.attributes.entries.map fun (name, value) => name.utf8ByteSize + value.size)

/-- A record with its attributes in their own JSON form. -/
def toJson (r : Record) : Json :=
  .object
    [("domain", .string r.domain), ("id", .string r.id), ("kind", .string r.kind.name),
      ("attributes", .object (r.attributes.entries.map fun (name, value) => (name, value.toJson)))]

end Record

end AttrFederation
