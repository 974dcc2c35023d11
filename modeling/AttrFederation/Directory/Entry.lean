import AttrFederation.Assoc
import AttrFederation.Text.Lowercase
import AttrFederation.Text.Utf8

/-!
# Directory entries

An entry has a distinguished name and attributes, each with the values the directory returned, in
order.  Attribute names do not distinguish case: they are kept and looked up in lower case.
-/

namespace AttrFederation

/-- One value of a directory attribute. -/
inductive Datum where
  | text (value : String)
  | binary (bytes : List UInt8)
deriving DecidableEq, Repr

namespace Datum

/-- The value as text, whatever its bytes are. -/
def toText : Datum → String
  | text value => value
  | binary bytes => Text.lossy bytes

def toBytes : Datum → List UInt8
  | text value => Text.utf8 value
  | binary bytes => bytes

end Datum

/-- An entry that a directory search returns. -/
structure Entry where
  dn : String
  /-- The values of each attribute, under its name in lower case. -/
  attributes : Assoc (List Datum) := ∅
deriving DecidableEq, Repr

namespace Entry

/-- The values of an attribute, none if the entry lacks it. -/
def values (e : Entry) (name : String) : List Datum :=
  (e.attributes.get? (Text.lowercase name)).getD []

/-- The first value of an attribute. -/
def first? (e : Entry) (name : String) : Option Datum :=
  (e.values name).head?

/-- The entry has a value for the attribute. -/
def has (e : Entry) (name : String) : Bool :=
  !(e.values name).isEmpty

/-- The entry with one more value of an attribute. -/
def push (e : Entry) (name : String) (value : Datum) : Entry :=
  { e with attributes := e.attributes.set (Text.lowercase name) (e.values name ++ [value]) }

/-- An entry from named lists of values. -/
def of (dn : String) (attributes : List (String × List Datum)) : Entry :=
  attributes.foldl (fun e (name, data) => data.foldl (fun e datum => e.push name datum) e) { dn }

end Entry

end AttrFederation
