import AttrFederation.Text.Blank
import AttrFederation.Text.Lowercase

/-!
# Attribute specifiers

Profiles list attributes as `qualifier:name`, separated by commas.  A specifier that does not have
exactly one colon, or whose name is blank, is skipped without effect on its neighbours.

* Key attributes: the qualifier `cs` keeps the case of values; any other puts them in lower case.
* Pull attributes: the qualifier `multi` asks for all values; any other for the first one.  Names do
  not distinguish the case of ASCII letters; a name listed twice keeps its first place and takes its
  last cardinality.
-/

namespace AttrFederation

/-- The qualifier and the trimmed name of a specifier. -/
def specifier? (piece : String) : Option (String × String) :=
  match Text.split ':' (Text.trim piece) with
  | [qualifier, name] =>
    let name := Text.trim name
    if name.isEmpty then none else some (qualifier, name)
  | _ => none

/-- The well-formed specifiers of a list. -/
def specifiers (raw : String) : List (String × String) :=
  (Text.split ',' raw).filterMap specifier?

/-! ## Key attributes -/

/-- An attribute whose value identifies an object. -/
structure KeyAttribute where
  name : String
  /-- Values keep their case. -/
  caseSensitive : Bool
deriving DecidableEq, Repr

namespace KeyAttribute

/-- A value in the form that identifies. -/
def normalize (k : KeyAttribute) (value : String) : String :=
  if k.caseSensitive then value else Text.lowercase value

/-- The key attribute of a specifier. -/
def ofSpecifier (spec : String × String) : KeyAttribute :=
  ⟨spec.2, spec.1 == "cs"⟩

/-- The key attributes of a list of specifiers. -/
def parseList (raw : String) : List KeyAttribute :=
  (specifiers raw).map ofSpecifier

end KeyAttribute

/-! ## Pull attributes -/

/-- How many values of an attribute are kept. -/
inductive Cardinality where
  /-- The first one. -/
  | single
  /-- All of them. -/
  | multi
deriving DecidableEq, Repr

/-- An attribute that a source supplies. -/
structure PullAttribute where
  name : String
  cardinality : Cardinality
deriving DecidableEq, Repr

/-- The pull attribute of a specifier. -/
def PullAttribute.ofSpecifier (spec : String × String) : PullAttribute :=
  ⟨spec.2, if spec.1 = "multi" then .multi else .single⟩

/-- Pull attributes, no two of one name. -/
structure PullAttributes where
  attributes : List PullAttribute
deriving DecidableEq, Repr

namespace PullAttributes

def empty : PullAttributes := ⟨[]⟩

def get? (ps : PullAttributes) (name : String) : Option PullAttribute :=
  ps.attributes.find? fun a => Text.asciiEq a.name name

/-- An attribute of the name is listed. -/
def contains (ps : PullAttributes) (name : String) : Bool :=
  (ps.get? name).isSome

def names (ps : PullAttributes) : List String :=
  ps.attributes.map PullAttribute.name

/-- A list with one more attribute; of one that is listed already only the cardinality changes. -/
def insertInto (a : PullAttribute) : List PullAttribute → List PullAttribute
  | [] => [a]
  | b :: rest =>
    if Text.asciiEq b.name a.name then { b with cardinality := a.cardinality } :: rest
    else b :: insertInto a rest

/-- The set with one more attribute. -/
def insert (ps : PullAttributes) (a : PullAttribute) : PullAttributes :=
  ⟨insertInto a ps.attributes⟩

/-- The set of the attributes of a list. -/
def ofList (as : List PullAttribute) : PullAttributes :=
  as.foldl insert empty

/-- The pull attributes of a list of specifiers. -/
def parseList (raw : String) : PullAttributes :=
  ofList ((specifiers raw).map PullAttribute.ofSpecifier)

end PullAttributes

end AttrFederation
