import AttrFederation.Directory.Entry
import AttrFederation.Directory.SecurityId
import AttrFederation.Profile.ObjectClass
import AttrFederation.Record
import AttrFederation.SourceError

/-!
# Normalized entries

A directory entry becomes a record and the aliases under which the record is found.  The record
holds the pulled attributes and the present key attributes, which win over pulled ones of the same
name; the aliases are the values of the present key attributes.  Only a security identifier in
binary form that cannot be decoded makes an entry unusable.
-/

namespace AttrFederation

/-- A record and the aliases that lead to it. -/
structure Normalized where
  record : Record
  /-- The normalized value of each key attribute the entry has, in order. -/
  aliases : List String
deriving DecidableEq, Repr

namespace Normalized

/-- The text of a value; of a security identifier in binary form, its text form. -/
def valueText (name : String) (d : Datum) : Except SourceError String :=
  match d with
  | .binary bytes =>
    if Text.asciiEq name SecurityId.attributeName then
      match SecurityId.ofBytes bytes with
      | .ok sid => .ok sid.toText
      | .error fault => .error (.decoding fault.message)
    else .ok d.toText
  | .text text => .ok text

/-- The normalized first value of a key attribute, if the entry has one. -/
def keyValue (e : Entry) (key : KeyAttribute) : Except SourceError (Option String) :=
  match e.first? key.name with
  | none => .ok none
  | some d => (valueText key.name d).map fun text => some (key.normalize text)

/-- What the record holds for a pull attribute. -/
def pulledValue (e : Entry) (pull : PullAttribute) : Except SourceError AttributeValue :=
  match pull.cardinality with
  | .multi => ((e.values pull.name).mapM (valueText pull.name)).map .multi
  | .single =>
    match e.first? pull.name with
    | none => .ok .null
    | some d => (valueText pull.name d).map .single

/-- The names and values of the key attributes that are present. -/
def presentKeys (keys : List KeyAttribute) (values : List (Option String)) :
    List (String × String) :=
  (keys.zip values).filterMap fun (key, value) => value.map fun text => (key.name, text)

/-- A record with further attributes, later ones winning. -/
def insertAll (r : Record) (attributes : List (String × AttributeValue)) : Record :=
  attributes.foldl (fun r (name, value) => r.insert name value) r

/-- The record and the aliases of an entry. -/
def ofEntry (profile : String) (c : ObjectClass) (kind : ObjectKind) (e : Entry) :
    Except SourceError Normalized := do
  let keyValues ← c.keys.mapM (keyValue e)
  let pulled ← c.pulls.attributes.mapM (pulledValue e)
  let present := presentKeys c.keys keyValues
  let id := Record.combinedId profile (keyValues.map fun value => value.getD Record.undefinedKey)
  let attributes :=
    c.pulls.names.zip pulled ++ present.map fun (name, text) => (name, AttributeValue.single text)
  return {
    record := insertAll { domain := profile, id, kind } attributes
    aliases := present.map Prod.snd }

end Normalized

end AttrFederation
