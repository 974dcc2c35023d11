import AttrFederation.Assoc

/-!
# Backend tables

A backend function takes named texts and tables and returns named tables.  A table is a list of
rows, and a row has named cells.
-/

namespace AttrFederation

abbrev TableRow := Assoc String

abbrev Table := List TableRow

/-- What a backend function is given. -/
structure BackendImports where
  scalars : Assoc String := ∅
  tables : Assoc Table := ∅
deriving DecidableEq, Repr

structure BackendResponse where
  tables : Assoc Table := ∅
deriving DecidableEq, Repr

namespace BackendResponse

def empty : BackendResponse := {}

def isEmpty (r : BackendResponse) : Bool :=
  r.tables.entries.isEmpty

end BackendResponse

end AttrFederation
