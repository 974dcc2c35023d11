import AttrFederation.Backend.Table
import AttrFederation.OrgUnit

/-!
# Org-unit batches

The backend is asked for all org units, or for those of given ids.  Its response has a return table,
whose rows report errors, and a detail table with a row for each value of each org unit.

A batch is what a response says: a unit for every id with detail rows, and a negative unit for every
id that was asked for and has none.  A response without a return table, and one without a detail
table, say nothing; one with error rows says that nothing is known about any id asked for.
-/

namespace AttrFederation

/-! ## Requests -/

/-- What the backend is asked for. -/
inductive BackendRequest where
  | all
  /-- The org units of these ids. -/
  | only (ids : List String)
deriving DecidableEq, Repr

namespace BackendRequest

/-- The table of the ids asked for. -/
def idTable : String := "IT_AOR_ID"

/-- The name of the flag that asks for every org unit. -/
def allFlag : String := "IV_GET_ALL"

def flagYes : String := "X"

/-- The column with the id of an org unit. -/
def idColumn : String := "AOR_ID"

/-- The column with the key of a detail. -/
def keyColumn : String := "KEY"

/-- The column with the value of a detail. -/
def valueColumn : String := "VALUE"

def returnTable : String := "ET_RETURN"

def detailTable : String := "ET_AOR_DETAILS"

/-- The ids asked for by name. -/
def requested : BackendRequest → List String
  | all => []
  | only ids => ids

/-- What the backend function is given. -/
def imports (r : BackendRequest) : BackendImports where
  scalars := .ofList [(allFlag, if r = all then flagYes else "")]
  tables := .ofList [(idTable, r.requested.map fun id => .ofList [(idColumn, id)])]

end BackendRequest

/-! ## Details -/

/-- One value of an org unit. -/
structure Detail where
  id : String
  /-- The key of the value's column. -/
  key : String
  value : String
deriving DecidableEq, Repr

namespace Detail

/-- The detail of a row; a row that lacks a cell has none. -/
def ofRow? (row : TableRow) : Option Detail := do
  let id ← row.get? BackendRequest.idColumn
  let key ← row.get? BackendRequest.keyColumn
  let value ← row.get? BackendRequest.valueColumn
  return ⟨id, key, value⟩

def toRow (d : Detail) : TableRow :=
  .ofList
    [(BackendRequest.idColumn, d.id), (BackendRequest.keyColumn, d.key),
      (BackendRequest.valueColumn, d.value)]

/-- The unit with a detail: its value stands once in its column, and a key that names no column
changes nothing. -/
def addTo (d : Detail) (u : OrgUnit) : OrgUnit :=
  match OrgUnitColumn.ofKey? d.key with
  | none => u
  | some column =>
    if ((u.column column).getD []).contains d.value then u else u.push column d.value

/-- The units with a detail added to the one of its id, which is new if there is none. -/
def collect (units : Assoc OrgUnit) (d : Detail) : Assoc OrgUnit :=
  units.set d.id (d.addTo ((units.get? d.id).getD (.blank d.id)))

end Detail

/-! ## Batches -/

/-- What a response says about org units. -/
structure Batch where
  /-- A unit for every id with details, in the order in which the ids first come. -/
  records : List OrgUnit := []
  /-- A negative unit for every id asked for without details, in the order asked. -/
  negatives : List OrgUnit := []
deriving DecidableEq, Repr

namespace Batch

def isEmpty (b : Batch) : Bool :=
  b.records.isEmpty && b.negatives.isEmpty

/-- The batch of a detail table. -/
def ofDetails (details : List Detail) (requested : List String) : Batch :=
  let units := details.foldl Detail.collect ∅
  { records := units.entries.map Prod.snd
    negatives := (requested.filter fun id => !units.contains id).map OrgUnit.negative }

/-- The batch of a response to a request for the given ids. -/
def ofResponse (response : BackendResponse) (requested : List String) : Batch :=
  match response.tables.get? BackendRequest.returnTable with
  | none => {}
  | some (_ :: _) => { negatives := requested.map OrgUnit.negative }
  | some [] =>
    match response.tables.get? BackendRequest.detailTable with
    | none => {}
    | some rows => ofDetails (rows.filterMap Detail.ofRow?) requested

end Batch

end AttrFederation
