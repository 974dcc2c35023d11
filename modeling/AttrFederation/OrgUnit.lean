import AttrFederation.Json
import AttrFederation.Text.Blank
import AttrFederation.Text.Lowercase
import AttrFederation.Total

/-!
# Org units

An org unit has an id and five columns, each absent or a list of values.  A unit without any column
is negative: it records that the backend knows nothing about the id.
-/

namespace AttrFederation

/-! ## Columns -/

/-- The columns of an org unit. -/
inductive OrgUnitColumn where
  | storageLocation
  | warehouseNumber
  | businessPartner
  | shippingPoint
  | forceElement
deriving DecidableEq, Repr

namespace OrgUnitColumn

def all : List OrgUnitColumn :=
  [storageLocation, warehouseNumber, businessPartner, shippingPoint, forceElement]

theorem mem_all (column : OrgUnitColumn) : column ∈ all := by
  cases column <;> decide

/-- The key of a column, which is also the name of the attribute it gives. -/
def key : OrgUnitColumn → String
  | storageLocation => "sloc"
  | warehouseNumber => "whnum"
  | businessPartner => "bizpn"
  | shippingPoint => "shippt"
  | forceElement => "fe"

/-- The column of a key, blanks around it and the case of letters aside. -/
def ofKey? (key : String) : Option OrgUnitColumn :=
  all.find? fun column => Text.asciiEq column.key (Text.trim key)

end OrgUnitColumn

/-! ## Units -/

/-- The attributes of an org unit. -/
structure OrgUnit where
  id : String
  storageLocation : Option (List String)
  warehouseNumber : Option (List String)
  businessPartner : Option (List String)
  shippingPoint : Option (List String)
  forceElement : Option (List String)
deriving DecidableEq, Repr

namespace OrgUnit

/-- The unit whose columns a function gives. -/
def ofColumns (id : String) (values : OrgUnitColumn → Option (List String)) : OrgUnit where
  id := id
  storageLocation := values .storageLocation
  warehouseNumber := values .warehouseNumber
  businessPartner := values .businessPartner
  shippingPoint := values .shippingPoint
  forceElement := values .forceElement

def column (u : OrgUnit) : OrgUnitColumn → Option (List String)
  | .storageLocation => u.storageLocation
  | .warehouseNumber => u.warehouseNumber
  | .businessPartner => u.businessPartner
  | .shippingPoint => u.shippingPoint
  | .forceElement => u.forceElement

@[simp] theorem column_ofColumns (id : String) (values : OrgUnitColumn → Option (List String))
    (c : OrgUnitColumn) : (ofColumns id values).column c = values c := by
  cases c <;> rfl

@[simp] theorem id_ofColumns (id : String) (values : OrgUnitColumn → Option (List String)) :
    (ofColumns id values).id = id := rfl

/-- The unit with every column present and without values. -/
def blank (id : String) : OrgUnit :=
  ofColumns id fun _ => some []

/-- The unit with no column: nothing is known about the id. -/
def negative (id : String) : OrgUnit :=
  ofColumns id fun _ => none

/-- The unit with given values for a column. -/
def withColumn (u : OrgUnit) (c : OrgUnitColumn) (values : List String) : OrgUnit :=
  ofColumns u.id fun other => if other = c then some values else u.column other

/-- The unit with one more value in a column, which becomes present. -/
def push (u : OrgUnit) (c : OrgUnitColumn) (value : String) : OrgUnit :=
  u.withColumn c ((u.column c).getD [] ++ [value])

/-- The values of the column that an attribute name stands for. -/
def columnNamed (u : OrgUnit) (name : String) : Option (List String) :=
  (OrgUnitColumn.ofKey? name).bind u.column

/-- No column is present. -/
def isNegative (u : OrgUnit) : Bool :=
  OrgUnitColumn.all.all fun c => (u.column c).isNone

@[simp] theorem isNegative_negative (id : String) : (negative id).isNegative = true := rfl

@[simp] theorem isNegative_blank (id : String) : (blank id).isNegative = false := rfl

/-- The bytes that keeping a text in a list takes beside its characters. -/
def textOverhead : Nat := 24

/-- The bytes that the texts of a unit take. -/
def size (u : OrgUnit) : Nat :=
  u.id.utf8ByteSize
    + total (OrgUnitColumn.all.map fun c =>
        total (((u.column c).getD []).map fun value => value.utf8ByteSize + textOverhead))

/-- A unit as a record of its id and the list of its columns. -/
def toJson (u : OrgUnit) : Json :=
  .object
    [("id", .string u.id),
      ("columns", .array (OrgUnitColumn.all.map fun c => .ofOption .strings (u.column c)))]

end OrgUnit

end AttrFederation
