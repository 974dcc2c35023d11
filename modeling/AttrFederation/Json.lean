/-!
# JSON values

The values that settings and records are exchanged in, and the readers for their parts.  A number
is either a natural or kept as its text.  A record is written as an object; it may also be read from
an array of its fields in order, of which the last ones may be missing.
-/

namespace AttrFederation

/-- A JSON value.  The members of an object keep their order. -/
inductive Json where
  | null
  | bool (value : Bool)
  | natural (value : Nat)
  /-- Any other number, as its text. -/
  | number (text : String)
  | string (value : String)
  | array (items : List Json)
  | object (members : List (String × Json))
deriving Repr

namespace Json

/-! ## Writing -/

/-- The null value for nothing. -/
def ofOption (write : α → Json) : Option α → Json
  | none => null
  | some a => write a

def strings (items : List String) : Json :=
  array (items.map string)

/-! ## Reading -/

def bool? : Json → Option Bool
  | bool b => some b
  | _ => none

def string? : Json → Option String
  | string s => some s
  | _ => none

def natural? : Json → Option Nat
  | natural n => some n
  | _ => none

def uint32? (j : Json) : Option UInt32 := do
  let n ← j.natural?
  if n < UInt32.size then some (UInt32.ofNat n) else none

def uint64? (j : Json) : Option UInt64 := do
  let n ← j.natural?
  if n < UInt64.size then some (UInt64.ofNat n) else none

/-- A list, each of whose items can be read. -/
def list? (read : Json → Option α) : Json → Option (List α)
  | array items => items.mapM read
  | _ => none

def optional? (read : Json → Option α) : Json → Option (Option α)
  | null => some none
  | j => (read j).map some

/-- The value of an object's member. -/
def member? (name : String) : Json → Option Json
  | object members => members.lookup name
  | _ => none

/-- The fields of a record of so many fields, by position and name: the members of an object, or
the items of an array. -/
def fields? (count : Nat) : Json → Option (Nat → String → Option Json)
  | object members => some fun _ name => members.lookup name
  | array items => if items.length ≤ count then some fun position _ => items[position]? else none
  | _ => none

/-- A choice without content: its name, or an object with that name alone and the value null. -/
def choice? : Json → Option String
  | string name => some name
  | object [(name, null)] => some name
  | _ => none

@[simp] theorem uint32?_natural_toNat (n : UInt32) : uint32? (natural n.toNat) = some n := by
  simp [uint32?, natural?, n.toNat_lt]

@[simp] theorem uint64?_natural_toNat (n : UInt64) : uint64? (natural n.toNat) = some n := by
  simp [uint64?, natural?, n.toNat_lt]

end Json

/-- A field that may be missing: its default, or what is read from it. -/
def orDefault (default : α) (read : Json → Option α) : Option Json → Option α
  | none => some default
  | some j => read j

/-- A field that has to be there. -/
def required (read : Json → Option α) (field : Option Json) : Option α :=
  field.bind read

end AttrFederation
