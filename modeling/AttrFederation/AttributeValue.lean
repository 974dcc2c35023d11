import AttrFederation.Json
import AttrFederation.Total

/-!
# Attribute values

What an attribute can be: null, one text, or a list of texts.  The JSON form is a record of a `type`
and a `value`; null has no `value`.
-/

namespace AttrFederation

/-- The value of an attribute. -/
inductive AttributeValue where
  | null
  | single (text : String)
  /-- Any number of texts. -/
  | multi (texts : List String)
deriving DecidableEq, Repr, Inhabited

namespace AttributeValue

/-- The value for people to read. -/
def display : AttributeValue → String
  | null => "null"
  | single text => text
  | multi texts => "[" ++ ", ".intercalate texts ++ "]"

/-- The bytes that the texts take. -/
def size : AttributeValue → Nat
  | null => 0
  | single text => text.utf8ByteSize
  | multi texts => total (texts.map String.utf8ByteSize)

def isNull : AttributeValue → Bool
  | null => true
  | _ => false

def isMulti : AttributeValue → Bool
  | multi _ => true
  | _ => false

/-- The one text of a value that is not a list. -/
def single? : AttributeValue → Option String
  | single text => some text
  | _ => none

def multi? : AttributeValue → Option (List String)
  | multi texts => some texts
  | _ => none

/-! ## JSON form -/

/-- A record of the type's name and the value. -/
def toJson : AttributeValue → Json
  | null => .object [("type", .string "null")]
  | single text => .object [("type", .string "single"), ("value", .string text)]
  | multi texts => .object [("type", .string "multi"), ("value", .strings texts)]

/-- The value of a type: null may be left out or be given as null. -/
def ofParts? (type : String) (content : Option Json) : Option AttributeValue :=
  match type, content with
  | "null", none => some null
  | "null", some .null => some null
  | "single", some j => j.string?.map single
  | "multi", some j => (j.list? Json.string?).map multi
  | _, _ => none

/-- A value from a record of type and value, or from an array of the two.  The record may give the
type in either form of a choice; the array has it as plain text. -/
def ofJson? : Json → Option AttributeValue
  | .object members => do
    let type ← (members.lookup "type").bind Json.choice?
    ofParts? type (members.lookup "value")
  | .array [.string type, content] => ofParts? type (some content)
  | _ => none

/-- A value reads back from its JSON form. -/
theorem ofJson?_toJson (v : AttributeValue) : ofJson? v.toJson = some v := by
  cases v with
  | null => rfl
  | single text => rfl
  | multi texts =>
    have h : ∀ l : List String, (l.map Json.string).mapM Json.string? = some l := fun l => by
      induction l with
      | nil => rfl
      | cons a l ih => simp [Json.string?, ih]
    show (((texts.map Json.string).mapM Json.string?).map multi) = _
    rw [h]
    rfl

end AttributeValue

end AttrFederation
