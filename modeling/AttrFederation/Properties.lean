import AttrFederation.Text.Blank
import AttrFederation.Text.Lowercase
import AttrFederation.Text.Numeral

/-!
# Properties

The flat set of named texts that settings and profiles are read from.  A value counts without the
blanks around it, and a blank value counts as absent.
-/

namespace AttrFederation

/-- Named texts; of two entries with one name the first counts. -/
structure Properties where
  entries : List (String × String)
deriving Repr

namespace Properties

/-- The trimmed value of a property that is present and not blank. -/
def get? (props : Properties) (key : String) : Option String :=
  (props.entries.lookup key).bind fun raw =>
    let value := Text.trim raw
    if value.isEmpty then none else some value

/-- The entries whose name passes a test. -/
def restrict (props : Properties) (keep : String → Bool) : Properties :=
  ⟨props.entries.filter fun (key, _) => keep key⟩

/-- A 32-bit number, or the default for what is absent or no such number. -/
def uint32 (props : Properties) (key : String) (default : UInt32) : UInt32 :=
  ((props.get? key).bind Text.readUInt32?).getD default

/-- A 64-bit number, or the default for what is absent or no such number. -/
def uint64 (props : Properties) (key : String) (default : UInt64) : UInt64 :=
  ((props.get? key).bind Text.readUInt64?).getD default

/-- The value is the word `true` in any case; absent, it is the default. -/
def flag (props : Properties) (key : String) (default : Bool) : Bool :=
  match props.get? key with
  | none => default
  | some value => Text.asciiEq value "true"

/-- The non-blank parts of a list with separators. -/
def list (props : Properties) (key : String) (sep : Char) : List String :=
  match props.get? key with
  | none => []
  | some value => Text.splitTrimmed sep value

end Properties

end AttrFederation
