import AttrFederation.Span
import AttrFederation.Text.Blank
import AttrFederation.Text.Lowercase
import AttrFederation.Text.Numeral

/-!
# Times to live

How long a cache entry may be used.  The text form is `INFINITE` or a count, an underscore and a
unit, and it is read leniently: a count that cannot be read is one, an unknown unit is a day, and a
text without an underscore is one day.
-/

namespace AttrFederation

/-- How long an entry lives. -/
inductive TimeToLive where
  | infinite
  /-- An entry expires when it is older than the lifetime. -/
  | finite (lifetime : Span)
deriving DecidableEq, Repr

namespace TimeToLive

/-- Seconds in a day. -/
def daySecs : Nat := 24 * 60 * 60

def oneDay : TimeToLive :=
  .finite (.ofSecs 86400)

instance : Inhabited TimeToLive := ⟨oneDay⟩

/-- The lifetime of an entry that expires. -/
def lifetime? : TimeToLive → Option Span
  | .infinite => none
  | .finite lifetime => some lifetime

/-- Seconds in a unit; an unknown unit is a day. -/
def unitSecs (unit : String) : Nat :=
  if Text.asciiEq unit "SECS" then 1
  else if Text.asciiEq unit "MINS" then 60
  else if Text.asciiEq unit "HRS" then 3600
  else daySecs

/-- So many units, at most the longest span of whole seconds. -/
def ofUnits (count : UInt64) (unitSecs : Nat) : TimeToLive :=
  .finite (.ofSecs (UInt64.ofNat (min (count.toNat * unitSecs) (UInt64.size - 1))))

/-- The time to live that a text states. -/
def ofText (raw : String) : TimeToLive :=
  let text := Text.trim raw
  if Text.asciiEq text "INFINITE" then .infinite
  else
    match Text.cutAtFirst '_' text with
    | none => oneDay
    | some (count, unit) =>
      ofUnits ((Text.readUInt64? (Text.trim count)).getD 1) (unitSecs (Text.trim unit))

/-- The word `infinite`, or an object with the lifetime. -/
def toJson : TimeToLive → Json
  | .infinite => .string "infinite"
  | .finite lifetime => .object [("finite", lifetime.toJson)]

/-- A time to live as it is written; the word may also be an object's name for null. -/
def ofJson? : Json → Option TimeToLive
  | .object [("finite", lifetime)] => (Span.ofJson? lifetime).map .finite
  | j => if j.choice? = some "infinite" then some .infinite else none

end TimeToLive

end AttrFederation
