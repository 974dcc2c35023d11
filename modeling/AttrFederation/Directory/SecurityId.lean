import AttrFederation.Text.Bytes
import AttrFederation.Text.Numeral

/-!
# Security identifiers

A security identifier in its binary form has a revision byte, which is one, a count, an authority of
six bytes with the highest first, and as many sub-authorities of four bytes with the lowest first as
the count says; bytes after them do not count.  Its text form is `S-1-`, the authority and each
sub-authority after a dash.  An authority of more than 32 bits is written in hexadecimal digits.
-/

namespace AttrFederation

/-- A security identifier of revision one. -/
structure SecurityId where
  authority : Nat
  /-- The sub-authorities, in order. -/
  subAuthorities : List Nat
deriving DecidableEq, Repr

/-- Why bytes are not a security identifier. -/
inductive SecurityIdError where
  | tooShort (size : Nat)
  | revision (value : Nat)
  | truncated (count size : Nat)
deriving DecidableEq, Repr

def SecurityIdError.message : SecurityIdError → String
  | .tooShort size => "SID too short: " ++ toString size ++ " bytes"
  | .revision value => "SID revision must be 1, got " ++ toString value
  | .truncated count size =>
    "SID declares " ++ toString count ++ " sub-authorities but has " ++ toString size ++ " bytes"

namespace SecurityId

/-- The directory attribute that holds a security identifier. -/
def attributeName : String := "objectSid"

/-- The numbers in the first so many groups of four bytes. -/
def readSubAuthorities : Nat → List UInt8 → List Nat
  | count + 1, a :: b :: c :: d :: rest =>
    Bytes.ofLittleEndian a b c d :: readSubAuthorities count rest
  | _, _ => []

/-- The identifier in its binary form. -/
def ofBytes (bytes : List UInt8) : Except SecurityIdError SecurityId :=
  match bytes with
  | revision :: count :: a :: b :: c :: d :: e :: f :: rest =>
    if revision ≠ 1 then .error (.revision revision.toNat)
    else if rest.length < 4 * count.toNat then .error (.truncated count.toNat bytes.length)
    else .ok ⟨Bytes.ofBigEndian [a, b, c, d, e, f], readSubAuthorities count.toNat rest⟩
  | _ => .error (.tooShort bytes.length)

/-- The authority in decimal digits, or in hexadecimal ones above 32 bits. -/
def authorityText (authority : Nat) : String :=
  if authority < UInt32.size then toString authority else "0x" ++ Text.upperHex authority

def toText (sid : SecurityId) : String :=
  "S-1-" ++ authorityText sid.authority
    ++ String.join (sid.subAuthorities.map fun sub => "-" ++ toString sub)

end SecurityId

end AttrFederation
