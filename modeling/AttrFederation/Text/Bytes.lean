/-!
# Numbers as bytes

Numbers in the order of their bytes that binary forms use, highest first or lowest first.
-/

namespace AttrFederation.Bytes

/-- A number from its bytes, the highest first. -/
def ofBigEndian (bytes : List UInt8) : Nat :=
  bytes.foldl (fun n b => n * 256 + b.toNat) 0

/-- A number of four bytes, the lowest first. -/
def ofLittleEndian (a b c d : UInt8) : Nat :=
  a.toNat + 256 * b.toNat + 65536 * c.toNat + 16777216 * d.toNat

/-- The lowest four bytes of a number, the lowest first. -/
def toLittleEndian (n : Nat) : List UInt8 :=
  [UInt8.ofNat n, UInt8.ofNat (n / 256), UInt8.ofNat (n / 65536), UInt8.ofNat (n / 16777216)]

end AttrFederation.Bytes
