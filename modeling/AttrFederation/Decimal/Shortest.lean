/-!
# The shortest decimal of a double

A positive finite double stands for `mantissa · 2 ^ exponent`, and every real closer to it than to
its neighbours reads back as it.  `BinaryFraction.shortest` gives the decimal with the fewest digits
in that interval and, among those, the nearest to the double.  The search walks decimal grids from
coarse to fine: on each grid only the two neighbours of the value have to be tested.

`plainText` writes a double without an exponent: all digits of a large number, and as many zeros
after the point as a small one needs.
-/

namespace AttrFederation

/-! ## Doubles as binary fractions -/

/-- A positive number `mantissa · 2 ^ exponent`, whose lower neighbour among the doubles is half as
far away as the upper one when `narrowBelow` holds. -/
structure BinaryFraction where
  mantissa : Nat
  /-- The power of two that scales them. -/
  exponent : Int
  /-- The gap below is half the gap above. -/
  narrowBelow : Bool
deriving DecidableEq, Repr

/-- The fractions that the bits of a double can hold: 52 bits. -/
def fractionSize : Nat := 0x10000000000000

/-- The exponents that the bits of a double can hold: 11 bits. -/
def exponentSize : Nat := 0x800

/-- The fraction in the bits of a double. -/
def fractionField (bits : UInt64) : Nat :=
  bits.toNat % fractionSize

/-- The exponent in the bits of a double. -/
def exponentField (bits : UInt64) : Nat :=
  bits.toNat / fractionSize % exponentSize

/-- The double with these bits is negative. -/
def hasSign (bits : UInt64) : Bool :=
  bits.toNat / fractionSize / exponentSize = 1

/-- The magnitude of a finite double given by its bits, without the sign. -/
def BinaryFraction.ofBits (bits : UInt64) : BinaryFraction :=
  let fraction := fractionField bits
  let field := exponentField bits
  if field = 0 then ⟨fraction, -1074, false⟩
  else ⟨fractionSize + fraction, (field : Int) - 1075, fraction = 0 && 1 < field⟩

/-- A quotient of naturals. -/
structure Ratio where
  num : Nat
  den : Nat
deriving DecidableEq, Repr

/-- `n · base ^ e` as a quotient. -/
def Ratio.scaled (n base : Nat) (e : Int) : Ratio :=
  if 0 ≤ e then ⟨n * Nat.pow base e.toNat, 1⟩ else ⟨n, Nat.pow base (-e).toNat⟩

/-- The order of quotients. -/
def Ratio.le (a b : Ratio) : Bool :=
  a.num * b.den ≤ b.num * a.den

/-- The strict order of quotients. -/
def Ratio.lt (a b : Ratio) : Bool :=
  a.num * b.den < b.num * a.den

/-- The value in quarters of the gap above, so that the ends of the interval are whole. -/
def BinaryFraction.quarters (d : BinaryFraction) (n : Nat) : Ratio :=
  Ratio.scaled n 2 (d.exponent - 2)

/-- The number reads back as the double: it lies between the midpoints to the neighbours, which
themselves count when the mantissa is even. -/
def BinaryFraction.readsBack (d : BinaryFraction) (x : Ratio) : Bool :=
  let low := d.quarters (4 * d.mantissa - if d.narrowBelow then 1 else 2)
  let high := d.quarters (4 * d.mantissa + 2)
  if d.mantissa % 2 = 0 then low.le x && x.le high else low.lt x && x.lt high

/-! ## The search -/

/-- A decimal `digits · 10 ^ exponent`. -/
structure Decimal where
  /-- The digits, read as a number. -/
  digits : Nat
  /-- The power of ten that scales them. -/
  exponent : Int
deriving DecidableEq, Repr

def Decimal.toRatio (x : Decimal) : Ratio :=
  Ratio.scaled x.digits 10 x.exponent

/-- The power of ten at or below a quotient less than one, within a number of steps. -/
def leadingBelowOne : Nat → Ratio → Int
  | 0, _ => 0
  | steps + 1, x => if x.den ≤ x.num then 0 else leadingBelowOne steps ⟨x.num * 10, x.den⟩ - 1

/-- The greatest power of ten at or below a positive quotient. -/
def leadingExponent (x : Ratio) : Int :=
  if x.den ≤ x.num then ((Nat.toDigits 10 (x.num / x.den)).length : Int) - 1
  else leadingBelowOne 400 x

/-- The neighbours of a value on the grid of the multiples of `10 ^ k`. -/
def gridBelow (x : Ratio) (k : Int) : Decimal :=
  if 0 ≤ k then ⟨x.num / (x.den * Nat.pow 10 k.toNat), k⟩
  else ⟨x.num * Nat.pow 10 (-k).toNat / x.den, k⟩

/-- The next multiple above. -/
def Decimal.next (x : Decimal) : Decimal :=
  ⟨x.digits + 1, x.exponent⟩

/-- The value lies closer to the lower of two neighbours on a grid; a tie goes to the upper one. -/
def closerBelow (x : Ratio) (below : Decimal) : Bool :=
  let doubled : Ratio := ⟨2 * x.num, x.den⟩
  doubled.lt (Ratio.scaled (2 * below.digits + 1) 10 below.exponent)

/-- The decimal on a grid that reads back as the double, the nearer one of two. -/
def BinaryFraction.onGrid? (d : BinaryFraction) (k : Int) : Option Decimal :=
  let x := Ratio.scaled d.mantissa 2 d.exponent
  let below := gridBelow x k
  let hitBelow := d.readsBack below.toRatio
  let hitAbove := d.readsBack below.next.toRatio
  match hitBelow, hitAbove with
  | true, true => some (if closerBelow x below then below else below.next)
  | true, false => some below
  | false, true => some below.next
  | false, false => none

/-- The first hit on the grids from `10 ^ k` on, each ten times finer than the one before. -/
def BinaryFraction.search (d : BinaryFraction) : Nat → Int → Decimal
  | 0, k => gridBelow (Ratio.scaled d.mantissa 2 d.exponent) k
  | grids + 1, k =>
    match d.onGrid? k with
    | some x => x
    | none => d.search grids (k - 1)

/-- The decimal with the fewest digits that reads back as the double.  The first grid lies above the
value, where only the next power of ten can be a hit. -/
def BinaryFraction.shortest (d : BinaryFraction) : Decimal :=
  d.search 18 (leadingExponent (Ratio.scaled d.mantissa 2 d.exponent) + 1)

/-! ## Positional text -/

/-- A decimal in positional notation. -/
def Decimal.plain (x : Decimal) : String :=
  let digits := Nat.toDigits 10 x.digits
  if 0 ≤ x.exponent then
    String.ofList (digits ++ List.replicate x.exponent.toNat '0')
  else
    let places := (-x.exponent).toNat
    if places < digits.length then
      let whole := digits.length - places
      String.ofList (digits.take whole ++ '.' :: digits.drop whole)
    else
      String.ofList ('0' :: '.' :: List.replicate (places - digits.length) '0' ++ digits)

/-- A double in positional notation: the shortest decimal that reads back, `inf` and `NaN`. -/
def plainText (x : Float) : String :=
  let bits := x.toBits
  let sign := if hasSign bits then "-" else ""
  if exponentField bits = exponentSize - 1 then
    if fractionField bits = 0 then sign ++ "inf" else "NaN"
  else if fractionField bits = 0 ∧ exponentField bits = 0 then sign ++ "0"
  else sign ++ (BinaryFraction.ofBits bits).shortest.plain

end AttrFederation
