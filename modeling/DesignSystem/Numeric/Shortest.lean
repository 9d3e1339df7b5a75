import DesignSystem.Numeric.Binary64

/-!
# Numbers as decimals

The decimal that represents a number is the one with the fewest digits that reads back as the same
number, and among those the nearest to it. `Layout` says how such digits are laid out as text.

A number can also be written with a given number of decimal places: it is rounded once from its exact
value, a half going to the even neighbour.
-/

set_option autoImplicit false

namespace DesignSystem

/-- The decimal `digits · 10 ^ exponent`. -/
structure Decimal where
  digits : Nat
  exponent : Int
  deriving DecidableEq

namespace Binary64

/-- The reals that round to a number, in quarters of the spacing at it: all lie between `low` and
`high`, and the ends belong to them if `closed`. One quarter is `2 ^ (scale - 1076)`. -/
structure Interval where
  low : Nat
  high : Nat
  closed : Bool

/-- The interval of a number. Below a power of two the numbers lie closer together. -/
def interval (x : Binary64) : Interval :=
  let centre := 4 * x.mantissa
  let narrow := x.mantissa = Nat.pow 2 52 && x.scale != 0
  ⟨centre - (if narrow then 1 else 2), centre + 2, x.mantissa % 2 = 0⟩

/-- Whether `num / den` quarters lie in an interval. -/
def Interval.holds (i : Interval) (num den : Nat) : Bool :=
  if i.closed then i.low * den ≤ num && num ≤ i.high * den
  else i.low * den < num && num < i.high * den

/-- The decimal grid of a given exponent in quarters of the spacing at `x`: a grid point `d` is
`d · fst / snd` quarters. -/
def gridStep (x : Binary64) (exponent : Int) : Nat × Nat :=
  let ten := if 0 ≤ exponent then (Nat.pow 10 exponent.toNat, 1)
    else (1, Nat.pow 10 (-exponent).toNat)
  (ten.1 * Nat.pow 2 1076, ten.2 * Nat.pow 2 x.scale)

/-- The nearer of the two neighbours of `value / den` on the grid of multiples of `num / den`, if one
of them lies in an interval. A tie goes to the even neighbour. -/
def Interval.neighbour? (i : Interval) (value num den : Nat) : Option Nat :=
  let below := value / num
  let below' := value - below * num
  let above' := (below + 1) * num - value
  let preferLow := below' < above' || (below' = above' && below % 2 = 0)
  match i.holds (below * num) den, i.holds ((below + 1) * num) den with
  | true, true => some (if preferLow then below else below + 1)
  | true, false => some below
  | false, true => some (below + 1)
  | false, false => none

/-- The nearer of the two neighbours of `x` on the grid of an exponent, if one of them reads back
as `x`. -/
def onGrid? (x : Binary64) (exponent : Int) : Option Decimal :=
  let (num, den) := x.gridStep exponent
  (x.interval.neighbour? (4 * x.mantissa * den) num den).map (⟨·, exponent⟩)

/-- Whether `10 ^ e` is at most the value of `x`. -/
def atLeastPower (x : Binary64) (e : Int) : Bool :=
  if 0 ≤ e then Nat.pow 10 e.toNat * Nat.pow 2 1074 ≤ x.units
  else Nat.pow 2 1074 ≤ x.units * Nat.pow 10 (-e).toNat

/-- The exponent of the first decimal digit of a positive number. The binary size determines it up
to one, and the comparison with a power of ten decides. -/
def leadingExponent (x : Binary64) : Int :=
  let binary : Int := x.units.log2 - 1074
  let guess := binary * 30103 / 100000
  if x.atLeastPower (guess + 1) then guess + 1
  else if x.atLeastPower guess then guess
  else guess - 1

/-- Drops zeros at the end of the digits, at most `n` of them. -/
def Decimal.dropZeros : Nat → Decimal → Decimal
  | 0, d => d
  | n + 1, d =>
    if d.digits ≠ 0 ∧ d.digits % 10 = 0 then dropZeros n ⟨d.digits / 10, d.exponent + 1⟩ else d

/-- The shortest decimal of a magnitude: the first grid, from one digit up, that has a point
reading back as it. Seventeen digits are always enough. -/
def shortest (x : Binary64) : Decimal :=
  if x.isZero then ⟨0, 0⟩
  else
    let lead := x.leadingExponent
    let found := (List.range 17).findSome? fun (n : Nat) => x.onGrid? (lead - n)
    Decimal.dropZeros 20 (found.getD ⟨0, 0⟩)

end Binary64

/-- Where a decimal is written without an exponent, and how whole numbers and exponents look. -/
structure Layout where
  /-- A number is written without exponent if the exponent of its first digit is in this range. -/
  positional : Int → Bool
  /-- What follows the digits of a whole number. -/
  wholeMark : String
  /-- What stands before a positive exponent. -/
  exponentSign : String

namespace Layout

/-- `n` in decimal digits. -/
def digitsOf (n : Nat) : List Char := Nat.toDigits 10 n

/-- The digits of a decimal with the point in its place. -/
def writePositional (l : Layout) (digits : List Char) (exponent : Int) : List Char :=
  if 0 ≤ exponent then digits ++ List.replicate exponent.toNat '0' ++ l.wholeMark.toList
  else
    let places := (-exponent).toNat
    if places < digits.length then
      let whole := digits.length - places
      digits.take whole ++ '.' :: digits.drop whole
    else '0' :: '.' :: List.replicate (places - digits.length) '0' ++ digits

/-- The digits of a decimal with the point after the first one, and an exponent. -/
def writeScientific (l : Layout) (digits : List Char) (lead : Int) : List Char :=
  let mantissa := match digits with
    | [] => []
    | [d] => [d]
    | d :: rest => d :: '.' :: rest
  let sign := if lead < 0 then ['-'] else l.exponentSign.toList
  mantissa ++ 'e' :: sign ++ digitsOf lead.natAbs

/-- A decimal as text. -/
def writeDecimal (l : Layout) (d : Decimal) : List Char :=
  let digits := digitsOf d.digits
  let lead := d.exponent + digits.length - 1
  if l.positional lead then l.writePositional digits d.exponent
  else l.writeScientific digits lead

/-- A number as text, in its shortest decimal. -/
def write (l : Layout) (x : Binary64) : String :=
  .ofList ((if x.negative then ['-'] else []) ++ l.writeDecimal x.shortest)

/-- No exponent is ever written, and whole numbers are written as integers. -/
def plain : Layout := ⟨fun _ => true, "", ""⟩

end Layout

/-- A scalar written plainly, the special values by name. -/
def Scalar.plainText : Scalar → String
  | .nan => "NaN"
  | .infinite negative => if negative then "-inf" else "inf"
  | .finite x => Layout.plain.write x

/-! ## Fixed places -/

/-- The value of a number in units of `10 ^ -places`, rounded. -/
def Binary64.toPlaces (places : Nat) (x : Binary64) : Nat :=
  roundQuotient (x.units * Nat.pow 10 places) (Nat.pow 2 1074)

/-- A number with a fixed number of decimal places. -/
def Binary64.fixed (places : Nat) (x : Binary64) : String :=
  .ofList ((if x.negative then ['-'] else []) ++
    Layout.plain.writePositional (Layout.digitsOf (x.toPlaces places)) (-places))

/-- A scalar with a fixed number of decimal places, the special values by name. -/
def Scalar.fixedText (places : Nat) : Scalar → String
  | .finite x => x.fixed places
  | s => s.plainText

end DesignSystem
