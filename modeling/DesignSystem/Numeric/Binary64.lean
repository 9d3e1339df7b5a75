/-!
# Binary floating-point numbers

A finite 64-bit number is a sign and a magnitude that counts the representable numbers from zero
up to it, so magnitudes are ordered as the numbers are. All arithmetic is exact arithmetic on
natural numbers followed by one rounding to the nearest number, a tie going to the even one.
-/

set_option autoImplicit false

namespace DesignSystem

/-- A finite 64-bit binary floating-point number. -/
structure Binary64 where
  negative : Bool
  magnitude : Nat
  magnitude_lt : magnitude < 2047 * Nat.pow 2 52
  deriving DecidableEq

/-- What arithmetic on such numbers gives: a finite number, an infinity, or no number. -/
inductive Scalar
  | nan
  | infinite (negative : Bool)
  | finite (x : Binary64)
  deriving DecidableEq

namespace Binary64

/-- Positive zero. -/
def zero : Binary64 := ⟨false, 0, by decide⟩

instance : Inhabited Binary64 := ⟨zero⟩

/-- The same number with the other sign. -/
def neg (x : Binary64) : Binary64 := ⟨!x.negative, x.magnitude, x.magnitude_lt⟩

/-- Whether a number is one of the two zeros. -/
def isZero (x : Binary64) : Bool := x.magnitude = 0

/-- How many doublings lie between the spacing of the smallest numbers and the spacing at `x`. -/
def scale (x : Binary64) : Nat := x.magnitude / Nat.pow 2 52 - 1

/-- The number in units of its spacing. Its value is `mantissa · 2 ^ scale / 2 ^ 1074`. -/
def mantissa (x : Binary64) : Nat := x.magnitude - x.scale * Nat.pow 2 52

/-- The value in units of the smallest positive number, `2 ^ -1074`. -/
def units (x : Binary64) : Nat := x.mantissa * Nat.pow 2 x.scale

/-- Equality of values: the two zeros are equal. -/
def same (x y : Binary64) : Bool :=
  x.magnitude = y.magnitude && (x.negative = y.negative || x.magnitude = 0)

/-- The order of values. -/
def less (x y : Binary64) : Bool :=
  match x.negative, y.negative with
  | false, false => x.magnitude < y.magnitude
  | true, true => y.magnitude < x.magnitude
  | true, false => 0 < x.magnitude || 0 < y.magnitude
  | false, true => false

end Binary64

/-- A quotient rounded to the nearest natural number, a half going to the even neighbour. -/
def roundQuotient (num den : Nat) : Nat :=
  let q := num / den
  let r := num % den
  if 2 * r < den then q else if den < 2 * r then q + 1 else if q % 2 = 0 then q else q + 1

/-- The number nearest to `num / den`; `den` is positive. A quotient that rounds beyond the
largest finite number is infinite. -/
def Scalar.ofQuotient (negative : Bool) (num den : Nat) : Scalar :=
  -- `num · 2 ^ 1074 / den` counts smallest numbers; `k` doublings leave 53 binary digits of it
  let units := num * Nat.pow 2 1074
  let guess := units.log2 - den.log2 - 53
  let k := if units / (den * Nat.pow 2 guess) < Nat.pow 2 53 then guess else guess + 1
  let magnitude := k * Nat.pow 2 52 + roundQuotient units (den * Nat.pow 2 k)
  if h : magnitude < 2047 * Nat.pow 2 52 then .finite ⟨negative, magnitude, h⟩
  else .infinite negative

namespace Scalar

/-- The number nearest to a natural number. -/
def ofNat (n : Nat) : Scalar := .ofQuotient false n 1

/-- The number nearest to an integer. -/
def ofInt (i : Int) : Scalar := .ofQuotient (i < 0) i.natAbs 1

/-- The number nearest to `digits · 10 ^ exponent`. -/
def ofDecimal (negative : Bool) (digits : Nat) (exponent : Int) : Scalar :=
  if 0 ≤ exponent then .ofQuotient negative (digits * Nat.pow 10 exponent.toNat) 1
  else .ofQuotient negative digits (Nat.pow 10 (-exponent).toNat)

/-- The sign of a scalar; the sign of no number is positive. -/
def isNegative : Scalar → Bool
  | .nan => false
  | .infinite negative => negative
  | .finite x => x.negative

/-- Whether a scalar is one of the two zeros. -/
def isZero : Scalar → Bool
  | .finite x => x.isZero
  | _ => false

/-- The product, rounded. -/
def mul : Scalar → Scalar → Scalar
  | .finite x, .finite y =>
    .ofQuotient (x.negative != y.negative) (x.units * y.units) (Nat.pow 2 2148)
  | .nan, _ => .nan
  | _, .nan => .nan
  | x, y =>
    if x.isZero || y.isZero then .nan else .infinite (x.isNegative != y.isNegative)

/-- The quotient, rounded. -/
def div : Scalar → Scalar → Scalar
  | .nan, _ => .nan
  | _, .nan => .nan
  | .infinite _, .infinite _ => .nan
  | .infinite negative, y => .infinite (negative != y.isNegative)
  | x, .infinite negative => .ofQuotient (x.isNegative != negative) 0 1
  | .finite x, .finite y =>
    if y.isZero then (if x.isZero then .nan else .infinite (x.negative != y.negative))
    else .ofQuotient (x.negative != y.negative) x.units y.units

/-- The scalar with the given sign. -/
def withSign (negative : Bool) : Scalar → Scalar
  | .nan => .nan
  | .infinite _ => .infinite negative
  | .finite x => .finite ⟨negative, x.magnitude, x.magnitude_lt⟩

end Scalar

end DesignSystem
