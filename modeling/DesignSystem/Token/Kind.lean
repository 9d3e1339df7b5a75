import DesignSystem.Numeric.Reading
import DesignSystem.Token.Tree

/-!
# Kinds of token values

Stylesheets print token values as they are. Other targets have to know whether a value is a color, a
dimension or a plain number, so that they can write it in their own way.
-/

set_option autoImplicit false

namespace DesignSystem.Token

/-- A color as four channels, each below 256. -/
structure Color where
  alpha : Nat
  red : Nat
  green : Nat
  blue : Nat
  deriving DecidableEq

/-- What a token value means. -/
inductive ValueKind
  | color (c : Color)
  /-- A number with a unit. -/
  | dimension (value : Scalar) (unit : String)
  | number (value : Scalar)
  | text (s : String)
  deriving DecidableEq

/-! ## Colors -/

/-- The value of a hexadecimal digit. -/
def hexDigitValue? (c : Char) : Option Nat :=
  if c.isDigit then some (c.toNat - '0'.toNat)
  else if 'a' ≤ c ∧ c ≤ 'f' then some (c.toNat - 'a'.toNat + 10)
  else if 'A' ≤ c ∧ c ≤ 'F' then some (c.toNat - 'A'.toNat + 10)
  else none

namespace Color

/-- The color of hexadecimal digits: three, six, or eight with the opacity last. A single digit per
channel stands for two equal ones. -/
def ofDigits? : List Nat → Option Color
  | [r, g, b] => some ⟨255, 17 * r, 17 * g, 17 * b⟩
  | [r, r', g, g', b, b'] => some ⟨255, 16 * r + r', 16 * g + g', 16 * b + b'⟩
  | [r, r', g, g', b, b', a, a'] =>
    some ⟨16 * a + a', 16 * r + r', 16 * g + g', 16 * b + b'⟩
  | _ => none

/-- The color that a text with a number sign and hexadecimal digits stands for. -/
def ofText? (s : String) : Option Color :=
  match s.toList with
  | '#' :: digits => (digits.mapM hexDigitValue?).bind ofDigits?
  | _ => none

/-- The two uppercase hexadecimal digits of a channel. -/
def channelDigits (n : Nat) : List Char :=
  [(Nat.digitChar (n / 16)).toUpper, (Nat.digitChar (n % 16)).toUpper]

/-- The eight uppercase hexadecimal digits of a color, opacity first. -/
def hexDigits (c : Color) : String :=
  .ofList ([c.alpha, c.red, c.green, c.blue].flatMap channelDigits)

end Color

/-! ## Dimensions -/

/-- The units of dimensions. -/
def units : List String := ["px", "rem", "em", "pt", "dp", "sp", "%", "vh", "vw", "ms", "s"]

/-- Digits with an optional fraction at the front of a text, and the rest. -/
def spanNumber (cs : List Char) : Option (List Char × List Char) :=
  match spanDigits cs with
  | ([], _) => none
  | (whole, '.' :: rest) =>
    match spanDigits rest with
    | ([], _) => none
    | (fraction, rest) => some (whole ++ '.' :: fraction, rest)
  | (whole, rest) => some (whole, rest)

/-- The number and the unit of a dimension. -/
def dimension? (s : String) : Option (Scalar × String) := do
  let (sign, cs) := match s.toList with
    | '-' :: cs => (['-'], cs)
    | cs => ([], cs)
  let (number, rest) ← spanNumber cs
  let unit := String.ofList rest
  if unit ∈ units then
    let value ← Scalar.read? (.ofList (sign ++ number))
    some (value, unit)
  else none

namespace ValueKind

/-- The kind of a text. -/
def ofText (s : String) : ValueKind :=
  let trimmed := Text.trim s
  match Color.ofText? trimmed with
  | some c => color c
  | none =>
    match dimension? trimmed with
    | some (value, unit) => dimension value unit
    | none =>
      match Scalar.read? trimmed with
      | some value => number value
      | none => text s

/-- The kind of a leaf. -/
def ofLeaf : Leaf → ValueKind
  | .number n => number n.toScalar
  | .text s => ofText s
  | leaf => text leaf.render

/-- The root font size, which relative lengths are multiples of. -/
def rootFontSize : Nat := 16

/-- The length in logical pixels, if the value is one. -/
def points? : ValueKind → Option Scalar
  | dimension value unit =>
    if unit ∈ ["px", "pt", "dp", "sp"] then some value
    else if unit ∈ ["rem", "em"] then some (value.mul (.ofNat rootFontSize))
    else none
  | number value => some value
  | _ => none

end ValueKind

end DesignSystem.Token

namespace DesignSystem

/-- A number as a plain numeral. Whole numbers below 10¹⁵ are written as integers, so a negative
zero loses its sign. -/
def Scalar.numeral (x : Scalar) : String :=
  match x with
  | .finite b =>
    let whole := b.units / Nat.pow 2 1074
    if x.isWhole ∧ whole < Nat.pow 10 15 then
      (if b.negative ∧ whole ≠ 0 then "-" else "") ++ toString whole
    else x.plainText
  | _ => x.plainText

end DesignSystem
