import DesignSystem.Numeric.Binary64

/-!
# Reading decimal numbers

A number is an optional sign, digits with an optional point among or around them, and an optional
exponent; or one of the words for the special values. It is read as the nearest 64-bit number.
-/

set_option autoImplicit false

namespace DesignSystem

/-- The number that decimal digits stand for, continuing from `n`. -/
def digitsValue (n : Nat) (cs : List Char) : Nat :=
  cs.foldl (fun n c => n * 10 + (c.toNat - '0'.toNat)) n

/-- The digits at the front of a text, and the rest. -/
def spanDigits (cs : List Char) : List Char × List Char := cs.span Char.isDigit

namespace Scalar

/-- The exponent part: nothing, or `e` with an optional sign and digits. -/
def readExponent : List Char → Option Int
  | [] => some 0
  | c :: cs =>
    if c ≠ 'e' ∧ c ≠ 'E' then none
    else
      let (negative, body) := match cs with
        | '-' :: r => (true, r)
        | '+' :: r => (false, r)
        | r => (false, r)
      if body.isEmpty || !body.all Char.isDigit then none
      else
        let n : Int := digitsValue 0 body
        some (if negative then -n else n)

/-- The value of digits and an exponent. An exponent so large or small that the result is certain
is not computed with. -/
def ofDigits (negative : Bool) (digits : List Char) (exponent : Int) : Scalar :=
  let n := digitsValue 0 digits
  if n = 0 then .ofQuotient negative 0 1
  else if 400 < exponent then .infinite negative
  else if exponent + digits.length < -400 then .ofQuotient negative 0 1
  else .ofDecimal negative n exponent

/-- A number without its sign. -/
def readUnsigned (negative : Bool) (cs : List Char) : Option Scalar :=
  let (whole, rest) := spanDigits cs
  let (fraction, rest) := match rest with
    | '.' :: r => spanDigits r
    | r => ([], r)
  if whole.isEmpty && fraction.isEmpty then
    match String.ofList (cs.map Char.toLower) with
    | "inf" | "infinity" => some (.infinite negative)
    | "nan" => some .nan
    | _ => none
  else
    (readExponent rest).map fun e =>
      .ofDigits negative (whole ++ fraction) (e - fraction.length)

/-- Reads a number. -/
def read? (s : String) : Option Scalar :=
  match s.toList with
  | '-' :: cs => readUnsigned true cs
  | '+' :: cs => readUnsigned false cs
  | cs => readUnsigned false cs

/-- Whether a number is whole. -/
def isWhole : Scalar → Bool
  | .finite x => x.units % Nat.pow 2 1074 = 0
  | _ => false

end Scalar

end DesignSystem
