import DesignSystem.Entries
import DesignSystem.Numeric.Shortest

/-!
# JSON values

A number is an integer or a 64-bit floating-point number, and the two are different even where the
values agree. An object keeps its fields in the order in which they were written.
-/

set_option autoImplicit false

namespace DesignSystem.Json

/-- A JSON number. -/
inductive Number
  | integer (n : Int)
  | real (x : Binary64)
  deriving DecidableEq

/-- A JSON value. -/
inductive Value
  | null
  | bool (b : Bool)
  | number (n : Number)
  | string (s : String)
  | array (items : List Value)
  | object (fields : List (String × Value))

instance : Inhabited Value := ⟨.null⟩

namespace Number

/-- How floating-point numbers are written: a point or an exponent always shows. -/
def layout : Layout where
  positional lead := -5 ≤ lead && lead < 16
  wholeMark := ".0"
  exponentSign := "+"

/-- A number as text. -/
def text : Number → String
  | integer n => toString n
  | real x => layout.write x

/-- Equality of numbers; the two floating-point zeros are equal. -/
def same : Number → Number → Bool
  | integer m, integer n => m = n
  | real x, real y => x.same y
  | _, _ => false

/-- The number as a 64-bit floating-point number. -/
def toScalar : Number → Scalar
  | integer n => .ofInt n
  | real x => .finite x

/-- A number that is a natural number. -/
def toNat? : Number → Option Nat
  | integer n => if 0 ≤ n then some n.toNat else none
  | real _ => none

end Number

namespace Value

/-- The text of a string. -/
def string? : Value → Option String
  | string s => some s
  | _ => none

/-- The items of an array. -/
def array? : Value → Option (List Value)
  | array items => some items
  | _ => none

/-- The fields of an object. -/
def object? : Value → Option (Entries Value)
  | object fields => some fields
  | _ => none

/-- Whether a value is null. -/
def isNull : Value → Bool
  | null => true
  | _ => false

/-- An integer. -/
def ofNat (n : Nat) : Value := number (.integer n)

mutual

/-- Equality of values. The order of an object's fields does not matter. -/
def same : Value → Value → Bool
  | null, null => true
  | bool a, bool b => a = b
  | number a, number b => a.same b
  | string a, string b => a = b
  | array a, array b => sameItems a b
  | object a, object b => a.length = b.length && sameFields a b
  | _, _ => false

/-- Equality of arrays. -/
def sameItems : List Value → List Value → Bool
  | [], [] => true
  | a :: as, b :: bs => same a b && sameItems as bs
  | _, _ => false

/-- Whether every field of the first list has an equal one in the second. -/
def sameFields : List (String × Value) → Entries Value → Bool
  | [], _ => true
  | (name, a) :: rest, fields =>
    (match fields.get? name with
      | some b => same a b
      | none => false) && sameFields rest fields

end

mutual

/-- The value in which each object has one field of a name: the last value in the first place. -/
def merged : Value → Value
  | array items => array (mergedItems items)
  | object fields => object (mergedFields [] fields)
  | v => v

/-- Merges the items of an array. -/
def mergedItems : List Value → List Value
  | [] => []
  | v :: vs => merged v :: mergedItems vs

/-- Merges fields into those read before. -/
def mergedFields (before : Entries Value) : List (String × Value) → Entries Value
  | [] => before
  | (name, v) :: rest => mergedFields (before.insert name (merged v)) rest

end

end Value

end DesignSystem.Json
