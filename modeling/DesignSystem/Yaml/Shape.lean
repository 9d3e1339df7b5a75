import DesignSystem.Json.Basic
import DesignSystem.Yaml.Node

/-!
# Shapes

What a YAML scalar means depends on what is wanted in its place: `5` is a text where a text is
wanted, and a number where a number is. A shape says what is wanted, and a node of that shape is a
JSON value.
-/

set_option autoImplicit false

namespace DesignSystem.Yaml

open Json (Value)

/-- What is wanted in a place. -/
inductive Shape
  | text
  | bool
  | natural
  | optional (s : Shape)
  | list (s : Shape)
  | map (s : Shape)
  /-- Fields of given names, in braces or as the list of their values. -/
  | record (fields : List (String × Shape))

/-- The truth value of a scalar. -/
def boolOf? (text : String) : Option Bool :=
  if ["true", "True", "TRUE"].contains text then some true
  else if ["false", "False", "FALSE"].contains text then some false
  else none

/-- Whether a scalar stands for nothing. -/
def isNull (text : String) : Bool := ["", "~", "null", "Null", "NULL"].contains text

/-- The digit of a character in a base of at most sixteen. -/
def digitOf? (base : Nat) (c : Char) : Option Nat :=
  let d := if c.isDigit then c.toNat - 48
    else if 'a' ≤ c ∧ c ≤ 'f' then c.toNat - 87
    else if 'A' ≤ c ∧ c ≤ 'F' then c.toNat - 55
    else base
  if d < base then some d else none

/-- The number of digits in a base; at least one digit. -/
def numeral? (base : Nat) (cs : List Char) : Option Nat :=
  if cs.isEmpty then none
  else cs.foldl (fun n c => do some ((← n) * base + (← digitOf? base c))) (some 0)

/-- The natural number of a scalar. A decimal number does not begin with a superfluous zero. -/
def naturalOf? (text : String) : Option Nat :=
  let cs := match text.toList with
    | '+' :: cs => cs
    | cs => cs
  match cs with
  | '0' :: 'x' :: digits => numeral? 16 digits
  | '0' :: 'o' :: digits => numeral? 8 digits
  | '0' :: 'b' :: digits => numeral? 2 digits
  | '0' :: _ :: _ => none
  | digits => numeral? 10 digits

mutual

/-- The JSON value of a node of a shape. -/
def Node.toJson? : Shape → Node → Option Value
  | .text, .scalar s _ => some (.string s)
  | .bool, .scalar s true => (boolOf? s).map .bool
  | .natural, .scalar s true => (naturalOf? s).map Value.ofNat
  | .optional shape, .scalar s true =>
    if isNull s then some .null else Node.toJson? shape (.scalar s true)
  | .optional shape, node => Node.toJson? shape node
  | .list shape, .list items => (itemsToJson? shape items).map .array
  | .list _, .scalar "" true => some (.array [])
  | .map shape, .map entries => (entriesToJson? shape entries).map .object
  | .map _, .scalar "" true => some (.object [])
  | .record fields, .map entries => (fieldsToJson? fields entries).map .object
  | .record fields, .list items => (partsToJson? fields items).map .array
  | .record _, .scalar "" true => some (.object [])
  | _, _ => none

/-- The values of items of one shape. -/
def itemsToJson? (shape : Shape) : List Node → Option (List Value)
  | [] => some []
  | node :: rest => do (← Node.toJson? shape node) :: (← itemsToJson? shape rest)

/-- The values of entries of one shape. -/
def entriesToJson? (shape : Shape) : List (String × Node) → Option (List (String × Value))
  | [] => some []
  | (name, node) :: rest => do
    (name, ← Node.toJson? shape node) :: (← entriesToJson? shape rest)

/-- The values of the fields that are wanted; others are left out. -/
def fieldsToJson? (fields : List (String × Shape)) :
    List (String × Node) → Option (List (String × Value))
  | [] => some []
  | (name, node) :: rest => do
    let others ← fieldsToJson? fields rest
    match fields.lookup name with
    | some shape => (name, ← Node.toJson? shape node) :: others
    | none => others

/-- The values of fields in order. More items than fields are too many. -/
def partsToJson? : List (String × Shape) → List Node → Option (List Value)
  | _, [] => some []
  | [], _ :: _ => none
  | (_, shape) :: fields, node :: rest => do
    (← Node.toJson? shape node) :: (← partsToJson? fields rest)

end

end DesignSystem.Yaml
