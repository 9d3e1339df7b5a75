import DesignSystem.Json.Printer
import DesignSystem.Template.Tree
import DesignSystem.Text.Words

/-!
# Helpers

The functions that templates can call: on names, on texts, on collections, and on truth values.
-/

set_option autoImplicit false

namespace DesignSystem.Template

open Json (Value)

/-- Why a template cannot be used. -/
inductive Fault
  /-- The text is no template. -/
  | malformed
  | unknownHelper (name : String)
  | missingArgument (helper : String)
  | wrongArgument (helper : String)
  | unknownPart (name : String)
  /-- A list is asked for something that is no position. -/
  | badPosition (name : String)
  /-- No template has this name. -/
  | unregistered (name : String)
  deriving DecidableEq

/-- The fault in words. -/
def Fault.message : Fault → String
  | malformed => "malformed template"
  | unknownHelper name => s!"unknown helper {name}"
  | missingArgument helper => s!"missing argument of {helper}"
  | wrongArgument helper => s!"wrong argument of {helper}"
  | unknownPart name => s!"unknown part {name}"
  | badPosition name => s!"no position in a list: {name}"
  | unregistered name => s!"unknown template {name}"

/-! ## Truth and text of values -/

/-- Whether a number counts as true: if it is neither zero nor too small for full precision. A zero
counts too where `zeroCounts`. -/
def numberIsTrue (zeroCounts : Bool) (n : Json.Number) : Bool :=
  match n.toScalar with
  | .finite x => zeroCounts || Nat.pow 2 52 ≤ x.units
  | _ => false

/-- Whether a value counts as true. -/
def isTrue (zeroCounts : Bool) : Value → Bool
  | .null => false
  | .bool b => b
  | .number n => numberIsTrue zeroCounts n
  | .string s => !s.isEmpty
  | .array items => !items.isEmpty
  | .object fields => !fields.isEmpty

mutual

/-- A value as it is shown. -/
def display : Value → String
  | .null => ""
  | .bool b => if b then "true" else "false"
  | .number n => n.text
  | .string s => s
  | .array items => "[" ++ Text.join ", " (displayAll items) ++ "]"
  | .object _ => "[object]"

/-- Values as they are shown. -/
def displayAll : List Value → List String
  | [] => []
  | v :: vs => display v :: displayAll vs

end

/-! ## Helpers -/

/-- How a helper writes a name anew. -/
inductive Recasing
  | pascal | camel | snake | kebab | upper | lower
  deriving DecidableEq

/-- A text written anew. -/
def Recasing.apply : Recasing → String → String
  | pascal => Text.pascal
  | camel => Text.camel
  | snake => Text.snake
  | kebab => Text.kebab
  | upper => Text.upper
  | lower => Text.lower

/-- How a helper compares integers. -/
inductive Comparison
  | greater | greaterOrEqual | less | lessOrEqual
  deriving DecidableEq

/-- Whether a comparison holds. -/
def Comparison.holds (a b : Int) : Comparison → Bool
  | greater => b < a
  | greaterOrEqual => b ≤ a
  | less => a < b
  | lessOrEqual => a ≤ b

/-- A helper. -/
inductive Helper
  /-- Shows its body if its argument counts as `expected`. -/
  | branch (expected : Bool)
  /-- Shows its body for every item or field. -/
  | each
  /-- Shows its body with its argument in scope. -/
  | within
  /-- Shows its body as it is. -/
  | plain
  /-- Shows nothing. -/
  | silent
  | recase (style : Recasing)
  | indent | join | lookup
  | equal (expected : Bool)
  | compare (c : Comparison)
  | both | either | negate | size
  deriving DecidableEq

namespace Helper

/-- The helpers by name. -/
def all : Entries Helper := [
  ("if", branch true), ("unless", branch false), ("each", each), ("with", within),
  ("raw", plain), ("log", silent), ("lookup", lookup), ("eq", equal true), ("ne", equal false),
  ("gt", compare .greater), ("gte", compare .greaterOrEqual), ("lt", compare .less),
  ("lte", compare .lessOrEqual), ("and", both), ("or", either), ("not", negate), ("len", size),
  ("pascal_case", recase .pascal), ("camel_case", recase .camel), ("snake_case", recase .snake),
  ("kebab_case", recase .kebab), ("upper", recase .upper), ("lower", recase .lower),
  ("indent", indent), ("join", join)]

/-- The helper of a name. -/
def ofName? (name : String) : Option Helper := all.get? name

/-- An integer in the range of 64 bits. -/
def integer? : Value → Option Int
  | .number (.integer n) =>
    if -0x8000000000000000 ≤ n ∧ n < 0x8000000000000000 then some n else none
  | _ => none

/-- The width of an indentation; four if no natural number is given. -/
def width (v : Option Value) : Nat :=
  match v with
  | some (.number n) => n.toNat?.getD 4
  | _ => 4

/-- The text of an argument; empty if it is none. -/
def textOf (v : Option Value) : String := (v.bind Value.string?).getD ""

/-- An item of a list or a field of an object; null if there is none. -/
def lookUp (collection key : Value) : Value :=
  match collection, key with
  | .array items, .number n => (n.toNat?.bind fun i => items[i]?).getD .null
  | .object fields, .string name => (Entries.get? name fields).getD .null
  | _, _ => .null

/-- The number of items, fields, or bytes of a text. -/
def sizeOf : Value → Nat
  | .array items => items.length
  | .object fields => fields.length
  | .string s => s.utf8ByteSize
  | _ => 0

/-- The labels of items, joined. What is no list has none. -/
def joined (v : Option Value) (separator : Option Value) : String :=
  match v with
  | some (.array items) =>
    Text.join ((separator.bind Value.string?).getD ", ") (items.map Value.label)
  | _ => ""

/-- The value of a call. A helper for blocks has no value but the text that it shows without a body,
which is empty. -/
def value (name : String) (h : Helper) (arguments : List Value) : Except Fault Value :=
  let missing := Except.error (.missingArgument name)
  match h, arguments with
  | branch _, [] => missing
  | each, [] => missing
  | within, [] => missing
  | branch _, _ => .ok (.string "")
  | each, _ => .ok (.string "")
  | within, _ => .ok (.string "")
  | plain, _ => .ok (.string "")
  | silent, _ => .ok (.string "")
  | recase style, args => .ok (.string (style.apply (textOf args[0]?)))
  | indent, args => .ok (.string (Text.indent (width args[1]?) (textOf args[0]?)))
  | join, args => .ok (.string (joined args[0]? args[1]?))
  | lookup, a :: b :: _ => .ok (lookUp a b)
  | equal expected, a :: b :: _ => .ok (.bool (a.same b == expected))
  | compare c, a :: b :: _ =>
    match integer? a, integer? b with
    | some a, some b => .ok (.bool (c.holds a b))
    | _, _ => .error (.wrongArgument name)
  | both, a :: b :: _ => .ok (.bool (isTrue false a && isTrue false b))
  | either, a :: b :: _ => .ok (.bool (isTrue false a || isTrue false b))
  | negate, a :: _ => .ok (.bool (!isTrue false a))
  | size, a :: _ => .ok (.ofNat (sizeOf a))
  | _, _ => missing

end Helper

end DesignSystem.Template
