import DesignSystem.Json.Basic
import DesignSystem.Text.Basic

/-!
# JSON text

The compact text of a value, with no white space between its parts, and the indented text, with
each item and field on a line of its own.
-/

set_option autoImplicit false

namespace DesignSystem.Json

/-- A hexadecimal digit in lower case. -/
def hexDigit (n : Nat) : Char := Nat.digitChar n

/-- A character as it is written inside a JSON string. -/
def escapeChar (c : Char) : List Char :=
  if c = '"' then ['\\', '"']
  else if c = '\\' then ['\\', '\\']
  else if c = '\n' then ['\\', 'n']
  else if c = '\r' then ['\\', 'r']
  else if c = '\t' then ['\\', 't']
  else if c = '\x08' then ['\\', 'b']
  else if c = '\x0c' then ['\\', 'f']
  else if c.toNat < 32 then
    ['\\', 'u', '0', '0', hexDigit (c.toNat / 16), hexDigit (c.toNat % 16)]
  else [c]

/-- A text as a JSON string. -/
def quoted (s : String) : String := .ofList ('"' :: s.toList.flatMap escapeChar ++ ['"'])

namespace Value

mutual

/-- The compact text of a value. -/
def compact : Value → String
  | null => "null"
  | bool b => if b then "true" else "false"
  | number n => n.text
  | string s => quoted s
  | array items => "[" ++ Text.join "," (compactItems items) ++ "]"
  | object fields => "\x7b" ++ Text.join "," (compactFields fields) ++ "\x7d"

/-- The compact texts of items. -/
def compactItems : List Value → List String
  | [] => []
  | v :: vs => compact v :: compactItems vs

/-- The compact texts of fields. -/
def compactFields : List (String × Value) → List String
  | [] => []
  | (name, v) :: rest => (quoted name ++ ":" ++ compact v) :: compactFields rest

end

/-- Lines between two brackets, one step further in; nothing between them if there are none. -/
def block (depth : Nat) (openMark closeMark : String) (parts : List String) : String :=
  if parts.isEmpty then openMark ++ closeMark
  else
    let inner := "\n" ++ Text.repeated ' ' (2 * (depth + 1))
    openMark ++ inner ++ Text.join ("," ++ inner) parts ++ "\n" ++ Text.repeated ' ' (2 * depth)
      ++ closeMark

mutual

/-- The indented text of a value at a depth of nesting. -/
def indented (depth : Nat) : Value → String
  | array items => block depth "[" "]" (indentedItems (depth + 1) items)
  | object fields => block depth "\x7b" "\x7d" (indentedFields (depth + 1) fields)
  | null => "null"
  | bool b => if b then "true" else "false"
  | number n => n.text
  | string s => quoted s

/-- The indented texts of items. -/
def indentedItems (depth : Nat) : List Value → List String
  | [] => []
  | v :: vs => indented depth v :: indentedItems depth vs

/-- The indented texts of fields. -/
def indentedFields (depth : Nat) : List (String × Value) → List String
  | [] => []
  | (name, v) :: rest => (quoted name ++ ": " ++ indented depth v) :: indentedFields depth rest

end

/-- A value as a plain label: a string is its own text. -/
def label : Value → String
  | string s => s
  | v => v.compact

end Value

end DesignSystem.Json
