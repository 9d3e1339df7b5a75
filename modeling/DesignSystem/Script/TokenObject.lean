import DesignSystem.Text.Quoted
import DesignSystem.Token.Resolve

/-!
# Token objects

Scripts read tokens from a nested object whose keys are the keys of the token trees.
-/

set_option autoImplicit false

namespace DesignSystem.Script

/-- A nested object in the making: at each place a literal, which hides all that is below it, and
the named places below. -/
inductive TokenObject
  | place (literal : Option String) (fields : List (String × TokenObject))

namespace TokenObject

/-- The object without tokens. -/
def empty : TokenObject := place none []

/-- Puts a literal at the place that keys lead to. -/
def insert (literal : String) : Token.Path → TokenObject → TokenObject
  | [], place _ fields => place (some literal) fields
  | key :: path, place own fields =>
    let below := (Entries.get? key fields).getD empty
    place own (Entries.insert key (insert literal path below) fields)

/-- The literal of a token: its value as a text. -/
def literal (t : FlatToken) : String := Text.quotedSingle t.value.render

/-- The object that holds all tokens. -/
def ofTokens (ts : FlatTokens) : TokenObject :=
  ts.foldl (fun o t => o.insert (literal t) t.place.path) empty

/-- Whether a character can start an identifier. -/
def isIdentStart (c : Char) : Bool := c.isAlpha || c == '_' || c == '$'

/-- Whether a text can be a key without quotes. -/
def isPlainKey (key : String) : Bool :=
  match key.toList with
  | [] => false
  | c :: cs => isIdentStart c && cs.all fun c => isIdentStart c || c.isDigit

/-- A key of an object. -/
def key (name : String) : String := if isPlainKey name then name else Text.quotedSingle name

mutual

/-- The text of an object; `depth` counts the objects around it. -/
def render (depth : Nat) : TokenObject → String
  | place (some literal) _ => literal
  | place none fields =>
    Text.unlines (["\x7b"] ++ renderFields (depth + 1) fields ++
      [Text.repeated ' ' (2 * depth) ++ "\x7d"])

/-- The texts of fields. -/
def renderFields (depth : Nat) : List (String × TokenObject) → List String
  | [] => []
  | (name, o) :: rest =>
    (Text.repeated ' ' (2 * depth) ++ s!"{key name}: {render depth o},") ::
      renderFields depth rest

end

end TokenObject

/-- The module that exports the tokens as a constant; one in a typed script also exports their
type. -/
def tokenModule (typed : Bool) (ts : FlatTokens) : String :=
  let object := (TokenObject.ofTokens ts).render 0
  let assertion := if typed then " as const" else ""
  let types := if typed then ["", "export type Tokens = typeof tokens;"] else []
  Text.file (s!"export const tokens = {object}{assertion};" :: types)

end DesignSystem.Script
