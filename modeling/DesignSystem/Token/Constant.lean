import DesignSystem.Token.Kind
import DesignSystem.Token.Symbol

/-!
# Token constants

Native targets declare a constant for every token. What the constant holds depends on the kind of
the value; how it is written is each target's own.
-/

set_option autoImplicit false

namespace DesignSystem.Token

/-- A token value as a constant. -/
inductive Constant
  | texts (items : List String)
  | flag (b : Bool)
  | color (c : Color)
  | number (x : Scalar)
  /-- A length in logical pixels; a scaled one follows the user's text size. -/
  | length (points : Scalar) (scaled : Bool)
  | text (s : String)
  deriving DecidableEq

/-- The constant of a kind. A dimension that is not a length stays the text `s`. -/
def Constant.ofKind (s : String) (kind : ValueKind) : Constant :=
  match kind with
  | .color c => .color c
  | .number x => .number x
  | .dimension _ unit =>
    match kind.points? with
    | some points => .length points (unit = "sp")
    | none => .text s
  | .text s => .text s

/-- The constant of a leaf. -/
def Constant.ofLeaf : Leaf → Constant
  | .list items => .texts items
  | .flag b => .flag b
  | leaf => .ofKind leaf.render (.ofLeaf leaf)

end DesignSystem.Token

namespace DesignSystem

/-- The constant of a token. -/
def FlatToken.constant (t : FlatToken) : Token.Constant := .ofLeaf t.value

/-- The identifier of a token's constant. -/
def FlatToken.ident (t : FlatToken) : String := Token.identifier t.name

/-- The token that a token directly refers to. -/
def FlatTokens.target? (ts : FlatTokens) (t : FlatToken) : Option FlatToken :=
  t.reference.bind fun name => FlatTokens.get? name ts

/-- What a declaration assigns to a constant. -/
inductive Assigned
  /-- The constant of another token. -/
  | aliasOf (ident : String)
  | literal (text : String)
  deriving DecidableEq

/-- The text of what is assigned. -/
def Assigned.text : Assigned → String
  | aliasOf ident => ident
  | literal text => text

/-- What is assigned to the constant of a token: the constant of the token that it refers to, if
both have the same `type`, and else the literal of its value. -/
def FlatTokens.assigned {α : Type} [DecidableEq α] (ts : FlatTokens) (type : Token.Constant → α)
    (literal : Token.Constant → String) (t : FlatToken) : Assigned :=
  match ts.target? t with
  | some target =>
    if type target.constant = type t.constant then .aliasOf target.ident
    else .literal (literal t.constant)
  | none => .literal (literal t.constant)

/-- The tokens whose values are colors. -/
def FlatTokens.colors (ts : FlatTokens) : List FlatToken :=
  ts.filter fun t =>
    match Token.ValueKind.ofLeaf t.value with
    | .color _ => true
    | _ => false

/-- The color that a theme starts from: the first one named primary, or else the first one. -/
def FlatTokens.primaryColor? (ts : FlatTokens) : Option FlatToken :=
  ts.colors.find? (fun t => Text.contains "primary" t.name) <|> ts.colors.head?

end DesignSystem
