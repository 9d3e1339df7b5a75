import DesignSystem.Token.Resolve

/-!
# Custom properties

Stylesheets declare every token as a custom property. A token that refers to another one is declared
as a use of that token's property, so that an override reaches it too.
-/

set_option autoImplicit false

namespace DesignSystem.Stylesheet

/-- Whether a character of a name is written as it is. -/
def isNameChar (c : Char) : Bool :=
  Text.isPlainAlphanumeric c || c == '-' || c == '_' || 128 ≤ c.toNat

/-- A character of a name as it is written: a backslash stands before a special one. -/
def escapeNameChar (c : Char) : List Char := if isNameChar c then [c] else ['\\', c]

/-- The custom property of a token name. -/
def customProperty (name : String) : String :=
  .ofList ('-' :: '-' :: name.toList.flatMap escapeNameChar)

/-- The use of a token's custom property. -/
def use (name : String) : String := s!"var({customProperty name})"

/-- What is declared for a token. -/
inductive PropertyValue
  | text (s : String)
  /-- The property of another token. -/
  | property (name : String)
  deriving DecidableEq

/-- The text of a value. -/
def PropertyValue.render : PropertyValue → String
  | text s => s
  | property name => use name

/-- A token name and what its property is declared as. -/
structure PropertyDeclaration where
  name : String
  value : PropertyValue
  deriving DecidableEq

/-- The declaration for a token. -/
def PropertyDeclaration.ofToken (t : FlatToken) : PropertyDeclaration :=
  ⟨t.name, (t.reference.map .property).getD (.text t.value.render)⟩

/-- The declarations for the tokens of a layer. -/
def declarations (ts : FlatTokens) (layer : Token.Layer) : List PropertyDeclaration :=
  (ts.ofLayer layer).map .ofToken

/-- A declaration as a line of the block. -/
def PropertyDeclaration.line (d : PropertyDeclaration) : String :=
  s!"  {customProperty d.name}: {d.value.render};"

/-- The lines for a layer, under a comment that names it; none if the layer is empty. -/
def layerLines (ts : FlatTokens) (layer : Token.Layer) : List String :=
  match declarations ts layer with
  | [] => []
  | ds => s!"  /* {layer.name} */" :: ds.map PropertyDeclaration.line

/-- The block that declares all tokens. -/
def rootBlock (ts : FlatTokens) : String :=
  Text.file ([":root \x7b"] ++ Token.Layer.all.flatMap (layerLines ts) ++ ["\x7d"])

end DesignSystem.Stylesheet
