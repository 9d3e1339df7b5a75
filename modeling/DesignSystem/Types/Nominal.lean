import DesignSystem.Token.Kind
import DesignSystem.Types.Table

/-!
# Languages with named types

Some languages have no types for literals and alternatives, and perhaps none for objects without a
name. Their tables declare a type under the given name, and the types inside it under that name
extended: by the name of a parameter or field, or by `Item`, `Result`, or `Option` and a number.
A `NominalLanguage` holds what differs between such languages.
-/

set_option autoImplicit false

namespace DesignSystem

/-- The type of an object, and the declaration that it needs, if it needs one. -/
structure ObjectType where
  text : String
  source : Option String

/-- How a language with named types writes types and values. -/
structure NominalLanguage where
  /-- The name of the language. -/
  name : String
  reserved : List String
  /-- A reserved word as an identifier. -/
  escapeReserved : String → String
  primitive : PrimitiveType → String
  /-- A framework value without a signature. -/
  complex : ComplexType → String
  /-- A domain type that has no enumeration. -/
  custom : CustomType → String
  /-- The result type of a callback that returns nothing. -/
  noResult : String
  /-- A callback, from its parameter types and its result type. -/
  callback : List String → String → String
  list : String → String
  /-- An object that may have unknown fields. -/
  openObject : String
  /-- The declaration of an enumeration. -/
  enumeration : String → List Json.Value → String
  /-- A case of an enumeration. -/
  caseLiteral : String → Json.Value → String
  /-- The declaration of alternatives, from the types of its members. -/
  alternatives : String → List String → String
  /-- An object with given fields: their names and types. -/
  object : String → List (String × String) → ObjectType
  quoted : String → String
  number : Json.Number → String
  /-- A color from its text. -/
  color : String → Option String
  /-- An address from its text. -/
  url : String → String
  listLiteral : List String → String
  optional : String → String

namespace NominalLanguage

variable (l : NominalLanguage)

/-- A name as an identifier. -/
def ident (name : String) : String := if name ∈ l.reserved then l.escapeReserved name else name

/-- The type of an enumeration: the type of truth values if all values are such, and otherwise a
declared type. -/
def enumerationType (values : List Json.Value) (hint : String) : Mapping String :=
  if values.all isTruthValue then pure (l.primitive .boolean)
  else .declare ⟨hint, l.enumeration hint values⟩

/-- The type of alternatives from the types of its members. -/
def unionType (members : List String) (hint : String) : Mapping String :=
  match commonMember? members with
  | some single => pure single
  | none => .declare ⟨hint, l.alternatives hint members⟩

/-- The type of an object from its fields. -/
def objectType (fields : List (String × String)) (hint : String) : Mapping String :=
  let object := l.object hint fields
  match object.source with
  | some source => .declare ⟨hint, source⟩
  | none => pure object.text

/-- The name for the type of a parameter or field. -/
def memberHint (hint name : String) : String := hint ++ Text.pascal name

/-- The name for the type of a list's items. -/
def itemHint (hint : String) : String := hint ++ "Item"

/-- The name for the type of a callback's result. -/
def resultHint (hint : String) : String := hint ++ "Result"

/-- The name for the type of an alternative, counted from zero. -/
def optionHint (hint : String) (index : Nat) : String := hint ++ "Option" ++ toString (index + 1)

mutual

/-- The type of a descriptor. -/
def map : TypeDescriptor → String → Mapping String
  | .primitive kind values, hint =>
    match enumerationValues l.name (.primitive kind values) with
    | .error e => .ofExcept (.error e)
    | .ok (some values) => l.enumerationType values hint
    | .ok none => pure (l.primitive kind)
  | .custom kind values, hint =>
    match enumerationValues l.name (.custom kind values) with
    | .error e => .ofExcept (.error e)
    | .ok (some values) => l.enumerationType values hint
    | .ok none => pure (l.custom kind)
  | .complex kind, _ => pure (l.complex kind)
  | .signed kind params returns, hint =>
    match kind with
    | .function => do
      let params ← mapNamed params hint
      let returns ← mapResult returns hint
      pure (l.callback (params.map (·.2)) returns)
    | kind => pure (l.complex kind)
  | .union types, hint =>
    if types.isEmpty then .unmappable l.name (.union types) .emptyUnion
    else do
      let members ← mapAlternatives types hint 0
      l.unionType members hint
  | .array items _ _ _, hint => do
    let inner ← map items (itemHint hint)
    pure (l.list inner)
  | .object properties strict, hint =>
    if strict then do
      let fields ← mapNamed properties hint
      l.objectType fields hint
    else pure l.openObject

/-- The types of alternatives, the first of which has the number `index`. -/
def mapAlternatives : List TypeDescriptor → String → Nat → Mapping (List String)
  | [], _, _ => pure []
  | d :: ds, hint, index => do
    let first ← map d (optionHint hint index)
    let rest ← mapAlternatives ds hint (index + 1)
    pure (first :: rest)

/-- Names and types of parameters or fields. -/
def mapNamed : List (String × TypeDescriptor) → String → Mapping (List (String × String))
  | [], _ => pure []
  | (name, d) :: more, hint => do
    let first ← map d (memberHint hint name)
    let rest ← mapNamed more hint
    pure ((name, first) :: rest)

/-- The type of a result. -/
def mapResult : Option TypeDescriptor → String → Mapping String
  | none, _ => pure l.noResult
  | some d, hint => map d (resultHint hint)

end

/-- A value among those that a descriptor enumerates, as a literal. -/
def enumeratedLiteral? (values : List Json.Value) (v : Json.Value) (hint : String) :
    Option String :=
  if values.any (·.same v) then
    match v with
    | .bool b => some (if b then "true" else "false")
    | v => some (l.caseLiteral hint v)
  else none

/-- A text, number or truth value as a literal. -/
def scalarLiteral? : Json.Value → Option String
  | .string s => some (l.quoted s)
  | .number n => some (l.number n)
  | .bool b => some (if b then "true" else "false")
  | _ => none

/-- Whether alternatives all have one type. -/
def hasCommonType (types : List TypeDescriptor) (hint : String) : Bool :=
  match (l.mapAlternatives types hint 0).result with
  | .ok members => (commonMember? members).isSome
  | .error _ => false

mutual

/-- A value as a literal of a descriptor's type. Alternatives have literals only if they have one
type, which is that of the first. -/
def literal? : TypeDescriptor → Json.Value → String → Option String
  | .primitive kind values, v, hint =>
    match enumerationValues l.name (.primitive kind values) with
    | .ok (some values) => l.enumeratedLiteral? values v hint
    | _ => l.scalarLiteral? v
  | .custom kind values, v, hint =>
    match enumerationValues l.name (.custom kind values) with
    | .ok (some values) => l.enumeratedLiteral? values v hint
    | _ =>
      match kind, v with
      | .color, .string s => l.color s
      | .url, .string s => some (l.url s)
      | _, v => l.scalarLiteral? v
  | .union types, v, hint =>
    if l.hasCommonType types hint then literalOfFirst? types v hint else none
  | .array items _ _ _, v, hint =>
    match v with
    | .array elements =>
      (elements.mapM fun e => literal? items e (itemHint hint)).map l.listLiteral
    | v => l.scalarLiteral? v
  | .complex _, v, _ => l.scalarLiteral? v
  | .signed _ _ _, v, _ => l.scalarLiteral? v
  | .object _ _, v, _ => l.scalarLiteral? v

/-- A value as a literal of the first descriptor's type. -/
def literalOfFirst? : List TypeDescriptor → Json.Value → String → Option String
  | [], _, _ => none
  | d :: _, v, hint => literal? d v (optionHint hint 0)

end

/-- The type table of the language. -/
def table : TypeTable where
  target := l.name
  map := l.map
  literal := l.literal?
  optional := l.optional
  ident := l.ident

end NominalLanguage

/-- The names of variants, from names derived from their types: a name that is empty or taken gives
way to one with the variant's number. -/
def variantNames (numbered : Nat → String) (used : List String) : List (Option String) → List String
  | [] => []
  | derived :: rest =>
    let fallback := numbered (used.length + 1)
    let name := match derived with
      | some name => if name ∈ used then fallback else name
      | none => fallback
    name :: variantNames numbered (used ++ [name]) rest

/-- The letters and digits of a type. -/
def typeLetters (type : String) : String :=
  .ofList (type.toList.filter Text.isPlainAlphanumeric)

/-- A color constructor with the eight hexadecimal digits of a color, if the text is one. -/
def hexColorLiteral? (s : String) : Option String :=
  match Token.ValueKind.ofText s with
  | .color c => some ("Color(0x" ++ c.hexDigits ++ ")")
  | _ => none

end DesignSystem
