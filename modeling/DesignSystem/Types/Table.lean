import DesignSystem.Descriptor.Basic
import DesignSystem.Text.Words

/-!
# Type tables

A type table writes descriptors in the type syntax of a target language. Where the language has no
form for a type without a name, the table declares one; a scope gathers the declarations of one
component, the first one under a name staying.
-/

set_option autoImplicit false

namespace DesignSystem

/-- Why a descriptor has no type in a target language. -/
inductive UnmappableReason
  | noTable
  | emptyEnumeration
  | emptyCustomValues
  | unknownCustom
  | noLiteral
  | emptyUnion
  deriving DecidableEq

/-- A descriptor that has no type in a target language. -/
structure UnmappableType where
  target : String
  descriptor : String
  reason : UnmappableReason
  deriving DecidableEq

/-- The reason in words. -/
def UnmappableReason.message : UnmappableReason → String
  | noTable => "no type table for this target"
  | emptyEnumeration => "enum has no values"
  | emptyCustomValues => "custom type has no values"
  | unknownCustom => "unknown custom type without explicit values"
  | noLiteral => "enum value has no literal form"
  | emptyUnion => "union has no members"

/-- The error in words. -/
def UnmappableType.message (e : UnmappableType) : String :=
  "Cannot map " ++ e.descriptor ++ " to " ++ e.target ++ ": " ++ e.reason.message

/-! ## Declarations -/

/-- The source of a named type. -/
structure Declaration where
  name : String
  source : String
  deriving DecidableEq

/-- The named types of one component. -/
abbrev TypeScope := Entries String

namespace TypeScope

/-- Adds a declaration, unless its name is taken. -/
def declare (s : TypeScope) (d : Declaration) : TypeScope :=
  if Entries.has d.name s then s else s ++ [(d.name, d.source)]

/-- Adds declarations in order. -/
def declareAll (s : TypeScope) (ds : List Declaration) : TypeScope := ds.foldl declare s

/-- The sources, separated by blank lines. -/
def source (s : TypeScope) : String := Text.join "\n\n" (Entries.values s)

end TypeScope

/-- The result of writing a type: the types that were declared up to then, and the text. -/
structure Mapping (α : Type) where
  declared : List Declaration
  result : Except UnmappableType α

namespace Mapping

variable {α β : Type}

/-- A result without declarations. -/
def ofExcept (r : Except UnmappableType α) : Mapping α := ⟨[], r⟩

/-- Continues after a result; an error ends the mapping. -/
def andThen (m : Mapping α) (f : α → Mapping β) : Mapping β :=
  match m.result with
  | .error e => ⟨m.declared, .error e⟩
  | .ok a =>
    let next := f a
    ⟨m.declared ++ next.declared, next.result⟩

instance : Monad Mapping where
  pure a := ⟨[], .ok a⟩
  bind := andThen

/-- Declares a type and refers to it by its name. -/
def declare (d : Declaration) : Mapping String := ⟨[d], .ok d.name⟩

/-- No type. -/
def unmappable (target : String) (d : TypeDescriptor) (reason : UnmappableReason) : Mapping α :=
  ⟨[], .error ⟨target, d.summary, reason⟩⟩

end Mapping

/-- How descriptors and values are written in a target language. A declared type takes the name that
is given with the descriptor. -/
structure TypeTable where
  /-- The name of the language. -/
  target : String
  /-- The type of a descriptor. -/
  map : TypeDescriptor → String → Mapping String
  /-- A value as a literal of a descriptor's type. -/
  literal : TypeDescriptor → Json.Value → String → Option String
  /-- The type of a prop that may be left out. -/
  optional : String → String
  /-- A name as an identifier. -/
  ident : String → String

/-! ## Enumerations -/

/-- The values that a descriptor enumerates, if it does. -/
def enumerationValues (target : String) (d : TypeDescriptor) :
    Except UnmappableType (Option (List Json.Value)) :=
  match d with
  | .primitive _ (some []) => .error ⟨target, d.summary, .emptyEnumeration⟩
  | .primitive _ (some values) => .ok (some values)
  | .custom kind _ =>
    match d.enumerated? with
    | some [] => .error ⟨target, d.summary, .emptyCustomValues⟩
    | some values => .ok (some (values.map .string))
    | none => if kind.isTextual then .ok none else .error ⟨target, d.summary, .unknownCustom⟩
  | _ => .ok none

/-- The identifier of an enumerated value: the letters, digits and underscores of its label in camel
case. -/
def caseIdent (v : Json.Value) : String :=
  let chars := (Text.camel v.label).toList.filter fun c => Text.isPlainAlphanumeric c || c = '_'
  match chars with
  | [] => "empty"
  | c :: _ => if c.isDigit then .ofList ('v' :: chars) else .ofList chars

/-- The one type of members that all have the same. -/
def commonMember? : List String → Option String
  | [] => none
  | first :: rest => if rest.all (· = first) then some first else none

/-- Whether a value is a truth value. -/
def isTruthValue : Json.Value → Bool
  | .bool _ => true
  | _ => false

/-- Whether a value is a number. -/
def isNumber : Json.Value → Bool
  | .number _ => true
  | _ => false

end DesignSystem
