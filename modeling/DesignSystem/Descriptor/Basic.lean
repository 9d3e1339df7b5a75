import DesignSystem.Json.Printer
import DesignSystem.Text.Case

/-!
# Type descriptors

A type descriptor says which values a prop takes, independently of any target language. Six kinds of
descriptor cover primitive values, framework values, domain types, alternatives, lists and objects.
-/

set_option autoImplicit false

namespace DesignSystem

/-- Primitive values. -/
inductive PrimitiveType
  | string | number | boolean
  deriving DecidableEq

/-- Values that a framework provides. -/
inductive ComplexType
  | function | node | element | ref | date | file
  deriving DecidableEq

/-- Types of the domain. -/
inductive CustomType
  | color | size | variant | breakpoint | locale | email | url
  /-- A type of one project, which needs a list of its values. -/
  | other (name : String)
  deriving DecidableEq

/-- The shape of a prop's values. -/
inductive TypeDescriptor
  /-- A primitive value, restricted to an enumeration if one is given. -/
  | primitive (kind : PrimitiveType) (enumeration : Option (List Json.Value))
  /-- A framework value. -/
  | complex (kind : ComplexType)
  /-- A framework value with a call signature: the types of its parameters and of its result. -/
  | signed (kind : ComplexType) (params : List (String × TypeDescriptor))
      (returns : Option TypeDescriptor)
  /-- A domain type; given values replace its own. -/
  | custom (kind : CustomType) (values : Option (List String))
  /-- One of several alternatives. -/
  | union (types : List TypeDescriptor)
  /-- A list whose items have one type. -/
  | array (items : TypeDescriptor) (minItems maxItems : Option Nat) (unique : Bool)
  /-- Named fields. An object that is not strict may have others besides. -/
  | object (properties : List (String × TypeDescriptor)) (strict : Bool)

instance : Inhabited TypeDescriptor := ⟨.complex .node⟩

/-- The kinds of descriptors. -/
inductive DescriptorKind
  | primitive | complex | custom | union | array | object
  deriving DecidableEq

namespace PrimitiveType

/-- The name of a primitive type. -/
def name : PrimitiveType → String
  | string => "string"
  | number => "number"
  | boolean => "boolean"

/-- All primitive types. -/
def all : List PrimitiveType := [string, number, boolean]

/-- Whether a value is of a primitive type. -/
def admits : PrimitiveType → Json.Value → Bool
  | string, .string _ => true
  | number, .number _ => true
  | boolean, .bool _ => true
  | _, _ => false

end PrimitiveType

namespace ComplexType

/-- The name of a complex type. -/
def name : ComplexType → String
  | function => "function"
  | node => "node"
  | element => "element"
  | ref => "ref"
  | date => "date"
  | file => "file"

/-- All complex types. -/
def all : List ComplexType := [function, node, element, ref, date, file]

end ComplexType

namespace CustomType

/-- The name of a custom type. -/
def name : CustomType → String
  | color => "color"
  | size => "size"
  | variant => "variant"
  | breakpoint => "breakpoint"
  | locale => "locale"
  | email => "email"
  | url => "url"
  | other name => name

/-- The custom type of a name. Every name that is not known is a project's own. -/
def ofName : String → CustomType
  | "color" => color
  | "size" => size
  | "variant" => variant
  | "breakpoint" => breakpoint
  | "locale" => locale
  | "email" => email
  | "url" => url
  | name => other name

/-- The values of a type that comes with an enumeration. -/
def ownValues : CustomType → List String
  | size => ["xs", "sm", "md", "lg", "xl"]
  | variant => ["primary", "secondary", "outline", "ghost", "danger"]
  | breakpoint => ["sm", "md", "lg", "xl", "2xl"]
  | locale => ["en", "es", "fr", "de", "ja", "zh"]
  | color | email | url | other _ => []

/-- Whether a type is written as text where a target has no type for it. -/
def isTextual : CustomType → Bool
  | color | email | url => true
  | _ => false

end CustomType

namespace DescriptorKind

/-- The name of a kind. -/
def name : DescriptorKind → String
  | primitive => "primitive"
  | complex => "complex"
  | custom => "custom"
  | union => "union"
  | array => "array"
  | object => "object"

/-- All kinds. -/
def all : List DescriptorKind := [primitive, complex, custom, union, array, object]

end DescriptorKind

namespace TypeDescriptor

/-- Text. -/
def text : TypeDescriptor := primitive .string none

/-- The kind of a descriptor. -/
def kind : TypeDescriptor → DescriptorKind
  | primitive .. => .primitive
  | complex .. => .complex
  | signed .. => .complex
  | custom .. => .custom
  | union .. => .union
  | array .. => .array
  | object .. => .object

/-- The complex type of a descriptor. -/
def complexType? : TypeDescriptor → Option ComplexType
  | complex kind => some kind
  | signed kind .. => some kind
  | _ => none

/-- Whether the values are callbacks. -/
def isCallback (d : TypeDescriptor) : Bool := d.complexType? = some .function

/-- Whether the values are content that can be rendered. -/
def isContent (d : TypeDescriptor) : Bool :=
  d.complexType? = some .node || d.complexType? = some .element

/-- The labels of the values, if the descriptor enumerates them. -/
def enumerated? : TypeDescriptor → Option (List String)
  | primitive _ (some values) => some (values.map Json.Value.label)
  | custom _ (some values) => some values
  | custom kind none => if kind.ownValues.isEmpty then none else some kind.ownValues
  | _ => none

mutual

/-- A short description for error messages. -/
def summary : TypeDescriptor → String
  | primitive kind none => kind.name
  | primitive kind (some values) => kind.name ++ "enum(" ++ toString values.length ++ ")"
  | complex kind => kind.name
  | signed kind _ _ => kind.name
  | custom kind _ => "custom:" ++ kind.name
  | union types => "union<" ++ Text.join " | " (summaries types) ++ ">"
  | array items _ _ _ => "array<" ++ summary items ++ ">"
  | object properties strict =>
    "object\x7b" ++ Text.join ", " (properties.map (·.1)) ++ "\x7d" ++ (if strict then "" else "+")

/-- The summaries of descriptors. -/
def summaries : List TypeDescriptor → List String
  | [] => []
  | d :: ds => summary d :: summaries ds

end

/-- The value of a domain type that stands for the others in examples. -/
def sampleText (kind : CustomType) : String :=
  match kind with
  | .color => "#000000"
  | .email => "user@example.com"
  | .url => "https://example.com"
  | _ => "value"

mutual

/-- A value that stands for the others in previews, stories and examples, if there is one. -/
def sample? : TypeDescriptor → Option Json.Value
  | primitive _ (some values) => values.head?
  | primitive .string none => some (.string "Label")
  | primitive .number none => some (.ofNat 0)
  | primitive .boolean none => some (.bool false)
  | custom kind values =>
    match enumerated? (custom kind values) with
    | some values => values.head?.map .string
    | none => some (.string (sampleText kind))
  | union types => sampleOfFirst? types
  | array _ _ _ _ => some (.array [])
  | object properties _ => some (.object (sampleFields properties))
  | complex _ => none
  | signed _ _ _ => none

/-- A sample of the first descriptor. -/
def sampleOfFirst? : List TypeDescriptor → Option Json.Value
  | [] => none
  | d :: _ => sample? d

/-- The samples of those fields that have one. -/
def sampleFields : List (String × TypeDescriptor) → List (String × Json.Value)
  | [] => []
  | (name, d) :: rest =>
    match sample? d with
    | some v => (name, v) :: sampleFields rest
    | none => sampleFields rest

end

mutual

/-- Whether a value has the described shape. Framework values are not checked. -/
def fits : TypeDescriptor → Json.Value → Bool
  | primitive _ (some values), v => values.any (·.same v)
  | primitive kind none, v => kind.admits v
  | complex _, _ => true
  | signed _ _ _, _ => true
  | custom kind values, v =>
    match enumerated? (custom kind values), v with
    | some allowed, .string s => allowed.contains s
    | none, .string _ => true
    | _, _ => false
  | union types, v => fitsAny types v
  | array items _ _ _, .array elements => elements.all (fits items)
  | array _ _ _ _, _ => false
  | object properties strict, .object fields =>
    fields.all fun field => fitsField properties strict field.1 field.2
  | object _ _, _ => false

/-- Whether a value fits one of several descriptors. -/
def fitsAny : List TypeDescriptor → Json.Value → Bool
  | [], _ => false
  | d :: ds, v => fits d v || fitsAny ds v

/-- Whether a value may stand in a field of an object. -/
def fitsField : List (String × TypeDescriptor) → Bool → String → Json.Value → Bool
  | [], strict, _, _ => !strict
  | (name, d) :: rest, strict, field, v =>
    if name = field then fits d v else fitsField rest strict field v

end

end TypeDescriptor

end DesignSystem
