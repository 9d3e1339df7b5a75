import DesignSystem.Descriptor.Basic

/-!
# Type descriptors as JSON

A descriptor is an object whose field `type` names its kind. Like every record it may also be
written as the list of its fields in order. Fields that are not known are ignored; a known field
that is given twice is an error.
-/

set_option autoImplicit false

namespace DesignSystem

namespace TypeDescriptor

/-- What a JSON value is, read in each of the ways in which a descriptor may hold it. -/
structure Reading where
  value : Json.Value
  descriptor : Option TypeDescriptor := none
  descriptors : Option (List TypeDescriptor) := none
  named : Option (Entries TypeDescriptor) := none
  signature : Option (Entries TypeDescriptor × Option TypeDescriptor) := none

namespace Reading

/-- The fields of a record that is read. -/
abbrev Fields := List (String × Reading)

/-- The items of a record that is written as a list, under the names of its fields. Surplus items
belong to no field, which makes the list no record. -/
def Fields.ofItems? (names : List String) (items : List Reading) : Option Fields :=
  if items.length ≤ names.length then some (names.zip items) else none

/-- A field, unless it is given twice. -/
def Fields.get (fields : Fields) (name : String) : Option (Option Reading) :=
  match fields.filter (·.1 = name) with
  | [] => some none
  | [field] => some (some field.2)
  | _ => none

/-- A field that must be there. -/
def Fields.required {α : Type} (fields : Fields) (name : String) (read : Reading → Option α) :
    Option α := do
  let field ← fields.get name
  let r ← field
  read r

/-- A field that has a default. -/
def Fields.default {α : Type} (fields : Fields) (name : String) (value : α)
    (read : Reading → Option α) : Option α := do
  match ← fields.get name with
  | none => some value
  | some r => read r

/-- Reads null as nothing. -/
def optional {α : Type} (read : Reading → Option α) (r : Reading) : Option (Option α) :=
  if r.value.isNull then some none else (read r).map some

/-- Reads one of a list of names. A name may also be the only field of an object without content. -/
def choice {α : Type} (all : List α) (name : α → String) (r : Reading) : Option α :=
  match r.value with
  | .string s => all.find? (name · = s)
  | .object [(s, .null)] => all.find? (name · = s)
  | .object [(s, .object [])] => all.find? (name · = s)
  | _ => none

/-- Reads a truth value. -/
def bool (r : Reading) : Option Bool :=
  match r.value with
  | .bool b => some b
  | _ => none

/-- Reads a natural number that fits 64 bits. -/
def nat (r : Reading) : Option Nat :=
  match r.value with
  | .number n => n.toNat?
  | _ => none

/-- Reads a list of values. -/
def values (r : Reading) : Option (List Json.Value) := r.value.array?

/-- Reads a list of texts. -/
def texts (r : Reading) : Option (List String) := do (← r.value.array?).mapM (·.string?)

/-- The names of the fields of a kind, in order. -/
def fieldNames : DescriptorKind → List String
  | .primitive => ["primitive", "enum"]
  | .complex => ["complex", "signature"]
  | .custom => ["custom", "values"]
  | .union => ["types"]
  | .array => ["items", "minItems", "maxItems", "unique"]
  | .object => ["properties", "strict"]

/-- The descriptor of a kind with given fields. -/
def ofKind (fields : Fields) : DescriptorKind → Option TypeDescriptor
  | .primitive => do
    let kind ← fields.required "primitive" (choice PrimitiveType.all PrimitiveType.name)
    let values ← fields.default "enum" none (optional values)
    some (.primitive kind values)
  | .complex => do
    let kind ← fields.required "complex" (choice ComplexType.all ComplexType.name)
    match ← fields.default "signature" none (optional Reading.signature) with
    | none => some (.complex kind)
    | some (params, returns) => some (.signed kind params returns)
  | .custom => do
    let name ← fields.required "custom" (·.value.string?)
    let values ← fields.default "values" none (optional texts)
    some (.custom (.ofName name) values)
  | .union => do
    let types ← fields.required "types" Reading.descriptors
    some (.union types)
  | .array => do
    let items ← fields.required "items" Reading.descriptor
    let minItems ← fields.default "minItems" none (optional nat)
    let maxItems ← fields.default "maxItems" none (optional nat)
    let unique ← fields.default "unique" false bool
    some (.array items minItems maxItems unique)
  | .object => do
    let properties ← fields.default "properties" [] Reading.named
    let strict ← fields.default "strict" true bool
    some (.object properties strict)

/-- The kind of a name. -/
def kind? (r : Reading) : Option DescriptorKind := do
  let name ← r.value.string?
  DescriptorKind.all.find? (·.name = name)

/-- The signature with given fields. -/
def signatureOf (fields : Fields) : Option (Entries TypeDescriptor × Option TypeDescriptor) := do
  let params ← fields.default "params" [] Reading.named
  let returns ← fields.default "returns" none (optional Reading.descriptor)
  some (params, returns)

/-- The reading of an object. -/
def ofFields (fields : Fields) : Reading where
  value := .object (Entries.ofList (fields.map fun field => (field.1, field.2.value)))
  descriptor := do
    let kind ← fields.required "type" kind?
    ofKind fields kind
  named := do
    let entries ← fields.mapM fun field => field.2.descriptor.map fun d => (field.1, d)
    some (Entries.ofList entries)
  signature := signatureOf fields

/-- The reading of an array. -/
def ofItems (items : List Reading) : Reading where
  value := .array (items.map (·.value))
  descriptor := do
    let kind ← (← items.head?).kind?
    ofKind (← Fields.ofItems? (fieldNames kind) items.tail) kind
  descriptors := items.mapM (·.descriptor)
  signature := do signatureOf (← Fields.ofItems? ["params", "returns"] items)

end Reading

mutual

/-- Reads a JSON value in every way. -/
def read : Json.Value → Reading
  | .array items => Reading.ofItems (readItems items)
  | .object fields => Reading.ofFields (readFields fields)
  | .null => ⟨.null, none, none, none, none⟩
  | .bool b => ⟨.bool b, none, none, none, none⟩
  | .number n => ⟨.number n, none, none, none, none⟩
  | .string s => ⟨.string s, none, none, none, none⟩

/-- Reads items in every way. -/
def readItems : List Json.Value → List Reading
  | [] => []
  | v :: vs => read v :: readItems vs

/-- Reads fields in every way. -/
def readFields : List (String × Json.Value) → List (String × Reading)
  | [] => []
  | (name, v) :: rest => (name, read v) :: readFields rest

end

/-- The descriptor that a JSON value stands for. -/
def ofJson? (v : Json.Value) : Option TypeDescriptor := (read v).descriptor

/-! ## Writing -/

/-- A field that is written only if it has a value. -/
def optionalField {α : Type} (name : String) (write : α → Json.Value) :
    Option α → List (String × Json.Value)
  | none => []
  | some a => [(name, write a)]

/-- The fields of a descriptor after its kind. -/
def withKind (kind : DescriptorKind) (fields : List (String × Json.Value)) :
    List (String × Json.Value) :=
  ("type", .string kind.name) :: fields

mutual

/-- The fields that a descriptor is written as. -/
def toFields : TypeDescriptor → List (String × Json.Value)
  | primitive kind values =>
    withKind .primitive (("primitive", .string kind.name) :: optionalField "enum" .array values)
  | complex kind => withKind .complex [("complex", .string kind.name)]
  | signed kind params returns =>
    withKind .complex [("complex", .string kind.name),
      ("signature", .object (("params", .object (namedToJson params)) :: returnsToJson returns))]
  | custom kind values =>
    withKind .custom (("custom", .string kind.name) ::
      optionalField "values" (fun vs => .array (vs.map .string)) values)
  | union types => withKind .union [("types", .array (allToJson types))]
  | array items minItems maxItems unique =>
    withKind .array (("items", .object (toFields items)) ::
      optionalField "minItems" Json.Value.ofNat minItems ++
      optionalField "maxItems" Json.Value.ofNat maxItems ++
      (if unique then [("unique", .bool true)] else []))
  | object properties strict =>
    withKind .object [("properties", .object (namedToJson properties)), ("strict", .bool strict)]

/-- The JSON forms of descriptors. -/
def allToJson : List TypeDescriptor → List Json.Value
  | [] => []
  | d :: ds => .object (toFields d) :: allToJson ds

/-- The JSON forms of named descriptors. -/
def namedToJson : List (String × TypeDescriptor) → List (String × Json.Value)
  | [] => []
  | (name, d) :: rest => (name, .object (toFields d)) :: namedToJson rest

/-- The result type of a signature. -/
def returnsToJson : Option TypeDescriptor → List (String × Json.Value)
  | none => []
  | some d => [("returns", .object (toFields d))]

end

/-- The JSON form of a descriptor. -/
def toJson (d : TypeDescriptor) : Json.Value := .object d.toFields

end TypeDescriptor

end DesignSystem
