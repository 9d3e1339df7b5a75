import DesignSystem.Text.Quoted
import DesignSystem.Types.Table

/-!
# TypeScript types

Enumerations are unions of literals, and objects are written in place, so no type is declared. The
frameworks differ in the types of content and of references to elements.
-/

set_option autoImplicit false

namespace DesignSystem.TypeScript

/-- The framework whose types are used for content and references. -/
inductive Framework
  | react | vue | angular | svelte
  /-- The types of the document itself. -/
  | plain
  deriving DecidableEq

namespace Framework

/-- The type of content. -/
def node : Framework → String
  | react => "React.ReactNode"
  | vue => "VNode"
  | angular => "TemplateRef<unknown>"
  | svelte => "Snippet"
  | plain => "Node | string"

/-- The type of an element. -/
def element : Framework → String
  | react => "React.ReactElement"
  | vue => "VNode"
  | angular => "TemplateRef<unknown>"
  | svelte => "Snippet"
  | plain => "HTMLElement"

/-- The type of a reference to an element. -/
def reference : Framework → String
  | react => "React.Ref<HTMLElement>"
  | vue => "Ref<HTMLElement | null>"
  | angular => "ElementRef<HTMLElement>"
  | svelte => "HTMLElement | undefined"
  | plain => "HTMLElement | null"

/-- The type of a framework value without a signature. -/
def complex (f : Framework) : ComplexType → String
  | .function => "() => void"
  | .node => f.node
  | .element => f.element
  | .ref => f.reference
  | .date => "Date"
  | .file => "File"

end Framework

/-- Words that cannot name a binding in a strict module. -/
def reserved : List String := [
  "arguments", "await", "break", "case", "catch", "class", "const", "continue", "debugger",
  "default", "delete", "do", "else", "enum", "eval", "export", "extends", "false", "finally",
  "for", "function", "if", "implements", "import", "in", "instanceof", "interface", "let",
  "new", "null", "package", "private", "protected", "public", "return", "static", "super",
  "switch", "this", "throw", "true", "try", "typeof", "var", "void", "while", "with", "yield"]

/-- A name as an identifier: a reserved word gets an underscore. -/
def ident (name : String) : String := if name ∈ reserved then name ++ "_" else name

/-- The name of the language. -/
def target : String := "typescript"

mutual

/-- A value as a literal. Null has none. -/
def literal? : Json.Value → Option String
  | .string s => some (Text.quotedSingle s)
  | .number n => some n.text
  | .bool b => some (if b then "true" else "false")
  | .array items => (literalItems? items).map fun parts => "[" ++ Text.join ", " parts ++ "]"
  | .object fields =>
    (literalFields? fields).map fun parts => "\x7b " ++ Text.join ", " parts ++ " \x7d"
  | .null => none

/-- The literals of items. -/
def literalItems? : List Json.Value → Option (List String)
  | [] => some []
  | v :: vs => do
    let part ← literal? v
    let parts ← literalItems? vs
    some (part :: parts)

/-- The literals of fields. -/
def literalFields? : List (String × Json.Value) → Option (List String)
  | [] => some []
  | (name, v) :: rest => do
    let part ← literal? v
    let parts ← literalFields? rest
    some ((name ++ ": " ++ part) :: parts)

end

/-- A type that binds tightly: a function or a union stands in parentheses. -/
def group (type : String) : String :=
  if Text.contains "=>" type || Text.contains " | " type then "(" ++ type ++ ")" else type

/-- The union of the literals of values. -/
def literalUnion (d : TypeDescriptor) (values : List Json.Value) : Except UnmappableType String :=
  match values.mapM literal? with
  | some literals => .ok (Text.join " | " literals)
  | none => .error ⟨target, d.summary, .noLiteral⟩

/-- The type of alternatives. -/
def union (members : List String) : String :=
  (commonMember? members).getD (Text.join " | " members)

/-- The type of an object. -/
def object (fields : List String) (strict : Bool) : String :=
  let all := fields ++ if strict then [] else ["[key: string]: unknown"]
  if all.isEmpty then "Record<string, never>" else "\x7b " ++ Text.join "; " all ++ " \x7d"

mutual

/-- The type of a descriptor. -/
def type (f : Framework) : TypeDescriptor → Except UnmappableType String
  | .primitive kind values =>
    match enumerationValues target (.primitive kind values) with
    | .error e => .error e
    | .ok (some values) => literalUnion (.primitive kind values) values
    | .ok none => .ok kind.name
  | .custom kind values =>
    match enumerationValues target (.custom kind values) with
    | .error e => .error e
    | .ok (some enumerated) => literalUnion (.custom kind values) enumerated
    | .ok none => .ok "string"
  | .complex kind => .ok (f.complex kind)
  | .signed kind params returns =>
    match kind with
    | .function => do
      let params ← named f params
      let returns ← result f returns
      .ok ("(" ++ Text.join ", " params ++ ") => " ++ returns)
    | kind => .ok (f.complex kind)
  | .union types =>
    if types.isEmpty then .error ⟨target, (TypeDescriptor.union types).summary, .emptyUnion⟩
    else do
      let members ← all f types
      .ok (union (members.map group))
  | .array items _ _ _ => do
    let inner ← type f items
    .ok (group inner ++ "[]")
  | .object properties strict => do
    let fields ← named f properties
    .ok (object fields strict)

/-- The types of descriptors. -/
def all (f : Framework) : List TypeDescriptor → Except UnmappableType (List String)
  | [] => .ok []
  | d :: ds => do
    let first ← type f d
    let rest ← all f ds
    .ok (first :: rest)

/-- Named types, as fields and parameters are written. -/
def named (f : Framework) : List (String × TypeDescriptor) → Except UnmappableType (List String)
  | [] => .ok []
  | (name, d) :: more => do
    let first ← type f d
    let rest ← named f more
    .ok ((name ++ ": " ++ first) :: rest)

/-- The type of a result. -/
def result (f : Framework) : Option TypeDescriptor → Except UnmappableType String
  | none => .ok "void"
  | some d => type f d

end

/-- The type of a prop that may be left out. -/
def optional (type : String) : String := type ++ " | undefined"

/-- The type table for a framework. -/
def table (f : Framework) : TypeTable where
  target := target
  map d _ := .ofExcept (type f d)
  literal _ v _ := literal? v
  optional := optional
  ident := ident

end DesignSystem.TypeScript
