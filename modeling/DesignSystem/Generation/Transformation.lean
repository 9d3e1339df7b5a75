import DesignSystem.Generation.Component
import DesignSystem.Token.Symbol

/-!
# Transformations

A transformation generates a whole schema for a platform: the files of the tokens, the theme, the
utilities, and each component that is made for the platform. A component that fails does not keep
the others from being generated.
-/

set_option autoImplicit false

namespace DesignSystem

/-- A component that was not generated, and why. -/
structure ComponentFailure where
  component : String
  error : GenerationError

/-- What has been generated for a schema. -/
structure Transformation where
  platform : PlatformId
  schemaId : String
  /-- The files of the tokens. -/
  tokens : Entries String := []
  /-- The sources of the components. -/
  components : Entries String := []
  theme : String := ""
  utilities : Entries String := []
  /-- Examples of using the components. -/
  examples : Entries String := []
  files : Manifest := []
  failures : List ComponentFailure := []
  /-- The components that are not made for the platform. -/
  skipped : List String := []

namespace Transformation

/-- Whether no component failed. -/
def isComplete (t : Transformation) : Bool := t.failures.isEmpty

/-- The failure of a component. -/
def failure? (t : Transformation) (component : String) : Option ComponentFailure :=
  t.failures.find? (·.component = component)

/-- Adds what became of a component. -/
def record (t : Transformation) (component : String) :
    Except GenerationError GeneratedComponent → Transformation
  | .ok c => { t with
      files := t.files.putAll c.files
      examples := t.examples.insert c.name c.usage
      components := t.components.insert c.name c.code }
  | .error e => { t with failures := t.failures ++ [⟨component, e⟩] }

end Transformation

/-- Files by path. -/
def Artifact.entries (artifacts : List Artifact) : Entries String :=
  .ofList (artifacts.map fun a => (a.path, a.content))

namespace Generator

/-- What is generated for a schema apart from its components. -/
def foundation (g : Generator) (s : Schema) (tokens : FlatTokens) : Transformation where
  platform := g.platform.id
  schemaId := s.id
  tokens := Artifact.entries (g.tokenFiles tokens)
  theme := (g.theme tokens).content
  utilities := Artifact.entries g.utilities
  files := .ofFiles ((g.tokenFiles tokens).map (·.as .tokens) ++ [(g.theme tokens).as .theme] ++
    g.utilities.map (·.as .utility))
  skipped := (s.components.values.filter (!·.supports g.platform.id)).map (·.name)

/-- The components of a schema that are made for the platform. -/
def requested (g : Generator) (s : Schema) : List ComponentSpec :=
  s.components.values.filter (·.supports g.platform.id)

/-- What becomes of a component of a checked schema. -/
def outcome (g : Generator) (source : TemplateSource) (v : ValidatedSchema)
    (options : TransformOptions) (c : ComponentSpec) :
    Except GenerationError GeneratedComponent :=
  match v.invalid.find? (·.component = c.name) with
  | some e => .error (.specification e)
  | none => g.generate source c options v.tokens

/-- Checks a schema for a platform. -/
def validate (g : Generator) (s : Schema) : Except SchemaError ValidatedSchema := do
  let v ← s.validate
  (Token.checkSymbols g.symbol v.tokens).mapError .tokens
  .ok v

/-- Generates a schema. -/
def transform (g : Generator) (source : TemplateSource) (s : Schema) (options : TransformOptions) :
    Except GenerationError Transformation := do
  let v ← (g.validate s).mapError .schema
  .ok ((g.requested s).foldl (fun t c => t.record c.name (g.outcome source v options c))
    (g.foundation s v.tokens))

end Generator

open Json (Value)

/-- Texts by name as JSON. -/
def contentsToJson (e : Entries String) : Value := .object (e.map fun t => (t.1, .string t.2))

/-- A failure as JSON. -/
def ComponentFailure.toJson (f : ComponentFailure) : Value :=
  .object [("component", .string f.component), ("kind", .string f.error.kind),
    ("message", .string f.error.message)]

/-- A transformation as JSON. -/
def Transformation.toJson (t : Transformation) : Value :=
  .object [("platform", .string t.platform.text), ("schema_id", .string t.schemaId),
    ("tokens", contentsToJson t.tokens), ("components", contentsToJson t.components),
    ("theme", .string t.theme), ("utils", contentsToJson t.utilities),
    ("examples", contentsToJson t.examples), ("files", t.files.toJson),
    ("failures", .array (t.failures.map ComponentFailure.toJson)),
    ("skipped", .array (t.skipped.map .string))]

end DesignSystem
