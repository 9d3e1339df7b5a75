import DesignSystem.Assembly
import DesignSystem.Component.Encoding
import DesignSystem.Generation.Error
import DesignSystem.Template.Source

/-!
# Generating a component

The source of a component is rendered from a template if there is one for it, and otherwise written
by the platform's generator. A template that is found but fails is a failure of the component.
-/

set_option autoImplicit false

namespace DesignSystem

/-- What the source of a component was made by. -/
inductive CodeOrigin
  | generator
  | template (path : String)
  deriving DecidableEq

/-- A component as it has been generated. -/
structure GeneratedComponent where
  name : String
  code : String
  origin : CodeOrigin
  /-- A short example of using it. -/
  usage : String
  files : Manifest

/-- The text of a template with a component as the value in scope. -/
def ComponentModel.render (m : ComponentModel) (path text : String) :
    Except GenerationError String :=
  (Template.renderText text m.toData).mapError (.template path)

namespace Generator

/-- The source of a component with its origin. -/
def code (g : Generator) (source : TemplateSource) (m : ComponentModel) :
    Except GenerationError (String × CodeOrigin) :=
  match (g.candidates m).find? source.has with
  | none => .ok (g.source m, .generator)
  | some path => do
    let text ← (source.read path).mapError (.source path)
    .ok (← m.render path text, .template path)

/-- The model of a component that is valid and whose props all have types on the platform. -/
def model (g : Generator) (c : ComponentSpec) (options : TransformOptions) (tokens : FlatTokens) :
    Except GenerationError ComponentModel :=
  match c.error? with
  | some e => .error (.specification e)
  | none => ((c.model g.platform options).mapError .unmappable).map (·.withTokens tokens)

/-- Generates a component. -/
def generate (g : Generator) (source : TemplateSource) (c : ComponentSpec)
    (options : TransformOptions) (tokens : FlatTokens) :
    Except GenerationError GeneratedComponent := do
  let m ← g.model c options tokens
  let (code, origin) ← g.code source m
  .ok ⟨c.name, code, origin, g.usage m, g.assemble m code⟩

end Generator

end DesignSystem
