import DesignSystem.Generation.Transformation
import DesignSystem.Generator.Platform

/-!
# Registries

A registry holds the adapters of platforms in the order in which their identifiers were first
registered. Registering an identifier again replaces its adapter.
-/

set_option autoImplicit false

namespace DesignSystem

/-- What generates for a platform. -/
structure Adapter where
  id : PlatformId
  /-- How many turns pass before a transformation is done. -/
  turns : Nat := 0
  transform : Schema → TransformOptions → Except GenerationError Transformation
  generate : ComponentSpec → TransformOptions → Except GenerationError GeneratedComponent

/-- The adapter of a built-in platform, with templates from a source. -/
def Platform.adapter (source : TemplateSource) (p : Platform) : Adapter where
  id := p.id
  transform := p.generator.transform source
  generate := fun c options => p.generator.generate source c options []

/-- Adapters in order of registration. -/
abbrev Registry := List Adapter

namespace Registry

/-- Registers an adapter: in the place of the one of its identifier, or at the end. -/
def register (a : Adapter) : Registry → Registry
  | [] => [a]
  | b :: rest => if b.id = a.id then a :: rest else b :: register a rest

/-- The registry of the built-in platforms. -/
def builtIn (source : TemplateSource) : Registry := Platform.all.map (·.adapter source)

/-- The identifiers in order. -/
def platforms (r : Registry) : List PlatformId := r.map (·.id)

/-- The adapter of an identifier. -/
def get? (id : PlatformId) (r : Registry) : Option Adapter := r.find? (·.id = id)

/-- Whether the identifier that a text stands for is registered. -/
def contains (platform : String) (r : Registry) : Bool := (r.get? (.ofText platform)).isSome

/-- The adapter of the identifier that a text stands for. -/
def resolve (platform : String) (r : Registry) : Except GenerationError Adapter :=
  match r.get? (.ofText platform) with
  | some a => .ok a
  | none => .error (.unknownPlatform platform (r.platforms.map (·.text)))

/-- A registry as text. -/
def text (r : Registry) : String :=
  let names := r.platforms.map fun id => "PlatformId(" ++ Text.quotedVisible id.text ++ ")"
  "AdapterRegistry \x7b platforms: [" ++ Text.join ", " names ++ "] \x7d"

end Registry

end DesignSystem
