import DesignSystem.Descriptor.Basic
import DesignSystem.Platform
import DesignSystem.Token.Resolve

/-!
# Design schemas

A schema holds the design tokens of a system and the specifications of its components: their props,
variants and accessibility, and the platforms that they are made for.
-/

set_option autoImplicit false

namespace DesignSystem

/-- What a component is for. -/
inductive ComponentCategory
  | layout | form | navigation | feedback | dataDisplay | interactive | specialized
  deriving DecidableEq

namespace ComponentCategory

/-- The name of a category. -/
def name : ComponentCategory → String
  | layout => "layout"
  | form => "form"
  | navigation => "navigation"
  | feedback => "feedback"
  | dataDisplay => "data-display"
  | interactive => "interactive"
  | specialized => "specialized"

/-- All categories. -/
def all : List ComponentCategory :=
  [layout, form, navigation, feedback, dataDisplay, interactive, specialized]

/-- The category of a name. -/
def ofName? (s : String) : Option ComponentCategory := all.find? (·.name = s)

end ComponentCategory

/-- Since when and why a prop should no longer be used, and what to use in its place. -/
structure Deprecation where
  since : String
  reason : String
  alternative : Option String := none

/-- A prop of a component. -/
structure PropSpec where
  descriptor : TypeDescriptor
  description : Option String := none
  required : Bool := false
  default : Option Json.Value := none
  examples : List Json.Value := []
  deprecated : Option Deprecation := none

/-- Styling that applies when several props have given values. -/
structure CompoundVariant where
  conditions : Entries Json.Value
  className : Option String := none
  description : Option String := none

/-- The variants of a component: the values along single axes, and compound ones. -/
structure Variants where
  simple : Entries (List String) := []
  compound : List CompoundVariant := []

/-- Whether there are no variants at all. -/
def Variants.isEmpty (v : Variants) : Bool := v.simple.isEmpty && v.compound.isEmpty

/-- A key and what it does. -/
structure KeyboardInteraction where
  key : String
  action : String

/-- How a component presents itself to assistive technology. -/
structure Accessibility where
  role : String := ""
  label : Option String := none
  keyboard : List KeyboardInteraction := []
  /-- Events that are announced. -/
  announcements : List String := []

/-- The specification of a component. -/
structure ComponentSpec where
  name : String
  category : ComponentCategory
  description : Option String := none
  props : Entries PropSpec := []
  variants : Variants := {}
  accessibility : Accessibility := {}
  /-- The platforms that the component is made for; none named means all. -/
  platforms : List PlatformId := []

/-- Whether a component is made for a platform. -/
def ComponentSpec.supports (c : ComponentSpec) (p : PlatformId) : Bool :=
  c.platforms.isEmpty || c.platforms.contains p

/-- A design schema. -/
structure Schema where
  id : String
  version : Option String := none
  tokens : Token.Layers := {}
  components : Entries ComponentSpec := []

/-- The schema with one more component, under the component's name. -/
def Schema.addComponent (s : Schema) (c : ComponentSpec) : Schema :=
  { s with components := s.components.insert c.name c }

/-- What a request asks to be generated. -/
structure TransformOptions where
  /-- Typed sources where the platform has an untyped form. -/
  typescript : Bool := true
  /-- The locales to write string files for. -/
  locales : List String := ["en"]
  includeTests : Bool := true
  includeStories : Bool := true
  /-- The file layout to prefer. -/
  convention : Option String := none
  /-- Switches that templates can ask for, in ascending order. -/
  flags : Entries Bool := []

end DesignSystem
