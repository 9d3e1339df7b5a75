import DesignSystem.Recommendations
import DesignSystem.Markup.Element
import DesignSystem.Stylesheet.CustomProperty

/-!
# Generators

A generator holds all that is particular to a platform: where files go, how a component is written
when no template is given for it, and what is written for the tokens.
-/

set_option autoImplicit false

namespace DesignSystem

/-- How sources are generated for a platform. -/
structure Generator where
  platform : Platform
  /-- The file layouts that a request can choose from; the first is the one that is meant if a
  request names none of them. -/
  conventions : List String := []
  /-- Where the source of a component goes. -/
  componentPath : ComponentModel → String
  /-- The source of a component. -/
  source : ComponentModel → String
  types : ComponentModel → Option Artifact := fun _ => none
  styles : ComponentModel → Option Artifact := fun _ => none
  test : ComponentModel → Option Artifact := fun _ => none
  story : ComponentModel → Option Artifact := fun _ => none
  /-- A short example of using a component. -/
  usage : ComponentModel → String
  tokenFiles : FlatTokens → List Artifact
  theme : FlatTokens → Artifact
  /-- Files that components share. -/
  utilities : List Artifact
  /-- The symbol that a token is declared under. -/
  symbol : String → String := Stylesheet.customProperty
  recommendations : Recommendations

namespace Generator

/-- The convention that templates are looked up by: the requested one if the platform has it, else
the platform's first. -/
def convention? (g : Generator) (options : TransformOptions) : Option String :=
  (options.convention.filter g.conventions.contains) <|> g.conventions.head?

/-- Where a template for a component may stand, the most specific place first. -/
def candidates (g : Generator) (m : ComponentModel) : List String :=
  let file := s!"{m.category.name}/{m.kebabName}.hbs"
  ((g.convention? m.options).map fun c => s!"{g.platform.name}/{c}/{file}").toList ++
    [s!"{g.platform.name}/{file}"]

/-- Where the texts of a component go for a locale. -/
def localePath (locale : String) (m : ComponentModel) : String :=
  s!"locales/{locale}/{m.kebabName}.json"

end Generator

end DesignSystem
