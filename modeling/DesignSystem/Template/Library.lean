import DesignSystem.Generation.Error

/-!
# Libraries of templates

Templates by names of their own. A text that is no template leaves the library as it is.
-/

set_option autoImplicit false

namespace DesignSystem

/-- Templates by name. -/
abbrev TemplateLibrary := Entries Template

namespace TemplateLibrary

/-- Reads a text as the template of a name, which replaces an earlier one. -/
def register (name text : String) (l : TemplateLibrary) :
    Except GenerationError TemplateLibrary :=
  match Template.ofText text with
  | .ok t => .ok (l.insert name t)
  | .error fault => .error (.template name fault)

/-- The text of the template of a name with a value in scope. -/
def render (name : String) (v : Json.Value) (l : TemplateLibrary) :
    Except GenerationError String :=
  match l.get? name with
  | none => .error (.template name (.unregistered name))
  | some t => (t.render v).mapError (.template name)

end TemplateLibrary

end DesignSystem
