import DesignSystem.Component.Model
import DesignSystem.Folder
import DesignSystem.Schema.Validation
import DesignSystem.Template.Render

/-!
# Failures of generation
-/

set_option autoImplicit false

namespace DesignSystem

/-- Why nothing is generated. -/
inductive GenerationError
  | unknownPlatform (platform : String) (registered : List String)
  /-- A template was found and cannot be rendered. -/
  | template (path : String) (fault : Template.Fault)
  | unmappable (error : UnmappableType)
  | specification (error : SpecError)
  | schema (error : SchemaError)
  /-- A template was found and cannot be read. -/
  | source (path : String) (failure : FileFailure)

namespace GenerationError

/-- The name of the kind of a failure. -/
def kind : GenerationError → String
  | unknownPlatform _ _ => "unknown_platform"
  | template _ _ => "template_render"
  | unmappable _ => "unmappable_type"
  | specification _ => "invalid_specification"
  | schema _ => "invalid_schema"
  | source _ _ => "template_source"

/-- The failure in words. -/
def message : GenerationError → String
  | unknownPlatform platform registered =>
    "Unknown platform '" ++ platform ++ "' (registered: " ++ Text.join ", " registered ++ ")"
  | template path fault => "Template '" ++ path ++ "' failed to render: " ++ fault.message
  | unmappable error => error.message
  | specification error => error.message
  | schema error => "Invalid schema: " ++ error.message
  | source path failure =>
    "Template source error for '" ++ path ++ "': " ++ failure.message

end GenerationError

end DesignSystem
