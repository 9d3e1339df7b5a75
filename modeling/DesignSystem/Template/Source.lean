import DesignSystem.Folder

/-!
# Sources of templates

Where the texts of templates come from: whatever can tell whether there is a template at a path and
can read it, such as a collection by exact paths, or a folder.
-/

set_option autoImplicit false

namespace DesignSystem

/-- Texts of templates by paths. -/
structure TemplateSource where
  /-- Whether there is a template at a path. -/
  has : String → Bool
  /-- The text of the template at a path. -/
  read : String → Except FileFailure String

namespace TemplateSource

/-- The templates of a collection. -/
def collection (templates : Entries String) : TemplateSource where
  has path := templates.has path
  read path :=
    match templates.get? path with
    | some text => .ok text
    | none => .error .notFound

/-- The templates in a folder. -/
def folder (root : Folder) : TemplateSource where
  has := root.hasFile
  read := root.read

/-- The source without any template. -/
def empty : TemplateSource := .collection []

end TemplateSource

end DesignSystem
