import DesignSystem.Generator.Basic

/-!
# Assembly

The files of a component: its source, and what goes with it as far as the platform has it and the
request wants it.
-/

set_option autoImplicit false

namespace DesignSystem

open Json (Value)

/-- The texts of a component as a file that can be localized. -/
def ComponentModel.localeStub (m : ComponentModel) : String :=
  Value.indented 0 (.object [(m.name, .object (m.strings.map fun s => (s.1, .string s.2)))])

namespace Generator

/-- The files for a component whose source is `code`, in order, as far as `options` asks for
them. -/
def filesFor (g : Generator) (options : TransformOptions) (m : ComponentModel) (code : String) :
    List ManifestFile :=
  [⟨g.componentPath m, code, .component⟩] ++ ((g.types m).map (·.as .types)).toList ++
    ((g.styles m).map (·.as .styles)).toList ++
    (if options.includeTests then ((g.test m).map (·.as .test)).toList else []) ++
    (if options.includeStories then ((g.story m).map (·.as .story)).toList else []) ++
    options.locales.map fun locale => ⟨localePath locale m, m.localeStub, .locale⟩

/-- The files that the request asks for which the model was built for. -/
def files (g : Generator) (m : ComponentModel) (code : String) : List ManifestFile :=
  g.filesFor m.options m code

/-- The manifest of a component whose source is `code`, as far as `options` asks for files. -/
def assembleFor (g : Generator) (options : TransformOptions) (m : ComponentModel) (code : String) :
    Manifest := .ofFiles (g.filesFor options m code)

/-- The manifest of a component whose source is `code`. -/
def assemble (g : Generator) (m : ComponentModel) (code : String) : Manifest :=
  g.assembleFor m.options m code

end Generator

end DesignSystem
