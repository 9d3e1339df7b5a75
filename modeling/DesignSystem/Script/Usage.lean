import DesignSystem.Artifact
import DesignSystem.Markup.Element

/-!
# Uses of components

Examples, tests and stories use a component with the sample values of its props.
-/

set_option autoImplicit false

namespace DesignSystem

namespace PropModel

/-- Whether examples give a prop a value: it is required or enumerated. -/
def isShown (p : PropModel) : Bool := p.required || p.enumerated.isSome

/-- The attribute that gives a prop its sample value. A text stands in double quotes as it is, and
any other value is an expression in braces. -/
def attribute? (p : PropModel) : Option String :=
  p.sample.map fun sample =>
    match Text.unquoted? sample with
    | some inner => s!"{p.ident}=\"{inner}\""
    | none => s!"{p.ident}=\x7b{sample}\x7d"

/-- A prop and its sample value, if it has one. -/
def argument? (p : PropModel) : Option (String × String) := p.sample.map fun s => (p.ident, s)

end PropModel

namespace ComponentModel

/-- The attributes of examples. -/
def attributes (m : ComponentModel) : List String :=
  (m.props.filter (·.isShown)).filterMap (·.attribute?)

/-- An element without content. -/
def emptyElement (tag : String) (attributes : List String) : String :=
  match attributes with
  | [] => s!"<{tag} />"
  | _ => s!"<{tag} " ++ Text.join " " attributes ++ " />"

/-- The title that a story is filed under. -/
def storyTitle (m : ComponentModel) : String := s!"{Text.title m.category.name}/{m.pascalName}"

/-- An object with the sample values of the plain props. -/
def sampleObject (m : ComponentModel) : String :=
  let fields := (m.valueProps.filterMap (·.argument?)).map fun a => s!"{a.1}: {a.2}"
  s!"\x7b " ++ Text.join ", " fields ++ " \x7d"

end ComponentModel

/-- The helper that joins the classes that apply. -/
def classHelper (path : String) : Artifact :=
  ⟨path, Text.file [
    "export function cx(...classes: Array<string | false | null | undefined>): string \x7b",
    "  return classes.filter(Boolean).join(' ');",
    "\x7d"]⟩

end DesignSystem
