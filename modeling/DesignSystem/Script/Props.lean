import DesignSystem.Component.Model

/-!
# Props in scripts

The interface that declares the props of a component, with a comment for each prop that has
something to say.
-/

set_option autoImplicit false

namespace DesignSystem

/-- A deprecation as a tag of a comment. -/
def Deprecation.tag (d : Deprecation) : String :=
  let note := s!"@deprecated since {d.since}: {d.reason}"
  match d.alternative with
  | some other => note ++ " Use `" ++ Text.camel other ++ "` instead."
  | none => note

namespace PropModel

/-- What a comment says about a prop. -/
def remarks (p : PropModel) : List String :=
  p.description.toList ++ (p.default.map ("@default " ++ ·)).toList ++
    (p.deprecated.map (·.tag)).toList

/-- The comment on a prop, as lines. -/
def comment (p : PropModel) : List String :=
  match p.remarks with
  | [] => []
  | [remark] => [s!"  /** {remark} */"]
  | remarks => ["  /**"] ++ remarks.map ("   * " ++ ·) ++ ["   */"]

/-- The member of an interface for a prop. -/
def member (p : PropModel) : String :=
  let mark := if p.required then "" else "?"
  s!"  {p.ident}{mark}: {p.type};"

/-- A prop as it is bound in a pattern, with its default value. -/
def binding (p : PropModel) : String :=
  match p.default with
  | some value => s!"{p.ident} = {value}"
  | none => p.ident

end PropModel

/-- The sources of the types that a component declares, each followed by a blank line. -/
def ComponentModel.declarationLines (m : ComponentModel) : List String :=
  m.declarations.flatMap fun d => [d.2, ""]

/-- The interface for props of a component: its heading, the props, and further members. -/
def ComponentModel.propsInterface (m : ComponentModel) (heading : String) (props : List PropModel)
    (further : List String) : List String :=
  m.declarationLines ++ [s!"{heading} \x7b"] ++ props.flatMap (fun p => p.comment ++ [p.member]) ++
    further.map ("  " ++ ·) ++ ["\x7d"]

/-- The heading of the interface that others can use. -/
def ComponentModel.propsHeading (m : ComponentModel) : String :=
  s!"export interface {m.pascalName}Props"

end DesignSystem
