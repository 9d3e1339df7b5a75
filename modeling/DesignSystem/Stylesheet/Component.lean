import DesignSystem.Stylesheet.ClassName
import DesignSystem.Stylesheet.CustomProperty

/-!
# Component stylesheets

The stylesheet of a component is a list of rules: one for the component with its tokens, one for
each value of the props and axes that choose a styling, and one for each compound variant.
-/

set_option autoImplicit false

namespace DesignSystem.Stylesheet

/-- A rule: the selectors that it is for and what it declares. -/
structure Rule where
  /-- A comment that stands before the rule. -/
  note : Option String := none
  selectors : List String
  /-- Properties with their values. -/
  declarations : List (String × String) := []

/-- A rule as lines. -/
def Rule.lines (r : Rule) : List String :=
  (r.note.map fun note => s!"/* {note} */").toList ++ [Text.join ", " r.selectors ++ " \x7b"] ++
    r.declarations.map (fun d => s!"  {d.1}: {d.2};") ++ ["\x7d"]

/-- Rules as lines, with a blank line between them. -/
def lines (rules : List Rule) : List String := [""].intercalate (rules.map Rule.lines)

/-- The property that a token of a component sets, by the token's key. -/
def propertyForKey : String → String
  | "radius" => "border-radius"
  | "text" | "foreground" | "fg" => "color"
  | "bg" => "background"
  | "font" => "font-family"
  | "shadow" => "box-shadow"
  | key => key

end DesignSystem.Stylesheet

namespace DesignSystem.ComponentModel

open Stylesheet (Rule)

/-- The rule for a component. -/
def rootRule (m : ComponentModel) : Rule where
  selectors := ["." ++ m.kebabName]
  declarations := ("box-sizing", "border-box") ::
    m.tokens.map fun t => (Stylesheet.propertyForKey t.key, Stylesheet.use t.name)

/-- The rule for a component that has the focus. -/
def focusRule (m : ComponentModel) : Rule where
  selectors := [s!".{m.kebabName}:focus-visible"]
  declarations := [("outline", "2px solid currentColor"), ("outline-offset", "2px")]

/-- The rule for a value of a prop. It records the value in a custom property. -/
def modifierRule (m : ComponentModel) (p : PropModel) (value : String) : Rule where
  selectors := ["." ++ m.modifierClass p.kebab value]
  declarations := [(s!"--{m.kebabName}-{p.kebab}", value)]

/-- The rules for the values of a prop. -/
def modifierRules (m : ComponentModel) (p : PropModel) : List Rule :=
  p.choices.map (m.modifierRule p)

/-- The rules for the values along an axis. They are left to be filled in. -/
def axisRules (m : ComponentModel) (a : AxisModel) : List Rule :=
  a.values.map fun value => ⟨none, ["." ++ m.modifierClass a.name value], []⟩

/-- The selector for the values that a compound variant needs. -/
def compoundSelector (m : ComponentModel) (c : CompoundModel) : String :=
  s!".{m.kebabName}" ++ Text.join "" ((m.conditionClasses c).map ("." ++ ·))

/-- The rule for a compound variant. -/
def compoundRule (m : ComponentModel) (c : CompoundModel) : Rule where
  note := c.description
  selectors := m.compoundSelector c :: (c.className.map ("." ++ ·)).toList

/-- The rules of a component. -/
def stylesheetRules (m : ComponentModel) : List Rule :=
  [m.rootRule] ++ (if m.focusable then [m.focusRule] else []) ++
    m.modifiers.flatMap m.modifierRules ++ m.variants.flatMap m.axisRules ++
    m.compounds.map m.compoundRule

/-- The stylesheet of a component as lines. -/
def stylesheetLines (m : ComponentModel) : List String := Stylesheet.lines m.stylesheetRules

/-- The stylesheet of a component. -/
def stylesheet (m : ComponentModel) : String := Text.file m.stylesheetLines

end DesignSystem.ComponentModel
