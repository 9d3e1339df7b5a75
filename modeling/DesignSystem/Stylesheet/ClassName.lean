import DesignSystem.Markup.Element

/-!
# Class names

A component has a class of its own, one for each value of the props that choose a styling, and one
for each compound variant. Scripts compute the list of classes that apply.
-/

set_option autoImplicit false

namespace DesignSystem

/-- The class for a value along an axis of a component. -/
def ComponentModel.modifierClass (m : ComponentModel) (axis value : String) : String :=
  s!"{m.kebabName}--{Text.kebab axis}-{value}"

/-- The classes for the values that a compound variant needs. -/
def ComponentModel.conditionClasses (m : ComponentModel) (c : CompoundModel) : List String :=
  c.conditions.map fun condition => m.modifierClass condition.prop condition.value

/-- The class for a compound variant: its own, or else the classes for its values. -/
def ComponentModel.compoundClass (m : ComponentModel) (c : CompoundModel) : String :=
  c.className.getD (Text.join " " (m.conditionClasses c))

/-- The literal that a condition compares its prop with. -/
def ConditionModel.operand (c : ConditionModel) : String := c.literal.getD s!"'{c.value}'"

/-- The test for a compound variant. -/
def CompoundModel.guard (c : CompoundModel) : String :=
  Text.join " && " (c.conditions.map fun condition => s!"{condition.prop} === {condition.operand}")

/-- A part of the list of classes that a script computes. -/
inductive ClassPart
  /-- The class of the component. -/
  | root
  /-- The class for the value of a prop. -/
  | modifier (p : PropModel)
  /-- The class for a compound variant, if it applies. -/
  | compound (c : CompoundModel)

/-- The identifiers that a part uses. -/
def ClassPart.uses : ClassPart → List String
  | root => []
  | modifier p => [p.ident]
  | compound c => c.conditions.map (·.prop)

/-- The parts of the list of classes. -/
def ComponentModel.classParts (m : ComponentModel) : List ClassPart :=
  [.root] ++ m.modifiers.map .modifier ++ m.compounds.map .compound

/-- The expression for a part, given those for the class of the component and for a prop. -/
def ClassPart.expression (m : ComponentModel) (own : String) (choice : PropModel → String) :
    ClassPart → String
  | root => own
  | modifier p => choice p
  | compound c => s!"{c.guard} && '{m.compoundClass c}'"

/-- The expressions for all parts. -/
def ComponentModel.classExpressions (m : ComponentModel) (own : String)
    (choice : PropModel → String) : List String :=
  m.classParts.map (ClassPart.expression m own choice)

/-- The template literal for the class of a prop's value. -/
def ComponentModel.choiceTemplate (m : ComponentModel) (p : PropModel) : String :=
  s!"`{m.kebabName}--{p.kebab}-$\x7b{p.ident}\x7d`"

/-- The call that joins the classes, where classes are plain text. -/
def ComponentModel.classList (m : ComponentModel) : String :=
  let parts := Text.join ", " (m.classExpressions s!"'{m.kebabName}'" m.choiceTemplate)
  s!"cx({parts})"

end DesignSystem
