import DesignSystem.Script.Usage

/-!
# Calls of components

Native examples, previews and tests call a component with named arguments.
-/

set_option autoImplicit false

namespace DesignSystem

/-- A named argument. -/
structure Argument where
  name : String
  value : String
  deriving DecidableEq

/-- A call with named arguments. -/
structure Call where
  callee : String
  arguments : List Argument
  deriving DecidableEq

/-- A call as text; `mark` stands between a name and its value. -/
def Call.render (mark : String) (c : Call) : String :=
  s!"{c.callee}(" ++ Text.join ", " (c.arguments.map fun a => a.name ++ mark ++ a.value) ++ ")"

namespace ComponentModel

/-- The arguments that give props their sample values. -/
def sampleArguments (props : List PropModel) : List Argument :=
  props.filterMap fun p => p.argument?.map fun a => ⟨a.1, a.2⟩

/-- The arguments of examples: the plain props that are required or enumerated. -/
def shownArguments (m : ComponentModel) : List Argument :=
  sampleArguments (m.valueProps.filter (·.isShown))

/-- The arguments of tests: the plain props that are required. -/
def requiredArguments (m : ComponentModel) : List Argument :=
  sampleArguments (m.valueProps.filter (·.required))

end ComponentModel

end DesignSystem
