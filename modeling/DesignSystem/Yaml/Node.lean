/-!
# YAML nodes

A scalar stays text, since what it means depends on where it is used; it is known only whether it
was written without quotes.
-/

set_option autoImplicit false

namespace DesignSystem.Yaml

/-- What a YAML document holds. -/
inductive Node
  | scalar (text : String) (plain : Bool)
  | list (items : List Node)
  | map (entries : List (String × Node))

namespace Node

/-- What stands where nothing is written. -/
def blank : Node := .scalar "" true

end Node

end DesignSystem.Yaml
