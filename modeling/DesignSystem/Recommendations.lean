import DesignSystem.Artifact
import DesignSystem.Text.Basic

/-!
# Recommendations

What each platform is best built from: components, layouts, and snippets for common patterns.
-/

set_option autoImplicit false

namespace DesignSystem

/-- Advice on building for a platform. -/
structure Recommendations where
  components : List String
  layouts : List String
  /-- Snippets by the names of patterns. -/
  patterns : Entries String

namespace Recommendations

/-- The patterns that every platform has a snippet for. -/
def requiredPatterns : List String := ["form", "list", "dashboard"]

/-- Advice with a snippet, given as lines, for each of the required patterns. -/
def withSnippets (components layouts form list dashboard : List String) : Recommendations :=
  ⟨components, layouts, requiredPatterns.zip ([form, list, dashboard].map Text.unlines)⟩

/-- Whether each required pattern has a snippet. -/
def isComplete (r : Recommendations) : Bool :=
  requiredPatterns.all fun name =>
    match r.patterns.get? name with
    | some snippet => !Text.isBlank snippet
    | none => false

/-- The advice for a platform as JSON. -/
def toJson (platform : String) (r : Recommendations) : Json.Value :=
  .object [("platform", .string platform), ("components", .array (r.components.map .string)),
    ("layout_patterns", .array (r.layouts.map .string)),
    ("patterns", .object (r.patterns.map fun p => (p.1, .string p.2)))]

end Recommendations

end DesignSystem
