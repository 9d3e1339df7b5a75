import DesignSystem.Platform
import DesignSystem.Types.Dart
import DesignSystem.Types.Kotlin
import DesignSystem.Types.Swift
import DesignSystem.Types.TypeScript

/-!
# The type tables of the platforms
-/

set_option autoImplicit false

namespace DesignSystem

/-- The type table of a platform. -/
def Platform.types : Platform → TypeTable
  | react => TypeScript.table .react
  | vue => TypeScript.table .vue
  | angular => TypeScript.table .angular
  | svelte => TypeScript.table .svelte
  | css | tailwind => TypeScript.table .plain
  | swiftUI => Swift.language.table
  | compose => Kotlin.language.table
  | flutter => Dart.language.table

/-- The type of a descriptor on a platform that may not be built in. -/
def PlatformId.mapType (id : PlatformId) (d : TypeDescriptor) (hint : String) : Mapping String :=
  match id.builtin? with
  | some p => p.types.map d hint
  | none => .ofExcept (.error ⟨id.text, "*", .noTable⟩)

/-- A default value as a literal: the given value, or else the first that the descriptor
enumerates. -/
def TypeTable.default? (t : TypeTable) (d : TypeDescriptor) (value : Option Json.Value)
    (hint : String) : Option String :=
  match value with
  | some v => t.literal d v hint
  | none => do
    let first ← (← d.enumerated?).head?
    t.literal d (.string first) hint

/-- A default value as a literal on a platform that may not be built in. -/
def PlatformId.default? (id : PlatformId) (d : TypeDescriptor) (value : Option Json.Value)
    (hint : String) : Option String := do
  let p ← id.builtin?
  p.types.default? d value hint

end DesignSystem
