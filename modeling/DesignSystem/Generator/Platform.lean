import DesignSystem.Generator.Angular
import DesignSystem.Generator.Compose
import DesignSystem.Generator.Css
import DesignSystem.Generator.Flutter
import DesignSystem.Generator.React
import DesignSystem.Generator.Svelte
import DesignSystem.Generator.SwiftUI
import DesignSystem.Generator.Tailwind
import DesignSystem.Generator.Vue

/-!
# Generators of the built-in platforms
-/

set_option autoImplicit false

namespace DesignSystem

/-- The generator of a platform. -/
def Platform.generator : Platform → Generator
  | react => React.generator
  | vue => Vue.generator
  | angular => Angular.generator
  | svelte => Svelte.generator
  | flutter => Flutter.generator
  | swiftUI => SwiftUI.generator
  | compose => Compose.generator
  | css => Css.generator
  | tailwind => Tailwind.generator

end DesignSystem
