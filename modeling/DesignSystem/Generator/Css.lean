import DesignSystem.Generator.Basic
import DesignSystem.Stylesheet.Component

/-!
# Plain stylesheets

Stylesheets without a framework. A comment shows the markup that the classes are for.
-/

set_option autoImplicit false

namespace DesignSystem.Css

/-- The class of a part of a component. -/
def partClass (m : ComponentModel) (p : PropModel) : String := s!"{m.kebabName}__{p.kebab}"

/-- What the comment says about a prop that holds a plain value. -/
def valueNote (m : ComponentModel) (p : PropModel) : String :=
  s!"{p.kebab}: {p.type}" ++ ((p.default.map (", default " ++ ·)).getD "") ++
    (if p.enumerated.isSome then ", modifier ." ++ m.modifierClass p.kebab "*" else "") ++
    if p.required then ", required" else ""

/-- What the comment says about a prop. -/
def note (m : ComponentModel) (p : PropModel) : String :=
  if p.isCallback then s!"{p.kebab}: event, bind with a listener"
  else if p.isContent then s!"{p.kebab}: slot (.{partClass m p})"
  else valueNote m p

/-- The classes of the element: that of the component and those for the default values. -/
def classes (m : ComponentModel) : List String :=
  m.kebabName :: m.modifiers.filterMap fun p =>
    p.default.map fun value => m.modifierClass p.kebab (Text.trimChar '\'' value)

/-- The text that a prop shows in the markup. -/
def sampleText (p : PropModel) : String := (p.sample.map (Text.trimChar '\'')).getD p.ident

/-- The opening tag of the element. -/
def openingTag (m : ComponentModel) : String :=
  let classes := Text.join " " (classes m)
  let role := if m.roleIsNative then "" else s!" role=\"{m.role}\""
  s!"<{m.element} class=\"{classes}\"{role} aria-label=\"{m.accessibleLabel}\">"

/-- The markup of a component. -/
def markup (m : ComponentModel) : List String :=
  [openingTag m] ++ m.contentProps.map (fun p => s!"  <span class=\"{partClass m p}\"></span>") ++
    m.textProps.map (fun p => s!"  {sampleText p}") ++ [s!"</{m.element}>"]

/-- The notes on the props. -/
def propNotes (m : ComponentModel) : List String :=
  if m.props.isEmpty then []
  else ["", "Props:"] ++ m.props.map fun p => s!"  {note m p}"

/-- The comment at the head of a stylesheet. -/
def heading (m : ComponentModel) : List String :=
  [s!" * {m.pascalName}"] ++ (m.description.map (" * " ++ ·)).toList ++ [" *"] ++
    (markup m).map (" * " ++ ·) ++
    (propNotes m).map fun line => if line.isEmpty then " *" else s!" * {line}"

/-- The rule for a part of a component. -/
def partRule (m : ComponentModel) (p : PropModel) : Stylesheet.Rule where
  selectors := ["." ++ partClass m p]
  declarations := [("display", "inline-flex"), ("align-items", "center")]

/-- The source of a component. -/
def source (m : ComponentModel) : String :=
  Text.file (["/*"] ++ heading m ++ [" */", ""] ++
    Stylesheet.lines (m.stylesheetRules ++ m.contentProps.map (partRule m)))

/-- An example of using a component. -/
def usage (m : ComponentModel) : String :=
  Text.unlines ([s!"<link rel=\"stylesheet\" href=\"components/{m.kebabName}.css\" />", ""] ++
    markup m)

/-- The font of the page: the first token of a group of fonts. -/
def fontFamily (ts : FlatTokens) : String :=
  let isFont (t : FlatToken) := t.place.path.head?.any (Text.startsWith "font")
  match ts.find? isFont with
  | some t => s!"var({Stylesheet.customProperty t.name}, system-ui)"
  | none => "system-ui"

/-- The theme. -/
def theme (ts : FlatTokens) : Artifact :=
  ⟨"theme.css", Text.file [
    "@import './tokens.css';",
    "",
    ":root \x7b",
    "  color-scheme: light dark;",
    "\x7d",
    "",
    "[data-theme='dark'] \x7b",
    "  color-scheme: dark;",
    "\x7d",
    "",
    "body \x7b",
    "  margin: 0;",
    s!"  font-family: {fontFamily ts};",
    "\x7d"]⟩

/-- Classes that any page can use. -/
def utilityClasses : Artifact :=
  ⟨"utilities.css", Text.file [
    ".visually-hidden \x7b",
    "  position: absolute;",
    "  width: 1px;",
    "  height: 1px;",
    "  padding: 0;",
    "  margin: -1px;",
    "  overflow: hidden;",
    "  clip: rect(0, 0, 0, 0);",
    "  white-space: nowrap;",
    "  border: 0;",
    "\x7d",
    "",
    ".focus-ring:focus-visible \x7b",
    "  outline: 2px solid currentColor;",
    "  outline-offset: 2px;",
    "\x7d",
    "",
    "@media (prefers-reduced-motion: reduce) \x7b",
    "  *,",
    "  *::before,",
    "  *::after \x7b",
    "    transition-duration: 0.01ms !important;",
    "    animation-duration: 0.01ms !important;",
    "  \x7d",
    "\x7d"]⟩

/-- Advice on building for the platform. -/
def recommendations : Recommendations :=
  .withSnippets ["button", "text-field", "card", "badge", "alert", "nav"]
    ["Stack", "Cluster", "Sidebar", "Grid"]
    [
      "<form class=\"stack\">",
      "  <label class=\"text-field\">Email <input type=\"email\" name=\"email\" /></label>",
      "  <button class=\"button button--variant-primary\" type=\"submit\">Save</button>",
      "</form>"]
    [
      "<ul class=\"stack\" role=\"list\">",
      "  <li class=\"card\">First</li>",
      "  <li class=\"card\">Second</li>",
      "</ul>"]
    [
      "<main class=\"grid\">",
      "  <nav class=\"nav\"></nav>",
      "  <section class=\"card\"><h2>Revenue</h2></section>",
      "</main>"]

/-- The generator. -/
def generator : Generator where
  platform := .css
  componentPath m := s!"components/{m.kebabName}.css"
  source := source
  usage := usage
  tokenFiles ts := [⟨"tokens.css", Stylesheet.rootBlock ts⟩]
  theme := theme
  utilities := [utilityClasses]
  recommendations := recommendations

end DesignSystem.Css
