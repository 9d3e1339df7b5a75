import DesignSystem.Generator.Basic
import DesignSystem.Script.Props
import DesignSystem.Script.TokenObject
import DesignSystem.Script.Usage
import DesignSystem.Stylesheet.Component

/-!
# Svelte

Components that declare their props and derived values by runes.
-/

set_option autoImplicit false

namespace DesignSystem.Svelte

/-- Whether files are laid out for the application framework; it is so unless a request names the
layout of the bundler. -/
def usesKit (m : ComponentModel) : Bool := m.options.convention ≠ some "vite"

/-- Where the files of a component go. -/
def folder (m : ComponentModel) : String :=
  if usesKit m then s!"src/lib/components/{m.category.name}"
  else s!"src/components/{m.category.name}"

/-- The lines of a text two spaces further in. Empty lines stay empty. -/
def nested (s : String) : List String :=
  (Text.lines s).map fun line => if line.isEmpty then "" else "  " ++ line

/-- The imports of a component. -/
def imports (m : ComponentModel) : List String :=
  (if m.typed then ["import type \x7b Snippet \x7d from 'svelte';"] else []) ++
    (if m.localized then ["import \x7b _ \x7d from 'svelte-i18n';"] else []) ++
    [if usesKit m then "import \x7b cx \x7d from '$lib/utils/cx';"
      else "import \x7b cx \x7d from '../../lib/utils/cx';"]

/-- What the pattern for the props binds. -/
def bindings (m : ComponentModel) : List String := m.props.map (·.binding) ++ ["children"]

/-- The declaration of the props. -/
def propsDeclaration (m : ComponentModel) : List String :=
  let pattern := Text.join ", " (bindings m)
  if m.typed then
    nested (Text.unlines (m.propsInterface "interface Props" m.props ["children?: Snippet;"])) ++
      ["", s!"  let \x7b {pattern} \x7d: Props = $props();"]
  else [s!"  let \x7b {pattern} \x7d = $props();"]

/-- The script of a component. -/
def script (m : ComponentModel) : List String :=
  [if m.typed then "<script lang=\"ts\">" else "<script>"] ++ (imports m).map ("  " ++ ·) ++ [""] ++
    propsDeclaration m ++ ["", s!"  const classes = $derived({m.classList});", "</script>"]

/-- The attribute for the accessible name. -/
def labelAttribute (m : ComponentModel) : String :=
  if m.localized then s!"aria-label=\x7b$_('{m.name}.a11y.label')\x7d"
  else s!"aria-label=\"{m.accessibleLabel}\""

/-- The attribute that a prop is bound to. -/
def boundAttribute? (p : PropModel) : Option String :=
  match p.documentEvent? with
  | some event => some s!"on{event}=\x7b{p.ident}\x7d"
  | none => if p.isNativeAttribute then some s!"{p.kebab}=\x7b{p.ident}\x7d" else none

/-- The attributes of the element. -/
def attributes (m : ComponentModel) : List String :=
  (if m.element = "button" then ["type=\"button\""] else []) ++
    (if m.roleIsNative then [] else [s!"role=\"{m.role}\""]) ++
    (if m.needsTabIndex then ["tabindex=\"0\""] else []) ++
    (if m.liveRegion then ["aria-live=\"polite\""] else []) ++
    [labelAttribute m, "class=\x7bclasses\x7d"] ++ m.props.filterMap boundAttribute? ++
    m.modifiers.map fun p => s!"data-{p.kebab}=\x7b{p.ident}\x7d"

/-- What stands in the element: content, texts, and what a user puts between the tags. -/
def content (m : ComponentModel) : List String :=
  m.contentProps.map (fun p => s!"\x7b#if {p.ident}\x7d\x7b@render {p.ident}()\x7d\x7b/if\x7d") ++
    m.textProps.map (fun p => s!"\x7b{p.ident}\x7d") ++ ["\x7b@render children?.()\x7d"]

/-- The source of a component. -/
def source (m : ComponentModel) : String :=
  Text.file (script m ++ ["", s!"<{m.element}"] ++ (attributes m).map ("  " ++ ·) ++ [">"] ++
    (content m).map ("  " ++ ·) ++ [s!"</{m.element}>", "", "<style>"] ++ nested m.stylesheet ++
    ["</style>"])

/-- The lines that stand in for localized texts in tests. -/
def localeMock : List String := [
  "vi.mock('svelte-i18n', async () => \x7b",
  "  const \x7b readable \x7d = await import('svelte/store');",
  "  return \x7b _: readable((key: string) => key) \x7d;",
  "\x7d);",
  ""]

/-- A test that a callback is called. -/
def callbackTest (m : ComponentModel) (p : PropModel) : List String :=
  let props := s!"\x7b ...{m.sampleObject}, {p.ident}: handler \x7d"
  ["", s!"  it('calls {p.ident} on click', async () => \x7b",
    "    const handler = vi.fn();",
    s!"    render({m.pascalName}, \x7b props: {props} \x7d);",
    s!"    await userEvent.click(screen.getByRole('{m.role}'));",
    "    expect(handler).toHaveBeenCalledOnce();",
    "  \x7d);"]

/-- The test of a component. -/
def test (m : ComponentModel) : Option Artifact :=
  some ⟨s!"{folder m}/{m.pascalName}.test.ts", Text.file (
    ["import \x7b render, screen \x7d from '@testing-library/svelte';",
      "import userEvent from '@testing-library/user-event';",
      "import \x7b describe, expect, it, vi \x7d from 'vitest';",
      s!"import {m.pascalName} from './{m.pascalName}.svelte';",
      ""] ++ (if m.localized then localeMock else []) ++
    [s!"describe('{m.pascalName}', () => \x7b",
      s!"  it('renders with the {m.role} role', () => \x7b",
      s!"    render({m.pascalName}, \x7b props: {m.sampleObject} \x7d);",
      s!"    expect(screen.getByRole('{m.role}')).toBeInTheDocument();",
      "  \x7d);"] ++ m.clickCallbacks.flatMap (callbackTest m) ++ ["\x7d);"])⟩

/-- The story of a component. -/
def story (m : ComponentModel) : Option Artifact :=
  some ⟨s!"{folder m}/{m.pascalName}.stories.ts", Text.file [
    "import type \x7b Meta, StoryObj \x7d from '@storybook/svelte';",
    s!"import {m.pascalName} from './{m.pascalName}.svelte';",
    "",
    "const meta = \x7b",
    s!"  title: '{m.storyTitle}',",
    s!"  component: {m.pascalName},",
    s!"  args: {m.sampleObject},",
    s!"\x7d satisfies Meta<{m.pascalName}>;",
    "",
    "export default meta;",
    "type Story = StoryObj<typeof meta>;",
    "",
    "export const Default: Story = \x7b\x7d;"]⟩

/-- An example of using a component. -/
def usage (m : ComponentModel) : String :=
  Text.unlines [
    "<script lang=\"ts\">",
    s!"  import {m.pascalName} from '$lib/components/{m.category.name}/{m.pascalName}.svelte';",
    "</script>",
    "",
    ComponentModel.emptyElement m.pascalName m.attributes]

/-- The files for the tokens. -/
def tokenFiles (ts : FlatTokens) : List Artifact :=
  [⟨"src/lib/styles/tokens.css", Stylesheet.rootBlock ts⟩,
    ⟨"src/lib/tokens.ts", Script.tokenModule true ts⟩]

/-- The store that holds the theme. -/
def theme : Artifact :=
  ⟨"src/lib/theme.ts", Text.file [
    "import \x7b writable \x7d from 'svelte/store';",
    "import \x7b tokens \x7d from './tokens';",
    "import './styles/tokens.css';",
    "",
    "export type ColorScheme = 'light' | 'dark';",
    "",
    "export const theme = tokens;",
    "export const colorScheme = writable<ColorScheme>('light');",
    "",
    "export function applyColorScheme(scheme: ColorScheme): void \x7b",
    "  document.documentElement.dataset.theme = scheme;",
    "  colorScheme.set(scheme);",
    "\x7d"]⟩

/-- Advice on building for the platform. -/
def recommendations : Recommendations :=
  .withSnippets ["Button", "TextField", "Select", "Dialog", "Tabs", "Toast"]
    ["+layout.svelte shell", "Grid", "Sidebar layout"]
    [
      "<form method=\"POST\" use:enhance>",
      "  <TextField name=\"email\" label=\"Email\" />",
      "  <Button type=\"submit\">Save</Button>",
      "</form>"]
    [
      "<ul role=\"list\">",
      "  \x7b#each items as item (item.id)\x7d",
      "    <ListItem \x7b...item\x7d />",
      "  \x7b/each\x7d",
      "</ul>"]
    [
      "<main class=\"dashboard\">",
      "  <Sidebar />",
      "  \x7b#each cards as card (card.id)\x7d<StatCard \x7b...card\x7d />\x7b/each\x7d",
      "</main>"]

/-- The generator. -/
def generator : Generator where
  platform := .svelte
  conventions := ["kit", "vite"]
  componentPath m := s!"{folder m}/{m.pascalName}.svelte"
  source := source
  test := test
  story := story
  usage := usage
  tokenFiles := tokenFiles
  theme _ := theme
  utilities := [classHelper "src/lib/utils/cx.ts"]
  recommendations := recommendations

end DesignSystem.Svelte
