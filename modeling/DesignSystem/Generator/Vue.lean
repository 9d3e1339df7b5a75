import DesignSystem.Generator.Basic
import DesignSystem.Script.Props
import DesignSystem.Script.TokenObject
import DesignSystem.Script.Usage
import DesignSystem.Stylesheet.Component

/-!
# Vue

Single-file components with a setup script.
-/

set_option autoImplicit false

namespace DesignSystem.Vue

/-- Where the files of a component go. -/
def folder (m : ComponentModel) : String := s!"src/components/{m.category.name}"

/-- The props that are declared: content comes in slots. -/
def declared (m : ComponentModel) : List PropModel := m.props.filter (!·.isContent)

/-- The imports of a component. -/
def imports (m : ComponentModel) : List String :=
  ["import \x7b computed \x7d from 'vue';"] ++
    (if !m.contentProps.isEmpty && m.typed then ["import type \x7b VNode \x7d from 'vue';"]
      else []) ++
    ["import \x7b cx \x7d from '../../lib/cx';"]

/-- The pattern that binds the props. -/
def pattern (m : ComponentModel) : String :=
  Text.join ", " ((declared m).map (·.binding))

/-- The declaration of the props. -/
def propsDeclaration (m : ComponentModel) : List String :=
  if m.typed then
    m.propsInterface m.propsHeading (declared m) [] ++
      ["", s!"const \x7b {pattern m} \x7d = defineProps<{m.pascalName}Props>();"]
  else
    let names := Text.join ", " ((declared m).map fun p => s!"'{p.ident}'")
    [s!"const \x7b {pattern m} \x7d = defineProps([{names}]);"]

/-- The declaration of the slots. -/
def slotsDeclaration (m : ComponentModel) : List String :=
  if !m.contentProps.isEmpty && m.typed then
    ["", "defineSlots<\x7b"] ++ m.contentProps.map (fun p => s!"  {p.ident}?: () => VNode[];") ++
      ["  default?: () => VNode[];", "\x7d>();"]
  else []

/-- The script of a component. -/
def script (m : ComponentModel) : List String :=
  let language := if m.typed then " lang=\"ts\"" else ""
  [s!"<script setup{language}>"] ++ imports m ++ [""] ++ propsDeclaration m ++ slotsDeclaration m ++
    ["", s!"const classes = computed(() => {m.classList});", "</script>"]

/-- The attribute for the accessible name. -/
def labelAttribute (m : ComponentModel) : String :=
  if m.localized then s!":aria-label=\"$t('{m.name}.a11y.label')\""
  else s!"aria-label=\"{m.accessibleLabel}\""

/-- The attribute that a prop is bound to. -/
def boundAttribute? (p : PropModel) : Option String :=
  match p.documentEvent? with
  | some event => some s!"@{event}=\"{p.ident}?.($event)\""
  | none => if p.isNativeAttribute then some s!":{p.kebab}=\"{p.ident}\"" else none

/-- The attributes of the element. -/
def attributes (m : ComponentModel) : List String :=
  (if m.element = "button" then ["type=\"button\""] else []) ++
    (if m.roleIsNative then [] else [s!"role=\"{m.role}\""]) ++
    (if m.needsTabIndex then ["tabindex=\"0\""] else []) ++
    (if m.liveRegion then ["aria-live=\"polite\""] else []) ++
    [labelAttribute m, ":class=\"classes\""] ++ m.props.filterMap boundAttribute? ++
    m.modifiers.map fun p => s!":data-{p.kebab}=\"{p.ident}\""

/-- The slot for what a user puts between the tags; the first text stands there by default. -/
def defaultSlot (m : ComponentModel) : String :=
  match m.textProps with
  | [] => "<slot />"
  | p :: _ => s!"<slot>\x7b\x7b {p.ident} \x7d\x7d</slot>"

/-- The slots in the element. -/
def slots (m : ComponentModel) : List String :=
  m.contentProps.map (fun p => s!"<slot name=\"{p.kebab}\" />") ++ [defaultSlot m]

/-- The template of a component. -/
def template (m : ComponentModel) : List String :=
  ["<template>", s!"  <{m.element}"] ++ (attributes m).map ("    " ++ ·) ++ ["  >"] ++
    (slots m).map ("    " ++ ·) ++ [s!"  </{m.element}>", "</template>"]

/-- The source of a component. -/
def source (m : ComponentModel) : String :=
  Text.file (script m ++ [""] ++ template m ++ ["", "<style scoped>"] ++ m.stylesheetLines ++
    ["</style>"])

/-- A test that a callback is called. -/
def callbackTest (m : ComponentModel) (mocks : String) (p : PropModel) : List String :=
  ["", s!"  it('calls {p.ident} on click', async () => \x7b",
    "    const handler = vi.fn();",
    s!"    const wrapper = mount({m.pascalName}, \x7b props: " ++
      s!"\x7b ...{m.sampleObject}, {p.ident}: handler \x7d{mocks} \x7d);",
    "    await wrapper.trigger('click');",
    "    expect(handler).toHaveBeenCalledOnce();",
    "  \x7d);"]

/-- The test of a component. -/
def test (m : ComponentModel) : Option Artifact :=
  let mocks :=
    if m.localized then ", global: \x7b mocks: \x7b $t: (key: string) => key \x7d \x7d" else ""
  some ⟨s!"{folder m}/{m.pascalName}.spec.ts", Text.file (
    ["import \x7b mount \x7d from '@vue/test-utils';",
      "import \x7b describe, expect, it, vi \x7d from 'vitest';",
      s!"import {m.pascalName} from './{m.pascalName}.vue';",
      "",
      s!"describe('{m.pascalName}', () => \x7b",
      s!"  it('renders a {m.element} element', () => \x7b",
      s!"    const wrapper = mount({m.pascalName}, \x7b props: {m.sampleObject}{mocks} \x7d);",
      s!"    expect(wrapper.find('{m.element}').exists()).toBe(true);",
      "  \x7d);"] ++ m.clickCallbacks.flatMap (callbackTest m mocks) ++ ["\x7d);"])⟩

/-- The story of a component. -/
def story (m : ComponentModel) : Option Artifact :=
  some ⟨s!"{folder m}/{m.pascalName}.stories.ts", Text.file [
    "import type \x7b Meta, StoryObj \x7d from '@storybook/vue3';",
    s!"import {m.pascalName} from './{m.pascalName}.vue';",
    "",
    "const meta = \x7b",
    s!"  title: '{m.storyTitle}',",
    s!"  component: {m.pascalName},",
    s!"  args: {m.sampleObject},",
    s!"\x7d satisfies Meta<typeof {m.pascalName}>;",
    "",
    "export default meta;",
    "type Story = StoryObj<typeof meta>;",
    "",
    "export const Default: Story = \x7b\x7d;"]⟩

/-- The attribute that gives a prop its sample value. -/
def exampleAttribute? (p : PropModel) : Option String :=
  p.sample.map fun sample =>
    match Text.unquoted? sample with
    | some inner => s!"{p.kebab}=\"{inner}\""
    | none => s!":{p.kebab}=\"{sample}\""

/-- An example of using a component. -/
def usage (m : ComponentModel) : String :=
  let attributes := Text.join " " ((m.props.filter (·.isShown)).filterMap exampleAttribute?)
  Text.unlines [
    "<script setup lang=\"ts\">",
    s!"import {m.pascalName} from '@/components/{m.category.name}/{m.pascalName}.vue';",
    "</script>",
    "",
    "<template>",
    s!"  <{m.pascalName} {attributes} />",
    "</template>"]

/-- The files for the tokens. -/
def tokenFiles (ts : FlatTokens) : List Artifact :=
  [⟨"src/styles/tokens.css", Stylesheet.rootBlock ts⟩,
    ⟨"src/theme/tokens.ts", Script.tokenModule true ts⟩]

/-- The plug-in that provides the theme. -/
def theme : Artifact :=
  ⟨"src/plugins/theme.ts", Text.file [
    "import type \x7b App, InjectionKey \x7d from 'vue';",
    "import \x7b tokens, type Tokens \x7d from '../theme/tokens';",
    "import '../styles/tokens.css';",
    "",
    "export const themeKey: InjectionKey<Tokens> = Symbol('theme');",
    "",
    "export const themePlugin = \x7b",
    "  install(app: App) \x7b",
    "    app.provide(themeKey, tokens);",
    "  \x7d,",
    "\x7d;"]⟩

/-- The function that components get the theme by. -/
def themeAccess : Artifact :=
  ⟨"src/composables/useTheme.ts", Text.file [
    "import \x7b inject \x7d from 'vue';",
    "import \x7b themeKey \x7d from '../plugins/theme';",
    "import \x7b tokens \x7d from '../theme/tokens';",
    "",
    "export function useTheme() \x7b",
    "  return inject(themeKey, tokens);",
    "\x7d"]⟩

/-- Advice on building for the platform. -/
def recommendations : Recommendations :=
  .withSnippets ["BaseButton", "BaseInput", "BaseSelect", "AppDialog", "AppTabs", "DataTable"]
    ["DefaultLayout with slots", "Grid", "Sidebar layout"]
    [
      "<form @submit.prevent=\"onSubmit\">",
      "  <BaseInput v-model=\"form.email\" label=\"Email\" />",
      "  <BaseButton type=\"submit\">Save</BaseButton>",
      "</form>"]
    [
      "<ul role=\"list\">",
      "  <ListItem v-for=\"item in items\" :key=\"item.id\" v-bind=\"item\" />",
      "</ul>"]
    [
      "<DefaultLayout>",
      "  <template #sidebar><AppSidebar /></template>",
      "  <StatCard v-for=\"card in cards\" :key=\"card.id\" v-bind=\"card\" />",
      "</DefaultLayout>"]

/-- The generator. -/
def generator : Generator where
  platform := .vue
  componentPath m := s!"{folder m}/{m.pascalName}.vue"
  source := source
  test := test
  story := story
  usage := usage
  tokenFiles := tokenFiles
  theme _ := theme
  utilities := [classHelper "src/lib/cx.ts", themeAccess]
  recommendations := recommendations

end DesignSystem.Vue
