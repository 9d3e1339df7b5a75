import DesignSystem.Generator.Basic
import DesignSystem.Script.Props
import DesignSystem.Script.TokenObject
import DesignSystem.Script.Usage
import DesignSystem.Stylesheet.Component

/-!
# React

Function components with a stylesheet module.
-/

set_option autoImplicit false

namespace DesignSystem.React

/-- Where the files of a component go. -/
def folder (m : ComponentModel) : String :=
  s!"src/components/{m.category.name}/{m.pascalName}"

/-- The file extension of sources with elements. -/
def extension (m : ComponentModel) : String := if m.typed then "tsx" else "jsx"

/-- Whether a component has to be marked as running on the client: in the layout where components
are rendered on the server unless they say otherwise. -/
def needsClient (m : ComponentModel) : Bool :=
  !m.callbacks.isEmpty && m.options.convention = some "app-router"

/-- The imports of a component. -/
def imports (m : ComponentModel) : List String :=
  ["import React from 'react';"] ++
    (if m.localized then ["import \x7b useTranslation \x7d from 'react-i18next';"] else []) ++
    ["import \x7b cx \x7d from '../../../lib/cx';",
      s!"import styles from './{m.pascalName}.module.css';"] ++
    if m.typed then
      [s!"import type \x7b {m.pascalName}Props \x7d from './{m.pascalName}.types';"]
    else []

/-- What the parameter of a component binds. -/
def bindings (m : ComponentModel) : List String := m.props.map (·.binding) ++ ["className"]

/-- The first line of a component. -/
def signature (m : ComponentModel) : String :=
  let pattern := Text.join ", " (bindings m)
  let annotation := if m.typed then s!": {m.pascalName}Props" else ""
  s!"export function {m.pascalName}(\x7b {pattern} \x7d{annotation}) \x7b"

/-- The text in single quotes that stands for the accessible name until it is localized. Quotes in
it have a backslash. -/
def labelLiteral (label : String) : String := "'" ++ Text.replace "'" "\\'" label ++ "'"

/-- The value of the attribute for the accessible name. -/
def labelAttribute (m : ComponentModel) : String :=
  if m.localized then s!"\x7bt('{m.name}.a11y.label', {labelLiteral m.accessibleLabel})\x7d"
  else s!"\"{m.accessibleLabel}\""

/-- The expression for the class of the component. -/
def ownClass (m : ComponentModel) : String :=
  if Text.contains "-" m.kebabName then s!"styles['{m.kebabName}']" else s!"styles.{m.kebabName}"

/-- The expression for the class of a prop's value. -/
def choiceClass (m : ComponentModel) (p : PropModel) : String := s!"styles[{m.choiceTemplate p}]"

/-- The expressions for the classes that apply. -/
def classes (m : ComponentModel) : List String :=
  m.classExpressions (ownClass m) (choiceClass m) ++ ["className"]

/-- The attribute that a prop is bound to. -/
def boundAttribute? (p : PropModel) : Option String :=
  match p.documentEvent? with
  | some event => some s!"on{Text.pascal event}=\x7b{p.ident}\x7d"
  | none => if p.isNativeAttribute then some s!"{p.ident}=\x7b{p.ident}\x7d" else none

/-- The attributes of the element. -/
def attributes (m : ComponentModel) : List String :=
  (if m.element = "button" then ["type=\"button\""] else []) ++
    (if m.roleIsNative then [] else [s!"role=\"{m.role}\""]) ++
    (if m.needsTabIndex then ["tabIndex=\x7b0\x7d"] else []) ++
    (if m.liveRegion then ["aria-live=\"polite\""] else []) ++
    [s!"aria-label={labelAttribute m}",
      "className=\x7bcx(" ++ Text.join ", " (classes m) ++ ")\x7d"] ++
    m.props.filterMap boundAttribute? ++
    m.modifiers.map fun p => s!"data-{p.kebab}=\x7b{p.ident}\x7d"

/-- What stands in the element: content, then texts. -/
def content (m : ComponentModel) : List String :=
  (m.contentProps ++ m.textProps).map fun p => s!"\x7b{p.ident}\x7d"

/-- The source of a component. -/
def source (m : ComponentModel) : String :=
  Text.file (
    (if needsClient m then ["'use client';", ""] else []) ++ imports m ++ [""] ++
    (m.description.map fun d => s!"/** {d} */").toList ++ [signature m] ++
    (if m.localized then ["  const \x7b t \x7d = useTranslation();"] else []) ++
    ["", "  return (", s!"    <{m.element}"] ++ (attributes m).map ("      " ++ ·) ++ ["    >"] ++
    (content m).map ("      " ++ ·) ++
    [s!"    </{m.element}>", "  );", "\x7d", "", s!"export default {m.pascalName};"])

/-- The types of a component. -/
def types (m : ComponentModel) : Option Artifact :=
  let body := Text.unlines (m.propsInterface m.propsHeading m.props ["className?: string;"])
  let heading :=
    if Text.contains "React." body then "import type * as React from 'react';\n\n" else ""
  if m.typed then some ⟨s!"{folder m}/{m.pascalName}.types.ts", s!"{heading}{body}\n"⟩ else none

/-- The stylesheet module of a component. -/
def styles (m : ComponentModel) : Option Artifact :=
  some ⟨s!"{folder m}/{m.pascalName}.module.css", m.stylesheet⟩

/-- The element of an example. -/
def exampleElement (m : ComponentModel) : String :=
  ComponentModel.emptyElement m.pascalName m.attributes

/-- A test that a callback is called. -/
def callbackTest (m : ComponentModel) (p : PropModel) : List String :=
  let element := Text.replaceFirst " />" s!" {p.ident}=\x7bhandler\x7d />" (exampleElement m)
  ["", s!"  it('calls {p.ident} on click', async () => \x7b",
    "    const handler = vi.fn();",
    s!"    render({element});",
    s!"    await userEvent.click(screen.getByRole('{m.role}'));",
    "    expect(handler).toHaveBeenCalledOnce();",
    "  \x7d);"]

/-- The test of a component. -/
def test (m : ComponentModel) : Option Artifact :=
  some ⟨s!"{folder m}/{m.pascalName}.test.{extension m}", Text.file (
    ["import \x7b render, screen \x7d from '@testing-library/react';",
      "import userEvent from '@testing-library/user-event';",
      "import \x7b describe, expect, it, vi \x7d from 'vitest';",
      s!"import \x7b {m.pascalName} \x7d from './{m.pascalName}';",
      "",
      s!"describe('{m.pascalName}', () => \x7b",
      s!"  it('renders with the {m.role} role', () => \x7b",
      s!"    render({exampleElement m});",
      s!"    expect(screen.getByRole('{m.role}')).toBeInTheDocument();",
      "  \x7d);"] ++ m.clickCallbacks.flatMap (callbackTest m) ++ ["\x7d);"])⟩

/-- The story for a value of a prop. -/
def choiceStory (p : PropModel) (value : String) : List String :=
  ["", s!"export const {p.pascal}{Text.pascal value}: Story = " ++
    s!"\x7b args: \x7b {p.ident}: '{value}' \x7d \x7d;"]

/-- The stories for the values of the first prop that chooses a styling. -/
def choiceStories (m : ComponentModel) : List String :=
  match m.modifiers with
  | [] => []
  | p :: _ => p.choices.flatMap (choiceStory p)

/-- The stories of a component. -/
def story (m : ComponentModel) : Option Artifact :=
  some ⟨s!"{folder m}/{m.pascalName}.stories.{extension m}", Text.file (
    ["import type \x7b Meta, StoryObj \x7d from '@storybook/react';",
      s!"import \x7b {m.pascalName} \x7d from './{m.pascalName}';",
      "",
      "const meta = \x7b",
      s!"  title: '{m.storyTitle}',",
      s!"  component: {m.pascalName},",
      s!"  args: {m.sampleObject},",
      "  tags: ['autodocs'],",
      s!"\x7d satisfies Meta<typeof {m.pascalName}>;",
      "",
      "export default meta;",
      "type Story = StoryObj<typeof meta>;",
      "",
      "export const Default: Story = \x7b\x7d;"] ++ choiceStories m)⟩

/-- An example of using a component. -/
def usage (m : ComponentModel) : String :=
  let name := m.pascalName
  Text.unlines [
    s!"import \x7b {name} \x7d from '@/components/{m.category.name}/{name}/{name}';",
    "",
    exampleElement m]

/-- The files for the tokens. -/
def tokenFiles (ts : FlatTokens) : List Artifact :=
  [⟨"src/styles/tokens.css", Stylesheet.rootBlock ts⟩,
    ⟨"src/theme/tokens.ts", Script.tokenModule true ts⟩]

/-- The provider of the theme. -/
def theme : Artifact :=
  ⟨"src/theme/ThemeProvider.tsx", Text.file [
    "import React, \x7b createContext, useContext \x7d from 'react';",
    "import \x7b tokens, type Tokens \x7d from './tokens';",
    "import '../styles/tokens.css';",
    "",
    "const ThemeContext = createContext<Tokens>(tokens);",
    "",
    "export function ThemeProvider(\x7b children \x7d: \x7b children: React.ReactNode \x7d) \x7b",
    "  return <ThemeContext.Provider " ++
      "value=\x7btokens\x7d>\x7bchildren\x7d</ThemeContext.Provider>;",
    "\x7d",
    "",
    "export function useTheme(): Tokens \x7b",
    "  return useContext(ThemeContext);",
    "\x7d"]⟩

/-- Advice on building for the platform. -/
def recommendations : Recommendations :=
  .withSnippets ["Button", "Input", "Select", "Dialog", "Tabs", "Toast", "DataTable"]
    ["Stack", "Grid", "Sidebar layout", "Holy grail"]
    [
      "<form onSubmit=\x7bhandleSubmit(onSubmit)\x7d>",
      "  <Input label=\"Email\" \x7b...register('email')\x7d />",
      "  <Button type=\"submit\">Save</Button>",
      "</form>"]
    [
      "<ul role=\"list\">",
      "  \x7bitems.map((item) => (",
      "    <ListItem key=\x7bitem.id\x7d \x7b...item\x7d />",
      "  ))\x7d",
      "</ul>"]
    [
      "<main className=\x7bstyles.grid\x7d>",
      "  <Sidebar />",
      "  <section>\x7bcards.map((card) => <StatCard key=\x7bcard.id\x7d \x7b...card\x7d" ++
        " />)\x7d</section>",
      "</main>"]

/-- The generator. -/
def generator : Generator where
  platform := .react
  conventions := ["app-router", "pages-router"]
  componentPath m := s!"{folder m}/{m.pascalName}.{extension m}"
  source := source
  types := types
  styles := styles
  test := test
  story := story
  usage := usage
  tokenFiles := tokenFiles
  theme _ := theme
  utilities := [classHelper "src/lib/cx.ts"]
  recommendations := recommendations

end DesignSystem.React
