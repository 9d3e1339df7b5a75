import DesignSystem.Generator.Basic
import DesignSystem.Script.Props
import DesignSystem.Script.TokenObject
import DesignSystem.Script.Usage
import DesignSystem.Stylesheet.ClassName

/-!
# Tailwind

Recipes that choose utility classes by the values of props, and a theme whose entries are the custom
properties of the tokens.
-/

set_option autoImplicit false

namespace DesignSystem.Tailwind

open Script (TokenObject)

/-- The utility classes for well-known values of well-known props. -/
def knownClasses : String → String → Option String
  | "size", "xs" => some "h-7 px-2 text-xs"
  | "size", "sm" => some "h-8 px-3 text-sm"
  | "size", "md" => some "h-10 px-4 text-base"
  | "size", "lg" => some "h-12 px-5 text-lg"
  | "size", "xl" => some "h-14 px-6 text-xl"
  | "variant", "primary" => some "bg-primary text-white hover:bg-primary/90"
  | "variant", "secondary" => some "bg-secondary text-white hover:bg-secondary/90"
  | "variant", "outline" => some "border border-current bg-transparent"
  | "variant", "ghost" => some "bg-transparent hover:bg-black/5"
  | "variant", "danger" => some "bg-red-600 text-white hover:bg-red-700"
  | _, _ => none

/-- The utility that sets what a token of a component is for, by the token's key. -/
def utilityForKey? : String → Option String
  | "background" | "bg" => some "bg"
  | "color" | "text" | "foreground" | "fg" => some "text"
  | "padding" => some "p"
  | "radius" | "border-radius" => some "rounded"
  | "gap" => some "gap"
  | "shadow" => some "shadow"
  | "border-color" => some "border"
  | _ => none

/-- The utility class for a token of a component. -/
def tokenClass? (t : ComponentToken) : Option String :=
  (utilityForKey? t.key).map fun utility => s!"{utility}-[{Stylesheet.use t.name}]"

/-! ## Recipes -/

/-- The name of a recipe. -/
def recipeName (m : ComponentModel) : String := s!"{m.camelName}Variants"

/-- The classes that always apply. -/
def baseClasses (m : ComponentModel) : List String :=
  ["inline-flex items-center gap-2"] ++ m.tokens.filterMap tokenClass? ++
    if m.focusable then ["focus-visible:outline-2 focus-visible:outline-offset-2"] else []

/-- The classes for a value of a prop. -/
def valueClasses (m : ComponentModel) (p : PropModel) (value : String) : String :=
  (knownClasses p.ident value).getD s!"{m.kebabName}-{p.kebab}-{value}"

/-- The entry of a recipe for a value of a prop. -/
def valueEntry (m : ComponentModel) (p : PropModel) (value : String) : String :=
  s!"      {TokenObject.key value}: '{valueClasses m p value}',"

/-- The entries of a recipe for a prop. -/
def propEntries (m : ComponentModel) (p : PropModel) : List String :=
  [s!"    {p.ident}: \x7b"] ++ p.choices.map (valueEntry m p) ++ ["    \x7d,"]

/-- The entry of a recipe for a compound variant. -/
def compoundEntry (c : CompoundModel) : String :=
  let fields := c.conditions.map (fun condition => s!"{condition.prop}: {condition.operand}") ++
    (c.className.map fun name => s!"class: '{name}'").toList
  "    \x7b " ++ Text.join ", " fields ++ " \x7d,"

/-- The recipe of a component. -/
def recipe (m : ComponentModel) : List String :=
  let base := Text.join " " (baseClasses m)
  let defaults := m.modifiers.filterMap fun p => p.default.map fun value => s!"{p.ident}: {value}"
  [s!"export const {recipeName m} = \x7b", s!"  base: '{base}',", "  variants: \x7b"] ++
    m.modifiers.flatMap (propEntries m) ++ ["  \x7d,", "  compoundVariants: ["] ++
    m.compounds.map compoundEntry ++
    ["  ],", "  defaultVariants: \x7b " ++ Text.join ", " defaults ++ " \x7d,", "\x7d as const;"]

/-- The names that the function for the classes binds. -/
def bindings (m : ComponentModel) : List String := m.modifiers.map (·.binding) ++ ["className"]

/-- The type of what the function for the classes is given. -/
def optionsType (m : ComponentModel) : String :=
  let names := m.modifiers.map (fun p => s!"'{p.ident}'") ++ ["'className'"]
  s!"Pick<{m.pascalName}Props, " ++ Text.join " | " names ++ ">"

/-- The expression for the classes of a prop's value. A prop that has no default may be missing. -/
def choiceClasses (m : ComponentModel) (p : PropModel) : String :=
  let entry := s!"{recipeName m}.variants.{p.ident}[{p.ident}]"
  match (m.modifiers.find? (·.ident = p.ident)).bind (·.default) with
  | some _ => entry
  | none => s!"{p.ident} && {entry}"

/-- The expressions for the classes that apply. -/
def classes (m : ComponentModel) : List String :=
  m.classExpressions s!"{recipeName m}.base" (choiceClasses m) ++ ["className"]

/-- The function for the classes. -/
def classFunction (m : ComponentModel) : List String :=
  let pattern := Text.join ", " (bindings m)
  [s!"export function {m.camelName}Classes(\x7b {pattern} \x7d: " ++
      s!"{m.pascalName}ClassOptions = \x7b\x7d): string \x7b",
    "  return cn("] ++ (classes m).map (fun part => s!"    {part},") ++ ["  );", "\x7d"]

/-- The source of a component. -/
def source (m : ComponentModel) : String :=
  Text.file (["import \x7b cn \x7d from '../lib/cn';", ""] ++
    m.propsInterface m.propsHeading m.props ["className?: string;"] ++ [""] ++ recipe m ++
    ["", s!"export type {m.pascalName}ClassOptions = {optionsType m};", ""] ++ classFunction m)

/-- An example of using a component. -/
def usage (m : ComponentModel) : String :=
  let name := m.camelName
  let fields := (m.modifiers.filterMap (·.argument?)).map fun a => s!"{a.1}: {a.2}"
  let arguments := Text.join ", " fields
  let markup := ComponentModel.emptyElement "button" m.attributes
  let styled := Text.replaceFirst "<button" "<button className=\x7bclassName\x7d" markup
  Text.unlines [
    s!"import \x7b {name}Classes \x7d from './components/{m.kebabName}';",
    "",
    s!"const className = {name}Classes(\x7b {arguments} \x7d);",
    s!"// {styled}"]

/-! ## Tokens -/

/-- The section of the theme that tokens of an outermost group belong to. -/
def section? : String → Option String
  | "color" | "colors" => some "colors"
  | "spacing" | "space" => some "spacing"
  | "radius" | "radii" | "rounded" => some "borderRadius"
  | "font" | "fonts" | "fontFamily" => some "fontFamily"
  | "fontSize" | "font-size" | "text" => some "fontSize"
  | "shadow" | "shadows" => some "boxShadow"
  | "breakpoint" | "breakpoints" | "screens" => some "screens"
  | _ => none

/-- An entry of the theme: the name of a token is given under a key of a section. -/
structure ThemeEntry where
  group : String
  key : String
  token : String
  deriving DecidableEq

/-- The entry for a token. Tokens of components have none, nor has one that stands in no group. -/
def ThemeEntry.ofToken? (t : FlatToken) : Option ThemeEntry :=
  match t.place.layer, t.place.path with
  | .component, _ => none
  | _, [] => none
  | _, [_] => none
  | _, outermost :: next :: rest =>
    (section? outermost).map fun group => ⟨group, Token.flatName (next :: rest), t.name⟩

/-- The entry as a line of its section. -/
def ThemeEntry.line (e : ThemeEntry) : String :=
  s!"        {TokenObject.key e.key}: {Text.quotedSingle (Stylesheet.use e.token)},"

/-- The entries of the theme by sections, in the order in which each first came. -/
def themeSections (ts : FlatTokens) : Entries (List ThemeEntry) :=
  (ts.filterMap ThemeEntry.ofToken?).foldl (fun groups e =>
    groups.insert e.group (((groups.get? e.group).getD []) ++ [e])) []

/-- A section as lines. -/
def sectionLines (s : String × List ThemeEntry) : List String :=
  [s!"      {s.1}: \x7b"] ++ s.2.map (·.line) ++ ["      \x7d,"]

/-- The configuration, which extends the theme by the tokens. -/
def configuration (ts : FlatTokens) : String :=
  Text.file (
    ["import type \x7b Config \x7d from 'tailwindcss';",
      "",
      "export default \x7b",
      "  content: ['./src/**/*.\x7bts,tsx,html\x7d'],",
      "  theme: \x7b",
      "    extend: \x7b"] ++ (themeSections ts).flatMap sectionLines ++
    ["    \x7d,", "  \x7d,", "\x7d satisfies Config;"])

/-- The files for the tokens. -/
def tokenFiles (ts : FlatTokens) : List Artifact :=
  [⟨"tailwind.config.ts", configuration ts⟩, ⟨"src/styles/tokens.css", Stylesheet.rootBlock ts⟩]

/-- The stylesheet that all pages share. -/
def theme : Artifact :=
  ⟨"src/styles/globals.css", Text.file [
    "@import './tokens.css';",
    "",
    "@tailwind base;",
    "@tailwind components;",
    "@tailwind utilities;",
    "",
    "@layer base \x7b",
    "  :root \x7b",
    "    color-scheme: light dark;",
    "  \x7d",
    "",
    "  [data-theme='dark'] \x7b",
    "    color-scheme: dark;",
    "  \x7d",
    "\x7d"]⟩

/-- The helper that joins classes and settles conflicts between them. -/
def classHelper : Artifact :=
  ⟨"src/lib/cn.ts", Text.file [
    "import \x7b clsx, type ClassValue \x7d from 'clsx';",
    "import \x7b twMerge \x7d from 'tailwind-merge';",
    "",
    "export function cn(...inputs: ClassValue[]): string \x7b",
    "  return twMerge(clsx(inputs));",
    "\x7d"]⟩

/-- Advice on building for the platform. -/
def recommendations : Recommendations :=
  .withSnippets ["Button", "Input", "Card", "Badge", "Dialog", "Dropdown"]
    ["Container", "Flex stack", "Responsive grid"]
    [
      "<form class=\"flex flex-col gap-4\">",
      "  <input class=\"h-10 rounded-md border px-3\" name=\"email\" />",
      "  <button class=\"h-10 px-4 bg-primary text-white\" type=\"submit\">Save</button>",
      "</form>"]
    [
      "<ul class=\"divide-y rounded-md border\" role=\"list\">",
      "  <li class=\"p-4\">First</li>",
      "  <li class=\"p-4\">Second</li>",
      "</ul>"]
    [
      "<main class=\"grid gap-6 md:grid-cols-[16rem_1fr]\">",
      "  <nav class=\"border-r p-4\"></nav>",
      "  <section class=\"grid gap-4 sm:grid-cols-2 lg:grid-cols-3\"></section>",
      "</main>"]

/-- The generator. -/
def generator : Generator where
  platform := .tailwind
  componentPath m := s!"src/components/{m.kebabName}.ts"
  source := source
  usage := usage
  tokenFiles := tokenFiles
  theme _ := theme
  utilities := [classHelper]
  recommendations := recommendations

end DesignSystem.Tailwind
