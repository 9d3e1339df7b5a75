import DesignSystem.Generator.Basic
import DesignSystem.Script.Props
import DesignSystem.Script.Usage
import DesignSystem.Stylesheet.Component
import DesignSystem.Token.Constant

/-!
# Angular

Components as classes with inputs and outputs, and tokens as Sass variables as well.
-/

set_option autoImplicit false

namespace DesignSystem.Angular

/-- Where the files of a component go. -/
def folder (m : ComponentModel) : String := s!"src/app/components/{m.kebabName}"

/-- Whether a component stands alone; it does unless a request asks for modules. -/
def isStandalone (m : ComponentModel) : Bool := m.options.convention ≠ some "module"

/-- The class of a component. -/
def className (m : ComponentModel) : String := s!"{m.pascalName}Component"

/-- The type that an output emits for a callback of a type: that of the only parameter, nothing if
there is none, and an array for several. -/
def emittedType (type : String) : String :=
  match (Text.dropFront? "(" type).bind (Text.cut? ") =>") with
  | none => "void"
  | some (front, _) =>
    let params := Text.trim front
    if params.isEmpty then "void"
    else
      match Text.cut? ": " params with
      | some (_, first) => if Text.contains ", " params then "unknown[]" else first
      | none => "unknown[]"

/-- The declaration of an input. -/
def input (p : PropModel) : String :=
  if p.required then s!"@Input(\x7b required: true \x7d) {p.ident}!: {p.type};"
  else
    match p.default with
    | some value => s!"@Input() {p.ident}: {p.type} = {value};"
    | none => s!"@Input() {p.ident}?: {p.type};"

/-- The comment on an input. -/
def inputComment (p : PropModel) : Option String :=
  match p.deprecated with
  | some d => some s!"/** @deprecated since {d.since}: {d.reason} */"
  | none => p.description.map fun d => s!"/** {d} */"

/-- The declaration of an output. -/
def output (p : PropModel) : String :=
  s!"@Output() readonly {p.ident} = new EventEmitter<{emittedType p.type}>();"

/-- The names that a component imports from the core package. -/
def coreImports (m : ComponentModel) : List String :=
  if m.callbacks.isEmpty then ["ChangeDetectionStrategy", "Component", "Input"]
  else ["ChangeDetectionStrategy", "Component", "EventEmitter", "Input", "Output"]

/-- The import of the module that localizes texts. -/
def localeImport : String := "import \x7b TranslateModule \x7d from '@ngx-translate/core';"

/-- The imports of a component. -/
def imports (m : ComponentModel) : List String :=
  ["import \x7b " ++ Text.join ", " (coreImports m) ++ " \x7d from '@angular/core';"] ++
    (if m.localized && isStandalone m then [localeImport] else []) ++
    ["import \x7b cx \x7d from '../../lib/class-names';"]

/-- The attribute for the accessible name. -/
def labelAttribute (m : ComponentModel) : String :=
  if m.localized then s!"[attr.aria-label]=\"'{m.name}.a11y.label' | translate\""
  else s!"aria-label=\"{m.accessibleLabel}\""

/-- The attribute that a prop is bound to. -/
def boundAttribute? (p : PropModel) : Option String :=
  match p.documentEvent? with
  | some event => some s!"({event})=\"{p.ident}.emit($event)\""
  | none => if p.isNativeAttribute then some s!"[attr.{p.kebab}]=\"{p.ident}\"" else none

/-- The attributes of the element. -/
def attributes (m : ComponentModel) : List String :=
  (if m.element = "button" then ["type=\"button\""] else []) ++
    (if m.roleIsNative then [] else [s!"role=\"{m.role}\""]) ++
    (if m.needsTabIndex then ["tabindex=\"0\""] else []) ++
    (if m.liveRegion then ["aria-live=\"polite\""] else []) ++
    [labelAttribute m, "[class]=\"classes\""] ++ m.props.filterMap boundAttribute? ++
    m.modifiers.map fun p => s!"[attr.data-{p.kebab}]=\"{p.ident}\""

/-- What stands in the element: content, texts, and what a user puts between the tags. -/
def content (m : ComponentModel) : List String :=
  m.contentProps.map (fun p => s!"<ng-content select=\"[{p.kebab}]\" />") ++
    m.textProps.map (fun p => s!"\x7b\x7b {p.ident} \x7d\x7d") ++ ["<ng-content />"]

/-- The settings that say whether a component stands alone. -/
def standaloneSettings (m : ComponentModel) : List String :=
  if isStandalone m then
    ["  standalone: true,"] ++ if m.localized then ["  imports: [TranslateModule],"] else []
  else ["  standalone: false,"]

/-- The decorator of a component. -/
def decorator (m : ComponentModel) : List String :=
  ["@Component(\x7b", s!"  selector: 'app-{m.kebabName}',"] ++ standaloneSettings m ++
    ["  template: `", s!"    <{m.element}"] ++ (attributes m).map ("      " ++ ·) ++ ["    >"] ++
    (content m).map ("      " ++ ·) ++
    [s!"    </{m.element}>", "  `,", s!"  styleUrl: './{m.kebabName}.component.scss',",
      "  changeDetection: ChangeDetectionStrategy.OnPush,", "\x7d)"]

/-- The inputs with their comments. -/
def inputs (m : ComponentModel) : List String :=
  m.valueProps.flatMap fun p => (inputComment p).toList ++ [input p]

/-- The outputs. -/
def outputs (m : ComponentModel) : List String := m.callbacks.map output

/-- The names that the list of classes uses: those of the props that choose a styling, and then
those that compound variants use besides, each once. -/
def usedNames (m : ComponentModel) : List String :=
  (m.compounds.flatMap (·.conditions)).foldl
    (fun used c => if c.prop ∈ used then used else used ++ [c.prop]) (m.modifiers.map (·.ident))

/-- The property that computes the list of classes. -/
def classesProperty (m : ComponentModel) : List String :=
  let names := Text.join ", " (usedNames m)
  ["", "  get classes(): string \x7b"] ++
    (if (usedNames m).isEmpty then [] else [s!"    const \x7b {names} \x7d = this;"]) ++
    [s!"    return {m.classList};", "  \x7d"]

/-- The source of a component. -/
def source (m : ComponentModel) : String :=
  Text.file (imports m ++ [""] ++ m.declarationLines ++ decorator m ++
    [s!"export class {className m} \x7b"] ++ (inputs m ++ outputs m).map ("  " ++ ·) ++
    classesProperty m ++ ["\x7d"])

/-- The stylesheet of a component. -/
def styles (m : ComponentModel) : Option Artifact :=
  some ⟨s!"{folder m}/{m.kebabName}.component.scss",
    Text.file ([":host \x7b", "  display: contents;", "\x7d", ""] ++ m.stylesheetLines)⟩

/-- The modules that a test imports. -/
def testImports (m : ComponentModel) : List String :=
  (if isStandalone m then [className m] else []) ++
    if m.localized then ["TranslateModule.forRoot()"] else []

/-- The lines of a test that give the required inputs their sample values. -/
def testInputs (m : ComponentModel) : List String :=
  ((m.valueProps.filter (·.required)).filterMap (·.argument?)).map fun a =>
    s!"    fixture.componentRef.setInput('{a.1}', {a.2});"

/-- A test that an output emits. -/
def outputTest (m : ComponentModel) (p : PropModel) : List String :=
  ["", s!"  it('emits {p.ident} on click', () => \x7b",
    "    const spy = jasmine.createSpy('handler');",
    s!"    fixture.componentInstance.{p.ident}.subscribe(spy);",
    s!"    fixture.nativeElement.querySelector('{m.element}').click();",
    "    expect(spy).toHaveBeenCalled();",
    "  \x7d);"]

/-- The test of a component. -/
def test (m : ComponentModel) : Option Artifact :=
  some ⟨s!"{folder m}/{m.kebabName}.component.spec.ts", Text.file (
    ["import \x7b ComponentFixture, TestBed \x7d from '@angular/core/testing';"] ++
    (if m.localized then [localeImport] else []) ++
    [s!"import \x7b {className m} \x7d from './{m.kebabName}.component';",
      "",
      s!"describe('{className m}', () => \x7b",
      s!"  let fixture: ComponentFixture<{className m}>;",
      "",
      "  beforeEach(async () => \x7b",
      "    await TestBed.configureTestingModule(\x7b"] ++
    (if isStandalone m then [] else [s!"      declarations: [{className m}],"]) ++
    ["      imports: [" ++ Text.join ", " (testImports m) ++ "],",
      "    \x7d).compileComponents();",
      s!"    fixture = TestBed.createComponent({className m});"] ++ testInputs m ++
    ["    fixture.detectChanges();",
      "  \x7d);",
      "",
      "  it('should create', () => \x7b",
      "    expect(fixture.componentInstance).toBeTruthy();",
      "  \x7d);"] ++ m.clickCallbacks.flatMap (outputTest m) ++ ["\x7d);"])⟩

/-- The story of a component. -/
def story (m : ComponentModel) : Option Artifact :=
  some ⟨s!"{folder m}/{m.kebabName}.component.stories.ts", Text.file [
    "import type \x7b Meta, StoryObj \x7d from '@storybook/angular';",
    s!"import \x7b {className m} \x7d from './{m.kebabName}.component';",
    "",
    s!"const meta: Meta<{className m}> = \x7b",
    s!"  title: '{m.storyTitle}',",
    s!"  component: {className m},",
    s!"  args: {m.sampleObject},",
    "\x7d;",
    "",
    "export default meta;",
    s!"type Story = StoryObj<{className m}>;",
    "",
    "export const Default: Story = \x7b\x7d;"]⟩

/-- The attribute that gives an input its sample value. -/
def exampleAttribute (a : String × String) : String :=
  let value := Text.replace "\"" "&quot;" a.2
  s!"[{a.1}]=\"{value}\""

/-- An example of using a component. -/
def usage (m : ComponentModel) : String :=
  let inputs := ((m.valueProps.filter (·.isShown)).filterMap (·.argument?)).map exampleAttribute
  let outputs := m.callbacks.map fun p => s!"({p.ident})=\"handle{p.pascal}($event)\""
  let attributes := Text.join " " (inputs ++ outputs)
  s!"<app-{m.kebabName} {attributes}></app-{m.kebabName}>"

/-! ## Tokens -/

/-- A character of a token name in a variable: Sass takes hyphens and underscores for the same, so
everything that is neither a letter nor a digit becomes a hyphen. -/
def variableChar (c : Char) : Char :=
  if Text.isPlainAlphanumeric c || 128 ≤ c.toNat then c else '-'

/-- The variable of a token name. A digit or a hyphen does not come first. -/
def sassVariable (name : String) : String :=
  let body := name.toList.map variableChar
  match body with
  | [] => "$"
  | c :: _ => (if c.isDigit || c == '-' then "$t-" else "$") ++ .ofList body

/-- The value that the variable of a token gets: the variable of the token that it refers to, or
its own value. -/
def variableValue (t : FlatToken) : Assigned :=
  match t.reference with
  | some target => .aliasOf (sassVariable target)
  | none => .literal t.value.render

/-- The declaration of a token's variable. -/
def variableLine (t : FlatToken) : String := s!"{sassVariable t.name}: {(variableValue t).text};"

/-- The tokens in the order in which their variables are declared: layer by layer. -/
def declarationOrder (ts : FlatTokens) : List FlatToken :=
  Token.Layer.all.flatMap fun layer => ts.ofLayer layer

/-- The file that declares the variables. -/
def variableFile (ts : FlatTokens) : String := Text.file ((declarationOrder ts).map variableLine)

/-- The files for the tokens. -/
def tokenFiles (ts : FlatTokens) : List Artifact :=
  [⟨"src/styles/_tokens.scss", variableFile ts⟩,
    ⟨"src/styles/tokens.css", Stylesheet.rootBlock ts⟩]

/-- The service for the theme. -/
def theme : Artifact :=
  ⟨"src/app/theme/theme.service.ts", Text.file [
    "import \x7b DOCUMENT \x7d from '@angular/common';",
    "import \x7b Injectable, inject \x7d from '@angular/core';",
    "",
    "export type ColorScheme = 'light' | 'dark';",
    "",
    "@Injectable(\x7b providedIn: 'root' \x7d)",
    "export class ThemeService \x7b",
    "  private readonly document = inject(DOCUMENT);",
    "",
    "  setScheme(scheme: ColorScheme): void \x7b",
    "    this.document.documentElement.dataset['theme'] = scheme;",
    "  \x7d",
    "",
    "  token(name: string): string \x7b",
    "    return getComputedStyle(this.document.documentElement)",
    "      .getPropertyValue(`--$\x7bname\x7d`)",
    "      .trim();",
    "  \x7d",
    "\x7d"]⟩

/-- Advice on building for the platform. -/
def recommendations : Recommendations :=
  .withSnippets
    ["mat-button", "mat-form-field", "mat-select", "mat-dialog", "mat-table", "mat-snack-bar"]
    ["mat-sidenav-container", "CSS grid host", "Flex layout"]
    [
      "<form [formGroup]=\"form\" (ngSubmit)=\"save()\">",
      "  <mat-form-field><input matInput formControlName=\"email\" /></mat-form-field>",
      "  <button mat-flat-button type=\"submit\">Save</button>",
      "</form>"]
    [
      "<ul role=\"list\">",
      "  @for (item of items; track item.id) \x7b",
      "    <app-list-item [item]=\"item\" />",
      "  \x7d",
      "</ul>"]
    [
      "<mat-sidenav-container>",
      "  <mat-sidenav mode=\"side\" opened><app-nav /></mat-sidenav>",
      "  <mat-sidenav-content><app-stat-grid [cards]=\"cards\" /></mat-sidenav-content>",
      "</mat-sidenav-container>"]

/-- The generator. -/
def generator : Generator where
  platform := .angular
  conventions := ["standalone", "module"]
  componentPath m := s!"{folder m}/{m.kebabName}.component.ts"
  source := source
  styles := styles
  test := test
  story := story
  usage := usage
  tokenFiles := tokenFiles
  theme _ := theme
  utilities := [classHelper "src/app/lib/class-names.ts"]
  symbol := sassVariable
  recommendations := recommendations

end DesignSystem.Angular
