import DesignSystem.Generator.Basic
import DesignSystem.Generator.Call
import DesignSystem.Script.Props
import DesignSystem.Token.Constant

/-!
# Flutter

Stateless widgets with named parameters, and tokens as static constants.
-/

set_option autoImplicit false

namespace DesignSystem.Flutter

/-- The package that generated files import one another from. -/
def package : String := "design_system"

/-- Where a component stands in the package. -/
def location (m : ComponentModel) : String :=
  s!"components/{Text.snake m.category.name}/{m.snakeName}.dart"

/-- The default value of a prop as a constant expression, which a parameter needs. The call that
parses an address is none. -/
def constantDefault? (p : PropModel) : Option String :=
  p.default.bind fun value =>
    if Text.startsWith "Uri.parse(" value then none
    else if Text.startsWith "[" value then some s!"const {value}"
    else some value

/-- Whether a prop can be without a value. -/
def isNullable (p : PropModel) : Bool := !p.required && (constantDefault? p).isNone

/-! ## Constants of tokens -/

/-- The type of a constant. -/
def constantType : Token.Constant → String
  | .texts _ => "List<String>"
  | .flag _ => "bool"
  | .color _ => "Color"
  | .number _ | .length _ _ => "double"
  | .text _ => "String"

/-- The literal of a constant. -/
def constantLiteral : Token.Constant → String
  | .texts items => "[" ++ Text.join ", " (items.map Text.quotedSingle) ++ "]"
  | .flag b => if b then "true" else "false"
  | .color c => s!"Color(0x{c.hexDigits})"
  | .number x => x.numeral
  | .length points _ => points.numeral
  | .text s => Text.quotedSingle s

/-- What is assigned to the constant of a token. -/
def assigned (ts : FlatTokens) (t : FlatToken) : Assigned :=
  ts.assigned constantType constantLiteral t

/-- The declaration of a token's constant. -/
def constantLine (ts : FlatTokens) (t : FlatToken) : String :=
  s!"  static const {constantType t.constant} {t.ident} = {(assigned ts t).text};"

/-- The file that declares the constants. -/
def constants (ts : FlatTokens) : String :=
  Text.file (
    ["import 'package:flutter/widgets.dart';", "", "abstract final class AppTokens \x7b"] ++
    ts.map (constantLine ts) ++ ["\x7d"])

/-! ## Widgets -/

/-- The parameter for a prop. -/
def parameter (p : PropModel) : String :=
  if p.required then s!"required this.{p.ident},"
  else
    match constantDefault? p with
    | some value => s!"this.{p.ident} = {value},"
    | none => s!"this.{p.ident},"

/-- The field for a prop with what is said about the prop. -/
def fieldLines (p : PropModel) : List String :=
  let type := if isNullable p then p.optionalType else p.type
  (p.deprecated.map fun d => s!"@Deprecated({Text.quotedSingle d.reason})").toList ++
    (p.description.map ("/// " ++ ·)).toList ++ [s!"final {type} {p.ident};"]

/-- The widget for a content prop. -/
def contentWidget (p : PropModel) : String :=
  if isNullable p then s!"if ({p.ident} != null) {p.ident}!" else p.ident

/-- The widget for a text prop. -/
def textWidget (p : PropModel) : String :=
  if isNullable p then s!"if ({p.ident} != null) Text({p.ident}!)" else s!"Text({p.ident})"

/-- The widgets inside the widget of a component. -/
def innerWidgets (m : ComponentModel) : List String :=
  m.contentProps.map contentWidget ++ (m.valueProps.filter (·.type = "String")).map textWidget

/-- The inner widgets side by side. -/
def row (m : ComponentModel) : String :=
  let children := Text.join ", " (innerWidgets m)
  s!"Row(mainAxisSize: MainAxisSize.min, children: [{children}])"

/-- The argument that tells assistive technology the role. -/
def roleArgument : String → List String
  | "button" => ["button: true,"]
  | "link" => ["link: true,"]
  | "textbox" | "searchbox" => ["textField: true,"]
  | "img" => ["image: true,"]
  | "heading" => ["header: true,"]
  | _ => []

/-- The row, inside a region that can be tapped if the component can be activated. -/
def child (m : ComponentModel) : List String :=
  match m.activation? with
  | some p =>
    ["child: InkWell(",
      s!"  onTap: {p.ident},",
      "  child: Padding(",
      "    padding: const EdgeInsets.symmetric(horizontal: 16, vertical: 8),",
      s!"    child: {row m},",
      "  ),",
      "),"]
  | none => [s!"child: {row m},"]

/-- The arguments of the widget that holds everything. -/
def semantics (m : ComponentModel) : List String :=
  roleArgument m.role ++ (if m.liveRegion then ["liveRegion: true,"] else []) ++
    [s!"label: {Text.quotedSingle m.accessibleLabel},"] ++ child m

/-- The source of a component. -/
def source (m : ComponentModel) : String :=
  Text.file (["import 'package:flutter/material.dart';", ""] ++ m.declarationLines ++
    (m.description.map ("/// " ++ ·)).toList ++
    [s!"class {m.pascalName} extends StatelessWidget \x7b", s!"  const {m.pascalName}(\x7b",
      "    super.key,"] ++ m.props.map (fun p => "    " ++ parameter p) ++ ["  \x7d);", ""] ++
    (m.props.flatMap fieldLines).map ("  " ++ ·) ++
    ["", "  @override", "  Widget build(BuildContext context) \x7b", "    return Semantics("] ++
    (semantics m).map ("      " ++ ·) ++ ["    );", "  \x7d", "\x7d"])

/-! ## Calls -/

/-- A call as it is written. -/
def write (c : Call) : String := c.render ": "

/-- The call of a widget in tests. -/
def testCall (m : ComponentModel) (further : List Argument) : Call :=
  ⟨m.pascalName, m.requiredArguments ++ further⟩

/-- The argument that gives the callback for an activation a closure. -/
def closureArgument (m : ComponentModel) (closure : String) : List Argument :=
  (m.activation?.map fun p => ⟨p.ident, closure⟩).toList

/-- The call of a widget in examples. -/
def exampleCall (m : ComponentModel) : Call :=
  ⟨m.pascalName, m.shownArguments ++ closureArgument m "() \x7b\x7d"⟩

/-- The import of a component. -/
def importLine (m : ComponentModel) : String := s!"import 'package:{package}/{location m}';"

/-- The line of a test that shows a widget. -/
def pumpLine (c : Call) : String :=
  s!"    await tester.pumpWidget(MaterialApp(home: Scaffold(body: {write c})));"

/-- A test that the callback for an activation is called. -/
def activationTest (m : ComponentModel) : List String :=
  match m.activation? with
  | none => []
  | some p =>
    ["", s!"  testWidgets('{m.pascalName} calls {p.ident}', (tester) async \x7b",
      "    var calls = 0;",
      pumpLine (testCall m (closureArgument m "() => calls++")),
      s!"    await tester.tap(find.byType({m.pascalName}));",
      "    expect(calls, 1);",
      "  \x7d);"]

/-- The test of a component. -/
def test (m : ComponentModel) : Option Artifact :=
  some ⟨s!"test/components/{m.snakeName}_test.dart", Text.file (
    ["import 'package:flutter/material.dart';",
      "import 'package:flutter_test/flutter_test.dart';",
      importLine m,
      "",
      "void main() \x7b",
      s!"  testWidgets('{m.pascalName} renders', (tester) async \x7b",
      pumpLine (testCall m []),
      s!"    expect(find.byType({m.pascalName}), findsOneWidget);",
      "  \x7d);"] ++ activationTest m ++ ["\x7d"])⟩

/-- The story of a component. -/
def story (m : ComponentModel) : Option Artifact :=
  some ⟨s!"widgetbook/lib/{m.snakeName}.use_case.dart", Text.file [
    "import 'package:flutter/widgets.dart';",
    "import 'package:widgetbook_annotation/widgetbook_annotation.dart' as widgetbook;",
    importLine m,
    "",
    s!"@widgetbook.UseCase(name: 'Default', type: {m.pascalName})",
    s!"Widget build{m.pascalName}UseCase(BuildContext context) \x7b",
    s!"  return {write (testCall m [])};",
    "\x7d"]⟩

/-- An example of using a component. -/
def usage (m : ComponentModel) : String := Text.unlines [importLine m, "", write (exampleCall m)]

/-! ## Theme -/

/-- The color that the theme starts from. -/
def seedColor (ts : FlatTokens) : String :=
  match ts.primaryColor? with
  | some t => s!"AppTokens.{t.ident}"
  | none => "Colors.blue"

/-- The theme. -/
def theme (ts : FlatTokens) : Artifact :=
  let seed := s!"ColorScheme.fromSeed(seedColor: {seedColor ts}, brightness: brightness)"
  ⟨"lib/theme/app_theme.dart", Text.file [
    "import 'package:flutter/material.dart';",
    "",
    "import 'tokens.dart';",
    "",
    "abstract final class AppTheme \x7b",
    "  static ThemeData light() => _build(Brightness.light);",
    "",
    "  static ThemeData dark() => _build(Brightness.dark);",
    "",
    "  static ThemeData _build(Brightness brightness) \x7b",
    "    return ThemeData(",
    "      useMaterial3: true,",
    s!"      colorScheme: {seed},",
    "    );",
    "  \x7d",
    "\x7d"]⟩

/-- The sizes of screens. -/
def screenSizes : Artifact :=
  ⟨"lib/utils/responsive.dart", Text.file [
    "import 'package:flutter/widgets.dart';",
    "",
    "enum ScreenSize \x7b compact, medium, expanded \x7d",
    "",
    "extension ResponsiveContext on BuildContext \x7b",
    "  ScreenSize get screenSize \x7b",
    "    final width = MediaQuery.sizeOf(this).width;",
    "    if (width < 600) return ScreenSize.compact;",
    "    if (width < 840) return ScreenSize.medium;",
    "    return ScreenSize.expanded;",
    "  \x7d",
    "\x7d"]⟩

/-- Advice on building for the platform. -/
def recommendations : Recommendations :=
  .withSnippets
    ["FilledButton", "TextFormField", "DropdownMenu", "AlertDialog", "NavigationBar", "SnackBar"]
    ["Scaffold", "Column/Row", "LayoutBuilder breakpoints", "CustomScrollView"]
    [
      "Form(",
      "  key: _formKey,",
      "  child: Column(children: [",
      "    TextFormField(decoration: const InputDecoration(labelText: 'Email')),",
      "    FilledButton(onPressed: _submit, child: const Text('Save')),",
      "  ]),",
      ")"]
    [
      "ListView.builder(",
      "  itemCount: items.length,",
      "  itemBuilder: (context, index) => ListTile(title: Text(items[index].title)),",
      ")"]
    [
      "Scaffold(",
      "  body: Row(children: [",
      "    const NavigationRail(destinations: destinations, selectedIndex: 0),",
      "    Expanded(child: GridView.count(crossAxisCount: 2, children: cards)),",
      "  ]),",
      ")"]

/-- The generator. -/
def generator : Generator where
  platform := .flutter
  componentPath m := s!"lib/{location m}"
  source := source
  test := test
  story := story
  usage := usage
  tokenFiles ts := [⟨"lib/theme/tokens.dart", constants ts⟩]
  theme := theme
  utilities := [screenSizes]
  symbol := Token.identifier
  recommendations := recommendations

end DesignSystem.Flutter
