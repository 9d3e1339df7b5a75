import DesignSystem.Generator.Basic
import DesignSystem.Generator.Call
import DesignSystem.Script.Props
import DesignSystem.Token.Constant

/-!
# Compose

Composable functions, and tokens as the properties of an object.
-/

set_option autoImplicit false

namespace DesignSystem.Compose

/-- The package that everything is generated in. -/
def rootPackage : String := "com.example.designsystem"

/-- The package of a component. -/
def package (m : ComponentModel) : String :=
  s!"{rootPackage}.components.{Text.snake m.category.name}"

/-- The folders of a package. -/
def folders (package : String) : String := Text.replace "." "/" package

/-- Where the sources of a package go. -/
def sourceFolder (package : String) : String := s!"src/main/java/{folders package}"

/-- Import lines in ascending order, each once. -/
def importLines (names : List String) : List String :=
  ((names.mergeSort (· ≤ ·)).eraseDups).map ("import " ++ ·)

/-! ## Constants of tokens -/

/-- What has to be imported for the literal of a constant. Constants of one type need the same. -/
def constantImport? : Token.Constant → Option String
  | .color _ => some "androidx.compose.ui.graphics.Color"
  | .length _ scaled =>
    some (if scaled then "androidx.compose.ui.unit.sp" else "androidx.compose.ui.unit.dp")
  | _ => none

/-- The literal of a constant. -/
def constantLiteral : Token.Constant → String
  | .texts items => "listOf(" ++ Text.join ", " (items.map Text.quotedTemplate) ++ ")"
  | .flag b => if b then "true" else "false"
  | .color c => s!"Color(0x{c.hexDigits})"
  | .number x => s!"{x.numeral}f"
  | .length points scaled => points.numeral ++ if scaled then ".sp" else ".dp"
  | .text s => Text.quotedTemplate s

/-- Whether the value of a constant is known when the source is compiled. -/
def isCompileTime : Token.Constant → Bool
  | .flag _ | .text _ => true
  | _ => false

/-- What is assigned to the constant of a token. -/
def assigned (ts : FlatTokens) (t : FlatToken) : Assigned :=
  ts.assigned constantImport? constantLiteral t

/-- The declaration of a token's constant. -/
def constantLine (ts : FlatTokens) (t : FlatToken) : String :=
  let keyword := if isCompileTime t.constant then "const val" else "val"
  s!"    {keyword} {t.ident} = {(assigned ts t).text}"

/-- What has to be imported for the declaration of a token's constant. An alias needs nothing. -/
def neededImport? (ts : FlatTokens) (t : FlatToken) : Option String :=
  match assigned ts t with
  | .aliasOf _ => none
  | .literal _ => constantImport? t.constant

/-- The file that declares the constants. -/
def constants (ts : FlatTokens) : String :=
  let imports := importLines (ts.filterMap (neededImport? ts))
  Text.file ([s!"package {rootPackage}.theme", ""] ++ imports ++
    (if imports.isEmpty then [] else [""]) ++ ["object AppTokens \x7b"] ++
    ts.map (constantLine ts) ++ ["\x7d"])

/-- What a modifier sets. -/
inductive ModifierKind
  | background | padding | radius
  deriving DecidableEq

/-- The modifier that a token of a component is applied by, if its key and its value agree. -/
def modifierKind? (t : ComponentToken) : Option ModifierKind :=
  let kind := Token.ValueKind.ofText t.value
  match t.key, kind with
  | "background", .color _ | "bg", .color _ => some .background
  | "padding", .dimension _ _ => if kind.points?.isSome then some .padding else none
  | "radius", .dimension _ _ => if kind.points?.isSome then some .radius else none
  | _, _ => none

namespace ModifierKind

/-- A modifier that is given a constant. -/
def apply (constant : String) : ModifierKind → String
  | background => s!".background({constant})"
  | padding => s!".padding({constant})"
  | radius => s!".clip(RoundedCornerShape({constant}))"

/-- What has to be imported for a modifier. -/
def imports : ModifierKind → List String
  | background => ["androidx.compose.foundation.background"]
  | padding => ["androidx.compose.foundation.layout.padding"]
  | radius =>
    ["androidx.compose.foundation.shape.RoundedCornerShape", "androidx.compose.ui.draw.clip"]

end ModifierKind

/-- The modifiers for the tokens of a component, each with the token. -/
def tokenModifiers (m : ComponentModel) : List (ModifierKind × ComponentToken) :=
  m.tokens.filterMap fun t => (modifierKind? t).map fun kind => (kind, t)

/-! ## Functions -/

/-- The role in semantics. -/
def semanticsRole? : String → Option String
  | "button" => some "Role.Button"
  | "checkbox" => some "Role.Checkbox"
  | "switch" => some "Role.Switch"
  | "radio" => some "Role.RadioButton"
  | "tab" => some "Role.Tab"
  | "img" => some "Role.Image"
  | "combobox" | "listbox" => some "Role.DropdownList"
  | _ => none

/-- What is told to assistive technology. -/
def semantics (m : ComponentModel) : List String :=
  ((semanticsRole? m.role).map fun role => s!"role = {role}").toList ++
    [s!"contentDescription = {Text.quotedTemplate m.accessibleLabel}"] ++
    (if m.role = "heading" then ["heading()"] else []) ++
    if m.liveRegion then ["liveRegion = LiveRegionMode.Polite"] else []

/-- The modifier that calls the callback for an activation. -/
def clickable (p : PropModel) : String :=
  if p.isOptional then s!".clickable(enabled = {p.ident} != null) \x7b {p.ident}?.invoke() \x7d"
  else s!".clickable(onClick = {p.ident})"

/-- The modifiers of a component. One without a token for its padding gets some. -/
def modifierChain (m : ComponentModel) : List String :=
  let applied := tokenModifiers m
  [".semantics \x7b " ++ Text.join "; " (semantics m) ++ " \x7d"] ++
    (m.activation?.map clickable).toList ++
    applied.map (fun a => a.1.apply s!"AppTokens.{Token.identifier a.2.name}") ++
    if applied.any (·.1 = .padding) then []
    else [".padding(horizontal = 16.dp, vertical = 8.dp)"]

/-- The call for a content prop. -/
def contentCall (p : PropModel) : String :=
  if p.required then s!"{p.ident}()" else s!"{p.ident}?.invoke()"

/-- The props that are shown as text. -/
def shownTexts (m : ComponentModel) : List PropModel := m.valueProps.filter (·.type = "String")

/-- The call for a text prop. -/
def textCall (p : PropModel) : String :=
  if p.isOptional then s!"{p.ident}?.let \x7b Text(text = it) \x7d" else s!"Text(text = {p.ident})"

/-- What stands in the body of a component. -/
def body (m : ComponentModel) : List String :=
  m.contentProps.map contentCall ++ (shownTexts m).map textCall

/-- What every component imports. -/
def baseImports : List String := [
  "androidx.compose.foundation.layout.Arrangement",
  "androidx.compose.foundation.layout.Row",
  "androidx.compose.foundation.layout.padding",
  "androidx.compose.runtime.Composable",
  "androidx.compose.ui.Alignment",
  "androidx.compose.ui.Modifier",
  "androidx.compose.ui.semantics.contentDescription",
  "androidx.compose.ui.semantics.semantics",
  "androidx.compose.ui.tooling.preview.Preview",
  "androidx.compose.ui.unit.dp"]

/-- What a component imports. -/
def imports (m : ComponentModel) : List String :=
  baseImports ++
    (if (semanticsRole? m.role).isSome then
      ["androidx.compose.ui.semantics.Role", "androidx.compose.ui.semantics.role"] else []) ++
    (if m.role = "heading" then ["androidx.compose.ui.semantics.heading"] else []) ++
    (if m.liveRegion then
      ["androidx.compose.ui.semantics.LiveRegionMode", "androidx.compose.ui.semantics.liveRegion"]
      else []) ++
    (if m.activation?.isSome then ["androidx.compose.foundation.clickable"] else []) ++
    (tokenModifiers m).flatMap (·.1.imports) ++
    if (shownTexts m).isEmpty then [] else ["androidx.compose.material3.Text"]

/-- The parameter for a prop. One that can be left out without a default is null by default. -/
def parameter (p : PropModel) : String :=
  if p.required then s!"{p.ident}: {p.type},"
  else
    match p.default with
    | some value => s!"{p.ident}: {p.type} = {value},"
    | none => s!"{p.ident}: {p.optionalType} = null,"

/-- The parameters: required ones, the modifier, those that can be left out, and content. -/
def parameters (m : ComponentModel) : List String :=
  let plain := m.props.filter (!·.isContent)
  (plain.filter (·.required)).map parameter ++ ["modifier: Modifier = Modifier,"] ++
    (plain.filter (!·.required)).map parameter ++ m.contentProps.map parameter

/-- What is said about a prop. -/
def parameterNote? (p : PropModel) : Option String :=
  match p.deprecated with
  | some d => some s!"Deprecated since {d.since}: {d.reason}"
  | none => p.description

/-- The lines of the comment on a component that are about its parameters. -/
def parameterNotes (m : ComponentModel) : List String :=
  m.props.filterMap fun p => (parameterNote? p).map fun note => s!" * @param {p.ident} {note}"

/-- The comment on a component. -/
def comment (m : ComponentModel) : List String :=
  let own := (m.description.map (" * " ++ ·)).toList
  let notes := parameterNotes m
  let gap := if own.isEmpty || notes.isEmpty then [] else [" *"]
  if own.isEmpty && notes.isEmpty then [] else ["/**"] ++ own ++ gap ++ notes ++ [" */"]

/-- The links of a chain, the last one followed by a comma. -/
def closeChain : List String → List String
  | [] => []
  | [last] => [last ++ ","]
  | link :: next :: rest => link :: closeChain (next :: rest)

/-- A call as it is written. -/
def write (c : Call) : String := c.render " = "

/-- The argument that gives the callback for an activation a closure. -/
def closureArgument (m : ComponentModel) (closure : String) : List Argument :=
  (m.activation?.map fun p => ⟨p.ident, closure⟩).toList

/-- The call of a component in its preview. -/
def previewCall (m : ComponentModel) : Call := ⟨m.pascalName, m.shownArguments⟩

/-- The source of a component. -/
def source (m : ComponentModel) : String :=
  let name := m.pascalName
  Text.file ([s!"package {package m}", ""] ++ importLines (imports m) ++
    (if (tokenModifiers m).isEmpty then [] else [s!"import {rootPackage}.theme.AppTokens"]) ++
    [""] ++ m.declarationLines ++ comment m ++ ["@Composable", s!"fun {name}("] ++
    (parameters m).map ("    " ++ ·) ++ [") \x7b", "    Row(", "        modifier = modifier"] ++
    (closeChain (modifierChain m)).map ("            " ++ ·) ++
    ["        horizontalArrangement = Arrangement.spacedBy(8.dp),",
      "        verticalAlignment = Alignment.CenterVertically,",
      "    ) \x7b"] ++ (body m).map ("        " ++ ·) ++
    ["    \x7d", "\x7d", "", "@Preview", "@Composable", s!"private fun {name}Preview() \x7b",
      s!"    {write (previewCall m)}", "\x7d"])

/-! ## Tests and examples -/

/-- The call of a component in tests. -/
def testCall (m : ComponentModel) (further : List Argument) : Call :=
  ⟨m.pascalName, m.requiredArguments ++ further⟩

/-- The call of a component in examples. -/
def exampleCall (m : ComponentModel) : Call :=
  ⟨m.pascalName, m.shownArguments ++ closureArgument m "\x7b /* handle */ \x7d"⟩

/-- The callback whose call is tested: that for an activation, if it has no parameters. -/
def testedCallback? (m : ComponentModel) : Option PropModel :=
  m.activation?.filter (·.type = "() -> Unit")

/-- The package of the tests. -/
def testPackage : String := s!"{rootPackage}.components"

/-- What a test imports. -/
def testImports (m : ComponentModel) : List String :=
  let tested := (testedCallback? m).isSome
  ["androidx.compose.ui.test.assertIsDisplayed",
    "androidx.compose.ui.test.junit4.createComposeRule",
    "androidx.compose.ui.test.onNodeWithContentDescription"] ++
    (if tested then ["androidx.compose.ui.test.performClick"] else []) ++
    [s!"{package m}.{m.pascalName}"] ++
    (if tested then ["org.junit.Assert.assertTrue"] else []) ++
    ["org.junit.Rule", "org.junit.Test"]

/-- The line of a test that finds a component by what assistive technology is told. -/
def findLine (m : ComponentModel) (action : String) : String :=
  let label := Text.quotedTemplate m.accessibleLabel
  s!"        composeTestRule.onNodeWithContentDescription({label}).{action}()"

/-- The line of a test that shows a component. -/
def contentLine (c : Call) : String := s!"        composeTestRule.setContent \x7b {write c} \x7d"

/-- A test that the callback for an activation is called. -/
def activationTest (m : ComponentModel) : List String :=
  match testedCallback? m with
  | none => []
  | some p =>
    ["", "    @Test",
      s!"    fun invokes{p.pascal}() \x7b",
      "        var fired = false",
      contentLine (testCall m (closureArgument m "\x7b fired = true \x7d")),
      findLine m "performClick",
      "        assertTrue(fired)",
      "    \x7d"]

/-- The test of a component. -/
def test (m : ComponentModel) : Option Artifact :=
  let name := m.pascalName
  some ⟨s!"src/androidTest/java/{folders testPackage}/{name}Test.kt", Text.file (
    [s!"package {testPackage}", ""] ++ (testImports m).map ("import " ++ ·) ++
    ["",
      s!"class {name}Test \x7b",
      "    @get:Rule",
      "    val composeTestRule = createComposeRule()",
      "",
      "    @Test",
      "    fun rendersWithContentDescription() \x7b",
      contentLine (testCall m []),
      findLine m "assertIsDisplayed",
      "    \x7d"] ++ activationTest m ++ ["\x7d"])⟩

/-- An example of using a component. -/
def usage (m : ComponentModel) : String :=
  Text.unlines [s!"import {package m}.{m.pascalName}", "", write (exampleCall m)]

/-! ## Theme -/

/-- The color that the theme starts from: the last one named primary, or else the last one. -/
def primaryColor? (ts : FlatTokens) : Option FlatToken :=
  (ts.colors.filter fun t => Text.contains "primary" t.name).getLast? <|> ts.colors.getLast?

/-- The argument that sets the color that the theme starts from. -/
def primaryArgument (ts : FlatTokens) : String :=
  match primaryColor? ts with
  | some t => s!"primary = AppTokens.{t.ident}"
  | none => ""

/-- The theme. -/
def theme (ts : FlatTokens) : Artifact :=
  let primary := primaryArgument ts
  ⟨s!"{sourceFolder rootPackage}/theme/AppTheme.kt", Text.file [
    s!"package {rootPackage}.theme",
    "",
    "import androidx.compose.foundation.isSystemInDarkTheme",
    "import androidx.compose.material3.MaterialTheme",
    "import androidx.compose.material3.darkColorScheme",
    "import androidx.compose.material3.lightColorScheme",
    "import androidx.compose.runtime.Composable",
    "",
    "@Composable",
    "fun AppTheme(",
    "    darkTheme: Boolean = isSystemInDarkTheme(),",
    "    content: @Composable () -> Unit,",
    ") \x7b",
    "    val colors = if (darkTheme) \x7b",
    s!"        darkColorScheme({primary})",
    "    \x7d else \x7b",
    s!"        lightColorScheme({primary})",
    "    \x7d",
    "    MaterialTheme(colorScheme = colors, content = content)",
    "\x7d"]⟩

/-- A modifier that applies under a condition. -/
def conditionalModifier : Artifact :=
  ⟨s!"{sourceFolder rootPackage}/util/Modifiers.kt", Text.file [
    s!"package {rootPackage}.util",
    "",
    "import androidx.compose.ui.Modifier",
    "",
    "/** Apply `block` only when `condition` holds. */",
    "inline fun Modifier.thenIf(condition: Boolean, block: Modifier.() -> Modifier): Modifier =",
    "    if (condition) then(block(Modifier)) else this"]⟩

/-- Advice on building for the platform. -/
def recommendations : Recommendations :=
  .withSnippets
    ["Button", "OutlinedTextField", "ExposedDropdownMenuBox", "AlertDialog", "NavigationBar",
      "Snackbar"]
    ["Scaffold", "Column/Row", "LazyColumn", "ListDetailPaneScaffold"]
    [
      "Column(verticalArrangement = Arrangement.spacedBy(12.dp)) \x7b",
      "    OutlinedTextField(value = email, onValueChange = \x7b email = it \x7d, label" ++
        " = \x7b Text(\"Email\") \x7d)",
      "    Button(onClick = onSave) \x7b Text(\"Save\") \x7d",
      "\x7d"]
    [
      "LazyColumn \x7b",
      "    items(items, key = \x7b it.id \x7d) \x7b item -> ListItem(headlineContent = " ++
        "\x7b Text(item.title) \x7d) \x7d",
      "\x7d"]
    [
      "Scaffold(topBar = \x7b TopAppBar(title = \x7b Text(\"Dashboard\") \x7d) \x7d) " ++
        "\x7b padding ->",
      "    LazyVerticalGrid(columns = GridCells.Adaptive(160.dp), contentPadding = padding) \x7b",
      "        items(cards) \x7b StatCard(it) \x7d",
      "    \x7d",
      "\x7d"]

/-- The generator. -/
def generator : Generator where
  platform := .compose
  componentPath m := s!"{sourceFolder (package m)}/{m.pascalName}.kt"
  source := source
  test := test
  usage := usage
  tokenFiles ts := [⟨s!"{sourceFolder rootPackage}/theme/AppTokens.kt", constants ts⟩]
  theme := theme
  utilities := [conditionalModifier]
  symbol := Token.identifier
  recommendations := recommendations

end DesignSystem.Compose
