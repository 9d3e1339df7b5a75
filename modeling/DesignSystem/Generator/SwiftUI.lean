import DesignSystem.Generator.Basic
import DesignSystem.Script.Props
import DesignSystem.Script.Usage
import DesignSystem.Token.Constant
import DesignSystem.Generator.Call

/-!
# SwiftUI

Views with their parameters as properties, and tokens as static constants.
-/

set_option autoImplicit false

namespace DesignSystem.SwiftUI

/-- The view of a component. -/
def viewName (m : ComponentModel) : String := s!"{m.pascalName}View"

/-- The declaration of the property for a prop. -/
def property (p : PropModel) : String :=
  if p.required then s!"let {p.ident}: {p.type}"
  else
    match p.default with
    | some value => s!"var {p.ident}: {p.type} = {value}"
    | none => s!"var {p.ident}: {p.optionalType} = nil"

/-- The property for a prop with what is said about the prop. -/
def propertyLines (p : PropModel) : List String :=
  (p.deprecated.map fun d =>
    s!"@available(*, deprecated, message: {Text.quotedDouble d.reason})").toList ++
  (p.description.map ("/// " ++ ·)).toList ++ [property p]

/-! ## Constants of tokens -/

/-- The type of a constant. -/
def constantType : Token.Constant → String
  | .texts _ => "[String]"
  | .flag _ => "Bool"
  | .color _ => "Color"
  | .number _ | .length _ _ => "CGFloat"
  | .text _ => "String"

/-- The literal of a constant. -/
def constantLiteral : Token.Constant → String
  | .texts items => "[" ++ Text.join ", " (items.map Text.quotedDouble) ++ "]"
  | .flag b => if b then "true" else "false"
  | .color c => s!"Color(argb: 0x{c.hexDigits})"
  | .number x => x.numeral
  | .length points _ => points.numeral
  | .text s => Text.quotedDouble s

/-- What is assigned to the constant of a token. -/
def assigned (ts : FlatTokens) (t : FlatToken) : Assigned :=
  ts.assigned constantType constantLiteral t

/-- The declaration of a token's constant. The type of an alias is that of its target. -/
def constantLine (ts : FlatTokens) (t : FlatToken) : String :=
  match assigned ts t with
  | .aliasOf target => s!"    public static let {t.ident} = {target}"
  | .literal value => s!"    public static let {t.ident}: {constantType t.constant} = {value}"

/-- The file that declares the constants. -/
def constants (ts : FlatTokens) : String :=
  Text.file (
    ["import SwiftUI", "", "public enum Tokens \x7b"] ++ ts.map (constantLine ts) ++ ["\x7d"])

/-- What a modifier sets. -/
inductive ModifierKind
  | background | foreground | padding | radius
  deriving DecidableEq

/-- The modifier that a token of a component is applied by, if its key and its value agree. -/
def modifierKind? (t : ComponentToken) : Option ModifierKind :=
  let kind := Token.ValueKind.ofText t.value
  match t.key, kind with
  | "background", .color _ | "bg", .color _ => some .background
  | "foreground", .color _ | "text", .color _ | "fg", .color _ => some .foreground
  | "padding", _ => if kind.points?.isSome then some .padding else none
  | "radius", _ => if kind.points?.isSome then some .radius else none
  | _, _ => none

/-- A modifier that is given a constant. -/
def ModifierKind.apply (constant : String) : ModifierKind → String
  | background => s!".background({constant})"
  | foreground => s!".foregroundStyle({constant})"
  | padding => s!".padding({constant})"
  | radius => s!".clipShape(RoundedRectangle(cornerRadius: {constant}))"

/-- The modifier for a token of a component. -/
def tokenModifier? (t : ComponentToken) : Option String :=
  (modifierKind? t).map (·.apply s!"Tokens.{Token.identifier t.name}")

/-! ## Views -/

/-- The view for a content prop. -/
def contentView (p : PropModel) : String :=
  if p.required then p.ident else s!"if let {p.ident} \x7b {p.ident} \x7d"

/-- The view for a text prop. -/
def textView (p : PropModel) : String :=
  if p.isOptional then s!"if let {p.ident} \x7b Text({p.ident}) \x7d" else s!"Text({p.ident})"

/-- The views inside the view of a component. -/
def innerViews (m : ComponentModel) : List String :=
  m.contentProps.map contentView ++ (m.valueProps.filter (·.type = "String")).map textView

/-- The call of the callback for an activation. It is called without arguments. -/
def activationCall (p : PropModel) : String :=
  if p.isOptional then s!"{p.ident}?()" else s!"{p.ident}()"

/-- The inner views side by side. -/
def row (m : ComponentModel) (margin : String) : List String :=
  ([s!"HStack(spacing: 8) \x7b"] ++ (innerViews m).map ("    " ++ ·) ++ ["\x7d"]).map (margin ++ ·)

/-- The row, inside a button if the component can be activated. -/
def layout (m : ComponentModel) : List String :=
  match m.activation? with
  | some p =>
    [s!"        Button(action: \x7b {activationCall p} \x7d) \x7b"] ++ row m "            " ++
      ["        \x7d"]
  | none => row m "        " ++ ["        .accessibilityElement(children: .combine)"]

/-- The trait that tells assistive technology the role. -/
def trait? (m : ComponentModel) : Option String :=
  match m.role with
  | "button" => if m.activation?.isNone then some ".isButton" else none
  | "link" => some ".isLink"
  | "heading" => some ".isHeader"
  | "img" => some ".isImage"
  | "searchbox" => some ".isSearchField"
  | _ => none

/-- The modifiers of a view: those for tokens, and those for assistive technology. -/
def modifiers (m : ComponentModel) : List String :=
  m.tokens.filterMap tokenModifier? ++
    [s!".accessibilityLabel(Text({Text.quotedDouble m.accessibleLabel}))"] ++
    ((trait? m).map fun t => s!".accessibilityAddTraits({t})").toList ++
    if m.liveRegion then [".accessibilityAddTraits(.updatesFrequently)"] else []

/-- A call as it is written. -/
def write (c : Call) : String := c.render ": "

/-- The call of a view in a preview and in examples. -/
def exampleCall (m : ComponentModel) : Call := ⟨viewName m, m.shownArguments⟩

/-- The source of a component. -/
def source (m : ComponentModel) : String :=
  Text.file (["import SwiftUI", ""] ++ m.declarationLines ++
    (m.description.map ("/// " ++ ·)).toList ++ [s!"struct {viewName m}: View \x7b"] ++
    (m.props.flatMap propertyLines).map ("    " ++ ·) ++ ["", "    var body: some View \x7b"] ++
    layout m ++ (modifiers m).map ("        " ++ ·) ++
    ["    \x7d", "\x7d", "", "#Preview \x7b", s!"    {write (exampleCall m)}", "\x7d"])

/-! ## Tests -/

/-- The call of a view in tests. -/
def testCall (m : ComponentModel) (further : List Argument) : Call :=
  ⟨viewName m, m.requiredArguments ++ further⟩

/-- A test that defaults are enumeration members as declared. -/
def defaultsTest (m : ComponentModel) : List String :=
  let members := m.props.filterMap fun p =>
    (p.default.filter (Text.startsWith ".")).map fun value => (p.ident, value)
  if members.isEmpty then []
  else
    ["", "    func testDefaults() \x7b", s!"        let view = {write (testCall m [])}"] ++
      members.map (fun d => s!"        XCTAssertEqual(view.{d.1}, {d.2})") ++ ["    \x7d"]

/-- A test that the callback for an activation is called. Only a callback without parameters is
tested. -/
def activationTest (m : ComponentModel) : List String :=
  match m.activation?.filter (·.type = "() -> Void") with
  | none => []
  | some p =>
    let call := testCall m [⟨p.ident, "\x7b fired = true \x7d"⟩]
    ["", s!"    func test{p.pascal}IsInvoked() \x7b",
      "        var fired = false",
      s!"        let view = {write call}",
      s!"        view.{activationCall p}",
      "        XCTAssertTrue(fired)",
      "    \x7d"]

/-- The test of a component. -/
def test (m : ComponentModel) : Option Artifact :=
  some ⟨s!"Tests/ComponentsTests/{viewName m}Tests.swift", Text.file (
    ["import SwiftUI",
      "import XCTest",
      "@testable import Components",
      "",
      s!"final class {viewName m}Tests: XCTestCase \x7b",
      "    func testBodyBuilds() \x7b",
      s!"        _ = {write (testCall m [])}.body",
      "    \x7d"] ++ defaultsTest m ++ activationTest m ++ ["\x7d"])⟩

/-! ## Theme -/

/-- The color that the theme starts from. -/
def primaryColor (ts : FlatTokens) : String :=
  match ts.primaryColor? with
  | some t => s!"Tokens.{t.ident}"
  | none => "Color.accentColor"

/-- The theme. -/
def theme (ts : FlatTokens) : Artifact :=
  let primary := primaryColor ts
  ⟨"Sources/Theme/Theme.swift", Text.file [
    "import SwiftUI",
    "",
    "public struct Theme \x7b",
    "    public var primary: Color",
    "",
    "    public init(primary: Color) \x7b",
    "        self.primary = primary",
    "    \x7d",
    "",
    s!"    public static let standard = Theme(primary: {primary})",
    "\x7d",
    "",
    "private struct ThemeKey: EnvironmentKey \x7b",
    "    static let defaultValue = Theme.standard",
    "\x7d",
    "",
    "public extension EnvironmentValues \x7b",
    "    var theme: Theme \x7b",
    "        get \x7b self[ThemeKey.self] \x7d",
    "        set \x7b self[ThemeKey.self] = newValue \x7d",
    "    \x7d",
    "\x7d"]⟩

/-- The ways to make a color from digits. -/
def colorExtension : Artifact :=
  ⟨"Sources/Utilities/Color+Hex.swift", Text.file [
    "import SwiftUI",
    "",
    "public extension Color \x7b",
    "    init(argb: UInt32) \x7b",
    "        self.init(",
    "            .sRGB,",
    "            red: Double((argb >> 16) & 0xFF) / 255,",
    "            green: Double((argb >> 8) & 0xFF) / 255,",
    "            blue: Double(argb & 0xFF) / 255,",
    "            opacity: Double((argb >> 24) & 0xFF) / 255",
    "        )",
    "    \x7d",
    "",
    "    init(hex: String) \x7b",
    "        let digits = hex.trimmingCharacters(in: CharacterSet.alphanumerics.inverted)",
    "        var value: UInt64 = 0",
    "        Scanner(string: digits).scanHexInt64(&value)",
    "        let argb: UInt32",
    "        switch digits.count \x7b",
    "        case 3:",
    "            let r = UInt32((value >> 8) & 0xF) * 17",
    "            let g = UInt32((value >> 4) & 0xF) * 17",
    "            let b = UInt32(value & 0xF) * 17",
    "            argb = 0xFF00_0000 | r << 16 | g << 8 | b",
    "        case 6:",
    "            argb = 0xFF00_0000 | UInt32(value)",
    "        case 8:",
    "            argb = UInt32(value >> 8) | UInt32(value & 0xFF) << 24",
    "        default:",
    "            argb = 0xFF00_0000",
    "        \x7d",
    "        self.init(argb: argb)",
    "    \x7d",
    "\x7d"]⟩

/-- Advice on building for the platform. -/
def recommendations : Recommendations :=
  .withSnippets
    ["Button", "TextField", "Picker", "Toggle", "NavigationStack", "List", "Sheet"]
    ["VStack/HStack", "Grid", "NavigationSplitView", "ScrollView with LazyVStack"]
    [
      "Form \x7b",
      "    TextField(\"Email\", text: $email)",
      "    Button(\"Save\", action: save)",
      "\x7d"]
    [
      "List(items) \x7b item in",
      "    Text(item.title)",
      "\x7d"]
    [
      "NavigationSplitView \x7b",
      "    SidebarView()",
      "\x7d detail: \x7b",
      "    LazyVGrid(columns: [GridItem(.adaptive(minimum: 160))]) \x7b",
      "        ForEach(cards) \x7b StatCardView(card: $0) \x7d",
      "    \x7d",
      "\x7d"]

/-- The generator. -/
def generator : Generator where
  platform := .swiftUI
  componentPath m := s!"Sources/Components/{Text.pascal m.category.name}/{m.pascalName}.swift"
  source := source
  test := test
  usage m := write (exampleCall m)
  tokenFiles ts := [⟨"Sources/Theme/Tokens.swift", constants ts⟩]
  theme := theme
  utilities := [colorExtension]
  symbol := Token.identifier
  recommendations := recommendations

end DesignSystem.SwiftUI
