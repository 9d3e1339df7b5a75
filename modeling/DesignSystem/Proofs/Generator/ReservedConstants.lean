import DesignSystem.Proofs.Generator.Constants
import DesignSystem.Proofs.Token.Identifier
import DesignSystem.Proofs.Types.Scope

/-!
# Constants that are reserved words

The type tables of native targets escape reserved words. Token files declare a constant under the
identifier of its token as it is, so a token whose name spells a reserved word makes a declaration
that the language does not read, and so does every alias of it.

* `Platform.declaration?`: the constant that a line of a token file declares.
* `filterMap_declaration?`: the lines of a token file declare one constant for each token.
* `constants_reserved`: a constant is a reserved word just if the name of its token spells one.
-/

set_option autoImplicit false

namespace DesignSystem

/-- The native targets: their languages, and what their constants are assigned. -/
inductive Platform.Native :
    Platform → NominalLanguage → (FlatTokens → FlatToken → Assigned) → Prop
  | swiftUI : Native .swiftUI Swift.language SwiftUI.assigned
  | compose : Native .compose Kotlin.language Compose.assigned
  | flutter : Native .flutter Dart.language Flutter.assigned

/-- The name of the constant that a line of a token file declares, and what is assigned to it. -/
def Platform.declaration? (p : Platform) (line : String) : Option (String × String) :=
  match p with
  | swiftUI => do
    let line ← Text.dropFront? "    public static let " line
    let (name, value) ← Text.cut? " = " line
    -- there may be a type behind the name
    pure (((Text.cut? ": " name).map (·.1)).getD name, value)
  | compose => do
    let line ← Text.dropFront? "    val " line <|> Text.dropFront? "    const val " line
    Text.cut? " = " line
  | flutter => do
    let line ← Text.dropFront? "  static const " line
    let (_, line) ← Text.cut? " " line
    let line ← Text.dropBack? ";" line
    Text.cut? " = " line
  | react | vue | angular | svelte | css | tailwind => none

variable {p : Platform} {l : NominalLanguage} {t : Token.Layers} {flat : FlatTokens}

/-! ## The lines of a token file -/

theorem FlatToken.notMem_ident (tok : FlatToken) {c : Char}
    (hc : Text.isPlainAlphanumeric c = false) (hne : c ≠ '_') : c ∉ tok.ident.toList := by
  intro hmem
  rcases Token.isIdentifier_identifier tok.name c hmem with hplain | heq
  · rw [hc] at hplain
    cases hplain
  · exact hne heq

/-- A declaration with a name in front of the equals sign, which may be followed by a type. -/
theorem SwiftUI.declaration?_line {name type value : String} (hname : ':' ∉ name.toList)
    (hdeclared : '=' ∉ (name ++ type).toList) (htype : type = "" ∨ ∃ s, type = ": " ++ s) :
    Platform.swiftUI.declaration? ("    public static let " ++ (name ++ type ++ " = " ++ value)) =
      some (name, value) := by
  have hcut : Text.cut? " = " (name ++ type ++ " = " ++ value) = some (name ++ type, value) :=
    Text.cut?_append (by decide) hdeclared value
  have hread : (((Text.cut? ": " (name ++ type)).map (·.1)).getD (name ++ type)) = name := by
    rcases htype with rfl | ⟨s, rfl⟩
    · rw [String.append_empty, Text.cut?_eq_none (by decide) hname]
      rfl
    · rw [← String.append_assoc, Text.cut?_append (by decide) hname]
      rfl
  simp only [Platform.declaration?, Text.dropFront?_append, Option.bind_eq_bind, Option.bind_some,
    hcut, hread]
  rfl

theorem SwiftUI.declaration?_constantLine (flat : FlatTokens) (tok : FlatToken) :
    Platform.swiftUI.declaration? (constantLine flat tok) =
      some (tok.ident, (assigned flat tok).text) := by
  have hcolon := tok.notMem_ident (c := ':') rfl (by decide)
  have hequals := tok.notMem_ident (c := '=') rfl (by decide)
  unfold constantLine
  cases assigned flat tok with
  | aliasOf target =>
    have hline : s!"    public static let {tok.ident} = {target}" =
        "    public static let " ++ (tok.ident ++ "" ++ " = " ++ target) := by
      simp only [String.append_assoc, String.empty_append]
      rfl
    dsimp only
    rw [hline]
    exact declaration?_line hcolon (by simpa using hequals) (.inl rfl)
  | literal value =>
    have htype : '=' ∉ (constantType tok.constant).toList := by
      generalize tok.constant = constant
      cases constant <;> simp [constantType]
    have hline : s!"    public static let {tok.ident}: {constantType tok.constant} = {value}" =
        "    public static let " ++
          (tok.ident ++ (": " ++ constantType tok.constant) ++ " = " ++ value) := by
      simp only [String.append_assoc]
      rfl
    dsimp only
    rw [hline]
    exact declaration?_line hcolon (by simp [hequals, htype]) (.inr ⟨_, rfl⟩)

theorem Compose.declaration?_line {keyword name : String}
    (hkeyword : keyword = "const val" ∨ keyword = "val") (hname : '=' ∉ name.toList)
    (value : String) : Platform.compose.declaration?
      ("    " ++ keyword ++ " " ++ (name ++ " = " ++ value)) = some (name, value) := by
  have hcut : Text.cut? " = " (name ++ " = " ++ value) = some (name, value) :=
    Text.cut?_append (by decide) hname value
  rcases hkeyword with rfl | rfl
  · have hnone : Text.dropFront? "    val " ("    const val " ++ (name ++ " = " ++ value)) = none := by
      rw [show "    val " = "    " ++ "val " by rfl,
        show "    const val " = "    " ++ "const val " by rfl, String.append_assoc]
      exact Text.dropFront?_append_of_ne (c := 'v') (d := 'c') rfl (by simp) (by decide)
    rw [show "    " ++ "const val" ++ " " = "    const val " by rfl]
    simp only [Platform.declaration?, hnone, Text.dropFront?_append]
    exact hcut
  · rw [show "    " ++ "val" ++ " " = "    val " by rfl]
    simp only [Platform.declaration?, Text.dropFront?_append]
    exact hcut

theorem Compose.declaration?_constantLine (flat : FlatTokens) (tok : FlatToken) :
    Platform.compose.declaration? (constantLine flat tok) =
      some (tok.ident, (assigned flat tok).text) := by
  have hkeyword : (if isCompileTime tok.constant then "const val" else "val") = "const val" ∨
      (if isCompileTime tok.constant then "const val" else "val") = "val" := by
    split <;> simp
  have hline := declaration?_line hkeyword (tok.notMem_ident (c := '=') rfl (by decide))
    (assigned flat tok).text
  rw [← hline]
  unfold constantLine
  simp only [String.append_assoc]
  rfl

theorem Flutter.declaration?_constantLine (flat : FlatTokens) (tok : FlatToken) :
    Platform.flutter.declaration? (constantLine flat tok) =
      some (tok.ident, (assigned flat tok).text) := by
  have hcut : Text.cut? " = " (tok.ident ++ " = " ++ (assigned flat tok).text) =
      some (tok.ident, (assigned flat tok).text) :=
    Text.cut?_append (by decide) (tok.notMem_ident (c := '=') rfl (by decide)) _
  have htype : ' ' ∉ (constantType tok.constant).toList := by
    generalize tok.constant = constant
    cases constant <;> simp [constantType]
  have hblank : ∀ rest, Text.cut? " " (constantType tok.constant ++ " " ++ rest) =
      some (constantType tok.constant, rest) :=
    Text.cut?_append (List.mem_singleton.2 rfl) htype
  have hline : constantLine flat tok = "  static const " ++ (constantType tok.constant ++ " " ++
      (tok.ident ++ " = " ++ (assigned flat tok).text ++ ";")) := by
    unfold constantLine
    simp only [String.append_assoc]
    rfl
  rw [hline]
  simp only [Platform.declaration?, Text.dropFront?_append, Option.bind_eq_bind, Option.bind_some,
    hblank, Text.dropBack?_append, hcut]

/-- Declarations are indented. -/
theorem Platform.declaration?_eq_none (p : Platform) {line : String}
    (h : line.toList.head? ≠ some ' ') : p.declaration? line = none := by
  have hnone : ∀ front : String, front.toList.head? = some ' ' →
      Text.dropFront? front line = none := fun _ hfront => Text.dropFront?_eq_none hfront h
  cases p with
  | swiftUI =>
    simp only [declaration?, hnone "    public static let " rfl]
    rfl
  | compose =>
    simp only [declaration?, hnone "    val " rfl, hnone "    const val " rfl]
    rfl
  | flutter =>
    simp only [declaration?, hnone "  static const " rfl]
    rfl
  | react | vue | angular | svelte | css | tailwind => rfl

/-- Lines that are not indented, indented lines that declare constants, and a brace. -/
theorem Platform.filterMap_lines (p : Platform) {head : List String} {line : FlatToken → String}
    {constant : FlatToken → String × String} (hhead : ∀ s ∈ head, s.toList.head? ≠ some ' ')
    (hline : ∀ tok, p.declaration? (line tok) = some (constant tok)) (flat : FlatTokens) :
    (head ++ flat.map line ++ ["\x7d"]).filterMap p.declaration? = flat.map constant := by
  have hnone : head.filterMap p.declaration? = [] :=
    List.filterMap_eq_nil_iff.2 fun s hs => p.declaration?_eq_none (hhead s hs)
  have hbrace : p.declaration? "\x7d" = none := p.declaration?_eq_none (by decide)
  have hlines : flat.filterMap (p.declaration? ∘ line) = flat.map constant := by
    rw [← List.filterMap_eq_map]
    exact List.filterMap_congr fun tok _ => hline tok
  rw [List.filterMap_append, List.filterMap_append, hnone, List.filterMap_map, hlines,
    List.filterMap_cons_none hbrace]
  simp

variable {assigned : FlatTokens → FlatToken → Assigned}

/-- A token file declares one constant for each token, in order. -/
theorem Platform.Native.filterMap_declaration? (hp : p.Native l assigned) (flat : FlatTokens) :
    ∃ path lines, p.generator.tokenFiles flat = [⟨path, Text.file lines⟩] ∧
      lines.filterMap p.declaration? = flat.map fun tok => (tok.ident, (assigned flat tok).text) := by
  cases hp with
  | swiftUI =>
    exact ⟨_, _, rfl, Platform.filterMap_lines _ (by decide)
      (SwiftUI.declaration?_constantLine flat) flat⟩
  | compose =>
    refine ⟨_, _, rfl, Platform.filterMap_lines _ ?_ (Compose.declaration?_constantLine flat) flat⟩
    refine List.forall_mem_append.2 ⟨List.forall_mem_append.2 ⟨List.forall_mem_append.2
      ⟨by decide, List.forall_mem_map.2 fun name _ => ?_⟩, ?_⟩, by decide⟩
    · rw [String.toList_append]
      exact (by decide : some 'i' ≠ some ' ')
    · split <;> decide
  | flutter =>
    exact ⟨_, _, rfl, Platform.filterMap_lines _ (by decide)
      (Flutter.declaration?_constantLine flat) flat⟩

/-! ## Reserved words -/

theorem Platform.Native.isLanguageWord (hp : p.Native l assigned) :
    ∀ word ∈ l.reserved, Token.IsLanguageWord word := by
  cases hp <;> decide +kernel

/-- The lines of a token file and the reserved words of its language. -/
structure Platform.Declares (p : Platform) (l : NominalLanguage)
    (assigned : FlatTokens → FlatToken → Assigned) (flat : FlatTokens) (lines : List String) :
    Prop where
  /-- Each token has a constant under its identifier. -/
  constants : lines.filterMap p.declaration? =
    flat.map fun tok => (tok.ident, (assigned flat tok).text)
  /-- An alias stands for another one of these constants. -/
  aliases : ∀ tok ∈ flat, ∀ name, tok.reference = some name →
    ∃ u ∈ flat, u.name = name ∧ assigned flat tok = .aliasOf u.ident
  /-- The constant is a reserved word just if the token's name spells it, and is not escaped. -/
  reserved : ∀ tok ∈ flat, ∀ word ∈ l.reserved, tok.ident = word ↔ Token.Spells tok.name word
  /-- So no constant is a reserved word just if no name spells one. -/
  avoided : (∀ d ∈ lines.filterMap p.declaration?, d.1 ∉ l.reserved) ↔
    ∀ tok ∈ flat, ∀ word ∈ l.reserved, ¬ Token.Spells tok.name word

/-- **The token file of a native target declares a reserved word just where the name of a token
spells one.** -/
theorem Platform.Native.constants_reserved (hp : p.Native l assigned) (h : t.resolve = .ok flat) :
    ∃ path lines, p.generator.tokenFiles flat = [⟨path, Text.file lines⟩] ∧
      p.Declares l assigned flat lines := by
  obtain ⟨path, lines, hfile, hconstants⟩ := hp.filterMap_declaration? flat
  have hreserved : ∀ tok ∈ flat, ∀ word ∈ l.reserved,
      tok.ident = word ↔ Token.Spells tok.name word := fun _ _ word hword =>
    Token.identifier_eq_iff (hp.isLanguageWord word hword)
  refine ⟨path, lines, hfile, hconstants, fun tok htok name href => ?_, hreserved, ?_⟩
  · obtain ⟨u, hu, -, hname, hassigned⟩ :
        ∃ u ∈ flat, flat.target? tok = some u ∧ u.name = name ∧
          assigned flat tok = .aliasOf u.ident := by
      cases hp <;> exact (aliases_of_resolve _ _ h).referring tok htok name href
    exact ⟨u, hu, hname, hassigned⟩
  · rw [hconstants, List.forall_mem_map]
    constructor
    · intro hnone tok htok word hword hspells
      have hident := (hreserved tok htok word hword).2 hspells
      exact hnone tok htok (show tok.ident ∈ _ from hident ▸ hword)
    · intro hnone tok htok hmem
      exact hnone tok htok tok.ident hmem ((hreserved tok htok _ hmem).1 rfl)

/-- No name of `gapTokens` is a reserved word of Swift. -/
theorem Platform.Native.constants_reserved_gapTokens : Token.gapLayers.resolve = .ok Token.gapTokens ∧
    ∃ path lines, SwiftUI.generator.tokenFiles Token.gapTokens = [⟨path, Text.file lines⟩] ∧
      ∀ d ∈ lines.filterMap Platform.swiftUI.declaration?, d.1 ∉ Swift.reserved := by
  have h : Token.gapLayers.resolve = .ok Token.gapTokens := by decide +kernel
  obtain ⟨path, lines, hfile, hdeclares⟩ := Native.swiftUI.constants_reserved h
  exact ⟨h, path, lines, hfile, hdeclares.avoided.2 (by decide +kernel)⟩

/-- A size that is called after a keyword, and a gap that refers to it. -/
def Token.classLayers : Layers where
  primitive := [("class", .leaf (.text "16px"))]
  semantic := [("gap", .leaf (.reference "class"))]

/-- The resolved tokens of `classLayers`. -/
def Token.classTokens : FlatTokens := [
  ⟨⟨.primitive, ["class"]⟩, "class", .text "16px", none⟩,
  ⟨⟨.semantic, ["gap"]⟩, "gap", .text "16px", some "class"⟩]

/-- In all native languages, the constant of the size is a reserved word. -/
theorem Platform.Native.constants_reserved_classTokens :
    Token.classLayers.resolve = .ok Token.classTokens ∧
    Token.checkSymbols Token.identifier Token.classTokens = .ok () ∧
    SwiftUI.generator.tokenFiles Token.classTokens = [⟨"Sources/Theme/Tokens.swift",
      "import SwiftUI\n\npublic enum Tokens \x7b\n    public static let class: CGFloat = 16\n" ++
        "    public static let gap = class\n\x7d\n"⟩] ∧
    Platform.swiftUI.declaration? "    public static let class: CGFloat = 16" =
      some ("class", "16") ∧
    Platform.swiftUI.declaration? "    public static let gap = class" = some ("gap", "class") ∧
    "class" ∈ Swift.language.reserved ∧ "class" ∈ Kotlin.language.reserved ∧
    "class" ∈ Dart.language.reserved := by
  decide +kernel

end DesignSystem
