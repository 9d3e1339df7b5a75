import DesignSystem.Proofs.Generator.ActivationCall
import DesignSystem.Proofs.Generator.ReservedConstants
import DesignSystem.Proofs.Token.Kinds

/-!
# Modifiers that are given constants

SwiftUI and Compose apply tokens of a component in modifiers, which they are chosen for by the texts
of their values. What a modifier is given is the constant of the token, whose type depends on the
value itself.

* `SwiftUI.declaredType?`, `Compose.literalType?`: the type of a constant, from its declaration.
* `FlatTokens.HasType`: the type of a token's constant, along aliases. `hasType_iff` has it for
  resolved lists.
* `Token.modifiers_agree`: a modifier is given a constant of the type that it takes just if the
  value is no list and, in Compose, no length in scaled pixels. `Token.modifiers_agree_misfits` has
  tokens of these kinds.
-/

set_option autoImplicit false

namespace DesignSystem

/-! ## Types of constants -/

/-- The type that a line of a SwiftUI token file declares a constant with. -/
def SwiftUI.declaredType? (line : String) : Option String := do
  let line ← Text.dropFront? "    public static let " line
  let (name, _) ← Text.cut? " = " line
  (Text.cut? ": " name).map (·.2)

/-- The type of a literal in a Compose token file: numbers show it at the end, and other literals at
the start. -/
def Compose.literalType? (literal : String) : Option String :=
  if Text.endsWith ".dp" literal then some "Dp"
  else if Text.endsWith ".sp" literal then some "TextUnit"
  else if Text.endsWith "f" literal then some "Float"
  else if Text.startsWith "Color(" literal then some "Color"
  else if Text.startsWith "listOf(" literal then some "List<String>"
  else if Text.startsWith "\"" literal then some "String"
  else if literal = "true" ∨ literal = "false" then some "Boolean"
  else none

/-- The constant of a token has a type: that of its literal, or that of the constant that it is an
alias of. -/
inductive FlatTokens.HasType (flat : FlatTokens) (assigned : FlatToken → Assigned)
    (literalType? : FlatToken → Option String) : FlatToken → String → Prop
  | literal {tok : FlatToken} {text type : String} : assigned tok = .literal text →
      literalType? tok = some type → HasType flat assigned literalType? tok type
  | aliasOf {tok u : FlatToken} {type : String} : assigned tok = .aliasOf u.ident →
      flat.target? tok = some u → HasType flat assigned literalType? u type →
      HasType flat assigned literalType? tok type

/-- The constant of a token has a type in the SwiftUI token file. -/
def SwiftUI.HasType (flat : FlatTokens) : FlatToken → String → Prop :=
  flat.HasType (assigned flat) fun tok => declaredType? (constantLine flat tok)

/-- The constant of a token has a type in the Compose token file. -/
def Compose.HasType (flat : FlatTokens) : FlatToken → String → Prop :=
  flat.HasType (assigned flat) fun tok => literalType? (assigned flat tok).text

variable {t : Token.Layers} {flat : FlatTokens} {tok : FlatToken} {type : String}

section
variable {α : Type} [DecidableEq α] {typeOf : Token.Constant → α}
  {literal : Token.Constant → String} {literalType? : FlatToken → Option String}
  {name : Token.Constant → String}

/-- In a resolved list the constant of a token has the type of its value, if literals have. -/
theorem FlatTokens.hasType_iff (h : t.resolve = .ok flat)
    (hliteral : ∀ tok text, flat.assigned typeOf literal tok = .literal text →
      literalType? tok = some (name tok.constant)) (htok : tok ∈ flat) :
    flat.HasType (flat.assigned typeOf literal) literalType? tok type ↔
      type = name tok.constant := by
  constructor
  · intro htype
    induction htype with
    | literal hassigned hfound =>
      rw [hliteral _ _ hassigned] at hfound
      exact (Option.some.inj hfound).symm
    | aliasOf _ hu _ ih =>
      obtain ⟨hmem, hconstant⟩ := target?_of_resolve h htok hu
      rw [ih hmem, hconstant]
  · rintro rfl
    obtain ⟨n, -, last, -, hlast, hassigned⟩ := (aliases_of_resolve typeOf literal h).ends tok htok
    -- along the references to the end
    generalize literal tok.constant = text at hassigned
    induction n generalizing tok with
    | zero =>
      cases hlast
      exact .literal hassigned (hliteral _ _ hassigned)
    | succ n ih =>
      obtain ⟨u, hu, hlast⟩ := Option.bind_eq_some_iff.1 hlast
      obtain ⟨hmem, hconstant⟩ := target?_of_resolve h htok hu
      rw [← hconstant]
      exact .aliasOf (assigned_of_target typeOf literal h htok hu) hu (ih hmem hlast)

end

/-! ## SwiftUI -/

theorem SwiftUI.declaredType?_constantLine {text : String}
    (h : assigned flat tok = .literal text) :
    declaredType? (constantLine flat tok) = some (constantType tok.constant) := by
  have hcolon := tok.notMem_ident (c := ':') rfl (by decide)
  have hequals := tok.notMem_ident (c := '=') rfl (by decide)
  have htype : '=' ∉ (constantType tok.constant).toList := by
    generalize tok.constant = constant
    cases constant <;> simp [constantType]
  have hline : constantLine flat tok = "    public static let " ++
      (tok.ident ++ (": " ++ constantType tok.constant) ++ " = " ++ text) := by
    unfold constantLine
    rw [h]
    simp only [String.append_assoc]
    rfl
  have hcut : Text.cut? " = " (tok.ident ++ (": " ++ constantType tok.constant) ++ " = " ++ text) =
      some (tok.ident ++ (": " ++ constantType tok.constant), text) :=
    Text.cut?_append (c := '=') (by decide) (by simp [hequals, htype]) text
  have hcut' : Text.cut? ": " (tok.ident ++ (": " ++ constantType tok.constant)) =
      some (tok.ident, constantType tok.constant) := by
    rw [← String.append_assoc]
    exact Text.cut?_append (by decide) hcolon _
  rw [hline]
  simp only [declaredType?, Text.dropFront?_append, Option.bind_eq_bind, Option.bind_some, hcut,
    hcut', Option.map_some]

theorem SwiftUI.hasType_iff (h : t.resolve = .ok flat) (htok : tok ∈ flat) :
    HasType flat tok type ↔ type = constantType tok.constant :=
  FlatTokens.hasType_iff h (fun _ _ => declaredType?_constantLine) htok

/-- The type that a modifier takes. -/
def SwiftUI.ModifierKind.takes : ModifierKind → String
  | background | foreground => "Color"
  | padding | radius => "CGFloat"

theorem SwiftUI.modifierKind?_inversion {ct : ComponentToken} {kind : ModifierKind}
    (h : modifierKind? ct = some kind) :
    (kind.takes = "Color" ∧ ∃ c, Token.ValueKind.ofText ct.value = .color c) ∨
      (kind.takes = "CGFloat" ∧ (Token.ValueKind.ofText ct.value).points?.isSome) := by
  unfold modifierKind? at h
  dsimp only at h
  split at h
  -- two names of the background, and three of the foreground
  iterate 5
    · next c _ hc =>
      cases h
      exact .inl ⟨rfl, c, hc⟩
  iterate 2
    · split at h
      · next hpoints =>
        cases h
        exact .inr ⟨rfl, hpoints⟩
      · cases h
  · cases h

/-! ## Compose -/

/-- The type of the literal of a constant. -/
def Compose.constantType : Token.Constant → String
  | .texts _ => "List<String>"
  | .flag _ => "Boolean"
  | .color _ => "Color"
  | .number _ => "Float"
  | .length _ scaled => if scaled then "TextUnit" else "Dp"
  | .text _ => "String"

/-- A literal that does not end like a number has the type that it starts like. -/
theorem Compose.literalType?_of_last {literal : String} {c : Char}
    (hlast : literal.toList.getLast? = some c) (hc : c ≠ 'p' ∧ c ≠ 'f') :
    literalType? literal =
      if Text.startsWith "Color(" literal then some "Color"
      else if Text.startsWith "listOf(" literal then some "List<String>"
      else if Text.startsWith "\"" literal then some "String"
      else if literal = "true" ∨ literal = "false" then some "Boolean"
      else none := by
  unfold literalType?
  rw [Text.endsWith_of_ne ".dp" rfl hlast hc.1.symm,
    Text.endsWith_of_ne ".sp" rfl hlast hc.1.symm,
    Text.endsWith_of_ne "f" rfl hlast hc.2.symm]
  rfl

theorem Compose.literalType?_constantLiteral (constant : Token.Constant) :
    literalType? (constantLiteral constant) = some (constantType constant) := by
  cases constant with
  | texts items =>
    have hlast : (constantLiteral (.texts items)).toList.getLast? = some ')' := by
      rw [constantLiteral, String.toList_append]
      exact List.getLast?_concat
    have hcolor : Text.startsWith "Color(" (constantLiteral (.texts items)) = false :=
      Text.startsWith_of_head?_ne (c := 'C') rfl (by simp [constantLiteral])
    have hlist : Text.startsWith "listOf(" (constantLiteral (.texts items)) = true := by
      rw [constantLiteral, String.append_assoc]
      exact Text.startsWith_append _ _
    rw [literalType?_of_last hlast (by decide), hcolor, hlist]
    rfl
  | flag b => cases b <;> decide
  | color c =>
    have hlast : (constantLiteral (.color c)).toList.getLast? = some ')' := by
      rw [constantLiteral, String.toList_append]
      exact List.getLast?_concat
    have hcolor : Text.startsWith "Color(" (constantLiteral (.color c)) = true := by
      have htext : constantLiteral (.color c) = "Color(" ++ ("0x" ++ c.hexDigits ++ ")") := by
        rw [← String.toList_inj]
        simp [constantLiteral, toString]
      rw [htext]
      exact Text.startsWith_append _ _
    rw [literalType?_of_last hlast (by decide), hcolor]
    rfl
  | number x =>
    have htext : constantLiteral (.number x) = x.numeral ++ "f" := rfl
    have hlast : (x.numeral ++ "f").toList.getLast? = some 'f' := by simp
    unfold literalType?
    rw [htext, Text.endsWith_of_ne ".dp" rfl hlast (by decide),
      Text.endsWith_of_ne ".sp" rfl hlast (by decide), Text.endsWith_append]
    rfl
  | length points scaled =>
    unfold literalType?
    cases scaled with
    | false =>
      have htext : constantLiteral (.length points false) = points.numeral ++ ".dp" := rfl
      rw [htext, Text.endsWith_append]
      rfl
    | true =>
      have htext : constantLiteral (.length points true) = points.numeral ++ ".sp" := rfl
      have hdp : Text.endsWith (".d" ++ "p") ((points.numeral ++ ".s") ++ "p") = false :=
        Text.endsWith_append_of_ne "p" (c := 'd') (d := 's') rfl (by simp) (by decide)
      have hsplit : points.numeral ++ ".s" ++ "p" = points.numeral ++ ".sp" := by
        rw [String.append_assoc]
        rfl
      rw [hsplit] at hdp
      rw [htext, show ".dp" = ".d" ++ "p" by rfl, hdp, Text.endsWith_append]
      rfl
  | text s =>
    have hlast : (constantLiteral (.text s)).toList.getLast? = some '"' := by
      rw [constantLiteral, Text.quotedTemplate, String.toList_append]
      exact List.getLast?_concat
    have hstart : ∀ front : String, ∀ c ∈ front.toList.head?, c ≠ '"' →
        Text.startsWith front (constantLiteral (.text s)) = false := by
      intro front c hc hne
      refine Text.startsWith_of_head?_ne hc ?_
      simp [constantLiteral, Text.quotedTemplate, hne.symm]
    have hquote : Text.startsWith "\"" (constantLiteral (.text s)) = true := by
      rw [constantLiteral, Text.quotedTemplate, String.append_assoc]
      exact Text.startsWith_append _ _
    rw [literalType?_of_last hlast (by decide), hstart "Color(" 'C' rfl (by decide),
      hstart "listOf(" 'l' rfl (by decide), hquote]
    rfl

theorem Compose.hasType_iff (h : t.resolve = .ok flat) (htok : tok ∈ flat) :
    HasType flat tok type ↔ type = constantType tok.constant := by
  refine FlatTokens.hasType_iff h (fun tok text hassigned => ?_) htok
  change literalType? (flat.assigned constantImport? constantLiteral tok).text = _
  have hraw : flat.assigned constantImport? constantLiteral tok =
      .literal (constantLiteral tok.constant) := by
    unfold FlatTokens.assigned at hassigned ⊢
    split at hassigned
    · split at hassigned
      · cases hassigned
      · next hne => rw [if_neg hne]
    · rfl
  rw [hraw]
  exact literalType?_constantLiteral tok.constant

/-- The type that a modifier takes. -/
def Compose.ModifierKind.takes : ModifierKind → String
  | background => "Color"
  | padding | radius => "Dp"

theorem Compose.modifierKind?_inversion {ct : ComponentToken} {kind : ModifierKind}
    (h : modifierKind? ct = some kind) :
    (kind.takes = "Color" ∧ ∃ c, Token.ValueKind.ofText ct.value = .color c) ∨
      (kind.takes = "Dp" ∧ ∃ value unit points,
        Token.ValueKind.ofText ct.value = .dimension value unit ∧
          (Token.ValueKind.dimension value unit).points? = some points) := by
  unfold modifierKind? at h
  dsimp only at h
  split at h
  iterate 2
    · next c _ hc =>
      cases h
      exact .inl ⟨rfl, c, hc⟩
  iterate 2
    · next value unit _ hkind =>
      split at h
      · next hpoints =>
        cases h
        rw [hkind] at hpoints
        obtain ⟨points, hpoints⟩ := Option.isSome_iff_exists.1 hpoints
        exact .inr ⟨rfl, value, unit, points, hkind, hpoints⟩
      · cases h
  · cases h

/-! ## Tokens of components -/

/-- A token of a component is from the component layer, with its name and the text of its value. -/
structure ComponentToken.IsOf (ct : ComponentToken) (tok : FlatToken) : Prop where
  layer : tok.place.layer = .component
  name : tok.name = ct.name
  value : tok.value.render = ct.value

theorem exists_isOf {m : ComponentModel} {ct : ComponentToken}
    (h : ct ∈ (m.withTokens flat).tokens) : ∃ tok ∈ flat, ct.IsOf tok := by
  obtain ⟨tok, htok, hct⟩ := List.mem_filterMap.1 h
  obtain ⟨hmem, hlayer⟩ := List.mem_filter.1 htok
  refine ⟨tok, hmem, ?_⟩
  split at hct
  · split at hct
    · cases hct
      exact ⟨of_decide_eq_true hlayer, rfl, rfl⟩
    · cases hct
  · cases hct

/-- A target that declares constants, and gives them to modifiers. -/
structure ConstantTarget where
  source : ComponentModel → String
  /-- The file that declares the constants. -/
  file : FlatTokens → String
  /-- The declaration of a token's constant. -/
  line : FlatTokens → FlatToken → String
  HasType : FlatTokens → FlatToken → String → Prop

def SwiftUI.target : ConstantTarget := ⟨source, constants, constantLine, HasType⟩

def Compose.target : ConstantTarget := ⟨source, constants, constantLine, HasType⟩

/-- A component applies a modifier that is given the constant of a token. -/
structure ConstantTarget.Applies (g : ConstantTarget) (flat : FlatTokens) (m : ComponentModel)
    (tok : FlatToken) (modifier takes : String) (fits : Prop) : Prop where
  applied : modifier.toList <:+: (g.source (m.withTokens flat)).toList
  declared : (g.line flat tok).toList <:+: (g.file flat).toList
  /-- The constant has one type. -/
  typed : ∃ type, ∀ type', g.HasType flat tok type' ↔ type' = type
  /-- It is the one that the modifier takes just if the value fits. -/
  agrees : g.HasType flat tok takes ↔ fits

/-- A modifier takes the constant of a token just if the value of the token is no list. -/
theorem SwiftUI.takes_eq_iff (h : t.resolve = .ok flat) {ct : ComponentToken} (htok : tok ∈ flat)
    (hof : ct.IsOf tok) {kind : ModifierKind} (hkind : modifierKind? ct = some kind) :
    kind.takes = constantType tok.constant ↔ tok.value.isList = false := by
  rw [FlatToken.constant]
  have hraw := Token.isReference_value h htok
  cases hlist : tok.value.isList with
  | true =>
    refine iff_of_false ?_ (by decide)
    obtain ⟨items, hitems⟩ := Token.constant_of_isList hlist
    rw [hitems]
    cases kind <;> simp [ModifierKind.takes, constantType]
  | false =>
    refine iff_of_true ?_ rfl
    rcases modifierKind?_inversion hkind with ⟨htakes, c, hcolor⟩ | ⟨htakes, hpoints⟩
    · rw [← hof.value] at hcolor
      rw [htakes, Token.constant_of_color hraw hlist hcolor]
      rfl
    · rw [← hof.value] at hpoints
      rw [htakes]
      rcases Token.constant_of_points hraw hlist hpoints with ⟨x, hx⟩ | ⟨points, scaled, hx⟩
      · rw [hx]
        rfl
      · rw [hx]
        rfl

theorem SwiftUI.applies (h : t.resolve = .ok flat) {m : ComponentModel} {ct : ComponentToken}
    (htok : tok ∈ flat) (hof : ct.IsOf tok) (hct : ct ∈ (m.withTokens flat).tokens)
    {kind : ModifierKind} (hkind : modifierKind? ct = some kind) :
    target.Applies flat m tok (kind.apply s!"Tokens.{tok.ident}") kind.takes
      (tok.value.isList = false) where
  applied := by
    have hmodifier : kind.apply s!"Tokens.{tok.ident}" ∈ modifiers (m.withTokens flat) := by
      have hfound : tokenModifier? ct = some (kind.apply s!"Tokens.{tok.ident}") := by
        rw [tokenModifier?, hkind, FlatToken.ident, hof.name]
        rfl
      unfold modifiers
      simp only [List.mem_append, List.mem_filterMap]
      exact .inl (.inl (.inl ⟨ct, hct, hfound⟩))
    exact infix_modifier hmodifier
  declared := by
    have hline : constantLine flat tok ∈ flat.map (constantLine flat) := List.mem_map_of_mem htok
    refine infix_file List.infix_rfl ?_
    simp only [List.mem_append]
    exact .inl (.inr hline)
  typed := ⟨_, fun _ => hasType_iff h htok⟩
  agrees := (hasType_iff h htok).trans (takes_eq_iff h htok hof hkind)

/-- Besides, lengths in scaled pixels are not taken. -/
theorem Compose.takes_eq_iff (h : t.resolve = .ok flat) {ct : ComponentToken} (htok : tok ∈ flat)
    (hof : ct.IsOf tok) {kind : ModifierKind} (hkind : modifierKind? ct = some kind) :
    kind.takes = constantType tok.constant ↔ tok.value.isList = false ∧
      ∀ value, Token.ValueKind.ofText ct.value ≠ .dimension value "sp" := by
  rw [FlatToken.constant]
  have hraw := Token.isReference_value h htok
  cases hlist : tok.value.isList with
  | true =>
    refine iff_of_false ?_ fun hfits => absurd hfits.1 (by decide)
    obtain ⟨items, hitems⟩ := Token.constant_of_isList hlist
    rw [hitems]
    cases kind <;> simp [ModifierKind.takes, constantType]
  | false =>
    rw [and_iff_right rfl]
    rcases modifierKind?_inversion hkind with
      ⟨htakes, c, hcolor⟩ | ⟨htakes, value, unit, points, hdimension, hpoints⟩
    · refine iff_of_true ?_ fun value => by simp [hcolor]
      rw [← hof.value] at hcolor
      rw [htakes, Token.constant_of_color hraw hlist hcolor]
      rfl
    · have hvalue := hof.value ▸ hdimension
      rw [htakes, Token.constant_of_dimension hraw hlist hvalue hpoints, hdimension]
      by_cases hunit : unit = "sp"
      · simp [constantType, hunit]
      · simp [constantType, hunit]

theorem Compose.applies (h : t.resolve = .ok flat) {m : ComponentModel} {ct : ComponentToken}
    (htok : tok ∈ flat) (hof : ct.IsOf tok) (hct : ct ∈ (m.withTokens flat).tokens)
    {kind : ModifierKind} (hkind : modifierKind? ct = some kind) :
    target.Applies flat m tok (kind.apply s!"AppTokens.{tok.ident}") kind.takes
      (tok.value.isList = false ∧ ∀ value, Token.ValueKind.ofText ct.value ≠ .dimension value "sp")
    where
  applied := by
    have hmodifier : (kind, ct) ∈ tokenModifiers (m.withTokens flat) :=
      List.mem_filterMap.2 ⟨ct, hct, by rw [hkind]; rfl⟩
    have hlink := List.mem_map_of_mem
      (f := fun a => a.1.apply s!"AppTokens.{Token.identifier a.2.name}") hmodifier
    rw [FlatToken.ident, hof.name]
    refine infix_link ?_
    unfold modifierChain
    simp only [List.mem_append]
    exact .inl (.inr hlink)
  declared := by
    have hline : constantLine flat tok ∈ flat.map (constantLine flat) := List.mem_map_of_mem htok
    refine infix_file List.infix_rfl ?_
    simp only [List.mem_append]
    exact .inl (.inr hline)
  typed := ⟨_, fun _ => hasType_iff h htok⟩
  agrees := (hasType_iff h htok).trans (takes_eq_iff h htok hof hkind)

/-- **A modifier is given a constant of the type that it takes just if the value of the token is no
list and, in Compose, no length in scaled pixels.** -/
theorem Token.modifiers_agree (h : t.resolve = .ok flat) (m : ComponentModel) :
    (∀ ct ∈ (m.withTokens flat).tokens, ∀ kind, SwiftUI.modifierKind? ct = some kind →
      ∃ tok ∈ flat, ct.IsOf tok ∧
        SwiftUI.target.Applies flat m tok (kind.apply s!"Tokens.{tok.ident}") kind.takes
          (tok.value.isList = false)) ∧
    (∀ ct ∈ (m.withTokens flat).tokens, ∀ kind, Compose.modifierKind? ct = some kind →
      ∃ tok ∈ flat, ct.IsOf tok ∧
        Compose.target.Applies flat m tok (kind.apply s!"AppTokens.{tok.ident}") kind.takes
          (tok.value.isList = false ∧
            ∀ value, ValueKind.ofText ct.value ≠ .dimension value "sp")) := by
  constructor
  · intro ct hct kind hkind
    obtain ⟨tok, htok, hof⟩ := exists_isOf hct
    exact ⟨tok, htok, hof, SwiftUI.applies h htok hof hct hkind⟩
  · intro ct hct kind hkind
    obtain ⟨tok, htok, hof⟩ := exists_isOf hct
    exact ⟨tok, htok, hof, Compose.applies h htok hof hct hkind⟩

/-- A panel, whose tokens are in the group of its name. -/
def panel : ComponentSpec where
  name := "Panel"
  category := .layout
  accessibility := { role := "region" }

/-- Its padding, as an alias of a raw value. -/
def panelLayers (padding : Token.Leaf) : Token.Layers where
  primitive := [("space", .group [("md", .leaf padding)])]
  component := [("panel", .group [("padding", .leaf (.reference "space.md"))])]

/-- The resolved tokens of `panelLayers`. -/
def panelTokens (padding : Token.Leaf) : FlatTokens := [
  ⟨⟨.primitive, ["space", "md"]⟩, "space-md", padding, none⟩,
  ⟨⟨.component, ["panel", "padding"]⟩, "panel-padding", padding, some "space-md"⟩]

/-- The token of its padding. -/
def panelPadding (padding : Token.Leaf) : FlatToken :=
  ⟨⟨.component, ["panel", "padding"]⟩, "panel-padding", padding, some "space-md"⟩

theorem exists_panel_token (platform : Platform) (padding : Token.Leaf) {α : Type}
    (kind? : ComponentToken → α) (kind : α)
    (h : ((panel.model platform {}).map fun m => (m.withTokens (panelTokens padding)).tokens.map
      fun ct => (ct.name, ct.value, kind? ct)).toOption =
        some [("panel-padding", padding.render, kind)]) :
    ∃ m, panel.model platform {} = .ok m ∧ ∃ ct ∈ (m.withTokens (panelTokens padding)).tokens,
      ct.name = "panel-padding" ∧ ct.value = padding.render ∧ kind? ct = kind := by
  obtain ⟨m, hm, htokens⟩ := exists_of_map_eq h
  obtain ⟨ct, rest, hct, hdata, -⟩ := List.map_eq_cons_iff.1 htokens
  obtain ⟨hname, hvalue, hkind⟩ : ct.name = "panel-padding" ∧ ct.value = padding.render ∧
      kind? ct = kind := by simpa using hdata
  exact ⟨m, hm, ct, by rw [hct]; exact .head _, hname, hvalue, hkind⟩

theorem eq_panelPadding {padding : Token.Leaf} (htok : tok ∈ panelTokens padding)
    (hname : tok.name = "panel-padding") : tok = panelPadding padding := by
  rcases List.mem_pair.1 htok with rfl | rfl
  · have hne : "space-md" ≠ "panel-padding" := by decide
    exact absurd hname hne
  · rfl

/-- In root font sizes the padding is a length, for both. -/
theorem Token.modifiers_agree_rem :
    (panelLayers (.text "1.5rem")).resolve = .ok (panelTokens (.text "1.5rem")) ∧
      ∃ m, panel.model .compose {} = .ok m ∧ ".padding(AppTokens.panelPadding)".toList <:+:
          (Compose.source (m.withTokens (panelTokens (.text "1.5rem")))).toList ∧
        Compose.HasType (panelTokens (.text "1.5rem")) (panelPadding (.text "1.5rem")) "Dp" := by
  have h : (panelLayers (.text "1.5rem")).resolve = .ok (panelTokens (.text "1.5rem")) := by
    decide +kernel
  obtain ⟨m, hm, ct, hct, hname, hvalue, hkind⟩ := exists_panel_token .compose (.text "1.5rem")
    Compose.modifierKind? (some .padding) (by decide +kernel)
  obtain ⟨tok, htok, hof, happlied⟩ := (modifiers_agree h m).2 ct hct .padding hkind
  obtain rfl := eq_panelPadding htok (hof.name.trans hname)
  refine ⟨h, m, hm, happlied.applied, happlied.agrees.2 ⟨rfl, fun value hdimension => ?_⟩⟩
  rw [hvalue] at hdimension
  -- the letters of the unit do not stand in the text
  obtain ⟨-, hletters⟩ := exists_unit_of_dimension? (dimension?_of_ofText hdimension)
  exact absurd (Text.mem_of_mem_trim (hletters 's' (.head _))) (by decide)

/-- A list of one length is no length in SwiftUI, and one in scaled pixels is none in Compose. Both
are padding all the same. -/
theorem Token.modifiers_agree_misfits :
    ((panelLayers (.list ["16px"])).resolve = .ok (panelTokens (.list ["16px"])) ∧
      ∃ m, panel.model .swiftUI {} = .ok m ∧ ".padding(Tokens.panelPadding)".toList <:+:
          (SwiftUI.source (m.withTokens (panelTokens (.list ["16px"])))).toList ∧
        SwiftUI.HasType (panelTokens (.list ["16px"])) (panelPadding (.list ["16px"]))
          "[String]" ∧
        ¬ SwiftUI.HasType (panelTokens (.list ["16px"])) (panelPadding (.list ["16px"]))
          "CGFloat") ∧
    ((panelLayers (.text "8sp")).resolve = .ok (panelTokens (.text "8sp")) ∧
      ∃ m, panel.model .compose {} = .ok m ∧ ".padding(AppTokens.panelPadding)".toList <:+:
          (Compose.source (m.withTokens (panelTokens (.text "8sp")))).toList ∧
        Compose.HasType (panelTokens (.text "8sp")) (panelPadding (.text "8sp")) "TextUnit" ∧
        ¬ Compose.HasType (panelTokens (.text "8sp")) (panelPadding (.text "8sp")) "Dp") := by
  constructor
  · have h : (panelLayers (.list ["16px"])).resolve = .ok (panelTokens (.list ["16px"])) := by
      decide +kernel
    obtain ⟨m, hm, ct, hct, hname, hvalue, hkind⟩ := exists_panel_token .swiftUI (.list ["16px"])
      SwiftUI.modifierKind? (some .padding) (by decide +kernel)
    have hmem : panelPadding (.list ["16px"]) ∈ panelTokens (.list ["16px"]) := .tail _ (.head _)
    have happlied := SwiftUI.applies h hmem ⟨rfl, hname.symm, hvalue.symm⟩ hct hkind
    refine ⟨h, m, hm, happlied.applied, (SwiftUI.hasType_iff h hmem).2 rfl, fun htype => ?_⟩
    exact absurd (happlied.agrees.1 htype) (by decide)
  · have h : (panelLayers (.text "8sp")).resolve = .ok (panelTokens (.text "8sp")) := by
      decide +kernel
    obtain ⟨m, hm, ct, hct, hname, hvalue, hkind⟩ := exists_panel_token .compose (.text "8sp")
      Compose.modifierKind? (some .padding) (by decide +kernel)
    have hmem : panelPadding (.text "8sp") ∈ panelTokens (.text "8sp") := .tail _ (.head _)
    have happlied := Compose.applies h hmem ⟨rfl, hname.symm, hvalue.symm⟩ hct hkind
    have hscaled : Compose.constantType (panelPadding (.text "8sp")).constant = "TextUnit" := by
      decide +kernel
    refine ⟨h, m, hm, happlied.applied, (Compose.hasType_iff h hmem).2 hscaled.symm,
      fun htype => ?_⟩
    rw [Compose.hasType_iff h hmem, hscaled] at htype
    exact absurd htype (by decide)

end DesignSystem
