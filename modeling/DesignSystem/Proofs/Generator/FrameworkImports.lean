import DesignSystem.Proofs.Component.Styling
import DesignSystem.Proofs.Generator.Calls
import DesignSystem.Proofs.Generator.ConstantDefaults
import DesignSystem.Proofs.Generator.EmittedType
import DesignSystem.Proofs.Generator.ImportLines

/-!
# Imports for the types of props

The types of props stand in the source of a component, and with them the names that they take from a
framework.

* `Platform.EmitsType`: the types that a source has for a prop.
* `ComponentSpec.type_written`: they stand in it.
* `ComponentSpec.NeedsName`: the names of a framework in them.
* `ComponentSpec.framework_imports`: when all these names are imported.
-/

set_option autoImplicit false

namespace DesignSystem

/-! ## Types of props -/

/-- The types that a source has for a prop, as the descriptors that they are of, where types have
names that a source has to import. -/
inductive Platform.EmitsType (typed : Bool) (d : TypeDescriptor) :
    Platform → TypeDescriptor → Prop
  /-- A member of the interface, or a slot that is given content of the type. -/
  | prop : typed = true → EmitsType typed d .vue d
  | input : d.isCallback = false → d.isContent = false → EmitsType typed d .angular d
  /-- The type of the only parameter, if it is read as a whole. -/
  | output {p : String × TypeDescriptor} : d.params = [p] → isIdentifier p.1 →
      (∀ mark ∈ TypeScript.marks, ¬ TypeScript.Carries mark p.2) → EmitsType typed d .angular p.2
  | parameter : EmitsType typed d .compose d
  | field : EmitsType typed d .flutter d

section
variable {m : ComponentModel} {q : PropModel}

theorem Vue.infix_member (htyped : m.typed = true) (hq : q ∈ m.props)
    (hcontent : q.isContent = false) : q.type.toList <:+: (source m).toList := by
  have hmember : q.type.toList <:+: q.member.toList := infix_between _ q.type ";"
  have hline : q.member ∈ (declared m).flatMap fun p => p.comment ++ [p.member] :=
    List.mem_flatMap.2 ⟨q, List.mem_filter.2 ⟨hq, by rw [hcontent]; rfl⟩,
      List.mem_append_right _ (List.mem_singleton_self _)⟩
  refine infix_file hmember ?_
  simp only [script, propsDeclaration, htyped, if_true, ComponentModel.propsInterface,
    List.mem_append, hline, true_or, or_true]

theorem Vue.infix_slot (htyped : m.typed = true) (hq : q ∈ m.props)
    (hcontent : q.isContent = true) : "VNode".toList <:+: (source m).toList := by
  have hprops : q ∈ m.contentProps := List.mem_filter.2 ⟨hq, hcontent⟩
  have hslots : slotsDeclaration m = ["", "defineSlots<\x7b"] ++
      m.contentProps.map (fun p => s!"  {p.ident}?: () => VNode[];") ++
      ["  default?: () => VNode[];", "\x7d>();"] := by
    have hne : m.contentProps.isEmpty = false :=
      List.isEmpty_eq_false_iff.2 (List.ne_nil_of_mem hprops)
    rw [slotsDeclaration, hne, htyped]
    rfl
  refine infix_file (infix_between "  default?: () => " "VNode" "[];") ?_
  have hline : "  default?: () => VNode[];" = "  default?: () => " ++ "VNode" ++ "[];" := rfl
  rw [← hline]
  simp only [script, hslots, List.mem_append, List.mem_cons, true_or, or_true]

theorem Angular.infix_input (hq : q ∈ m.valueProps) : q.type.toList <:+: (source m).toList := by
  have hinput : q.type.toList <:+: (input q).toList := by
    unfold input
    split
    · exact infix_between _ q.type ";"
    · split
      · next value _ =>
        exact ((infix_between _ q.type " = ").trans (Text.infix_append_left _ value)).trans
          (Text.infix_append_left _ ";")
      · exact infix_between _ q.type ";"
  have hline : input q ∈ inputs m :=
    List.mem_flatMap.2 ⟨q, hq, List.mem_append_right _ (List.mem_singleton_self _)⟩
  refine infix_file (hinput.trans (infix_after "  " _)) ?_
  simp only [List.mem_append, List.mem_map_of_mem (List.mem_append_left (outputs m) hline), true_or,
    or_true]

theorem Angular.infix_output (hq : q ∈ m.callbacks) :
    (emittedType q.type).toList <:+: (source m).toList := by
  have houtput : (emittedType q.type).toList <:+: (output q).toList :=
    infix_between _ (emittedType q.type) ">();"
  have hline : output q ∈ outputs m := List.mem_map_of_mem hq
  refine infix_file (houtput.trans (infix_after "  " _)) ?_
  simp only [List.mem_append, List.mem_map_of_mem (List.mem_append_right (inputs m) hline), true_or,
    or_true]

theorem Compose.infix_parameter (hq : q ∈ m.props)
    (hoptional : q.type.toList <:+: q.optionalType.toList) :
    q.type.toList <:+: (source m).toList := by
  have hparameter : q.type.toList <:+: (parameter q).toList := by
    unfold parameter
    split
    · exact infix_between _ q.type ","
    · split
      · next value _ =>
        exact ((infix_between _ q.type " = ").trans (Text.infix_append_left _ value)).trans
          (Text.infix_append_left _ ",")
      · exact hoptional.trans (infix_between _ q.optionalType " = null,")
  have hline : parameter q ∈ parameters m := by
    simp only [parameters, ComponentModel.contentProps, List.mem_append, List.filter_filter]
    cases hcontent : q.isContent with
    | true =>
      exact .inr (List.mem_map_of_mem (List.mem_filter.2 ⟨hq, hcontent⟩))
    | false =>
      cases hrequired : q.required with
      | true =>
        refine .inl (.inl (.inl (List.mem_map_of_mem (List.mem_filter.2 ⟨hq, ?_⟩))))
        rw [hrequired, hcontent]
        rfl
      | false =>
        refine .inl (.inr (List.mem_map_of_mem (List.mem_filter.2 ⟨hq, ?_⟩)))
        rw [hrequired, hcontent]
        rfl
  refine infix_file (hparameter.trans (infix_after "    " _)) ?_
  simp only [List.mem_append, List.mem_map_of_mem hline, true_or, or_true]

theorem Compose.infix_declaration {d : String × String} (hd : d ∈ m.declarations) :
    d.2.toList <:+: (source m).toList := by
  refine @infix_file _ d.2 _ List.infix_rfl ?_
  simp only [List.mem_append, m.mem_declarationLines hd, true_or, or_true]

theorem Flutter.infix_type (hq : q ∈ m.props)
    (hoptional : q.type.toList <:+: q.optionalType.toList) :
    q.type.toList <:+: (source m).toList := by
  have hchosen : q.type.toList <:+: (if isNullable q then q.optionalType else q.type).toList := by
    split
    · exact hoptional
    · exact List.infix_rfl
  have hfield : ∃ line ∈ fieldLines q, q.type.toList <:+: line.toList := by
    refine ⟨_, List.mem_append_right _ (List.mem_singleton_self _), hchosen.trans ?_⟩
    exact (infix_between "final " _ " ").trans
      ((Text.infix_append_left _ q.ident).trans (Text.infix_append_left _ ";"))
  obtain ⟨line, hline, htype⟩ := hfield
  have hlines : "  " ++ line ∈ (m.props.flatMap fieldLines).map ("  " ++ ·) :=
    List.mem_map_of_mem (List.mem_flatMap.2 ⟨q, hq, hline⟩)
  refine infix_file (htype.trans (infix_after "  " _)) ?_
  simp only [List.mem_append, hlines, true_or, or_true]

end

/-! ## Components -/

/-- A name of a framework stands in the types of a component's props. -/
def ComponentSpec.NeedsName (c : ComponentSpec) (platform : Platform) (typed : Bool)
    (name : String) : Prop :=
  ∃ p ∈ c.props, ∃ d, platform.EmitsType typed p.2.descriptor d ∧ platform.Mentions d name

/-- Which names of a framework the types of a component's props have, and which ones its source
imports. -/
structure ComponentSpec.FrameworkImports (c : ComponentSpec) (platform : Platform)
    (m : ComponentModel) : Prop where
  /-- The types stand in the source. -/
  written : ∀ p ∈ c.props, ∀ d, platform.EmitsType m.typed p.2.descriptor d →
    ∃ type, (platform.types.map d (propHint c.name p.1)).result = .ok type ∧
      type.toList <:+: (platform.generator.source m).toList
  /-- So do the names in them, or else in what is declared for them, unless that is dropped. -/
  named : c.KeepsDeclarations platform m → ∀ name, c.NeedsName platform m.typed name →
    name.toList <:+: (platform.generator.source m).toList
  /-- Only content on Vue is imported for. -/
  imported : ∀ name ∈ platform.frameworkNames,
    platform.Imports (platform.generator.source m) name ↔ platform = .vue ∧ name = "VNode" ∧
      m.typed = true ∧ ∃ p ∈ c.props, p.2.descriptor.isContent = true
  /-- So all names are imported just if there are no others. -/
  complete : (∀ name, c.NeedsName platform m.typed name →
      platform.Imports (platform.generator.source m) name) ↔
    ∀ name, c.NeedsName platform m.typed name → platform = .vue ∧ name = "VNode" ∧
      ∃ p ∈ c.props, p.2.descriptor.isContent = true

variable {c : ComponentSpec} {platform : Platform} {options : TransformOptions} {m : ComponentModel}

theorem ComponentSpec.NeedsName.mem {typed : Bool} {name : String}
    (h : c.NeedsName platform typed name) : name ∈ platform.frameworkNames := by
  obtain ⟨_, _, d, -, inner, -, hown⟩ := h
  exact Platform.mem_frameworkNames hown

/-- The type of a callback's only parameter is what its output emits. -/
theorem TypeDescriptor.emitted_of_output {d : TypeDescriptor} {p : String × TypeDescriptor}
    {hint text : String} (hparams : d.params = [p]) (hname : isIdentifier p.1)
    (hmarks : ∀ mark ∈ TypeScript.marks, ¬ TypeScript.Carries mark p.2)
    (h : (Platform.angular.types.map d hint).result = .ok text) :
    (Platform.angular.types.map p.2 hint).result = .ok (Angular.emittedType text) := by
  have hcallback : d.isCallback :=
    isCallback_of_params (by rw [hparams]; exact List.cons_ne_nil _ _)
  have hnames : ∀ name ∈ d.paramNames, isIdentifier name := by
    rw [paramNames_eq, hparams]
    exact List.forall_mem_singleton.2 hname
  obtain ⟨type, htype, hemitted⟩ :=
    (Angular.emittedType_of_callback hcallback hnames h).one p hparams
  rw [hemitted.2 hmarks]
  exact htype

/-- Content is of one type on Vue. -/
theorem Vue.type_of_content {d : TypeDescriptor} (h : d.isContent = true) (hint : String) :
    (Platform.vue.types.map d hint).result = .ok "VNode" := by
  have hkind : ∃ kind, d.complexType? = some kind ∧ (kind = .node ∨ kind = .element) := by
    rcases Bool.or_eq_true_iff.1 h with h | h
    · exact ⟨_, of_decide_eq_true h, .inl rfl⟩
    · exact ⟨_, of_decide_eq_true h, .inr rfl⟩
  obtain ⟨kind, hd, hkind⟩ := hkind
  cases d with
  | complex => cases hd; rcases hkind with rfl | rfl <;> rfl
  | signed => cases hd; rcases hkind with rfl | rfl <;> rfl
  | primitive | custom | union | array | object => cases hd

theorem ComponentSpec.exists_model (h : c.model platform options = .ok m) {p : String × PropSpec}
    (hp : p ∈ c.props) :
    ∃ q ∈ m.props, (p.2.model platform.types c.name p.1).result = .ok q := by
  obtain ⟨props, hprops, rfl⟩ := map_eq_ok h
  exact exists_of_forall₂ (Mapping.mapM_eq_ok hprops).1.flip hp

theorem ComponentSpec.type_written (h : c.model platform options = .ok m) (ts : FlatTokens)
    {p : String × PropSpec} (hp : p ∈ c.props) {d : TypeDescriptor}
    (hd : platform.EmitsType m.typed p.2.descriptor d) :
    ∃ type, (platform.types.map d (propHint c.name p.1)).result = .ok type ∧
      type.toList <:+: (platform.generator.source (m.withTokens ts)).toList := by
  obtain ⟨q, hq, hmodel⟩ := exists_model h hp
  have htype := (PropSpec.isModel_of_model hmodel).type
  have happears := PropSpec.appears_of_model hmodel
  have hoptional := PropSpec.optionalType_of_model hmodel
  cases hd with
  | prop htyped =>
    cases hcontent : p.2.descriptor.isContent with
    | true =>
      exact ⟨_, Vue.type_of_content hcontent _,
        Vue.infix_slot (m := m.withTokens ts) htyped hq (happears.content.trans hcontent)⟩
    | false =>
      exact ⟨_, htype,
        Vue.infix_member (m := m.withTokens ts) htyped hq (happears.content.trans hcontent)⟩
  | input hcallback hcontent =>
    refine ⟨_, htype, Angular.infix_input (m := m.withTokens ts) (List.mem_filter.2 ⟨hq, ?_⟩)⟩
    rw [PropModel.isValue, happears.callback, happears.content, hcallback, hcontent]
    rfl
  | output hparams hname hmarks =>
    have hcallback : q.isCallback = true := happears.callback.trans
      (TypeDescriptor.isCallback_of_params (by rw [hparams]; exact List.cons_ne_nil _ _))
    exact ⟨_, TypeDescriptor.emitted_of_output hparams hname hmarks htype,
      Angular.infix_output (m := m.withTokens ts) (List.mem_filter.2 ⟨hq, hcallback⟩)⟩
  | parameter =>
    refine ⟨_, htype, Compose.infix_parameter (m := m.withTokens ts) hq ?_⟩
    exact hoptional ▸ NominalLanguage.composes_kotlin.optional q.type
  | field =>
    refine ⟨_, htype, Flutter.infix_type (m := m.withTokens ts) hq ?_⟩
    exact hoptional ▸ NominalLanguage.composes_dart.optional q.type

theorem ComponentSpec.declaration_written (h : c.KeepsDeclarations platform m)
    {p : String × PropSpec} (hp : p ∈ c.props) {d : TypeDescriptor}
    (hd : platform.EmitsType m.typed p.2.descriptor d)
    {declaration : Declaration}
    (hmem : declaration ∈ (platform.types.map d (propHint c.name p.1)).declared) :
    declaration.source.toList <:+: (platform.generator.source m).toList := by
  cases hd with
  | prop | input | output => cases hmem
  | parameter => exact Compose.infix_declaration (Entries.mem_of_get? (h p hp declaration hmem))
  | field => exact Flutter.infix_declaration (Entries.mem_of_get? (h p hp declaration hmem))

theorem ComponentSpec.contentProps_ne_nil_iff (h : c.model platform options = .ok m) :
    m.contentProps ≠ [] ↔ ∃ p ∈ c.props, p.2.descriptor.isContent = true := by
  have happears := (appears_of_model h []).props
  constructor
  · intro hne
    obtain ⟨q, hq⟩ := List.exists_mem_of_ne_nil _ hne
    obtain ⟨hq, hcontent⟩ := List.mem_filter.1 hq
    obtain ⟨p, hp, hpq⟩ := exists_of_forall₂ happears hq
    exact ⟨p, hp, hpq.content ▸ hcontent⟩
  · rintro ⟨p, hp, hcontent⟩
    obtain ⟨q, hq, hpq⟩ := exists_of_forall₂ happears.flip hp
    exact List.ne_nil_of_mem (List.mem_filter.2 ⟨hq, hpq.content.trans hcontent⟩)

theorem ComponentSpec.NeedsName.written {name : String} (hneeds : c.NeedsName platform m.typed name)
    (h : c.model platform options = .ok m) (ts : FlatTokens)
    (hkeeps : c.KeepsDeclarations platform (m.withTokens ts)) :
    name.toList <:+: (platform.generator.source (m.withTokens ts)).toList := by
  have hne := List.ne_nil_of_mem hneeds.mem
  obtain ⟨p, hp, d, hd, hmentions⟩ := hneeds
  obtain ⟨type, htype, hin⟩ := type_written h ts hp hd
  rcases Platform.mentioned_written hne hmentions htype with
    ⟨type', htype', hname⟩ | ⟨declaration, hmem, hname⟩
  · obtain rfl : type' = type := Except.ok.inj (htype'.symm.trans htype)
    exact hname.trans hin
  · exact hname.trans (declaration_written hkeeps hp hd hmem)

/-- **The names that the types of props take from a framework are not imported, but for the one of
content on Vue, if there is a content prop.** -/
theorem ComponentSpec.framework_imports (h : c.model platform options = .ok m) (ts : FlatTokens) :
    c.FrameworkImports platform (m.withTokens ts) where
  written _ hp _ hd := type_written h ts hp hd
  named hkeeps _ hneeds := NeedsName.written (m := m) hneeds h ts hkeeps
  imported name hname := by
    rw [Platform.imports_iff hname, ← contentProps_ne_nil_iff h]
    rfl
  complete := by
    refine forall_congr' fun name => imp_congr_right fun hneeds => ?_
    have htyped : platform = .vue → m.typed = true := by
      rintro rfl
      obtain ⟨p, hp, d, hd, -⟩ := hneeds
      cases hd with
      | prop htyped => exact htyped
    rw [Platform.imports_iff hneeds.mem, ← contentProps_ne_nil_iff h]
    exact ⟨fun ⟨hvue, hname, _, hcontent⟩ => ⟨hvue, hname, hcontent⟩,
      fun ⟨hvue, hname, hcontent⟩ => ⟨hvue, hname, htyped hvue, hcontent⟩⟩

/-- A gallery with content of its own and a list of more. -/
def gallery : ComponentSpec where
  name := "Gallery"
  category := .layout
  accessibility := { role := "region" }
  props := [("icon", { descriptor := .complex .node }),
    ("panes", { descriptor := .array (.complex .node) none none false })]

/-- The list has the type of content in it, which is imported for the content. -/
theorem ComponentSpec.framework_imports_gallery : gallery.error? = none ∧
    ∃ m, gallery.model .vue {} = .ok m ∧ gallery.NeedsName .vue m.typed "VNode" ∧
      Platform.vue.Imports (Vue.source (m.withTokens [])) "VNode" := by
  obtain ⟨m, hm, htyped⟩ := exists_of_map_eq (r := gallery.model .vue {}) (f := fun m => m.typed)
    (b := true) (by decide +kernel)
  have hneeds : gallery.NeedsName .vue m.typed "VNode" :=
    ⟨_, .tail _ (.head _), _, .prop htyped, _, .item (.self _), rfl⟩
  exact ⟨by decide +kernel, m, hm, hneeds, ((framework_imports hm []).imported _ (by decide)).2
    ⟨rfl, rfl, htyped, _, List.mem_cons_self, rfl⟩⟩

/-- A viewer with values that have types of their own on several platforms, but no content. -/
def viewer : ComponentSpec where
  name := "Viewer"
  category := .layout
  accessibility := { role := "region" }
  props := [("anchor", { descriptor := .complex .ref }),
    ("tint", { descriptor := .custom .color none }),
    ("upload", { descriptor := .complex .file }),
    ("panes", { descriptor := .array (.complex .node) none none false })]

/-- A viewer passes validation, and none of the names that its types need is imported. -/
theorem ComponentSpec.framework_imports_viewer : viewer.error? = none ∧
    ∀ needed ∈ [(Platform.vue, "Ref"), (.vue, "VNode"), (.angular, "ElementRef"),
      (.angular, "TemplateRef"), (.compose, "FocusRequester"), (.compose, "Color"),
      (.flutter, "File")],
    ∃ m, viewer.model needed.1 {} = .ok m ∧ viewer.NeedsName needed.1 m.typed needed.2 ∧
      ¬ needed.1.Imports (needed.1.generator.source m) needed.2 := by
  have hmodel : ∀ platform name, name ∈ platform.frameworkNames →
      ((viewer.model platform {}).map fun m => (m.typed, m.contentProps.isEmpty)).toOption =
        some (true, true) →
      viewer.NeedsName platform true name →
      ∃ m, viewer.model platform {} = .ok m ∧ viewer.NeedsName platform m.typed name ∧
        ¬ platform.Imports (platform.generator.source m) name := by
    intro platform name hname hdata hneeds
    obtain ⟨m, hm, hpair⟩ := exists_of_map_eq hdata
    obtain ⟨htyped, hcontent⟩ := Prod.mk.inj hpair
    refine ⟨m, hm, htyped.symm ▸ hneeds, fun himports => ?_⟩
    exact ((Platform.imports_iff hname).1 himports).2.2.2 (List.isEmpty_iff.1 hcontent)
  refine ⟨by decide +kernel, ?_⟩
  simp only [List.forall_mem_cons]
  refine ⟨?_, ?_, ?_, ?_, ?_, ?_, ?_, List.forall_mem_nil _⟩
  · exact hmodel _ _ (by decide) (by decide +kernel)
      ⟨_, .head _, _, .prop rfl, _, .self _, rfl⟩
  · exact hmodel _ _ (by decide) (by decide +kernel)
      ⟨_, .tail _ (.tail _ (.tail _ (.head _))), _, .prop rfl, _, .item (.self _), rfl⟩
  · exact hmodel _ _ (by decide) (by decide +kernel)
      ⟨_, .head _, _, .input rfl rfl, _, .self _, rfl⟩
  · exact hmodel _ _ (by decide) (by decide +kernel)
      ⟨_, .tail _ (.tail _ (.tail _ (.head _))), _, .input rfl rfl, _, .item (.self _), rfl⟩
  · exact hmodel _ _ (by decide) (by decide +kernel)
      ⟨_, .head _, _, .parameter, _, .self _, rfl⟩
  · exact hmodel _ _ (by decide) (by decide +kernel)
      ⟨_, .tail _ (.head _), _, .parameter, _, .self _, rfl⟩
  · exact hmodel _ _ (by decide) (by decide +kernel)
      ⟨_, .tail _ (.tail _ (.head _)), _, .field, _, .self _, rfl⟩

end DesignSystem
