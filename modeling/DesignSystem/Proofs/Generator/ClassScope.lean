import DesignSystem.Proofs.Component.Styling
import DesignSystem.Proofs.Generator.Calls

/-!
# Names in lists of classes

The list of classes of a component uses the props that choose a styling, and those that compound
variants have conditions on, which may be any. Each generator binds names of its own selection.

* `Platform.classScope`: the names that a generator binds, and the list of classes behind them.
* `ComponentModel.uses_iff`: which names a list of classes uses.
* `ComponentSpec.scopes_classNames`: whether all of them are bound, on each platform.
-/

set_option autoImplicit false

namespace DesignSystem

/-! ## What is written -/

/-- Where the source of a component computes its classes. -/
structure ClassScope where
  /-- The entries of the pattern that binds names. -/
  entries : List String
  /-- The expressions of the list of classes. -/
  expressions : List String

/-- The scope of the list of classes on a platform with components in a script. -/
def Platform.classScope (platform : Platform) (m : ComponentModel) : ClassScope :=
  let plain := m.classExpressions s!"'{m.kebabName}'" m.choiceTemplate
  match platform with
  | react => ⟨React.bindings m, React.classes m⟩
  | vue => ⟨(Vue.declared m).map (·.binding), plain⟩
  | angular => ⟨Angular.usedNames m, plain⟩
  | svelte => ⟨Svelte.bindings m, plain⟩
  | tailwind => ⟨Tailwind.bindings m, Tailwind.classes m⟩
  | flutter | swiftUI | compose | css => ⟨[], []⟩

/-- The platforms with components in a script. -/
def Platform.scripted : List Platform := [react, vue, angular, svelte, tailwind]

/-- The pattern that binds names. -/
def ClassScope.pattern (s : ClassScope) : String :=
  let entries := Text.join ", " s.entries
  s!"\x7b {entries} \x7d"

/-- The name that an entry of a pattern binds: what stands before its default value. -/
def boundName (entry : String) : String := .ofList (entry.toList.takeWhile (· ≠ ' '))

/-- All names that a list of classes uses are bound in its scope. -/
def Platform.BindsClassNames (platform : Platform) (m : ComponentModel) : Prop :=
  ∀ part ∈ m.classParts, ∀ name ∈ part.uses, name ∈ (platform.classScope m).entries.map boundName

instance (platform : Platform) (m : ComponentModel) : Decidable (platform.BindsClassNames m) :=
  inferInstanceAs (Decidable (∀ part ∈ _, ∀ name ∈ _, _))

/-- The pattern and the list of classes stand in the source of a component; there is no pattern
without names. -/
structure Platform.WritesClassScope (platform : Platform) (m : ComponentModel) : Prop where
  pattern : (platform.classScope m).entries ≠ [] →
    (platform.classScope m).pattern.toList <:+: (platform.generator.source m).toList
  expressions : ∀ e ∈ (platform.classScope m).expressions,
    e.toList <:+: (platform.generator.source m).toList

section
variable {m : ComponentModel} {platform : Platform}

theorem infix_list {e : String} {es : List String} (h : e ∈ es) (before after : String) :
    e.toList <:+: (before ++ Text.join ", " es ++ after).toList :=
  (Text.infix_join h).trans (infix_between before _ after)

/-- An expression of the list of plain classes stands in a line with the whole list. -/
theorem ComponentModel.infix_classList {e : String}
    (h : e ∈ m.classExpressions s!"'{m.kebabName}'" m.choiceTemplate) (before after : String) :
    e.toList <:+: (before ++ m.classList ++ after).toList :=
  (infix_list h "cx(" ")").trans (infix_between before _ after)

/-- A pattern stands between what ends with one brace and what starts with the other. -/
theorem ClassScope.infix_line (s : ClassScope) (before after : String) {opening closing : String}
    (hopening : opening = before ++ "\x7b ") (hclosing : closing = " \x7d" ++ after) :
    s.pattern.toList <:+: (opening ++ Text.join ", " s.entries ++ closing).toList := by
  have hline : opening ++ Text.join ", " s.entries ++ closing = before ++ s.pattern ++ after := by
    rw [hopening, hclosing]
    change _ = before ++ ("\x7b " ++ Text.join ", " s.entries ++ " \x7d") ++ after
    simp only [String.append_assoc]
  rw [hline]
  exact infix_between before _ after

theorem React.writesClassScope : Platform.WritesClassScope .react m where
  pattern _ := by
    have hopening : "export function " ++ m.pascalName ++ "(\x7b " =
        "export function " ++ m.pascalName ++ "(" ++ "\x7b " := by
      rw [@String.append_assoc _ "("]
      rfl
    have hline : _ <:+: (signature m).toList :=
      (((Platform.react.classScope m).infix_line _ "" hopening rfl).trans
        (Text.infix_append_left _ (if m.typed then s!": {m.pascalName}Props" else ""))).trans
          (Text.infix_append_left _ ") \x7b")
    refine infix_file hline ?_
    simp only [List.mem_append, List.mem_cons, true_or, or_true]
  expressions e he := by
    have hline := (infix_list he "className=\x7bcx(" ")\x7d").trans
      (Text.infix_append_right "      " _)
    have hattribute : "className=\x7bcx(" ++ Text.join ", " (classes m) ++ ")\x7d" ∈
        attributes m := by
      simp only [attributes, List.mem_append, List.mem_cons, true_or, or_true]
    refine infix_file hline ?_
    have hmem := List.mem_map_of_mem (f := ("      " ++ ·)) hattribute
    simp only [List.mem_append]
    exact .inl (.inl (.inl (.inr hmem)))

theorem Vue.writesClassScope : Platform.WritesClassScope .vue m where
  pattern _ := by
    have hopening : "const \x7b " = "const " ++ "\x7b " := rfl
    cases htyped : m.typed with
    | true =>
      have hline := (((Platform.vue.classScope m).infix_line "const " " = defineProps<" hopening
        rfl).trans (Text.infix_append_left _ m.pascalName)).trans
          (Text.infix_append_left _ "Props>();")
      refine infix_file hline ?_
      show s!"const \x7b {Vue.pattern m} \x7d = defineProps<{m.pascalName}Props>();" ∈ _
      simp only [script, propsDeclaration, htyped, if_true, List.mem_append, List.mem_cons, true_or,
        or_true]
    | false =>
      let names := Text.join ", " ((declared m).map fun p => s!"'{p.ident}'")
      have hline := (((Platform.vue.classScope m).infix_line "const " " = defineProps([" hopening
        rfl).trans (Text.infix_append_left _ names)).trans (Text.infix_append_left _ "]);")
      refine infix_file hline ?_
      show s!"const \x7b {Vue.pattern m} \x7d = defineProps([{names}]);" ∈ _
      simp only [script, propsDeclaration, htyped, Bool.false_eq_true, if_false, names,
        List.mem_append, List.mem_cons, true_or, or_true]
  expressions e he := by
    refine infix_file (m.infix_classList he "const classes = computed(() => " ");") ?_
    show s!"const classes = computed(() => {m.classList});" ∈ _
    simp only [script, List.mem_append, List.mem_cons, true_or, or_true]

theorem Angular.writesClassScope : Platform.WritesClassScope .angular m where
  pattern hne := by
    have hnames : (usedNames m).isEmpty = false := List.isEmpty_eq_false_iff.2 hne
    refine infix_file ((Platform.angular.classScope m).infix_line "    const " " = this;" rfl
      rfl) ?_
    show "    const \x7b " ++ Text.join ", " (usedNames m) ++ " \x7d = this;" ∈ _
    simp only [classesProperty, hnames, Bool.false_eq_true, if_false, List.mem_append,
      List.mem_cons]
    exact .inl (.inr (.inl (.inr (.inl rfl))))
  expressions e he := by
    refine infix_file (m.infix_classList he "    return " ";") ?_
    show s!"    return {m.classList};" ∈ _
    simp only [classesProperty, List.mem_append, List.mem_cons, true_or, or_true]

theorem Svelte.writesClassScope : Platform.WritesClassScope .svelte m where
  pattern _ := by
    have hopening : "  let \x7b " = "  let " ++ "\x7b " := rfl
    let pattern := Text.join ", " (bindings m)
    cases htyped : m.typed with
    | true =>
      refine infix_file ((Platform.svelte.classScope m).infix_line "  let " ": Props = $props();"
        hopening rfl) ?_
      show s!"  let \x7b {pattern} \x7d: Props = $props();" ∈ _
      simp only [script, propsDeclaration, htyped, if_true, pattern, List.mem_append, List.mem_cons,
        true_or, or_true]
    | false =>
      refine infix_file ((Platform.svelte.classScope m).infix_line "  let " " = $props();"
        hopening rfl) ?_
      show s!"  let \x7b {pattern} \x7d = $props();" ∈ _
      simp only [script, propsDeclaration, htyped, Bool.false_eq_true, if_false, pattern,
        List.mem_append, List.mem_cons, true_or, or_true]
  expressions e he := by
    refine infix_file (m.infix_classList he "  const classes = $derived(" ");") ?_
    show s!"  const classes = $derived({m.classList});" ∈ _
    simp only [script, List.mem_append, List.mem_cons, true_or, or_true]

theorem Tailwind.writesClassScope : Platform.WritesClassScope .tailwind m where
  pattern _ := by
    have hopening : "export function " ++ m.camelName ++ "Classes(\x7b " =
        "export function " ++ m.camelName ++ "Classes(" ++ "\x7b " := by
      rw [@String.append_assoc _ "Classes("]
      rfl
    let pattern := Text.join ", " (bindings m)
    let annotation := s!"{m.pascalName}ClassOptions = \x7b\x7d): string \x7b"
    have hline := ((Platform.tailwind.classScope m).infix_line _ ": " hopening rfl).trans
      (Text.infix_append_left _ annotation)
    refine infix_file hline ?_
    show s!"export function {m.camelName}Classes(\x7b {pattern} \x7d: " ++ annotation ∈ _
    simp only [classFunction, pattern, annotation, List.mem_append, List.mem_cons, true_or, or_true]
  expressions e he := by
    have hline := List.mem_map_of_mem (f := fun part => s!"    {part},") he
    refine infix_file (infix_between "    " e ",") ?_
    simp only [classFunction, List.mem_append]
    exact .inr (.inl (.inr hline))

theorem Platform.writesClassScope (h : platform ∈ scripted) : platform.WritesClassScope m := by
  cases platform with
  | react => exact React.writesClassScope
  | vue => exact Vue.writesClassScope
  | angular => exact Angular.writesClassScope
  | svelte => exact Svelte.writesClassScope
  | tailwind => exact Tailwind.writesClassScope
  | flutter | swiftUI | compose | css => simp [scripted] at h

/-! ## What is used and what is bound -/

/-- A list of classes uses the props that choose a styling, and those of conditions. -/
theorem ComponentModel.uses_iff {P : String → Prop} :
    (∀ part ∈ m.classParts, ∀ name ∈ part.uses, P name) ↔
      (∀ q ∈ m.modifiers, P q.ident) ∧ ∀ v ∈ m.compounds, ∀ condition ∈ v.conditions,
        P condition.prop := by
  simp only [classParts, List.forall_mem_append, List.forall_mem_map, List.forall_mem_singleton]
  constructor
  · rintro ⟨⟨-, hmodifiers⟩, hcompounds⟩
    exact ⟨fun q hq => hmodifiers q hq _ (.head _), fun v hv condition hcondition =>
      hcompounds v hv _ (List.mem_map_of_mem hcondition)⟩
  · rintro ⟨hmodifiers, hcompounds⟩
    refine ⟨⟨nofun, fun q hq name hname => ?_⟩, fun v hv name hname => ?_⟩
    · rw [List.mem_singleton.1 hname]
      exact hmodifiers q hq
    · obtain ⟨condition, hcondition, rfl⟩ := List.mem_map.1 hname
      exact hcompounds v hv condition hcondition

theorem takeWhile_of_notMem {name : String} (h : ' ' ∉ name.toList) (rest : List Char) :
    (name.toList ++ rest).takeWhile (· ≠ ' ') = name.toList ++ rest.takeWhile (· ≠ ' ') :=
  List.takeWhile_append_of_pos fun _ hc => decide_eq_true fun heq => h (heq ▸ hc)

theorem boundName_self {name : String} (h : ' ' ∉ name.toList) : boundName name = name := by
  have htake := takeWhile_of_notMem h []
  rw [List.append_nil, List.takeWhile_nil, List.append_nil] at htake
  rw [boundName, htake, String.ofList_toList]

/-- The entry for a prop binds its identifier. -/
theorem boundName_binding {q : PropModel} (h : ' ' ∉ q.ident.toList) :
    boundName q.binding = q.ident := by
  unfold PropModel.binding
  cases q.default with
  | none => exact boundName_self h
  | some value =>
    have hentry : (s!"{q.ident} = {value}").toList =
        q.ident.toList ++ ' ' :: '=' :: ' ' :: value.toList := by
      change (q.ident ++ " = " ++ value).toList = _
      simp only [String.toList_append, List.append_assoc]
      rfl
    change String.ofList ((s!"{q.ident} = {value}").toList.takeWhile (· ≠ ' ')) = _
    rw [hentry, takeWhile_of_notMem h, List.takeWhile_cons_of_neg (by decide), List.append_nil,
      String.ofList_toList]

theorem mem_boundNames_iff {props : List PropModel} (h : ∀ q ∈ props, ' ' ∉ q.ident.toList)
    {name : String} :
    name ∈ (props.map (·.binding)).map boundName ↔ ∃ q ∈ props, q.ident = name := by
  have hbound : (props.map (·.binding)).map boundName = props.map (·.ident) := by
    rw [List.map_map]
    exact List.map_congr_left fun q hq => boundName_binding (h q hq)
  rw [hbound, List.mem_map]

/-- The names of conditions are added to those that are there. -/
theorem mem_foldl_conditions {name : String} (conditions : List ConditionModel)
    (used : List String) :
    name ∈ conditions.foldl
        (fun used c => if c.prop ∈ used then used else used ++ [c.prop]) used ↔
      name ∈ used ∨ ∃ condition ∈ conditions, condition.prop = name := by
  induction conditions generalizing used with
  | nil => simp
  | cons condition conditions ih =>
    rw [List.foldl_cons, ih, List.exists_mem_cons_iff]
    split_ifs with hused
    · refine ⟨Or.imp_right .inr, ?_⟩
      rintro (hname | rfl | hname)
      · exact .inl hname
      · exact .inl hused
      · exact .inr hname
    · rw [List.mem_append, List.mem_singleton, or_assoc, @eq_comm _ name]

/-- Angular collects the names that the list of classes uses. -/
theorem Angular.mem_usedNames {name : String} :
    name ∈ usedNames m ↔ ∃ part ∈ m.classParts, name ∈ part.uses := by
  have huses := not_congr (m.uses_iff (P := (· ≠ name)))
  simp only [ne_eq, not_forall, not_not, exists_prop, not_and_or, exists_eq_right] at huses
  rw [huses, usedNames, mem_foldl_conditions, List.mem_map]
  refine or_congr_right ⟨?_, ?_⟩
  · rintro ⟨condition, hcondition, hname⟩
    obtain ⟨v, hv, hcondition⟩ := List.mem_flatMap.1 hcondition
    exact ⟨v, hv, condition, hcondition, hname⟩
  · rintro ⟨v, hv, condition, hcondition, hname⟩
    exact ⟨condition, List.mem_flatMap.2 ⟨v, hv, hcondition⟩, hname⟩

end

/-! ## Components -/

variable {c : ComponentSpec} {platform : Platform} {options : TransformOptions} {m : ComponentModel}

theorem Platform.isTypeScript_of_scripted (h : platform ∈ scripted) :
    platform.isTypeScript = true := by
  cases platform with
  | react | vue | angular | svelte | tailwind => rfl
  | flutter | swiftUI | compose | css => simp [scripted] at h

/-- Identifiers of scripts have no spaces. -/
theorem Platform.space_notMem_ident (h : platform.isTypeScript = true) {name : String}
    (hname : Text.IsIdentifier name) :
    ' ' ∉ (platform.types.ident (Text.camel name)).toList := by
  have hcamel : ' ' ∉ (Text.camel name).toList := by
    intro hmem
    have hplain := hname.isPlain_camel _ hmem
    revert hplain
    decide
  rw [ident_of_isTypeScript h, TypeScript.ident]
  split
  · rw [String.toList_append, List.mem_append, not_or]
    exact ⟨hcamel, by decide⟩
  · exact hcamel

namespace ComponentSpec.AppearsAs

variable (h : c.AppearsAs platform m)
include h

/-- The conditions of a model are on the identifiers of the names in the specification. -/
theorem forall_conditions_iff {P : String → Prop} :
    (∀ v ∈ m.compounds, ∀ condition ∈ v.conditions, P condition.prop) ↔
      ∀ v ∈ c.variants.compound, ∀ condition ∈ v.conditions,
        P (platform.types.ident (Text.camel condition.1)) := by
  rw [h.compounds, List.forall_mem_map]
  simp only [List.forall_mem_map]
  rfl

variable (hc : c.error? = none)
include hc

theorem exists_of_condition {v : CompoundVariant} (hv : v ∈ c.variants.compound)
    {condition : String × Json.Value} (hcondition : condition ∈ v.conditions) :
    Text.IsIdentifier condition.1 ∧
      ∃ q ∈ m.props, q.ident = platform.types.ident (Text.camel condition.1) := by
  obtain ⟨p, hp, -⟩ := (conditions_of_error? hc v hv).2 condition hcondition
  obtain ⟨q, hq, happears⟩ := h.exists_of_get? hp
  have hname := h.isIdentifier_name hc q hq
  rw [happears.named] at hname
  exact ⟨hname, q, hq, happears.ident⟩

/-- Props of a model that have an identifier, as props of the specification. -/
theorem exists_ident_iff {f : PropModel → Bool} {g : PropSpec → Bool}
    (hfg : ∀ {p : PropSpec} {name : String} {q : PropModel},
      p.AppearsAs platform.types name q → f q = g p)
    {name : String} (hname : Text.IsIdentifier name) :
    (∃ q ∈ m.props.filter f, q.ident = platform.types.ident (Text.camel name)) ↔
      ∃ p ∈ c.props, g p.2 ∧ Text.camel p.1 = Text.camel name := by
  have hnames := fun p hp => isIdentifier_chars (isIdentifier_of_mem (issues_of_error? hc) p hp)
  constructor
  · rintro ⟨q, hq, hident⟩
    obtain ⟨hprop, hf⟩ := List.mem_filter.1 hq
    obtain ⟨p, hp, happears⟩ := exists_of_forall₂ h.props hprop
    rw [happears.ident, platform.ident_camel_inj (hnames p hp) hname] at hident
    exact ⟨p, hp, hfg happears ▸ hf, hident⟩
  · rintro ⟨p, hp, hg, hcamel⟩
    obtain ⟨q, hq, happears⟩ := exists_of_forall₂ h.props.flip hp
    refine ⟨q, List.mem_filter.2 ⟨hq, (hfg happears).trans hg⟩, ?_⟩
    rw [happears.ident, hcamel]

theorem space_notMem (hplatform : platform.isTypeScript = true) :
    ∀ q ∈ m.props, ' ' ∉ q.ident.toList := by
  intro q hq
  have hname := h.isIdentifier_name hc q hq
  obtain ⟨p, -, happears⟩ := exists_of_forall₂ h.props hq
  rw [happears.named] at hname
  rw [happears.ident]
  exact platform.space_notMem_ident hplatform hname

theorem exists_of_uses {part : ClassPart} (hpart : part ∈ m.classParts) {name : String}
    (hname : name ∈ part.uses) : ∃ q ∈ m.props, q.ident = name := by
  let P := fun name => ∃ q ∈ m.props, q.ident = name
  have hmodifiers : ∀ q ∈ m.modifiers, P q.ident := fun q hq => ⟨q, (List.mem_filter.1 hq).1, rfl⟩
  have hconditions : ∀ v ∈ m.compounds, ∀ condition ∈ v.conditions, P condition.prop :=
    (h.forall_conditions_iff (P := P)).2 fun v hv condition hcondition =>
      (h.exists_of_condition hc hv hcondition).2
  exact ComponentModel.uses_iff.2 ⟨hmodifiers, hconditions⟩ part hpart name hname

variable (hspace : ∀ q ∈ m.props, ' ' ∉ q.ident.toList)
include hspace

/-- React and Svelte bind all props, Angular what is used. -/
theorem bindsClassNames (hplatform : platform ∈ [.react, .svelte, .angular]) :
    platform.BindsClassNames m := by
  intro part hpart name hname
  have hprop := h.exists_of_uses hc hpart hname
  simp only [List.mem_cons, List.not_mem_nil, or_false] at hplatform
  rcases hplatform with rfl | rfl | rfl
  · change name ∈ (m.props.map (·.binding) ++ ["className"]).map boundName
    rw [List.map_append, List.mem_append, mem_boundNames_iff hspace]
    exact .inl hprop
  · change name ∈ (m.props.map (·.binding) ++ ["children"]).map boundName
    rw [List.map_append, List.mem_append, mem_boundNames_iff hspace]
    exact .inl hprop
  · obtain ⟨q, hq, rfl⟩ := hprop
    exact List.mem_map.2 ⟨q.ident, Angular.mem_usedNames.2 ⟨part, hpart, hname⟩,
      boundName_self (hspace q hq)⟩

end ComponentSpec.AppearsAs

/-- Vue does not bind content. -/
theorem ComponentSpec.AppearsAs.bindsClassNames_vue_iff (h : c.AppearsAs .vue m)
    (hc : c.error? = none) (hspace : ∀ q ∈ m.props, ' ' ∉ q.ident.toList) :
    Platform.vue.BindsClassNames m ↔ ∀ v ∈ c.variants.compound, ∀ condition ∈ v.conditions,
      ∃ p ∈ c.props, !p.2.descriptor.isContent ∧ Text.camel p.1 = Text.camel condition.1 := by
  have hmodifiers : ∀ q ∈ m.modifiers, q ∈ m.props.filter (!·.isContent) := by
    intro q hq
    obtain ⟨hprop, hmodifier⟩ := List.mem_filter.1 hq
    obtain ⟨p, -, hp⟩ := exists_of_forall₂ h.props hprop
    rw [hp.isModifier] at hmodifier
    refine List.mem_filter.2 ⟨hprop, ?_⟩
    rw [hp.content, TypeDescriptor.isContent_of_enumerated hmodifier, Bool.not_false]
  have hbound : ∀ name, name ∈ (Platform.vue.classScope m).entries.map boundName ↔
      ∃ q ∈ m.props.filter (!·.isContent), q.ident = name := fun name =>
    mem_boundNames_iff fun q hq => hspace q (List.mem_filter.1 hq).1
  unfold Platform.BindsClassNames
  rw [ComponentModel.uses_iff, and_iff_right fun q hq => (hbound _).2 ⟨q, hmodifiers q hq, rfl⟩,
    h.forall_conditions_iff]
  refine forall₂_congr fun v hv => forall₂_congr fun condition hcondition => ?_
  rw [hbound]
  exact h.exists_ident_iff hc (g := fun p => !p.descriptor.isContent)
    (fun hq => by rw [hq.content]) (h.exists_of_condition hc hv hcondition).1

/-- Tailwind binds enumerated props only, and the class name that is passed on. -/
theorem ComponentSpec.AppearsAs.bindsClassNames_tailwind_iff (h : c.AppearsAs .tailwind m)
    (hc : c.error? = none) (hspace : ∀ q ∈ m.props, ' ' ∉ q.ident.toList) :
    Platform.tailwind.BindsClassNames m ↔ ∀ v ∈ c.variants.compound, ∀ condition ∈ v.conditions,
      Text.camel condition.1 = "className" ∨ ∃ p ∈ c.props,
        p.2.descriptor.enumerated?.isSome ∧ Text.camel p.1 = Text.camel condition.1 := by
  have hown : ∀ name, Text.IsIdentifier name →
      (Platform.tailwind.types.ident (Text.camel name) = "className" ↔
        Text.camel name = "className") := by
    intro name hname
    have hcamel : Text.camel "className" = "className" := by decide +kernel
    have hident : Platform.tailwind.types.ident (Text.camel "className") = "className" := by
      decide +kernel
    have hinj := Platform.ident_camel_inj .tailwind hname
      (isIdentifier_chars (by decide : isIdentifier "className"))
    rwa [hident, hcamel] at hinj
  have hmodifiers : ∀ q ∈ m.modifiers, ' ' ∉ q.ident.toList :=
    fun q hq => hspace q (List.mem_filter.1 hq).1
  have hbound : ∀ name, name ∈ (Platform.tailwind.classScope m).entries.map boundName ↔
      name = "className" ∨ ∃ q ∈ m.modifiers, q.ident = name := by
    intro name
    change name ∈ (m.modifiers.map (·.binding) ++ ["className"]).map boundName ↔ _
    rw [List.map_append, List.mem_append, mem_boundNames_iff hmodifiers, or_comm]
    exact or_congr_left List.mem_singleton
  unfold Platform.BindsClassNames
  rw [ComponentModel.uses_iff, and_iff_right fun q hq => (hbound _).2 (.inr ⟨q, hq, rfl⟩),
    h.forall_conditions_iff]
  refine forall₂_congr fun v hv => forall₂_congr fun condition hcondition => ?_
  have hname := (h.exists_of_condition hc hv hcondition).1
  rw [hbound, hown _ hname]
  exact or_congr_right (h.exists_ident_iff hc (g := fun p => p.descriptor.enumerated?.isSome)
    (fun hq => hq.isModifier) hname)

/-- Which names the list of classes of a component uses, and which of them are bound. -/
structure ComponentSpec.ScopesClassNames (c : ComponentSpec) (platform : Platform)
    (m : ComponentModel) : Prop where
  /-- The pattern and the list of classes stand in the source. -/
  written : platform.WritesClassScope m
  /-- React and Svelte bind all props, Angular all names that are used. -/
  always : platform ∈ [.react, .svelte, .angular] → platform.BindsClassNames m
  /-- Vue binds the props that are not content. -/
  vue : platform = .vue → (platform.BindsClassNames m ↔
    ∀ v ∈ c.variants.compound, ∀ condition ∈ v.conditions, ∃ p ∈ c.props,
      !p.2.descriptor.isContent ∧ Text.camel p.1 = Text.camel condition.1)
  /-- Tailwind binds the props that are enumerated, and a class name. -/
  tailwind : platform = .tailwind → (platform.BindsClassNames m ↔
    ∀ v ∈ c.variants.compound, ∀ condition ∈ v.conditions, Text.camel condition.1 = "className" ∨
      ∃ p ∈ c.props, p.2.descriptor.enumerated?.isSome ∧ Text.camel p.1 = Text.camel condition.1)

/-- **React, Svelte and Angular bind all names that the list of classes uses. Vue does not where a
compound variant has a condition on content, Tailwind where it has one on a prop that is not
enumerated.** -/
theorem ComponentSpec.scopes_classNames (hc : c.error? = none)
    (hplatform : platform ∈ Platform.scripted) (h : c.model platform options = .ok m)
    (ts : FlatTokens) : c.ScopesClassNames platform (m.withTokens ts) := by
  have happears := appears_of_model h ts
  have hspace := happears.space_notMem hc (Platform.isTypeScript_of_scripted hplatform)
  refine ⟨Platform.writesClassScope hplatform, happears.bindsClassNames hc hspace, ?_, ?_⟩
  · rintro rfl
    exact happears.bindsClassNames_vue_iff hc hspace
  · rintro rfl
    exact happears.bindsClassNames_tailwind_iff hc hspace

/-- A button with two sizes and an icon, and a styling for when some props have given values. -/
def sizedButton (conditions : Entries Json.Value) : ComponentSpec where
  name := "Button"
  category := .interactive
  accessibility := { role := "button" }
  props := [("size", { descriptor := .primitive .string (some [.string "sm", .string "lg"]) }),
    ("disabled", { descriptor := .primitive .boolean none }),
    ("icon", { descriptor := .complex .node })]
  variants := { compound := [{ conditions := conditions, className := some "button-hero" }] }

theorem ComponentSpec.scopes_classNames_sizedButton :
    (sizedButton [("size", .string "lg")]).error? = none ∧
      ∃ m, (sizedButton [("size", .string "lg")]).model .tailwind {} = .ok m ∧
        Platform.tailwind.BindsClassNames (m.withTokens []) := by
  have hc : (sizedButton [("size", .string "lg")]).error? = none := by decide +kernel
  obtain ⟨m, hm⟩ : ∃ m, (sizedButton [("size", .string "lg")]).model .tailwind {} = .ok m :=
    exists_of_isOk (by decide +kernel)
  refine ⟨hc, m, hm, ((scopes_classNames hc (by decide) hm []).tailwind rfl).2 ?_⟩
  intro v hv condition hcondition
  obtain rfl := List.mem_singleton.1 hv
  obtain rfl := List.mem_singleton.1 hcondition
  exact .inr ⟨_, .head _, rfl, rfl⟩

/-- A button with a styling for when it is disabled, and one with a styling for an icon, pass
validation. But Tailwind does not bind `disabled`, and Vue does not bind `icon`. -/
theorem ComponentSpec.scopes_classNames_disabledButton :
    (sizedButton [("disabled", .bool true)]).error? = none ∧
    (sizedButton [("icon", .string "star")]).error? = none ∧
    (∃ m, (sizedButton [("disabled", .bool true)]).model .tailwind {} = .ok m ∧
      m.classParts.map (·.uses) = [[], ["size"], ["disabled"]] ∧
      (Platform.tailwind.classScope m).entries = ["size", "className"] ∧
      ¬ Platform.tailwind.BindsClassNames m) ∧
    ∃ m, (sizedButton [("icon", .string "star")]).model .vue {} = .ok m ∧
      m.classParts.map (·.uses) = [[], ["size"], ["icon"]] ∧
      (Platform.vue.classScope m).entries = ["size", "disabled"] ∧
      ¬ Platform.vue.BindsClassNames m := by
  have hscope : ∀ (platform : Platform) (spec : ComponentSpec) (uses : List (List String))
      (entries : List String), ((spec.model platform {}).map fun m =>
        (m.classParts.map (·.uses), (platform.classScope m).entries,
          decide (platform.BindsClassNames m))).toOption = some (uses, entries, false) →
      ∃ m, spec.model platform {} = .ok m ∧ m.classParts.map (·.uses) = uses ∧
        (platform.classScope m).entries = entries ∧ ¬ platform.BindsClassNames m := by
    intro platform spec uses entries hfound
    obtain ⟨m, hm, hscope⟩ := exists_of_map_eq hfound
    obtain ⟨huses, hrest⟩ := Prod.mk.inj hscope
    obtain ⟨hentries, hbinds⟩ := Prod.mk.inj hrest
    exact ⟨m, hm, huses, hentries, of_decide_eq_false hbinds⟩
  refine ⟨by decide +kernel, by decide +kernel, hscope _ _ _ _ ?_, hscope _ _ _ _ ?_⟩
  · decide +kernel
  · decide +kernel

end DesignSystem
