import DesignSystem.Proofs.Component.Identifiers
import DesignSystem.Proofs.Descriptor.Issues

/-!
# Which names of a component are identifiers

Types are made of the names of fields and parameters. TypeScript has them as they are, the languages
with named types have them in the names of what they declare.

* `TypeScript.type_written`: the type of a descriptor has the types of those at its mapped positions.
* `TypeScript.name_written`: it has the names of their fields and parameters.
* `NominalLanguage.part_inversion`: how names are extended for the parts of a descriptor.
* `NominalLanguage.isIdentifier_declared`: what is declared under identifiers has identifiers for
  names.
* `ComponentSpec.checks_names`: validation checks the names of props and fields, and no others.
-/

set_option autoImplicit false

namespace DesignSystem

/-! ## TypeScript -/

namespace TypeScript

variable {f : Framework} {text : String} {d inner : TypeDescriptor}
  {named : List (String × TypeDescriptor)} {p : String × TypeDescriptor}

theorem forall₂_of_all {types : List TypeDescriptor} {texts : List String}
    (h : all f types = .ok texts) : List.Forall₂ (fun d text => type f d = .ok text) types texts := by
  induction types generalizing texts with
  | nil =>
    cases h
    exact .nil
  | cons first rest ih =>
    obtain ⟨member, hmember, h⟩ := bind_eq_ok h
    obtain ⟨members, hmembers, h⟩ := bind_eq_ok h
    cases h
    exact .cons hmember (ih hmembers)

/-- A field or parameter is written as its name and its type. -/
def WrittenAs (f : Framework) (p : String × TypeDescriptor) (text : String) : Prop :=
  ∃ part, type f p.2 = .ok part ∧ text = p.1 ++ ": " ++ part

theorem forall₂_of_named {params : List (String × TypeDescriptor)} {texts : List String}
    (h : TypeScript.named f params = .ok texts) : List.Forall₂ (WrittenAs f) params texts := by
  induction params generalizing texts with
  | nil =>
    cases h
    exact .nil
  | cons first rest ih =>
    obtain ⟨part, hpart, h⟩ := bind_eq_ok h
    obtain ⟨parts, hparts, h⟩ := bind_eq_ok h
    cases h
    exact .cons ⟨part, hpart, rfl⟩ (ih hparts)

theorem exists_mem_all {types : List TypeDescriptor} {texts : List String}
    (h : all f types = .ok texts) (hd : d ∈ types) : ∃ member ∈ texts, type f d = .ok member :=
  exists_of_forall₂ (forall₂_of_all h).flip hd

theorem exists_mem_named {texts : List String} (h : TypeScript.named f named = .ok texts)
    (hp : p ∈ named) : ∃ part, type f p.2 = .ok part ∧ p.1 ++ ": " ++ part ∈ texts := by
  obtain ⟨field, hfield, part, hpart, rfl⟩ := exists_of_forall₂ (forall₂_of_named h).flip hp
  exact ⟨part, hpart, hfield⟩

theorem infix_group (type : String) : type.toList <:+: (group type).toList := by
  unfold group
  split
  · exact (Text.infix_append_right "(" type).trans (Text.infix_append_left _ ")")
  · exact List.infix_rfl

theorem infix_union {members : List String} {member : String} (h : member ∈ members) :
    member.toList <:+: (union members).toList := by
  unfold union
  cases hcommon : commonMember? members with
  | none => exact Text.infix_join h
  | some single =>
    rw [eq_of_commonMember? hcommon h]
    exact List.infix_rfl

theorem infix_object {fields : List String} {field : String} (h : field ∈ fields) (strict : Bool) :
    field.toList <:+: (object fields strict).toList := by
  have hmem : field ∈ fields ++ if strict then [] else ["[key: string]: unknown"] :=
    List.mem_append_left _ h
  unfold object
  generalize fields ++ _ = parts at hmem ⊢
  dsimp only
  rw [if_neg fun hempty => List.ne_nil_of_mem hmem (List.isEmpty_iff.1 hempty)]
  exact (Text.infix_join hmem).trans
    ((Text.infix_append_right "\x7b " _).trans (Text.infix_append_left _ " \x7d"))

/-- A field stands in the type of its object, its name in front of its type. -/
theorem field_written {properties : List (String × TypeDescriptor)} {strict : Bool}
    (hp : p ∈ properties) (h : type f (.object properties strict) = .ok text) :
    ∃ part, type f p.2 = .ok part ∧ (p.1 ++ ": " ++ part).toList <:+: text.toList := by
  rw [type] at h
  obtain ⟨fields, hfields, h⟩ := bind_eq_ok h
  cases h
  obtain ⟨part, hpart, hmem⟩ := exists_mem_named hfields hp
  exact ⟨part, hpart, infix_object hmem strict⟩

/-- A parameter stands in the type of its callback, its name in front of its type. -/
theorem param_written {params : List (String × TypeDescriptor)} {returns : Option TypeDescriptor}
    (hp : p ∈ params) (h : type f (.signed .function params returns) = .ok text) :
    ∃ part, type f p.2 = .ok part ∧ (p.1 ++ ": " ++ part).toList <:+: text.toList := by
  rw [type] at h
  obtain ⟨parts, hparts, h⟩ := bind_eq_ok h
  obtain ⟨last, hend, h⟩ := bind_eq_ok h
  cases h
  obtain ⟨part, hpart, hmem⟩ := exists_mem_named hparts hp
  rw [String.append_assoc]
  exact ⟨part, hpart, (Text.infix_join hmem).trans
    ((Text.infix_append_right "(" _).trans (Text.infix_append_left _ _))⟩

/-- The type of a descriptor has the types of the descriptors at its mapped positions. -/
theorem type_written (hinner : TypeDescriptor.Position true d inner) (h : type f d = .ok text) :
    ∃ part, type f inner = .ok part ∧ part.toList <:+: text.toList := by
  induction hinner generalizing text with
  | self d => exact ⟨text, h, List.infix_rfl⟩
  | member hmem _ ih =>
    rw [type] at h
    split_ifs at h
    obtain ⟨members, hmembers, h⟩ := bind_eq_ok h
    cases h
    obtain ⟨member, hin, hmember⟩ := exists_mem_all hmembers hmem
    obtain ⟨part, hpart, hwithin⟩ := ih hmember
    exact ⟨part, hpart, (hwithin.trans (infix_group member)).trans
      (infix_union (List.mem_map_of_mem hin))⟩
  | item _ ih =>
    rw [type] at h
    obtain ⟨items, hitems, h⟩ := bind_eq_ok h
    cases h
    obtain ⟨part, hpart, hwithin⟩ := ih hitems
    exact ⟨part, hpart, (hwithin.trans (infix_group items)).trans (Text.infix_append_left _ "[]")⟩
  | param hmem _ ih =>
    obtain ⟨param, hparam, hwhole⟩ := param_written hmem h
    obtain ⟨part, hpart, hwithin⟩ := ih hparam
    exact ⟨part, hpart, (hwithin.trans (Text.infix_append_right _ _)).trans hwhole⟩
  | result _ ih =>
    rw [type] at h
    obtain ⟨parts, hparts, h⟩ := bind_eq_ok h
    obtain ⟨last, hend, h⟩ := bind_eq_ok h
    cases h
    obtain ⟨part, hpart, hwithin⟩ := ih hend
    exact ⟨part, hpart, hwithin.trans (Text.infix_append_right _ _)⟩
  | field _ hmem _ ih =>
    obtain ⟨field, hfield, hwhole⟩ := field_written hmem h
    obtain ⟨part, hpart, hwithin⟩ := ih hfield
    exact ⟨part, hpart, (hwithin.trans (Text.infix_append_right _ _)).trans hwhole⟩

/-- The type of a descriptor has the names of the fields and parameters at its mapped positions, as
they are. -/
theorem name_written (hinner : TypeDescriptor.Position true d inner) {name : String}
    (hname : name ∈ inner.fieldNames ++ inner.paramNames) (h : type f d = .ok text) :
    (name ++ ": ").toList <:+: text.toList := by
  obtain ⟨part, hpart, hwithin⟩ := type_written hinner h
  have hfront : ∀ {p : String × TypeDescriptor},
      (∃ type, TypeScript.type f p.2 = .ok type ∧ (p.1 ++ ": " ++ type).toList <:+: part.toList) →
      (p.1 ++ ": ").toList <:+: text.toList := by
    rintro p ⟨type, -, hwhole⟩
    exact ((Text.infix_append_left _ type).trans hwhole).trans hwithin
  cases inner with
  | object properties strict =>
    rcases List.mem_append.1 hname with hname | hname
    · obtain ⟨p, hp, rfl⟩ := List.mem_map.1 hname
      exact hfront (field_written hp hpart)
    · cases hname
  | signed kind params returns =>
    cases kind with
    | function =>
      obtain ⟨p, hp, rfl⟩ := List.mem_map.1 hname
      exact hfront (param_written hp hpart)
    | node | element | ref | date | file => cases hname
  | primitive | complex | custom | union | array => cases hname

end TypeScript

/-! ## Languages with named types -/

theorem isIdentifier_append {hint more : String} (h : isIdentifier hint) (hmore : Text.IsPlain more) :
    isIdentifier (hint ++ more) := by
  obtain ⟨c, cs, hhint, hfirst, hrest⟩ := isIdentifier_iff.1 h
  refine isIdentifier_iff.2 ⟨c, cs ++ more.toList, ?_, hfirst, ?_⟩
  · rw [String.toList_append, hhint, List.cons_append]
  · exact List.forall_mem_append.2 ⟨hrest, fun d hd => .inl (hmore d hd)⟩

/-- A name that starts with a letter is an identifier in PascalCase. -/
theorem isIdentifier_pascal {name : String} (h : isPascalCase name) :
    isIdentifier (Text.pascal name) := by
  have hchars : ∃ c cs, name.toList = c :: cs ∧ c.isUpper ∧ ∀ d ∈ cs, Text.isPlainAlphanumeric d := by
    unfold isPascalCase at h
    cases hname : name.toList with
    | nil => simp [hname] at h
    | cons c cs => exact ⟨c, cs, rfl, by simpa [hname] using h⟩
  obtain ⟨c, cs, hname, hupper, hrest⟩ := hchars
  have hplain := Text.plain_of_isUpper hupper
  obtain ⟨hne, hdigit⟩ := Text.of_ascii (P := fun c => c.isUpper → c ≠ '_' ∧ c.isDigit = false)
    (by decide +kernel) (Text.isPrintable_of_plain hplain).lt hupper
  have hidentifier : Text.IsIdentifier name := by
    rw [Text.IsIdentifier, hname]
    exact List.forall_mem_cons.2 ⟨.inl hplain, fun d hd => .inl (hrest d hd)⟩
  refine (isIdentifier_iff_of_isPlain (hidentifier.isPlain_apply rfl)).2 ?_
  rw [hidentifier.head?_apply rfl, hname, List.find?_cons_of_pos (by simpa using hne)]
  exact congrArg some hdigit

namespace NominalLanguage

variable {l : NominalLanguage} {d inner : TypeDescriptor} {hint : String}
  {part : String × TypeDescriptor}

/-- A name is extended by that of a field or parameter, or by a word or number for the place. -/
def IsExtension (d : TypeDescriptor) (extension : String) : Prop :=
  (∃ name ∈ d.fieldNames ++ d.paramNames, extension = Text.pascal name) ∨
    extension = "Item" ∨ extension = "Result" ∨
    ∃ index : Nat, extension = "Option" ++ toString (index + 1)

/-- A part extends the name of the whole, and what stands at its mapped positions stands at those of
the whole. -/
theorem part_inversion (hpart : part ∈ parts d) : IsExtension d part.1 ∧
    ∀ inner, TypeDescriptor.Position false part.2 inner →
      TypeDescriptor.Position false d inner := by
  cases d with
  | primitive | complex | custom => cases hpart
  | signed kind params returns =>
    cases kind with
    | function =>
      rcases List.mem_append.1 hpart with hpart | hpart
      · obtain ⟨p, hp, rfl⟩ := List.mem_map.1 hpart
        exact ⟨.inl ⟨p.1, List.mem_map_of_mem hp, rfl⟩, fun _ h => .param hp h⟩
      · cases returns with
        | none => cases hpart
        | some d =>
          obtain rfl := List.mem_singleton.1 hpart
          exact ⟨.inr (.inr (.inl rfl)), fun _ => .result⟩
    | node | element | ref | date | file => cases hpart
  | union types =>
    obtain ⟨⟨d, index⟩, hd, rfl⟩ := List.mem_map.1 hpart
    exact ⟨.inr (.inr (.inr ⟨index, rfl⟩)), fun _ => .member (List.fst_mem_of_mem_zipIdx hd)⟩
  | array items low high unique =>
    obtain rfl := List.mem_singleton.1 hpart
    exact ⟨.inr (.inl rfl), fun _ => .item⟩
  | object properties strict =>
    cases strict with
    | false => cases hpart
    | true =>
      obtain ⟨p, hp, rfl⟩ := List.mem_map.1 hpart
      exact ⟨.inl ⟨p.1, List.mem_append_left _ (List.mem_map_of_mem hp), rfl⟩,
        fun _ h => .field (.inl rfl) hp h⟩

/-- Extensions are letters and digits, if the names of fields and parameters are identifiers. -/
theorem IsExtension.isPlain {extension : String} (hextension : IsExtension d extension)
    (h : ∀ name ∈ d.fieldNames ++ d.paramNames, isIdentifier name) : Text.IsPlain extension := by
  have hword : ∀ word ∈ ["Item", "Result", "Option"], Text.IsPlain word := by
    have hall : ["Item", "Result", "Option"].all fun word =>
        word.toList.all Text.isPlainAlphanumeric := rfl
    exact fun word hmem => List.all_eq_true.1 (List.all_eq_true.1 hall word hmem)
  rcases hextension with ⟨name, hname, rfl⟩ | rfl | rfl | ⟨index, rfl⟩
  · exact (isIdentifier_chars (h name hname)).isPlain_apply rfl
  · exact hword _ (by simp)
  · exact hword _ (by simp)
  · intro c hc
    rw [String.toList_append, List.mem_append] at hc
    rcases hc with hc | hc
    · exact hword "Option" (by simp) c hc
    · exact Text.plain_of_isDigit (Json.allDigits_toString (index + 1) c hc)

/-- What is declared under an identifier has identifiers for names, if the names of fields and
parameters are such. -/
theorem isIdentifier_declared (h : ∀ inner, TypeDescriptor.Position false d inner →
    ∀ name ∈ inner.fieldNames ++ inner.paramNames, isIdentifier name) (hhint : isIdentifier hint) :
    ∀ declaration ∈ (l.map d hint).declared, isIdentifier declaration.name := by
  induction d using parts_induct generalizing hint with
  | h d ih =>
    intro declaration hdeclaration
    obtain ⟨own, hown, hsublist⟩ := map_declared (l := l) hint d
    rcases List.mem_append.1 (hsublist.subset hdeclaration) with hmem | hmem
    · obtain ⟨part, hpart, hmem⟩ := List.mem_flatMap.1 hmem
      obtain ⟨hextension, hpositions⟩ := part_inversion hpart
      exact ih part hpart (fun inner hinner => h inner (hpositions inner hinner))
        (isIdentifier_append hhint (hextension.isPlain (h d (.self d)))) declaration hmem
    · rcases hown with rfl | ⟨source, rfl⟩
      · cases hmem
      · rw [List.mem_singleton.1 hmem]
        exact hhint

end NominalLanguage

/-! ## Components -/

/-- A component with other names for the parameters of all signatures. -/
def ComponentSpec.renameParams (rename : String → String) (c : ComponentSpec) : ComponentSpec :=
  { c with props := c.props.mapValues fun p =>
      { p with descriptor := p.descriptor.renameParams rename } }

section
variable {rename : String → String}

theorem PropSpec.issues_renameParams (p : PropSpec) (name : String) (props : Entries PropSpec) :
    PropSpec.issues { p with descriptor := p.descriptor.renameParams rename } name
        (props.mapValues fun p => { p with descriptor := p.descriptor.renameParams rename }) =
      p.issues name props := by
  have hhas : ∀ other, Entries.has other
      (props.mapValues fun p => { p with descriptor := p.descriptor.renameParams rename }) =
        props.has other := by
    intro other
    rw [Entries.has, Entries.get?_mapValues, Option.isSome_map]
    rfl
  simp only [issues, Deprecation.issues, TypeDescriptor.issues_renameParams,
    TypeDescriptor.fits_renameParams, TypeDescriptor.summary_renameParams, hhas]

theorem conditionIssues_renameParams (index : Nat) (props : Entries PropSpec)
    (condition : String × Json.Value) : conditionIssues index
        (props.mapValues fun p => { p with descriptor := p.descriptor.renameParams rename })
        condition = conditionIssues index props condition := by
  rw [conditionIssues, conditionIssues, Entries.get?_mapValues]
  cases props.get? condition.1 with
  | none => rfl
  | some p =>
    simp only [Option.map_some, TypeDescriptor.fits_renameParams]

/-- The issues of a component do not depend on the names of parameters. -/
theorem ComponentSpec.issues_renameParams (c : ComponentSpec) :
    (c.renameParams rename).issues = c.issues := by
  have hprops : (c.renameParams rename).props.flatMap
      (fun p => p.2.issues p.1 (c.renameParams rename).props) =
        c.props.flatMap fun p => p.2.issues p.1 c.props := by
    change (c.props.map _).flatMap _ = _
    rw [List.flatMap_map]
    exact List.flatMap_congr fun p _ => p.2.issues_renameParams p.1 c.props
  have hcompound : ∀ (v : CompoundVariant) (index : Nat),
      v.issues index (c.renameParams rename).props = v.issues index c.props := by
    intro v index
    rw [CompoundVariant.issues, CompoundVariant.issues]
    exact congrArg (_ ++ ·) (List.flatMap_congr fun condition _ =>
      conditionIssues_renameParams index c.props condition)
  rw [issues, hprops]
  simp only [hcompound]
  rfl

end

variable {c : ComponentSpec}

/-- The names of parameters at mapped positions are identifiers. -/
def ComponentSpec.NamesParams (script : Bool) (c : ComponentSpec) : Prop :=
  ∀ p ∈ c.props, ∀ inner, TypeDescriptor.Position script p.2.descriptor inner →
    ∀ name ∈ inner.paramNames, isIdentifier name

/-- Which names of a component are checked, and which ones are written. -/
structure ComponentSpec.ChecksNames (c : ComponentSpec) : Prop where
  /-- The names of props are identifiers. -/
  props : ∀ p ∈ c.props, isIdentifier p.1
  /-- So are those of the fields of objects, wherever these stand. -/
  fields : ∀ p ∈ c.props, ∀ inner, p.2.descriptor.Contains inner →
    ∀ name ∈ inner.fieldNames, isIdentifier name
  /-- Parameters may have any names. -/
  params : ∀ rename, (c.renameParams rename).error? = none
  /-- In TypeScript the types have the names of fields and parameters as they are. -/
  written : ∀ platform options m, platform.dialect? = none → c.model platform options = .ok m →
    List.Forall₂ (fun p q => ∀ inner, TypeDescriptor.Position true p.2.descriptor inner →
      ∀ name ∈ inner.fieldNames ++ inner.paramNames, (name ++ ": ").toList <:+: q.type.toList)
      c.props m.props
  /-- They are identifiers just if the names of parameters are. -/
  identifiers : (∀ p ∈ c.props, ∀ inner, TypeDescriptor.Position true p.2.descriptor inner →
    ∀ name ∈ inner.fieldNames ++ inner.paramNames, isIdentifier name) ↔ c.NamesParams true
  /-- If they are, then types are declared under identifiers. -/
  declared : c.NamesParams false → ∀ platform, ∀ d ∈ c.needed platform, isIdentifier d.name

/-- The name for the type of a prop is an identifier. -/
theorem ComponentSpec.isIdentifier_propHint (h : c.issues = []) {p : String × PropSpec}
    (hp : p ∈ c.props) : isIdentifier (propHint c.name p.1) :=
  isIdentifier_append (isIdentifier_pascal (isPascalCase_name h))
    ((isIdentifier_chars (isIdentifier_of_mem h p hp)).isPlain_apply rfl)

theorem ComponentSpec.isIdentifier_needed (h : c.issues = []) (hparams : c.NamesParams false)
    (platform : Platform) : ∀ d ∈ c.needed platform, isIdentifier d.name := by
  have hnominal : ∀ l : NominalLanguage, platform.types = l.table →
      ∀ d ∈ c.needed platform, isIdentifier d.name := by
    intro l hl d hd
    obtain ⟨p, hp, hd⟩ := List.mem_flatMap.1 hd
    rw [mapProp, hl] at hd
    -- hints are extended by names in PascalCase, which are plain if the names are identifiers
    refine NominalLanguage.isIdentifier_declared (fun inner hinner name hname => ?_)
      (isIdentifier_propHint h hp) d hd
    rcases List.mem_append.1 hname with hname | hname
    · exact TypeDescriptor.isIdentifier_of_mem_fieldNames (descriptor_issues h p hp) hinner.contains
        name hname
    · exact hparams p hp inner hinner name hname
  cases platform with
  | swiftUI => exact hnominal Swift.language rfl
  | compose => exact hnominal Kotlin.language rfl
  | flutter => exact hnominal Dart.language rfl
  | react | vue | angular | svelte | css | tailwind =>
    rw [needed_of_isTypeScript rfl]
    exact List.forall_mem_nil _

theorem ComponentSpec.names_written {platform : Platform} {options : TransformOptions}
    {m : ComponentModel} (hplatform : platform.dialect? = none)
    (h : c.model platform options = .ok m) :
    List.Forall₂ (fun p q => ∀ inner, TypeDescriptor.Position true p.2.descriptor inner →
      ∀ name ∈ inner.fieldNames ++ inner.paramNames, (name ++ ": ").toList <:+: q.type.toList)
      c.props m.props := by
  obtain ⟨f, hf⟩ := Platform.exists_framework_of_dialect? hplatform
  refine (props_of_model h).imp fun p q hq inner hinner name hname => ?_
  have htype := hq.type
  rw [hf] at htype
  exact TypeScript.name_written hinner hname htype

/-- **Validation checks the names of props and of fields, wherever these stand, but not those of
parameters.** All of them are written into types. -/
theorem ComponentSpec.checks_names (h : c.error? = none) : c.ChecksNames where
  props := isIdentifier_of_mem (issues_of_error? h)
  fields p hp _ hinner :=
    TypeDescriptor.isIdentifier_of_mem_fieldNames (descriptor_issues (issues_of_error? h) p hp) hinner
  params rename := by
    rw [error?, issues_renameParams, issues_of_error? h]
    rfl
  written _ _ _ := names_written
  identifiers := by
    refine ⟨fun hall p hp inner hinner name hname =>
      hall p hp inner hinner name (List.mem_append_right _ hname), ?_⟩
    intro hparams p hp inner hinner name hname
    rcases List.mem_append.1 hname with hname | hname
    · exact TypeDescriptor.isIdentifier_of_mem_fieldNames
        (descriptor_issues (issues_of_error? h) p hp) hinner.contains name hname
    · exact hparams p hp inner hinner name hname
  declared := isIdentifier_needed (issues_of_error? h)

/-- What a form is submitted with. -/
def submitted : TypeDescriptor := .object [("user_name", .text)] false

/-- A form with a callback. -/
def form : ComponentSpec where
  name := "Form"
  category := .form
  accessibility := { role := "form" }
  props := [("onSubmit", { descriptor := .signed .function [("values", submitted)] none })]

theorem ComponentSpec.checks_names_form : isIdentifier "user_name" ∧
    (form.renameParams fun _ => "the values").error? = none ∧
    ∃ m q, form.model .react {} = .ok m ∧ m.props = [q] ∧
      "user_name: ".toList <:+: q.type.toList ∧ "values: ".toList <:+: q.type.toList := by
  have hnames := checks_names (c := form) (by decide +kernel)
  have hobject : TypeDescriptor.Position true (.signed .function [("values", submitted)] none)
      submitted := .param List.mem_cons_self (.self _)
  obtain ⟨m, hm⟩ := exists_of_isOk (by decide +kernel : (form.model .react {}).isOk = true)
  obtain ⟨q, rest, hq, hrest, hprops⟩ :=
    List.forall₂_cons_left_iff.1 (hnames.written .react {} m rfl hm)
  rw [List.forall₂_nil_left_iff.1 hrest] at hprops
  refine ⟨hnames.fields _ List.mem_cons_self _ hobject.contains _ List.mem_cons_self,
    hnames.params _, m, q, hm, hprops, hq _ hobject _ List.mem_cons_self,
    hq _ (.self _) _ List.mem_cons_self⟩

/-- A callback with one parameter, whose name is no identifier. -/
def onPick : TypeDescriptor :=
  .signed .function [("row, column", .primitive .string (some [.string "next", .string "last"]))] none

/-- A table with this callback. -/
def cells : ComponentSpec where
  name := "Cells"
  category := .dataDisplay
  accessibility := { role := "grid" }
  props := [("onPick", { descriptor := onPick })]

/-- The table passes validation. In TypeScript its callback takes two parameters, and in Swift a type
is declared whose name is no identifier. -/
theorem ComponentSpec.checks_names_cells : cells.error? = none ∧ ¬ cells.NamesParams true ∧
    (∃ m, cells.model .react {} = .ok m ∧
      m.props.map (·.type) = ["(row, column: 'next' | 'last') => void"]) ∧
    ∃ m, cells.model .swiftUI {} = .ok m ∧
      m.declarations.map (·.1) = ["CellsOnPickRow,Column"] ∧
      isIdentifier "CellsOnPickRow,Column" = false := by
  have hname : "row, column" ∈ onPick.paramNames := List.mem_cons_self
  refine ⟨by decide +kernel, fun hparams => ?_, exists_of_map_eq (by decide +kernel), ?_⟩
  · exact absurd (hparams _ List.mem_cons_self _ (.self _) _ hname) (by decide)
  · obtain ⟨m, hm, hdeclared⟩ := exists_of_map_eq (f := fun m => m.declarations.map (·.1))
      (by decide +kernel : ((cells.model .swiftUI {}).map _).toOption = some ["CellsOnPickRow,Column"])
    exact ⟨m, hm, hdeclared, by decide⟩

end DesignSystem
