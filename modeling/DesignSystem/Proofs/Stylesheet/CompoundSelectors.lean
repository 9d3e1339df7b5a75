import DesignSystem.Proofs.Component.Styling
import DesignSystem.Proofs.Types.EnumerationCases

/-!
# Compound variants and the classes for single values

A compound variant refers to the values of enumerated props by their classes. The rule for a value
is written from the name of the prop in the schema, the reference from its identifier.

* `TypeDescriptor.label_mem`: a value that fits an enumerated prop is one of those listed.
* `ComponentModel.hasModifierRule_iff`: whether there is a rule for a class that is referred to.
* `ComponentSpec.refersTo_modifiers`: how the compound variants of a component refer to values.
-/

set_option autoImplicit false

namespace DesignSystem

/-! ## Values that are listed -/

/-- Whether no other value is equal: so for scalars, apart from the floating-point zeros. -/
def Json.Value.isExact : Json.Value → Bool
  | number (.real x) => !x.isZero
  | array _ | object _ => false
  | _ => true

theorem Json.Value.eq_of_same {v w : Json.Value} (h : v.same w = true) (hw : w.isExact = true) :
    v = w := by
  cases v <;> cases w <;> first | cases h | cases hw | skip
  case null.null => rfl
  case bool.bool a b => simpa [same] using h
  case string.string a b => simpa [same] using h
  case number.number a b =>
    cases a <;> cases b <;> first | cases h | skip
    case integer.integer i j => simpa [same, Number.same] using h
    case real.real x y =>
      rcases Binary64.eq_of_same h with rfl | ⟨-, hzero⟩
      · rfl
      · simp [isExact, hzero] at hw

theorem TypeDescriptor.label_mem {d : TypeDescriptor} {labels : List String} {v : Json.Value}
    (hlabels : d.enumerated? = some labels) (hfits : d.fits v = true) (hexact : v.isExact = true) :
    v.label ∈ labels := by
  cases d with
  | primitive kind values =>
    obtain ⟨values, rfl, rfl⟩ : ∃ vs, values = some vs ∧ vs.map Json.Value.label = labels := by
      cases values with
      | none => cases hlabels
      | some vs => exact ⟨vs, rfl, Option.some.inj hlabels⟩
    obtain ⟨w, hw, hsame⟩ := List.any_eq_true.1 hfits
    rw [← Json.Value.eq_of_same hsame hexact]
    exact List.mem_map_of_mem hw
  | custom kind values =>
    simp only [fits, hlabels] at hfits
    cases v with
    | string s => exact List.contains_iff_mem.1 hfits
    | _ => cases hfits
  | complex | signed | union | array | object => cases hlabels

/-! ## Classes -/

variable {c : ComponentSpec} {platform : Platform} {options : TransformOptions} {m : ComponentModel}

/-- The class is that of a rule for a value of the prop. -/
def ComponentModel.HasModifierRule (m : ComponentModel) (q : PropModel) (cls : String) : Prop :=
  ∃ r ∈ m.modifierRules q, r.selectors = ["." ++ cls]

/-- A reference from an identifier is to a rule just if camelCase shows where the words of the name
start and the value is listed. -/
theorem ComponentModel.hasModifierRule_iff (hplatform : platform.isTypeScript = true)
    {name label : String} {p : PropSpec} {q : PropModel} (hname : Text.IsIdentifier name)
    (hq : p.AppearsAs platform.types name q) :
    m.HasModifierRule q (m.modifierClass (platform.types.ident (Text.camel name)) label) ↔
      Text.ShowsWords name ∧ label ∈ q.choices := by
  have hclass : ∀ value, (m.modifierRule q value).selectors =
      ["." ++ m.modifierClass (platform.types.ident (Text.camel name)) label] ↔
        Text.ShowsWords name ∧ label = value := by
    intro value
    have hiff := Text.kebab_camel_append_eq_iff hname ("-" ++ label) ("-" ++ value)
    rw [String.append_right_inj] at hiff
    rw [← hiff, modifierRule, List.singleton_inj, String.append_right_inj, modifierClass,
      modifierClass, hq.kebab, Text.kebab_kebab hname, Platform.kebab_ident hplatform]
    simp only [String.append_assoc, String.append_right_inj]
    exact eq_comm
  constructor
  · rintro ⟨r, hr, hselectors⟩
    obtain ⟨value, hvalue, rfl⟩ := List.mem_map.1 hr
    obtain ⟨hwords, rfl⟩ := (hclass value).1 hselectors
    exact ⟨hwords, hvalue⟩
  · rintro ⟨hwords, hlabel⟩
    exact ⟨_, List.mem_map_of_mem hlabel, (hclass label).2 ⟨hwords, rfl⟩⟩

/-- How the class for a condition refers to the values of an enumerated prop: to one of the prop's
own rules just if camelCase shows where the words of its name start and the value is listed, which
it is unless another value is equal to it. -/
def ComponentSpec.RefersTo (c : ComponentSpec) (platform : Platform) (m : ComponentModel)
    (condition : String × Json.Value) (cls : String) : Prop :=
  ∀ p, c.props.get? condition.1 = some p → p.descriptor.enumerated?.isSome → ∃ q ∈ m.modifiers,
    p.AppearsAs platform.types condition.1 q ∧
    (m.HasModifierRule q cls ↔ Text.ShowsWords condition.1 ∧ condition.2.label ∈ q.choices) ∧
    (condition.2.isExact → condition.2.label ∈ q.choices)

/-- How the compound variants of a model refer to the values of props. -/
structure ComponentSpec.RefersToModifiers (c : ComponentSpec) (platform : Platform)
    (m : ComponentModel) : Prop where
  /-- The rules for the values of enumerated props are in the stylesheet. -/
  rules : ∀ q ∈ m.modifiers, ∀ r ∈ m.modifierRules q, r ∈ m.stylesheetRules
  /-- So is one for each compound variant: for the class of the component with those for the
  conditions, and for its own class. -/
  selectors : ∀ v ∈ m.compounds, ∃ r ∈ m.stylesheetRules,
    r.selectors = Text.join "." ("" :: m.kebabName :: m.conditionClasses v) ::
      (v.className.map ("." ++ ·)).toList
  /-- Without a class of its own, scripts apply the classes for the conditions. -/
  applied : ∀ v ∈ m.compounds, v.className = none → ∀ own choice,
    v.guard ++ " && '" ++ Text.join " " (m.conditionClasses v) ++ "'" ∈
      m.classExpressions own choice
  /-- Each condition on an enumerated prop has a class that refers to the prop's values. -/
  conditions : List.Forall₂ (fun v cm =>
    List.Forall₂ (c.RefersTo platform m) v.conditions (m.conditionClasses cm))
    c.variants.compound m.compounds

namespace ComponentModel

theorem compoundRule_mem {v : CompoundModel} (hv : v ∈ m.compounds) :
    m.compoundRule v ∈ m.stylesheetRules :=
  List.mem_append_right _ (List.mem_map_of_mem hv)

theorem compoundSelector_eq (v : CompoundModel) :
    m.compoundSelector v = Text.join "." ("" :: m.kebabName :: m.conditionClasses v) := by
  rw [compoundSelector, Text.join_cons_eq, List.map_cons, ← String.toList_inj]
  simp only [String.toList_append, Text.toList_join_nothing, List.flatMap_cons, List.append_assoc]
  rfl

end ComponentModel

theorem ComponentSpec.AppearsAs.refersTo (h : c.AppearsAs platform m) (hc : c.error? = none)
    (hplatform : platform.isTypeScript = true) {v : CompoundVariant} (hv : v ∈ c.variants.compound)
    {condition : String × Json.Value} (hcondition : condition ∈ v.conditions) :
    c.RefersTo platform m condition
      (m.modifierClass (platform.types.ident (Text.camel condition.1)) condition.2.label) := by
  intro p hp henumerated
  obtain ⟨q, hq, happears⟩ := h.exists_of_get? hp
  obtain ⟨p', hp', hfits⟩ := (conditions_of_error? hc v hv).2 condition hcondition
  obtain rfl : p = p' := Option.some.inj (hp.symm.trans hp')
  obtain ⟨labels, hlabels⟩ := Option.isSome_iff_exists.1 henumerated
  have hname := h.isIdentifier_name hc q hq
  rw [happears.named] at hname
  refine ⟨q, List.mem_filter.2 ⟨hq, by rw [happears.isModifier, henumerated]⟩, happears,
    ComponentModel.hasModifierRule_iff hplatform hname happears, fun hexact => ?_⟩
  rw [PropModel.choices, happears.enumerated, hlabels]
  exact TypeDescriptor.label_mem hlabels hfits hexact

/-- **A compound variant refers to the rules for its values just if camelCase shows where the words
of their props' names start.** -/
theorem ComponentSpec.refersTo_modifiers (hc : c.error? = none)
    (hfamily : platform.family = .web ∨ platform.family = .stylesheet)
    (h : c.model platform options = .ok m) (ts : FlatTokens) :
    c.RefersToModifiers platform (m.withTokens ts) := by
  have happears := appears_of_model h ts
  have hplatform := Platform.isTypeScript_of_family hfamily
  generalize m.withTokens ts = m' at happears
  refine ⟨fun q hq r hr => ComponentModel.mem_stylesheetRules_of_modifier hq hr, ?_, ?_, ?_⟩
  · intro v hv
    refine ⟨_, ComponentModel.compoundRule_mem hv, ?_⟩
    rw [ComponentModel.compoundRule, ComponentModel.compoundSelector_eq]
  · intro v hv hown own choice
    refine List.mem_map.2 ⟨.compound v, List.mem_append_right _ (List.mem_map_of_mem hv), ?_⟩
    rw [ClassPart.expression, ComponentModel.compoundClass, hown]
    rfl
  · rw [happears.compounds, List.forall₂_map_right_iff, List.forall₂_same]
    intro v hv
    rw [ComponentModel.conditionClasses, List.map_map, List.forall₂_map_right_iff,
      List.forall₂_same]
    exact fun condition hcondition => happears.refersTo hc hplatform hv hcondition

/-- A size. -/
def cardSize : TypeDescriptor := .primitive .string (some [.string "sm", .string "lg"])

/-- A card whose padding and gap can both be large. -/
def roomyCard : ComponentSpec where
  name := "Card"
  category := .layout
  accessibility := { role := "group" }
  props := [("padding", { descriptor := cardSize }), ("row_gap", { descriptor := cardSize })]
  variants := { compound := [
    { conditions := [("padding", .string "lg"), ("row_gap", .string "lg")] }] }

theorem ComponentSpec.refersTo_modifiers_roomyCard : roomyCard.error? = none ∧
    ∃ m, roomyCard.model .react {} = .ok m ∧
      m.compounds.map m.conditionClasses = [["card--padding-lg", "card--row-gap-lg"]] ∧
      roomyCard.RefersToModifiers .react (m.withTokens []) ∧
      ∃ q ∈ m.modifiers, q.name = "row_gap" ∧ m.HasModifierRule q "card--row-gap-lg" := by
  have hc : roomyCard.error? = none := by decide +kernel
  obtain ⟨m, hm, hclasses⟩ := exists_of_map_eq (r := roomyCard.model .react {})
    (f := fun m => m.compounds.map m.conditionClasses)
    (b := [["card--padding-lg", "card--row-gap-lg"]]) (by decide +kernel)
  have hrefers := refersTo_modifiers hc (.inl rfl) hm []
  refine ⟨hc, m, hm, hclasses, hrefers, ?_⟩
  obtain ⟨cm, rest, hcm, hrest, hcompounds⟩ := List.forall₂_cons_left_iff.1 hrefers.conditions
  obtain rfl := List.forall₂_nil_left_iff.1 hrest
  have hcms : m.compounds = [cm] := hcompounds
  rw [hcms, List.map_singleton, List.singleton_inj] at hclasses
  have hgap := (List.forall₂_cons.1 (List.forall₂_cons.1 (hclasses ▸ hcm)).2).1
  obtain ⟨q, hq, happears, hrule, hlabel⟩ := hgap { descriptor := cardSize } rfl rfl
  exact ⟨q, hq, happears.named, hrule.2 ⟨by decide +kernel, hlabel rfl⟩⟩

/-- A grid in which both axes can be aligned at once. -/
def alignedGrid : ComponentSpec where
  name := "Grid"
  category := .layout
  accessibility := { role := "grid" }
  props := [("align_x_y",
    { descriptor := .primitive .string (some [.string "start", .string "end"]) })]
  variants := { compound := [{ conditions := [("align_x_y", .string "start")] }] }

/-- The grid passes validation, but its compound variant refers to a class without a rule. -/
theorem ComponentSpec.refersTo_modifiers_alignedGrid : alignedGrid.error? = none ∧
    ∃ m, alignedGrid.model .react {} = .ok m ∧
      m.compounds.map m.conditionClasses = [["grid--align-xy-start"]] ∧
      m.stylesheetRules.map (·.selectors) = [[".grid"], [".grid--align-x-y-start"],
        [".grid--align-x-y-end"], [".grid.grid--align-xy-start"]] ∧
      ∀ q ∈ m.modifiers, ¬ m.HasModifierRule q "grid--align-xy-start" := by
  obtain ⟨m, hm, hfound⟩ := exists_of_map_eq (r := alignedGrid.model .react {})
    (f := fun m => (m.compounds.map m.conditionClasses, m.stylesheetRules.map (·.selectors)))
    (b := ([["grid--align-xy-start"]], [[".grid"], [".grid--align-x-y-start"],
        [".grid--align-x-y-end"], [".grid.grid--align-xy-start"]])) (by decide +kernel)
  obtain ⟨hclasses, hselectors⟩ := Prod.mk.inj hfound
  refine ⟨by decide +kernel, m, hm, hclasses, hselectors, ?_⟩
  rintro q hq ⟨r, hr, hr'⟩
  have hmem := List.mem_map_of_mem (f := (·.selectors))
    (ComponentModel.mem_stylesheetRules_of_modifier hq hr)
  rw [hselectors, hr'] at hmem
  revert hmem
  decide

end DesignSystem
