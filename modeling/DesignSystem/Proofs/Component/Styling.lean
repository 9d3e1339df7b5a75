import DesignSystem.Proofs.Component.Identifiers
import DesignSystem.Proofs.Text.Recutting
import DesignSystem.Stylesheet.Component

/-!
# Props that choose a styling

The classes of a component are for the values of its enumerated props and for compound variants,
whose conditions may name any prop.

* `ComponentSpec.appears_of_model`: what the names and values of a component are in a model.
* `ComponentSpec.conditions_of_error?`: the conditions of a component that passed validation.
* `Platform.kebab_ident`: identifiers of TypeScript in kebab-case.
-/

set_option autoImplicit false

namespace DesignSystem

variable {c : ComponentSpec} {platform : Platform} {options : TransformOptions} {m : ComponentModel}

/-! ## Props -/

/-- What the names and values of a prop are in a model. -/
structure PropSpec.AppearsAs (p : PropSpec) (t : TypeTable) (name : String) (q : PropModel) :
    Prop where
  named : q.name = name
  ident : q.ident = t.ident (Text.camel name)
  kebab : q.kebab = Text.kebab name
  enumerated : q.enumerated = p.descriptor.enumerated?
  callback : q.isCallback = p.descriptor.isCallback
  content : q.isContent = p.descriptor.isContent

theorem PropSpec.appears_of_model {p : PropSpec} {t : TypeTable} {component name : String}
    {q : PropModel} (h : (p.model t component name).result = .ok q) : p.AppearsAs t name q := by
  rw [model, Mapping.result_bind] at h
  obtain ⟨type, -, h⟩ := bind_eq_ok h
  cases h
  exact ⟨rfl, rfl, rfl, rfl, rfl, rfl⟩

/-- Enumerated props choose a styling; callbacks are not enumerated. -/
theorem PropSpec.AppearsAs.isModifier {p : PropSpec} {t : TypeTable} {name : String} {q : PropModel}
    (h : p.AppearsAs t name q) : q.isModifier = p.descriptor.enumerated?.isSome := by
  rw [PropModel.isModifier, h.enumerated, h.callback]
  cases hd : p.descriptor with
  | primitive | custom => simp [TypeDescriptor.isCallback, TypeDescriptor.complexType?]
  | complex | signed | union | array | object => rfl

/-- What is enumerated is no content. -/
theorem TypeDescriptor.isContent_of_enumerated {d : TypeDescriptor} (h : d.enumerated?.isSome) :
    d.isContent = false := by
  cases d with
  | primitive | custom => rfl
  | complex | signed | union | array | object => cases h

/-! ## Components -/

/-- What the names, props and compound variants of a component are in a model. -/
structure ComponentSpec.AppearsAs (c : ComponentSpec) (platform : Platform) (m : ComponentModel) :
    Prop where
  kebabName : m.kebabName = Text.kebab c.name
  props : List.Forall₂ (fun p q => p.2.AppearsAs platform.types p.1 q) c.props m.props
  compounds : m.compounds = c.variants.compound.map fun v =>
    ⟨v.conditions.map fun condition => c.condition platform.types condition.1 condition.2,
      v.className, v.description⟩

/-- So a component appears in its model, whatever tokens belong to it. -/
theorem ComponentSpec.appears_of_model (h : c.model platform options = .ok m) (ts : FlatTokens) :
    c.AppearsAs platform (m.withTokens ts) := by
  obtain ⟨props, hprops, rfl⟩ := map_eq_ok h
  exact ⟨rfl, (Mapping.mapM_eq_ok hprops).1.imp fun p q => PropSpec.appears_of_model, rfl⟩

/-- A prop that the specification has is in the model. -/
theorem ComponentSpec.AppearsAs.exists_of_get? (h : c.AppearsAs platform m) {name : String}
    {p : PropSpec} (hp : c.props.get? name = some p) :
    ∃ q ∈ m.props, p.AppearsAs platform.types name q :=
  exists_of_forall₂ h.props.flip (Entries.mem_of_get? hp)

theorem ComponentSpec.AppearsAs.isIdentifier_name (h : c.AppearsAs platform m)
    (hc : c.error? = none) : ∀ q ∈ m.props, Text.IsIdentifier q.name := by
  intro q hq
  obtain ⟨p, hp, happears⟩ := exists_of_forall₂ h.props hq
  rw [happears.named]
  exact isIdentifier_chars (isIdentifier_of_mem (issues_of_error? hc) p hp)

theorem ComponentModel.mem_stylesheetRules_of_modifier {q : PropModel} (hq : q ∈ m.modifiers)
    {r : Stylesheet.Rule} (hr : r ∈ m.modifierRules q) : r ∈ m.stylesheetRules := by
  have hrule : r ∈ m.modifiers.flatMap m.modifierRules := List.mem_flatMap.2 ⟨q, hq, hr⟩
  simp only [stylesheetRules, List.mem_append]
  exact .inl (.inl (.inr hrule))

/-- Where a component passed validation, each compound variant has conditions, and each condition
has a prop that its value fits. -/
theorem ComponentSpec.conditions_of_error? (h : c.error? = none) : ∀ v ∈ c.variants.compound,
    v.conditions ≠ [] ∧ ∀ condition ∈ v.conditions, ∃ p, c.props.get? condition.1 = some p ∧
      p.descriptor.fits condition.2 = true := by
  intro v hv
  have hissues := issues_of_error? h
  simp only [issues, List.append_eq_nil_iff, List.flatMap_eq_nil_iff] at hissues
  obtain ⟨index, hindex, hget⟩ := List.getElem_of_mem hv
  have hcompound := hissues.2 (v, index) (by
    rw [List.mk_mem_zipIdx_iff_getElem?, List.getElem?_eq_getElem hindex, hget])
  simp only [CompoundVariant.issues, List.append_eq_nil_iff, List.flatMap_eq_nil_iff] at hcompound
  refine ⟨?_, fun condition hcondition => ?_⟩
  · rintro hnil
    simp [issueIf, hnil] at hcompound
  · have hfits := hcompound.2 condition hcondition
    unfold conditionIssues at hfits
    cases hp : c.props.get? condition.1 with
    | none =>
      rw [hp] at hfits
      cases hfits
    | some p =>
      refine ⟨p, rfl, ?_⟩
      rw [hp] at hfits
      by_contra hnot
      simp [issueIf, hnot] at hfits

/-! ## Identifiers -/

theorem Platform.isTypeScript_of_family
    (h : platform.family = .web ∨ platform.family = .stylesheet) :
    platform.isTypeScript = true := by
  cases platform with
  | react | vue | angular | svelte | css | tailwind => rfl
  | swiftUI | compose | flutter => rcases h with h | h <;> cases h

theorem Platform.ident_of_isTypeScript (h : platform.isTypeScript = true) (name : String) :
    platform.types.ident name = TypeScript.ident name := by
  cases platform with
  | react | vue | angular | svelte | css | tailwind => rfl
  | swiftUI | compose | flutter => cases h

/-- Names have one identifier just if they are the same in camelCase. -/
theorem Platform.ident_camel_inj (platform : Platform) {name name' : String}
    (h : Text.IsIdentifier name) (h' : Text.IsIdentifier name') :
    platform.types.ident (Text.camel name) = platform.types.ident (Text.camel name') ↔
      Text.camel name = Text.camel name' := by
  obtain ⟨escape, hescape, hident⟩ := platform.exists_escape
  rw [hident, hident, hescape.escaped_inj h.isPlain_camel h'.isPlain_camel]

/-- The mark of a reserved word is lost in kebab-case. -/
theorem Platform.kebab_ident (h : platform.isTypeScript = true) (name : String) :
    Text.kebab (platform.types.ident name) = Text.kebab name := by
  have hreserved : ∀ word ∈ TypeScript.reserved, Text.kebab (word ++ "_") = Text.kebab word := by
    decide +kernel
  rw [ident_of_isTypeScript h, TypeScript.ident]
  split
  · next hmem => exact hreserved name hmem
  · rfl

end DesignSystem
