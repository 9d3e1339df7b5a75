import DesignSystem.Component.Model
import DesignSystem.Proofs.Types.Nominal
import DesignSystem.Proofs.Types.TypeScript

/-!
# Which components have models

A component that passed validation has a model on a built-in platform unless one of its props has a
descriptor that is unmappable there.

* `Platform.map_settles`: the type tables of the platforms, one by one.
* `PropSpec.settles_all`: the props of a component.
* `ComponentSpec.model_settles`: the component.
-/

set_option autoImplicit false

namespace DesignSystem

/-! ## Platforms -/

/-- Whether the types of a platform are those of TypeScript. -/
def Platform.isTypeScript : Platform → Bool
  | react | vue | angular | svelte | css | tailwind => true
  | swiftUI | compose | flutter => false

theorem Platform.map_settles (platform : Platform) {d : TypeDescriptor} (h : d.issues = [])
    {hint : String} (hhint : hint ≠ "") :
    Settles (platform.types.map d hint).result (· ≠ "") (d.Unmappable platform.isTypeScript) := by
  cases platform with
  | react | vue | angular | svelte | css | tailwind => exact TypeScript.type_settles h
  | swiftUI => exact NominalLanguage.map_settles NominalLanguage.isWritten_swift h hint hhint
  | compose => exact NominalLanguage.map_settles NominalLanguage.isWritten_kotlin h hint hhint
  | flutter => exact NominalLanguage.map_settles NominalLanguage.isWritten_dart h hint hhint

theorem Platform.optional_ne_empty (platform : Platform) (type : String) :
    platform.types.optional type ≠ "" := by
  cases platform with
  | react | vue | angular | svelte | css | tailwind =>
    change type ++ " | undefined" ≠ ""
    simp
  | swiftUI => exact NominalLanguage.isWritten_swift.optional type
  | compose => exact NominalLanguage.isWritten_kotlin.optional type
  | flutter => exact NominalLanguage.isWritten_dart.optional type

/-! ## Components -/

theorem ComponentSpec.issues_of_error? {c : ComponentSpec} (h : c.error? = none) :
    c.issues = [] := by
  unfold error? specError? at h
  split at h
  · next hempty => exact List.isEmpty_iff.1 hempty
  · cases h

theorem ComponentSpec.isPascalCase_name {c : ComponentSpec} (h : c.issues = []) :
    isPascalCase c.name := by
  by_contra hname
  simp [issues, issueIf, hname] at h

/-- The name of a component that passed validation is not empty in PascalCase. -/
theorem ComponentSpec.pascal_name_ne_empty {c : ComponentSpec} (h : c.issues = []) :
    Text.pascal c.name ≠ "" := by
  have hname := isPascalCase_name h
  unfold isPascalCase at hname
  split at hname
  · cases hname
  · next first rest hchars =>
    refine Text.pascal_ne_empty hchars ?_
    change (first.isUpper || first.isLower) = true
    rw [(Bool.and_eq_true_iff.1 hname).1, Bool.true_or]

theorem ComponentSpec.prop_issues {c : ComponentSpec} (h : c.issues = []) :
    ∀ p ∈ c.props, p.2.issues p.1 c.props = [] := by
  simp only [issues, List.append_eq_nil_iff, List.flatMap_eq_nil_iff] at h
  exact h.1.1.2

theorem ComponentSpec.descriptor_issues {c : ComponentSpec} (h : c.issues = []) :
    ∀ p ∈ c.props, p.2.descriptor.issues = [] := by
  intro p hp
  have hprop := prop_issues h p hp
  simp only [PropSpec.issues, List.append_eq_nil_iff, List.map_eq_nil_iff] at hprop
  exact hprop.1.1.2

theorem propHint_ne_empty {component : String} (h : Text.pascal component ≠ "") (prop : String) :
    propHint component prop ≠ "" := by
  simp [propHint, h]

/-- A prop as a model for a platform. -/
structure PropSpec.Modelled (name : String) (m : PropModel) : Prop where
  name : m.name = name
  type : m.type ≠ ""
  optionalType : m.optionalType ≠ ""

theorem PropSpec.settles (platform : Platform) {p : PropSpec} (h : p.descriptor.issues = [])
    {component : String} (hc : Text.pascal component ≠ "") (name : String) :
    Settles (p.model platform.types component name).result (Modelled name)
      (p.descriptor.Unmappable platform.isTypeScript) := by
  rw [model, Mapping.result_bind]
  refine (platform.map_settles h (propHint_ne_empty hc name)).bind_ok fun type htype => ?_
  exact ⟨rfl, htype, platform.optional_ne_empty type⟩

theorem PropSpec.settles_all (platform : Platform) {component : String}
    (hc : Text.pascal component ≠ "") : ∀ {props : Entries PropSpec},
      (∀ p ∈ props, p.2.descriptor.issues = []) →
      Settles
        (props.mapM fun (p : String × PropSpec) => p.2.model platform.types component p.1).result
        (List.Forall₂ (fun p => PropSpec.Modelled p.1) props)
        (∃ p ∈ props, p.2.descriptor.Unmappable platform.isTypeScript)
  | [], _ => ⟨.nil, nofun⟩
  | p :: props, h => by
    obtain ⟨hfirst, hrest⟩ := List.forall_mem_cons.1 h
    rw [List.mapM_cons, Mapping.result_bind, List.exists_mem_cons_iff]
    refine (PropSpec.settles platform hfirst hc p.1).bind fun m hm => ?_
    rw [Mapping.result_bind]
    exact (PropSpec.settles_all platform hc hrest).bind_ok fun ms hms => .cons hm hms

/-- A component that passed validation has no model on a platform just if a prop is unmappable
there, and otherwise it has one whose props all have types that are not empty. -/
theorem ComponentSpec.model_settles {c : ComponentSpec} (h : c.error? = none) (platform : Platform)
    (options : TransformOptions) :
    ((∃ e, c.model platform options = .error e) ↔
      ∃ p ∈ c.props, p.2.descriptor.Unmappable platform.isTypeScript) ∧
    ((¬ ∃ p ∈ c.props, p.2.descriptor.Unmappable platform.isTypeScript) →
      ∃ m, c.model platform options = .ok m ∧
        List.Forall₂ (fun p => PropSpec.Modelled p.1) c.props m.props) := by
  have hissues := issues_of_error? h
  have hsettles : Settles (c.model platform options)
      (fun m => List.Forall₂ (fun p => PropSpec.Modelled p.1) c.props m.props)
      (∃ p ∈ c.props, p.2.descriptor.Unmappable platform.isTypeScript) :=
    (PropSpec.settles_all platform (pascal_name_ne_empty hissues) (descriptor_issues hissues)).map
      fun props hprops => hprops
  exact ⟨hsettles.error_iff, hsettles.exists_ok⟩

/-- An array of open objects with a field of one of a project's own types. -/
def chartSeries : TypeDescriptor :=
  .array (.object [("unit", .custom (.other "unit") none)] false) none none false

/-- A component with such a prop. -/
def chart : ComponentSpec where
  name := "Chart"
  category := .dataDisplay
  accessibility := { role := "img" }
  props := [("series", { descriptor := chartSeries })]

theorem ComponentSpec.model_settles_chart :
    chart.error? = none ∧ (∃ e, chart.model .react {} = .error e) ∧
      ∃ m p, chart.model .swiftUI {} = .ok m ∧ m.props = [p] ∧ PropSpec.Modelled "series" p := by
  have h : chart.error? = none := by decide
  have hbad : ∀ script : Bool, (∃ p ∈ chart.props, p.2.descriptor.Unmappable script) ↔ script := by
    intro script
    simp [chart, chartSeries, TypeDescriptor.unmappable_array, TypeDescriptor.unmappable_object,
      TypeDescriptor.unmappable_custom, TypeDescriptor.HasNoType]
  refine ⟨h, (model_settles h .react {}).1.2 ((hbad true).2 rfl), ?_⟩
  obtain ⟨m, hm, hmodelled⟩ := (model_settles h .swiftUI {}).2 fun h =>
    Bool.false_ne_true ((hbad false).1 h)
  obtain ⟨p, rest, hp, hrest, hprops⟩ := List.forall₂_cons_left_iff.1 hmodelled
  rw [List.forall₂_nil_left_iff.1 hrest] at hprops
  exact ⟨m, p, hm, hprops, hp⟩

end DesignSystem
