import DesignSystem.Proofs.Component.Declarations
import DesignSystem.Proofs.Types.ImplicitDefault
import DesignSystem.Proofs.Types.LiteralLack

/-!
# The defaults of props

A default that passed validation may have no literal on a platform. The model has no default then,
and unless the prop is required, it can be left out and has no value.

* `Platform.Lacks`: why a platform has no literal for a value.
* `Platform.literal_eq_none_iff`: it has none just if there is such a reason.
* `ComponentSpec.fits_default`: defaults fit.
* `ComponentSpec.model_defaults`: which defaults are in a model.
-/

set_option autoImplicit false

namespace DesignSystem

/-! ## Literals of the platforms -/

namespace Platform

variable {p : Platform} {d : TypeDescriptor} {v : Json.Value} {hint type : String}

/-- Why a platform has no literal for a value. In TypeScript this is a null in the value. -/
def Lacks (p : Platform) (d : TypeDescriptor) (v : Json.Value) (hint : String) : Prop :=
  match p.dialect? with
  | some y => y.Lacks d v hint
  | none => v.HasNull

/-- A value does not fit an alternative that it is written for. In TypeScript values are written
without regard to alternatives. -/
def Skips (p : Platform) (d : TypeDescriptor) (v : Json.Value) (hint : String) : Prop :=
  ∃ y, p.dialect? = some y ∧ y.Skips d v hint

/-- A platform has no literal for a value just if there is a reason. -/
theorem literal_eq_none_iff (h : (p.types.map d hint).result = .ok type) :
    p.types.literal d v hint = none ↔ p.Lacks d v hint := by
  unfold Lacks
  cases hp : p.dialect? with
  | some y =>
    rw [types_of_dialect? hp] at h ⊢
    exact Reading.Dialect.literal?_eq_none_iff h
  | none =>
    obtain ⟨f, hf⟩ := exists_framework_of_dialect? hp
    rw [hf]
    exact TypeScript.literal?_eq_none_iff v

end Platform

/-! ## Props -/

/-- The default of a prop in a model. -/
structure PropSpec.KeepsDefault (p : PropSpec) (platform : Platform) (hint : String)
    (q : PropModel) : Prop where
  /-- A default is dropped just if there is no literal for it. What comes of one that does not fit the
  first of alternatives of one type is left open. -/
  dropped : ∀ v, p.default = some v → ¬ platform.Skips p.descriptor v hint →
    (q.default = none ↔ platform.Lacks p.descriptor v hint)
  /-- One that is kept is a literal of the given one, and the prop is never without a value. -/
  kept : ∀ text, q.default = some text → q.isOptional = false ∧
    ∃ v, p.default = some v ∧ platform.types.literal p.descriptor v hint = some text
  /-- Without a default a prop may be without a value if it is not required. -/
  optional : q.default = none → (q.isOptional = true ↔ p.required = false)
  /-- Languages with named types keep all defaults of the descriptors that they write values of. -/
  writable : ∀ y, platform.dialect? = some y → p.descriptor.EachWritten y.Writable →
    (q.default = none ↔ p.default = none)

theorem PropSpec.IsModel.keepsDefault {p : PropSpec} {platform : Platform} {component name : String}
    {q : PropModel} (h : p.IsModel platform.types component name q)
    (hfits : ∀ v, p.default = some v → p.descriptor.fits v = true) :
    p.KeepsDefault platform (propHint component name) q := by
  have hnone : ∀ v, p.default = some v →
      (q.default = none ↔ platform.Lacks p.descriptor v (propHint component name)) := by
    intro v hv
    rw [h.default, hv, Option.bind_some, Platform.literal_eq_none_iff h.type]
  refine ⟨fun v hv _ => hnone v hv, fun text htext => ?_, fun hdefault => ?_, fun y hy hd => ?_⟩
  · refine ⟨by rw [PropModel.isOptional, htext, Option.isNone_some, Bool.and_false], ?_⟩
    rw [h.default] at htext
    exact Option.bind_eq_some_iff.1 htext
  · rw [PropModel.isOptional, hdefault, h.required, Option.isNone_none, Bool.and_true,
      Bool.not_eq_true']
  · cases hv : p.default with
    | none => simp [h.default, hv]
    | some v =>
      rw [hnone v hv, Platform.Lacks, hy]
      exact iff_of_false (Reading.Dialect.not_lacks_of_fits hd (hfits v hv)) nofun

/-! ## Components -/

theorem ComponentSpec.fits_default {c : ComponentSpec} (h : c.issues = []) :
    ∀ p ∈ c.props, ∀ v, p.2.default = some v → p.2.descriptor.fits v = true := by
  intro p hp v hv
  have hprop := prop_issues h p hp
  simp only [PropSpec.issues, List.append_eq_nil_iff, hv] at hprop
  by_contra hnot
  simp [issueIf, hnot] at hprop

/-- **A default is in the model unless the platform has no literal for it.** -/
theorem ComponentSpec.model_defaults {c : ComponentSpec} {platform : Platform}
    {options : TransformOptions} {m : ComponentModel} (hc : c.error? = none)
    (h : c.model platform options = .ok m) :
    List.Forall₂ (fun p q => p.2.KeepsDefault platform (propHint c.name p.1) q) c.props m.props :=
  ((List.forall₂_and_left _ _).2 ⟨fits_default (issues_of_error? hc), props_of_model h⟩).imp
    fun _ _ ⟨hfits, hmodel⟩ => hmodel.keepsDefault hfits

/-- A meter with a level and the tones that it shows. -/
def meter : ComponentSpec where
  name := "Meter"
  category := .feedback
  accessibility := { role := "meter" }
  props := [
    ("level", { descriptor := .primitive .number none, default := some (.ofNat 8) }),
    ("tones", {
      descriptor := .array (.primitive .string (some [.string "warm", .string "cold"])) none none false
      default := some (.array [.string "cold"]) })]

theorem ComponentSpec.model_defaults_meter : ∃ m, meter.model .compose {} = .ok m ∧
    m.props.map (·.default) = [some "8.0", some "listOf(MeterTonesItem.COLD)"] ∧
    ∀ q ∈ m.props, q.isOptional = false := by
  obtain ⟨m, hm, hdefaults⟩ := exists_of_map_eq (f := fun m => m.props.map (·.default))
    (by decide +kernel : ((meter.model .compose {}).map _).toOption =
      some [some "8.0", some "listOf(MeterTonesItem.COLD)"])
  refine ⟨m, hm, hdefaults, fun q hq => ?_⟩
  obtain ⟨p, -, hkeeps⟩ := exists_of_forall₂ (model_defaults (by decide +kernel) hm) hq
  have hdefault : q.default ∈ [some "8.0", some "listOf(MeterTonesItem.COLD)"] :=
    hdefaults ▸ List.mem_map_of_mem hq
  rcases List.mem_pair.1 hdefault with htext | htext <;> exact (hkeeps.kept _ htext).1

/-- A lamp with a place, and with a level that is a number or a text. -/
def lamp : ComponentSpec where
  name := "Lamp"
  category := .dataDisplay
  accessibility := { role := "img" }
  props := [
    ("place", {
      descriptor := .object [("x", .primitive .number none)] true
      default := some (.object [("x", .ofNat 1)]) }),
    ("level", { descriptor := .union [.primitive .number none, .text], default := some (.ofNat 8) })]

/-- The lamp passes validation, but in languages with named types it loses both defaults, and its
props may be without a value. In TypeScript they stay. -/
theorem ComponentSpec.model_defaults_lamp : lamp.error? = none ∧
    (∀ platform ∈ [Platform.swiftUI, .compose, .flutter], ∃ m, lamp.model platform {} = .ok m ∧
      m.props.map (fun q => (q.default, q.isOptional)) = [(none, true), (none, true)]) ∧
    ∃ m, lamp.model .react {} = .ok m ∧ m.props.map (fun q => (q.default, q.isOptional)) =
      [(some "\x7b x: 1 \x7d", false), (some "8", false)] := by
  have hnominal : ∀ platform ∈ [Platform.swiftUI, .compose, .flutter],
      ((lamp.model platform {}).map fun m =>
        m.props.map fun q => (q.default, q.isOptional)).toOption =
      some [(none, true), (none, true)] := by decide +kernel
  exact ⟨by decide +kernel, fun platform hp => exists_of_map_eq (hnominal platform hp),
    exists_of_map_eq (by decide +kernel)⟩

end DesignSystem
