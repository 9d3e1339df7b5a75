import DesignSystem.Proofs.Component.Model
import DesignSystem.Proofs.Types.Declared

/-!
# The declarations of a component

The props of a component share one scope, in which the first declaration of a name stays.

* `Mapping.mapM_eq_ok`: what mapping several things one after the other gives and declares.
* `ComponentSpec.nodup_names_needed`: props whose names are apart need types of different names.
* `ComponentSpec.model_declares`: a model declares all types as its props need them just if no two
  of them are of one name and different.
-/

set_option autoImplicit false

namespace DesignSystem

/-! ## Several mappings -/

theorem exists_of_isOk {ε α : Type} {r : Except ε α} (h : r.isOk = true) : ∃ a, r = .ok a := by
  cases r with
  | error e => cases h
  | ok a => exact ⟨a, rfl⟩

theorem exists_of_map_eq {ε α β : Type} {r : Except ε α} {f : α → β} {b : β}
    (h : (r.map f).toOption = some b) : ∃ a, r = .ok a ∧ f a = b := by
  cases r with
  | error e => cases h
  | ok a => exact ⟨a, rfl, Option.some.inj h⟩

theorem Mapping.declared_bind_of_ok {α β : Type} {m : Mapping α} {a : α} (h : m.result = .ok a)
    (f : α → Mapping β) : (m >>= f).declared = m.declared ++ (f a).declared := by
  change (m.andThen f).declared = _
  rw [andThen, h]

theorem Mapping.mapM_eq_ok {α β : Type} {f : α → Mapping β} : ∀ {as : List α} {bs : List β},
    (as.mapM f).result = .ok bs → List.Forall₂ (fun a b => (f a).result = .ok b) as bs ∧
      (as.mapM f).declared = as.flatMap fun a => (f a).declared
  | [], bs, h => by
    cases h
    exact ⟨.nil, rfl⟩
  | a :: as, bs, h => by
    rw [List.mapM_cons, result_bind] at h
    obtain ⟨b, hb, h⟩ := bind_eq_ok h
    rw [result_bind] at h
    obtain ⟨bs', hbs, h⟩ := bind_eq_ok h
    cases h
    obtain ⟨hall, hdeclared⟩ := mapM_eq_ok hbs
    refine ⟨.cons hb hall, ?_⟩
    rw [List.mapM_cons, declared_bind_of_ok hb, declared_bind_pure, hdeclared, List.flatMap_cons]

/-! ## Components -/

/-- What the type of a prop is on a platform, written for the prop alone. -/
def ComponentSpec.mapProp (c : ComponentSpec) (platform : Platform) (p : String × PropSpec) :
    Mapping String :=
  platform.types.map p.2.descriptor (propHint c.name p.1)

/-- The declarations that the props of a component need. -/
def ComponentSpec.needed (c : ComponentSpec) (platform : Platform) : List Declaration :=
  c.props.flatMap fun p => (c.mapProp platform p).declared

/-- A model declares every type as the prop that needs it does. -/
def ComponentSpec.KeepsDeclarations (c : ComponentSpec) (platform : Platform) (m : ComponentModel) :
    Prop :=
  ∀ p ∈ c.props, ∀ d ∈ (c.mapProp platform p).declared,
    Entries.get? d.name m.declarations = some d.source

variable {c : ComponentSpec} {platform : Platform} {options : TransformOptions} {m : ComponentModel}

theorem PropSpec.declared_model (p : PropSpec) (t : TypeTable) (component name : String) :
    (p.model t component name).declared =
      (t.map p.descriptor (propHint component name)).declared :=
  Mapping.declared_bind_pure _ _

/-- What a prop is on a platform. -/
structure PropSpec.IsModel (p : PropSpec) (t : TypeTable) (component name : String)
    (q : PropModel) : Prop where
  named : q.name = name
  ident : q.ident = t.ident (Text.camel name)
  type : (t.map p.descriptor (propHint component name)).result = .ok q.type
  required : q.required = p.required
  default : q.default = p.default.bind fun v => t.literal p.descriptor v (propHint component name)

theorem PropSpec.isModel_of_model {p : PropSpec} {t : TypeTable} {component name : String}
    {q : PropModel} (h : (p.model t component name).result = .ok q) :
    p.IsModel t component name q := by
  rw [model, Mapping.result_bind] at h
  obtain ⟨type, htype, h⟩ := bind_eq_ok h
  cases h
  exact ⟨rfl, rfl, htype, rfl, rfl⟩

theorem ComponentSpec.props_of_model (h : c.model platform options = .ok m) :
    List.Forall₂ (fun p q => p.2.IsModel platform.types c.name p.1 q) c.props m.props := by
  obtain ⟨props, hprops, rfl⟩ := map_eq_ok h
  exact (Mapping.mapM_eq_ok hprops).1.imp fun p q => PropSpec.isModel_of_model

theorem ComponentSpec.types_of_model (h : c.model platform options = .ok m) :
    List.Forall₂ (fun p q => (c.mapProp platform p).result = .ok q.type) c.props m.props :=
  (props_of_model h).imp fun _ _ hq => hq.type

theorem ComponentSpec.declarations_of_model (h : c.model platform options = .ok m) :
    m.declarations = TypeScope.declareAll [] (c.needed platform) := by
  obtain ⟨props, hprops, rfl⟩ := map_eq_ok h
  change TypeScope.declareAll [] _ = _
  rw [(Mapping.mapM_eq_ok hprops).2, needed]
  simp only [PropSpec.declared_model, mapProp]

theorem ComponentSpec.keepsDeclarations_iff (h : c.model platform options = .ok m) :
    c.KeepsDeclarations platform m ↔ ∀ d ∈ c.needed platform, ∀ d' ∈ c.needed platform,
      d.name = d'.name → d.source = d'.source := by
  rw [← TypeScope.forall_get?_declareAll_iff, ← declarations_of_model h]
  simp only [needed, List.mem_flatMap]
  exact ⟨fun hkeeps d ⟨p, hp, hd⟩ => hkeeps p hp d hd, fun hkeeps p hp d hd => hkeeps d ⟨p, hp, hd⟩⟩

/-- TypeScript needs no declarations. -/
theorem ComponentSpec.needed_of_isTypeScript (h : platform.isTypeScript = true) :
    c.needed platform = [] := by
  refine List.flatMap_eq_nil_iff.2 fun p _ => ?_
  cases platform with
  | react | vue | angular | svelte | css | tailwind => rfl
  | swiftUI | compose | flutter => cases h

/-- Props that extend the name of their component apart from each other, and so at every place
inside them, need types of different names. -/
theorem ComponentSpec.nodup_names_needed
    (hprops : NominalLanguage.Free (c.props.map fun p => Text.pascal p.1))
    (hparts : ∀ p ∈ c.props, NominalLanguage.Apart p.2.descriptor) :
    ((c.needed platform).map (·.name)).Nodup := by
  have hnominal : ∀ l : NominalLanguage, platform.types = l.table →
      ((c.needed platform).map (·.name)).Nodup := by
    intro l hl
    have hfree : NominalLanguage.Free
        ((c.props.map fun p => (Text.pascal p.1, p.2.descriptor)).map (·.1)) := by
      rwa [List.map_map]
    have hneeded : c.needed platform = l.declaredByParts
        (c.props.map fun p => (Text.pascal p.1, p.2.descriptor)) (Text.pascal c.name) := by
      rw [NominalLanguage.declaredByParts, List.flatMap_map]
      simp only [needed, mapProp, hl, NominalLanguage.table, propHint]
    rw [hneeded]
    refine (NominalLanguage.nodup_names_of_free _ hfree fun part hpart hint => ?_).1
    obtain ⟨p, hp, rfl⟩ := List.mem_map.1 hpart
    exact NominalLanguage.nodup_names_of_apart (hparts p hp) hint
  cases platform with
  | swiftUI => exact hnominal Swift.language rfl
  | compose => exact hnominal Kotlin.language rfl
  | flutter => exact hnominal Dart.language rfl
  | react | vue | angular | svelte | css | tailwind =>
    rw [needed_of_isTypeScript rfl]
    exact .nil

/-- What the model of a component declares. -/
structure ComponentSpec.Declares (c : ComponentSpec) (platform : Platform) (m : ComponentModel) :
    Prop where
  /-- Each prop has the type that it has alone. -/
  types : List.Forall₂ (fun p q => (c.mapProp platform p).result = .ok q.type) c.props m.props
  /-- Under each name stands the first of the types of that name that props need. -/
  first : ∀ name, Entries.get? name m.declarations =
    ((c.needed platform).find? (·.name = name)).map (·.source)
  /-- None is replaced just if no two of them are of one name and different. -/
  kept : c.KeepsDeclarations platform m ↔ ∀ d ∈ c.needed platform, ∀ d' ∈ c.needed platform,
    d.name = d'.name → d.source = d'.source
  /-- That is so if nowhere one extension of a name starts with another. -/
  apart : NominalLanguage.Free (c.props.map fun p => Text.pascal p.1) →
    (∀ p ∈ c.props, NominalLanguage.Apart p.2.descriptor) → c.KeepsDeclarations platform m

/-- **A model declares the types that its props need, the first one of each name.** -/
theorem ComponentSpec.model_declares (h : c.model platform options = .ok m) :
    c.Declares platform m where
  types := types_of_model h
  first name := by
    rw [declarations_of_model h, TypeScope.get?_declareAll]
    rfl
  kept := keepsDeclarations_iff h
  apart hprops hparts := by
    refine (keepsDeclarations_iff h).2 fun d hd d' hd' hname => ?_
    rw [List.inj_on_of_nodup_map (nodup_names_needed hprops hparts) hd hd' hname]

/-- A badge that has a size. -/
def badge : TypeDescriptor := .object [("size", .primitive .string (some [.string "dot"]))] true

/-- Tabs of a size with badges. -/
def tabs : ComponentSpec where
  name := "Tabs"
  category := .navigation
  accessibility := { role := "tablist" }
  props := [("size", { descriptor := .primitive .string (some [.string "sm", .string "lg"]) }),
    ("badges", { descriptor := .array badge none none false })]

theorem ComponentSpec.model_declares_tabs : ∃ m, tabs.model .swiftUI {} = .ok m ∧
    Entries.names m.declarations = ["TabsSize", "TabsBadgesItemSize", "TabsBadgesItem"] ∧
    tabs.KeepsDeclarations .swiftUI m := by
  obtain ⟨m, hm⟩ : ∃ m, tabs.model .swiftUI {} = .ok m := exists_of_isOk (by decide +kernel)
  have hleaf : ∀ values, NominalLanguage.Apart (.primitive .string values) := fun _ =>
    .of_parts ⟨List.not_mem_nil, .nil⟩ nofun
  have hbadge : NominalLanguage.Apart badge :=
    .of_parts (by decide) (List.forall_mem_singleton.2 (hleaf _))
  refine ⟨m, hm, ?_, (model_declares hm).apart (by decide +kernel) ?_⟩
  · rw [declarations_of_model hm]
    decide +kernel
  · exact List.forall_mem_cons.2 ⟨hleaf _, List.forall_mem_singleton.2
      (.of_parts (by decide) (List.forall_mem_singleton.2 hbadge))⟩

/-- The sizes of a picker. -/
def pickerSize : TypeDescriptor := .primitive .string (some [.string "sm", .string "lg"])

/-- The sizes of an item of a picker. -/
def pickerItem : TypeDescriptor := .primitive .string (some [.string "row", .string "tile"])

/-- A picker whose sizes and whose items both need a type of the name `PickerSizeItem`. -/
def picker : ComponentSpec where
  name := "Picker"
  category := .form
  accessibility := { role := "listbox" }
  props := [("size", { descriptor := .array pickerSize none none false }),
    ("sizeItem", { descriptor := pickerItem, default := some (.string "row") })]

/-- The picker passes validation, but on each platform with named types a declaration is replaced. -/
theorem ComponentSpec.model_declares_picker : picker.error? = none ∧
    ∀ platform ∈ [Platform.swiftUI, .compose, .flutter],
      (picker.needed platform).map (·.name) = ["PickerSizeItem", "PickerSizeItem"] ∧
      ∃ m, picker.model platform {} = .ok m ∧ ¬ picker.KeepsDeclarations platform m := by
  have hmodel : ∀ platform ∈ [Platform.swiftUI, .compose, .flutter],
      (picker.model platform {}).isOk = true := by decide +kernel
  have hneeded : ∀ platform ∈ [Platform.swiftUI, .compose, .flutter],
      (picker.needed platform).map (·.name) = ["PickerSizeItem", "PickerSizeItem"] ∧
      ¬ ∀ d ∈ picker.needed platform, ∀ d' ∈ picker.needed platform,
        d.name = d'.name → d.source = d'.source := by decide +kernel
  refine ⟨by decide +kernel, fun platform hplatform => ⟨(hneeded platform hplatform).1, ?_⟩⟩
  obtain ⟨m, hm⟩ := exists_of_isOk (hmodel platform hplatform)
  exact ⟨m, hm, fun hkeeps => (hneeded platform hplatform).2 ((keepsDeclarations_iff hm).1 hkeeps)⟩

end DesignSystem
