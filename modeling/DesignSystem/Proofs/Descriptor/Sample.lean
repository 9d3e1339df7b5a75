import DesignSystem.Proofs.Descriptor.RoundTrip
import DesignSystem.Proofs.Types.Unmappable

/-!
# Samples fit

The sample of a descriptor and the check of a value go through the descriptor on their own. They
agree where a name tells a field, as it does in all descriptors that were read.

* `Json.Value.same_self`: a value whose fields have distinct names is equal to itself.
* `TypeDescriptor.IsPlain`: the fields of all objects in a descriptor have distinct names.
  `isPlain_of_ofJson?` shows that descriptors that were read are plain.
* `fitsField_eq`: what is asked of a field.
* `LacksSample`: the descriptors without a sample.
* `sample_fits`: which descriptors have a sample, and that it fits.
-/

set_option autoImplicit false

namespace DesignSystem

/-! ## Equal values -/

namespace Json.Value

theorem sameItems_self {items : List Json.Value} (h : ∀ v ∈ items, v.same v = true) :
    sameItems items items = true := by
  induction items with
  | nil => rfl
  | cons v vs ih =>
    obtain ⟨hv, hvs⟩ := List.forall_mem_cons.1 h
    rw [sameItems, hv, ih hvs]
    rfl

theorem sameFields_eq_true_iff {items : List (String × Json.Value)} {fields : Entries Json.Value} :
    sameFields items fields = true ↔
      ∀ f ∈ items, ∃ b, fields.get? f.1 = some b ∧ same f.2 b = true := by
  induction items with
  | nil => simp [sameFields]
  | cons f items ih =>
    obtain ⟨name, a⟩ := f
    rw [sameFields, Bool.and_eq_true, ih, List.forall_mem_cons]
    refine and_congr_left' ?_
    cases fields.get? name <;> simp

/-- Where names tell fields, a value is equal to itself. -/
theorem same_self {v : Json.Value} (hv : v.IsPlain) : v.same v = true := by
  induction v using Json.Value.induct with
  | null => rfl
  | bool b | string s => simp [same]
  | number n => cases n <;> simp [same, Json.Number.same, Binary64.same]
  | array items ih =>
    rw [isPlain_array] at hv
    exact sameItems_self fun v hmem => ih v hmem (hv v hmem)
  | object fields ih =>
    obtain ⟨hd, hplain⟩ := isPlain_object.1 hv
    rw [same, sameFields_eq_true_iff.2, Bool.and_true, decide_eq_true rfl]
    exact fun f hf => ⟨f.2, Entries.get?_of_mem hd hf, ih f hf (hplain f hf)⟩

end Json.Value

namespace TypeDescriptor

/-! ## Plain descriptors -/

/-- The fields of a descriptor's own objects have distinct names, in its enumerated values too. -/
def OwnPlain : TypeDescriptor → Prop
  | primitive _ (some values) => ∀ v ∈ values, v.IsPlain
  | object properties _ => Entries.Distinct properties
  | _ => True

/-- The fields of all objects in a descriptor have distinct names. -/
def IsPlain (d : TypeDescriptor) : Prop := ∀ inner, Position true d inner → inner.OwnPlain

/-- The descriptors that stand in a descriptor. -/
def children : TypeDescriptor → List TypeDescriptor
  | signed _ params returns => params.map (·.2) ++ returns.toList
  | union types => types
  | array items _ _ _ => [items]
  | object properties _ => properties.map (·.2)
  | _ => []

theorem isPlain_of_children {d : TypeDescriptor} (hown : d.OwnPlain)
    (hchildren : ∀ child ∈ d.children, child.IsPlain) : d.IsPlain := by
  intro inner hinner
  cases hinner with
  | self => exact hown
  | member hmem hinner => exact hchildren _ hmem _ hinner
  | item hinner => exact hchildren _ List.mem_cons_self _ hinner
  | param hmem hinner => exact hchildren _ (List.mem_append_left _ (List.mem_map_of_mem hmem)) _ hinner
  | result hinner => exact hchildren _ (List.mem_append_right _ List.mem_cons_self) _ hinner
  | field _ hmem hinner => exact hchildren _ (List.mem_map_of_mem hmem) _ hinner

namespace Reading

/-- What is read for a kind is plain itself, and what stands in it is read again. -/
theorem ofKind_inversion {fields : Fields} (hf : ∀ f ∈ fields, f.2.IsSound) {kind : DescriptorKind}
    {d : TypeDescriptor} (h : ofKind fields kind = some d) :
    d.OwnPlain ∧ ∀ child ∈ d.children, child.Rereads := by
  cases kind with
  | primitive =>
    obtain ⟨kind, -, h⟩ := Option.bind_eq_some_iff.1 h
    obtain ⟨values, hvalues, h⟩ := Option.bind_eq_some_iff.1 h
    cases h
    refine ⟨?_, List.forall_mem_nil _⟩
    cases values with
    | none => trivial
    | some vs =>
      obtain ⟨f, hmem, hread⟩ := Fields.optional_eq_some hvalues rfl
      have hplain := (hf f hmem).value
      cases hv : f.2.value with
      | array items =>
        rw [Reading.values, hv] at hread
        cases hread
        rw [hv] at hplain
        exact Json.Value.isPlain_array.1 hplain
      | _ =>
        rw [Reading.values, hv] at hread
        cases hread
  | complex =>
    obtain ⟨kind, -, h⟩ := Option.bind_eq_some_iff.1 h
    obtain ⟨signature, hsignature, h⟩ := Option.bind_eq_some_iff.1 h
    cases signature with
    | none =>
      cases h
      exact ⟨trivial, List.forall_mem_nil _⟩
    | some signature =>
      obtain ⟨params, returns⟩ := signature
      cases h
      obtain ⟨f, hmem, hread⟩ := Fields.optional_eq_some hsignature rfl
      obtain ⟨-, hparams, hreturns⟩ := (hf f hmem).signature params returns hread
      refine ⟨trivial, List.forall_mem_append.2 ⟨List.forall_mem_map.2 hparams, fun d hd => ?_⟩⟩
      exact hreturns d (Option.mem_toList.1 hd)
  | custom =>
    obtain ⟨name, -, h⟩ := Option.bind_eq_some_iff.1 h
    obtain ⟨values, -, h⟩ := Option.bind_eq_some_iff.1 h
    cases h
    exact ⟨trivial, List.forall_mem_nil _⟩
  | union =>
    obtain ⟨types, htypes, h⟩ := Option.bind_eq_some_iff.1 h
    cases h
    obtain ⟨f, hmem, hread⟩ := Fields.required_eq_some htypes
    exact ⟨trivial, (hf f hmem).descriptors types hread⟩
  | array =>
    obtain ⟨items, hitems, h⟩ := Option.bind_eq_some_iff.1 h
    obtain ⟨minItems, -, h⟩ := Option.bind_eq_some_iff.1 h
    obtain ⟨maxItems, -, h⟩ := Option.bind_eq_some_iff.1 h
    obtain ⟨unique, -, h⟩ := Option.bind_eq_some_iff.1 h
    cases h
    obtain ⟨f, hmem, hread⟩ := Fields.required_eq_some hitems
    exact ⟨trivial, List.forall_mem_singleton.2 ((hf f hmem).descriptor items hread)⟩
  | object =>
    obtain ⟨properties, hproperties, h⟩ := Option.bind_eq_some_iff.1 h
    obtain ⟨strict, -, h⟩ := Option.bind_eq_some_iff.1 h
    cases h
    obtain ⟨hdistinct, hrereads⟩ := IsSound.default_named hf hproperties
    exact ⟨hdistinct, List.forall_mem_map.2 hrereads⟩

end Reading

theorem Rereads.inversion {d : TypeDescriptor} (h : d.Rereads) :
    d.OwnPlain ∧ ∀ child ∈ d.children, child.Rereads := by
  rw [Rereads, ofJson?_toJson] at h
  exact Reading.ofKind_inversion (readFields_isSound _) h

/-- Descriptors that were read have fields of distinct names. -/
theorem isPlain_of_ofJson? {v : Json.Value} {d : TypeDescriptor} (h : ofJson? v = some d) :
    d.IsPlain := by
  intro inner hinner
  have hd := rereads_of_ofJson? h
  clear h
  induction hinner with
  | self => exact hd.inversion.1
  | member hmem _ ih => exact ih (hd.inversion.2 _ hmem)
  | item _ ih => exact ih (hd.inversion.2 _ List.mem_cons_self)
  | param hmem _ ih =>
    exact ih (hd.inversion.2 _ (List.mem_append_left _ (List.mem_map_of_mem hmem)))
  | result _ ih => exact ih (hd.inversion.2 _ (List.mem_append_right _ List.mem_cons_self))
  | field _ hmem _ ih => exact ih (hd.inversion.2 _ (List.mem_map_of_mem hmem))

/-! ## What fits -/

/-- A field is asked to fit the descriptor of its name. Whether others are let through is up to the
object. -/
theorem fitsField_eq (properties : Entries TypeDescriptor) (strict : Bool) (name : String)
    (v : Json.Value) : fitsField properties strict name v =
      ((properties.get? name).map (·.fits v)).getD !strict := by
  induction properties with
  | nil => rfl
  | cons p properties ih =>
    obtain ⟨n, d⟩ := p
    rw [fitsField, Entries.get?_cons]
    split
    · rfl
    · exact ih

theorem mem_sampleFields {properties : List (String × TypeDescriptor)} {f : String × Json.Value}
    (h : f ∈ sampleFields properties) : ∃ d, (f.1, d) ∈ properties ∧ d.sample? = some f.2 := by
  induction properties with
  | nil => cases h
  | cons p properties ih =>
    obtain ⟨name, d⟩ := p
    have hrest : f ∈ sampleFields properties →
        ∃ d', (f.1, d') ∈ (name, d) :: properties ∧ d'.sample? = some f.2 := by
      intro hf
      obtain ⟨d', hmem, hsample⟩ := ih hf
      exact ⟨d', .tail _ hmem, hsample⟩
    rw [sampleFields] at h
    split at h
    · next v hsample =>
      rcases List.mem_cons.1 h with rfl | h
      · exact ⟨d, List.mem_cons_self, hsample⟩
      · exact hrest h
    · exact hrest h

theorem fits_of_sample? {d : TypeDescriptor} {v : Json.Value} (hd : d.IsPlain)
    (h : d.sample? = some v) : d.fits v = true := by
  induction d using TypeDescriptor.induct generalizing v with
  | primitive kind values =>
    cases values with
    | none => cases kind <;> cases h <;> rfl
    | some values =>
      have hmem := List.mem_of_head? h
      exact List.any_eq_true.2 ⟨v, hmem, Json.Value.same_self (hd _ (.self _) v hmem)⟩
  | complex | signed => cases h
  | custom kind values =>
    rw [sample?] at h
    rw [fits.eq_def]
    dsimp only
    split at h
    · next texts htexts =>
      obtain ⟨s, hs, rfl⟩ := Option.map_eq_some_iff.1 h
      rw [htexts]
      simpa using List.mem_of_head? hs
    · next htexts =>
      cases h
      rw [htexts]
  | union types ih =>
    cases types with
    | nil => cases h
    | cons first rest =>
      have hfirst := ih first List.mem_cons_self
        (fun inner hi => hd inner (.member List.mem_cons_self hi)) h
      rw [fits, fitsAny, hfirst, Bool.true_or]
  | array items low high unique =>
    cases h
    rfl
  | object properties strict ih =>
    cases h
    rw [fits, List.all_eq_true]
    intro f hf
    obtain ⟨d, hmem, hsample⟩ := mem_sampleFields hf
    have hdistinct : Entries.Distinct properties := hd _ (.self _)
    rw [fitsField_eq, Entries.get?_of_mem hdistinct hmem]
    exact ih _ hmem (fun inner hi => hd inner (.field (.inr rfl) hmem hi)) hsample

/-! ## What has no sample -/

/-- The descriptors without a sample: framework values, empty enumerations, and alternatives of which
there is none or the first has none. -/
inductive LacksSample : TypeDescriptor → Prop
  | complex (kind : ComplexType) : LacksSample (.complex kind)
  | signed (kind : ComplexType) (params : List (String × TypeDescriptor))
      (returns : Option TypeDescriptor) : LacksSample (.signed kind params returns)
  | emptyEnumeration (kind : PrimitiveType) : LacksSample (.primitive kind (some []))
  | emptyValues (kind : CustomType) : LacksSample (.custom kind (some []))
  | emptyUnion : LacksSample (.union [])
  | first {d : TypeDescriptor} (h : LacksSample d) (rest : List TypeDescriptor) :
      LacksSample (.union (d :: rest))

theorem sample?_custom_eq_none_iff {kind : CustomType} {values : Option (List String)} :
    sample? (.custom kind values) = none ↔ values = some [] := by
  cases values with
  | none => cases kind <;> simp [sample?, enumerated?, CustomType.ownValues]
  | some values => simp [sample?, enumerated?]

theorem sample?_eq_none_iff {d : TypeDescriptor} : d.sample? = none ↔ d.LacksSample := by
  induction d using TypeDescriptor.induct with
  | primitive kind values =>
    match values with
    | none => exact iff_of_false (by cases kind <;> nofun) nofun
    | some [] => exact iff_of_true rfl (.emptyEnumeration kind)
    | some (v :: vs) => exact iff_of_false nofun nofun
  | complex kind => exact iff_of_true rfl (.complex kind)
  | signed kind params returns => exact iff_of_true rfl (.signed kind params returns)
  | custom kind values =>
    rw [sample?_custom_eq_none_iff]
    constructor
    · rintro rfl
      exact .emptyValues kind
    · rintro ⟨⟩
      rfl
  | union types ih =>
    cases types with
    | nil => exact iff_of_true rfl .emptyUnion
    | cons first rest =>
      refine (ih first List.mem_cons_self).trans ⟨fun h => .first h rest, ?_⟩
      rintro (_ | _ | _ | _ | _ | h)
      exact h
  | array items low high unique => exact iff_of_false nofun nofun
  | object properties strict => exact iff_of_false nofun nofun

/-- **Samples fit, and all descriptors have one but for framework values, empty enumerations, and
alternatives of which there is none or the first has none.** Whether a descriptor is valid does not
matter. -/
theorem sample_fits {d : TypeDescriptor} (hd : d.IsPlain) :
    (∀ v, d.sample? = some v → d.fits v = true) ∧ (d.sample? = none ↔ d.LacksSample) :=
  ⟨fun _ => fits_of_sample? hd, sample?_eq_none_iff⟩

/-- A callback that gets a text or a number. -/
def onInput : TypeDescriptor :=
  .signed .function [("value", .union [.text, .primitive .number none])] none

/-- The fields of an input: its callback, its size and what it holds. -/
def inputField : TypeDescriptor :=
  .object [("onInput", onInput), ("size", .custom .size none),
    ("value", .union [.text, .primitive .number none])] true

/-- The sample of the input leaves out the callback. -/
def inputSample : Json.Value := .object [("size", .string "xs"), ("value", .string "Label")]

theorem sample_fits_inputField : inputField.sample? = some inputSample ∧
    inputField.fits inputSample = true ∧
    (TypeDescriptor.union [onInput, inputField]).sample? = none := by
  have htext : text.IsPlain := isPlain_of_children trivial (List.forall_mem_nil _)
  have hnumber : (primitive .number none).IsPlain :=
    isPlain_of_children trivial (List.forall_mem_nil _)
  have hsize : (custom .size none).IsPlain := isPlain_of_children trivial (List.forall_mem_nil _)
  have hvalue : (union [.text, .primitive .number none]).IsPlain :=
    isPlain_of_children trivial (List.forall_mem_cons.2 ⟨htext, List.forall_mem_singleton.2 hnumber⟩)
  have honInput : onInput.IsPlain :=
    isPlain_of_children trivial (List.forall_mem_singleton.2 hvalue)
  have hfield : inputField.IsPlain := by
    refine isPlain_of_children (by decide : ["onInput", "size", "value"].Nodup) ?_
    exact List.forall_mem_cons.2 ⟨honInput,
      List.forall_mem_cons.2 ⟨hsize, List.forall_mem_singleton.2 hvalue⟩⟩
  have hunion : (union [onInput, inputField]).IsPlain :=
    isPlain_of_children trivial (List.forall_mem_cons.2 ⟨honInput, List.forall_mem_singleton.2 hfield⟩)
  have hsample : inputField.sample? = some inputSample := rfl
  exact ⟨hsample, (sample_fits hfield).1 _ hsample,
    (sample_fits hunion).2.2 (.first (.signed _ _ _) _)⟩

end TypeDescriptor

end DesignSystem
