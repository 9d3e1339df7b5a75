import DesignSystem.Proofs.Descriptor.RoundTrip
import DesignSystem.Proofs.Schema.Decoder
import DesignSystem.Proofs.Text.Case
import DesignSystem.Proofs.Token.RoundTrip
import DesignSystem.Schema.Encoding

/-!
# Schemas that were read are read again

* `rereads_deprecation` … `rereads_schema`: which parts of a schema are read again.
* `yields_schema`: all schemas that are read are.
* `schema_roundTrip`: reading, writing and reading once more gives the same schema.
-/

set_option autoImplicit false

namespace DesignSystem.PropSpec

open Json (Value)
open TypeDescriptor

/-! ## The fields of a prop -/

/-- The names of the fields that a prop has besides those of its descriptor. -/
def ownNames : List String := ["description", "required", "default", "examples", "deprecated"]

/-- A list that is left out if it is empty. -/
def examplesField (examples : List Value) : List (String × Value) :=
  if examples.isEmpty then [] else [("examples", .array examples)]

@[simp] theorem get?_examplesField (name : String) (examples : List Value) :
    Entries.get? name (examplesField examples) =
      if name = "examples" ∧ examples ≠ [] then some (.array examples) else none := by
  unfold examplesField
  cases examples with
  | nil => simp
  | cons v vs => simp [eq_comm]

/-- The fields that a prop has besides those of its descriptor. -/
def ownFields (p : PropSpec) : List (String × Value) :=
  optionalField "description" .string p.description ++ ("required", .bool p.required) ::
    (optionalField "default" (fun v => v) p.default ++
      (examplesField p.examples ++ optionalField "deprecated" Deprecation.toJson p.deprecated))

theorem toJson_eq (p : PropSpec) : p.toJson = .object (p.descriptor.toFields ++ p.ownFields) := by
  simp [PropSpec.toJson, ownFields, examplesField]

theorem names_ownFields_sublist (p : PropSpec) :
    (Entries.names p.ownFields).Sublist ownNames := by
  have hexamples : (Entries.names (examplesField p.examples ++
      optionalField "deprecated" Deprecation.toJson p.deprecated)).Sublist
        ["examples", "deprecated"] := by
    have hdeprecated := names_optionalField_sublist "deprecated" Deprecation.toJson p.deprecated
    unfold examplesField
    split
    · exact hdeprecated.cons _
    · exact hdeprecated.cons_cons _
  exact names_optionalField_append_sublist _ _ _
    ((names_optionalField_append_sublist _ _ _ hexamples).cons_cons _)

/-- A prop's own fields and those of its descriptor have different names. -/
theorem notMem_ownNames {d : TypeDescriptor} {f : String × Value} (hf : f ∈ d.toFields) :
    f.1 ∉ ownNames := by
  have hmem : f.1 ∈ "type" :: Reading.fieldNames d.kind :=
    (names_toFields_sublist d).subset (List.mem_map_of_mem hf)
  have hapart : ∀ kind : DescriptorKind, ∀ name ∈ "type" :: Reading.fieldNames kind,
      name ∉ ownNames := by
    intro kind
    cases kind <;> decide
  exact hapart d.kind f.1 hmem

theorem distinct_fields (p : PropSpec) :
    Entries.Distinct (p.descriptor.toFields ++ p.ownFields) := by
  rw [Entries.Distinct, Entries.names, List.map_append]
  refine List.nodup_append.2 ⟨distinct_toFields p.descriptor,
    (names_ownFields_sublist p).nodup (by decide), ?_⟩
  rintro name hname _ hown rfl
  obtain ⟨f, hf, rfl⟩ := List.mem_map.1 hname
  exact notMem_ownNames hf ((names_ownFields_sublist p).subset hown)

/-- A prop's own fields are found behind those of its descriptor. -/
theorem get?_fields (p : PropSpec) {name : String} (h : name ∈ ownNames) :
    Entries.get? name (p.descriptor.toFields ++ p.ownFields) = Entries.get? name p.ownFields := by
  have hnone : name ∉ Entries.names p.descriptor.toFields := by
    intro hname
    obtain ⟨f, hf, rfl⟩ := List.mem_map.1 hname
    exact notMem_ownNames hf h
  rw [Entries.get?_append, Entries.get?_eq_none hnone, Option.none_or]

theorem filter_fields (p : PropSpec) :
    (p.descriptor.toFields ++ p.ownFields).filter (fun field => field.1 ∉ ownNames) =
      p.descriptor.toFields := by
  have hown : p.ownFields.filter (fun field => field.1 ∉ ownNames) = [] := by
    refine List.filter_eq_nil_iff.2 fun f hf => ?_
    simpa using (names_ownFields_sublist p).subset (List.mem_map_of_mem hf)
  rw [List.filter_append, hown, List.append_nil, List.filter_eq_self.2]
  exact fun f hf => by simpa using notMem_ownNames hf

end DesignSystem.PropSpec

namespace DesignSystem.Decoder

open Json (Value)
open TypeDescriptor

/-! ## Fields -/

section

variable {fields : List (String × Value)} {name s : String}

theorem required_text (hget : Entries.get? name fields = some (.string s)) :
    (Record.ofFields fields).required name text = .ok s := required_ofFields hget rfl

theorem optional_text {a : Option String} (hget : Entries.get? name fields = a.map .string) :
    (Record.ofFields fields).optional name text = .ok a :=
  optional_ofFields hget fun _ _ => ⟨nofun, rfl⟩

theorem rereads_texts (items : List String) : Rereads (list text) textsToJson items :=
  rereads_list fun _ _ => rfl

end

/-! ## Props -/

theorem rereads_deprecation (d : Deprecation) : Rereads deprecation Deprecation.toJson d := by
  refine record_draft (((names_optionalField_sublist _ _ _).cons_cons _).cons_cons _) (by decide)
    (fun _ _ => rfl) ?_
  rw [required_text (s := d.since) rfl, required_text (s := d.reason) rfl,
    optional_text (a := d.alternative) (by simp)]
  rfl

theorem rereads_propSpec {p : PropSpec} (hd : p.descriptor.Rereads)
    (hdefault : ∀ v, p.default = some v → v ≠ .null ∧ v.IsPlain)
    (hexamples : ∀ v ∈ p.examples, v.IsPlain) : Rereads propSpec PropSpec.toJson p := by
  rw [Rereads, PropSpec.toJson_eq]
  have hget : ∀ {name v}, name ∈ PropSpec.ownNames → Entries.get? name p.ownFields = v →
      Entries.get? name (p.descriptor.toFields ++ p.ownFields) = v :=
    fun hname hv => (PropSpec.get?_fields p hname).trans hv
  -- what is left over is the descriptor
  have hothers : (Record.ofFields (p.descriptor.toFields ++ p.ownFields)).others PropSpec.ownNames =
      .ok p.descriptor.toFields := by
    rw [Record.ofFields, others_numbered, PropSpec.filter_fields]
  have hread : TypeDescriptor.ofJson? (.object p.descriptor.toFields) = some p.descriptor := hd
  have hexamples : (Record.ofFields (p.descriptor.toFields ++ p.ownFields)).withDefault "examples"
      [] (list value) = .ok p.examples := by
    by_cases hnil : p.examples = []
    · rw [hnil]
      exact withDefault_ofFields_of_missing []
        (hget (by decide) (by simp [PropSpec.ownFields, hnil]))
    · exact withDefault_ofFields [] (hget (by decide) (by simp [PropSpec.ownFields, hnil]))
        (rereads_values hexamples)
  unfold propSpec
  refine openRecord_draft (PropSpec.distinct_fields p) ?_
  rw [← PropSpec.ownNames, hothers, hexamples,
    optional_text (a := p.description) (hget (by decide) (by simp [PropSpec.ownFields])),
    withDefault_ofFields (v := .bool p.required) (a := p.required) false
      (hget (by decide) (by simp [PropSpec.ownFields])) rfl,
    optional_ofFields (a := p.default) (f := fun v => v)
      (hget (by decide) (by simp [PropSpec.ownFields]))
      fun v hv => ⟨(hdefault v hv).1, rereads_value (hdefault v hv).2⟩,
    optional_ofFields (a := p.deprecated) (f := Deprecation.toJson)
      (hget (by decide) (by simp [PropSpec.ownFields]))
      fun d _ => ⟨fun hnull => (by cases hnull), rereads_deprecation d⟩]
  dsimp only
  rw [hread]
  rfl

theorem yields_propSpec : Yields propSpec (Rereads propSpec PropSpec.toJson) := by
  unfold propSpec
  refine yields_openRecord fun r p h => ?_
  obtain ⟨_, _, h₁, -, rfl⟩ := Placed.seq_eq_ok h
  obtain ⟨_, examples, h₂, hexamples, rfl⟩ := Placed.seq_eq_ok h₁
  obtain ⟨_, default, h₃, hdefault, rfl⟩ := Placed.seq_eq_ok h₂
  obtain ⟨_, _, h₄, -, rfl⟩ := Placed.seq_eq_ok h₃
  obtain ⟨_, _, h₅, -, rfl⟩ := Placed.seq_eq_ok h₄
  obtain ⟨descriptor, hd, rfl⟩ := Placed.map_eq_ok h₅
  refine rereads_propSpec ?_ (yields_nullable_value.withDefault hdefault nofun)
    (yields_value.list.withDefault hexamples nofun)
  split at hd
  · split at hd
    · next hread =>
      rw [← Placed.ok.inj hd]
      exact rereads_of_ofJson? hread
    · cases hd
  · cases hd

/-! ## Variants and accessibility -/

theorem rereads_compoundVariant {c : CompoundVariant} (hd : c.conditions.Distinct)
    (hplain : ∀ condition ∈ c.conditions, condition.2.IsPlain) :
    Rereads compoundVariant CompoundVariant.toJson c := by
  have hconditions : Rereads (entries value) .object c.conditions := by
    have hread := rereads_entries hd fun condition h => rereads_value (hplain condition h)
    rwa [Rereads, Entries.mapValues, List.map_id'] at hread
  have hnames := names_optionalField_append_sublist "className" Value.string c.className
    (names_optionalField_sublist "description" Value.string c.description)
  refine record_draft (hnames.cons_cons "conditions") (by decide) (fun _ _ => rfl) ?_
  rw [required_ofFields (v := .object c.conditions) rfl hconditions,
    optional_text (a := c.className) (by simp),
    optional_text (a := c.description) (by simp)]
  rfl

theorem yields_compoundVariant :
    Yields compoundVariant (Rereads compoundVariant CompoundVariant.toJson) := by
  refine yields_record fun r c h => ?_
  obtain ⟨_, _, h₁, -, rfl⟩ := Placed.seq_eq_ok h
  obtain ⟨_, _, h₂, -, rfl⟩ := Placed.seq_eq_ok h₁
  obtain ⟨conditions, hconditions, rfl⟩ := Placed.map_eq_ok h₂
  obtain ⟨hd, hplain⟩ := yields_value.entries.required hconditions
  exact rereads_compoundVariant hd hplain

theorem rereads_variants {v : Variants} (hd : v.simple.Distinct)
    (hcompound : ∀ c ∈ v.compound, Rereads compoundVariant CompoundVariant.toJson c) :
    Rereads variants Variants.toJson v := by
  refine record_draft (List.Sublist.refl _) (by decide) (fun _ _ => rfl) ?_
  rw [withDefault_ofFields [] rfl (rereads_entries hd fun axis _ => rereads_texts axis.2),
    withDefault_ofFields [] rfl (rereads_list hcompound)]
  rfl

theorem yields_variants : Yields variants (Rereads variants Variants.toJson) := by
  refine yields_record fun r v h => ?_
  obtain ⟨_, compound, h₁, hcompound, rfl⟩ := Placed.seq_eq_ok h
  obtain ⟨simple, hsimple, rfl⟩ := Placed.map_eq_ok h₁
  have hany : Yields (list text) fun _ => True := fun _ _ _ => trivial
  exact rereads_variants (hany.entries.withDefault hsimple ⟨List.nodup_nil, nofun⟩).1
    (yields_compoundVariant.list.withDefault hcompound nofun)

theorem rereads_keyboardInteraction (k : KeyboardInteraction) :
    Rereads keyboardInteraction KeyboardInteraction.toJson k := by
  refine record_draft (List.Sublist.refl _) (by decide) (fun _ _ => rfl) ?_
  rw [required_text (s := k.key) rfl, required_text (s := k.action) rfl]
  rfl

theorem rereads_accessibility (a : Accessibility) :
    Rereads accessibility Accessibility.toJson a := by
  have hkeyboard := rereads_list fun k (_ : k ∈ a.keyboard) => rereads_keyboardInteraction k
  refine record_draft ((names_optionalField_append_sublist _ _ _
    (List.Sublist.refl _)).cons_cons "role") (by decide) (by decide) ?_
  rw [withDefault_ofFields (v := .string a.role) "" rfl rfl,
    optional_text (a := a.label) (by simp),
    withDefault_ofFields [] (by simp) hkeyboard,
    withDefault_ofFields [] (by simp)
      (rereads_texts a.announcements)]
  rfl

/-! ## Components -/

theorem rereads_category (category : ComponentCategory) :
    Rereads (choice ComponentCategory.all ComponentCategory.name) (fun c => .string c.name)
      category := by
  cases category <;> rfl

theorem yields_platforms :
    Yields platforms fun ids => ∀ id ∈ ids, PlatformId.ofText id.text = id := by
  have hid : Yields platformId fun id => PlatformId.ofText id.text = id := by
    intro d id hd
    obtain ⟨s, -, rfl⟩ := map_eq_ok hd
    exact PlatformId.ofText_text s
  exact yields_record fun r ids h => hid.list.withDefault h nofun

theorem rereads_platforms {ids : List PlatformId}
    (h : ∀ id ∈ ids, PlatformId.ofText id.text = id) :
    Rereads platforms (fun ids => .object [("supported", textsToJson (ids.map (·.text)))]) ids := by
  have hids : Rereads (list platformId) (fun ids => textsToJson (ids.map (·.text))) ids := by
    have hid : ∀ id ∈ ids, Rereads platformId (fun id => .string id.text) id :=
      fun id hid => congrArg Except.ok (h id hid)
    rw [Rereads, textsToJson, List.map_map]
    exact rereads_list hid
  exact record_draft (List.Sublist.refl _) (by decide) (fun _ _ => rfl)
    (withDefault_ofFields [] rfl hids)

theorem rereads_component {c : ComponentSpec} (hdistinct : c.props.Distinct)
    (hprops : ∀ p ∈ c.props, Rereads propSpec PropSpec.toJson p.2)
    (hvariants : Rereads variants Variants.toJson c.variants)
    (hplatforms : ∀ id ∈ c.platforms, PlatformId.ofText id.text = id) :
    Rereads component ComponentSpec.toJson c := by
  refine record_draft (((names_optionalField_append_sublist _ _ _
    (List.Sublist.refl _)).cons_cons _).cons_cons _) (by decide) (fun _ _ => rfl) ?_
  rw [required_text (s := c.name) rfl,
    required_ofFields (v := .string c.category.name) rfl (rereads_category c.category),
    optional_text (a := c.description) (by simp),
    withDefault_ofFields [] (by simp)
      (rereads_entries hdistinct hprops),
    withDefault_ofFields {} (by simp) hvariants,
    withDefault_ofFields {} (by simp)
      (rereads_accessibility c.accessibility),
    withDefault_ofFields [] (by simp)
      (rereads_platforms hplatforms)]
  rfl

theorem yields_component : Yields component (Rereads component ComponentSpec.toJson) := by
  refine yields_record fun r c h => ?_
  obtain ⟨_, platforms, h₁, hplatforms, rfl⟩ := Placed.seq_eq_ok h
  obtain ⟨_, _, h₂, -, rfl⟩ := Placed.seq_eq_ok h₁
  obtain ⟨_, variants, h₃, hvariants, rfl⟩ := Placed.seq_eq_ok h₂
  obtain ⟨_, props, h₄, hprops, rfl⟩ := Placed.seq_eq_ok h₃
  obtain ⟨_, _, h₅, -, rfl⟩ := Placed.seq_eq_ok h₄
  obtain ⟨_, _, h₆, -, rfl⟩ := Placed.seq_eq_ok h₅
  obtain ⟨_, -, rfl⟩ := Placed.map_eq_ok h₆
  obtain ⟨hdistinct, hrereads⟩ :=
    yields_propSpec.entries.withDefault hprops ⟨List.nodup_nil, nofun⟩
  exact rereads_component hdistinct hrereads (yields_variants.withDefault hvariants rfl)
    (yields_platforms.withDefault hplatforms nofun)

/-! ## Tokens -/

theorem rereads_group {g : Token.Group} (hplain : g.toJson.IsPlain)
    (h : Token.Group.ofFields (Token.nodesToJson g) = .ok g) :
    Rereads group Token.Group.toJson g := by
  have hvalue : value (.object (Value.draftFields (Token.nodesToJson g)) none) =
      .ok (.object (Token.nodesToJson g)) := rereads_value hplain
  rw [Rereads, Token.Group.toJson, Value.draft, group, hvalue]
  exact congrArg (Except.mapError DecodeError.leaf) h

theorem group_eq_ok {d : Json.Draft} {g : Token.Group} (h : group d = .ok g) :
    ∃ fields, value d = .ok (.object fields) ∧ Token.Group.ofFields fields = .ok g := by
  unfold group at h
  split at h
  · obtain ⟨v, hv, hread⟩ := bind_eq_ok h
    cases v with
    | object fields => exact ⟨fields, hv, mapError_eq_ok hread⟩
    | _ => cases hread
  · cases h
  · cases h

theorem yields_isPlain_group : Yields group fun g => g.toJson.IsPlain := by
  intro d g hg
  obtain ⟨fields, hv, hread⟩ := group_eq_ok hg
  exact Token.Group.isPlain_toJson (yields_value _ _ hv) hread

theorem yields_group : Yields group (Rereads group Token.Group.toJson) := by
  intro d g hg
  obtain ⟨fields, -, hread⟩ := group_eq_ok hg
  exact rereads_group (yields_isPlain_group d g hg) (Token.Group.ofFields_toJson hread)

theorem rereads_layers {t : Token.Layers}
    (h : ∀ layer, Rereads group Token.Group.toJson (t.tree layer)) :
    Rereads layers Token.Layers.toJson t := by
  refine record_draft (List.Sublist.refl _) (by decide) (fun _ _ => rfl) ?_
  rw [withDefault_ofFields [] rfl (h .primitive), withDefault_ofFields [] rfl (h .semantic),
    withDefault_ofFields [] rfl (h .component)]
  rfl

theorem yields_layers : Yields layers (Rereads layers Token.Layers.toJson) := by
  refine yields_record fun r t h => ?_
  obtain ⟨_, component, h₁, hcomponent, rfl⟩ := Placed.seq_eq_ok h
  obtain ⟨_, semantic, h₂, hsemantic, rfl⟩ := Placed.seq_eq_ok h₁
  obtain ⟨primitive, hprimitive, rfl⟩ := Placed.map_eq_ok h₂
  refine rereads_layers fun layer => ?_
  cases layer with
  | primitive => exact yields_group.withDefault hprimitive rfl
  | semantic => exact yields_group.withDefault hsemantic rfl
  | component => exact yields_group.withDefault hcomponent rfl

/-! ## Schemas -/

theorem rereads_schema {s : Schema} (htokens : Rereads layers Token.Layers.toJson s.tokens)
    (hdistinct : s.components.Distinct)
    (hcomponents : ∀ c ∈ s.components, Rereads component ComponentSpec.toJson c.2) :
    Rereads schema Schema.toJson s := by
  refine record_draft ((names_optionalField_append_sublist _ _ _
    (List.Sublist.refl _)).cons_cons _) (by decide) (fun _ _ => rfl) ?_
  rw [required_text (s := s.id) rfl,
    optional_text (a := s.version) (by simp),
    withDefault_ofFields {} (by simp) htokens,
    withDefault_ofFields [] (by simp)
      (rereads_entries hdistinct hcomponents)]
  rfl

/-- Schemas that are read are read again. -/
theorem yields_schema : Yields schema (Rereads schema Schema.toJson) := by
  refine yields_record fun r s h => ?_
  obtain ⟨_, components, h₁, hcomponents, rfl⟩ := Placed.seq_eq_ok h
  obtain ⟨_, tokens, h₂, htokens, rfl⟩ := Placed.seq_eq_ok h₁
  obtain ⟨_, _, h₃, -, rfl⟩ := Placed.seq_eq_ok h₂
  obtain ⟨_, -, rfl⟩ := Placed.map_eq_ok h₃
  obtain ⟨hdistinct, hrereads⟩ :=
    yields_component.entries.withDefault hcomponents ⟨List.nodup_nil, nofun⟩
  exact rereads_schema (yields_layers.withDefault htokens rfl) hdistinct hrereads

theorem rereads_of_ofText {text : String} {s : Schema} (h : ofText schema text = .ok s) :
    Rereads schema Schema.toJson s := by
  obtain ⟨s', hs, hcut⟩ := bind_eq_ok h
  rw [← uncut_eq_ok hcut]
  exact yields_schema _ s' hs

/-- Reads a schema and writes it. -/
def rewriteSchema (v : Value) : Except DecodeError Value := (ofJson schema v).map Schema.toJson

/-- A schema that was read from a value or from text is what is read from the value that it is
written as, so reading and writing once more changes nothing. -/
theorem schema_roundTrip :
    (∀ v s, ofJson schema v = .ok s → ofJson schema s.toJson = .ok s) ∧
    (∀ text s, ofText schema text = .ok s → ofJson schema s.toJson = .ok s) ∧
    ∀ v, (rewriteSchema v).bind rewriteSchema = rewriteSchema v := by
  have hread : ∀ v s, ofJson schema v = .ok s → ofJson schema s.toJson = .ok s :=
    fun v => yields_schema v.draft
  refine ⟨hread, fun text s => rereads_of_ofText, fun v => ?_⟩
  unfold rewriteSchema
  cases h : ofJson schema v with
  | error e => rfl
  | ok s => exact congrArg (Except.map Schema.toJson) (hread v s h)

/-- A schema in spellings other than the one in which it is written. -/
def looseBrand : Value := .object [
  ("tokens", .object [
    ("semantic", .object [
      ("gap", .string "\x7bprimitive.gap\x7d"),
      ("font", .object [("body", .array [.string "Inter", .number (.integer 4)]),
        ("alt", .object [("$ref", .string "font.body")])])]),
    ("primitive", .object [("gap", .string "4px")])]),
  ("id", .string "brand"),
  ("components", .object [("Card", .object [
    ("category", .string "layout"), ("name", .string "Card"),
    ("props", .object [("size", .object [
      ("required", .bool true), ("type", .string "custom"), ("custom", .string "size"),
      ("default", .null)])]),
    ("accessibility", .object [("screenReader", .array [.string "opened"])]),
    ("platforms", .object [("supported", .array [.string " React"])])])])]

/-- The schema that this is. -/
def brandSchema : Schema where
  id := "brand"
  tokens := {
    primitive := [("gap", .leaf (.text "4px"))]
    semantic := [("gap", .leaf (.reference "primitive.gap")),
      ("font", .group [("body", .leaf (.list ["Inter", "4"])),
        ("alt", .leaf (.reference "font.body"))])] }
  components := [("Card", {
    name := "Card"
    category := .layout
    props := [("size", { descriptor := .custom .size none, required := true })]
    accessibility := { announcements := ["opened"] }
    platforms := [⟨"react"⟩] })]

theorem schema_roundTrip_looseBrand :
    ofJson schema looseBrand = .ok brandSchema ∧ looseBrand ≠ brandSchema.toJson ∧
      ofJson schema brandSchema.toJson = .ok brandSchema := by
  have hread : ofJson schema looseBrand = .ok brandSchema := rfl
  refine ⟨hread, ?_, schema_roundTrip.1 _ _ hread⟩
  simp [looseBrand, Schema.toJson]

end DesignSystem.Decoder
