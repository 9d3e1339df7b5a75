import DesignSystem.Descriptor.Encoding
import DesignSystem.Proofs.Json.Merged

/-!
# Descriptors that were read are read again

`d.Rereads`: what `d` is written as is read as `d`.

* `rereads_primitive` … `rereads_object`: the descriptors of each kind that do.
* `rereads_of_ofJson?`: all that were read do.
-/

set_option autoImplicit false

namespace DesignSystem.TypeDescriptor

open Json (Value)

/-! ## Fields that are written -/

section

variable {α : Type}

theorem names_optionalField_sublist (name : String) (write : α → Value) (a : Option α) :
    (Entries.names (optionalField name write a)).Sublist [name] := by
  cases a with
  | none => exact List.nil_sublist _
  | some a => exact List.Sublist.refl _

theorem names_optionalField_append_sublist {fields : List (String × Value)} {names : List String}
    (name : String) (write : α → Value) (a : Option α)
    (h : (Entries.names fields).Sublist names) :
    (Entries.names (optionalField name write a ++ fields)).Sublist (name :: names) := by
  cases a with
  | none => exact h.cons name
  | some a => exact h.cons_cons name

@[simp] theorem get?_optionalField (name name' : String) (write : α → Value) (a : Option α) :
    Entries.get? name (optionalField name' write a) =
      if name' = name then a.map write else none := by
  cases a with
  | none => simp [optionalField]
  | some a => simp [optionalField]

end

theorem namedToJson_eq (fields : List (String × TypeDescriptor)) :
    namedToJson fields = Entries.mapValues toJson fields := by
  induction fields with
  | nil => rfl
  | cons f fields ih =>
    rw [namedToJson, ih]
    rfl

theorem allToJson_eq (ds : List TypeDescriptor) : allToJson ds = ds.map toJson := by
  induction ds with
  | nil => rfl
  | cons d ds ih =>
    rw [allToJson, ih]
    rfl

theorem returnsToJson_eq (returns : Option TypeDescriptor) :
    returnsToJson returns = optionalField "returns" toJson returns := by
  cases returns <;> rfl

/-- The fields of a kind are written in order. -/
theorem names_toFields_sublist (d : TypeDescriptor) :
    (Entries.names d.toFields).Sublist ("type" :: Reading.fieldNames d.kind) := by
  have hunique : ∀ b : Bool,
      (Entries.names (if b then [("unique", Value.bool true)] else [])).Sublist ["unique"] := by
    intro b
    cases b with
    | true => exact List.Sublist.refl _
    | false => exact List.nil_sublist _
  cases d with
  | primitive kind values =>
    exact ((names_optionalField_sublist _ _ values).cons_cons _).cons_cons _
  | complex kind => exact ((List.nil_sublist _).cons_cons _).cons_cons _
  | signed kind params returns => exact List.Sublist.refl _
  | custom kind values =>
    exact ((names_optionalField_sublist _ _ values).cons_cons _).cons_cons _
  | union types => exact List.Sublist.refl _
  | array items minItems maxItems unique =>
    have hbounds := names_optionalField_append_sublist "minItems" Value.ofNat minItems
      (names_optionalField_append_sublist "maxItems" Value.ofNat maxItems (hunique unique))
    rw [toFields, withKind, List.cons_append, List.cons_append, List.append_assoc]
    exact (hbounds.cons_cons _).cons_cons _
  | object properties strict => exact List.Sublist.refl _

theorem distinct_toFields (d : TypeDescriptor) : Entries.Distinct d.toFields := by
  refine (names_toFields_sublist d).nodup ?_
  cases d.kind <;> decide

/-! ## Reading fields -/

theorem readItems_eq (vs : List Value) : readItems vs = vs.map read := by
  induction vs with
  | nil => rfl
  | cons v vs ih => rw [readItems, ih, List.map_cons]

theorem readFields_eq (fields : List (String × Value)) :
    readFields fields = Entries.mapValues read fields := by
  induction fields with
  | nil => rfl
  | cons f fields ih => rw [readFields, ih, Entries.mapValues, Entries.mapValues, List.map_cons]

mutual

/-- The value of a reading is the merged value. -/
theorem value_read : ∀ v : Value, (read v).value = v.merged
  | .null => rfl
  | .bool _ => rfl
  | .number _ => rfl
  | .string _ => rfl
  | .array items => by
    rw [read, Value.merged, Value.mergedItems_eq]
    exact congrArg Value.array (values_readItems items)
  | .object fields => by
    rw [read, Value.merged_object]
    exact congrArg (fun fields => Value.object (Entries.ofList fields)) (values_readFields fields)

theorem values_readItems : ∀ vs : List Value, (readItems vs).map (·.value) = vs.map Value.merged
  | [] => rfl
  | v :: vs => by
    rw [readItems, List.map_cons, List.map_cons, value_read v, values_readItems vs]

theorem values_readFields : ∀ fields : List (String × Value),
    (readFields fields).map (fun field => (field.1, field.2.value)) =
      Entries.mapValues Value.merged fields
  | [] => rfl
  | (name, v) :: rest => by
    have hrest := values_readFields rest
    rw [Entries.mapValues] at hrest ⊢
    rw [readFields, List.map_cons, List.map_cons, value_read v, hrest]

end

namespace Reading

theorem Fields.get_of_distinct {fields : Fields} (h : Entries.Distinct fields) (name : String) :
    fields.get name = some (Entries.get? name fields) := by
  have hfilter : fields.filter (·.1 = name) =
      ((Entries.get? name fields).map fun r => (name, r)).toList := by
    induction fields with
    | nil => rfl
    | cons f rest ih =>
      obtain ⟨n, r⟩ := f
      obtain ⟨hn, hrest⟩ := Entries.distinct_cons.1 h
      rw [Entries.get?]
      by_cases heq : n = name
      · subst heq
        rw [List.filter_cons_of_pos (by simp), ih hrest, Entries.get?_eq_none hn, if_pos rfl]
        rfl
      · rw [List.filter_cons_of_neg (by simpa using heq), ih hrest, if_neg heq]
  rw [Fields.get, hfilter]
  cases Entries.get? name fields with
  | none => rfl
  | some r => rfl

variable {α : Type} {name : String} {fields : List (String × Value)} {get : Reading → Option α}

theorem get_readFields (hd : Entries.Distinct fields) (name : String) :
    Fields.get (readFields fields) name = some ((Entries.get? name fields).map read) := by
  rw [Fields.get_of_distinct, readFields_eq, Entries.get?_mapValues]
  rwa [readFields_eq, Entries.Distinct, Entries.names_mapValues]

theorem required_readFields (hd : Entries.Distinct fields) {v : Value}
    (hget : Entries.get? name fields = some v) :
    Fields.required (readFields fields) name get = get (read v) := by
  rw [Fields.required, get_readFields hd, hget]
  rfl

theorem default_readFields (hd : Entries.Distinct fields) (a : α) {v : Option Value}
    (hget : Entries.get? name fields = v) :
    Fields.default (readFields fields) name a get = v.elim (some a) fun v => get (read v) := by
  rw [Fields.default, get_readFields hd, hget]
  cases v <;> rfl

theorem optional_read {v : Value} (h : v.isNull = false) :
    optional get (read v) = (get (read v)).map some := by
  have hvalue : (read v).value.isNull = v.isNull := by cases v <;> rfl
  rw [optional, hvalue, h]
  rfl

/-- A field that may be missing. -/
theorem optional_readFields {write : α → Value} (hd : Entries.Distinct fields) {a : Option α}
    (hget : Entries.get? name fields = a.map write)
    (hread : ∀ x, a = some x → (write x).isNull = false ∧ get (read (write x)) = some x) :
    Fields.default (readFields fields) name none (optional get) = some a := by
  rw [default_readFields hd _ hget]
  cases a with
  | none => rfl
  | some x =>
    obtain ⟨hnull, hx⟩ := hread x rfl
    rw [Option.map_some, Option.elim_some, optional_read hnull, hx]
    rfl

end Reading

/-! ## Descriptors that are read again -/

/-- What a descriptor is written as is read as that descriptor. -/
def Rereads (d : TypeDescriptor) : Prop := ofJson? d.toJson = some d

open TypeDescriptor.Reading

/-- The kind is found, and what is left is to read the fields of the kind. -/
theorem ofJson?_toJson (d : TypeDescriptor) :
    ofJson? d.toJson = ofKind (readFields d.toFields) d.kind := by
  have htype : Entries.get? "type" d.toFields = some (.string d.kind.name) := by
    cases d <;> rfl
  have hkind : kind? (read (.string d.kind.name)) = some d.kind := by
    cases d.kind <;> rfl
  rw [ofJson?, toJson, read]
  simp only [Reading.ofFields]
  rw [required_readFields (distinct_toFields d) htype, hkind]
  rfl

theorem named_namedToJson {fields : List (String × TypeDescriptor)}
    (hd : Entries.Distinct fields) (h : ∀ f ∈ fields, f.2.Rereads) :
    (read (.object (namedToJson fields))).named = some fields := by
  have hall : (readFields (namedToJson fields)).mapM
      (fun field => field.2.descriptor.map fun d => (field.1, d)) = some fields := by
    rw [readFields_eq, namedToJson_eq, Entries.mapValues, Entries.mapValues, List.map_map]
    refine mapM_map_eq_pure fun f hf => ?_
    have hread : (read f.2.toJson).descriptor = some f.2 := h f hf
    simp [hread]
  rw [read]
  simp only [Reading.ofFields]
  rw [hall]
  simp [Entries.ofList_of_distinct hd]

theorem descriptors_allToJson {ds : List TypeDescriptor} (h : ∀ d ∈ ds, d.Rereads) :
    (read (.array (allToJson ds))).descriptors = some ds := by
  rw [read]
  simp only [Reading.ofItems]
  rw [readItems_eq, allToJson_eq, List.map_map]
  exact mapM_map_eq_pure h

theorem array?_read {items : List Value} (h : ∀ v ∈ items, v.IsPlain) :
    (read (.array items)).value.array? = some items := by
  rw [value_read, Value.merged_of_isPlain _ (Value.isPlain_array.2 h)]
  rfl

theorem texts_read (texts : List String) :
    Reading.texts (read (.array (texts.map .string))) = some texts := by
  have hplain : ∀ v ∈ texts.map Value.string, v.IsPlain := by
    intro v hv
    obtain ⟨s, -, rfl⟩ := List.mem_map.1 hv
    trivial
  rw [Reading.texts, array?_read hplain]
  exact mapM_map_eq_pure fun _ _ => rfl

theorem nat_read (n : Nat) : nat (read (.ofNat n)) = some n := by
  simp [nat, read, Value.ofNat, Json.Number.toNat?]

theorem complexType_read (kind : ComplexType) :
    choice ComplexType.all ComplexType.name (read (.string kind.name)) = some kind := by
  cases kind <;> rfl

theorem ofName_name (s : String) : CustomType.ofName (CustomType.ofName s).name = .ofName s := by
  fun_cases CustomType.ofName s with
  | case8 hcolor hsize hvariant hbreakpoint hlocale hemail hurl =>
    simp [CustomType.ofName, CustomType.name, *]
  | _ => rfl

theorem rereads_primitive (kind : PrimitiveType) {values : Option (List Value)}
    (h : ∀ vs, values = some vs → ∀ v ∈ vs, v.IsPlain) : (primitive kind values).Rereads := by
  have hd := distinct_toFields (primitive kind values)
  have hkind : choice PrimitiveType.all PrimitiveType.name (read (.string kind.name)) =
      some kind := by
    cases kind <;> rfl
  have hvalues : Entries.get? "enum" (primitive kind values).toFields = values.map .array := by
    simp [toFields, withKind]
  rw [Rereads, ofJson?_toJson, TypeDescriptor.kind, ofKind,
    required_readFields hd (v := .string kind.name) rfl, hkind,
    optional_readFields hd hvalues fun vs hvs => ⟨rfl, array?_read (h vs hvs)⟩]
  rfl

theorem rereads_complex (kind : ComplexType) : (complex kind).Rereads := by
  have hd := distinct_toFields (complex kind)
  have hnone : Entries.get? "signature" (complex kind).toFields = none := rfl
  rw [Rereads, ofJson?_toJson, TypeDescriptor.kind, ofKind,
    required_readFields hd (v := .string kind.name) rfl, complexType_read,
    default_readFields hd _ hnone]
  rfl

/-- The signature of a framework value. -/
def signatureToJson (params : List (String × TypeDescriptor)) (returns : Option TypeDescriptor) :
    Value :=
  .object (("params", .object (namedToJson params)) :: returnsToJson returns)

theorem signature_read {params : List (String × TypeDescriptor)} {returns : Option TypeDescriptor}
    (hd : Entries.Distinct params) (hparams : ∀ f ∈ params, f.2.Rereads)
    (hreturns : ∀ d, returns = some d → d.Rereads) :
    (read (signatureToJson params returns)).signature = some (params, returns) := by
  have hfields : Entries.Distinct
      (("params", Value.object (namedToJson params)) :: returnsToJson returns) := by
    rw [returnsToJson_eq]
    exact ((names_optionalField_sublist "returns" toJson returns).cons_cons "params").nodup
      (by decide)
  have hget : Entries.get? "returns"
      (("params", Value.object (namedToJson params)) :: returnsToJson returns) =
        returns.map toJson := by
    simp [returnsToJson_eq]
  rw [signatureToJson, read]
  simp only [Reading.ofFields]
  rw [signatureOf, default_readFields hfields _ (v := some (.object (namedToJson params))) rfl,
    Option.elim_some, named_namedToJson hd hparams,
    optional_readFields hfields hget fun d hsome => ⟨rfl, hreturns d hsome⟩]
  rfl

theorem rereads_signed (kind : ComplexType) {params : List (String × TypeDescriptor)}
    {returns : Option TypeDescriptor} (hd : Entries.Distinct params)
    (hparams : ∀ f ∈ params, f.2.Rereads) (hreturns : ∀ d, returns = some d → d.Rereads) :
    (signed kind params returns).Rereads := by
  have hfields := distinct_toFields (signed kind params returns)
  have hsignature := signature_read hd hparams hreturns
  rw [Rereads, ofJson?_toJson, TypeDescriptor.kind, ofKind,
    required_readFields hfields (v := .string kind.name) rfl, complexType_read,
    default_readFields hfields _ (v := some (signatureToJson params returns)) rfl,
    Option.elim_some, optional_read rfl, hsignature]
  rfl

theorem rereads_custom (name : String) (values : Option (List String)) :
    (custom (.ofName name) values).Rereads := by
  have hd := distinct_toFields (custom (.ofName name) values)
  have hname : (read (.string (CustomType.ofName name).name)).value.string? =
      some (CustomType.ofName name).name := rfl
  have hvalues : Entries.get? "values" (custom (.ofName name) values).toFields =
      values.map fun vs => .array (vs.map .string) := by
    simp [toFields, withKind]
  rw [Rereads, ofJson?_toJson, TypeDescriptor.kind, ofKind,
    required_readFields hd (v := .string (CustomType.ofName name).name) rfl, hname,
    optional_readFields hd hvalues fun vs _ => ⟨rfl, texts_read vs⟩]
  exact congrArg (fun kind => some (custom kind values)) (ofName_name name)

theorem rereads_union {types : List TypeDescriptor} (h : ∀ d ∈ types, d.Rereads) :
    (union types).Rereads := by
  have hd := distinct_toFields (union types)
  rw [Rereads, ofJson?_toJson, TypeDescriptor.kind, ofKind,
    required_readFields hd (v := .array (allToJson types)) rfl, descriptors_allToJson h]
  rfl

theorem rereads_array {items : TypeDescriptor} (h : items.Rereads) (minItems maxItems : Option Nat)
    (unique : Bool) : (array items minItems maxItems unique).Rereads := by
  have hd := distinct_toFields (array items minItems maxItems unique)
  have hitems : (read items.toJson).descriptor = some items := h
  have hmin : Entries.get? "minItems" (array items minItems maxItems unique).toFields =
      minItems.map .ofNat := by
    cases unique <;> simp [toFields, withKind]
  have hmax : Entries.get? "maxItems" (array items minItems maxItems unique).toFields =
      maxItems.map .ofNat := by
    cases unique <;> simp [toFields, withKind]
  have hunique : Entries.get? "unique" (array items minItems maxItems unique).toFields =
      if unique then some (.bool true) else none := by
    cases unique <;> simp [toFields, withKind]
  rw [Rereads, ofJson?_toJson, TypeDescriptor.kind, ofKind,
    required_readFields hd (v := items.toJson) rfl, hitems,
    optional_readFields hd hmin fun n _ => ⟨rfl, nat_read n⟩,
    optional_readFields hd hmax fun n _ => ⟨rfl, nat_read n⟩, default_readFields hd _ hunique]
  cases unique <;> rfl

theorem rereads_object {properties : List (String × TypeDescriptor)}
    (hproperties : Entries.Distinct properties) (h : ∀ f ∈ properties, f.2.Rereads)
    (strict : Bool) : (object properties strict).Rereads := by
  have hd := distinct_toFields (object properties strict)
  rw [Rereads, ofJson?_toJson, TypeDescriptor.kind, ofKind,
    default_readFields hd _ (v := some (.object (namedToJson properties))) rfl,
    default_readFields hd _ (v := some (.bool strict)) rfl, Option.elim_some, Option.elim_some,
    named_namedToJson hproperties h]
  rfl

/-! ## Descriptors that were read -/

namespace Reading

/-- All descriptors that a value may stand for are read again. -/
structure IsSound (r : Reading) : Prop where
  value : r.value.IsPlain
  descriptor : ∀ d, r.descriptor = some d → d.Rereads
  descriptors : ∀ ds, r.descriptors = some ds → ∀ d ∈ ds, d.Rereads
  named : ∀ fields, r.named = some fields →
    Entries.Distinct fields ∧ ∀ f ∈ fields, f.2.Rereads
  signature : ∀ params returns, r.signature = some (params, returns) →
    Entries.Distinct params ∧ (∀ f ∈ params, f.2.Rereads) ∧ ∀ d, returns = some d → d.Rereads

variable {α : Type} {fields : Fields} {name : String} {get : Reading → Option α}

theorem Fields.get_mem {r : Reading} (h : fields.get name = some (some r)) :
    ∃ f ∈ fields, f.2 = r := by
  unfold Fields.get at h
  split at h
  · cases h
  · next field heq =>
    have hmem : field ∈ fields.filter (·.1 = name) := heq ▸ List.mem_cons_self
    cases h
    exact ⟨field, (List.mem_filter.1 hmem).1, rfl⟩
  · cases h

theorem Fields.required_eq_some {a : α} (h : fields.required name get = some a) :
    ∃ f ∈ fields, get f.2 = some a := by
  obtain ⟨field, hget, h⟩ := Option.bind_eq_some_iff.1 h
  obtain ⟨r, rfl, h⟩ := Option.bind_eq_some_iff.1 h
  obtain ⟨f, hf, rfl⟩ := Fields.get_mem hget
  exact ⟨f, hf, h⟩

theorem Fields.default_eq_some {value a : α} (h : fields.default name value get = some a) :
    a = value ∨ ∃ f ∈ fields, get f.2 = some a := by
  obtain ⟨field, hget, h⟩ := Option.bind_eq_some_iff.1 h
  cases field with
  | none => exact .inl (Option.some.inj h).symm
  | some r =>
    obtain ⟨f, hf, rfl⟩ := Fields.get_mem hget
    exact .inr ⟨f, hf, h⟩

theorem optional_eq_some {r : Reading} {a : Option α} (h : optional get r = some a) {x : α}
    (ha : a = some x) : get r = some x := by
  subst ha
  unfold optional at h
  split at h
  · cases h
  · simpa using h

/-- What a field that may be missing holds is read from a field. -/
theorem Fields.optional_eq_some {a : Option α}
    (h : fields.default name none (optional get) = some a) {x : α} (ha : a = some x) :
    ∃ f ∈ fields, get f.2 = some x := by
  rcases Fields.default_eq_some h with hnone | ⟨f, hf, hread⟩
  · cases hnone.symm.trans ha
  · exact ⟨f, hf, Reading.optional_eq_some hread ha⟩

theorem IsSound.default_named (hf : ∀ f ∈ fields, f.2.IsSound) {e : Entries TypeDescriptor}
    (h : fields.default name [] Reading.named = some e) :
    Entries.Distinct e ∧ ∀ f ∈ e, f.2.Rereads := by
  rcases Fields.default_eq_some h with rfl | ⟨f, hmem, hread⟩
  · exact ⟨List.nodup_nil, nofun⟩
  · exact (hf f hmem).named e hread

theorem signatureOf_isSound (hf : ∀ f ∈ fields, f.2.IsSound) {params : Entries TypeDescriptor}
    {returns : Option TypeDescriptor} (h : signatureOf fields = some (params, returns)) :
    Entries.Distinct params ∧ (∀ f ∈ params, f.2.Rereads) ∧ ∀ d, returns = some d → d.Rereads := by
  obtain ⟨params, hparams, h⟩ := Option.bind_eq_some_iff.1 h
  obtain ⟨returns, hreturns, h⟩ := Option.bind_eq_some_iff.1 h
  cases h
  obtain ⟨hdistinct, hrereads⟩ := IsSound.default_named hf hparams
  refine ⟨hdistinct, hrereads, fun d hd => ?_⟩
  obtain ⟨f, hmem, hread⟩ := Fields.optional_eq_some hreturns hd
  exact (hf f hmem).descriptor d hread

theorem ofKind_rereads (hf : ∀ f ∈ fields, f.2.IsSound) {kind : DescriptorKind}
    {d : TypeDescriptor} (h : ofKind fields kind = some d) : d.Rereads := by
  cases kind with
  | primitive =>
    obtain ⟨kind, -, h⟩ := Option.bind_eq_some_iff.1 h
    obtain ⟨values, hvalues, h⟩ := Option.bind_eq_some_iff.1 h
    cases h
    refine rereads_primitive kind fun vs hvs => ?_
    obtain ⟨f, hmem, hread⟩ := Fields.optional_eq_some hvalues hvs
    have hplain := (hf f hmem).value
    cases hv : f.2.value with
    | array items =>
      rw [Reading.values, hv] at hread
      cases hread
      rw [hv] at hplain
      exact Value.isPlain_array.1 hplain
    | _ =>
      rw [Reading.values, hv] at hread
      cases hread
  | complex =>
    obtain ⟨kind, -, h⟩ := Option.bind_eq_some_iff.1 h
    obtain ⟨signature, hsignature, h⟩ := Option.bind_eq_some_iff.1 h
    cases signature with
    | none =>
      cases h
      exact rereads_complex kind
    | some signature =>
      obtain ⟨params, returns⟩ := signature
      cases h
      obtain ⟨f, hmem, hread⟩ := Fields.optional_eq_some hsignature rfl
      obtain ⟨hdistinct, hparams, hreturns⟩ := (hf f hmem).signature params returns hread
      exact rereads_signed kind hdistinct hparams hreturns
  | custom =>
    obtain ⟨name, -, h⟩ := Option.bind_eq_some_iff.1 h
    obtain ⟨values, -, h⟩ := Option.bind_eq_some_iff.1 h
    cases h
    exact rereads_custom name values
  | union =>
    obtain ⟨types, htypes, h⟩ := Option.bind_eq_some_iff.1 h
    cases h
    obtain ⟨f, hmem, hread⟩ := Fields.required_eq_some htypes
    exact rereads_union ((hf f hmem).descriptors types hread)
  | array =>
    obtain ⟨items, hitems, h⟩ := Option.bind_eq_some_iff.1 h
    obtain ⟨minItems, -, h⟩ := Option.bind_eq_some_iff.1 h
    obtain ⟨maxItems, -, h⟩ := Option.bind_eq_some_iff.1 h
    obtain ⟨unique, -, h⟩ := Option.bind_eq_some_iff.1 h
    cases h
    obtain ⟨f, hmem, hread⟩ := Fields.required_eq_some hitems
    exact rereads_array ((hf f hmem).descriptor items hread) minItems maxItems unique
  | object =>
    obtain ⟨properties, hproperties, h⟩ := Option.bind_eq_some_iff.1 h
    obtain ⟨strict, -, h⟩ := Option.bind_eq_some_iff.1 h
    cases h
    obtain ⟨hdistinct, hrereads⟩ := IsSound.default_named hf hproperties
    exact rereads_object hdistinct hrereads strict

theorem ofFields_isSound (hf : ∀ f ∈ fields, f.2.IsSound) : (ofFields fields).IsSound where
  value := by
    refine Value.isPlain_object.2 ⟨Entries.distinct_ofList _, fun item hitem => ?_⟩
    obtain ⟨f, hmem, rfl⟩ := List.mem_map.1 (Entries.mem_ofList hitem)
    exact (hf f hmem).value
  descriptor d h := by
    obtain ⟨kind, -, h⟩ := Option.bind_eq_some_iff.1 h
    exact ofKind_rereads hf h
  descriptors := nofun
  named entries h := by
    obtain ⟨items, hitems, h⟩ := Option.bind_eq_some_iff.1 h
    cases h
    refine ⟨Entries.distinct_ofList items, fun item hitem => ?_⟩
    obtain ⟨f, hmem, hread⟩ := mem_of_mapM_eq_some hitems (Entries.mem_ofList hitem)
    obtain ⟨d, hd, rfl⟩ := Option.map_eq_some_iff.1 hread
    exact (hf f hmem).descriptor d hd
  signature _ _ h := signatureOf_isSound hf h

/-- The fields of a record that is written as a list are among its items. -/
theorem isSound_of_ofItems? {names : List String} {items : List Reading}
    (hi : ∀ r ∈ items, r.IsSound) (h : Fields.ofItems? names items = some fields) :
    ∀ f ∈ fields, f.2.IsSound := by
  unfold Fields.ofItems? at h
  split at h
  · cases h
    exact fun f hf => hi _ (List.of_mem_zip hf).2
  · cases h

theorem ofItems_isSound {items : List Reading} (hi : ∀ r ∈ items, r.IsSound) :
    (ofItems items).IsSound where
  value := by
    refine Value.isPlain_array.2 fun v hv => ?_
    obtain ⟨r, hr, rfl⟩ := List.mem_map.1 hv
    exact (hi r hr).value
  descriptor d h := by
    obtain ⟨first, hfirst, h⟩ := Option.bind_eq_some_iff.1 h
    obtain ⟨kind, -, h⟩ := Option.bind_eq_some_iff.1 h
    obtain ⟨fields, hfields, h⟩ := Option.bind_eq_some_iff.1 h
    have htail : ∀ r ∈ items.tail, r.IsSound := fun r hr => hi r (List.mem_of_mem_tail hr)
    exact ofKind_rereads (isSound_of_ofItems? htail hfields) h
  descriptors ds h d hd := by
    obtain ⟨r, hr, hread⟩ := mem_of_mapM_eq_some h hd
    exact (hi r hr).descriptor d hread
  named := nofun
  signature params returns h := by
    obtain ⟨fields, hfields, h⟩ := Option.bind_eq_some_iff.1 h
    exact signatureOf_isSound (isSound_of_ofItems? hi hfields) h

end Reading

mutual

theorem read_isSound : ∀ v : Value, (read v).IsSound
  | .array items => Reading.ofItems_isSound (readItems_isSound items)
  | .object fields => Reading.ofFields_isSound (readFields_isSound fields)
  | .null => ⟨trivial, nofun, nofun, nofun, nofun⟩
  | .bool _ => ⟨trivial, nofun, nofun, nofun, nofun⟩
  | .number _ => ⟨trivial, nofun, nofun, nofun, nofun⟩
  | .string _ => ⟨trivial, nofun, nofun, nofun, nofun⟩

theorem readItems_isSound : ∀ vs : List Value, ∀ r ∈ readItems vs, r.IsSound
  | [], _, h => nomatch h
  | v :: vs, r, h => by
    rcases List.mem_cons.1 h with rfl | h
    · exact read_isSound v
    · exact readItems_isSound vs r h

theorem readFields_isSound : ∀ fields : List (String × Value),
    ∀ f ∈ readFields fields, f.2.IsSound
  | [], _, h => nomatch h
  | (name, v) :: fields, f, h => by
    rcases List.mem_cons.1 h with rfl | h
    · exact read_isSound v
    · exact readFields_isSound fields f h

end

/-- Descriptors that were read are read again. -/
theorem rereads_of_ofJson? {v : Value} {d : TypeDescriptor} (h : ofJson? v = some d) : d.Rereads :=
  (read_isSound v).descriptor d h

end DesignSystem.TypeDescriptor
