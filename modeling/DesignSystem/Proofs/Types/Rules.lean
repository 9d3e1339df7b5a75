import DesignSystem.Proofs.Entries
import DesignSystem.Proofs.Types.Nominal

/-!
# The rules for types in languages with named types

A type table computes the type of a descriptor. The rules say the same as a relation: one rule for
each way in which a descriptor comes to its type. What holds of all types is proved by induction on
the rules, with no look at the steps of the table.

* `Mapping.bind_inversion`: the two steps of a mapping that has a result.
* `mapNamed_inversion`, `mapAlternatives_inversion`: several descriptors have their types one by one.
* `NominalLanguage.Assigns`: the rules.
* `NominalLanguage.assigns_iff`: a descriptor has a type by the rules just if the table gives it.
-/

set_option autoImplicit false

namespace DesignSystem

theorem Mapping.bind_inversion {α β : Type} {m : Mapping α} {f : α → Mapping β} {b : β}
    (h : (m >>= f).result = .ok b) : ∃ a, m.result = .ok a ∧ (f a).result = .ok b ∧
      (m >>= f).declared = m.declared ++ (f a).declared := by
  rw [result_bind] at h
  obtain ⟨a, ha, hb⟩ := bind_eq_ok h
  refine ⟨a, ha, hb, ?_⟩
  change (m.andThen f).declared = _
  rw [andThen, ha]

theorem Mapping.result_bind_of_ok {α β : Type} {m : Mapping α} {a : α} (h : m.result = .ok a)
    (f : α → Mapping β) : (m >>= f).result = (f a).result := by
  rw [result_bind, h]
  rfl

namespace NominalLanguage

/-! ## Types of several descriptors -/

/-- The type of a descriptor under a name, and an empty text if it has none. -/
def typeUnder (l : NominalLanguage) (d : TypeDescriptor) (hint : String) : String :=
  (l.map d hint).result.toOption.getD ""

section
variable {l : NominalLanguage} {d : TypeDescriptor} {hint type : String} {ds : List Declaration}

theorem typeUnder_eq (h : (l.map d hint).result = .ok type) : l.typeUnder d hint = type := by
  rw [typeUnder, h]
  rfl

/-- A descriptor has a type under a name, and what is declared for it is among `ds`. -/
structure HasType (l : NominalLanguage) (ds : List Declaration) (d : TypeDescriptor)
    (hint type : String) : Prop where
  result : (l.map d hint).result = .ok type
  declared : (l.map d hint).declared ⊆ ds

/-- The types of parameters or fields, each under its own name. -/
theorem mapNamed_inversion : ∀ {ps : List (String × TypeDescriptor)}
    {fields : List (String × String)}, (l.mapNamed ps hint).result = .ok fields →
    (l.mapNamed ps hint).declared ⊆ ds →
    fields = ps.map (fun p => (p.1, l.typeUnder p.2 (memberHint hint p.1))) ∧
      ∀ p ∈ ps, l.HasType ds p.2 (memberHint hint p.1) (l.typeUnder p.2 (memberHint hint p.1))
  | [], _, h, _ => by
    rw [mapNamed] at h
    cases h
    exact ⟨rfl, List.forall_mem_nil _⟩
  | p :: ps, fields, h, hds => by
    rw [mapNamed] at h hds
    obtain ⟨first, hfirst, h, hdeclared⟩ := Mapping.bind_inversion h
    obtain ⟨rest, hrest, h, hdeclared'⟩ := Mapping.bind_inversion h
    cases h
    rw [hdeclared, hdeclared', List.append_subset, List.append_subset] at hds
    obtain ⟨rfl, hall⟩ := mapNamed_inversion hrest hds.2.1
    obtain rfl := typeUnder_eq hfirst
    exact ⟨rfl, List.forall_mem_cons.2 ⟨⟨hfirst, hds.1⟩, hall⟩⟩

/-- The types of alternatives, each under the name with its own number. -/
theorem mapAlternatives_inversion : ∀ {types : List TypeDescriptor} {index : ℕ}
    {members : List String}, (l.mapAlternatives types hint index).result = .ok members →
    (l.mapAlternatives types hint index).declared ⊆ ds →
    members = (types.zipIdx index).map (fun d => l.typeUnder d.1 (optionHint hint d.2)) ∧
      ∀ d ∈ types.zipIdx index,
        l.HasType ds d.1 (optionHint hint d.2) (l.typeUnder d.1 (optionHint hint d.2))
  | [], _, _, h, _ => by
    rw [mapAlternatives] at h
    cases h
    exact ⟨rfl, List.forall_mem_nil _⟩
  | d :: types, index, members, h, hds => by
    rw [mapAlternatives] at h hds
    obtain ⟨first, hfirst, h, hdeclared⟩ := Mapping.bind_inversion h
    obtain ⟨rest, hrest, h, hdeclared'⟩ := Mapping.bind_inversion h
    cases h
    rw [hdeclared, hdeclared', List.append_subset, List.append_subset] at hds
    obtain ⟨rfl, hall⟩ := mapAlternatives_inversion hrest hds.2.1
    obtain rfl := typeUnder_eq hfirst
    rw [List.zipIdx_cons]
    exact ⟨rfl, List.forall_mem_cons.2 ⟨⟨hfirst, hds.1⟩, hall⟩⟩

/-- The types of alternatives, by their places. -/
theorem mapAlternatives_getElem? {types : List TypeDescriptor} {index : ℕ} {members : List String}
    (h : (l.mapAlternatives types hint index).result = .ok members) :
    members.length = types.length ∧ ∀ i type, members[i]? = some type → ∃ d, types[i]? = some d ∧
      (l.map d (optionHint hint (index + i))).result = .ok type := by
  obtain ⟨rfl, hall⟩ := mapAlternatives_inversion h (List.Subset.refl _)
  refine ⟨by rw [List.length_map, List.length_zipIdx], fun i type htype => ?_⟩
  rw [List.getElem?_map] at htype
  obtain ⟨place, hplace, rfl⟩ := Option.map_eq_some_iff.1 htype
  have htypes := hall place (List.mem_of_getElem? hplace)
  rw [List.getElem?_zipIdx] at hplace
  obtain ⟨d, hd, rfl⟩ := Option.map_eq_some_iff.1 hplace
  exact ⟨d, hd, htypes.result⟩

theorem mapNamed_result {typeOf : String × TypeDescriptor → String} :
    ∀ {ps : List (String × TypeDescriptor)},
    (∀ p ∈ ps, (l.map p.2 (memberHint hint p.1)).result = .ok (typeOf p)) →
    (l.mapNamed ps hint).result = .ok (ps.map fun p => (p.1, typeOf p))
  | [], _ => by
    rw [mapNamed]
    rfl
  | p :: ps, h => by
    obtain ⟨hfirst, hrest⟩ := List.forall_mem_cons.1 h
    rw [mapNamed, Mapping.result_bind_of_ok hfirst, Mapping.result_bind_of_ok (mapNamed_result hrest)]
    rfl

theorem mapAlternatives_result {typeOf : TypeDescriptor × ℕ → String} :
    ∀ {types : List TypeDescriptor} {index : ℕ},
    (∀ d ∈ types.zipIdx index, (l.map d.1 (optionHint hint d.2)).result = .ok (typeOf d)) →
    (l.mapAlternatives types hint index).result = .ok ((types.zipIdx index).map typeOf)
  | [], _, _ => by
    rw [mapAlternatives]
    rfl
  | d :: types, index, h => by
    rw [List.zipIdx_cons] at h ⊢
    obtain ⟨hfirst, hrest⟩ := List.forall_mem_cons.1 h
    rw [mapAlternatives, Mapping.result_bind_of_ok hfirst,
      Mapping.result_bind_of_ok (mapAlternatives_result hrest)]
    rfl

end

/-! ## The rules -/

/-- A language assigns a type to a descriptor under a name, with the declarations `ds`. A rule for a
declared type asks for its declaration; that of the parts is asked for by their own rules. -/
inductive Assigns (l : NominalLanguage) (ds : List Declaration) :
    TypeDescriptor → String → String → Prop
  | primitive {kind : PrimitiveType} {values : Option (List Json.Value)} (hint : String) :
      enumerationValues l.name (.primitive kind values) = .ok none →
      Assigns l ds (.primitive kind values) hint (l.primitive kind)
  | custom {kind : CustomType} {values : Option (List String)} (hint : String) :
      enumerationValues l.name (.custom kind values) = .ok none →
      Assigns l ds (.custom kind values) hint (l.custom kind)
  | truth {d : TypeDescriptor} {values : List Json.Value} (hint : String) :
      enumerationValues l.name d = .ok (some values) → values.all isTruthValue = true →
      Assigns l ds d hint (l.primitive .boolean)
  | enumeration {d : TypeDescriptor} {values : List Json.Value} {hint : String} :
      enumerationValues l.name d = .ok (some values) → ¬ values.all isTruthValue = true →
      ⟨hint, l.enumeration hint values⟩ ∈ ds → Assigns l ds d hint hint
  | complex (kind : ComplexType) (hint : String) :
      Assigns l ds (.complex kind) hint (l.complex kind)
  | signed {kind : ComplexType} (params : List (String × TypeDescriptor))
      (returns : Option TypeDescriptor) (hint : String) : kind ≠ .function →
      Assigns l ds (.signed kind params returns) hint (l.complex kind)
  | action {params : List (String × TypeDescriptor)} {hint : String}
      {typeOf : String × TypeDescriptor → String} :
      (∀ p ∈ params, Assigns l ds p.2 (memberHint hint p.1) (typeOf p)) →
      Assigns l ds (.signed .function params none) hint
        (l.callback (params.map typeOf) l.noResult)
  | callback {params : List (String × TypeDescriptor)} {d : TypeDescriptor} {hint returns : String}
      {typeOf : String × TypeDescriptor → String} :
      (∀ p ∈ params, Assigns l ds p.2 (memberHint hint p.1) (typeOf p)) →
      Assigns l ds d (resultHint hint) returns →
      Assigns l ds (.signed .function params (some d)) hint
        (l.callback (params.map typeOf) returns)
  | common {types : List TypeDescriptor} {hint type : String}
      {typeOf : TypeDescriptor × ℕ → String} :
      (∀ d ∈ types.zipIdx, Assigns l ds d.1 (optionHint hint d.2) (typeOf d)) →
      commonMember? (types.zipIdx.map typeOf) = some type → Assigns l ds (.union types) hint type
  | alternatives {types : List TypeDescriptor} {hint : String}
      {typeOf : TypeDescriptor × ℕ → String} : types ≠ [] →
      (∀ d ∈ types.zipIdx, Assigns l ds d.1 (optionHint hint d.2) (typeOf d)) →
      commonMember? (types.zipIdx.map typeOf) = none →
      ⟨hint, l.alternatives hint (types.zipIdx.map typeOf)⟩ ∈ ds → Assigns l ds (.union types) hint hint
  | list {items : TypeDescriptor} {low high : Option ℕ} {unique : Bool} {hint item : String} :
      Assigns l ds items (itemHint hint) item →
      Assigns l ds (.array items low high unique) hint (l.list item)
  | openObject (properties : List (String × TypeDescriptor)) (hint : String) :
      Assigns l ds (.object properties false) hint l.openObject
  | record {properties : List (String × TypeDescriptor)} {hint : String}
      {typeOf : String × TypeDescriptor → String} :
      (∀ p ∈ properties, Assigns l ds p.2 (memberHint hint p.1) (typeOf p)) →
      (l.object hint (properties.map fun p => (p.1, typeOf p))).source = none →
      Assigns l ds (.object properties true) hint
        (l.object hint (properties.map fun p => (p.1, typeOf p))).text
  | object {properties : List (String × TypeDescriptor)} {hint source : String}
      {typeOf : String × TypeDescriptor → String} :
      (∀ p ∈ properties, Assigns l ds p.2 (memberHint hint p.1) (typeOf p)) →
      (l.object hint (properties.map fun p => (p.1, typeOf p))).source = some source →
      ⟨hint, source⟩ ∈ ds → Assigns l ds (.object properties true) hint hint

section
variable {l : NominalLanguage} {ds : List Declaration} {d : TypeDescriptor} {hint type : String}

/-! ## The table follows the rules -/

theorem map_of_enumerationValues {values : List Json.Value}
    (h : enumerationValues l.name d = .ok (some values)) (hint : String) :
    l.map d hint = l.enumerationType values hint := by
  cases d with
  | primitive | custom => simp only [map, h]
  | complex | signed | union | array | object => cases h

theorem exists_enumerationValues (h : (l.map d hint).result = .ok type) :
    ∃ found, enumerationValues l.name d = .ok found := by
  cases d with
  | primitive | custom =>
    rw [map] at h
    split at h
    · cases h
    · exact ⟨_, ‹_›⟩
    · exact ⟨_, ‹_›⟩
  | complex | signed | union | array | object => exact ⟨none, rfl⟩

theorem assigns_of_enumerationValues {values : List Json.Value}
    (hvalues : enumerationValues l.name d = .ok (some values)) (h : l.HasType ds d hint type) :
    l.Assigns ds d hint type := by
  obtain ⟨h, hds⟩ := h
  rw [map_of_enumerationValues hvalues] at h hds
  unfold enumerationType at h hds
  split at h
  · next htruth =>
    cases h
    exact .truth hint hvalues htruth
  · next hother =>
    rw [if_neg hother] at hds
    cases h
    exact .enumeration hvalues hother (hds (List.mem_singleton_self _))

theorem assigns_of_unionType {types : List TypeDescriptor} {typeOf : TypeDescriptor × ℕ → String}
    (hne : types ≠ [])
    (htypes : ∀ d ∈ types.zipIdx, l.Assigns ds d.1 (optionHint hint d.2) (typeOf d))
    (h : (l.unionType (types.zipIdx.map typeOf) hint).result = .ok type)
    (hds : (l.unionType (types.zipIdx.map typeOf) hint).declared ⊆ ds) :
    l.Assigns ds (.union types) hint type := by
  unfold unionType at h hds
  split at h
  · next hcommon =>
    cases h
    exact .common htypes hcommon
  · next hapart =>
    rw [hapart] at hds
    cases h
    exact .alternatives hne htypes hapart (hds (List.mem_singleton_self _))

theorem assigns_of_objectType {properties : List (String × TypeDescriptor)}
    {typeOf : String × TypeDescriptor → String}
    (htypes : ∀ p ∈ properties, l.Assigns ds p.2 (memberHint hint p.1) (typeOf p))
    (h : (l.objectType (properties.map fun p => (p.1, typeOf p)) hint).result = .ok type)
    (hds : (l.objectType (properties.map fun p => (p.1, typeOf p)) hint).declared ⊆ ds) :
    l.Assigns ds (.object properties true) hint type := by
  unfold objectType at h hds
  dsimp only at h hds
  split at h
  · next hsource =>
    rw [hsource] at hds
    cases h
    exact .object htypes hsource (hds (List.mem_singleton_self _))
  · next hsource =>
    cases h
    exact .record htypes hsource

theorem assigns_of_callback {params : List (String × TypeDescriptor)}
    {returns : Option TypeDescriptor} {typeOf : String × TypeDescriptor → String} {returned : String}
    (htypes : ∀ p ∈ params, l.Assigns ds p.2 (memberHint hint p.1) (typeOf p))
    (hreturns : ∀ d, returns = some d → ∀ {hint type : String}, l.HasType ds d hint type →
      l.Assigns ds d hint type)
    (h : (l.mapResult returns hint).result = .ok returned)
    (hds : (l.mapResult returns hint).declared ⊆ ds) :
    l.Assigns ds (.signed .function params returns) hint
      (l.callback (params.map typeOf) returned) := by
  cases returns with
  | none =>
    rw [mapResult] at h
    cases h
    exact .action htypes
  | some d =>
    rw [mapResult] at h hds
    exact .callback htypes (hreturns d rfl ⟨h, hds⟩)

/-- A type in the table comes from a rule. -/
theorem assigns_of_hasType (h : l.HasType ds d hint type) : l.Assigns ds d hint type := by
  induction d using TypeDescriptor.induct generalizing hint type with
  | primitive kind values =>
    obtain ⟨found, hfound⟩ := exists_enumerationValues h.result
    cases found with
    | some listed => exact assigns_of_enumerationValues hfound h
    | none =>
      have hresult := h.result
      simp only [map, hfound] at hresult
      cases hresult
      exact .primitive hint hfound
  | custom kind values =>
    obtain ⟨found, hfound⟩ := exists_enumerationValues h.result
    cases found with
    | some listed => exact assigns_of_enumerationValues hfound h
    | none =>
      have hresult := h.result
      simp only [map, hfound] at hresult
      cases hresult
      exact .custom hint hfound
  | complex kind =>
    obtain ⟨h, -⟩ := h
    rw [map] at h
    cases h
    exact .complex kind hint
  | signed kind params returns hparams hreturns =>
    obtain ⟨h, hds⟩ := h
    cases kind with
    | function =>
      rw [map] at h hds
      obtain ⟨fields, hfields, h, hdeclared⟩ := Mapping.bind_inversion h
      obtain ⟨returned, hreturned, h, hdeclared'⟩ := Mapping.bind_inversion h
      cases h
      rw [hdeclared, hdeclared', List.append_subset, List.append_subset] at hds
      obtain ⟨rfl, hall⟩ := mapNamed_inversion hfields hds.1
      rw [List.map_map]
      exact assigns_of_callback (fun p hp => hparams p hp (hall p hp)) hreturns hreturned hds.2.1
    | node | element | ref | date | file =>
      simp only [map] at h
      cases h
      exact .signed params returns hint (by decide)
  | union types ih =>
    obtain ⟨h, hds⟩ := h
    rw [map] at h hds
    split at h
    · cases h
    · next hne =>
      rw [if_neg hne] at hds
      obtain ⟨members, hmembers, h, hdeclared⟩ := Mapping.bind_inversion h
      rw [hdeclared, List.append_subset] at hds
      obtain ⟨rfl, hall⟩ := mapAlternatives_inversion hmembers hds.1
      refine assigns_of_unionType (by simpa using hne) (fun d hd => ?_) h hds.2
      exact ih d.1 (List.fst_mem_of_mem_zipIdx hd) (hall d hd)
  | array items low high unique ih =>
    obtain ⟨h, hds⟩ := h
    rw [map] at h hds
    obtain ⟨item, hitem, h, hdeclared⟩ := Mapping.bind_inversion h
    cases h
    rw [hdeclared, List.append_subset] at hds
    exact .list (ih ⟨hitem, hds.1⟩)
  | object properties strict ih =>
    obtain ⟨h, hds⟩ := h
    rw [map] at h hds
    cases strict with
    | false =>
      cases h
      exact .openObject properties hint
    | true =>
      rw [if_pos rfl] at h hds
      obtain ⟨fields, hfields, h, hdeclared⟩ := Mapping.bind_inversion h
      rw [hdeclared, List.append_subset] at hds
      obtain ⟨rfl, hall⟩ := mapNamed_inversion hfields hds.1
      exact assigns_of_objectType (fun p hp => ih p hp (hall p hp)) h hds.2

/-- A type that comes from a rule is the one in the table, whatever else is declared. -/
theorem Assigns.result (h : l.Assigns ds d hint type) : (l.map d hint).result = .ok type := by
  induction h with
  | primitive hint hvalues => simp only [map, hvalues]; rfl
  | custom hint hvalues => simp only [map, hvalues]; rfl
  | truth hint hvalues htruth =>
    rw [map_of_enumerationValues hvalues, enumerationType, if_pos htruth]
    rfl
  | enumeration hvalues hother _ =>
    rw [map_of_enumerationValues hvalues, enumerationType, if_neg hother]
    rfl
  | complex kind hint => rw [map]; rfl
  | signed params returns hint hkind =>
    rw [map]
    · rfl
    · exact hkind
  | action _ ih =>
    rw [map, Mapping.result_bind_of_ok (mapNamed_result ih), mapResult]
    change Except.ok (l.callback _ _) = _
    rw [List.map_map]
    rfl
  | callback _ _ ih ihr =>
    rw [map, Mapping.result_bind_of_ok (mapNamed_result ih), mapResult,
      Mapping.result_bind_of_ok ihr, List.map_map]
    rfl
  | @common types _ _ _ _ hcommon ih =>
    have hne : ¬ types.isEmpty = true := by
      intro hempty
      rw [List.isEmpty_iff.1 hempty] at hcommon
      cases hcommon
    rw [map, if_neg hne, Mapping.result_bind_of_ok (mapAlternatives_result ih), unionType, hcommon]
    rfl
  | alternatives hne _ hapart _ ih =>
    rw [map, if_neg (by simpa using hne), Mapping.result_bind_of_ok (mapAlternatives_result ih),
      unionType, hapart]
    rfl
  | list _ ih => rw [map, Mapping.result_bind_of_ok ih]; rfl
  | openObject properties hint => rw [map]; rfl
  | record _ hsource ih =>
    rw [map, if_pos rfl, Mapping.result_bind_of_ok (mapNamed_result ih), objectType, hsource]
    rfl
  | object _ hsource _ ih =>
    rw [map, if_pos rfl, Mapping.result_bind_of_ok (mapNamed_result ih), objectType, hsource]
    rfl

/-- The rules and the table give the same types. -/
theorem assigns_iff : l.Assigns (l.map d hint).declared d hint type ↔
    (l.map d hint).result = .ok type :=
  ⟨Assigns.result, fun h => assigns_of_hasType ⟨h, List.Subset.refl _⟩⟩

end

end NominalLanguage

end DesignSystem
