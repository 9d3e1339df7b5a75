import DesignSystem.Proofs.Entries
import DesignSystem.Proofs.Types.Nominal
import Mathlib.Data.List.Nodup

/-!
# The names of declared types

A type that is declared inside another one gets the other one's name, extended. A scope keeps the
first declaration of each name.

* `get?_declareAll`: what a scope holds under a name.
* `Apart`: at no place inside a descriptor one extension starts with another.
* `prefix_of_mem_declared`: the declarations of a descriptor have names that start with its own.
* `nodup_names_of_apart`: descriptors whose extensions are apart declare each name once.
-/

set_option autoImplicit false

namespace DesignSystem

/-! ## Scopes -/

theorem TypeScope.get?_declare (s : TypeScope) (d : Declaration) (name : String) :
    Entries.get? name (s.declare d) =
      (Entries.get? name s).or (if d.name = name then some d.source else none) := by
  unfold declare Entries.has
  split
  · next htaken =>
    by_cases hd : d.name = name
    · subst hd
      obtain ⟨source, hsource⟩ := Option.isSome_iff_exists.1 htaken
      rw [hsource, Option.some_or]
    · rw [if_neg hd, Option.or_none]
  · rw [Entries.get?_append, Entries.get?_cons, Entries.get?_nil]

/-- A scope holds the first declaration of each name. -/
theorem TypeScope.get?_declareAll (ds : List Declaration) (name : String) (s : TypeScope) :
    Entries.get? name (s.declareAll ds) =
      (Entries.get? name s).or ((ds.find? (·.name = name)).map (·.source)) := by
  unfold declareAll
  induction ds generalizing s with
  | nil => rw [List.foldl_nil, List.find?_nil, Option.map_none, Option.or_none]
  | cons d ds ih =>
    rw [List.foldl_cons, ih, get?_declare, Option.or_assoc, List.find?_cons]
    by_cases hd : d.name = name <;> simp [hd]

/-- A scope holds all of some declarations as they are just if those of one name are the same. -/
theorem TypeScope.forall_get?_declareAll_iff {ds : List Declaration} :
    (∀ d ∈ ds, Entries.get? d.name (declareAll [] ds) = some d.source) ↔
      ∀ d ∈ ds, ∀ d' ∈ ds, d.name = d'.name → d.source = d'.source := by
  simp only [get?_declareAll, Entries.get?_nil, Option.none_or]
  constructor
  · intro h d hd d' hd' hname
    have hsource := h d hd
    rw [hname, h d' hd'] at hsource
    exact (Option.some.inj hsource).symm
  · intro h d hd
    cases hfind : ds.find? (·.name = d.name) with
    | none => simpa using List.find?_eq_none.1 hfind d hd
    | some first =>
      have hname : first.name = d.name := by simpa using List.find?_some hfind
      rw [Option.map_some, h first (List.mem_of_find?_eq_some hfind) d hd hname]

/-- A mapping declares what its first step declares, and after that what the second one does. -/
theorem Mapping.declared_bind {α β : Type} (m : Mapping α) (f : α → Mapping β) :
    (m >>= f).declared = m.declared ∨ ∃ a, (m >>= f).declared = m.declared ++ (f a).declared := by
  change (m.andThen f).declared = _ ∨ ∃ a, (m.andThen f).declared = _
  unfold andThen
  cases m.result with
  | error e => exact .inl rfl
  | ok a => exact .inr ⟨a, rfl⟩

theorem Mapping.declared_bind_sublist {α β : Type} {m : Mapping α} {f : α → Mapping β}
    {first later : List Declaration} (hm : m.declared.Sublist first)
    (hf : ∀ a, (f a).declared.Sublist later) : (m >>= f).declared.Sublist (first ++ later) := by
  rcases declared_bind m f with h | ⟨a, h⟩
  · exact h ▸ hm.trans (List.sublist_append_left _ _)
  · exact h ▸ hm.append (hf a)

theorem Mapping.declared_bind_pure {α β : Type} (m : Mapping α) (f : α → β) :
    (m >>= fun a => pure (f a)).declared = m.declared := by
  rcases declared_bind m (fun a => pure (f a)) with h | ⟨a, h⟩
  · exact h
  · exact h.trans (List.append_nil _)

namespace NominalLanguage

/-! ## The parts of descriptors -/

/-- The descriptors inside a descriptor that have types of their own, each with what extends the
name for its type. -/
def parts : TypeDescriptor → List (String × TypeDescriptor)
  | .signed .function params returns =>
    params.map (fun p => (Text.pascal p.1, p.2)) ++ (returns.map fun d => ("Result", d)).toList
  | .union types => types.zipIdx.map fun d => ("Option" ++ toString (d.2 + 1), d.1)
  | .array items _ _ _ => [("Item", items)]
  | .object properties true => properties.map fun p => (Text.pascal p.1, p.2)
  | _ => []

theorem parts_induct {motive : TypeDescriptor → Prop}
    (h : ∀ d, (∀ part ∈ parts d, motive part.2) → motive d) : ∀ d, motive d := by
  intro d
  induction d using TypeDescriptor.induct with
  | primitive | complex | custom => exact h _ nofun
  | signed kind params returns hparams hreturns =>
    refine h _ fun part hpart => ?_
    cases kind with
    | function =>
      rcases List.mem_append.1 hpart with hpart | hpart
      · obtain ⟨p, hp, rfl⟩ := List.mem_map.1 hpart
        exact hparams p hp
      · cases returns with
        | none => cases hpart
        | some d => exact List.mem_singleton.1 hpart ▸ hreturns d rfl
    | _ => cases hpart
  | union types ih =>
    refine h _ fun part hpart => ?_
    obtain ⟨⟨d, index⟩, hd, rfl⟩ := List.mem_map.1 hpart
    exact ih d (List.fst_mem_of_mem_zipIdx hd)
  | array items low high unique ih =>
    exact h _ fun part hpart => List.mem_singleton.1 hpart ▸ ih
  | object properties strict ih =>
    refine h _ fun part hpart => ?_
    cases strict with
    | false => cases hpart
    | true =>
      obtain ⟨p, hp, rfl⟩ := List.mem_map.1 hpart
      exact ih p hp

variable (l : NominalLanguage)

/-- What the parts of a descriptor of a name declare. -/
def declaredByParts (parts : List (String × TypeDescriptor)) (hint : String) : List Declaration :=
  parts.flatMap fun part => (l.map part.2 (hint ++ part.1)).declared

section
variable {l} {hint : String}

theorem declaredByParts_cons (part : String × TypeDescriptor)
    (rest : List (String × TypeDescriptor)) : l.declaredByParts (part :: rest) hint =
      (l.map part.2 (hint ++ part.1)).declared ++ l.declaredByParts rest hint := rfl

theorem mapNamed_declared : ∀ named : List (String × TypeDescriptor),
    (l.mapNamed named hint).declared.Sublist
      (l.declaredByParts (named.map fun p => (Text.pascal p.1, p.2)) hint)
  | [] => by
    rw [mapNamed]
    exact .slnil
  | (name, d) :: more => by
    rw [mapNamed, List.map_cons, declaredByParts_cons]
    refine Mapping.declared_bind_sublist (.refl _) fun first => ?_
    rw [Mapping.declared_bind_pure]
    exact mapNamed_declared more

theorem mapAlternatives_declared : ∀ (ds : List TypeDescriptor) (index : Nat),
    (l.mapAlternatives ds hint index).declared.Sublist
      (l.declaredByParts ((ds.zipIdx index).map fun d => ("Option" ++ toString (d.2 + 1), d.1)) hint)
  | [], _ => by
    rw [mapAlternatives]
    exact .slnil
  | d :: ds, index => by
    rw [mapAlternatives, List.zipIdx_cons, List.map_cons, declaredByParts_cons, optionHint,
      String.append_assoc]
    refine Mapping.declared_bind_sublist (.refl _) fun first => ?_
    rw [Mapping.declared_bind_pure]
    exact mapAlternatives_declared ds (index + 1)

theorem mapResult_declared (returns : Option TypeDescriptor) : (l.mapResult returns hint).declared =
    l.declaredByParts (returns.map fun d => ("Result", d)).toList hint := by
  cases returns with
  | none =>
    rw [mapResult]
    rfl
  | some d =>
    rw [mapResult, Option.map_some, Option.toList_some, declaredByParts_cons, resultHint]
    exact (List.append_nil _).symm

/-- Declarations of no type, or of one that has the given name itself. -/
def IsOwn (hint : String) (own : List Declaration) : Prop :=
  own = [] ∨ ∃ source, own = [⟨hint, source⟩]

theorem isOwn_enumerationType (values : List Json.Value) :
    IsOwn hint (l.enumerationType values hint).declared := by
  unfold enumerationType
  split
  · exact .inl rfl
  · exact .inr ⟨_, rfl⟩

theorem isOwn_unionType (members : List String) :
    IsOwn hint (l.unionType members hint).declared := by
  unfold unionType
  split
  · exact .inl rfl
  · exact .inr ⟨_, rfl⟩

theorem isOwn_objectType (fields : List (String × String)) :
    IsOwn hint (l.objectType fields hint).declared := by
  unfold objectType
  dsimp only
  split
  · exact .inr ⟨_, rfl⟩
  · exact .inl rfl

/-- A mapping whose first step declares what some parts do, and whose second step what is its
own. -/
theorem declared_bind_own {α : Type} {m : Mapping α} {f : α → Mapping String}
    {ofParts : List Declaration} (hm : m.declared.Sublist ofParts)
    (hf : ∀ a, IsOwn hint (f a).declared) :
    ∃ own, IsOwn hint own ∧ (m >>= f).declared.Sublist (ofParts ++ own) := by
  rcases Mapping.declared_bind m f with h | ⟨a, h⟩
  · exact ⟨[], .inl rfl, by rw [h, List.append_nil]; exact hm⟩
  · exact ⟨_, hf a, by rw [h]; exact hm.append_right _⟩

/-- Under a name a descriptor declares what its parts do, and at most one type of that name. -/
theorem map_declared (hint : String) (d : TypeDescriptor) : ∃ own, IsOwn hint own ∧
    (l.map d hint).declared.Sublist (l.declaredByParts (parts d) hint ++ own) := by
  cases d with
  | primitive kind values =>
    rw [map]
    split
    · exact ⟨[], .inl rfl, .slnil⟩
    · exact ⟨_, isOwn_enumerationType _, .refl _⟩
    · exact ⟨[], .inl rfl, .slnil⟩
  | custom kind values =>
    rw [map]
    split
    · exact ⟨[], .inl rfl, .slnil⟩
    · exact ⟨_, isOwn_enumerationType _, .refl _⟩
    · exact ⟨[], .inl rfl, .slnil⟩
  | complex kind =>
    rw [map]
    exact ⟨[], .inl rfl, .slnil⟩
  | signed kind params returns =>
    by_cases hk : kind = .function
    · subst hk
      rw [map]
      refine ⟨[], .inl rfl, ?_⟩
      rw [List.append_nil, parts, declaredByParts, List.flatMap_append]
      refine Mapping.declared_bind_sublist (mapNamed_declared params) fun types => ?_
      rw [Mapping.declared_bind_pure]
      exact (mapResult_declared returns).symm ▸ .refl _
    · refine ⟨[], .inl rfl, ?_⟩
      have hcomplex : l.map (.signed kind params returns) hint = pure (l.complex kind) := by
        rw [map]
        exact hk
      rw [hcomplex]
      exact List.nil_sublist _
  | union types =>
    rw [map]
    split
    · exact ⟨[], .inl rfl, List.nil_sublist _⟩
    · exact declared_bind_own (mapAlternatives_declared types 0) isOwn_unionType
  | array items low high unique =>
    rw [map, Mapping.declared_bind_pure, parts, declaredByParts_cons, itemHint]
    exact ⟨[], .inl rfl, by simp [declaredByParts]⟩
  | object properties strict =>
    rw [map]
    cases strict with
    | true => exact declared_bind_own (mapNamed_declared properties) isOwn_objectType
    | false => exact ⟨[], .inl rfl, .slnil⟩

/-! ## Names -/

/-- All types that are declared for a descriptor of a name have names that start with it. -/
theorem prefix_of_mem_declared (d : TypeDescriptor) : ∀ hint, ∀ x ∈ (l.map d hint).declared,
    hint.toList <+: x.name.toList := by
  induction d using parts_induct with
  | h d ih =>
    intro hint x hx
    obtain ⟨own, hown, hsub⟩ := map_declared (l := l) hint d
    rcases List.mem_append.1 (hsub.subset hx) with hx | hx
    · obtain ⟨part, hpart, hx⟩ := List.mem_flatMap.1 hx
      have hlonger := ih part hpart _ x hx
      rw [String.toList_append] at hlonger
      exact (List.prefix_append _ _).trans hlonger
    · rcases hown with rfl | ⟨source, rfl⟩
      · cases hx
      · exact List.mem_singleton.1 hx ▸ List.prefix_rfl

/-- Extensions of a name that are not empty, none of which another one starts with. -/
def Free (extensions : List String) : Prop :=
  "" ∉ extensions ∧ extensions.Pairwise fun a b => ¬ a.toList <+: b.toList ∧ ¬ b.toList <+: a.toList

instance (extensions : List String) : Decidable (Free extensions) :=
  inferInstanceAs (Decidable (_ ∧ _))

/-- The extensions are free at every place inside a descriptor. -/
inductive Apart : TypeDescriptor → Prop
  | of_parts {d : TypeDescriptor} : Free ((parts d).map (·.1)) →
      (∀ part ∈ parts d, Apart part.2) → Apart d

/-- Parts that extend a name declare no type of this name. -/
theorem notMem_declaredByParts {parts : List (String × TypeDescriptor)}
    (h : "" ∉ parts.map (·.1)) : hint ∉ (l.declaredByParts parts hint).map (·.name) := by
  intro hmem
  obtain ⟨x, hx, hname⟩ := List.mem_map.1 hmem
  obtain ⟨part, hpart, hx⟩ := List.mem_flatMap.1 hx
  have hlonger := prefix_of_mem_declared part.2 _ x hx
  rw [hname, String.toList_append] at hlonger
  have hempty : part.1 = "" := by
    have hlength := hlonger.length_le
    rw [List.length_append] at hlength
    exact String.toList_eq_nil_iff.1 (List.length_eq_zero_iff.1 (by omega))
  exact h (hempty ▸ List.mem_map_of_mem hpart)

/-- Parts with free extensions of a name declare all types under names of their own, none of which
is the name itself. -/
theorem nodup_names_of_free (hint : String) {parts : List (String × TypeDescriptor)}
    (hfree : Free (parts.map (·.1)))
    (hparts : ∀ part ∈ parts, ∀ hint, ((l.map part.2 hint).declared.map (·.name)).Nodup) :
    ((l.declaredByParts parts hint).map (·.name)).Nodup ∧
      hint ∉ (l.declaredByParts parts hint).map (·.name) := by
  refine ⟨?_, notMem_declaredByParts hfree.1⟩
  rw [declaredByParts, List.map_flatMap, List.nodup_flatMap]
  refine ⟨fun part hpart => hparts part hpart _, (List.pairwise_map.1 hfree.2).imp ?_⟩
  intro a b hab name ha hb
  obtain ⟨x, hx, rfl⟩ := List.mem_map.1 ha
  obtain ⟨y, hy, hname⟩ := List.mem_map.1 hb
  -- the name would start with the extensions of both
  have hpa := prefix_of_mem_declared a.2 _ x hx
  have hpb := prefix_of_mem_declared b.2 _ y hy
  rw [hname] at hpb
  rw [String.toList_append] at hpa hpb
  rcases List.prefix_or_prefix_of_prefix hpa hpb with h | h
  · exact hab.1 ((List.prefix_append_right_inj _).1 h)
  · exact hab.2 ((List.prefix_append_right_inj _).1 h)

/-- A descriptor whose extensions are apart declares each name once. -/
theorem nodup_names_of_apart {d : TypeDescriptor} (h : Apart d) :
    ∀ hint, ((l.map d hint).declared.map (·.name)).Nodup := by
  induction h with
  | of_parts hfree _ ih =>
    intro hint
    obtain ⟨own, hown, hsub⟩ := map_declared (l := l) hint _
    obtain ⟨hnodup, hnew⟩ := nodup_names_of_free hint hfree ih
    refine (hsub.map _).nodup ?_
    rw [List.map_append]
    rcases hown with rfl | ⟨source, rfl⟩
    · simpa using hnodup
    · refine List.nodup_append.2 ⟨hnodup, List.nodup_cons.2 ⟨List.not_mem_nil, .nil⟩, ?_⟩
      rintro name hname _ hlast rfl
      obtain rfl : name = hint := List.mem_singleton.1 hlast
      exact hnew hname

end

end NominalLanguage

end DesignSystem
