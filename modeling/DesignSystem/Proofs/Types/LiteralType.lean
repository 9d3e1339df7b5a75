import DesignSystem.Proofs.Types.LiteralReading
import DesignSystem.Proofs.Types.Scope

/-!
# Literals have the type that their descriptor is mapped to

The literal of a value and the type of its descriptor are found by two recursions that do not know
of each other.

* `Dialect.Covers`: the type of a descriptor has literals for a value.
* `ending`: how a type ends, which tells lists, declared types and the types of scalars apart.
* `exists_reads_literal`: a literal is of the type just if the type has literals for the value.
-/

set_option autoImplicit false

namespace DesignSystem

open Reading

/-- Which descriptors a value is written for: those of the items of lists and of alternatives. -/
inductive TypeDescriptor.Writes : TypeDescriptor → TypeDescriptor → Prop
  | self (d : TypeDescriptor) : Writes d d
  | member {types : List TypeDescriptor} {d inner : TypeDescriptor} (h : d ∈ types)
      (hd : Writes d inner) : Writes (.union types) inner
  | item {items inner : TypeDescriptor} {low high : Option Nat} {unique : Bool}
      (hd : Writes items inner) : Writes (.array items low high unique) inner

/-- All descriptors that a value is written for have a property. -/
def TypeDescriptor.EachWritten (P : TypeDescriptor → Prop) (d : TypeDescriptor) : Prop :=
  ∀ inner, d.Writes inner → P inner

namespace TypeDescriptor.EachWritten

variable {P : TypeDescriptor → Prop} {d : TypeDescriptor}

theorem self (h : d.EachWritten P) : P d := h d (.self d)

theorem member {types : List TypeDescriptor} (h : (union types).EachWritten P) (hd : d ∈ types) :
    d.EachWritten P := fun inner hinner => h inner (.member hd hinner)

theorem item {low high : Option Nat} {unique : Bool} (h : (array d low high unique).EachWritten P) :
    d.EachWritten P := fun inner hinner => h inner (.item hinner)

end TypeDescriptor.EachWritten

/-- A number stands in a value, or in the items of a list. -/
inductive Json.Value.HasNumber (n : Json.Number) : Json.Value → Prop
  | self : HasNumber n (.number n)
  | item {items : List Json.Value} {v : Json.Value} (hv : v ∈ items) (h : HasNumber n v) :
      HasNumber n (.array items)

namespace Reading.Dialect

mutual

/-- The type of a descriptor has literals for a value. Alternatives that have any have the first's. -/
def Covers (y : Dialect) : TypeDescriptor → Json.Value → Prop
  | .primitive kind _, v => kind.admits v = true ∧ ∀ n, v = .number n → y.TakesNumber n
  | .custom _ _, v => ∃ s, v = .string s
  | .union types, v => CoversFirst y types v
  | .array items _ _ _, v => ∃ elements, v = .array elements ∧ ∀ e ∈ elements, Covers y items e
  | .complex _, _ => False
  | .signed _ _ _, _ => False
  | .object _ _, _ => False

def CoversFirst (y : Dialect) : List TypeDescriptor → Json.Value → Prop
  | [], _ => False
  | d :: _, v => Covers y d v

end

variable {y : Dialect} {d : TypeDescriptor} {v : Json.Value} {hint type text : String}

/-! ## Types told apart by how they end -/

/-- How the text of a type ends. -/
inductive Ending
  /-- With the name of a type of the language. -/
  | word
  /-- With what a name is extended by for items and alternatives. -/
  | name
  | mark
  deriving DecidableEq

def ending (text : String) : Ending :=
  match text.toList.getLast? with
  | some c => if c = 'm' ∨ c.isDigit then .name else if c.isAlpha then .word else .mark
  | none => .mark

theorem ending_append {more : String} (h : more ≠ "") (text : String) :
    ending (text ++ more) = ending more := by
  have hne : more.toList ≠ [] := by
    intro hnil
    exact h (String.toList_injective hnil)
  rw [ending, String.toList_append, List.getLast?_append_of_ne_nil _ hne]
  rfl

theorem ending_scalarType (y : Dialect) (kind : PrimitiveType) :
    ending (y.scalarType kind) = .word := by
  cases y <;> cases kind <;> rfl

theorem ending_custom (y : Dialect) (kind : CustomType) :
    ending (y.language.custom kind) = .word := by
  cases kind with
  | other name =>
    cases y <;> change ending "String" = .word <;> rfl
  | _ => cases y <;> rfl

theorem ending_listType (y : Dialect) (item : String) : ending (y.listType item) = .mark := by
  cases y <;> exact ending_append (by decide) _

theorem ending_itemHint (hint : String) : ending (NominalLanguage.itemHint hint) = .name :=
  ending_append (by decide) _

theorem ending_optionHint (hint : String) (index : Nat) :
    ending (NominalLanguage.optionHint hint index) = .name := by
  have hdigits := Json.toList_toString (index + 1)
  have hne := Json.digitsOf_ne_nil (index + 1)
  have hlast := Json.allDigits_digitsOf (index + 1) _ (List.getLast_mem hne)
  have htext : toString (index + 1) ≠ "" := by
    intro hnil
    rw [hnil] at hdigits
    exact hne hdigits.symm
  rw [NominalLanguage.optionHint, ending_append htext, ending, hdigits,
    List.getLast?_eq_some_getLast hne]
  exact if_pos (.inr hlast)

theorem ending_record {fields : List (String × String)}
    (hsource : (y.language.object hint fields).source = none) :
    ending (y.language.object hint fields).text = .mark := by
  cases y with
  | swift | kotlin => cases hsource
  | dart =>
    change ending (if (fields.map _).isEmpty then "()" else _) = .mark
    split
    · rfl
    · exact ending_append (by decide) _

theorem ending_openObject (y : Dialect) : ending y.language.openObject = .mark := by
  cases y <;> rfl

/-! ## Scalars -/

theorem scalarType_injective {kind kind' : PrimitiveType} (h : y.scalarType kind = y.scalarType kind') :
    kind = kind' := by
  cases y <;> cases kind <;> cases kind' <;> first | rfl | exact absurd h (by decide)

/-- A scalar is written as a literal of its own type. -/
theorem exists_reads_scalar (h : y.language.scalarLiteral? v = some text) :
    ∃ e : Literal, y.Reads text e ∧ ∀ type, e.HasType y type ↔ ∃ kind : PrimitiveType,
      kind.admits v = true ∧ type = y.scalarType kind ∧ ∀ n, v = .number n → y.TakesNumber n := by
  cases v with
  | string s =>
    cases h
    refine ⟨.text s, reads_quoted y s, fun type => Literal.hasType_text_iff.trans ?_⟩
    constructor
    · intro htype
      exact ⟨.string, rfl, htype, by simp⟩
    · rintro ⟨kind, hkind, htype, -⟩
      cases kind with
      | string => exact htype
      | number | boolean => cases hkind
  | number n =>
    cases h
    refine ⟨_, reads_number y n, fun type => hasType_number_iff.trans ?_⟩
    constructor
    · rintro ⟨htype, htakes⟩
      exact ⟨.number, rfl, htype, by rintro _ ⟨⟩; exact htakes⟩
    · rintro ⟨kind, hkind, htype, htakes⟩
      cases kind with
      | number => exact ⟨htype, htakes n rfl⟩
      | string | boolean => cases hkind
  | bool b =>
    cases h
    refine ⟨.truth b, reads_truth y b, fun type => Literal.hasType_truth_iff.trans ?_⟩
    constructor
    · intro htype
      exact ⟨.boolean, rfl, htype, by simp⟩
    · rintro ⟨kind, hkind, htype, -⟩
      cases kind with
      | boolean => exact htype
      | string | number => cases hkind
  | null | array | object => cases h

/-- The types of callbacks and other framework values are not those of scalars. -/
theorem scalarType_ne_complex (y : Dialect) (kind : PrimitiveType) (framework : ComplexType) :
    y.language.complex framework ≠ y.scalarType kind := by
  cases y <;> cases kind <;> cases framework <;> decide

theorem scalarType_ne_callback (y : Dialect) (kind : PrimitiveType) (params : List String)
    (returns : String) : y.language.callback params returns ≠ y.scalarType kind := by
  intro h
  cases y with
  | dart =>
    have hend := congrArg ending h
    rw [ending_scalarType] at hend
    cases hend.symm.trans (ending_append (by decide) _)
  | swift | kotlin =>
    have hhead : ("(" ++ Text.join ", " params ++ ") -> " ++ returns).toList.head? = some '(' := by
      simp [String.toList_append]
    have hsame := hhead.symm.trans (congrArg (fun s => s.toList.head?) h)
    cases kind <;> cases hsame

/-- Where the type is not that of a scalar, no scalar is of the type. -/
theorem exists_reads_of_ne (h : y.language.scalarLiteral? v = some text)
    (hne : ∀ kind, type ≠ y.scalarType kind) (hcovers : ¬ y.Covers d v) :
    ∃ e : Literal, y.Reads text e ∧ (e.HasType y type ↔ y.Covers d v) := by
  obtain ⟨e, hreads, htype⟩ := exists_reads_scalar h
  refine ⟨e, hreads, iff_of_false (fun he => ?_) hcovers⟩
  obtain ⟨kind, -, heq, -⟩ := (htype type).1 he
  exact hne kind heq

theorem custom_eq_scalarType {kind : CustomType} {scalar : PrimitiveType}
    (h : y.language.custom kind = y.scalarType scalar) : scalar = .string := by
  cases kind with
  | other name =>
    have hstring : y.language.custom (.other name) = y.scalarType .string := by cases y <;> rfl
    exact scalarType_injective (h.symm.trans hstring)
  | _ => cases y <;> cases scalar <;> first | rfl | exact absurd h (by decide)

theorem custom_of_ne {kind : CustomType} (hcolor : kind ≠ .color) (hurl : kind ≠ .url) :
    y.language.custom kind = y.scalarType .string := by
  cases kind with
  | color => exact absurd rfl hcolor
  | url => exact absurd rfl hurl
  | _ => cases y <;> rfl

theorem exists_reads_custom {kind : CustomType} {values : Option (List String)}
    (hd : TypeDescriptor.enumerated? (.custom kind values) = none)
    (h : y.language.literal? (.custom kind values) v hint = some text) :
    ∃ e : Literal, y.Reads text e ∧ (e.HasType y (y.language.custom kind) ↔ ∃ s, v = .string s) := by
  have hscalar : y.language.scalarLiteral? v = some text →
      ((∃ s, v = .string s) → kind ≠ .color ∧ kind ≠ .url) →
      ∃ e : Literal, y.Reads text e ∧ (e.HasType y (y.language.custom kind) ↔ ∃ s, v = .string s) := by
    intro hwritten hkind
    obtain ⟨e, hreads, htype⟩ := exists_reads_scalar hwritten
    refine ⟨e, hreads, (htype _).trans ⟨?_, ?_⟩⟩
    · rintro ⟨scalar, hadmits, heq, -⟩
      cases custom_eq_scalarType heq
      cases v with
      | string s => exact ⟨s, rfl⟩
      | _ => cases hadmits
    · rintro ⟨s, rfl⟩
      obtain ⟨hcolor, hurl⟩ := hkind ⟨s, rfl⟩
      exact ⟨.string, rfl, custom_of_ne hcolor hurl, by simp⟩
  unfold NominalLanguage.literal? at h
  split at h
  · next hvalues =>
    rw [enumerationValues, hd] at hvalues
    dsimp only at hvalues
    split at hvalues <;> cases hvalues
  · split at h
    · next s _ =>
      obtain ⟨source, hreads⟩ := exists_reads_color y h
      refine ⟨_, hreads, Literal.hasType_made_iff.trans ⟨fun _ => ⟨s, rfl⟩, fun _ => ?_⟩⟩
      cases y <;> rfl
    · next s _ =>
      cases h
      obtain ⟨e, hreads, htype⟩ := exists_reads_url y s
      exact ⟨e, hreads, fun _ => ⟨s, rfl⟩, fun _ => htype⟩
    · next hcolor hurl =>
      refine hscalar h ?_
      rintro ⟨s, rfl⟩
      refine ⟨?_, ?_⟩ <;> rintro rfl
      · exact hcolor s rfl rfl
      · exact hurl s rfl rfl

/-! ## Alternatives -/

theorem mapAlternatives_cons {d : TypeDescriptor} {ds : List TypeDescriptor} {index : Nat}
    {types : List String} (h : (y.language.mapAlternatives (d :: ds) hint index).result = .ok types) :
    ∃ first rest, types = first :: rest ∧
      (y.language.map d (NominalLanguage.optionHint hint index)).result = .ok first ∧
      (y.language.mapAlternatives ds hint (index + 1)).result = .ok rest := by
  rw [NominalLanguage.mapAlternatives] at h
  obtain ⟨first, hfirst, h, -⟩ := Mapping.bind_inversion h
  obtain ⟨rest, hrest, h, -⟩ := Mapping.bind_inversion h
  cases h
  exact ⟨first, rest, rfl, hfirst, hrest⟩

/-- Alternatives with a literal have one type, and the literal is that of the first. -/
theorem exists_common {types : List TypeDescriptor}
    (h : y.language.literal? (.union types) v hint = some text)
    (hmap : (y.language.map (.union types) hint).result = .ok type) :
    ∃ first rest, types = first :: rest ∧
      (y.language.map first (NominalLanguage.optionHint hint 0)).result = .ok type ∧
      y.language.literal? first v (NominalLanguage.optionHint hint 0) = some text ∧
      ∃ others, (y.language.mapAlternatives rest hint 1).result = .ok others ∧
        ∀ other ∈ others, other = type := by
  rw [NominalLanguage.literal?] at h
  split_ifs at h with hcommon
  cases types with
  | nil => cases h
  | cons first rest =>
    rw [NominalLanguage.map] at hmap
    obtain ⟨members, hmembers, hmap, -⟩ := Mapping.bind_inversion hmap
    rw [NominalLanguage.hasCommonType, hmembers] at hcommon
    obtain ⟨t, others, rfl, hfirst, hothers⟩ := mapAlternatives_cons hmembers
    unfold NominalLanguage.unionType at hmap
    split at hmap
    · next single hsingle =>
      cases hmap
      unfold commonMember? at hsingle
      dsimp only at hsingle
      split_ifs at hsingle with hall
      cases hsingle
      refine ⟨first, rest, rfl, hfirst, h, others, hothers, ?_⟩
      simpa using hall
    · next hnone =>
      dsimp only at hcommon
      rw [hnone] at hcommon
      cases hcommon

/-! ## What is written for a value -/

theorem map_primitive {kind : PrimitiveType} {values : Option (List Json.Value)}
    (hd : TypeDescriptor.enumerated? (.primitive kind values) = none)
    (hmap : (y.language.map (.primitive kind values) hint).result = .ok type) :
    type = y.scalarType kind := by
  cases values with
  | some values => cases hd
  | none =>
    cases hmap
    exact language_primitive y kind

theorem map_custom {kind : CustomType} {values : Option (List String)}
    (hd : TypeDescriptor.enumerated? (.custom kind values) = none)
    (hmap : (y.language.map (.custom kind values) hint).result = .ok type) :
    type = y.language.custom kind := by
  rw [NominalLanguage.map, enumerationValues, hd] at hmap
  dsimp only at hmap
  cases hkind : kind.isTextual with
  | true =>
    rw [if_pos hkind] at hmap
    cases hmap
    rfl
  | false =>
    rw [if_neg (by simp [hkind])] at hmap
    cases hmap

theorem map_array {items : TypeDescriptor} {low high : Option Nat} {unique : Bool}
    (hmap : (y.language.map (.array items low high unique) hint).result = .ok type) :
    ∃ item, type = y.listType item ∧
      (y.language.map items (NominalLanguage.itemHint hint)).result = .ok item := by
  cases NominalLanguage.assigns_iff.2 hmap with
  | list hitem => exact ⟨_, language_list y _, hitem.result⟩
  | truth _ hvalues | enumeration hvalues => cases hvalues

theorem map_object {properties : List (String × TypeDescriptor)} {strict : Bool}
    (hmap : (y.language.map (.object properties strict) hint).result = .ok type) :
    type = hint ∨ ending type = .mark := by
  cases NominalLanguage.assigns_iff.2 hmap with
  | openObject => exact .inr (ending_openObject y)
  | record _ hsource => exact .inr (ending_record hsource)
  | object => exact .inl rfl
  | truth _ hvalues | enumeration hvalues => cases hvalues

theorem map_complex_ne {kind : ComplexType} {params : List (String × TypeDescriptor)}
    {returns : Option TypeDescriptor}
    (hmap : (y.language.map (.signed kind params returns) hint).result = .ok type)
    (scalar : PrimitiveType) : type ≠ y.scalarType scalar := by
  cases NominalLanguage.assigns_iff.2 hmap with
  | signed => exact scalarType_ne_complex y scalar _
  | action | callback => exact scalarType_ne_callback y scalar _ _
  | truth _ hvalues | enumeration hvalues => cases hvalues

theorem listType_injective {item item' : String} (h : y.listType item = y.listType item') :
    item = item' := by
  have hlist := congrArg String.toList h
  cases y <;> simp only [listType, String.toList_append, List.append_left_inj,
    List.append_right_inj] at hlist <;> exact String.toList_injective hlist

/-- The items of a list are written one by one. -/
theorem exists_reads_items {items : TypeDescriptor} {item inner : String}
    (hitem : ∀ {v text}, y.language.literal? items v inner = some text →
      ∃ e : Literal, y.Reads text e ∧ (e.HasType y item ↔ y.Covers items v))
    {elements : List Json.Value} {texts : List String}
    (h : elements.mapM (fun v => y.language.literal? items v inner) = some texts) :
    ∃ es : List Literal, List.Forall₂ y.Reads texts es ∧
      ((∀ e ∈ es, e.HasType y item) ↔ ∀ v ∈ elements, y.Covers items v) := by
  have hall := forall₂_of_mapM_eq_some h
  clear h
  induction hall with
  | nil => exact ⟨[], .nil, by simp⟩
  | cons hfirst _ ih =>
    obtain ⟨e, hreads, htype⟩ := hitem hfirst
    obtain ⟨es, hes, htypes⟩ := ih
    refine ⟨e :: es, .cons hreads hes, ?_⟩
    rw [List.forall_mem_cons, List.forall_mem_cons, htype, htypes]

/-- A literal is of the type of its descriptor, just if this type has literals for the value. -/
theorem exists_reads_literal (hd : d.EachWritten (·.enumerated? = none))
    (hobject : (∃ properties strict, d = .object properties strict) → ending hint ≠ .word)
    (hmap : (y.language.map d hint).result = .ok type)
    (h : y.language.literal? d v hint = some text) :
    ∃ e : Literal, y.Reads text e ∧ (e.HasType y type ↔ y.Covers d v) := by
  induction d using TypeDescriptor.induct generalizing v hint type text with
  | primitive kind values =>
    have hvalues := hd.self
    obtain rfl := map_primitive hvalues hmap
    cases values with
    | some values => cases hvalues
    | none =>
      obtain ⟨e, hreads, htype⟩ := exists_reads_scalar h
      refine ⟨e, hreads, (htype _).trans ⟨?_, ?_⟩⟩
      · rintro ⟨scalar, hadmits, heq, htakes⟩
        cases scalarType_injective heq
        exact ⟨hadmits, htakes⟩
      · rintro ⟨hadmits, htakes⟩
        exact ⟨kind, hadmits, rfl, htakes⟩
  | complex kind =>
    cases hmap
    exact exists_reads_of_ne h (fun scalar => scalarType_ne_complex y scalar kind) id
  | signed kind params returns => exact exists_reads_of_ne h (map_complex_ne hmap) id
  | custom kind values =>
    obtain rfl := map_custom hd.self hmap
    exact exists_reads_custom hd.self h
  | union types ih =>
    obtain ⟨first, rest, rfl, hfirst, hliteral, -⟩ := exists_common h hmap
    refine ih first List.mem_cons_self (hd.member List.mem_cons_self) (fun _ => ?_) hfirst hliteral
    rw [ending_optionHint]
    decide
  | array items low high unique ih =>
    obtain ⟨item, rfl, hitem⟩ := map_array hmap
    cases v with
    | array elements =>
      obtain ⟨texts, htexts, rfl⟩ := Option.map_eq_some_iff.1 h
      have hinner : ∀ {v text}, y.language.literal? items v (NominalLanguage.itemHint hint) = some text →
          ∃ e : Literal, y.Reads text e ∧ (e.HasType y item ↔ y.Covers items v) := by
        intro v text hliteral
        refine ih hd.item (fun _ => ?_) hitem hliteral
        rw [ending_itemHint]
        decide
      obtain ⟨es, hes, htypes⟩ := exists_reads_items hinner htexts
      refine ⟨.list es, reads_list hes, Literal.hasType_list_iff.trans ⟨?_, ?_⟩⟩
      · rintro ⟨item', heq, htype⟩
        rw [← listType_injective heq] at htype
        exact ⟨elements, rfl, htypes.1 htype⟩
      · rintro ⟨_, ⟨⟩, hcovers⟩
        exact ⟨item, rfl, htypes.2 hcovers⟩
    | null | bool | number | string | object =>
      refine exists_reads_of_ne h (fun scalar heq => ?_) ?_
      · have hend := congrArg ending heq
        rw [ending_listType, ending_scalarType] at hend
        cases hend
      · rintro ⟨elements, ⟨⟩, -⟩
  | object properties strict =>
    refine exists_reads_of_ne h (fun scalar heq => ?_) id
    rcases map_object hmap with rfl | hend
    · exact hobject ⟨_, _, rfl⟩ (heq ▸ ending_scalarType y scalar)
    · rw [heq, ending_scalarType] at hend
      cases hend

end Reading.Dialect

end DesignSystem
