import DesignSystem.Proofs.Types.EnumerationCases
import DesignSystem.Proofs.Types.LiteralFit

/-!
# Values without a literal

A language with named types writes no literal for some values, also for such as fit the descriptor.

* `Dialect.Lacks`: why a value has no literal.
* `Dialect.Skips`: a value fits another alternative than the one that it is written for.
* `literal?_eq_none_iff`: a value has no literal just if there is a reason.
* `Dialect.Writable`: descriptors for which every value that fits is written.
* `not_lacks_of_fits`: there is no reason for a value that fits and is only written for such.
-/

set_option autoImplicit false

namespace DesignSystem

namespace Reading.Dialect

open NominalLanguage (itemHint optionHint)

variable {y : Dialect} {d : TypeDescriptor} {v : Json.Value} {values : List Json.Value}
  {hint type : String}

/-! ## Reasons -/

/-- Why a language writes no literal of a descriptor for a value. -/
inductive Lacks (y : Dialect) : TypeDescriptor → Json.Value → String → Prop
  /-- The value is not among those that are enumerated. -/
  | unlisted {d : TypeDescriptor} {values : List Json.Value} {v : Json.Value} {hint : String}
      (hd : d.enumeratedValues? = some values) (h : values.any (·.same v) = false) : Lacks y d v hint
  /-- Null is written as a case of an enumeration only. -/
  | null {d : TypeDescriptor} {hint : String} (hd : d.enumeratedValues? = none)
      (hunion : d.kind ≠ .union) : Lacks y d .null hint
  /-- So are objects. -/
  | object {d : TypeDescriptor} {fields : List (String × Json.Value)} {hint : String}
      (hd : d.enumeratedValues? = none) (hunion : d.kind ≠ .union) : Lacks y d (.object fields) hint
  /-- Lists are written where one is described besides. -/
  | list {d : TypeDescriptor} {elements : List Json.Value} {hint : String}
      (hd : d.enumeratedValues? = none) (hunion : d.kind ≠ .union) (harray : d.kind ≠ .array) :
      Lacks y d (.array elements) hint
  /-- An item has no literal. -/
  | item {items : TypeDescriptor} {low high : Option Nat} {unique : Bool}
      {elements : List Json.Value} {e : Json.Value} {hint : String} (he : e ∈ elements)
      (h : Lacks y items e (itemHint hint)) :
      Lacks y (.array items low high unique) (.array elements) hint
  /-- A text is no color of the language. -/
  | color {s hint : String} (h : y.language.color s = none) :
      Lacks y (.custom .color none) (.string s) hint
  /-- Alternatives have several types. -/
  | apart {types : List TypeDescriptor} {v : Json.Value} {hint : String}
      (h : y.language.hasCommonType types hint = false) : Lacks y (.union types) v hint
  /-- Alternatives have one type, but the first one has no literal for the value. -/
  | first {d : TypeDescriptor} {v : Json.Value} {hint : String} (rest : List TypeDescriptor)
      (h : Lacks y d v (optionHint hint 0)) : Lacks y (.union (d :: rest)) v hint

/-- A value does not fit the first of alternatives that have one type, for which it is written. -/
inductive Skips (y : Dialect) : TypeDescriptor → Json.Value → String → Prop
  | self {d : TypeDescriptor} {rest : List TypeDescriptor} {v : Json.Value} {hint : String}
      (hcommon : y.language.hasCommonType (d :: rest) hint = true) (h : d.fits v = false) :
      Skips y (.union (d :: rest)) v hint
  | first {d : TypeDescriptor} {v : Json.Value} {hint : String} (rest : List TypeDescriptor)
      (h : Skips y d v (optionHint hint 0)) : Skips y (.union (d :: rest)) v hint
  | item {items : TypeDescriptor} {low high : Option Nat} {unique : Bool}
      {elements : List Json.Value} {e : Json.Value} {hint : String} (he : e ∈ elements)
      (h : Skips y items e (itemHint hint)) :
      Skips y (.array items low high unique) (.array elements) hint

theorem enumeratedLiteral?_eq_none_iff {l : NominalLanguage} :
    l.enumeratedLiteral? values v hint = none ↔ values.any (·.same v) = false := by
  refine ⟨fun h => ?_, NominalLanguage.enumeratedLiteral?_eq_none⟩
  by_contra hany
  unfold NominalLanguage.enumeratedLiteral? at h
  rw [if_pos (Bool.not_eq_false _ ▸ hany)] at h
  cases v <;> cases h

/-- Among enumerated values a literal is lacking just for those that are not listed. -/
theorem literal?_eq_none_iff_of_enumeration (hd : d.enumeratedValues? = some values)
    (hne : values ≠ []) : y.language.literal? d v hint = none ↔ y.Lacks d v hint := by
  rw [NominalLanguage.literal?_enumeration hint hd hne, enumeratedLiteral?_eq_none_iff]
  refine ⟨fun h => .unlisted hd h, fun h => ?_⟩
  cases h with
  | unlisted hd' h =>
    rw [hd] at hd'
    cases hd'
    exact h
  | null hd' | object hd' | list hd' =>
    rw [hd] at hd'
    cases hd'
  | item | color | apart | first => cases hd

/-- What is written in a way of its own, besides enumerated values. -/
def WrittenApart : TypeDescriptor → Json.Value → Prop
  | .union _, _ => True
  | .array _ _ _ _, .array _ => True
  | .custom .color none, .string _ => True
  | _, _ => False

/-- Of what is written as a scalar, a literal is lacking for null, lists and objects. -/
theorem literal?_eq_none_iff_of_scalar
    (hliteral : y.language.literal? d v hint = y.language.scalarLiteral? v)
    (hd : d.enumeratedValues? = none) (hother : ¬ WrittenApart d v) :
    y.language.literal? d v hint = none ↔ y.Lacks d v hint := by
  have hunion : d.kind ≠ .union := by
    intro hkind
    cases d with
    | union => exact hother trivial
    | primitive | complex | signed | custom | array | object => cases hkind
  rw [hliteral]
  cases v with
  | null => exact iff_of_true rfl (.null hd hunion)
  | object fields => exact iff_of_true rfl (.object hd hunion)
  | array elements =>
    refine iff_of_true rfl (.list hd hunion fun hkind => ?_)
    cases d with
    | array => exact hother trivial
    | primitive | complex | signed | custom | union | object => cases hkind
  | bool | number =>
    refine iff_of_false (Option.some_ne_none _) fun h => ?_
    cases h with
    | unlisted hd' => cases hd.symm.trans hd'
    | apart | first => exact hunion rfl
  | string =>
    refine iff_of_false (Option.some_ne_none _) fun h => ?_
    cases h with
    | unlisted hd' => cases hd.symm.trans hd'
    | color => exact hother trivial
    | apart | first => exact hunion rfl

/-- Of domain types without values of their own only colors are written apart. -/
theorem literal?_eq_none_iff_of_custom {kind : CustomType} {texts : Option (List String)}
    (hd : (TypeDescriptor.custom kind texts).enumeratedValues? = none)
    (hmap : (y.language.map (.custom kind texts) hint).result = .ok type) :
    y.language.literal? (.custom kind texts) v hint = none ↔ y.Lacks (.custom kind texts) v hint := by
  obtain rfl : texts = none := by
    cases texts with
    | none => rfl
    | some listed => cases hd
  cases kind with
  | size | variant | breakpoint | locale => cases hd
  | color =>
    cases v with
    | string s =>
      refine ⟨.color, fun h => ?_⟩
      cases h with
      | unlisted hd' => cases hd'
      | color h => exact h
    | null | bool | number | array | object => exact literal?_eq_none_iff_of_scalar rfl hd id
  | url =>
    cases v with
    | string s =>
      refine iff_of_false (Option.some_ne_none _) fun h => ?_
      cases h with
      | unlisted hd' => cases hd'
    | null | bool | number | array | object => exact literal?_eq_none_iff_of_scalar rfl hd id
  | email => exact literal?_eq_none_iff_of_scalar rfl hd id
  | other name =>
    -- a domain type of a project has no type unless it lists its values
    rw [NominalLanguage.map] at hmap
    cases hmap

/-- A value has no literal just if there is a reason for this. -/
theorem literal?_eq_none_iff (hmap : (y.language.map d hint).result = .ok type) :
    y.language.literal? d v hint = none ↔ y.Lacks d v hint := by
  induction d using TypeDescriptor.induct generalizing v hint type with
  | primitive kind values =>
    cases hd : TypeDescriptor.enumeratedValues? (.primitive kind values) with
    | some listed =>
      exact literal?_eq_none_iff_of_enumeration hd (NominalLanguage.ne_nil_of_map hd hmap)
    | none =>
      cases hd
      exact literal?_eq_none_iff_of_scalar rfl rfl id
  | complex kind => exact literal?_eq_none_iff_of_scalar rfl rfl id
  | signed kind params returns => exact literal?_eq_none_iff_of_scalar rfl rfl id
  | custom kind values =>
    cases hd : TypeDescriptor.enumeratedValues? (.custom kind values) with
    | some listed =>
      exact literal?_eq_none_iff_of_enumeration hd (NominalLanguage.ne_nil_of_map hd hmap)
    | none => exact literal?_eq_none_iff_of_custom hd hmap
  | union types ih =>
    rw [NominalLanguage.literal?]
    cases hcommon : y.language.hasCommonType types hint with
    | false => exact iff_of_true rfl (.apart hcommon)
    | true =>
      rw [if_pos rfl]
      cases types with
      | nil => cases hcommon
      | cons d rest =>
        rw [NominalLanguage.map] at hmap
        obtain ⟨members, hmembers, -, -⟩ := Mapping.bind_inversion hmap
        obtain ⟨first, others, -, hfirst, -⟩ := mapAlternatives_cons hmembers
        -- the value is written for the first alternative, whichever it fits
        refine (ih d List.mem_cons_self hfirst).trans ⟨.first rest, fun h => ?_⟩
        cases h with
        | unlisted hd => cases hd
        | null _ hunion | object _ hunion | list _ hunion => exact absurd rfl hunion
        | apart h => cases hcommon.symm.trans h
        | first _ h => exact h
  | array items low high unique ih =>
    obtain ⟨item, -, hitem⟩ := map_array hmap
    cases v with
    | array elements =>
      rw [NominalLanguage.literal?, Option.map_eq_none_iff, mapM_eq_none_iff]
      constructor
      · rintro ⟨e, he, hnone⟩
        exact .item he ((ih hitem).1 hnone)
      · intro h
        cases h with
        | unlisted hd => cases hd
        | list _ _ harray => exact absurd rfl harray
        | item he h => exact ⟨_, he, (ih hitem).2 h⟩
    | null | bool | number | string | object =>
      exact literal?_eq_none_iff_of_scalar rfl rfl id
  | object properties strict => exact literal?_eq_none_iff_of_scalar rfl rfl id

/-! ## Values that fit -/

/-- Descriptors of texts, numbers and truth values that are not enumerated, except colors. -/
structure IsUnlisted (d : TypeDescriptor) : Prop where
  scalar : d.kind = .primitive ∨ d.kind = .custom
  unlisted : d.enumeratedValues? = none
  notColor : d ≠ .custom .color none

/-- Descriptors for which a language writes all values that fit, if it does so for the items. -/
def Writable (y : Dialect) : TypeDescriptor → Prop
  | .primitive _ _ | .array _ _ _ _ => True
  | .custom .color none => ∀ s, y.language.color s ≠ none
  | .custom _ _ => True
  | .union types => (∀ d ∈ types, IsUnlisted d) ∧ ∀ hint, y.language.hasCommonType types hint = true
  | _ => False

theorem any_same_of_fits (hd : d.enumeratedValues? = some values) (h : d.fits v = true) :
    values.any (·.same v) = true := by
  cases d with
  | primitive kind listed =>
    cases hd
    exact h
  | custom kind texts =>
    obtain ⟨texts, htexts, rfl⟩ := Option.map_eq_some_iff.1 hd
    unfold TypeDescriptor.fits at h
    rw [htexts] at h
    cases v with
    | string s =>
      exact any_same_string_iff.2 (List.mem_map_of_mem (List.contains_iff_mem.1 h))
    | null | bool | number | array | object => cases h
  | complex | signed | union | array | object => cases hd

/-- A primitive value has a literal unless values are enumerated. -/
theorem not_lacks_of_admits (hd : IsUnlisted d) {kind : PrimitiveType} (hv : kind.admits v = true) :
    ¬ y.Lacks d v hint := by
  intro h
  cases h with
  | unlisted hlisted => cases hd.unlisted.symm.trans hlisted
  | null | object | list => cases kind <;> cases hv
  | color => exact hd.notColor rfl
  | item | apart | first => rcases hd.scalar with hkind | hkind <;> cases hkind

/-- A value that fits and is not enumerated is primitive. -/
theorem exists_admits_of_fits (hscalar : d.kind = .primitive ∨ d.kind = .custom)
    (hnone : d.enumeratedValues? = none) (hfits : d.fits v = true) :
    ∃ kind : PrimitiveType, kind.admits v = true := by
  cases d with
  | primitive kind values =>
    cases hnone
    exact ⟨kind, hfits⟩
  | custom kind values =>
    obtain ⟨s, rfl⟩ := fits_custom (Option.map_eq_none_iff.1 hnone) hfits
    exact ⟨.string, rfl⟩
  | complex | signed | union | array | object => rcases hscalar with hkind | hkind <;> cases hkind

/-- So it is primitive or a list if it fits a descriptor for which it is written. -/
theorem exists_admits_or_list (hd : y.Writable d) (hnone : d.enumeratedValues? = none)
    (hunion : d.kind ≠ .union) (hfits : d.fits v = true) :
    (∃ kind : PrimitiveType, kind.admits v = true) ∨
      d.kind = .array ∧ ∃ elements, v = .array elements := by
  cases d with
  | primitive => exact .inl (exists_admits_of_fits (.inl rfl) hnone hfits)
  | custom => exact .inl (exists_admits_of_fits (.inr rfl) hnone hfits)
  | array items low high unique =>
    cases v with
    | array elements => exact .inr ⟨rfl, elements, rfl⟩
    | null | bool | number | string | object => cases hfits
  | union => exact absurd rfl hunion
  | complex | signed | object => exact hd.elim

/-- All values that fit such descriptors have literals. -/
theorem not_lacks_of_fits (hd : d.EachWritten y.Writable) (hfits : d.fits v = true) :
    ¬ y.Lacks d v hint := by
  intro h
  induction h with
  | unlisted hlisted h =>
    rw [any_same_of_fits hlisted hfits] at h
    cases h
  | null hnone hunion | object hnone hunion =>
    obtain ⟨kind, hadmits⟩ | ⟨-, elements, ⟨⟩⟩ := exists_admits_or_list hd.self hnone hunion hfits
    cases kind <;> cases hadmits
  | list hnone hunion harray =>
    obtain ⟨kind, hadmits⟩ | ⟨hkind, -⟩ := exists_admits_or_list hd.self hnone hunion hfits
    · cases kind <;> cases hadmits
    · exact harray hkind
  | item he h ih =>
    rw [TypeDescriptor.fits, List.all_eq_true] at hfits
    exact ih hd.item (hfits _ he)
  | color h => exact hd.self _ h
  | apart h =>
    rw [hd.self.2] at h
    cases h
  | first rest h =>
    obtain ⟨d, hmem, hfit⟩ := exists_fits_of_fitsAny hfits
    have hunlisted := hd.self.1 d hmem
    obtain ⟨kind, hadmits⟩ := exists_admits_of_fits hunlisted.scalar hunlisted.unlisted hfit
    exact not_lacks_of_admits (hd.self.1 _ List.mem_cons_self) hadmits h

end Reading.Dialect

end DesignSystem
