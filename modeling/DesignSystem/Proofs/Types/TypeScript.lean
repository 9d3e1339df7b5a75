import DesignSystem.Proofs.Json.Number
import DesignSystem.Proofs.Text.Recasing
import DesignSystem.Proofs.Types.Unmappable
import DesignSystem.Types.TypeScript

/-!
# Which descriptors have TypeScript types

* `literal?_eq_none_iff`: a value has no literal just if there is a null in it.
* `type_settles`: a descriptor that passed validation has a type, which is not empty, unless it is
  unmappable.
-/

set_option autoImplicit false

namespace DesignSystem.TypeScript

open Json (Value)

/-! ## Literals -/

theorem literalItems?_eq_none_iff {items : List Value} :
    literalItems? items = none ↔ ∃ v ∈ items, literal? v = none := by
  induction items with
  | nil => simp [literalItems?]
  | cons v vs ih =>
    rw [List.exists_mem_cons_iff, ← ih, literalItems?]
    cases literal? v with
    | none => simp
    | some part => cases literalItems? vs <;> simp

theorem literalFields?_eq_none_iff {fields : List (String × Value)} :
    literalFields? fields = none ↔ ∃ f ∈ fields, literal? f.2 = none := by
  induction fields with
  | nil => simp [literalFields?]
  | cons f fs ih =>
    obtain ⟨name, v⟩ := f
    rw [List.exists_mem_cons_iff, ← ih, literalFields?]
    cases literal? v with
    | none => simp
    | some part => cases literalFields? fs <;> simp

/-- A value has no literal just if there is a null in it. -/
theorem literal?_eq_none_iff (v : Value) : literal? v = none ↔ v.HasNull := by
  induction v using Value.induct with
  | null => exact ⟨fun _ => .null, fun _ => rfl⟩
  | bool b => exact ⟨nofun, nofun⟩
  | number n => exact ⟨nofun, nofun⟩
  | string s => exact ⟨nofun, nofun⟩
  | array items ih =>
    rw [literal?, Option.map_eq_none_iff, literalItems?_eq_none_iff]
    constructor
    · rintro ⟨v, hmem, hv⟩
      exact .item hmem ((ih v hmem).1 hv)
    · rintro (_ | ⟨hmem, hv⟩)
      exact ⟨_, hmem, (ih _ hmem).2 hv⟩
  | object fields ih =>
    rw [literal?, Option.map_eq_none_iff, literalFields?_eq_none_iff]
    constructor
    · rintro ⟨f, hmem, hf⟩
      exact .field hmem ((ih f hmem).1 hf)
    · rintro (_ | _ | ⟨hmem, hf⟩)
      exact ⟨_, hmem, (ih _ hmem).2 hf⟩

theorem literal?_ne_empty {v : Value} {s : String} (h : literal? v = some s) : s ≠ "" := by
  cases v with
  | null => cases h
  | bool b =>
    cases h
    cases b <;> decide
  | number n =>
    cases h
    exact fun he => Json.Number.text_ne_nil n (by rw [he]; rfl)
  | string s =>
    cases h
    simp [Text.quotedSingle]
  | array items =>
    obtain ⟨parts, -, rfl⟩ := Option.map_eq_some_iff.1 h
    simp
  | object fields =>
    obtain ⟨parts, -, rfl⟩ := Option.map_eq_some_iff.1 h
    simp

/-! ## Enumerations -/

theorem literalUnion_settles (d : TypeDescriptor) (first : Value) (rest : List Value) :
    Settles (literalUnion d (first :: rest)) (· ≠ "") (∃ v ∈ first :: rest, v.HasNull) := by
  simp only [← literal?_eq_none_iff, ← mapM_eq_none_iff]
  rw [literalUnion]
  cases hm : (first :: rest).mapM literal? with
  | none => exact rfl
  | some literals =>
    refine ⟨?_, nofun⟩
    rw [List.mapM_cons] at hm
    obtain ⟨part, hpart, hm⟩ := Option.bind_eq_some_iff.1 hm
    obtain ⟨parts, -, hm⟩ := Option.bind_eq_some_iff.1 hm
    cases hm
    exact Text.join_ne_empty (literal?_ne_empty hpart) parts

/-! ## Types -/

theorem complex_ne_empty (f : Framework) (kind : ComplexType) : f.complex kind ≠ "" := by
  cases f <;> cases kind <;> decide

theorem group_ne_empty {type : String} (h : type ≠ "") : group type ≠ "" := by
  unfold group
  split
  · simp
  · exact h

theorem union_ne_empty {members : List String} (hne : members ≠ [])
    (h : ∀ type ∈ members, type ≠ "") : union members ≠ "" := by
  unfold union
  cases hc : commonMember? members with
  | some type => exact h type (mem_of_commonMember? hc)
  | none =>
    obtain ⟨first, rest, rfl⟩ := List.exists_cons_of_ne_nil hne
    exact Text.join_ne_empty (h first List.mem_cons_self) rest

theorem object_ne_empty (fields : List String) (strict : Bool) : object fields strict ≠ "" := by
  unfold object
  generalize fields ++ _ = members
  dsimp only
  split
  · simp
  · simp

/-- A descriptor has a type, which is not empty, unless it is unmappable. -/
def Mapped (f : Framework) (d : TypeDescriptor) : Prop :=
  Settles (type f d) (· ≠ "") (d.Unmappable true)

section
variable {f : Framework}

theorem all_settles : ∀ {ds : List TypeDescriptor}, (∀ d ∈ ds, Mapped f d) →
    Settles (all f ds) (fun types => types.length = ds.length ∧ ∀ type ∈ types, type ≠ "")
      (∃ d ∈ ds, d.Unmappable true)
  | [], _ => ⟨⟨rfl, nofun⟩, nofun⟩
  | d :: ds, h => by
    obtain ⟨hfirst, hrest⟩ := List.forall_mem_cons.1 h
    rw [List.exists_mem_cons_iff]
    refine hfirst.bind fun type htype => (all_settles hrest).bind_ok fun types htypes => ?_
    exact ⟨congrArg (· + 1) htypes.1, List.forall_mem_cons.2 ⟨htype, htypes.2⟩⟩

theorem named_settles : ∀ {ps : List (String × TypeDescriptor)}, (∀ p ∈ ps, Mapped f p.2) →
    Settles (named f ps) (fun _ => True) (∃ p ∈ ps, p.2.Unmappable true)
  | [], _ => ⟨trivial, nofun⟩
  | p :: ps, h => by
    obtain ⟨hfirst, hrest⟩ := List.forall_mem_cons.1 h
    rw [List.exists_mem_cons_iff]
    exact hfirst.bind fun _ _ => (named_settles hrest).bind_ok fun _ _ => trivial

theorem result_settles {returns : Option TypeDescriptor} (h : ∀ d, returns = some d → Mapped f d) :
    Settles (result f returns) (· ≠ "") (∃ d, returns = some d ∧ d.Unmappable true) := by
  cases returns with
  | none => exact ⟨by nofun, nofun⟩
  | some d =>
    exact (h d rfl).congr ⟨fun hd => ⟨d, rfl, hd⟩, fun ⟨_, he, hd⟩ => Option.some.inj he ▸ hd⟩

theorem type_settles {d : TypeDescriptor} (h : d.issues = []) : Mapped f d := by
  induction d using TypeDescriptor.induct with
  | primitive kind values =>
    obtain ⟨hvalues, hne⟩ := enumerationValues_primitive target h
    rw [Mapped, type, hvalues]
    refine Settles.congr ?_ (TypeDescriptor.unmappable_primitive kind values).symm
    match values with
    | none => exact ⟨by cases kind <;> nofun, id⟩
    | some [] => exact absurd rfl hne
    | some (first :: rest) =>
      exact (literalUnion_settles _ first rest).congr (by simp [TypeDescriptor.HasNoType])
  | custom kind values =>
    have hvalues := enumerationValues_custom target true h
    rw [Mapped, type]
    cases hfound : enumerationValues target (.custom kind values) with
    | error e =>
      rw [hfound] at hvalues
      exact hvalues
    | ok found =>
      rw [hfound] at hvalues
      cases found with
      | none => exact ⟨by decide, hvalues.2⟩
      | some enumerated =>
        obtain ⟨first, rest, rfl⟩ := hvalues.1 _ rfl
        have htexts : ¬ ∃ v ∈ (first :: rest).map Value.string, v.HasNull := by
          rintro ⟨v, hv, hnull⟩
          obtain ⟨text, -, rfl⟩ := List.mem_map.1 hv
          cases hnull
        exact (literalUnion_settles _ (.string first) (rest.map .string)).congr
          (iff_of_false htexts hvalues.2)
  | complex kind => exact ⟨complex_ne_empty f kind, TypeDescriptor.not_unmappable_complex kind⟩
  | signed kind params returns hparams hreturns =>
    obtain ⟨hp, hr⟩ := TypeDescriptor.issues_signed h
    by_cases hk : kind = .function
    · subst hk
      rw [Mapped, type, TypeDescriptor.unmappable_function]
      refine (named_settles fun p hmem => hparams p hmem (hp p hmem)).bind fun _ _ => ?_
      refine (result_settles fun d hd => hreturns d hd (hr d hd)).bind_ok fun _ _ => ?_
      simp
    · have hcomplex : type f (.signed kind params returns) = .ok (f.complex kind) := by
        cases kind with
        | function => exact absurd rfl hk
        | _ => rfl
      rw [Mapped, hcomplex]
      exact ⟨complex_ne_empty f kind, TypeDescriptor.not_unmappable_signed hk params returns⟩
  | union types ih =>
    obtain ⟨hne, hd⟩ := TypeDescriptor.issues_union h
    rw [Mapped, type, if_neg (by simpa using hne), TypeDescriptor.unmappable_union]
    refine (all_settles fun d hmem => ih d hmem (hd d hmem)).bind_ok fun members hm => ?_
    refine union_ne_empty ?_ ?_
    · intro hnil
      refine hne (List.length_eq_zero_iff.1 ?_)
      rw [← hm.1, ← List.length_map group, hnil, List.length_nil]
    · intro type htype
      obtain ⟨member, hmember, rfl⟩ := List.mem_map.1 htype
      exact group_ne_empty (hm.2 member hmember)
  | array items low high unique ih =>
    rw [Mapped, type, TypeDescriptor.unmappable_array]
    exact (ih (TypeDescriptor.issues_array h)).bind_ok fun _ _ => by simp
  | object properties strict ih =>
    have hp := TypeDescriptor.issues_object h
    rw [Mapped, type, TypeDescriptor.unmappable_object, and_iff_right (.inr rfl)]
    exact (named_settles fun p hmem => ih p hmem (hp p hmem)).bind_ok fun _ _ => object_ne_empty _ _

end

end DesignSystem.TypeScript
