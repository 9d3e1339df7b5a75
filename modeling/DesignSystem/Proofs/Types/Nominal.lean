import DesignSystem.Proofs.Text.Recasing
import DesignSystem.Proofs.Types.Unmappable
import DesignSystem.Types.Dart
import DesignSystem.Types.Kotlin
import DesignSystem.Types.Swift
import Mathlib.Data.List.Basic

/-!
# Which descriptors have types in languages with named types

* `Mapping.result_bind`: the result of a mapping after another.
* `NominalLanguage.IsWritten`: no type that a language writes is empty.
* `NominalLanguage.map_settles`: a descriptor that passed validation has a type, which is not empty,
  unless it is unmappable.
-/

set_option autoImplicit false

namespace DesignSystem

namespace Mapping

variable {α β : Type}

theorem result_bind (m : Mapping α) (f : α → Mapping β) :
    (m >>= f).result = m.result.bind fun a => (f a).result := by
  change (m.andThen f).result = _
  unfold andThen
  cases m.result with
  | error e => rfl
  | ok a => rfl

theorem andThen_assoc {γ : Type} (m : Mapping α) (f : α → Mapping β) (g : β → Mapping γ) :
    (m.andThen f).andThen g = m.andThen fun a => (f a).andThen g := by
  obtain ⟨declared, result⟩ := m
  cases result with
  | error e => rfl
  | ok a =>
    simp only [andThen]
    cases (f a).result with
    | error e => rfl
    | ok b => simp

theorem andThen_pure (m : Mapping α) (f : α → β) :
    m.andThen (fun a => ⟨[], .ok (f a)⟩) = ⟨m.declared, m.result.map f⟩ := by
  obtain ⟨declared, result⟩ := m
  cases result with
  | error e => rfl
  | ok a => simp [andThen, Except.map]

instance : LawfulMonad Mapping := .mk' Mapping
  (fun m => (andThen_pure m id).trans (by cases m with | mk declared result => cases result <;> rfl))
  (fun a f => by
    change Mapping.mk ([] ++ (f a).declared) (f a).result = f a
    rfl)
  andThen_assoc

end Mapping

namespace NominalLanguage

/-- No type that a language writes is empty. -/
structure IsWritten (l : NominalLanguage) : Prop where
  primitive : ∀ kind, l.primitive kind ≠ ""
  complex : ∀ kind, l.complex kind ≠ ""
  custom : ∀ kind, l.custom kind ≠ ""
  noResult : l.noResult ≠ ""
  callback : ∀ params returns, l.callback params returns ≠ ""
  list : ∀ item, l.list item ≠ ""
  openObject : l.openObject ≠ ""
  /-- An object that needs no declaration. -/
  object : ∀ hint fields, (l.object hint fields).source = none → (l.object hint fields).text ≠ ""
  optional : ∀ type, l.optional type ≠ ""

theorem isWritten_swift : Swift.language.IsWritten where
  primitive kind := by cases kind <;> decide
  complex kind := by cases kind <;> decide
  custom kind := by cases kind <;> simp [Swift.language]
  noResult := by decide
  callback params returns := by simp [Swift.language]
  list item := by simp [Swift.language]
  openObject := by decide
  object hint fields h := nomatch h
  optional type := by
    simp only [Swift.language, Swift.optional]
    split <;> simp

theorem isWritten_kotlin : Kotlin.language.IsWritten where
  primitive kind := by cases kind <;> decide
  complex kind := by cases kind <;> decide
  custom kind := by cases kind <;> simp [Kotlin.language]
  noResult := by decide
  callback params returns := by simp [Kotlin.language]
  list item := by simp [Kotlin.language]
  openObject := by decide
  object hint fields h := nomatch h
  optional type := by
    simp only [Kotlin.language, Kotlin.optional]
    split <;> simp

theorem isWritten_dart : Dart.language.IsWritten where
  primitive kind := by cases kind <;> decide
  complex kind := by cases kind <;> decide
  custom kind := by cases kind <;> simp [Dart.language]
  noResult := by decide
  callback params returns := by simp [Dart.language]
  list item := by simp [Dart.language]
  openObject := by decide
  object hint fields _ := by
    simp only [Dart.language, Dart.object]
    split <;> simp
  optional type := by simp [Dart.language]

/-! ## Names of declared types -/

section
variable {hint : String}

theorem memberHint_ne_empty (h : hint ≠ "") (name : String) : memberHint hint name ≠ "" := by
  simp [memberHint, h]

theorem optionHint_ne_empty (h : hint ≠ "") (index : Nat) : optionHint hint index ≠ "" := by
  simp [optionHint, h]

theorem itemHint_ne_empty (h : hint ≠ "") : itemHint hint ≠ "" := by
  simp [itemHint, h]

theorem resultHint_ne_empty (h : hint ≠ "") : resultHint hint ≠ "" := by
  simp [resultHint, h]

end

/-! ## Types -/

/-- Under a name that is not empty a descriptor has a type, which is not empty, unless it is
unmappable. -/
def Mapped (l : NominalLanguage) (d : TypeDescriptor) : Prop :=
  ∀ hint, hint ≠ "" → Settles (l.map d hint).result (· ≠ "") (d.Unmappable false)

section
variable {l : NominalLanguage} {hint : String}

theorem mapAlternatives_settles (hhint : hint ≠ "") :
    ∀ {ds : List TypeDescriptor} (index : Nat), (∀ d ∈ ds, l.Mapped d) →
      Settles (l.mapAlternatives ds hint index).result
        (fun types => types.length = ds.length ∧ ∀ type ∈ types, type ≠ "")
        (∃ d ∈ ds, d.Unmappable false)
  | [], _, _ => by
    rw [mapAlternatives]
    exact ⟨⟨rfl, nofun⟩, nofun⟩
  | d :: ds, index, h => by
    obtain ⟨hfirst, hrest⟩ := List.forall_mem_cons.1 h
    rw [mapAlternatives, Mapping.result_bind, List.exists_mem_cons_iff]
    refine (hfirst _ (optionHint_ne_empty hhint index)).bind fun type htype => ?_
    rw [Mapping.result_bind]
    refine (mapAlternatives_settles hhint (index + 1) hrest).bind_ok fun types htypes => ?_
    exact ⟨congrArg (· + 1) htypes.1, List.forall_mem_cons.2 ⟨htype, htypes.2⟩⟩

theorem mapNamed_settles (hhint : hint ≠ "") :
    ∀ {ps : List (String × TypeDescriptor)}, (∀ p ∈ ps, l.Mapped p.2) →
      Settles (l.mapNamed ps hint).result (fun _ => True) (∃ p ∈ ps, p.2.Unmappable false)
  | [], _ => by
    rw [mapNamed]
    exact ⟨trivial, nofun⟩
  | p :: ps, h => by
    obtain ⟨hfirst, hrest⟩ := List.forall_mem_cons.1 h
    rw [mapNamed, Mapping.result_bind, List.exists_mem_cons_iff]
    refine (hfirst _ (memberHint_ne_empty hhint p.1)).bind fun _ _ => ?_
    rw [Mapping.result_bind]
    exact (mapNamed_settles hhint hrest).bind_ok fun _ _ => trivial

variable (hl : l.IsWritten)
include hl

theorem mapResult_settles (hhint : hint ≠ "") {returns : Option TypeDescriptor}
    (h : ∀ d, returns = some d → l.Mapped d) : Settles (l.mapResult returns hint).result (· ≠ "")
      (∃ d, returns = some d ∧ d.Unmappable false) := by
  cases returns with
  | none =>
    rw [mapResult]
    exact ⟨hl.noResult, nofun⟩
  | some d =>
    rw [mapResult]
    exact (h d rfl _ (resultHint_ne_empty hhint)).congr
      ⟨fun hd => ⟨d, rfl, hd⟩, fun ⟨_, he, hd⟩ => Option.some.inj he ▸ hd⟩

theorem enumerationType_settles (values : List Json.Value) (hhint : hint ≠ "") {bad : Prop}
    (hbad : ¬ bad) : Settles (l.enumerationType values hint).result (· ≠ "") bad := by
  unfold enumerationType
  split
  · exact ⟨hl.primitive _, hbad⟩
  · exact ⟨hhint, hbad⟩

omit hl in
theorem unionType_settles {members : List String} (hmembers : ∀ type ∈ members, type ≠ "")
    (hhint : hint ≠ "") {bad : Prop} (hbad : ¬ bad) :
    Settles (l.unionType members hint).result (· ≠ "") bad := by
  unfold unionType
  split
  · next hc => exact ⟨hmembers _ (mem_of_commonMember? hc), hbad⟩
  · exact ⟨hhint, hbad⟩

theorem objectType_settles (fields : List (String × String)) (hhint : hint ≠ "") {bad : Prop}
    (hbad : ¬ bad) : Settles (l.objectType fields hint).result (· ≠ "") bad := by
  unfold objectType
  dsimp only
  split
  · exact ⟨hhint, hbad⟩
  · next hnone => exact ⟨hl.object hint fields hnone, hbad⟩

theorem map_settles {d : TypeDescriptor} (h : d.issues = []) : l.Mapped d := by
  induction d using TypeDescriptor.induct with
  | primitive kind values =>
    intro hint hhint
    obtain ⟨hvalues, -⟩ := enumerationValues_primitive l.name h
    have hbad : ¬ TypeDescriptor.Unmappable false (.primitive kind values) := by
      rw [TypeDescriptor.unmappable_primitive]
      cases values <;> simp [TypeDescriptor.HasNoType]
    rw [map, hvalues]
    cases values with
    | none => exact ⟨hl.primitive kind, hbad⟩
    | some values => exact enumerationType_settles hl values hhint hbad
  | custom kind values =>
    intro hint hhint
    have hvalues := enumerationValues_custom l.name false h
    rw [map]
    cases hfound : enumerationValues l.name (.custom kind values) with
    | error e =>
      rw [hfound] at hvalues
      exact hvalues
    | ok found =>
      rw [hfound] at hvalues
      cases found with
      | none => exact ⟨hl.custom kind, hvalues.2⟩
      | some enumerated => exact enumerationType_settles hl enumerated hhint hvalues.2
  | complex kind =>
    intro hint _
    rw [map]
    exact ⟨hl.complex kind, TypeDescriptor.not_unmappable_complex kind⟩
  | signed kind params returns hparams hreturns =>
    intro hint hhint
    obtain ⟨hp, hr⟩ := TypeDescriptor.issues_signed h
    by_cases hk : kind = .function
    · subst hk
      rw [map, Mapping.result_bind, TypeDescriptor.unmappable_function]
      refine (mapNamed_settles hhint fun p hmem => hparams p hmem (hp p hmem)).bind fun _ _ => ?_
      rw [Mapping.result_bind]
      refine (mapResult_settles hl hhint fun d hd => hreturns d hd (hr d hd)).bind_ok fun _ _ => ?_
      exact hl.callback _ _
    · have hcomplex : l.map (.signed kind params returns) hint = pure (l.complex kind) := by
        rw [map]
        exact hk
      rw [hcomplex]
      exact ⟨hl.complex kind, TypeDescriptor.not_unmappable_signed hk params returns⟩
  | union types ih =>
    intro hint hhint
    obtain ⟨hne, hd⟩ := TypeDescriptor.issues_union h
    rw [map, if_neg (by simpa using hne), Mapping.result_bind, TypeDescriptor.unmappable_union]
    refine Settles.congr (Settles.bind (mapAlternatives_settles hhint 0
      fun d hmem => ih d hmem (hd d hmem)) fun members hm => ?_) (or_false _).to_iff
    exact unionType_settles hm.2 hhint id
  | array items low high unique ih =>
    intro hint hhint
    rw [map, Mapping.result_bind, TypeDescriptor.unmappable_array]
    exact (ih (TypeDescriptor.issues_array h) _ (itemHint_ne_empty hhint)).bind_ok
      fun _ _ => hl.list _
  | object properties strict ih =>
    intro hint hhint
    have hp := TypeDescriptor.issues_object h
    rw [map, TypeDescriptor.unmappable_object]
    cases strict with
    | false => exact ⟨hl.openObject, by simp⟩
    | true =>
      rw [if_pos rfl, Mapping.result_bind, and_iff_right (.inl rfl)]
      refine Settles.congr (Settles.bind (mapNamed_settles hhint
        fun p hmem => ih p hmem (hp p hmem)) fun fields _ => ?_) (or_false _).to_iff
      exact objectType_settles hl fields hhint id

end

end NominalLanguage

end DesignSystem
