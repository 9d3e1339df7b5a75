import DesignSystem.Proofs.Entries
import DesignSystem.Schema.Validation
import DesignSystem.Types.Table

/-!
# Descriptors without a type

A descriptor has no type in a target language if there is one without a type at one of its mapped
positions. The languages agree on the positions, but for the fields of objects that are not strict,
and on what has no type, but for values without a literal.

* `TypeDescriptor.induct`: a property of descriptors holds if each descriptor takes it over from
  those inside it.
* `TypeDescriptor.unmappable_union` and its companions: how the parts of a descriptor decide.
* `Settles`: a result is an error just if something is the case, and is else as it should be.
* `enumerationValues_settles`: which values a descriptor that passed validation enumerates.
-/

set_option autoImplicit false

namespace DesignSystem

theorem Json.Value.induct {motive : Json.Value → Prop} (null : motive .null)
    (bool : ∀ b, motive (.bool b)) (number : ∀ n, motive (.number n))
    (string : ∀ s, motive (.string s))
    (array : ∀ items, (∀ v ∈ items, motive v) → motive (.array items))
    (object : ∀ fields, (∀ f ∈ fields, motive f.2) → motive (.object fields)) : ∀ v, motive v :=
  fun v =>
  @Json.Value.rec motive (fun items => ∀ v ∈ items, motive v)
    (fun fields => ∀ f ∈ fields, motive f.2) (fun f => motive f.2)
    null bool number string array object
    nofun (fun _ _ hfirst hrest => List.forall_mem_cons.2 ⟨hfirst, hrest⟩)
    nofun (fun _ _ hfirst hrest => List.forall_mem_cons.2 ⟨hfirst, hrest⟩)
    (fun _ _ hv => hv)
    v

/-- There is a null in a value, at any depth. -/
inductive Json.Value.HasNull : Json.Value → Prop
  | null : HasNull .null
  | item {items : List Json.Value} {v : Json.Value} : v ∈ items → HasNull v → HasNull (.array items)
  | field {fields : List (String × Json.Value)} {field : String × Json.Value} : field ∈ fields →
      HasNull field.2 → HasNull (.object fields)

namespace TypeDescriptor

/-! ## Induction -/

theorem induct {motive : TypeDescriptor → Prop}
    (primitive : ∀ kind values, motive (.primitive kind values))
    (complex : ∀ kind, motive (.complex kind))
    (signed : ∀ kind params returns, (∀ p ∈ params, motive p.2) →
      (∀ d, returns = some d → motive d) → motive (.signed kind params returns))
    (custom : ∀ kind values, motive (.custom kind values))
    (union : ∀ types, (∀ d ∈ types, motive d) → motive (.union types))
    (array : ∀ items low high unique, motive items → motive (.array items low high unique))
    (object : ∀ properties strict, (∀ p ∈ properties, motive p.2) →
      motive (.object properties strict)) : ∀ d, motive d := fun d =>
  @TypeDescriptor.rec motive (fun params => ∀ p ∈ params, motive p.2)
    (fun returns => ∀ d, returns = some d → motive d)
    (fun types => ∀ d ∈ types, motive d) (fun p => motive p.2)
    primitive complex signed custom union array object
    nofun (fun _ _ hfirst hrest => List.forall_mem_cons.2 ⟨hfirst, hrest⟩)
    nofun (fun _ hd _ h => Option.some.inj h ▸ hd)
    nofun (fun _ _ hfirst hrest => List.forall_mem_cons.2 ⟨hfirst, hrest⟩)
    (fun _ _ hd => hd)
    d

/-! ## Positions -/

/-- Which descriptors stand at the mapped positions of a descriptor. The fields of objects that are
not strict are mapped for TypeScript (`script`) only. -/
inductive Position (script : Bool) : TypeDescriptor → TypeDescriptor → Prop
  | self (d : TypeDescriptor) : Position script d d
  | member {types : List TypeDescriptor} {d inner : TypeDescriptor} : d ∈ types →
      Position script d inner → Position script (.union types) inner
  | item {items inner : TypeDescriptor} {low high : Option Nat} {unique : Bool} :
      Position script items inner → Position script (.array items low high unique) inner
  | param {params : List (String × TypeDescriptor)} {returns : Option TypeDescriptor}
      {p : String × TypeDescriptor} {inner : TypeDescriptor} : p ∈ params →
      Position script p.2 inner → Position script (.signed .function params returns) inner
  | result {params : List (String × TypeDescriptor)} {d inner : TypeDescriptor} :
      Position script d inner → Position script (.signed .function params (some d)) inner
  | field {properties : List (String × TypeDescriptor)} {strict : Bool}
      {p : String × TypeDescriptor} {inner : TypeDescriptor} : strict ∨ script → p ∈ properties →
      Position script p.2 inner → Position script (.object properties strict) inner

/-- A descriptor that has no type itself: one of a project's own types without values, and for
TypeScript an enumeration with a value that has no literal because of a null in it. -/
def HasNoType (script : Bool) : TypeDescriptor → Prop
  | custom (.other _) none => True
  | primitive _ (some values) => script ∧ ∃ v ∈ values, v.HasNull
  | _ => False

/-- A descriptor without a type stands at a mapped position. -/
def Unmappable (script : Bool) (d : TypeDescriptor) : Prop :=
  ∃ inner, Position script d inner ∧ HasNoType script inner

section
variable {script : Bool}

theorem unmappable_primitive (kind : PrimitiveType) (values : Option (List Json.Value)) :
    Unmappable script (.primitive kind values) ↔ HasNoType script (.primitive kind values) := by
  refine ⟨fun ⟨inner, hp, hn⟩ => ?_, fun h => ⟨_, .self _, h⟩⟩
  cases hp
  exact hn

theorem unmappable_custom (kind : CustomType) (values : Option (List String)) :
    Unmappable script (.custom kind values) ↔ HasNoType script (.custom kind values) := by
  refine ⟨fun ⟨inner, hp, hn⟩ => ?_, fun h => ⟨_, .self _, h⟩⟩
  cases hp
  exact hn

theorem not_unmappable_complex (kind : ComplexType) : ¬ Unmappable script (.complex kind) := by
  rintro ⟨inner, hp, hn⟩
  cases hp
  exact hn

theorem not_unmappable_signed {kind : ComplexType} (h : kind ≠ .function)
    (params : List (String × TypeDescriptor)) (returns : Option TypeDescriptor) :
    ¬ Unmappable script (.signed kind params returns) := by
  rintro ⟨inner, hp, hn⟩
  cases hp with
  | self => exact hn
  | param | result => exact h rfl

theorem unmappable_function (params : List (String × TypeDescriptor))
    (returns : Option TypeDescriptor) : Unmappable script (.signed .function params returns) ↔
      (∃ p ∈ params, Unmappable script p.2) ∨ ∃ d, returns = some d ∧ Unmappable script d := by
  constructor
  · rintro ⟨inner, hp, hn⟩
    cases hp with
    | self => exact hn.elim
    | param hmem hp => exact .inl ⟨_, hmem, inner, hp, hn⟩
    | result hp => exact .inr ⟨_, rfl, inner, hp, hn⟩
  · rintro (⟨p, hmem, inner, hp, hn⟩ | ⟨d, rfl, inner, hp, hn⟩)
    · exact ⟨inner, .param hmem hp, hn⟩
    · exact ⟨inner, .result hp, hn⟩

theorem unmappable_union (types : List TypeDescriptor) :
    Unmappable script (.union types) ↔ ∃ d ∈ types, Unmappable script d := by
  constructor
  · rintro ⟨inner, hp, hn⟩
    cases hp with
    | self => exact hn.elim
    | member hmem hp => exact ⟨_, hmem, inner, hp, hn⟩
  · rintro ⟨d, hmem, inner, hp, hn⟩
    exact ⟨inner, .member hmem hp, hn⟩

theorem unmappable_array (items : TypeDescriptor) (low high : Option Nat) (unique : Bool) :
    Unmappable script (.array items low high unique) ↔ Unmappable script items := by
  constructor
  · rintro ⟨inner, hp, hn⟩
    cases hp with
    | self => exact hn.elim
    | item hp => exact ⟨inner, hp, hn⟩
  · rintro ⟨inner, hp, hn⟩
    exact ⟨inner, .item hp, hn⟩

theorem unmappable_object (properties : List (String × TypeDescriptor)) (strict : Bool) :
    Unmappable script (.object properties strict) ↔
      (strict ∨ script) ∧ ∃ p ∈ properties, Unmappable script p.2 := by
  constructor
  · rintro ⟨inner, hp, hn⟩
    cases hp with
    | self => exact hn.elim
    | field hs hmem hp => exact ⟨hs, _, hmem, inner, hp, hn⟩
  · rintro ⟨hs, p, hmem, inner, hp, hn⟩
    exact ⟨inner, .field hs hmem hp, hn⟩

end

/-! ## What validation rules out -/

theorem issuesOfAll_eq_nil {types : List TypeDescriptor} :
    issuesOfAll types = [] ↔ ∀ d ∈ types, d.issues = [] := by
  induction types with
  | nil => simp [issuesOfAll]
  | cons d ds ih => simp [issuesOfAll, ih]

theorem issuesOfNamed_eq_nil {params : List (String × TypeDescriptor)} :
    issuesOfNamed params = [] ↔ ∀ p ∈ params, p.2.issues = [] := by
  induction params with
  | nil => simp [issuesOfNamed]
  | cons p ps ih => simp [issuesOfNamed, ih]

theorem issues_of_issuesOfFields {properties : List (String × TypeDescriptor)}
    (h : issuesOfFields properties = []) : ∀ p ∈ properties, p.2.issues = [] := by
  induction properties with
  | nil => exact fun _ hp => nomatch hp
  | cons p ps ih =>
    obtain ⟨hfirst, hrest⟩ := List.append_eq_nil_iff.1 h
    intro q hq
    rcases List.mem_cons.1 hq with rfl | hq
    · exact (List.append_eq_nil_iff.1 hfirst).2
    · exact ih hrest q hq

theorem issues_signed {kind : ComplexType} {params : List (String × TypeDescriptor)}
    {returns : Option TypeDescriptor} (h : (signed kind params returns).issues = []) :
    (∀ p ∈ params, p.2.issues = []) ∧ ∀ d, returns = some d → d.issues = [] := by
  rw [issues, List.append_eq_nil_iff, issuesOfNamed_eq_nil] at h
  refine ⟨h.1, ?_⟩
  rintro d rfl
  exact h.2

theorem issues_union {types : List TypeDescriptor} (h : (union types).issues = []) :
    types ≠ [] ∧ ∀ d ∈ types, d.issues = [] := by
  rw [issues, List.append_eq_nil_iff, issuesOfAll_eq_nil] at h
  refine ⟨?_, h.2⟩
  rintro rfl
  exact List.cons_ne_nil _ _ h.1

theorem issues_array {items : TypeDescriptor} {low high : Option Nat} {unique : Bool}
    (h : (array items low high unique).issues = []) : items.issues = [] := by
  rw [issues] at h
  exact (List.append_eq_nil_iff.1 h).2

theorem issues_object {properties : List (String × TypeDescriptor)} {strict : Bool}
    (h : (object properties strict).issues = []) : ∀ p ∈ properties, p.2.issues = [] := by
  rw [issues] at h
  exact issues_of_issuesOfFields h

end TypeDescriptor

/-! ## Results -/

/-- A result is an error just if something is bad, and else as it should be. -/
def Settles {ε α : Type} (r : Except ε α) (good : α → Prop) (bad : Prop) : Prop :=
  match r with
  | .ok a => good a ∧ ¬ bad
  | .error _ => bad

namespace Settles

variable {ε α β : Type} {r : Except ε α} {good : α → Prop} {bad bad' : Prop}

theorem congr (h : Settles r good bad) (hbad : bad ↔ bad') : Settles r good bad' := by
  rwa [← propext hbad]

theorem bind {f : α → Except ε β} {good' : β → Prop} (h : Settles r good bad)
    (hf : ∀ a, good a → Settles (f a) good' bad') : Settles (r.bind f) good' (bad ∨ bad') := by
  cases r with
  | error e => exact .inl h
  | ok a =>
    have hfa := hf a h.1
    change Settles (f a) good' (bad ∨ bad')
    cases hr : f a with
    | ok b =>
      rw [hr] at hfa
      exact ⟨hfa.1, not_or.2 ⟨h.2, hfa.2⟩⟩
    | error e =>
      rw [hr] at hfa
      exact .inr hfa

theorem map {f : α → β} {good' : β → Prop} (h : Settles r good bad)
    (hf : ∀ a, good a → good' (f a)) : Settles (r.map f) good' bad := by
  cases r with
  | error e => exact h
  | ok a => exact ⟨hf a h.1, h.2⟩

theorem bind_ok {f : α → β} {good' : β → Prop} (h : Settles r good bad)
    (hf : ∀ a, good a → good' (f a)) : Settles (r.bind fun a => .ok (f a)) good' bad := h.map hf

theorem error_iff (h : Settles r good bad) : (∃ e, r = .error e) ↔ bad := by
  cases r with
  | error e => exact ⟨fun _ => h, fun _ => ⟨e, rfl⟩⟩
  | ok a => exact ⟨nofun, fun hb => absurd hb h.2⟩

theorem exists_ok (h : Settles r good bad) (hbad : ¬ bad) : ∃ a, r = .ok a ∧ good a := by
  cases r with
  | error e => exact absurd h hbad
  | ok a => exact ⟨a, rfl, h.1⟩

end Settles

/-! ## Enumerations -/

theorem enumerationValues_primitive (target : String) {kind : PrimitiveType}
    {values : Option (List Json.Value)} (h : (TypeDescriptor.primitive kind values).issues = []) :
    enumerationValues target (.primitive kind values) = .ok values ∧ values ≠ some [] := by
  match values, h with
  | none, _ => exact ⟨rfl, nofun⟩
  | some (v :: vs), _ => exact ⟨rfl, nofun⟩

/-- A domain type without issues enumerates texts or is written as text, unless it has no type. -/
theorem enumerationValues_custom (target : String) (script : Bool) {kind : CustomType}
    {values : Option (List String)} (h : (TypeDescriptor.custom kind values).issues = []) :
    Settles (enumerationValues target (.custom kind values))
      (fun found => ∀ enumerated, found = some enumerated →
        ∃ first rest, enumerated = (first :: rest).map Json.Value.string)
      (TypeDescriptor.Unmappable script (.custom kind values)) := by
  refine Settles.congr ?_ (TypeDescriptor.unmappable_custom kind values).symm
  match values, h with
  | some (first :: rest), _ =>
    refine ⟨fun enumerated he => ?_, by simp [TypeDescriptor.HasNoType]⟩
    exact ⟨first, rest, (Option.some.inj he).symm⟩
  | none, _ =>
    cases kind with
    | size | variant | breakpoint | locale =>
      exact ⟨fun _ he => ⟨_, _, (Option.some.inj he).symm⟩, by simp [TypeDescriptor.HasNoType]⟩
    | color | email | url => exact ⟨nofun, by simp [TypeDescriptor.HasNoType]⟩
    | other name => exact trivial

/-- The one type of members is that of one of them. -/
theorem mem_of_commonMember? {members : List String} {type : String}
    (h : commonMember? members = some type) : type ∈ members := by
  unfold commonMember? at h
  split at h
  · cases h
  · split at h
    · cases h
      exact List.mem_cons_self
    · cases h

theorem eq_of_commonMember? {members : List String} {single member : String}
    (h : commonMember? members = some single) (hmember : member ∈ members) : member = single := by
  unfold commonMember? at h
  split at h
  · cases h
  · split_ifs at h with hall
    cases h
    rcases List.mem_cons.1 hmember with rfl | hmember
    · rfl
    · exact of_decide_eq_true (List.all_eq_true.1 hall _ hmember)

end DesignSystem
