import DesignSystem.Proofs.Component.Model
import DesignSystem.Proofs.Types.Declared
import DesignSystem.Proofs.Types.Rules

/-!
# Mapping in a scope

A type table may be run in a scope that holds declarations already. `Scoped` mappings look up each
name in the scope when they come to declare it; `Mapping` gathers the declarations, and a scope takes
them afterwards.

* `mapIn_eq`: both give the same types, and the same scope.
* `declareAll_eq`: what a scope takes of some declarations is what an empty one does, except for the
  names that it holds already.
* `formed_map`: a type is written with the names of the language and those that are declared for it.
* `Platform.mapping_ignores_scope`: a scope decides about nothing but the names that are new to it.
-/

set_option autoImplicit false

namespace DesignSystem

/-- A mapping in a scope. It declares types where it comes to them; an error leaves in the scope
what was declared before. -/
def Scoped (α : Type) := TypeScope → Except UnmappableType α × TypeScope

namespace Scoped

variable {α β : Type}

/-- Continues after a result, in the scope as it is then. -/
def andThen (m : Scoped α) (f : α → Scoped β) : Scoped β := fun s =>
  match m s with
  | (.error e, s) => (.error e, s)
  | (.ok a, s) => f a s

instance : Monad Scoped where
  pure a s := (.ok a, s)
  bind := andThen

/-- Declares a type, unless its name is taken, and refers to it by its name. -/
def declare (d : Declaration) : Scoped String := fun s => (.ok d.name, s.declare d)

/-- No type. -/
def fail (e : UnmappableType) : Scoped α := fun s => (.error e, s)

end Scoped

namespace NominalLanguage

variable (l : NominalLanguage)

/-! ## Mapping in place -/

/-- The type of an enumeration, declared in a scope. -/
def enumerationIn (values : List Json.Value) (hint : String) : Scoped String :=
  if values.all isTruthValue then pure (l.primitive .boolean)
  else .declare ⟨hint, l.enumeration hint values⟩

/-- The type of alternatives, declared in a scope. -/
def unionIn (members : List String) (hint : String) : Scoped String :=
  match commonMember? members with
  | some single => pure single
  | none => .declare ⟨hint, l.alternatives hint members⟩

/-- The type of an object, declared in a scope. -/
def objectIn (fields : List (String × String)) (hint : String) : Scoped String :=
  let object := l.object hint fields
  match object.source with
  | some source => .declare ⟨hint, source⟩
  | none => pure object.text

mutual

/-- The type of a descriptor in a scope. -/
def mapIn : TypeDescriptor → String → Scoped String
  | .primitive kind values, hint =>
    match enumerationValues l.name (.primitive kind values) with
    | .error e => .fail e
    | .ok (some values) => l.enumerationIn values hint
    | .ok none => pure (l.primitive kind)
  | .custom kind values, hint =>
    match enumerationValues l.name (.custom kind values) with
    | .error e => .fail e
    | .ok (some values) => l.enumerationIn values hint
    | .ok none => pure (l.custom kind)
  | .complex kind, _ => pure (l.complex kind)
  | .signed kind params returns, hint =>
    match kind with
    | .function => do
      let params ← mapNamedIn params hint
      let returns ← mapResultIn returns hint
      pure (l.callback (params.map (·.2)) returns)
    | kind => pure (l.complex kind)
  | .union types, hint =>
    if types.isEmpty then .fail ⟨l.name, (TypeDescriptor.union types).summary, .emptyUnion⟩
    else do
      let members ← mapAlternativesIn types hint 0
      l.unionIn members hint
  | .array items _ _ _, hint => do
    let inner ← mapIn items (itemHint hint)
    pure (l.list inner)
  | .object properties strict, hint =>
    if strict then do
      let fields ← mapNamedIn properties hint
      l.objectIn fields hint
    else pure l.openObject

/-- The types of alternatives in one scope, the first of which has the number `index`. -/
def mapAlternativesIn : List TypeDescriptor → String → Nat → Scoped (List String)
  | [], _, _ => pure []
  | d :: ds, hint, index => do
    let first ← mapIn d (optionHint hint index)
    let rest ← mapAlternativesIn ds hint (index + 1)
    pure (first :: rest)

/-- Names and types of parameters or fields in one scope. -/
def mapNamedIn : List (String × TypeDescriptor) → String → Scoped (List (String × String))
  | [], _ => pure []
  | (name, d) :: more, hint => do
    let first ← mapIn d (memberHint hint name)
    let rest ← mapNamedIn more hint
    pure ((name, first) :: rest)

/-- The type of a result in a scope. -/
def mapResultIn : Option TypeDescriptor → String → Scoped String
  | none, _ => pure l.noResult
  | some d, hint => mapIn d (resultHint hint)

end

end NominalLanguage

/-! ## Declarations that are taken later -/

/-- A mapping run in a scope that takes the declarations. -/
def Mapping.inScope {α : Type} (m : Mapping α) : Scoped α := fun s =>
  (m.result, s.declareAll m.declared)

namespace Mapping

variable {α β : Type}

theorem inScope_pure (a : α) : (pure a : Mapping α).inScope = pure a := rfl

theorem inScope_bind (m : Mapping α) (f : α → Mapping β) :
    (m >>= f).inScope = m.inScope >>= fun a => (f a).inScope := by
  funext s
  change ((m.andThen f).result, s.declareAll (m.andThen f).declared) =
    m.inScope.andThen (fun a => (f a).inScope) s
  obtain ⟨declared, result⟩ := m
  cases result with
  | error e => rfl
  | ok a => simp [andThen, Scoped.andThen, inScope, TypeScope.declareAll, List.foldl_append]

end Mapping

namespace NominalLanguage

section
variable {l : NominalLanguage}

theorem enumerationIn_eq (values : List Json.Value) (hint : String) :
    l.enumerationIn values hint = (l.enumerationType values hint).inScope := by
  unfold enumerationIn enumerationType
  split <;> rfl

theorem unionIn_eq (members : List String) (hint : String) :
    l.unionIn members hint = (l.unionType members hint).inScope := by
  unfold unionIn unionType
  cases commonMember? members <;> rfl

theorem objectIn_eq (fields : List (String × String)) (hint : String) :
    l.objectIn fields hint = (l.objectType fields hint).inScope := by
  unfold objectIn objectType
  dsimp only
  cases (l.object hint fields).source <;> rfl

mutual

/-- A descriptor is mapped in a scope just as it is mapped apart from it. -/
theorem mapIn_eq : ∀ (d : TypeDescriptor) (hint : String),
    l.mapIn d hint = (l.map d hint).inScope
  | .primitive kind values, hint => by
    rw [mapIn, map]
    cases enumerationValues l.name (.primitive kind values) with
    | error e => rfl
    | ok found =>
      cases found with
      | none => rfl
      | some values => exact enumerationIn_eq values hint
  | .custom kind values, hint => by
    rw [mapIn, map]
    cases enumerationValues l.name (.custom kind values) with
    | error e => rfl
    | ok found =>
      cases found with
      | none => rfl
      | some values => exact enumerationIn_eq values hint
  | .complex kind, hint => by
    rw [mapIn, map]
    rfl
  | .signed kind params returns, hint => by
    cases kind with
    | function =>
      rw [mapIn, map, Mapping.inScope_bind, mapNamedIn_eq params hint]
      refine congrArg _ (funext fun params => ?_)
      rw [Mapping.inScope_bind, mapResultIn_eq returns hint]
      rfl
    | _ => simp only [mapIn, map, Mapping.inScope_pure]
  | .union types, hint => by
    rw [mapIn, map]
    split
    · rfl
    · rw [Mapping.inScope_bind, mapAlternativesIn_eq types hint 0]
      exact congrArg _ (funext fun members => unionIn_eq members hint)
  | .array items low high unique, hint => by
    rw [mapIn, map, Mapping.inScope_bind, mapIn_eq items (itemHint hint)]
    rfl
  | .object properties strict, hint => by
    rw [mapIn, map]
    split
    · rw [Mapping.inScope_bind, mapNamedIn_eq properties hint]
      exact congrArg _ (funext fun fields => objectIn_eq fields hint)
    · rfl

theorem mapAlternativesIn_eq : ∀ (ds : List TypeDescriptor) (hint : String) (index : Nat),
    l.mapAlternativesIn ds hint index = (l.mapAlternatives ds hint index).inScope
  | [], _, _ => by
    rw [mapAlternativesIn, mapAlternatives]
    rfl
  | d :: ds, hint, index => by
    rw [mapAlternativesIn, mapAlternatives, Mapping.inScope_bind, mapIn_eq d]
    refine congrArg _ (funext fun first => ?_)
    rw [Mapping.inScope_bind, mapAlternativesIn_eq ds hint (index + 1)]
    rfl

theorem mapNamedIn_eq : ∀ (named : List (String × TypeDescriptor)) (hint : String),
    l.mapNamedIn named hint = (l.mapNamed named hint).inScope
  | [], _ => by
    rw [mapNamedIn, mapNamed]
    rfl
  | (name, d) :: more, hint => by
    rw [mapNamedIn, mapNamed, Mapping.inScope_bind, mapIn_eq d]
    refine congrArg _ (funext fun first => ?_)
    rw [Mapping.inScope_bind, mapNamedIn_eq more hint]
    rfl

theorem mapResultIn_eq : ∀ (returns : Option TypeDescriptor) (hint : String),
    l.mapResultIn returns hint = (l.mapResult returns hint).inScope
  | none, _ => by
    rw [mapResultIn, mapResult]
    rfl
  | some d, hint => by
    rw [mapResultIn, mapResult]
    exact mapIn_eq d (resultHint hint)

end

/-! ## Names in a type -/

/-- A type written with the language's own types and with types that a scope holds. -/
inductive Formed (l : NominalLanguage) (s : TypeScope) : String → Prop
  | primitive (kind : PrimitiveType) : Formed l s (l.primitive kind)
  | complex (kind : ComplexType) : Formed l s (l.complex kind)
  | custom (kind : CustomType) : Formed l s (l.custom kind)
  | openObject : Formed l s l.openObject
  | declared {name : String} : Entries.has name s → Formed l s name
  | list {item : String} : Formed l s item → Formed l s (l.list item)
  | action {params : List String} : (∀ type ∈ params, Formed l s type) →
      Formed l s (l.callback params l.noResult)
  | callback {params : List String} {returns : String} : (∀ type ∈ params, Formed l s type) →
      Formed l s returns → Formed l s (l.callback params returns)
  | object {hint : String} {fields : List (String × String)} :
      (l.object hint fields).source = none → (∀ field ∈ fields, Formed l s field.2) →
      Formed l s (l.object hint fields).text

/-- A scope holds all types that a mapping declares. -/
def Holds {α : Type} (s : TypeScope) (m : Mapping α) : Prop :=
  ∀ x ∈ m.declared, Entries.has x.name s

variable {s : TypeScope}

theorem Assigns.formed {ds : List Declaration} {d : TypeDescriptor} {hint type : String}
    (h : l.Assigns ds d hint type) (hs : ∀ x ∈ ds, Entries.has x.name s) : l.Formed s type := by
  induction h with
  | @primitive kind => exact .primitive kind
  | @custom kind => exact .custom kind
  | truth => exact .primitive .boolean
  | complex kind | @signed kind => exact .complex kind
  | enumeration _ _ hdeclared | alternatives _ _ _ hdeclared | object _ _ hdeclared =>
    exact .declared (hs _ hdeclared)
  | action _ ih => exact .action (List.forall_mem_map.2 ih)
  | callback _ _ ih ihr => exact .callback (List.forall_mem_map.2 ih) ihr
  | common _ hcommon ih =>
    obtain ⟨d, hd, rfl⟩ := List.mem_map.1 (mem_of_commonMember? hcommon)
    exact ih d hd
  | list _ ih => exact .list ih
  | openObject => exact .openObject
  | record _ hsource ih => exact .object hsource (List.forall_mem_map.2 ih)

/-- A type is written with the language's own types and with those that the mapping declares. -/
theorem formed_map (d : TypeDescriptor) {hint type : String}
    (h : (l.map d hint).result = .ok type) (hs : Holds s (l.map d hint)) : l.Formed s type :=
  (assigns_iff.2 h).formed hs

/-- Alternatives have one type just if they collapse in every scope. -/
theorem hasCommonType_iff (types : List TypeDescriptor) (hint : String) (s : TypeScope) :
    l.hasCommonType types hint = true ↔ ∃ members type,
      l.mapAlternativesIn types hint 0 s = (.ok members, (l.mapIn (.union types) hint s).2) ∧
      commonMember? members = some type ∧ (l.mapIn (.union types) hint s).1 = .ok type := by
  rw [hasCommonType, mapAlternativesIn_eq]
  constructor
  · intro h
    split at h
    · next members hmembers =>
      obtain ⟨type, htype⟩ := Option.isSome_iff_exists.1 h
      have hne : ¬ types.isEmpty = true := by
        rintro he
        obtain rfl := List.isEmpty_iff.1 he
        rw [mapAlternatives] at hmembers
        cases hmembers
        cases htype
      refine ⟨members, type, ?_, htype, ?_⟩ <;>
        rw [mapIn, if_neg hne, mapAlternativesIn_eq] <;>
        simp [Bind.bind, Scoped.andThen, Mapping.inScope, hmembers, unionIn, htype, pure]
    · cases h
  · rintro ⟨members, type, hmembers, htype, -⟩
    have hresult : (l.mapAlternatives types hint 0).result = .ok members :=
      congrArg Prod.fst hmembers
    rw [hresult]
    exact Option.isSome_iff_exists.2 ⟨type, htype⟩

end

end NominalLanguage

/-! ## What a scope takes -/

namespace TypeScope

theorem has_append (name : String) (s e : TypeScope) :
    Entries.has name (s ++ e) = (Entries.has name s || Entries.has name e) := by
  rw [Entries.has, Entries.get?_append, Option.isSome_or]
  rfl

theorem has_declareAll {ds : List Declaration} {d : Declaration} (hd : d ∈ ds) (s : TypeScope) :
    Entries.has d.name (s.declareAll ds) := by
  rw [Entries.has, get?_declareAll, Option.isSome_or, Option.isSome_map, Bool.or_eq_true]
  exact .inr (List.find?_isSome.2 ⟨d, hd, decide_eq_true rfl⟩)

/-- The entries that are new to a scope. -/
def newTo (s e : TypeScope) : TypeScope := e.filter fun entry => !Entries.has entry.1 s

theorem has_cons (name n v : String) (e : TypeScope) :
    Entries.has name ((n, v) :: e) = (decide (n = name) || Entries.has name e) := by
  unfold Entries.has
  rw [Entries.get?_cons]
  split <;> simp [*]

theorem has_newTo {s : TypeScope} {name : String} (h : Entries.has name s = false) :
    ∀ e : TypeScope, Entries.has name (s.newTo e) = Entries.has name e
  | [] => rfl
  | (n, v) :: rest => by
    rw [newTo, List.filter_cons, ← newTo, has_cons]
    split
    · rw [has_cons, has_newTo h rest]
    · next hn =>
      have hne : n ≠ name := by
        rintro rfl
        simp [h] at hn
      rw [has_newTo h rest, decide_eq_false hne, Bool.false_or]

theorem newTo_append (s e e' : TypeScope) : s.newTo (e ++ e') = s.newTo e ++ s.newTo e' :=
  List.filter_append ..

/-- A scope takes those declarations that an empty scope takes and whose names are new to it. -/
theorem declareAll_eq (s : TypeScope) (ds : List Declaration) :
    s.declareAll ds = s ++ s.newTo (declareAll [] ds) := by
  induction ds using List.reverseRecOn with
  | nil => exact (List.append_nil s).symm
  | append_singleton ds d ih =>
    have hlast : ∀ s : TypeScope, s.declareAll (ds ++ [d]) = (s.declareAll ds).declare d :=
      fun s => List.foldl_concat ..
    rw [hlast, hlast, ih, declare, declare, has_append]
    cases hs : Entries.has d.name s with
    | true =>
      -- whether or not the empty scope takes it, its name is not new
      have hold : s.newTo [(d.name, d.source)] = [] := by simp [newTo, hs]
      rw [Bool.true_or, if_pos rfl]
      split
      · rfl
      · rw [newTo_append, hold, List.append_nil]
    | false =>
      have hnew : s.newTo [(d.name, d.source)] = [(d.name, d.source)] := by simp [newTo, hs]
      rw [Bool.false_or, has_newTo hs]
      split
      · rfl
      · rw [newTo_append, hnew, List.append_assoc]

end TypeScope

/-! ## The platforms -/

/-- The language of a platform, if it is one with named types. -/
def Platform.nominal? : Platform → Option NominalLanguage
  | swiftUI => some Swift.language
  | compose => some Kotlin.language
  | flutter => some Dart.language
  | react | vue | angular | svelte | css | tailwind => none

/-- The type of a descriptor on a platform, in a scope. TypeScript has no use for the scope. -/
def Platform.mapIn (p : Platform) (d : TypeDescriptor) (hint : String) : Scoped String :=
  match p.nominal? with
  | some l => l.mapIn d hint
  | none => fun s => ((p.types.map d hint).result, s)

/-- What a scope has to do with the mapping of a descriptor. -/
structure Platform.IgnoresScope (p : Platform) (d : TypeDescriptor) (hint : String)
    (s : TypeScope) : Prop where
  /-- The type, or the error, is that of the empty scope. -/
  result : (p.mapIn d hint s).1 = (p.mapIn d hint []).1
  /-- The scope is followed by what is declared in the empty scope under names new to it. -/
  scope : (p.mapIn d hint s).2 = s ++ s.newTo (p.mapIn d hint []).2
  /-- Every named type that stands in the type is declared. -/
  names : ∀ l ∈ p.nominal?, ∀ type, (p.mapIn d hint s).1 = .ok type →
    l.Formed (p.mapIn d hint s).2 type
  /-- Without named types the scope stays as it is. -/
  unnamed : p.nominal? = none → (p.mapIn d hint s).2 = s
  /-- Literals take alternatives to have one type just if the mapping takes the type of the
  alternatives and declares nothing besides. -/
  collapse : ∀ l ∈ p.nominal?, ∀ types, d = .union types → (l.hasCommonType types hint = true ↔
    ∃ members type, l.mapAlternativesIn types hint 0 s = (.ok members, (p.mapIn d hint s).2) ∧
      commonMember? members = some type ∧ (p.mapIn d hint s).1 = .ok type)
  /-- It is the mapping of the platform's type table. -/
  table : p.mapIn d hint s = (p.types.map d hint).inScope s

theorem Platform.mapIn_eq (p : Platform) (d : TypeDescriptor) (hint : String) :
    p.mapIn d hint = (p.types.map d hint).inScope := by
  cases p with
  | swiftUI | compose | flutter => exact NominalLanguage.mapIn_eq d hint
  | react | vue | angular | svelte | css | tailwind => rfl

theorem Platform.map_of_nominal? {p : Platform} {l : NominalLanguage} (h : l ∈ p.nominal?) :
    p.types.map = l.map ∧ p.mapIn = l.mapIn := by
  cases p with
  | swiftUI | compose | flutter => cases h; exact ⟨rfl, rfl⟩
  | react | vue | angular | svelte | css | tailwind => cases h

/-- **A scope decides about nothing but the names that are new to it.** -/
theorem Platform.mapping_ignores_scope (p : Platform) (d : TypeDescriptor) (hint : String)
    (s : TypeScope) : p.IgnoresScope d hint s where
  result := by
    rw [mapIn_eq]
    rfl
  scope := by
    rw [mapIn_eq]
    exact TypeScope.declareAll_eq s _
  names l hl type h := by
    rw [mapIn_eq] at h ⊢
    rw [(map_of_nominal? hl).1] at h ⊢
    exact NominalLanguage.formed_map d h fun x hx => TypeScope.has_declareAll hx s
  unnamed h := by
    unfold mapIn
    rw [h]
  collapse l hl types hd := by
    subst hd
    rw [(map_of_nominal? hl).2]
    exact NominalLanguage.hasCommonType_iff types hint s
  table := by rw [mapIn_eq]

end DesignSystem
