import DesignSystem.Proofs.Component.Names
import DesignSystem.Proofs.Reading.Alternatives
import DesignSystem.Proofs.Types.Scope

/-!
# Names of a framework in types

Some types are named after what a framework provides, and a source has to import such a name if it
has it. The name stands in the type itself, or in that of a type that is declared for it.

* `Platform.frameworkType?`: the name that a descriptor needs by itself.
* `Platform.Mentions`: the names that the type of a descriptor has anywhere in it.
* `NominalLanguage.map_has`: what a language with named types writes for a descriptor has the types
  of all that stands at a mapped position.
* `Platform.mentioned_written`: a name that is mentioned is written.
-/

set_option autoImplicit false

namespace DesignSystem

/-! ## Names -/

/-- The names that types take from a framework and that a source has to import. -/
def Platform.frameworkNames : Platform → List String
  | vue => ["VNode", "Ref"]
  | angular => ["TemplateRef", "ElementRef"]
  | compose => ["Color", "FocusRequester"]
  | flutter => ["File"]
  | _ => []

/-- The name that the type of a framework value is made of, if a source has to import it. -/
def Platform.frameworkValue? : Platform → ComplexType → Option String
  | vue, .node | vue, .element => some "VNode"
  | vue, .ref => some "Ref"
  | angular, .node | angular, .element => some "TemplateRef"
  | angular, .ref => some "ElementRef"
  | compose, .ref => some "FocusRequester"
  | flutter, .file => some "File"
  | _, _ => none

/-- The name that the type of a descriptor is made of, apart from those of the descriptors inside
it. -/
def Platform.frameworkType? (platform : Platform) : TypeDescriptor → Option String
  | .complex kind | .signed kind _ _ => platform.frameworkValue? kind
  | .custom .color none => if platform = .compose then some "Color" else none
  | _ => none

/-- The type of a descriptor has a name from a framework somewhere in it. -/
def Platform.Mentions (platform : Platform) (d : TypeDescriptor) (name : String) : Prop :=
  ∃ inner, TypeDescriptor.Position platform.isTypeScript d inner ∧
    platform.frameworkType? inner = some name

section
variable {platform : Platform} {d : TypeDescriptor} {name : String}

/-- A descriptor whose type is made of a framework's name is that of a framework value other than a
callback, or of a color where colors have a type of their own. -/
theorem Platform.frameworkType?_cases (h : platform.frameworkType? d = some name) :
    (∃ kind, kind ≠ .function ∧ platform.frameworkValue? kind = some name ∧
      (d = .complex kind ∨ ∃ params returns, d = .signed kind params returns)) ∨
    (platform = .compose ∧ name = "Color" ∧ d = .custom .color none) := by
  have hkind : ∀ {kind}, platform.frameworkValue? kind = some name → kind ≠ .function := by
    rintro _ hvalue rfl
    cases platform <;> cases hvalue
  unfold frameworkType? at h
  split at h
  · next kind => exact .inl ⟨kind, hkind h, h, .inl rfl⟩
  · next kind params returns => exact .inl ⟨kind, hkind h, h, .inr ⟨params, returns, rfl⟩⟩
  · split at h
    · next hplatform =>
      cases h
      exact .inr ⟨hplatform, rfl, rfl⟩
    · cases h
  · cases h

theorem Platform.mem_frameworkNames (h : platform.frameworkType? d = some name) :
    name ∈ platform.frameworkNames := by
  rcases frameworkType?_cases h with ⟨kind, -, hvalue, -⟩ | ⟨rfl, rfl, -⟩
  · cases platform <;> cases kind <;> cases hvalue <;> decide
  · decide

/-- The type of a framework value is the one of its kind, whether it has a signature or not. -/
theorem Platform.map_frameworkValue (platform : Platform) {kind : ComplexType}
    (hkind : kind ≠ .function) (params : List (String × TypeDescriptor))
    (returns : Option TypeDescriptor) (hint : String) :
    platform.types.map (.signed kind params returns) hint =
      platform.types.map (.complex kind) hint := by
  cases kind with
  | function => exact absurd rfl hkind
  | node | element | ref | date | file => cases platform <;> rfl

/-- The type that is made of a name starts with it. -/
theorem Platform.prefix_frameworkType (h : platform.frameworkType? d = some name)
    (hint : String) {type : String} (htype : (platform.types.map d hint).result = .ok type) :
    name.toList <+: type.toList := by
  rcases frameworkType?_cases h with ⟨kind, hkind, hvalue, hd⟩ | ⟨rfl, rfl, rfl⟩
  · have hmap : (platform.types.map (.complex kind) hint).result = .ok type := by
      rcases hd with rfl | ⟨params, returns, rfl⟩
      · exact htype
      · rw [← map_frameworkValue platform hkind]
        exact htype
    cases platform <;> cases kind <;> cases hvalue <;> cases hmap <;> decide
  · cases htype
    exact List.prefix_rfl

end

/-! ## Languages with named types -/

/-- A text stands in the type that a mapping gives, or in one that it declares. -/
def Mapping.Has (m : Mapping String) (part : String) : Prop :=
  (∃ type, m.result = .ok type ∧ part.toList <:+: type.toList) ∨
    ∃ declaration ∈ m.declared, part.toList <:+: declaration.source.toList

namespace Mapping

variable {m : Mapping String} {part type : String}

theorem Has.of_infix (h : m.Has type) (hpart : part.toList <:+: type.toList) : m.Has part := by
  rcases h with ⟨whole, hwhole, hin⟩ | ⟨declaration, hmem, hin⟩
  · exact .inl ⟨whole, hwhole, hpart.trans hin⟩
  · exact .inr ⟨declaration, hmem, hpart.trans hin⟩

/-- What stands in a type that stands in another one, stands in that. -/
theorem Has.trans {m' : Mapping String} (h : m'.Has part) (htype : m'.result = .ok type)
    (hdeclared : m'.declared ⊆ m.declared) (hm : m.Has type) : m.Has part := by
  rcases h with ⟨type', htype', hpart⟩ | ⟨declaration, hmem, hpart⟩
  · obtain rfl : type = type' := Except.ok.inj (htype.symm.trans htype')
    exact hm.of_infix hpart
  · exact .inr ⟨declaration, hdeclared hmem, hpart⟩

end Mapping

namespace NominalLanguage

/-- What a language writes of parts has them in it. -/
structure Composes (l : NominalLanguage) : Prop where
  param : ∀ {params : List String} {param : String} (returns : String), param ∈ params →
    param.toList <:+: (l.callback params returns).toList
  result : ∀ (params : List String) (returns : String),
    returns.toList <:+: (l.callback params returns).toList
  item : ∀ item : String, item.toList <:+: (l.list item).toList
  alternative : ∀ (hint : String) {members : List String} {member : String}, member ∈ members →
    member.toList <:+: (l.alternatives hint members).toList
  /-- An object has its fields in its declaration, or in its type if it has none. -/
  field : ∀ (hint : String) {fields : List (String × String)} {f : String × String}, f ∈ fields →
    f.2.toList <:+: ((l.object hint fields).source.getD (l.object hint fields).text).toList
  optional : ∀ type : String, type.toList <:+: (l.optional type).toList

/-- Of as many names as texts each text gets one. -/
theorem exists_mem_zipWith {names texts : List String} (hlength : names.length = texts.length)
    {text : String} (h : text ∈ texts) (f : String → String → String) :
    ∃ name, f name text ∈ names.zipWith f texts := by
  obtain ⟨i, hi, rfl⟩ := List.mem_iff_getElem.1 h
  have hbound : i < (names.zipWith f texts).length := by
    rw [List.length_zipWith, hlength, Nat.min_self]
    exact hi
  refine ⟨names[i], ?_⟩
  rw [← List.getElem_zipWith (h := hbound)]
  exact List.getElem_mem hbound

theorem composes_kotlin : Kotlin.language.Composes where
  param returns h := (Text.infix_join h).trans
    (((Text.infix_append_right "(" _).trans (Text.infix_append_left _ ") -> ")).trans
      (Text.infix_append_left _ returns))
  result params returns := Text.infix_append_right _ returns
  item item := (Text.infix_append_right "List<" item).trans (Text.infix_append_left _ ">")
  alternative hint members member h := by
    have hlength : (Kotlin.alternativeNames members).length = members.length := by
      rw [Kotlin.alternativeNames, length_variantNames, List.length_map]
    obtain ⟨name, hclass⟩ := exists_mem_zipWith hlength h fun name type =>
      "    data class " ++ name ++ "(val value: " ++ type ++ ") : " ++ hint
    have hmember : member.toList <:+:
        ("    data class " ++ name ++ "(val value: " ++ member ++ ") : " ++ hint).toList :=
      ((Text.infix_append_right _ member).trans (Text.infix_append_left _ ") : ")).trans
        (Text.infix_append_left _ hint)
    refine hmember.trans (Text.infix_unlines ?_)
    exact List.mem_append_left _ (.tail _ hclass)
  field hint fields f h := by
    have hpart : "    val " ++ Kotlin.ident (Text.camel f.1) ++ ": " ++ f.2 ∈
        fields.map fun f => "    val " ++ Kotlin.ident (Text.camel f.1) ++ ": " ++ f.2 :=
      List.mem_map_of_mem h
    simp only [Kotlin.language, Kotlin.object, Option.getD_some]
    generalize fields.map _ = parts at hpart ⊢
    rw [if_neg fun hempty => List.ne_nil_of_mem hpart (List.isEmpty_iff.1 hempty)]
    exact ((Text.infix_append_right _ f.2).trans (Text.infix_join hpart)).trans
      ((Text.infix_append_right _ _).trans (Text.infix_append_left _ ",\n)"))
  optional type := by
    simp only [Kotlin.language, Kotlin.optional]
    split
    · exact (Text.infix_append_right "(" type).trans (Text.infix_append_left _ ")?")
    · exact Text.infix_append_left type "?"

theorem composes_dart : Dart.language.Composes where
  param returns h := (Text.infix_join h).trans
    ((Text.infix_append_right _ _).trans (Text.infix_append_left _ ")"))
  result params returns := ((Text.infix_append_left returns " Function(").trans
    (Text.infix_append_left _ _)).trans (Text.infix_append_left _ ")")
  item item := (Text.infix_append_right "List<" item).trans (Text.infix_append_left _ ">")
  alternative hint members member h := by
    have hlength : (Dart.alternativeNames hint members).length = members.length := by
      rw [Dart.alternativeNames, length_variantNames, List.length_map]
    obtain ⟨name, hclass⟩ := exists_mem_zipWith hlength h (Dart.alternativeClass hint)
    have hmember : member.toList <:+: (Dart.alternativeClass hint name member).toList := by
      have hline : "  final " ++ member ++ " value;" ∈
          ["final class " ++ name ++ " extends " ++ hint ++ " \x7b",
            "  const " ++ name ++ "(this.value);", "  final " ++ member ++ " value;", "\x7d"] := by
        simp
      exact ((Text.infix_append_right "  final " member).trans
        (Text.infix_append_left _ " value;")).trans (Text.infix_unlines hline)
    exact hmember.trans (Text.infix_join (.tail _ hclass))
  field hint fields f h := by
    have hpart : f.2 ++ " " ++ Dart.ident (Text.camel f.1) ∈
        fields.map fun f => f.2 ++ " " ++ Dart.ident (Text.camel f.1) := List.mem_map_of_mem h
    simp only [Dart.language, Dart.object, Option.getD_none]
    generalize fields.map _ = parts at hpart ⊢
    rw [if_neg fun hempty => List.ne_nil_of_mem hpart (List.isEmpty_iff.1 hempty)]
    have hfield : f.2.toList <:+: (f.2 ++ " " ++ Dart.ident (Text.camel f.1)).toList :=
      (Text.infix_append_left f.2 " ").trans (Text.infix_append_left _ _)
    exact (hfield.trans (Text.infix_join hpart)).trans
      ((Text.infix_append_right "(\x7b" _).trans (Text.infix_append_left _ "\x7d)"))
  optional type := Text.infix_append_left type "?"

/-! ## Types at mapped positions -/

section
variable {l : NominalLanguage} {hint type : String} {d inner : TypeDescriptor}

/-- A mapping writes the type of a descriptor somewhere. -/
def Writes (l : NominalLanguage) (m : Mapping String) (d : TypeDescriptor) : Prop :=
  ∃ hint type, (l.map d hint).result = .ok type ∧ m.Has type

/-- What is written in a part of a type is written in the whole type. -/
theorem Writes.within {ds : List Declaration} {part : String} (h : l.Writes ⟨ds, .ok part⟩ inner)
    (hpart : Mapping.Has ⟨ds, .ok type⟩ part) : l.Writes ⟨ds, .ok type⟩ inner := by
  obtain ⟨hint, written, hwritten, hhas⟩ := h
  exact ⟨hint, written, hwritten, hhas.trans rfl (List.Subset.refl _) hpart⟩

theorem Assigns.writes (hl : l.Composes) {ds : List Declaration}
    (hinner : TypeDescriptor.Position false d inner) (h : l.Assigns ds d hint type) :
    l.Writes ⟨ds, .ok type⟩ inner := by
  induction hinner generalizing hint type with
  | self d => exact ⟨hint, type, h.result, .inl ⟨type, rfl, List.infix_rfl⟩⟩
  | member hmem _ ih =>
    obtain ⟨i, hi⟩ := List.mem_iff_getElem?.1 hmem
    have hplace := List.mk_mem_zipIdx_iff_getElem?.2 hi
    cases h with
    | common htypes hcommon =>
      exact ih (eq_of_commonMember? hcommon (List.mem_map_of_mem hplace) ▸ htypes _ hplace)
    | alternatives _ htypes _ hdeclared =>
      refine (ih (htypes _ hplace)).within (.inr ⟨_, hdeclared, ?_⟩)
      exact hl.alternative hint (List.mem_map_of_mem hplace)
    | truth _ hvalues | enumeration hvalues => cases hvalues
  | item _ ih =>
    cases h with
    | list hitem => exact (ih hitem).within (.inl ⟨_, rfl, hl.item _⟩)
    | truth _ hvalues | enumeration hvalues => cases hvalues
  | param hmem _ ih =>
    cases h with
    | action hparams | callback hparams =>
      refine (ih (hparams _ hmem)).within (.inl ⟨_, rfl, ?_⟩)
      exact hl.param _ (List.mem_map_of_mem hmem)
    | signed _ _ _ hkind => exact absurd rfl hkind
    | truth _ hvalues | enumeration hvalues => cases hvalues
  | result _ ih =>
    cases h with
    | callback _ hreturns => exact (ih hreturns).within (.inl ⟨_, rfl, hl.result _ _⟩)
    | signed _ _ _ hkind => exact absurd rfl hkind
    | truth _ hvalues | enumeration hvalues => cases hvalues
  | field hstrict hmem _ ih =>
    obtain rfl := hstrict.resolve_right Bool.false_ne_true
    cases h with
    | @record _ _ typeOf hfields hsource =>
      have hin := hl.field hint (List.mem_map_of_mem (f := fun p => (p.1, typeOf p)) hmem)
      rw [hsource] at hin
      exact (ih (hfields _ hmem)).within (.inl ⟨_, rfl, hin⟩)
    | @object _ _ _ typeOf hfields hsource hdeclared =>
      have hin := hl.field hint (List.mem_map_of_mem (f := fun p => (p.1, typeOf p)) hmem)
      rw [hsource] at hin
      exact (ih (hfields _ hmem)).within (.inr ⟨_, hdeclared, hin⟩)
    | truth _ hvalues | enumeration hvalues => cases hvalues

/-- What is written for a descriptor has the types of the descriptors at its mapped positions. -/
theorem map_has (hl : l.Composes) (hinner : TypeDescriptor.Position false d inner)
    (h : (l.map d hint).result = .ok type) : l.Writes (l.map d hint) inner := by
  have hwrites := Assigns.writes hl hinner (assigns_iff.2 h)
  rwa [← h] at hwrites

end

end NominalLanguage

/-- A name that the type of a descriptor mentions stands in what is written for it. -/
theorem Platform.mentioned_written {platform : Platform} (hplatform : platform.frameworkNames ≠ [])
    {d : TypeDescriptor} {name hint type : String} (hname : platform.Mentions d name)
    (h : (platform.types.map d hint).result = .ok type) :
    (platform.types.map d hint).Has name := by
  obtain ⟨inner, hinner, hown⟩ := hname
  have hscript : ∀ f, platform.types = TypeScript.table f → platform.isTypeScript = true →
      (platform.types.map d hint).Has name := by
    intro f hf hscript
    rw [hscript] at hinner
    rw [hf] at h
    obtain ⟨part, hpart, hin⟩ := TypeScript.type_written hinner h
    have hprefix := prefix_frameworkType hown hint (by rw [hf]; exact hpart)
    rw [hf]
    exact .inl ⟨type, h, hprefix.isInfix.trans hin⟩
  have hnominal : ∀ l : NominalLanguage, l.Composes → platform.types = l.table →
      platform.isTypeScript = false → (platform.types.map d hint).Has name := by
    intro l hl htable hscript
    rw [hscript] at hinner
    rw [htable] at h
    obtain ⟨hint', part, hpart, hin⟩ := NominalLanguage.map_has hl hinner h
    have hprefix := prefix_frameworkType hown hint' (by rw [htable]; exact hpart)
    rw [htable]
    exact hin.of_infix hprefix.isInfix
  cases platform with
  | vue | angular => exact hscript _ rfl rfl
  | compose => exact hnominal _ NominalLanguage.composes_kotlin rfl rfl
  | flutter => exact hnominal _ NominalLanguage.composes_dart rfl rfl
  | react | svelte | swiftUI | css | tailwind => exact absurd rfl hplatform

end DesignSystem
