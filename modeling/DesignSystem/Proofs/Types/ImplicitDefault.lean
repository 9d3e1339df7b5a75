import DesignSystem.Proofs.Descriptor.Sample
import DesignSystem.Proofs.Types.EnumerationCases
import DesignSystem.Types.Platform

/-!
# The default value that a descriptor implies

A prop without a default value gets the first enumerated one, which is taken as a text.

* `Platform.IsMember`: a literal is of the type that an enumeration is mapped to.
* `implicit_default`: when the implied default is the literal of the first value, and when it is of
  the type.
-/

set_option autoImplicit false

namespace DesignSystem

open Reading (Dialect TypeExpr)

variable {d : TypeDescriptor} {values rest : List Json.Value} {first : Json.Value}
  {hint text : String}

/-- The label of the first enumerated value is the first label. -/
theorem head?_enumerated (hd : d.enumeratedValues? = some (first :: rest)) :
    (d.enumerated?.bind List.head?) = some first.label := by
  cases d with
  | primitive kind found =>
    cases hd
    rfl
  | custom kind found =>
    obtain ⟨texts, htexts, hcons⟩ := Option.map_eq_some_iff.1 hd
    obtain ⟨s, ss, rfl, rfl, -⟩ := List.map_eq_cons_iff.1 hcons
    rw [htexts]
    rfl
  | complex | signed | union | array | object => cases hd

/-- Without a value the first label is the default, as a text. -/
theorem TypeTable.default?_none (t : TypeTable) (hd : d.enumeratedValues? = some (first :: rest)) :
    t.default? d none hint = t.literal d (.string first.label) hint := by
  have hhead := head?_enumerated hd
  cases hlabels : d.enumerated? with
  | none => simp [hlabels] at hhead
  | some labels =>
    rw [hlabels, Option.bind_some] at hhead
    simp only [default?, hlabels, hhead, Option.bind_eq_bind, Option.bind_some]

/-- The label of a text is the text. -/
theorem string_label_eq_iff : Json.Value.string first.label = first ↔ ∃ s, first = .string s := by
  constructor
  · intro h
    exact ⟨first.label, h.symm⟩
  · rintro ⟨s, rfl⟩
    rfl

theorem Json.Value.IsScalar.isPlain {v : Json.Value} (hv : v.IsScalar) : v.IsPlain := by
  cases v with
  | null | bool | number | string => trivial
  | array | object => cases hv

/-! ## Languages with named types -/

namespace Reading.Dialect

variable {y : Dialect}

/-- A text that is not enumerated has no literal. -/
theorem enumeratedLiteral?_of_string_notMem {l : NominalLanguage} {s : String}
    (h : .string s ∉ values) : l.enumeratedLiteral? values (.string s) hint = none :=
  NominalLanguage.enumeratedLiteral?_eq_none
    (Bool.eq_false_iff.2 fun hany => h (any_same_string_iff.1 hany))

/-- The default is the literal of the first value just if this is a text, or if it is no truth value
and its label is enumerated besides. -/
theorem literal?_label_iff (hd : d.enumeratedValues? = some (first :: rest))
    (hfirst : first.IsScalar) :
    y.language.literal? d (.string first.label) hint = y.language.literal? d first hint ↔
      (∃ s, first = .string s) ∨ isTruthValue first = false ∧ .string first.label ∈ rest := by
  have hliteral :=
    NominalLanguage.literal?_enumeration (l := y.language) hint hd (List.cons_ne_nil _ _)
  rw [hliteral, hliteral]
  by_cases htext : ∃ s, first = .string s
  · rw [string_label_eq_iff.2 htext]
    exact iff_of_true rfl (.inl htext)
  rw [or_iff_right htext]
  have hself : (first :: rest).any (·.same first) :=
    List.any_eq_true.2 ⟨first, List.mem_cons_self, Json.Value.same_self hfirst.isPlain⟩
  obtain ⟨own, hown, hreference, -⟩ := exists_enumeratedLiteral y hint hself
  have hmem : .string first.label ∈ first :: rest ↔ .string first.label ∈ rest := by
    rw [List.mem_cons, or_iff_right fun h => htext (string_label_eq_iff.1 h)]
  by_cases hlabel : .string first.label ∈ first :: rest
  · obtain ⟨text, htext, hrefers, -⟩ :=
      exists_enumeratedLiteral y hint (any_same_string_iff.2 hlabel)
    have hname : y.caseName (.string first.label) = y.caseName first := caseName_congr y rfl
    rw [hname] at hrefers
    rw [hown, htext, and_iff_left (hmem.1 hlabel), ← hreference]
    constructor
    · rintro ⟨⟩
      exact hrefers.2 rfl
    · intro hcase
      exact congrArg some (eq_of_readReference (hrefers.2 rfl) hcase)
  · rw [hown, enumeratedLiteral?_of_string_notMem hlabel]
    exact iff_of_false nofun fun h => hlabel (hmem.2 h.2)

/-- A case that a text refers to is declared for a descriptor. -/
def IsDeclaredCase (y : Dialect) (d : TypeDescriptor) (hint text : String) : Prop :=
  ∃ e, y.declaredEnumeration d hint = some e ∧
    ∃ c ∈ e.cases, y.readReference hint text = some c.name

/-- A label has a literal that refers to a case just if it is enumerated as a text. -/
theorem isDeclaredCase_iff (hd : d.enumeratedValues? = some values) (hne : values ≠ [])
    (label : String) : (∃ text, y.language.literal? d (.string label) hint = some text ∧
      y.IsDeclaredCase d hint text) ↔ .string label ∈ values := by
  have hliteral :=
    NominalLanguage.literal?_enumeration (l := y.language) hint hd hne (.string label)
  rw [hliteral]
  constructor
  · rintro ⟨text, htext, -⟩
    by_contra hnot
    rw [enumeratedLiteral?_of_string_notMem hnot] at htext
    cases htext
  · intro hmem
    obtain ⟨text, htext, hreference, -⟩ :=
      exists_enumeratedLiteral y hint (any_same_string_iff.2 hmem)
    have hsome : values.all isTruthValue = false := List.all_eq_false.2 ⟨_, hmem, nofun⟩
    obtain ⟨-, hdeclared⟩ := declaredEnumeration_eq (y := y) hint hd hne hsome
    exact ⟨text, htext, _, hdeclared, _, List.mem_map_of_mem hmem, hreference.2 rfl⟩

end Reading.Dialect

/-! ## TypeScript -/

/-- The alternatives of a type, which may be only one. -/
def Reading.TypeExpr.alternatives : TypeExpr → List TypeExpr
  | .union ts => ts
  | t => [t]

namespace TypeScript

open Reading.TypeScript (read)

variable {f : Framework}

theorem literalShape_eq_text_iff {v : Json.Value} {s : String} :
    literalShape v = .text s ↔ v = .string s := by
  cases v <;> simp [literalShape]

theorem alternatives_shapes (hne : values ≠ []) :
    (TypeExpr.anyOf (values.map literalShape)).alternatives = values.map literalShape := by
  match values, hne with
  | [v], _ => cases v <;> rfl
  | v :: w :: rest, _ => rfl

theorem read_literal {v : Json.Value} (hv : v.IsScalar) (h : literal? v = some text) :
    read text = some (literalShape v) := by
  obtain ⟨ts, hspells, hoperand⟩ := literal_isOperand hv h
  exact (says_of_isOperand hspells hoperand).read

theorem type_enumeration (hd : d.enumeratedValues? = some values) (hne : values ≠ []) :
    type f d = literalUnion d values := by
  have hvalues := enumerationValues_enumeration target hd hne
  cases d with
  | primitive kind found =>
    cases hd
    simp only [type, hvalues]
  | custom kind found => simp only [type, hvalues]
  | complex | signed | union | array | object => cases hd

/-- A text is one of the literals that a type consists of. -/
def IsAlternative (type text : String) : Prop :=
  ∃ t e, read type = some t ∧ read text = some e ∧ e ∈ t.alternatives

/-- The default is the literal of the first value just if this is a text. -/
theorem literal?_label_iff (hfirst : first.IsScalar) :
    literal? (.string first.label) = literal? first ↔ ∃ s, first = .string s := by
  rw [← string_label_eq_iff]
  constructor
  · intro h
    have hquoted : literal? (.string first.label) = some (Text.quotedSingle first.label) := rfl
    have hread := (read_literal (v := .string first.label) trivial hquoted).symm.trans
      (read_literal hfirst (h.symm.trans hquoted))
    exact (literalShape_eq_text_iff.1 (Option.some.inj hread).symm).symm
  · intro h
    rw [h]

/-- The first label is one of the literals of the type just if it is enumerated as a text. -/
theorem isAlternative_iff (hd : d.enumeratedValues? = some values) (hne : values ≠ [])
    (hscalar : ∀ v ∈ values, v.IsScalar) {source : String} (h : type f d = .ok source)
    (label : String) : IsAlternative source (Text.quotedSingle label) ↔ .string label ∈ values := by
  rw [type_enumeration hd hne] at h
  have hsays := literalUnion_says hscalar hne h
  have hsource := hsays.read
  have htext : read (Text.quotedSingle label) = some (.text label) :=
    read_literal (v := .string label) trivial rfl
  have hmem : TypeExpr.text label ∈ values.map literalShape ↔ .string label ∈ values := by
    simp only [List.mem_map, literalShape_eq_text_iff, exists_eq_right]
  rw [← hmem, ← alternatives_shapes hne]
  constructor
  · rintro ⟨t, e, ht, he, hmem⟩
    obtain rfl := Option.some.inj (hsource.symm.trans ht)
    obtain rfl := Option.some.inj (htext.symm.trans he)
    exact hmem
  · intro hmem
    exact ⟨_, _, hsource, htext, hmem⟩

end TypeScript

/-! ## Platforms -/

namespace Platform

/-- The language of a platform, if it is one with named types. -/
def dialect? : Platform → Option Dialect
  | swiftUI => some .swift
  | compose => some .kotlin
  | flutter => some .dart
  | react | vue | angular | svelte | css | tailwind => none

/-- A literal is a member of the type that an enumeration is mapped to: it refers to a declared
case, or in TypeScript is one of the literals in the type. -/
def IsMember (p : Platform) (d : TypeDescriptor) (hint type text : String) : Prop :=
  match p.dialect? with
  | some y => y.IsDeclaredCase d hint text
  | none => TypeScript.IsAlternative type text

variable {p : Platform}

theorem types_of_dialect? {y : Dialect} (h : p.dialect? = some y) : p.types = y.language.table := by
  cases p <;> cases h <;> rfl

theorem exists_framework_of_dialect? (h : p.dialect? = none) :
    ∃ f, p.types = TypeScript.table f := by
  cases p <;> first | exact ⟨_, rfl⟩ | cases h

/-- **The default that is implied is the literal of the first value if this is a text, and is then a
member of the type.** Otherwise it is taken from the label of the value: it is the same literal just
if the language has named types, the value is no truth value and its label is enumerated too, and
there is a default that is a member of the type just if the label is enumerated. -/
theorem implicit_default (hint : String) (hd : d.enumeratedValues? = some (first :: rest))
    (hscalar : ∀ v ∈ first :: rest, v.IsScalar) :
    (p.types.default? d none hint = p.types.default? d (some first) hint ↔
      (∃ s, first = .string s) ∨
        p.dialect?.isSome ∧ isTruthValue first = false ∧ .string first.label ∈ rest) ∧
    (∀ type, (p.types.map d hint).result = .ok type →
      ((∃ text, p.types.default? d none hint = some text ∧ p.IsMember d hint type text) ↔
        .string first.label ∈ first :: rest)) := by
  have hne : first :: rest ≠ [] := List.cons_ne_nil _ _
  have hfirst := hscalar first List.mem_cons_self
  rw [TypeTable.default?_none p.types hd, TypeTable.default?]
  unfold IsMember
  cases hp : p.dialect? with
  | some y =>
    rw [types_of_dialect? hp, Option.isSome_some, eq_self, true_and]
    exact ⟨Reading.Dialect.literal?_label_iff hd hfirst,
      fun type _ => Reading.Dialect.isDeclaredCase_iff hd hne first.label⟩
  | none =>
    obtain ⟨f, hf⟩ := exists_framework_of_dialect? hp
    rw [hf, Option.isSome_none, or_iff_left fun h => Bool.false_ne_true h.1]
    refine ⟨TypeScript.literal?_label_iff hfirst, fun type htype => ?_⟩
    rw [← TypeScript.isAlternative_iff hd hne hscalar htype]
    constructor
    · rintro ⟨text, ⟨⟩, hmember⟩
      exact hmember
    · intro hmember
      exact ⟨_, rfl, hmember⟩

theorem implicit_default_sizes : ∃ text,
    (Platform.types .react).default? (.custom .size none) none "Size" = some text ∧
      (Platform.types .react).default? (.custom .size none) (some (.string "xs")) "Size" =
        some text ∧
      IsMember .react (.custom .size none) "Size" "'xs' | 'sm' | 'md' | 'lg' | 'xl'" text := by
  have hscalar : ∀ v ∈ ["xs", "sm", "md", "lg", "xl"].map Json.Value.string, v.IsScalar := by
    intro v hv
    obtain ⟨s, -, rfl⟩ := List.mem_map.1 hv
    trivial
  obtain ⟨heq, hmember⟩ :=
    implicit_default (p := .react) (d := .custom .size none) "Size" rfl hscalar
  obtain ⟨text, htext, hmember⟩ := (hmember _ rfl).2 List.mem_cons_self
  exact ⟨text, htext, (heq.2 (.inl ⟨"xs", rfl⟩)).symm.trans htext, hmember⟩

/-- The columns of a grid. -/
def gridColumns : TypeDescriptor := .primitive .number (some [.ofNat 1, .ofNat 2])

/-- The number is taken as a text, which TypeScript's type has not among its literals, and which is
no case in Swift. -/
theorem implicit_default_gridColumns :
    (Platform.types .react).default? gridColumns none "Columns" = some "'1'" ∧
      (Platform.types .react).default? gridColumns (some (.ofNat 1)) "Columns" = some "1" ∧
      ((Platform.types .react).map gridColumns "Columns").result = .ok "1 | 2" ∧
      ¬ IsMember .react gridColumns "Columns" "1 | 2" "'1'" ∧
      (Platform.types .swiftUI).default? gridColumns none "Columns" = none ∧
      (Platform.types .swiftUI).default? gridColumns (some (.ofNat 1)) "Columns" = some ".v1" := by
  have hscalar : ∀ v ∈ [Json.Value.ofNat 1, .ofNat 2], v.IsScalar := by
    intro v hv
    rcases List.mem_pair.1 hv with rfl | rfl <;> trivial
  have htype : TypeScript.type .react gridColumns = .ok "1 | 2" := rfl
  refine ⟨rfl, rfl, htype, fun hmember => ?_, rfl, rfl⟩
  have hmem := (TypeScript.isAlternative_iff rfl (List.cons_ne_nil _ _) hscalar htype "1").1 hmember
  rcases List.mem_pair.1 hmem with h | h <;> cases h

end Platform

end DesignSystem
