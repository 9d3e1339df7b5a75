import DesignSystem.Proofs.Reading.Enumeration
import DesignSystem.Proofs.Types.Declared
import DesignSystem.Proofs.Types.Rules
import DesignSystem.Proofs.Types.TypeScriptReading

/-!
# Enumerations and the literals of their values

* `TypeDescriptor.enumeratedValues?`: the values that a descriptor enumerates.
* `Dialect.declaredEnumeration`: what is declared for them under the name of the type.
* `literal_names_case`: which literals refer to the case of their value.
* `rawValues_fit`: when all raw values are of the declared type.
-/

set_option autoImplicit false

namespace DesignSystem

/-- The values that a descriptor enumerates, if it does. -/
def TypeDescriptor.enumeratedValues? : TypeDescriptor → Option (List Json.Value)
  | primitive _ values => values
  | d => d.enumerated?.map (·.map .string)

section
variable {d : TypeDescriptor} {values : List Json.Value}

theorem enumerationValues_enumeration (target : String) (hd : d.enumeratedValues? = some values)
    (hne : values ≠ []) : enumerationValues target d = .ok (some values) := by
  cases d with
  | primitive kind found =>
    cases hd
    obtain ⟨v, vs, rfl⟩ := List.exists_cons_of_ne_nil hne
    rfl
  | custom kind found =>
    obtain ⟨texts, htexts, rfl⟩ := Option.map_eq_some_iff.1 hd
    obtain ⟨s, ss, rfl⟩ := List.exists_cons_of_ne_nil fun hnil => hne (List.map_eq_nil_iff.2 hnil)
    simp only [enumerationValues, htexts]
  | complex | signed | union | array | object => cases hd

/-- An enumeration without values has no type. -/
theorem enumerationValues_empty (target : String) (hd : d.enumeratedValues? = some []) :
    ∃ e, enumerationValues target d = .error e := by
  cases d with
  | primitive kind found =>
    cases hd
    exact ⟨_, rfl⟩
  | custom kind found =>
    obtain ⟨texts, htexts, hnil⟩ := Option.map_eq_some_iff.1 hd
    obtain rfl := List.map_eq_nil_iff.1 hnil
    simp only [enumerationValues, htexts]
    exact ⟨_, rfl⟩
  | complex | signed | union | array | object => cases hd

end

/-! ## Equal values -/

theorem Binary64.eq_of_same {x x' : Binary64} (h : x.same x') : x = x' ∨ x.isZero ∧ x'.isZero := by
  obtain ⟨negative, magnitude, hlt⟩ := x
  obtain ⟨negative', magnitude', hlt'⟩ := x'
  simp only [same, Bool.and_eq_true, Bool.or_eq_true, decide_eq_true_eq] at h
  obtain ⟨rfl, rfl | hzero⟩ := h
  · exact .inl rfl
  · exact .inr ⟨decide_eq_true hzero, decide_eq_true hzero⟩

theorem caseIdent_of_isZero {x : Binary64} (h : x.isZero) :
    caseIdent (.number (.real x)) = "v00" := by
  obtain ⟨negative, magnitude, hlt⟩ := x
  obtain rfl : magnitude = 0 := of_decide_eq_true h
  have hzero : ∀ negative, caseIdent (.number (.real ⟨negative, 0, by decide⟩)) = "v00" := by
    decide +kernel
  exact hzero negative

/-- Equal scalars are of one kind and have one identifier. Only the zeros are equal and differ. -/
theorem Json.Value.IsScalar.same {v w : Json.Value} (hv : v.IsScalar) (h : v.same w) :
    caseIdent v = caseIdent w ∧ (v = w ∨ ∃ m n, v = .number m ∧ w = .number n) := by
  cases v with
  | null =>
    cases w with
    | null => exact ⟨rfl, .inl rfl⟩
    | _ => cases h
  | bool b =>
    cases w with
    | bool c =>
      obtain rfl : b = c := by simpa [Json.Value.same] using h
      exact ⟨rfl, .inl rfl⟩
    | _ => cases h
  | string s =>
    cases w with
    | string t =>
      obtain rfl : s = t := by simpa [Json.Value.same] using h
      exact ⟨rfl, .inl rfl⟩
    | _ => cases h
  | number m =>
    cases w with
    | number n =>
      refine ⟨?_, .inr ⟨m, n, rfl, rfl⟩⟩
      cases m with
      | integer i =>
        cases n with
        | integer j =>
          obtain rfl : i = j := by simpa [Json.Value.same, Json.Number.same] using h
          rfl
        | real x => cases h
      | real x =>
        cases n with
        | integer j => cases h
        | real x' =>
          rcases Binary64.eq_of_same h with rfl | ⟨hx, hx'⟩
          · rfl
          · rw [caseIdent_of_isZero hx, caseIdent_of_isZero hx']
    | _ => cases h
  | array | object => cases hv

theorem any_same_string_iff {values : List Json.Value} {s : String} :
    (values.any (·.same (.string s))) = true ↔ .string s ∈ values := by
  rw [List.any_eq_true]
  constructor
  · rintro ⟨v, hv, hsame⟩
    cases v with
    | string t =>
      obtain rfl : t = s := by simpa [Json.Value.same] using hsame
      exact hv
    | _ => cases hsame
  · intro h
    exact ⟨_, h, by simp [Json.Value.same]⟩

theorem isTruthValue_iff {v : Json.Value} : isTruthValue v ↔ ∃ b, v = .bool b := by
  cases v <;> simp [isTruthValue]

theorem isNumber_iff {v : Json.Value} : isNumber v ↔ ∃ n, v = .number n := by
  cases v <;> simp [isNumber]

/-! ## Types and literals -/

namespace NominalLanguage

variable {l : NominalLanguage} {d : TypeDescriptor} {values : List Json.Value} {hint : String}

theorem map_enumeration (hd : d.enumeratedValues? = some values) (hne : values ≠ []) :
    l.map d hint = l.enumerationType values hint :=
  map_of_enumerationValues (enumerationValues_enumeration l.name hd hne) hint

theorem ne_nil_of_map {type : String} (hd : d.enumeratedValues? = some values)
    (hmap : (l.map d hint).result = .ok type) : values ≠ [] := by
  rintro rfl
  obtain ⟨e, he⟩ := enumerationValues_empty l.name hd
  obtain ⟨found, hfound⟩ := exists_enumerationValues hmap
  cases he.symm.trans hfound

theorem literal?_enumeration (hint : String) (hd : d.enumeratedValues? = some values)
    (hne : values ≠ []) (v : Json.Value) :
    l.literal? d v hint = l.enumeratedLiteral? values v hint := by
  have hvalues := enumerationValues_enumeration l.name hd hne
  cases d with
  | primitive | custom => simp only [literal?, hvalues]
  | complex | signed | union | array | object => cases hd

/-- A value that is not enumerated has no literal. -/
theorem enumeratedLiteral?_eq_none {v : Json.Value} (h : values.any (·.same v) = false) :
    l.enumeratedLiteral? values v hint = none := by
  unfold enumeratedLiteral?
  rw [if_neg (Bool.eq_false_iff.1 h)]

end NominalLanguage

namespace Reading.Dialect

variable {y : Dialect} {d : TypeDescriptor} {values : List Json.Value} {hint type : String}

/-- What is declared for a descriptor under its name in an empty scope, read as an enumeration. -/
def declaredEnumeration (y : Dialect) (d : TypeDescriptor) (hint : String) :
    Option Enumeration := do
  y.readEnumeration hint
    (← Entries.get? hint (TypeScope.declareAll [] (y.language.map d hint).declared))

/-- Values that are not all truth values get a type with a case for each of them. -/
theorem declaredEnumeration_eq (hint : String) (hd : d.enumeratedValues? = some values)
    (hne : values ≠ []) (hsome : values.all isTruthValue = false) :
    (y.language.map d hint).result = .ok hint ∧ y.declaredEnumeration d hint =
      some ⟨y.rawType (values.all isNumber), values.map y.caseOf⟩ := by
  have hmap : y.language.map d hint = .declare ⟨hint, y.language.enumeration hint values⟩ := by
    rw [NominalLanguage.map_enumeration hd hne, NominalLanguage.enumerationType, hsome]
    rfl
  have hdeclared : Entries.get? hint
      (TypeScope.declareAll [] [⟨hint, y.language.enumeration hint values⟩]) =
        some (y.language.enumeration hint values) := by
    rw [TypeScope.get?_declareAll]
    simp [Entries.get?_nil]
  constructor
  · rw [hmap]
    rfl
  · rw [declaredEnumeration, hmap]
    change (Entries.get? hint (TypeScope.declareAll [] [_])).bind _ = _
    rw [hdeclared, Option.bind_some, readEnumeration_enumeration y hint hne]

/-! ## References -/

/-- A literal of a case refers to it. -/
theorem readReference_caseLiteral (y : Dialect) (hint : String) (v : Json.Value) :
    y.readReference hint (y.language.caseLiteral hint v) = some (y.caseName v) := by
  cases y <;> exact Text.dropFront?_append _ _

/-- Two texts that refer to one case are the same. -/
theorem eq_of_readReference {text text' name : String} (h : y.readReference hint text = some name)
    (h' : y.readReference hint text' = some name) : text = text' := by
  cases y <;> exact (Text.eq_append_of_dropFront? h).trans (Text.eq_append_of_dropFront? h').symm

/-- A truth value refers to no case. -/
theorem readReference_truth (y : Dialect) (hint : String) (b : Bool) :
    y.readReference hint (if b then "true" else "false") = none := by
  have hnone : ∀ front : String, '.' ∈ front.toList →
      Text.dropFront? front (if b then "true" else "false") = none := by
    intro front hdot
    have hlist : Text.dropFrontList front.toList (if b then "true" else "false").toList = none := by
      rw [← Option.not_isSome_iff_eq_none, Text.isSome_dropFrontList]
      intro hstart
      have hmem := hstart.subset hdot
      cases b <;> exact absurd hmem (by decide)
    rw [Text.dropFront?, hlist, Option.map_none]
  cases y with
  | swift => exact hnone "." (by decide)
  | kotlin | dart => exact hnone (hint ++ ".") (by simp)

/-- An enumerated value has a literal, which refers to its case unless it is a truth value. -/
theorem exists_enumeratedLiteral (y : Dialect) (hint : String) {w : Json.Value}
    (h : values.any (·.same w)) : ∃ text, y.language.enumeratedLiteral? values w hint = some text ∧
      (y.readReference hint text = some (y.caseName w) ↔ isTruthValue w = false) ∧
      ∀ b, w = .bool b → y.readLiteral text = some (.truth b) := by
  unfold NominalLanguage.enumeratedLiteral?
  rw [if_pos h]
  cases w with
  | bool b =>
    refine ⟨_, rfl, ?_, ?_⟩
    · rw [readReference_truth]
      simp [isTruthValue]
    · rintro _ ⟨⟩
      exact (reads_truth y b).readLiteral
  | null | number | string | array | object =>
    exact ⟨_, rfl, iff_of_true (readReference_caseLiteral y hint _) rfl, nofun⟩

theorem caseName_congr (y : Dialect) {v w : Json.Value} (h : caseIdent v = caseIdent w) :
    y.caseName v = y.caseName w := by
  cases y with
  | swift => exact congrArg Swift.ident h
  | kotlin => exact congrArg Text.upperSnake h
  | dart => exact congrArg Dart.ident h

/-- **Values that are not enumerated have no literal. The literals of enumerated values refer to
their cases, but not those of truth values, which may be among values of another kind.** -/
theorem literal_names_case (hd : d.enumeratedValues? = some values)
    (hscalar : ∀ v ∈ values, v.IsScalar) (hmap : (y.language.map d hint).result = .ok type) :
    (∀ w, values.any (·.same w) = false → y.language.literal? d w hint = none) ∧
    if values.all isTruthValue then
      type = y.scalarType .boolean ∧ ∀ w, values.any (·.same w) → ∃ b text, w = .bool b ∧
        y.language.literal? d w hint = some text ∧ y.readLiteral text = some (.truth b)
    else
      type = hint ∧ ∃ e, y.declaredEnumeration d hint = some e ∧ e.cases.length = values.length ∧
        ∀ w, values.any (·.same w) → ∃ v c text, (v, c) ∈ values.zip e.cases ∧ v.same w ∧
          c.raw = y.rawLiteral v ∧ y.language.literal? d w hint = some text ∧
          (y.readReference hint text = some c.name ↔ isTruthValue w = false) ∧
          ∀ b, w = .bool b → y.readLiteral text = some (.truth b) := by
  have hne := NominalLanguage.ne_nil_of_map hd hmap
  have hliteral := NominalLanguage.literal?_enumeration (l := y.language) hint hd hne
  refine ⟨fun w hout => by rw [hliteral, NominalLanguage.enumeratedLiteral?_eq_none hout], ?_⟩
  split
  · next hall =>
    rw [NominalLanguage.map_enumeration hd hne, NominalLanguage.enumerationType,
      if_pos hall] at hmap
    refine ⟨(Except.ok.inj hmap).symm.trans (language_primitive y .boolean), fun w hin => ?_⟩
    obtain ⟨v, hv, hsame⟩ := List.any_eq_true.1 hin
    obtain ⟨b, rfl⟩ := isTruthValue_iff.1 (List.all_eq_true.1 hall v hv)
    obtain ⟨text, htext, -, htruth⟩ := exists_enumeratedLiteral y hint hin
    rcases ((hscalar _ hv).same hsame).2 with rfl | ⟨m, n, hnumber, -⟩
    · exact ⟨b, text, rfl, (hliteral _).trans htext, htruth b rfl⟩
    · cases hnumber
  · next hsome =>
    obtain ⟨htype, hdeclared⟩ := declaredEnumeration_eq (y := y) hint hd hne
      (Bool.eq_false_iff.2 hsome)
    refine ⟨Except.ok.inj (hmap.symm.trans htype), _, hdeclared, by simp, fun w hin => ?_⟩
    obtain ⟨v, hv, hsame⟩ := List.any_eq_true.1 hin
    obtain ⟨text, htext, hreference, htruth⟩ := exists_enumeratedLiteral y hint hin
    refine ⟨v, y.caseOf v, text, ?_, hsame, rfl, (hliteral w).trans htext, ?_, htruth⟩
    · exact List.map_prod_left_eq_zip ▸ List.mem_map.2 ⟨v, hv, rfl⟩
    · rwa [caseOf, caseName_congr y ((hscalar v hv).same hsame).1]

/-- Column widths: a word and numbers. -/
def columnWidths : TypeDescriptor := .primitive .string (some [.string "default", .ofNat 2])

theorem literal_names_case_columnWidths : ∃ e c text,
    kotlin.declaredEnumeration columnWidths "Width" = some e ∧ c ∈ e.cases ∧
      c.raw = .number "2.0" ∧ kotlin.language.literal? columnWidths (.ofNat 2) "Width" = some text ∧
      kotlin.readReference "Width" text = some c.name := by
  have hscalar : ∀ v ∈ [Json.Value.string "default", .ofNat 2], v.IsScalar := by
    intro v hv
    rcases List.mem_pair.1 hv with rfl | rfl <;> trivial
  have hmap : (kotlin.language.map columnWidths "Width").result = .ok "Width" := rfl
  obtain ⟨-, -, e, he, -, hcases⟩ := literal_names_case rfl hscalar hmap
  obtain ⟨v, c, text, hmem, hsame, hraw, htext, hreference, -⟩ := hcases (.ofNat 2) rfl
  refine ⟨e, c, text, he, (List.of_mem_zip hmem).2, ?_, htext, hreference.2 rfl⟩
  rcases List.mem_pair.1 (List.of_mem_zip hmem).1 with rfl | rfl
  · cases hsame
  · exact hraw

/-- Modes of a switch: a word and a truth value. -/
def switchModes : TypeDescriptor := .primitive .string (some [.string "auto", .bool true])

/-- The truth value has a case, which its literal does not refer to. -/
theorem literal_names_case_switchModes :
    (swift.language.map switchModes "Mode").result = .ok "Mode" ∧
      swift.declaredEnumeration switchModes "Mode" =
        some ⟨"String", [⟨"auto", .text "auto"⟩, ⟨"`true`", .text "true"⟩]⟩ ∧
      swift.language.literal? switchModes (.bool true) "Mode" = some "true" ∧
      swift.readReference "Mode" "true" = none := by
  obtain ⟨hmap, hdeclared⟩ := declaredEnumeration_eq (y := swift) (d := switchModes) "Mode" rfl
    (List.cons_ne_nil _ _) rfl
  have hcases : [Json.Value.string "auto", .bool true].map swift.caseOf =
      [⟨"auto", .text "auto"⟩, ⟨"`true`", .text "true"⟩] := rfl
  exact ⟨hmap, hdeclared.trans (by rw [hcases]; rfl), rfl, readReference_truth swift "Mode" true⟩

/-! ## Raw values -/

/-- All raw values are of the type that is declared for them: numbers if it is that of numbers, and
otherwise texts. -/
def RawValuesFit (y : Dialect) (e : Enumeration) : Prop :=
  ∀ c ∈ e.cases, if e.rawType = y.rawType true then ∃ digits, c.raw = .number digits
    else ∃ content, c.raw = .text content

theorem rawType_eq_iff (y : Dialect) (numeric : Bool) :
    y.rawType numeric = y.rawType true ↔ numeric := by
  cases y <;> cases numeric <;> decide

theorem rawLiteral_number_iff (y : Dialect) (v : Json.Value) :
    (∃ digits, y.rawLiteral v = .number digits) ↔ isNumber v := by
  cases v <;> simp [rawLiteral, isNumber]

theorem rawLiteral_text_iff (y : Dialect) (v : Json.Value) :
    (∃ content, y.rawLiteral v = .text content) ↔ isNumber v = false := by
  cases v <;> simp [rawLiteral, isNumber]

/-- **The raw values of a declared enumeration are of its type, unless numbers stand beside other
values.** The type is then that of texts, and the numbers are still written as numbers. -/
theorem rawValues_fit (hint : String) (hd : d.enumeratedValues? = some values) (hne : values ≠ [])
    (hsome : values.all isTruthValue = false) :
    ∃ e, y.declaredEnumeration d hint = some e ∧ e.cases.map (·.raw) = values.map y.rawLiteral ∧
      e.rawType = y.rawType (values.all isNumber) ∧
      (y.RawValuesFit e ↔ (∀ v ∈ values, isNumber v) ∨ ∀ v ∈ values, isNumber v = false) := by
  obtain ⟨-, hdeclared⟩ := declaredEnumeration_eq (y := y) hint hd hne hsome
  refine ⟨_, hdeclared, by simp [caseOf], rfl, ?_⟩
  simp only [RawValuesFit, List.forall_mem_map, rawType_eq_iff, caseOf, rawLiteral_number_iff,
    rawLiteral_text_iff]
  cases hall : values.all isNumber with
  | true =>
    have hnumbers := List.all_eq_true.1 hall
    simp only [if_true]
    exact iff_of_true hnumbers (.inl hnumbers)
  | false =>
    have hother : ¬ ∀ v ∈ values, isNumber v := fun h =>
      Bool.false_ne_true (hall.symm.trans (List.all_eq_true.2 h))
    simp only [Bool.false_eq_true, if_false, or_iff_right hother]

/-- Weights of a font. -/
def fontWeights : TypeDescriptor := .primitive .number (some [.ofNat 400, .ofNat 700])

theorem rawValues_fit_weights :
    ∃ e, dart.declaredEnumeration fontWeights "Weight" = some e ∧ dart.RawValuesFit e := by
  obtain ⟨e, he, -, -, hfit⟩ := rawValues_fit (y := dart) (d := fontWeights) "Weight" rfl
    (List.cons_ne_nil _ _) rfl
  refine ⟨e, he, hfit.2 (.inl fun v hv => ?_)⟩
  rcases List.mem_pair.1 hv with rfl | rfl <;> rfl

/-- Modes of a layout: a word and a number. -/
def layoutModes : TypeDescriptor := .primitive .string (some [.string "auto", .ofNat 1])

/-- A number among texts: the type of raw values is that of texts, and one of them is a number. -/
theorem rawValues_fit_autoOne :
    swift.declaredEnumeration layoutModes "Mode" =
        some ⟨"String", [⟨"auto", .text "auto"⟩, ⟨"v1", .number "1"⟩]⟩ ∧
      ¬ swift.RawValuesFit ⟨"String", [⟨"auto", .text "auto"⟩, ⟨"v1", .number "1"⟩]⟩ := by
  obtain ⟨-, hdeclared⟩ := declaredEnumeration_eq (y := swift) (d := layoutModes) "Mode" rfl
    (List.cons_ne_nil _ _) rfl
  have hcases : [Json.Value.string "auto", .ofNat 1].map swift.caseOf =
      [⟨"auto", .text "auto"⟩, ⟨"v1", .number "1"⟩] := rfl
  refine ⟨hdeclared.trans (by rw [hcases]; rfl), fun hfit => ?_⟩
  have hnumber := hfit ⟨"v1", .number "1"⟩ (by simp)
  rw [if_neg (by decide)] at hnumber
  obtain ⟨content, hcontent⟩ := hnumber
  cases hcontent

end Reading.Dialect

end DesignSystem
