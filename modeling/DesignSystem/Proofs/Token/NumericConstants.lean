import DesignSystem.Proofs.Generator.Constants
import DesignSystem.Proofs.Numeric.Spelling
import DesignSystem.Proofs.Token.Kinds

/-!
# Constants that are numbers

SwiftUI and Flutter declare numbers and lengths as constants of their number types. The literal is
the number that was read, so it is a plain numeral if that is finite.

* `Token.SpellsPoints`: a text spells a length in logical pixels.
* `points?_isFinite_iff`: the length that is read is finite if the one that is spelled is in the
  range.
* `Token.numeric_literals`: the literals of numeric constants are plain numerals just if the texts
  spell lengths in the range. `Token.numeric_literals_special` has texts that do not.
-/

set_option autoImplicit false

namespace DesignSystem

namespace Token

/-! ## Lengths -/

/-- A text spells a length in logical pixels, up to the sign. -/
inductive SpellsPoints (s : String) : ℚ → Prop
  | number {value : ℚ} : Scalar.Spells s value → SpellsPoints s value
  | pixels {number unit : String} {value : ℚ} : unit ∈ ["px", "pt", "dp", "sp"] →
      IsPlainNumeral number → Scalar.Spells number value → s = number ++ unit → SpellsPoints s value
  | rootSizes {number unit : String} {value : ℚ} : unit ∈ ["rem", "em"] →
      IsPlainNumeral number → Scalar.Spells number value → s = number ++ unit →
      SpellsPoints s (value * 16)

variable {s : String} {x : Scalar} {value : ℚ}

/-- A number is no dimension: no unit consists of characters of numbers. -/
theorem dimension?_of_spells (h : Scalar.Spells s value) : dimension? s = none := by
  rw [Option.eq_none_iff_forall_not_mem]
  rintro ⟨x, unit⟩ hdimension
  obtain ⟨hunit, number, -, rfl, -⟩ := dimension?_eq_some_iff.1 hdimension
  have hletter : ∀ unit ∈ units, unit.toList.any (!Scalar.isSpellingChar ·) = true := by decide
  obtain ⟨c, hc, hnot⟩ := List.any_eq_true.1 (hletter unit hunit)
  rw [h.forall_mem c (by simp [hc])] at hnot
  cases hnot

/-- The kind of a text that is no color. -/
theorem ofText_eq (h : Color.ofText? (Text.trim s) = none) : ValueKind.ofText s =
    match dimension? (Text.trim s), Scalar.read? (Text.trim s) with
    | some (value, unit), _ => .dimension value unit
    | none, some value => .number value
    | none, none => .text s := by
  unfold ValueKind.ofText
  dsimp only
  rw [h]
  cases dimension? (Text.trim s) with
  | some d => rfl
  | none => cases Scalar.read? (Text.trim s) <;> rfl

theorem units_of_points : (∀ unit ∈ ["px", "pt", "dp", "sp"], unit ∈ units) ∧
    ∀ unit ∈ ["rem", "em"], unit ∈ units ∧ unit ∉ ["px", "pt", "dp", "sp"] := by decide

/-- What spells a length does not start as a color. -/
theorem SpellsPoints.ofText?_eq_none (h : SpellsPoints s value) : Color.ofText? s = none := by
  have hunits : ∀ unit ∈ units, '#' ∉ unit.toList := by decide
  have hnumber : ∀ {number : String} {value : ℚ}, Scalar.Spells number value →
      '#' ∉ number.toList :=
    fun hspells hmem => absurd (hspells.forall_mem '#' hmem) (by decide)
  have hmem : '#' ∉ s.toList := by
    cases h with
    | number hspells => exact hnumber hspells
    | pixels hunit _ hspells heq =>
      rw [heq, String.toList_append]
      exact fun hmem => (List.mem_append.1 hmem).elim (hnumber hspells)
        (hunits _ (units_of_points.1 _ hunit))
    | rootSizes hunit _ hspells heq =>
      rw [heq, String.toList_append]
      exact fun hmem => (List.mem_append.1 hmem).elim (hnumber hspells)
        (hunits _ (units_of_points.2 _ hunit).1)
  unfold Color.ofText?
  split
  · next heq => exact absurd (heq ▸ .head _) hmem
  · rfl

/-- What spells a length is read as one, which is finite just if the length is in the range. -/
theorem SpellsPoints.points? (h : SpellsPoints (Text.trim s) value) :
    ∃ x, (ValueKind.ofText s).points? = some x ∧ (x.isFinite ↔ value < Scalar.limit) := by
  rw [ofText_eq h.ofText?_eq_none]
  generalize Text.trim s = t at h
  cases h with
  | number hspells =>
    obtain ⟨x, hread, hfinite, -⟩ := Scalar.read?_of_spells hspells
    rw [dimension?_of_spells hspells, hread]
    exact ⟨x, rfl, hfinite⟩
  | pixels hunit hplain hspells heq =>
    obtain ⟨x, hread, hfinite, -⟩ := Scalar.read?_of_spells hspells
    have hdimension := dimension?_eq_some_iff.2
      ⟨units_of_points.1 _ hunit, _, hplain, heq, hread⟩
    rw [hdimension]
    exact ⟨x, if_pos hunit, hfinite⟩
  | rootSizes hunit hplain hspells heq =>
    obtain ⟨x, hread, -, hfinite⟩ := Scalar.read?_of_spells hspells
    obtain ⟨hmem, hnot⟩ := units_of_points.2 _ hunit
    rw [dimension?_eq_some_iff.2 ⟨hmem, _, hplain, heq, hread⟩]
    exact ⟨_, (if_neg hnot).trans (if_pos hunit), hfinite⟩

/-- A length that is read is spelled, unless it is not finite. -/
theorem spellsPoints_of_points? (h : (ValueKind.ofText s).points? = some x) (hfinite : x.isFinite) :
    ∃ value, SpellsPoints (Text.trim s) value := by
  cases hcolor : Color.ofText? (Text.trim s) with
  | some c =>
    rw [ofText_eq_color_iff.2 hcolor] at h
    cases h
  | none =>
    rw [ofText_eq hcolor] at h
    split at h
    · next value unit hdimension =>
      obtain ⟨-, number, hplain, heq, -⟩ := dimension?_eq_some_iff.1 hdimension
      obtain ⟨value', hspells⟩ := spells_of_isPlainNumeral hplain
      unfold ValueKind.points? at h
      dsimp only at h
      split at h
      · next hunit => exact ⟨value', .pixels hunit hplain hspells heq⟩
      · split at h
        · next hunit => exact ⟨value' * 16, .rootSizes hunit hplain hspells heq⟩
        · cases h
    · next value _ hread =>
      cases h
      rcases Scalar.spells_or_special hread with ⟨value, hspells⟩ | hinfinite
      · exact ⟨value, .number hspells⟩
      · exact absurd (hinfinite.symm.trans hfinite) Bool.false_ne_true
    · cases h

/-- A length that is read is finite just if the text spells one in the range. -/
theorem points?_isFinite_iff (h : (ValueKind.ofText s).points? = some x) :
    x.isFinite ↔ ∃ value, SpellsPoints (Text.trim s) value ∧ value < Scalar.limit := by
  have hread : ∀ {value}, SpellsPoints (Text.trim s) value →
      (x.isFinite ↔ value < Scalar.limit) := by
    intro value hspells
    obtain ⟨y, hy, hfinite⟩ := hspells.points?
    rw [h] at hy
    cases hy
    exact hfinite
  constructor
  · intro hfinite
    obtain ⟨value, hspells⟩ := spellsPoints_of_points? h hfinite
    exact ⟨value, hspells, (hread hspells).1 hfinite⟩
  · rintro ⟨value, hspells, hlt⟩
    exact (hread hspells).2 hlt

end Token

/-! ## Constants -/

/-- The number that a constant holds. -/
def Token.Constant.number? : Token.Constant → Option Scalar
  | number x => some x
  | length points _ => some points
  | _ => none

theorem Token.Constant.number?_ofKind (s : String) (kind : ValueKind) :
    (ofKind s kind).number? = kind.points? := by
  unfold ofKind
  cases kind with
  | color c => rfl
  | number x => rfl
  | text t => rfl
  | dimension value unit =>
    dsimp only
    split
    · next hpoints => exact hpoints.symm
    · next hpoints => exact hpoints.symm

variable {flat : FlatTokens} {tok : FlatToken} {s literal : String}

/-- The SwiftUI token file declares the constant of a token as a number, with a literal. -/
def SwiftUI.DeclaresNumber (flat : FlatTokens) (tok : FlatToken) (literal : String) : Prop :=
  assigned flat tok = .literal literal ∧
    constantLine flat tok = s!"    public static let {tok.ident}: CGFloat = {literal}"

/-- The Flutter token file declares the constant of a token as a number, with a literal. -/
def Flutter.DeclaresNumber (flat : FlatTokens) (tok : FlatToken) (literal : String) : Prop :=
  assigned flat tok = .literal literal ∧
    constantLine flat tok = s!"  static const double {tok.ident} = {literal};"

section
variable {α : Type} [DecidableEq α] {type : Token.Constant → α} {value : Token.Constant → String}

theorem eq_literal_of_assigned (h : flat.assigned type value tok = .literal literal) :
    literal = value tok.constant := by
  unfold FlatTokens.assigned at h
  split at h
  · split at h
    · cases h
    · exact (Assigned.literal.inj h).symm
  · exact (Assigned.literal.inj h).symm

end

theorem between_inj {front a b back : String} :
    front ++ a ++ back = front ++ b ++ back ↔ a = b := by
  simp [← String.toList_inj]

theorem SwiftUI.declaresNumber_iff : DeclaresNumber flat tok literal ↔
    assigned flat tok = .literal literal ∧ constantType tok.constant = "CGFloat" := by
  refine and_congr_right fun hassigned => ?_
  have hline : constantLine flat tok = "    public static let " ++ tok.ident ++ ": " ++
      constantType tok.constant ++ (" = " ++ literal) := by
    unfold constantLine
    rw [hassigned]
    simp only [String.append_assoc]
    rfl
  have hnumber : s!"    public static let {tok.ident}: CGFloat = {literal}" =
      "    public static let " ++ tok.ident ++ ": " ++ "CGFloat" ++ (" = " ++ literal) := by
    change "    public static let " ++ tok.ident ++ ": CGFloat = " ++ literal = _
    simp [← String.toList_inj]
  rw [hline, hnumber, between_inj]

theorem Flutter.declaresNumber_iff : DeclaresNumber flat tok literal ↔
    assigned flat tok = .literal literal ∧ constantType tok.constant = "double" := by
  refine and_congr_right fun hassigned => ?_
  have hline : constantLine flat tok = "  static const " ++ constantType tok.constant ++
      (" " ++ tok.ident ++ " = " ++ literal ++ ";") := by
    unfold constantLine
    rw [hassigned]
    simp only [String.append_assoc]
    rfl
  have hnumber : s!"  static const double {tok.ident} = {literal};" =
      "  static const " ++ "double" ++ (" " ++ tok.ident ++ " = " ++ literal ++ ";") := by
    change "  static const double " ++ tok.ident ++ " = " ++ literal ++ ";" = _
    simp [← String.toList_inj]
  rw [hline, hnumber, between_inj]

/-- The type that a constant is declared with is that of numbers just if it holds one. -/
theorem constantType_eq_iff {c : Token.Constant} :
    (SwiftUI.constantType c = "CGFloat" ↔ c.number?.isSome) ∧
      (Flutter.constantType c = "double" ↔ c.number?.isSome) := by
  cases c <;> simp [SwiftUI.constantType, Flutter.constantType, Token.Constant.number?]

/-- Numbers are written as numerals. -/
theorem constantLiteral_of_number {c : Token.Constant} {x : Scalar} (h : c.number? = some x) :
    SwiftUI.constantLiteral c = x.numeral ∧ Flutter.constantLiteral c = x.numeral := by
  cases c with
  | number | length =>
    cases h
    exact ⟨rfl, rfl⟩
  | texts | flag | color | text => cases h

theorem exists_number_of_declares
    (h : SwiftUI.DeclaresNumber flat tok literal ∨ Flutter.DeclaresNumber flat tok literal) :
    ∃ x, tok.constant.number? = some x ∧ literal = x.numeral := by
  rcases h with h | h
  · obtain ⟨hassigned, htype⟩ := SwiftUI.declaresNumber_iff.1 h
    obtain ⟨x, hx⟩ := Option.isSome_iff_exists.1 (constantType_eq_iff.1.1 htype)
    exact ⟨x, hx, (eq_literal_of_assigned hassigned).trans (constantLiteral_of_number hx).1⟩
  · obtain ⟨hassigned, htype⟩ := Flutter.declaresNumber_iff.1 h
    obtain ⟨x, hx⟩ := Option.isSome_iff_exists.1 (constantType_eq_iff.2.1 htype)
    exact ⟨x, hx, (eq_literal_of_assigned hassigned).trans (constantLiteral_of_number hx).2⟩

theorem declares_of_number {x : Scalar} (hraw : tok.reference = none)
    (hx : tok.constant.number? = some x) :
    SwiftUI.DeclaresNumber flat tok x.numeral ∧ Flutter.DeclaresNumber flat tok x.numeral := by
  obtain ⟨hswiftUI, hflutter⟩ := constantLiteral_of_number hx
  have hsome : tok.constant.number?.isSome := by rw [hx]; rfl
  constructor
  · refine SwiftUI.declaresNumber_iff.2 ⟨?_, constantType_eq_iff.1.2 hsome⟩
    rw [← hswiftUI]
    exact assigned_of_raw SwiftUI.constantType SwiftUI.constantLiteral hraw
  · refine Flutter.declaresNumber_iff.2 ⟨?_, constantType_eq_iff.2.2 hsome⟩
    rw [← hflutter]
    exact assigned_of_raw Flutter.constantType Flutter.constantLiteral hraw

/-- How the literal of a text is written where its constant is a number. -/
structure Token.NumericLiteral (s literal : String) : Prop where
  /-- A length in the range, as the text spells it, is written as a plain numeral. -/
  numeral : IsPlainNumeral literal ↔
    ∃ value, SpellsPoints (Text.trim s) value ∧ value < Scalar.limit
  /-- Else one of the special values is. -/
  special : ¬ IsPlainNumeral literal → literal ∈ ["NaN", "inf", "-inf"]

/-- **The literal of a constant that is declared as a number is a plain numeral just if the text
spells a length in the range.** -/
theorem Token.numeric_literals (hvalue : tok.value = .text s) :
    (∀ literal, SwiftUI.DeclaresNumber flat tok literal ∨ Flutter.DeclaresNumber flat tok literal →
      NumericLiteral s literal) ∧
    (tok.reference = none → ∀ value, SpellsPoints (Text.trim s) value →
      ∃ literal, SwiftUI.DeclaresNumber flat tok literal ∧
        Flutter.DeclaresNumber flat tok literal) := by
  have hconstant : tok.constant = .ofKind s (.ofText s) := by
    rw [FlatToken.constant, hvalue]
    rfl
  have hnumber : tok.constant.number? = (ValueKind.ofText s).points? := by
    rw [hconstant, Constant.number?_ofKind]
  constructor
  · intro literal h
    obtain ⟨x, hx, rfl⟩ := exists_number_of_declares h
    rw [hnumber] at hx
    refine ⟨(isPlainNumeral_numeral_iff x).trans (points?_isFinite_iff hx), fun hnot => ?_⟩
    cases x with
    | finite x => exact absurd (isPlainNumeral_numeral_of_finite x) hnot
    | nan => decide
    | infinite isNegative => cases isNegative <;> decide
  · intro hraw value hspells
    obtain ⟨x, hx, -⟩ := hspells.points?
    rw [← hnumber] at hx
    exact ⟨x.numeral, declares_of_number hraw hx⟩

/-- A ratio as a raw value. -/
def ratioLayers (value : String) : Token.Layers where
  primitive := [("ratio", .leaf (.text value))]

/-- The resolved token of `ratioLayers`. -/
def ratio (value : String) : FlatToken := ⟨⟨.primitive, ["ratio"]⟩, "ratio", .text value, none⟩

/-- A length in root font sizes is written in pixels. -/
theorem Token.numeric_literals_rem : (ratioLayers "1.5rem").resolve = .ok [ratio "1.5rem"] ∧
    SwiftUI.constantLine [ratio "1.5rem"] (ratio "1.5rem") =
      "    public static let ratio: CGFloat = 24" ∧
    NumericLiteral "1.5rem" "24" := by
  have hline : SwiftUI.constantLine [ratio "1.5rem"] (ratio "1.5rem") =
      "    public static let ratio: CGFloat = 24" := by decide +kernel
  have hassigned : SwiftUI.assigned [ratio "1.5rem"] (ratio "1.5rem") = .literal "24" := by
    decide +kernel
  exact ⟨by decide +kernel, hline, (numeric_literals rfl).1 "24" (.inl ⟨hassigned, hline⟩)⟩

/-- Words and numbers beyond the range are declared as numbers, but not written as numerals. -/
theorem Token.numeric_literals_special :
    ((ratioLayers "Infinity").resolve = .ok [ratio "Infinity"] ∧
      SwiftUI.DeclaresNumber [ratio "Infinity"] (ratio "Infinity") "inf" ∧
      Flutter.DeclaresNumber [ratio "Infinity"] (ratio "Infinity") "inf" ∧
      ¬ IsPlainNumeral "inf") ∧
    ((ratioLayers "nan").resolve = .ok [ratio "nan"] ∧
      SwiftUI.DeclaresNumber [ratio "nan"] (ratio "nan") "NaN" ∧
      Flutter.DeclaresNumber [ratio "nan"] (ratio "nan") "NaN" ∧ ¬ IsPlainNumeral "NaN") ∧
    ((ratioLayers "-1e999").resolve = .ok [ratio "-1e999"] ∧
      SwiftUI.DeclaresNumber [ratio "-1e999"] (ratio "-1e999") "-inf" ∧
      Flutter.DeclaresNumber [ratio "-1e999"] (ratio "-1e999") "-inf" ∧
      ¬ IsPlainNumeral "-inf") := by
  have hinf : ¬ IsPlainNumeral "inf" := not_isPlainNumeral_of_mem (c := 'i') (by decide) (by decide)
  have hminus : ¬ IsPlainNumeral "-inf" :=
    not_isPlainNumeral_of_mem (c := 'i') (by decide) (by decide)
  have hnan : ¬ IsPlainNumeral "NaN" := not_isPlainNumeral_of_mem (c := 'N') (by decide) (by decide)
  unfold SwiftUI.DeclaresNumber Flutter.DeclaresNumber
  refine ⟨⟨?_, ⟨?_, ?_⟩, ⟨?_, ?_⟩, hinf⟩, ⟨?_, ⟨?_, ?_⟩, ⟨?_, ?_⟩, hnan⟩,
    ⟨?_, ⟨?_, ?_⟩, ⟨?_, ?_⟩, hminus⟩⟩
  all_goals decide +kernel

end DesignSystem
