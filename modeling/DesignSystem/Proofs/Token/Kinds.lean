import DesignSystem.Proofs.Numeric.Spelling
import DesignSystem.Proofs.Token.Color
import DesignSystem.Proofs.Token.Resolution
import DesignSystem.Token.Constant

/-!
# Kinds of rendered values

The constant of a token is that of its value, while a component token only has the text that the
value is rendered as. The text of a list may be that of a color or of a length: a plain numeral with
a unit.

* `dimension?_eq_some_iff`: these are the dimensions.
* `isPlain_ofText_number`: the text of a number is neither that of a color nor that of a dimension.
* `constant_of_color`, `constant_of_dimension`, `constant_of_points`: what the text tells about the
  constant of a value that is no list.
-/

set_option autoImplicit false

namespace DesignSystem

open Json (AllDigits)
open Json.Number (signOf)

theorem Text.mem_of_mem_trim {s : String} {c : Char} (h : c ∈ (trim s).toList) : c ∈ s.toList := by
  rw [trim, String.toList_ofList, dropTrailing, List.mem_reverse] at h
  have hback := (List.dropWhile_sublist isBlankChar).subset h
  exact (List.dropWhile_sublist isBlankChar).subset (List.mem_reverse.1 hback)

namespace Token

/-! ## Dimensions -/

/-- Digits with an optional fraction stand at the front of the text. -/
theorem spanNumber_inversion {cs number rest : List Char}
    (h : spanNumber cs = some (number, rest)) :
    ∃ whole fraction, cs = number ++ rest ∧ number = whole ++ Option.elim fraction [] ('.' :: ·) ∧
      (whole ≠ [] ∧ AllDigits whole) ∧ ∀ ds ∈ fraction, ds ≠ [] ∧ AllDigits ds := by
  unfold spanNumber at h
  split at h
  · cases h
  · next whole rest' hne hspan =>
    obtain ⟨rfl, hwhole, -⟩ := spanDigits_eq_iff.1 hspan
    split at h
    · cases h
    · next fraction rest'' hne' hspan' =>
      obtain ⟨rfl, hfraction, -⟩ := spanDigits_eq_iff.1 hspan'
      cases h
      refine ⟨whole, some fraction, by simp, rfl, ⟨hne, hwhole⟩, ?_⟩
      rintro _ ⟨⟩
      exact ⟨hne', hfraction⟩
  · next hne _ hspan =>
    cases h
    obtain ⟨rfl, hwhole, -⟩ := spanDigits_eq_iff.1 hspan
    exact ⟨_, none, rfl, (List.append_nil _).symm, ⟨hne, hwhole⟩, nofun⟩

theorem spanNumber_of_parts {whole rest : List Char} {fraction : Option (List Char)}
    (hwhole : whole ≠ [] ∧ AllDigits whole) (hfraction : ∀ ds ∈ fraction, ds ≠ [] ∧ AllDigits ds)
    (hrest : NoDigitFirst rest) (hpoint : rest.head? ≠ some '.') :
    spanNumber (whole ++ fraction.elim [] ('.' :: ·) ++ rest) =
      some (whole ++ fraction.elim [] ('.' :: ·), rest) := by
  obtain ⟨hne, hwhole⟩ := hwhole
  unfold spanNumber
  cases fraction with
  | none =>
    simp only [Option.elim_none, List.append_nil]
    rw [spanDigits_eq_iff.2 ⟨rfl, hwhole, hrest⟩]
    split
    · next heq => exact absurd (congrArg Prod.fst heq) hne
    · next heq => exact absurd (congrArg (·.2.head?) heq) hpoint
    · next heq =>
      cases heq
      rfl
  | some ds =>
    obtain ⟨hds, hall⟩ := hfraction ds rfl
    simp only [Option.elim_some, List.append_assoc, List.cons_append]
    rw [spanDigits_eq_iff.2 ⟨rfl, hwhole, Scalar.noDigitFirst_point _⟩]
    split
    · next heq => exact absurd (congrArg Prod.fst heq) hne
    · next heq =>
      cases heq
      rw [spanDigits_eq_iff.2 ⟨rfl, hall, hrest⟩]
      split
      · next heq => exact absurd (congrArg Prod.fst heq) hds
      · next heq =>
        cases heq
        rfl
    · next hnot heq =>
      cases heq
      exact (hnot _ rfl).elim

/-- The minus sign at the front of a text, and the rest. -/
def splitMinus : List Char → List Char × List Char
  | '-' :: cs => (['-'], cs)
  | cs => ([], cs)

theorem dimension?_eq (s : String) : dimension? s =
    (spanNumber (splitMinus s.toList).2).bind fun p =>
      if String.ofList p.2 ∈ units then
        (Scalar.read? (.ofList ((splitMinus s.toList).1 ++ p.1))).bind fun value =>
          some (value, String.ofList p.2)
      else none := rfl

theorem exists_splitMinus (cs : List Char) : ∃ isNegative,
    splitMinus cs = (signOf isNegative, (splitMinus cs).2) ∧
      cs = signOf isNegative ++ (splitMinus cs).2 := by
  unfold splitMinus
  split
  · exact ⟨true, rfl, rfl⟩
  · exact ⟨false, rfl, rfl⟩

theorem splitMinus_append {isNegative : Bool} {cs : List Char} (h : ∀ rest, cs ≠ '-' :: rest) :
    splitMinus (signOf isNegative ++ cs) = (signOf isNegative, cs) := by
  cases isNegative with
  | true => rfl
  | false =>
    unfold splitMinus
    split
    · next heq => exact absurd heq (h _)
    · rfl

theorem noDigitFirst_unit {unit : String} (h : unit ∈ units) :
    NoDigitFirst unit.toList ∧ unit.toList.head? ≠ some '.' := by
  have hfirst : ∀ unit ∈ units, unit.toList.head?.any Char.isDigit = false ∧
      unit.toList.head? ≠ some '.' := by
    decide
  refine ⟨fun c hc => ?_, (hfirst unit h).2⟩
  have hany := (hfirst unit h).1
  rwa [Option.mem_def.1 hc] at hany

/-- A plain numeral is read up to the unit behind it. -/
theorem dimension?_append {number unit : String} (hnumber : IsPlainNumeral number)
    (hunit : unit ∈ units) : dimension? (number ++ unit) =
      (Scalar.read? number).bind fun value => some (value, unit) := by
  obtain ⟨⟨isNegative, whole, fraction, _⟩, ⟨hwhole, hfraction, -⟩, rfl, hchars⟩ := hnumber
  obtain ⟨hdigit, hpoint⟩ := noDigitFirst_unit hunit
  have hparts : number.toList = signOf isNegative ++ (whole ++ fraction.elim [] ('.' :: ·)) := by
    rw [hchars]
    simp [Reading.Numeral.chars]
  have hsplit : splitMinus (number ++ unit).toList =
      (signOf isNegative, whole ++ fraction.elim [] ('.' :: ·) ++ unit.toList) := by
    rw [String.toList_append, hparts, List.append_assoc]
    refine splitMinus_append fun rest heq => ?_
    obtain ⟨c, cs, rfl⟩ := List.exists_cons_of_ne_nil hwhole.1
    obtain rfl : c = '-' := (List.cons.inj heq).1
    exact absurd (hwhole.2 '-' (.head _)) (by decide)
  rw [dimension?_eq, hsplit]
  dsimp only
  rw [spanNumber_of_parts hwhole hfraction hdigit hpoint, Option.bind_some, String.ofList_toList,
    if_pos hunit, ← hparts, String.ofList_toList]

/-- A dimension is a plain numeral with a unit. -/
theorem dimension?_eq_some_iff {s unit : String} {value : Scalar} :
    dimension? s = some (value, unit) ↔ unit ∈ units ∧
      ∃ number, IsPlainNumeral number ∧ s = number ++ unit ∧ Scalar.read? number = some value := by
  constructor
  · intro h
    rw [dimension?_eq] at h
    obtain ⟨⟨number, rest⟩, hspan, h⟩ := Option.bind_eq_some_iff.1 h
    obtain ⟨isNegative, hsplit, hs⟩ := exists_splitMinus s.toList
    obtain ⟨whole, fraction, hrest, rfl, hwhole, hfraction⟩ := spanNumber_inversion hspan
    split at h
    · next hunit =>
      obtain ⟨value, hread, h⟩ := Option.bind_eq_some_iff.1 h
      cases h
      refine ⟨hunit, _, ?_, ?_, hread⟩
      · refine isPlainNumeral_of_parts isNegative fraction hwhole hfraction ?_
        rw [String.toList_ofList, hsplit]
      · apply String.toList_injective
        rw [String.toList_append, String.toList_ofList, String.toList_ofList, hsplit,
          List.append_assoc, ← hrest, ← hs]
    · cases h
  · rintro ⟨hunit, number, hnumber, rfl, hread⟩
    rw [dimension?_append hnumber hunit, hread]
    rfl

/-- The unit of a dimension stands in its text. -/
theorem exists_unit_of_dimension? {s unit : String} {value : Scalar}
    (h : dimension? s = some (value, unit)) : unit ∈ units ∧ ∀ c ∈ unit.toList, c ∈ s.toList := by
  obtain ⟨hunit, number, -, rfl, -⟩ := dimension?_eq_some_iff.1 h
  rw [String.toList_append]
  exact ⟨hunit, fun c hc => List.mem_append_right _ hc⟩

/-! ## Texts of values -/

/-- The value is a list. -/
def Leaf.isList : Leaf → Bool
  | list _ => true
  | _ => false

theorem dimension?_of_ofText {s unit : String} {value : Scalar}
    (h : ValueKind.ofText s = .dimension value unit) :
    dimension? (Text.trim s) = some (value, unit) := by
  unfold ValueKind.ofText at h
  dsimp only at h
  split at h
  · cases h
  · split at h
    · next hd =>
      cases h
      exact hd
    · split at h <;> cases h

/-- The text of a number is neither that of a color nor that of a dimension. -/
theorem isPlain_ofText_number (n : Json.Number) :
    (∀ c, ValueKind.ofText n.text ≠ .color c) ∧
      ∀ value unit, ValueKind.ofText n.text ≠ .dimension value unit := by
  have hchar : ∀ c ∈ (Text.trim n.text).toList, Json.isNumberChar c :=
    fun c hc => Json.Number.isNumberChar_of_mem (Text.mem_of_mem_trim hc)
  constructor
  · intro c h
    have hcolor := ofText_eq_color_iff.1 h
    unfold Color.ofText? at hcolor
    split at hcolor
    · next digits hs =>
      have hmark := hchar '#' (by rw [hs]; exact .head _)
      exact absurd hmark (by decide)
    · cases hcolor
  · intro value unit h
    obtain ⟨hunit, hmem⟩ := exists_unit_of_dimension? (dimension?_of_ofText h)
    have hletter : ∀ unit ∈ units, unit.toList.any (!Json.isNumberChar ·) = true := by decide
    obtain ⟨c, hc, hnot⟩ := List.any_eq_true.1 (hletter unit hunit)
    rw [hchar c (hmem c hc)] at hnot
    cases hnot

theorem ofText_flag (b : Bool) :
    ValueKind.ofText (Leaf.flag b).render = .text (Leaf.flag b).render := by
  cases b <;> decide +kernel

theorem constant_of_isList {v : Leaf} (h : v.isList = true) :
    ∃ items, Constant.ofLeaf v = .texts items := by
  cases v with
  | list items => exact ⟨items, rfl⟩
  | text | number | flag | reference => cases h

variable {v : Leaf} (hraw : v.isReference = false) (hlist : v.isList = false)
include hraw hlist

theorem constant_of_color {c : Color} (h : ValueKind.ofText v.render = .color c) :
    Constant.ofLeaf v = .color c := by
  cases v with
  | text s =>
    change Constant.ofKind s (ValueKind.ofText s) = _
    rw [show ValueKind.ofText s = .color c from h]
    rfl
  | number n => exact absurd h ((isPlain_ofText_number n).1 c)
  | flag b =>
    rw [ofText_flag] at h
    cases h
  | list items => cases hlist
  | reference target => cases hraw

/-- A length in its own unit is a constant of that length. -/
theorem constant_of_dimension {value points : Scalar} {unit : String}
    (h : ValueKind.ofText v.render = .dimension value unit)
    (hpoints : (ValueKind.dimension value unit).points? = some points) :
    Constant.ofLeaf v = .length points (unit = "sp") := by
  cases v with
  | text s =>
    change Constant.ofKind s (ValueKind.ofText s) = _
    rw [show ValueKind.ofText s = .dimension value unit from h]
    unfold Constant.ofKind
    dsimp only
    rw [hpoints]
  | number n => exact absurd h ((isPlain_ofText_number n).2 value unit)
  | flag b =>
    rw [ofText_flag] at h
    cases h
  | list items => cases hlist
  | reference target => cases hraw

/-- What has points is a length, or a number. -/
theorem constant_of_points (h : (ValueKind.ofText v.render).points?.isSome) :
    (∃ x, Constant.ofLeaf v = .number x) ∨
      ∃ points scaled, Constant.ofLeaf v = .length points scaled := by
  cases hkind : ValueKind.ofText v.render with
  | color c =>
    rw [hkind] at h
    cases h
  | text s =>
    rw [hkind] at h
    cases h
  | dimension value unit =>
    rw [hkind] at h
    obtain ⟨points, hpoints⟩ := Option.isSome_iff_exists.1 h
    exact .inr ⟨points, _, constant_of_dimension hraw hlist hkind hpoints⟩
  | number x =>
    refine .inl ?_
    cases v with
    | text s =>
      refine ⟨x, ?_⟩
      change Constant.ofKind s (ValueKind.ofText s) = _
      rw [show ValueKind.ofText s = .number x from hkind]
      rfl
    | number n => exact ⟨n.toScalar, rfl⟩
    | flag b =>
      rw [ofText_flag] at hkind
      cases hkind
    | list items => cases hlist
    | reference target => cases hraw

end Token

end DesignSystem
