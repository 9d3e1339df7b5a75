import DesignSystem.Numeric.Shortest
import DesignSystem.Proofs.Numeric.Range
import DesignSystem.Proofs.Reading.Numeral
import DesignSystem.Token.Kind
import Mathlib.Data.List.TakeWhile

/-!
# How numbers are spelled

A number is spelled with digits, among or around which there may be a point, and perhaps an exponent
behind them. Besides, there are words for the special values. A plain numeral has no exponent, so
every language reads it.

* `spanDigits_eq_iff`: the digits at the front of a text.
* `readExponent_eq_some_iff`: exponents.
* `SpellsDecimal`, `Spells`: numbers that are spelled with digits, without and with a sign.
* `read?_of_spells`, `spells_or_special`: these are read, and besides them just the words. A number
  that is read is finite if the value that is spelled is in the range.
* `isPlainNumeral_numeral_iff`: numbers are written as plain numerals just if they are finite.
* `spells_of_isPlainNumeral`: a plain numeral spells a number.
-/

set_option autoImplicit false

namespace DesignSystem

open Json (AllDigits)

/-- No digit stands first. -/
def NoDigitFirst (cs : List Char) : Prop := ∀ c ∈ cs.head?, c.isDigit = false

theorem spanDigits_eq_iff {cs digits rest : List Char} : spanDigits cs = (digits, rest) ↔
    cs = digits ++ rest ∧ AllDigits digits ∧ NoDigitFirst rest := by
  rw [spanDigits, List.span_eq_takeWhile_dropWhile, Prod.mk.injEq]
  constructor
  · rintro ⟨rfl, rfl⟩
    refine ⟨(List.takeWhile_append_dropWhile).symm, fun c hc => List.mem_takeWhile_imp hc, ?_⟩
    intro c hc
    have hnot := List.head?_dropWhile_not Char.isDigit cs
    rw [Option.mem_def.1 hc] at hnot
    simpa using hnot
  · rintro ⟨rfl, hdigits, hrest⟩
    cases rest with
    | nil => simp [List.takeWhile_eq_self_iff.2 hdigits, List.dropWhile_eq_nil_iff.2 hdigits]
    | cons c rest =>
      have hfirst := hrest c rfl
      have hstop : ¬ c.isDigit = true := by simp [hfirst]
      rw [List.takeWhile_append_of_pos hdigits, List.dropWhile_append_of_pos hdigits,
        List.takeWhile_cons_of_neg hstop, List.dropWhile_cons_of_neg hstop, List.append_nil]
      exact ⟨rfl, rfl⟩

namespace Scalar

/-! ## Signs and exponents -/

/-- A text behind an optional sign. -/
inductive Signed : Bool → List Char → List Char → Prop
  | unsigned {cs : List Char} : Signed false cs cs
  | positive {cs : List Char} : Signed false cs ('+' :: cs)
  | negative {cs : List Char} : Signed true cs ('-' :: cs)

/-- Whether there is a minus sign, and what stands behind the sign. -/
def splitSign : List Char → Bool × List Char
  | '-' :: cs => (true, cs)
  | '+' :: cs => (false, cs)
  | cs => (false, cs)

/-- An exponent as it may be spelled: nothing, or a letter, perhaps a sign, and digits. -/
inductive SpellsExponent : List Char → Int → Prop
  | none : SpellsExponent [] 0
  | digits {mark : Char} {isNegative : Bool} {digits tail : List Char} :
      mark = 'e' ∨ mark = 'E' → digits ≠ [] → AllDigits digits → Signed isNegative digits tail →
      SpellsExponent (mark :: tail)
        (if isNegative then -(digitsValue 0 digits : Int) else digitsValue 0 digits)

variable {cs rest digits : List Char} {e exponent : Int} {x : Scalar} {isNegative : Bool}

theorem signed_splitSign (cs : List Char) : Signed (splitSign cs).1 (splitSign cs).2 cs := by
  unfold splitSign
  split
  · exact .negative
  · exact .positive
  · exact .unsigned

theorem Signed.splitSign_eq (h : Signed isNegative rest cs)
    (hfirst : ∀ c ∈ rest.head?, c ≠ '-' ∧ c ≠ '+') : splitSign cs = (isNegative, rest) := by
  cases h with
  | positive | negative => rfl
  | unsigned =>
    unfold splitSign
    split
    · exact absurd rfl (hfirst _ rfl).1
    · exact absurd rfl (hfirst _ rfl).2
    · rfl

theorem readExponent_cons (mark : Char) (tail : List Char) : readExponent (mark :: tail) =
    if mark ≠ 'e' ∧ mark ≠ 'E' then none
    else if (splitSign tail).2.isEmpty || !(splitSign tail).2.all Char.isDigit then none
    else some (if (splitSign tail).1 then -(digitsValue 0 (splitSign tail).2 : Int)
      else digitsValue 0 (splitSign tail).2) := rfl

theorem isEmpty_or_not_all_iff :
    (digits.isEmpty || !digits.all Char.isDigit) = true ↔ ¬ (digits ≠ [] ∧ AllDigits digits) := by
  simp [AllDigits]
  tauto

theorem head?_of_allDigits (h : AllDigits digits) : ∀ c ∈ digits.head?, c ≠ '-' ∧ c ≠ '+' := by
  intro c hc
  have hdigit := h c (List.mem_of_mem_head? hc)
  constructor <;> rintro rfl <;> cases hdigit

theorem readExponent_eq_some_iff : readExponent cs = some e ↔ SpellsExponent cs e := by
  constructor
  · intro h
    cases cs with
    | nil =>
      cases h
      exact .none
    | cons mark tail =>
      rw [readExponent_cons] at h
      split at h
      · cases h
      · next hmark =>
        split at h
        · cases h
        · next hdigits =>
          obtain ⟨hne, hall⟩ := not_not.1 (mt isEmpty_or_not_all_iff.2 hdigits)
          cases h
          exact .digits (by tauto) hne hall (signed_splitSign tail)
  · intro h
    cases h with
    | none => rfl
    | digits hmark hne hall hsigned =>
      rw [readExponent_cons, hsigned.splitSign_eq (head?_of_allDigits hall), if_neg (by tauto),
        if_neg (mt isEmpty_or_not_all_iff.1 (not_not.2 ⟨hne, hall⟩))]

theorem SpellsExponent.head? (h : SpellsExponent cs e) : ∀ c ∈ cs.head?, c = 'e' ∨ c = 'E' := by
  cases h with
  | none => exact nofun
  | digits hmark =>
    rintro c ⟨⟩
    exact hmark

/-! ## Numbers without a sign -/

/-- A number without its sign, as it may be spelled with digits: the digits, and the exponent that
they have without the point. -/
inductive SpellsDecimal : List Char → List Char → Int → Prop
  | whole {whole tail : List Char} {e : Int} : AllDigits whole → whole ≠ [] →
      SpellsExponent tail e → SpellsDecimal (whole ++ tail) whole e
  | point {whole fraction tail : List Char} {e : Int} : AllDigits whole → AllDigits fraction →
      whole ++ fraction ≠ [] → SpellsExponent tail e →
      SpellsDecimal (whole ++ '.' :: (fraction ++ tail)) (whole ++ fraction) (e - fraction.length)

/-- The digits behind a point, and what follows. -/
def splitFraction : List Char → List Char × List Char
  | '.' :: cs => spanDigits cs
  | cs => ([], cs)

/-- The special value that a word stands for. -/
def ofWord? (isNegative : Bool) (cs : List Char) : Option Scalar :=
  match String.ofList (cs.map Char.toLower) with
  | "inf" | "infinity" => some (.infinite isNegative)
  | "nan" => some .nan
  | _ => none

variable {whole fraction tail : List Char}

theorem readUnsigned_eq (hwhole : spanDigits cs = (whole, rest))
    (hfraction : splitFraction rest = (fraction, tail)) : readUnsigned isNegative cs =
      if whole.isEmpty && fraction.isEmpty then ofWord? isNegative cs
      else (readExponent tail).map fun e =>
        .ofDigits isNegative (whole ++ fraction) (e - fraction.length) := by
  have hunfold : readUnsigned isNegative cs =
      if (spanDigits cs).1.isEmpty && (splitFraction (spanDigits cs).2).1.isEmpty then
        ofWord? isNegative cs
      else (readExponent (splitFraction (spanDigits cs).2).2).map fun e =>
        .ofDigits isNegative ((spanDigits cs).1 ++ (splitFraction (spanDigits cs).2).1)
          (e - (splitFraction (spanDigits cs).2).1.length) := rfl
  rw [hunfold, hwhole, hfraction]

theorem SpellsExponent.noDigitFirst (h : SpellsExponent cs e) : NoDigitFirst cs := by
  intro c hc
  rcases h.head? c hc with rfl | rfl <;> decide

theorem SpellsExponent.splitFraction_eq (h : SpellsExponent cs e) :
    splitFraction cs = ([], cs) := by
  unfold splitFraction
  split
  · exact absurd (h.head? _ rfl) (by decide)
  · rfl

theorem noDigitFirst_point (cs : List Char) : NoDigitFirst ('.' :: cs) := by
  rintro c ⟨⟩
  decide

theorem splitFraction_point (cs : List Char) : splitFraction ('.' :: cs) = spanDigits cs := rfl

theorem readUnsigned_of_spells (h : SpellsDecimal cs digits exponent) :
    readUnsigned isNegative cs = some (.ofDigits isNegative digits exponent) := by
  cases h with
  | whole hwhole hne hexponent =>
    rw [readUnsigned_eq (spanDigits_eq_iff.2 ⟨rfl, hwhole, hexponent.noDigitFirst⟩)
      hexponent.splitFraction_eq, readExponent_eq_some_iff.2 hexponent]
    simp [hne]
  | point hwhole hfraction hne hexponent =>
    have hspan := spanDigits_eq_iff.2 ⟨rfl, hfraction, hexponent.noDigitFirst⟩
    rw [readUnsigned_eq (spanDigits_eq_iff.2 ⟨rfl, hwhole, noDigitFirst_point _⟩)
      ((splitFraction_point _).trans hspan), readExponent_eq_some_iff.2 hexponent,
      if_neg (by simpa using hne)]
    rfl

/-- What is read as a number is a word for a special value, or spelled with digits. -/
theorem readUnsigned_cases (h : readUnsigned isNegative cs = some x) :
    ofWord? isNegative cs = some x ∨ ∃ digits exponent, SpellsDecimal cs digits exponent ∧
      x = .ofDigits isNegative digits exponent := by
  obtain ⟨whole, rest, hspan⟩ : ∃ whole rest, spanDigits cs = (whole, rest) := ⟨_, _, rfl⟩
  obtain ⟨fraction, tail, hsplit⟩ : ∃ fraction tail, splitFraction rest = (fraction, tail) :=
    ⟨_, _, rfl⟩
  rw [readUnsigned_eq hspan hsplit] at h
  obtain ⟨rfl, hwhole, -⟩ := spanDigits_eq_iff.1 hspan
  split at h
  · exact .inl h
  · next hdigits =>
    obtain ⟨e, hread, rfl⟩ := Option.map_eq_some_iff.1 h
    have hexponent := readExponent_eq_some_iff.1 hread
    refine .inr ⟨_, _, ?_, rfl⟩
    unfold splitFraction at hsplit
    split at hsplit
    · obtain ⟨rfl, hfraction, -⟩ := spanDigits_eq_iff.1 hsplit
      exact .point hwhole hfraction (by simpa using hdigits) hexponent
    · cases hsplit
      simpa using SpellsDecimal.whole hwhole (by simpa using hdigits) hexponent

theorem SpellsDecimal.allDigits (h : SpellsDecimal cs digits exponent) : AllDigits digits := by
  cases h with
  | whole hwhole => exact hwhole
  | point hwhole hfraction => exact hwhole.append hfraction

/-- A number starts with a digit or a point. -/
theorem SpellsDecimal.head? (h : SpellsDecimal cs digits exponent) :
    ∀ c ∈ cs.head?, c ≠ '-' ∧ c ≠ '+' := by
  cases h with
  | @whole whole _ _ hwhole hne =>
    rw [List.head?_append_of_ne_nil _ hne]
    exact head?_of_allDigits hwhole
  | @point whole _ _ _ hwhole =>
    cases whole with
    | nil =>
      rintro c ⟨⟩
      decide
    | cons d whole =>
      rintro _ ⟨⟩
      exact head?_of_allDigits hwhole d rfl

/-- The characters of numbers that are spelled with digits. -/
def isSpellingChar (c : Char) : Bool := c.isDigit || ['.', 'e', 'E', '+', '-'].contains c

theorem isSpellingChar_of_allDigits (h : AllDigits digits) : ∀ c ∈ digits, isSpellingChar c :=
  fun c hc => by simp [isSpellingChar, h c hc]

theorem Signed.forall_mem (h : Signed isNegative rest cs) (hrest : ∀ c ∈ rest, isSpellingChar c) :
    ∀ c ∈ cs, isSpellingChar c := by
  cases h with
  | unsigned => exact hrest
  | positive | negative => exact List.forall_mem_cons.2 ⟨by decide, hrest⟩

theorem SpellsExponent.forall_mem (h : SpellsExponent cs e) : ∀ c ∈ cs, isSpellingChar c := by
  cases h with
  | none => exact nofun
  | digits hmark _ hall hsigned =>
    refine List.forall_mem_cons.2 ⟨?_, hsigned.forall_mem (isSpellingChar_of_allDigits hall)⟩
    rcases hmark with rfl | rfl <;> decide

theorem SpellsDecimal.forall_mem (h : SpellsDecimal cs digits exponent) :
    ∀ c ∈ cs, isSpellingChar c := by
  cases h with
  | whole hwhole _ hexponent =>
    exact List.forall_mem_append.2 ⟨isSpellingChar_of_allDigits hwhole, hexponent.forall_mem⟩
  | point hwhole hfraction _ hexponent =>
    exact List.forall_mem_append.2 ⟨isSpellingChar_of_allDigits hwhole,
      List.forall_mem_cons.2 ⟨by decide, List.forall_mem_append.2
        ⟨isSpellingChar_of_allDigits hfraction, hexponent.forall_mem⟩⟩⟩

/-! ## Numbers -/

/-- A text spells a number with digits, of a value up to the sign. -/
def Spells (s : String) (value : ℚ) : Prop :=
  ∃ isNegative cs digits exponent, Signed isNegative cs s.toList ∧
    SpellsDecimal cs digits exponent ∧ value = decimalValue digits exponent

variable {s : String} {value : ℚ}

theorem read?_eq (s : String) :
    read? s = readUnsigned (splitSign s.toList).1 (splitSign s.toList).2 := by
  unfold read?
  split
  · next h =>
    rw [h]
    rfl
  · next h =>
    rw [h]
    rfl
  · next hminus hplus =>
    unfold splitSign
    split
    · next h => exact absurd h (hminus _)
    · next h => exact absurd h (hplus _)
    · rfl

theorem Spells.forall_mem (h : Spells s value) : ∀ c ∈ s.toList, isSpellingChar c := by
  obtain ⟨_, cs, _, _, hsigned, hdecimal, -⟩ := h
  exact hsigned.forall_mem hdecimal.forall_mem

/-- What is spelled with digits is read as a number that is finite if the value is in the range. -/
theorem read?_of_spells (h : Spells s value) : ∃ x, read? s = some x ∧
    (x.isFinite ↔ value < limit) ∧ ((x.mul (ofNat 16)).isFinite ↔ value * 16 < limit) := by
  obtain ⟨isNegative, cs, digits, exponent, hsigned, hdecimal, rfl⟩ := h
  refine ⟨.ofDigits isNegative digits exponent, ?_,
    ofDigits_isFinite_iff hdecimal.allDigits isNegative exponent⟩
  rw [read?_eq, hsigned.splitSign_eq hdecimal.head?]
  exact readUnsigned_of_spells hdecimal

/-- What else is read as a number is a word for a special value. -/
theorem spells_or_special (h : read? s = some x) :
    (∃ value, Spells s value) ∨ x.isFinite = false := by
  rw [read?_eq] at h
  rcases readUnsigned_cases h with hword | ⟨digits, exponent, hdecimal, -⟩
  · refine .inr ?_
    unfold ofWord? at hword
    split at hword <;> cases hword <;> rfl
  · exact .inl ⟨_, _, _, _, _, signed_splitSign _, hdecimal, rfl⟩

end Scalar

/-! ## Plain numerals -/

open Json.Number (signOf)
open Layout (digitsOf)
open Reading (Numeral)

/-- An optional minus sign, digits, and perhaps a point with digits behind it. -/
def IsPlainNumeral (text : String) : Prop :=
  ∃ m : Numeral, m.IsWritten ∧ m.exponent = none ∧ text.toList = m.chars

variable {text : String} {digits : List Char}

theorem isPlainNumeral_of_parts (isNegative : Bool) {whole : List Char}
    (fraction : Option (List Char)) (hwhole : whole ≠ [] ∧ AllDigits whole)
    (hfraction : ∀ ds ∈ fraction, ds ≠ [] ∧ AllDigits ds)
    (htext : text.toList = signOf isNegative ++ (whole ++ fraction.elim [] ('.' :: ·))) :
    IsPlainNumeral text :=
  ⟨⟨isNegative, whole, fraction, none⟩, ⟨hwhole, hfraction, nofun⟩, rfl, by
    rw [htext]
    simp [Numeral.chars]⟩

/-- A plain numeral spells a number. -/
theorem spells_of_isPlainNumeral (h : IsPlainNumeral text) : ∃ value, Scalar.Spells text value := by
  obtain ⟨⟨isNegative, whole, fraction, exponent⟩, ⟨hwhole, hfraction, -⟩, rfl, htext⟩ := h
  have hsigned : ∀ cs, Scalar.Signed isNegative cs (signOf isNegative ++ cs) := by
    intro cs
    cases isNegative with
    | true => exact .negative
    | false => exact .unsigned
  cases fraction with
  | none =>
    refine ⟨_, isNegative, _, _, _, ?_, .whole hwhole.2 hwhole.1 .none, rfl⟩
    simpa [htext, Numeral.chars] using hsigned whole
  | some fraction =>
    have hdigits := (hfraction fraction rfl).2
    refine ⟨_, isNegative, _, _, _, ?_, .point hwhole.2 hdigits (by simp [hwhole.1]) .none, rfl⟩
    simpa [htext, Numeral.chars] using hsigned (whole ++ '.' :: fraction)

/-- No letters but those of exponents stand in a plain numeral. -/
theorem not_isPlainNumeral_of_mem {c : Char} (hmem : c ∈ text.toList)
    (hc : Scalar.isSpellingChar c = false) : ¬ IsPlainNumeral text := by
  intro h
  obtain ⟨value, hspells⟩ := spells_of_isPlainNumeral h
  exact Bool.false_ne_true (hc.symm.trans (hspells.forall_mem c hmem))

/-! ## How numbers are written -/

theorem writePositional_plain (hdigits : AllDigits digits) (hne : digits ≠ []) (e : Int) :
    ∃ whole fraction, Layout.plain.writePositional digits e =
      whole ++ Option.elim fraction [] ('.' :: ·) ∧ (whole ≠ [] ∧ AllDigits whole) ∧
        ∀ ds ∈ fraction, ds ≠ [] ∧ AllDigits ds := by
  rcases Int.lt_or_le e 0 with hneg | hpos
  · -- the mark of whole numbers is the only difference between layouts
    obtain ⟨whole, fraction, heq, hw, hf, hwne, hfne, -⟩ :=
      Json.Number.writePositional_eq hdigits hne e
    refine ⟨whole, some fraction, ?_, ⟨hwne, hw⟩, by simp [hfne, hf]⟩
    have hsame : Layout.plain.writePositional digits e =
        Json.Number.layout.writePositional digits e :=
      (if_neg (not_le.2 hneg)).trans (if_neg (not_le.2 hneg)).symm
    rw [hsame, heq]
    rfl
  · refine ⟨digits ++ List.replicate e.toNat '0', none, ?_,
      ⟨by simp [hne], hdigits.append (.replicate_zero _)⟩, nofun⟩
    unfold Layout.writePositional
    rw [if_pos hpos]
    simp [Layout.plain]

theorem isPlainNumeral_write (x : Binary64) : IsPlainNumeral (Layout.plain.write x) := by
  obtain ⟨whole, fraction, heq, hwhole, hfraction⟩ :=
    writePositional_plain (Json.allDigits_digitsOf x.shortest.digits)
      (Json.digitsOf_ne_nil x.shortest.digits) x.shortest.exponent
  refine isPlainNumeral_of_parts x.negative fraction hwhole hfraction ?_
  rw [← heq]
  exact String.toList_ofList

theorem isPlainNumeral_numeral_of_finite (x : Binary64) :
    IsPlainNumeral (Scalar.finite x).numeral := by
  unfold Scalar.numeral
  dsimp only
  split
  · generalize x.units / Nat.pow 2 1074 = n
    refine isPlainNumeral_of_parts (decide (x.negative = true ∧ n ≠ 0)) none
      ⟨Json.digitsOf_ne_nil n, Json.allDigits_digitsOf n⟩ nofun ?_
    have hsign : (if x.negative = true ∧ n ≠ 0 then "-" else "").toList =
        signOf (decide (x.negative = true ∧ n ≠ 0)) := by
      simp only [signOf, decide_eq_true_eq]
      split <;> rfl
    rw [String.toList_append, hsign, Json.toList_toString]
    simp
  · exact isPlainNumeral_write x

/-- Numbers are written as plain numerals just if they are finite. -/
theorem isPlainNumeral_numeral_iff (x : Scalar) : IsPlainNumeral x.numeral ↔ x.isFinite := by
  constructor
  · intro h
    cases x with
    | finite x => rfl
    | nan => exact absurd h (not_isPlainNumeral_of_mem (c := 'N') (by decide) (by decide))
    | infinite isNegative =>
      have hmem : 'i' ∈ (Scalar.infinite isNegative).numeral.toList := by
        cases isNegative <;> decide
      exact absurd h (not_isPlainNumeral_of_mem hmem (by decide))
  · intro h
    cases x with
    | finite x => exact isPlainNumeral_numeral_of_finite x
    | nan | infinite => cases h

end DesignSystem
