import DesignSystem.Proofs.Json.Number
import DesignSystem.Proofs.Text.Recasing

/-!
# Numerals of source texts

* `Numeral`: digits with a sign, and with what may stand behind a point and behind an `e`.
* `whole_eq_of_chars`: the digits of a numeral without point and exponent are those of the text.
* `exists_numeral_integer`, `exists_numeral_real`: numbers are written as numerals, and a point or an
  exponent shows whether they are integers.

As words, a numeral is cut at its sign and in front of its exponent. The `e` is its only letter and
starts a word, so that camelCase makes a capital of it.

* `exists_wordsOf`: the first word has no letter, and the others have letters at most in front.
* `camel_number`: all letters and digits of a number stay in camelCase, the letters as capitals.
-/

set_option autoImplicit false

namespace DesignSystem.Reading

open Json (AllDigits)
open Json.Number (signOf)
open Layout (digitsOf)

/-- A decimal numeral. -/
structure Numeral where
  negative : Bool
  whole : List Char
  /-- The digits behind the point. -/
  fraction : Option (List Char)
  /-- Whether the exponent is negative, and its digits. -/
  exponent : Option (Bool × List Char)

namespace Numeral

/-- There are digits wherever a numeral needs some. -/
structure IsWritten (m : Numeral) : Prop where
  whole : m.whole ≠ [] ∧ AllDigits m.whole
  fraction : ∀ ds ∈ m.fraction, ds ≠ [] ∧ AllDigits ds
  exponent : ∀ e ∈ m.exponent, e.2 ≠ [] ∧ AllDigits e.2

def chars (m : Numeral) : List Char :=
  signOf m.negative ++ m.whole ++ m.fraction.elim [] ('.' :: ·) ++
    m.exponent.elim [] fun e => 'e' :: (if e.1 then '-' else '+') :: e.2

/-- There is a point or an exponent. -/
def isFractional (m : Numeral) : Bool := m.fraction.isSome || m.exponent.isSome

variable {m : Numeral}

theorem chars_of_not_isFractional (h : m.isFractional = false) :
    m.chars = signOf m.negative ++ m.whole := by
  obtain ⟨negative, whole, fraction, exponent⟩ := m
  obtain ⟨hfraction, hexponent⟩ := Bool.or_eq_false_iff.1 h
  obtain rfl : fraction = none := by simpa using hfraction
  obtain rfl : exponent = none := by simpa using hexponent
  simp [chars]

theorem mem_chars_of_isFractional (h : m.isFractional) : '.' ∈ m.chars ∨ 'e' ∈ m.chars := by
  obtain ⟨negative, whole, fraction, exponent⟩ := m
  cases fraction with
  | some ds => exact .inl (by simp [chars])
  | none =>
    cases exponent with
    | some e => exact .inr (by simp [chars])
    | none => cases h

theorem IsWritten.head?_whole (h : m.IsWritten) : ∃ c ∈ m.whole.head?, c.isDigit := by
  obtain ⟨c, cs, hwhole⟩ := List.exists_cons_of_ne_nil h.whole.1
  exact ⟨c, by rw [hwhole]; rfl, h.whole.2 c (by rw [hwhole]; exact List.mem_cons_self)⟩

/-- A numeral that is read from the digits of a natural number, and perhaps a sign, has these digits
and nothing behind them. -/
theorem whole_eq_of_chars (h : m.IsWritten) {negative : Bool} {n : Nat}
    (hchars : m.chars = signOf negative ++ digitsOf n) :
    m.isFractional = false ∧ m.whole = digitsOf n := by
  have hplain : m.isFractional = false := by
    by_contra hfractional
    have hmark : ∀ {c : Char}, c.isDigit = false → c ≠ '-' → c ∉ signOf negative ++ digitsOf n := by
      intro c hdigit hsign hmem
      rcases List.mem_append.1 hmem with hmem | hmem
      · cases negative <;> simp [signOf, hsign] at hmem
      · exact (Json.allDigits_digitsOf n).notMem hdigit hmem
    have hmem := mem_chars_of_isFractional (by simpa using hfractional)
    rw [hchars] at hmem
    exact hmem.elim (hmark (by decide) (by decide)) (hmark (by decide) (by decide))
  rw [chars_of_not_isFractional hplain] at hchars
  exact ⟨hplain, (Json.Number.signOf_append_injective h.head?_whole (Json.Number.head?_digitsOf n)
    hchars).2⟩

theorem exists_numeral_integer (n : Int) : ∃ m : Numeral, m.IsWritten ∧
    (Json.Number.integer n).text.toList = m.chars ∧ m.isFractional = false ∧
    m.whole = digitsOf n.natAbs := by
  refine ⟨⟨decide (n < 0), digitsOf n.natAbs, none, none⟩,
    ⟨⟨Json.digitsOf_ne_nil _, Json.allDigits_digitsOf _⟩, by simp, by simp⟩, ?_, rfl, rfl⟩
  rw [Json.Number.toList_text_integer, chars_of_not_isFractional rfl]

theorem exists_numeral_real (x : Binary64) : ∃ m : Numeral, m.IsWritten ∧
    (Json.Number.real x).text.toList = m.chars ∧ m.isFractional := by
  have hd := Json.allDigits_digitsOf x.shortest.digits
  have hne := Json.digitsOf_ne_nil x.shortest.digits
  rw [Json.Number.toList_text_real, Layout.writeDecimal]
  split
  · obtain ⟨whole, fraction, heq, hw, hf, hwne, hfne, -⟩ :=
      Json.Number.writePositional_eq hd hne x.shortest.exponent
    refine ⟨⟨x.negative, whole, some fraction, none⟩,
      ⟨⟨hwne, hw⟩, by simp [hfne, hf], by simp⟩, ?_, rfl⟩
    rw [heq]
    simp [chars]
  · generalize hlead : x.shortest.exponent + (digitsOf x.shortest.digits).length - 1 = lead
    rw [Json.Number.writeScientific_eq]
    generalize digitsOf x.shortest.digits = digits at hd hne
    have hexponent : ∀ e ∈ some (decide (lead < 0), digitsOf lead.natAbs),
        e.2 ≠ [] ∧ AllDigits e.2 := by
      simp [Json.digitsOf_ne_nil, Json.allDigits_digitsOf]
    match digits with
    | [] => exact absurd rfl hne
    | [d] =>
      refine ⟨⟨x.negative, [d], none, some (decide (lead < 0), digitsOf lead.natAbs)⟩,
        ⟨⟨hne, hd⟩, by simp, hexponent⟩, ?_, rfl⟩
      simp [chars, Json.Number.mantissaOf, Json.Number.exponentOf]
    | d :: e :: rest =>
      obtain ⟨hfirst, hrest⟩ := List.forall_mem_cons.1 hd
      refine ⟨⟨x.negative, [d], some (e :: rest), some (decide (lead < 0), digitsOf lead.natAbs)⟩,
        ⟨⟨by simp, List.forall_mem_singleton.2 hfirst⟩, ?_, hexponent⟩, ?_, rfl⟩
      · rintro ds ⟨⟩
        exact ⟨by simp, hrest⟩
      · simp [chars, Json.Number.mantissaOf, Json.Number.exponentOf]

end Numeral

end DesignSystem.Reading

namespace DesignSystem

open Text (IsCaseless IsInner IsPrintable wordsOf wordsFrom)

namespace Reading

variable {s : String}

theorem isPrintable_of_isNumeral (h : IsNumeral s) : ∀ c ∈ s.toList, IsPrintable c := by
  have hchar : ∀ c, isNumeralChar c → IsPrintable c := by
    intro c hc
    rcases Bool.or_eq_true_iff.1 hc with hc | hc
    · exact Text.isPrintable_of_plain hc
    · obtain rfl | rfl | rfl : c = '.' ∨ c = '+' ∨ c = '-' := by simpa using hc
      all_goals decide
  obtain ⟨sign, c, cs, hs, hsign, hc, hcs⟩ := h
  rw [hs, List.forall_mem_append, List.forall_mem_cons]
  refine ⟨?_, Text.isPrintable_of_plain (Text.plain_of_isDigit hc), fun d hd => hchar d (hcs d hd)⟩
  rcases List.mem_pair.1 hsign with rfl | rfl
  · exact List.forall_mem_nil _
  · exact List.forall_mem_singleton.2 (by decide)

namespace Numeral

variable {m : Numeral}

theorem exists_last_digit {ds : List Char} (hne : ds ≠ []) (h : Json.AllDigits ds) :
    ∃ front last, ds = front ++ [last] ∧ (∀ c ∈ front, IsInner c) ∧ last.isDigit := by
  obtain ⟨front, last, rfl⟩ := (List.eq_nil_or_concat' ds).resolve_left hne
  obtain ⟨hfront, hlast⟩ := List.forall_mem_append.1 h
  exact ⟨front, last, rfl, fun c hc => Text.isInner_of_isDigit (hfront c hc),
    hlast last (List.mem_singleton_self _)⟩

/-- The characters of a numeral up to an exponent have no case, and a digit is the last of them. -/
theorem exists_mantissa (hm : m.IsWritten) : ∃ front last,
    m.whole ++ m.fraction.elim [] ('.' :: ·) = front ++ [last] ∧ (∀ c ∈ front, IsInner c) ∧
      last.isDigit := by
  cases hfraction : m.fraction with
  | none =>
    obtain ⟨front, last, hwhole, hfront, hlast⟩ := exists_last_digit hm.whole.1 hm.whole.2
    exact ⟨front, last, by simp [hwhole], hfront, hlast⟩
  | some ds =>
    obtain ⟨hne, hds⟩ := hm.fraction ds hfraction
    obtain ⟨front, last, rfl, hfront, hlast⟩ := exists_last_digit hne hds
    have hpoint : IsInner '.' := ⟨⟨by decide, rfl, rfl⟩, rfl⟩
    refine ⟨m.whole ++ '.' :: front, last, by simp, ?_, hlast⟩
    exact List.forall_mem_append.2 ⟨fun c hc => Text.isInner_of_isDigit (hm.whole.2 c hc),
      List.forall_mem_cons.2 ⟨hpoint, hfront⟩⟩

/-! ## Words -/

theorem isCaseless_minus : IsCaseless '-' := ⟨by decide, rfl, rfl⟩

theorem isCaseless_of_mem_flatten {cs : List Char} (h : ∀ c ∈ cs, IsCaseless c) :
    ∀ c ∈ (cs.map fun c => [c]).flatten, IsCaseless c := by
  rwa [← List.flatMap_def, List.flatMap_singleton']

/-- With or without a sign, the words of a text are those behind a separator. -/
theorem wordsOf_signed {negative : Bool} {run : List Char}
    (hs : s.toList = Json.Number.signOf negative ++ run)
    (hprintable : ∀ c ∈ s.toList, IsPrintable c) (hrun : ∃ c ∈ run.head?, IsInner c) :
    wordsOf s = (wordsFrom ['-'] [] (run.map fun c => [c])).filter (!·.isEmpty) := by
  unfold Text.wordsOf
  rw [Text.clusters_of_other fun c hc => Text.clusterRole_of_printable (hprintable c hc), hs]
  cases negative with
  | true => simp [Json.Number.signOf, Text.Cluster.isSeparator]
  | false =>
    obtain ⟨c, hc, hinner⟩ := hrun
    obtain ⟨rest, rfl⟩ := List.head?_eq_some_iff.1 hc
    have hsep : Text.Cluster.isSeparator [c] = false := hinner.2
    simp [Json.Number.signOf, hsep, isCaseless_minus.wordsFrom hinner]

/-- The words of an exponent. -/
def exponentWords (negative : Bool) (ds : List Char) : List (List Text.Cluster) :=
  if negative then [[['e']], ds.map fun c => [c]] else [['e'] :: ['+'] :: ds.map fun c => [c]]

/-- An exponent is cut in front of the letter, and at a minus sign. -/
theorem wordsFrom_exponent {last : Char} (hlast : last.isDigit) (word : List Text.Cluster)
    (negative : Bool) {ds : List Char} (hne : ds ≠ []) (hds : Json.AllDigits ds) :
    wordsFrom [last] word (('e' :: (if negative then '-' else '+') :: ds).map fun c => [c]) =
      word.reverse :: exponentWords negative ds := by
  have hlower : Text.Cluster.isLower ['e'] = true := by decide +kernel
  have hborder : Text.bordersPair [last] ['e'] = true := by
    simp [Text.bordersPair, Text.Cluster.isDigit, hlast, hlower]
  have hletter : Text.Cluster.isSeparator ['e'] = false := rfl
  obtain ⟨front, last', rfl, hfront, hlast'⟩ := exists_last_digit hne hds
  have hinner := Text.isInner_of_isDigit hlast'
  rw [List.map_cons, List.map_cons, wordsFrom, hletter, if_neg Bool.false_ne_true, hborder,
    Bool.true_or, if_pos rfl]
  cases negative with
  | true =>
    have hdigits := Text.wordsFrom_run isCaseless_minus hfront hinner [] []
    rw [List.append_nil, List.append_nil] at hdigits
    have hsign : wordsFrom ['e'] [['e']] (['-'] :: (front ++ [last']).map fun c => [c]) =
        [['e']] :: wordsFrom ['-'] [] ((front ++ [last']).map fun c => [c]) := rfl
    rw [if_pos rfl, hsign, hdigits, wordsFrom, List.reverse_reverse, exponentWords, if_pos rfl]
  | false =>
    have hdigits := Text.wordsFrom_run (c := '+') ⟨by decide, rfl, rfl⟩ hfront hinner
      [['+'], ['e']] []
    rw [List.append_nil] at hdigits
    have hsign : wordsFrom ['e'] [['e']] (['+'] :: (front ++ [last']).map fun c => [c]) =
        wordsFrom ['+'] [['+'], ['e']] ((front ++ [last']).map fun c => [c]) := by
      have hplus : Text.bordersPair ['e'] ['+'] = false := by decide +kernel
      have hupper : Text.Cluster.isUpper ['e'] = false := by decide +kernel
      have hsep : Text.Cluster.isSeparator ['+'] = false := rfl
      rw [wordsFrom, hsep, hplus]
      simp [Text.startsCapitalised, hupper]
    rw [if_neg Bool.false_ne_true, hsign, hdigits, wordsFrom, List.reverse_append,
      List.reverse_reverse, exponentWords, if_neg Bool.false_ne_true]
    rfl

theorem isCaseless_of_mem_exponentWords {negative : Bool} {ds : List Char}
    (hds : Json.AllDigits ds) :
    ∀ w ∈ exponentWords negative ds, ∀ c ∈ w.tail.flatten, IsCaseless c := by
  have hdigits := isCaseless_of_mem_flatten fun c hc => Text.isCaseless_of_isDigit (hds c hc)
  intro w hw c hc
  cases negative with
  | true =>
    rcases List.mem_pair.1 hw with rfl | rfl
    · cases hc
    · exact hdigits c ((List.tail_sublist _).flatten.subset hc)
  | false =>
    rw [List.mem_singleton.1 hw] at hc
    rcases List.mem_cons.1 hc with rfl | hc
    · exact ⟨by decide, rfl, rfl⟩
    · exact hdigits c hc

/-- The first word of a numeral has no letter, and the others have letters at most in front. -/
theorem exists_wordsOf (hm : m.IsWritten) (hs : s.toList = m.chars)
    (hprintable : ∀ c ∈ s.toList, IsPrintable c) : ∃ w ws, wordsOf s = w :: ws ∧
      (∀ c ∈ w.flatten, IsCaseless c) ∧ ∀ w ∈ ws, ∀ c ∈ w.tail.flatten, IsCaseless c := by
  obtain ⟨front, last, hmantissa, hfront, hlast⟩ := exists_mantissa hm
  have hinner := Text.isInner_of_isDigit hlast
  have hfirst : ∃ c ∈ (front ++ [last]).head?, IsInner c := by
    cases front with
    | nil => exact ⟨last, rfl, hinner⟩
    | cons c front => exact ⟨c, rfl, hfront c List.mem_cons_self⟩
  have hcaseless : ∀ c ∈ ((front ++ [last]).map fun c => [c]).flatten, IsCaseless c := by
    refine isCaseless_of_mem_flatten (List.forall_mem_append.2 ⟨fun c hc => (hfront c hc).1, ?_⟩)
    exact List.forall_mem_singleton.2 hinner.1
  rw [chars, List.append_assoc _ m.whole, hmantissa] at hs
  cases hexponent : m.exponent with
  | none =>
    rw [hexponent, Option.elim, List.append_nil] at hs
    have hrun := Text.wordsFrom_run isCaseless_minus hfront hinner [] []
    rw [List.append_nil, List.append_nil] at hrun
    refine ⟨_, [], ?_, hcaseless, List.forall_mem_nil _⟩
    rw [wordsOf_signed hs hprintable hfirst, hrun, wordsFrom, List.reverse_reverse]
    simp
  | some e =>
    obtain ⟨hne, hds⟩ := hm.exponent e hexponent
    rw [hexponent, Option.elim, List.append_assoc] at hs
    have hhead : ∃ c ∈ ((front ++ [last]) ++ ('e' :: (if e.1 then '-' else '+') :: e.2)).head?,
        IsInner c := by
      rwa [List.head?_append_of_ne_nil _ (by simp)]
    refine ⟨_, (exponentWords e.1 e.2).filter (!·.isEmpty), ?_, hcaseless, fun w hw =>
      isCaseless_of_mem_exponentWords hds w (List.mem_filter.1 hw).1⟩
    rw [wordsOf_signed hs hprintable hhead, List.map_append,
      Text.wordsFrom_run isCaseless_minus hfront hinner, List.append_nil,
      wordsFrom_exponent hlast _ _ hne hds, List.reverse_reverse, List.filter_cons_of_pos (by simp)]

end Numeral

/-! ## Numbers in camelCase -/

theorem isPrintable_number (n : Json.Number) : ∀ c ∈ n.text.toList, IsPrintable c :=
  isPrintable_of_isNumeral (isNumeral_text n)

/-- All letters and digits of a number stay in camelCase, the letters as capitals. -/
theorem camel_number (n : Json.Number) :
    (Text.camel n.text).toList.filter Text.isPlainAlphanumeric =
      (Text.letters n.text).map Char.toUpper := by
  have hprintable := isPrintable_number n
  obtain ⟨m, hm, htext⟩ : ∃ m : Numeral, m.IsWritten ∧ n.text.toList = m.chars := by
    cases n with
    | integer i =>
      obtain ⟨m, hm, htext, -⟩ := Numeral.exists_numeral_integer i
      exact ⟨m, hm, htext⟩
    | real x =>
      obtain ⟨m, hm, htext, -⟩ := Numeral.exists_numeral_real x
      exact ⟨m, hm, htext⟩
  obtain ⟨w, ws, hwords, hw, hws⟩ := Numeral.exists_wordsOf hm htext hprintable
  have hupper := Text.toUpper_of_mem_camel hprintable hwords hw hws
  rw [← Text.letters_camel hprintable, Text.letters, List.map_map]
  refine ((List.map_congr_left fun c hc => ?_).trans (List.map_id _)).symm
  obtain ⟨hc, hplain⟩ := List.mem_filter.1 hc
  exact (Text.recases hplain).again.trans (hupper c hc)

/-- The first letter or digit of a number is a digit. -/
theorem exists_letters_number (n : Json.Number) :
    ∃ c cs, Text.letters n.text = c :: cs ∧ c.isDigit := by
  obtain ⟨sign, c, cs, htext, hsign, hc, -⟩ := isNumeral_text n
  have hplain : Text.isPlainAlphanumeric c := Text.plain_of_isDigit hc
  have hdropped : sign.filter Text.isPlainAlphanumeric = [] := by
    rcases List.mem_pair.1 hsign with rfl | rfl <;> rfl
  refine ⟨c, (cs.filter Text.isPlainAlphanumeric).map Char.toLower, ?_, hc⟩
  rw [Text.letters, htext, List.filter_append, hdropped, List.nil_append,
    List.filter_cons_of_pos hplain, List.map_cons, (Text.isCaseless_of_isDigit hc).lower]

end Reading

end DesignSystem
