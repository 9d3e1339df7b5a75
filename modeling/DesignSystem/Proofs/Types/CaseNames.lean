import DesignSystem.Proofs.Reading.Numeral
import DesignSystem.Proofs.Types.EnumerationCases

/-!
# Which values of an enumeration get cases of one name

The name of a case keeps of its value's label only letters, digits and underscores, so that two
labels may lead to one name.

* `caseName_eq_iff`: which values share a name.
* `caseLetters_eq_of_caseName_eq`: printable labels of one name have the same letters and digits.
* `caseName_number_iff`: numbers share a name just if they have the same digits.
* `cases_distinct`: when the cases of a declared enumeration have different names.
-/

set_option autoImplicit false

namespace DesignSystem

open Text (IsPrintable)

/-! ## Identifiers -/

/-- What stays of a label in an identifier. -/
def staying (v : Json.Value) : List Char :=
  (Text.camel v.label).toList.filter fun c => Text.isPlainAlphanumeric c || c = '_'

/-- Characters as those of an identifier: a word if there are none, a `v` in front of a digit. -/
def mended : List Char → List Char
  | [] => "empty".toList
  | c :: cs => if c.isDigit then 'v' :: c :: cs else c :: cs

/-- The second text is what mends the first one. -/
inductive Mends : List Char → List Char → Prop
  | empty : Mends [] "empty".toList
  | digit {c : Char} (h : c.isDigit) (cs : List Char) : Mends (c :: cs) ('v' :: c :: cs)

theorem toList_caseIdent (v : Json.Value) : (caseIdent v).toList = mended (staying v) := by
  unfold caseIdent mended
  change (match staying v with
    | [] => "empty"
    | c :: _ =>
      if c.isDigit then String.ofList ('v' :: staying v) else .ofList (staying v)).toList = _
  cases staying v with
  | nil => rfl
  | cons c cs => dsimp only; split <;> exact String.toList_ofList

theorem Mends.mended_eq {a b : List Char} (h : Mends a b) : mended a = mended b := by
  cases h with
  | empty => rfl
  | digit h cs =>
    have hv : ('v').isDigit = false := rfl
    rw [mended, mended, if_pos h, if_neg (by simp [hv])]

/-- What mends a text tells the text. -/
theorem Mends.injective {a b m : List Char} (ha : Mends a m) (hb : Mends b m) : a = b := by
  cases ha with
  | empty =>
    generalize hm : "empty".toList = m at hb
    cases hb with
    | empty => rfl
    | digit h cs => exact absurd (List.cons.inj hm).1 (by decide)
  | digit h cs =>
    cases hb with
    | digit h' cs' => rfl

theorem mended_cases (a : List Char) : mended a = a ∨ Mends a (mended a) := by
  cases a with
  | nil => exact .inr .empty
  | cons c cs =>
    rw [mended]
    split
    · next h => exact .inr (.digit h cs)
    · exact .inl rfl

/-- Two texts are mended to the same identifier just if one is the other, or what mends it. -/
theorem mended_eq_iff {a b : List Char} : mended a = mended b ↔ a = b ∨ Mends a b ∨ Mends b a := by
  constructor
  · intro h
    rcases mended_cases a with ha | ha <;> rcases mended_cases b with hb | hb
    · exact .inl (ha.symm.trans (h.trans hb))
    · exact .inr (.inr (ha ▸ h ▸ hb))
    · exact .inr (.inl (hb ▸ h ▸ ha))
    · exact .inl (ha.injective (h ▸ hb))
  · rintro (rfl | h | h)
    · rfl
    · exact h.mended_eq
    · exact h.mended_eq.symm

theorem mem_mended {a : List Char} {c : Char} (h : c ∈ mended a) :
    c ∈ a ∨ Text.isPlainAlphanumeric c := by
  unfold mended at h
  split at h
  · have hall : "empty".toList.all Text.isPlainAlphanumeric = true := rfl
    exact .inr (List.all_eq_true.1 hall c h)
  · split at h
    · rcases List.mem_cons.1 h with rfl | h
      · exact .inr rfl
      · exact .inl h
    · exact .inl h

theorem isIdentifier_caseIdent (v : Json.Value) : Text.IsIdentifier (caseIdent v) := by
  intro c hc
  rw [toList_caseIdent] at hc
  rcases mem_mended hc with hc | hc
  · simpa using (List.mem_filter.1 hc).2
  · exact .inl hc

namespace Reading.Dialect

variable {y : Dialect} {v w : Json.Value}

/-! ## Names of cases -/

/-- The identifier of the first value is a reserved word, and that of the second one is this word
with the underscore that Dart puts behind it. -/
def Escapes (v w : Json.Value) : Prop :=
  caseIdent v ∈ Dart.reserved ∧ caseIdent w = Dart.escapeReserved (caseIdent v)

/-- What stays of two labels leads to one identifier. -/
def SameIdentifier (v w : Json.Value) : Prop :=
  staying v = staying w ∨ Mends (staying v) (staying w) ∨ Mends (staying w) (staying v)

/-- The values for which a language has cases of one name. -/
def Merges : Dialect → Json.Value → Json.Value → Prop
  | swift, v, w => SameIdentifier v w
  | kotlin, v, w => Text.lowerWords (caseIdent v) = Text.lowerWords (caseIdent w)
  | dart, v, w => SameIdentifier v w ∨ Escapes v w ∨ Escapes w v

theorem caseIdent_eq_iff : caseIdent v = caseIdent w ↔ SameIdentifier v w := by
  rw [← String.toList_inj, toList_caseIdent, toList_caseIdent, mended_eq_iff]
  rfl

theorem dart_ident_eq_iff : Dart.ident (caseIdent v) = Dart.ident (caseIdent w) ↔
    SameIdentifier v w ∨ Escapes v w ∨ Escapes w v := by
  rw [← caseIdent_eq_iff]
  constructor
  · intro h
    unfold Dart.ident at h
    split at h
    · next hv =>
      split at h
      · exact .inl (String.append_left_inj _ |>.1 h)
      · exact .inr (.inl ⟨hv, h.symm⟩)
    · split at h
      · next hw => exact .inr (.inr ⟨hw, h⟩)
      · exact .inl h
  · have hescapes : ∀ {v w}, Escapes v w → Dart.ident (caseIdent v) = Dart.ident (caseIdent w) := by
      rintro v w ⟨hv, hw⟩
      have hapart : ∀ word ∈ Dart.reserved, Dart.escapeReserved word ∉ Dart.reserved := by decide
      rw [Dart.ident, if_pos hv, Dart.ident, hw, if_neg (hapart _ hv)]
    rintro (h | h | h)
    · rw [h]
    · exact hescapes h
    · exact (hescapes h).symm

/-- Two values have cases of one name just if the language merges them. -/
theorem caseName_eq_iff : y.caseName v = y.caseName w ↔ y.Merges v w := by
  cases y with
  | swift =>
    rw [Merges, ← caseIdent_eq_iff]
    refine ⟨fun h => ?_, congrArg Swift.ident⟩
    rw [← bareName_ident v, ← bareName_ident w]
    exact congrArg bareName h
  | kotlin => exact Text.upperSnake_eq_iff (isIdentifier_caseIdent v) (isIdentifier_caseIdent w)
  | dart => exact dart_ident_eq_iff

/-! ## Printable labels -/

/-- The letters and digits of a label, whatever their case, as an identifier has them. -/
def caseLetters (v : Json.Value) : List Char := mended (Text.letters v.label)

theorem map_toLower_mended {a : List Char} (h : ∀ c ∈ a, c.toNat < 128) :
    (mended a).map Char.toLower = mended (a.map Char.toLower) := by
  cases a with
  | nil => rfl
  | cons c cs =>
    have hdigit : c.toLower.isDigit = c.isDigit :=
      Text.of_ascii (P := fun c => c.toLower.isDigit = c.isDigit) (by decide +kernel)
        (h c List.mem_cons_self)
    rw [List.map_cons, mended, mended, hdigit]
    split
    · rfl
    · rfl

section
variable (hv : ∀ c ∈ v.label.toList, IsPrintable c)
include hv

/-- Only letters and digits stay of a printable label. -/
theorem staying_of_printable :
    staying v = (Text.camel v.label).toList.filter Text.isPlainAlphanumeric := by
  refine List.filter_congr fun c hc => ?_
  have hne : c ≠ '_' := by
    rintro rfl
    exact Text.underscore_notMem_camel hv hc
  simp [hne]

theorem isPlain_caseIdent : Text.IsPlain (caseIdent v) := by
  intro c hc
  rw [toList_caseIdent, staying_of_printable hv] at hc
  rcases mem_mended hc with hc | hc
  · exact (List.mem_filter.1 hc).2
  · exact hc

theorem letters_caseIdent : Text.letters (caseIdent v) = caseLetters v := by
  rw [Text.letters, List.filter_eq_self.2 (isPlain_caseIdent hv), toList_caseIdent,
    map_toLower_mended, staying_of_printable hv, caseLetters, ← Text.letters_camel hv]
  · rfl
  · intro c hc
    rw [staying_of_printable hv] at hc
    exact (Text.isPrintable_of_plain (List.mem_filter.1 hc).2).lt

/-- Values with printable labels and one name for their cases have the same letters and digits. -/
theorem caseLetters_eq_of_caseName_eq (hw : ∀ c ∈ w.label.toList, IsPrintable c)
    (h : y.caseName v = y.caseName w) : caseLetters v = caseLetters w := by
  have hident : caseIdent v = caseIdent w → caseLetters v = caseLetters w := by
    intro h
    rw [← letters_caseIdent hv, ← letters_caseIdent hw, h]
  cases y with
  | swift => exact hident (caseIdent_eq_iff.2 (caseName_eq_iff.1 h))
  | kotlin =>
    rw [← letters_caseIdent hv, ← letters_caseIdent hw]
    exact Text.letters_eq_of_lowerWords_eq (isPlain_caseIdent hv) (isPlain_caseIdent hw)
      (caseName_eq_iff.1 h)
  | dart =>
    -- there is no underscore in the identifiers, so that none of them is an escaped word
    have hescapes : ∀ {v w}, (∀ c ∈ w.label.toList, IsPrintable c) → ¬ Escapes v w := by
      rintro v w hw ⟨-, hescape⟩
      have hplain := isPlain_caseIdent hw '_' (by rw [hescape, Dart.escapeReserved]; simp)
      cases hplain
    rcases caseName_eq_iff.1 h with h | h | h
    · exact hident (caseIdent_eq_iff.2 h)
    · exact absurd h (hescapes hw)
    · exact absurd h (hescapes hv)

end

/-! ## Numbers -/

/-- Numbers have cases of one name just if they have the same digits and, in an exponent, the same
letter. Signs and points do not matter. -/
theorem caseName_number_iff {n n' : Json.Number} :
    y.caseName (.number n) = y.caseName (.number n') ↔
      Text.letters n.text = Text.letters n'.text := by
  have hstaying : ∀ n : Json.Number,
      staying (.number n) = (Text.letters n.text).map Char.toUpper := by
    intro n
    rw [staying_of_printable (v := .number n) (isPrintable_number n), ← camel_number]
    rfl
  constructor
  · intro h
    have hletters := caseLetters_eq_of_caseName_eq (v := .number n) (w := .number n')
      (isPrintable_number n) (isPrintable_number n') h
    have hmends : ∀ (a : List Char) (n : Json.Number), ¬ Mends a (Text.letters n.text) := by
      intro a n hmends
      obtain ⟨c, cs, hfirst, hc⟩ := exists_letters_number n
      rw [hfirst] at hmends
      cases hmends <;> cases hc
    rcases mended_eq_iff.1 hletters with h | h | h
    · exact h
    · exact absurd h (hmends _ n')
    · exact absurd h (hmends _ n)
  · intro h
    refine caseName_congr y (caseIdent_eq_iff.2 (.inl ?_))
    rw [hstaying, hstaying, h]

/-! ## Declared cases -/

/-- The name of the field of raw values is no word that something has been mended to. -/
theorem mended_eq_value_iff {a : List Char} : mended a = "value".toList ↔ a = "value".toList := by
  constructor
  · intro h
    rcases mended_cases a with ha | ha
    · exact ha.symm.trans h
    · rw [h] at ha
      generalize hm : "value".toList = m at ha
      cases ha with
      | empty => exact absurd hm (by decide)
      | digit hc cs =>
        obtain rfl : 'a' = _ := (List.cons.inj (List.cons.inj hm).2).1
        cases hc
  · rintro rfl
    rfl

/-- A case is named like the field of raw values just if this is what stays of the label. -/
theorem caseName_eq_value_iff : dart.caseName v = "value" ↔ staying v = "value".toList := by
  have hreserved : "value" ∉ Dart.reserved := by decide
  have hescaped : ∀ word ∈ Dart.reserved, Dart.escapeReserved word ≠ "value" := by decide
  have hident : Dart.ident (caseIdent v) = "value" ↔ caseIdent v = "value" := by
    unfold Dart.ident
    split
    · next h => exact iff_of_false (hescaped _ h) fun heq => hreserved (heq ▸ h)
    · rfl
  change Dart.ident (caseIdent v) = "value" ↔ _
  rw [hident, ← String.toList_inj, toList_caseIdent, mended_eq_value_iff]

/-- **The cases of a declared enumeration have different names just if the language merges none of
its values.** This holds of values with printable labels that differ in their letters and digits,
whatever the case, and of numbers just if they differ in their digits. In Dart a case can also take
the name of the field. -/
theorem cases_distinct {d : TypeDescriptor} {values : List Json.Value} (hint : String)
    (hd : d.enumeratedValues? = some values) (hne : values ≠ [])
    (hsome : values.all isTruthValue = false) :
    ∃ e, y.declaredEnumeration d hint = some e ∧ e.cases.length = values.length ∧
      ((e.cases.map (·.name)).Nodup ↔ values.Pairwise fun v w => ¬ y.Merges v w) ∧
      ((∀ v ∈ values, ∀ c ∈ v.label.toList, IsPrintable c) → (values.map caseLetters).Nodup →
        (e.cases.map (·.name)).Nodup) ∧
      ((∀ v ∈ values, isNumber v) → ((e.cases.map (·.name)).Nodup ↔
        (values.map fun v => Text.letters v.label).Nodup)) ∧
      (y = dart → ("value" ∈ e.cases.map (·.name) ↔ ∃ v ∈ values, staying v = "value".toList)) := by
  obtain ⟨-, hdeclared⟩ := declaredEnumeration_eq (y := y) hint hd hne hsome
  have hnames : (values.map y.caseOf).map (·.name) = values.map y.caseName := by
    rw [List.map_map]
    rfl
  refine ⟨_, hdeclared, by simp, ?_⟩
  dsimp only
  rw [hnames]
  refine ⟨?_, fun hprintable hletters => ?_, fun hnumbers => ?_, ?_⟩
  · rw [List.Nodup, List.pairwise_map]
    simp only [ne_eq, caseName_eq_iff]
  · rw [List.Nodup, List.pairwise_map] at hletters ⊢
    exact hletters.imp_of_mem fun hv hw hne heq =>
      hne (caseLetters_eq_of_caseName_eq (hprintable _ hv) (hprintable _ hw) heq)
  · rw [List.Nodup, List.Nodup, List.pairwise_map, List.pairwise_map]
    refine List.Pairwise.iff_of_mem fun {v w} hv hw => ?_
    obtain ⟨n, rfl⟩ := isNumber_iff.1 (hnumbers v hv)
    obtain ⟨n', rfl⟩ := isNumber_iff.1 (hnumbers w hw)
    exact not_congr caseName_number_iff
  · rintro rfl
    simp only [List.mem_map, caseName_eq_value_iff]

theorem cases_distinct_breakpoints : ∃ e,
    kotlin.declaredEnumeration (.custom .breakpoint none) "Breakpoint" = some e ∧
      e.cases.length = 5 ∧ (e.cases.map (·.name)).Nodup := by
  obtain ⟨e, he, hlength, -, hletters, -⟩ := cases_distinct (y := kotlin)
    (d := .custom .breakpoint none) "Breakpoint" rfl (List.cons_ne_nil _ _) rfl
  have hall : (["sm", "md", "lg", "xl", "2xl"].map Json.Value.string).all fun v =>
      v.label.toList.all (IsPrintable ·) := by decide
  exact ⟨e, he, hlength, hletters (fun v hv c hc => of_decide_eq_true
    (List.all_eq_true.1 (List.all_eq_true.1 hall v hv) c hc)) (by decide)⟩

/-- Steps in both directions. -/
def steps : TypeDescriptor := .primitive .number (some [.number (.integer (-1)), .ofNat 1])

/-- Parts of a field. -/
def fieldParts : TypeDescriptor := .primitive .string (some [.string "label", .string "value"])

/-- Two numbers that differ in the sign have cases of one name, and in Dart a case has the name of
the field of raw values. -/
theorem cases_distinct_steps_fieldParts :
    (steps.issues = [] ∧ ∃ e, swift.declaredEnumeration steps "Step" = some e ∧
      e.cases.map (·.name) = ["v1", "v1"] ∧ ¬ (e.cases.map (·.name)).Nodup) ∧
    fieldParts.issues = [] ∧ ∃ e, dart.declaredEnumeration fieldParts "Part" = some e ∧
      "value" ∈ e.cases.map (·.name) := by
  obtain ⟨-, hsteps⟩ := declaredEnumeration_eq (y := swift) (d := steps) "Step" rfl
    (List.cons_ne_nil _ _) rfl
  obtain ⟨-, hparts⟩ := declaredEnumeration_eq (y := dart) (d := fieldParts) "Part" rfl
    (List.cons_ne_nil _ _) rfl
  have hnames : ([Json.Value.number (.integer (-1)), .ofNat 1].map swift.caseOf).map (·.name) =
      ["v1", "v1"] := rfl
  have hvalue : (dart.caseOf (.string "value")).name = "value" := rfl
  refine ⟨⟨rfl, _, hsteps, hnames, ?_⟩, rfl, _, hparts, ?_⟩
  · rw [hnames]
    decide
  · exact hvalue ▸ List.mem_map_of_mem (List.mem_map_of_mem (.tail _ List.mem_cons_self))

end Reading.Dialect

end DesignSystem
