import DesignSystem.Json.Basic
import DesignSystem.Proofs.Numeric.Shortest

/-!
# Numbers as JSON text

* `text_injective`: the text of a number determines the number. Integers are told from
  floating-point numbers by the point or exponent that these always show.
* `isNumberChar_of_mem`: the characters that can stand in a number.
-/

set_option autoImplicit false

namespace DesignSystem.Json

open Nat (ofDigitChars)
open Layout (digitsOf)

/-- A text is made of digits. -/
def AllDigits (cs : List Char) : Prop := ∀ c ∈ cs, c.isDigit

namespace AllDigits

theorem append {cs ds : List Char} (hc : AllDigits cs) (hd : AllDigits ds) :
    AllDigits (cs ++ ds) := fun c h => (List.mem_append.1 h).elim (hc c) (hd c)

theorem replicate_zero (n : ℕ) : AllDigits (List.replicate n '0') := by
  intro c hc
  rw [List.eq_of_mem_replicate hc]
  decide

theorem notMem {cs : List Char} (h : AllDigits cs) {c : Char} (hc : c.isDigit = false) : c ∉ cs :=
  fun hmem => by simp [h c hmem] at hc

end AllDigits

theorem allDigits_digitsOf (n : ℕ) : AllDigits (digitsOf n) :=
  fun _ hc => Nat.isDigit_of_mem_toDigits (by decide) (by decide) hc

theorem digitsOf_ne_nil (n : ℕ) : digitsOf n ≠ [] := Nat.toDigits_ne_nil

theorem ofDigitChars_digitsOf (n : ℕ) : ofDigitChars 10 (digitsOf n) 0 = n :=
  Nat.ofDigitChars_ten_toDigits

theorem digitsOf_injective {m n : ℕ} (h : digitsOf m = digitsOf n) : m = n := by
  rw [← ofDigitChars_digitsOf m, h, ofDigitChars_digitsOf]

theorem toList_toString (n : ℕ) : (toString n).toList = digitsOf n := by
  rw [Nat.toString_eq_repr, Nat.toList_repr]
  rfl

theorem allDigits_toString (n : ℕ) : AllDigits (toString n).toList :=
  toList_toString n ▸ allDigits_digitsOf n

/-- The characters of numbers. -/
def isNumberChar (c : Char) : Bool := c.isDigit || ['-', '+', '.', 'e'].contains c

namespace Number

/-! ## Decimals -/

/-- A decimal without an exponent is two rows of digits with a point between them, and its value is
that of the digits with the point moved to the end. -/
theorem writePositional_eq {digits : List Char} (hd : AllDigits digits) (hne : digits ≠ []) (e : ℤ) :
    ∃ whole fraction, layout.writePositional digits e = whole ++ '.' :: fraction ∧
      AllDigits whole ∧ AllDigits fraction ∧ whole ≠ [] ∧ fraction ≠ [] ∧
      (ofDigitChars 10 (whole ++ fraction) 0 : ℚ) =
        ofDigitChars 10 digits 0 * 10 ^ e * 10 ^ fraction.length := by
  unfold Layout.writePositional
  split
  · next h =>
    obtain ⟨n, rfl⟩ := Int.eq_ofNat_of_zero_le h
    refine ⟨digits ++ List.replicate n '0', ['0'], rfl, hd.append (.replicate_zero n),
      .replicate_zero 1, by simp [hne], by simp, ?_⟩
    simp only [Nat.ofDigitChars_append, Nat.ofDigitChars_replicate_zero, Nat.ofDigitChars_cons,
      Nat.ofDigitChars_nil]
    simp
    ring
  · next h =>
    obtain ⟨n, hn⟩ := Int.eq_ofNat_of_zero_le (show 0 ≤ -e by omega)
    obtain rfl : e = -n := by omega
    have hcancel : (10 : ℚ) ^ (-(n : ℤ)) * 10 ^ n = 1 := by
      rw [zpow_neg, zpow_natCast]
      field_simp
    simp only [neg_neg, Int.toNat_natCast]
    split
    · next hlt =>
      refine ⟨digits.take (digits.length - n), digits.drop (digits.length - n), rfl,
        fun c hc => hd c (List.mem_of_mem_take hc), fun c hc => hd c (List.mem_of_mem_drop hc),
        ?_, ?_, ?_⟩
      · intro hnil
        have := congrArg List.length hnil
        simp only [List.length_take, List.length_nil] at this
        omega
      · intro hnil
        have := congrArg List.length hnil
        simp only [List.length_drop, List.length_nil] at this
        omega
      · rw [List.take_append_drop, List.length_drop, Nat.sub_sub_self hlt.le, mul_assoc, hcancel,
          mul_one]
    · next hge =>
      refine ⟨['0'], List.replicate (n - digits.length) '0' ++ digits, rfl, .replicate_zero 1,
        (AllDigits.replicate_zero _).append hd, by simp, by simp [hne], ?_⟩
      have hlen : (List.replicate (n - digits.length) '0' ++ digits).length = n := by
        simp only [List.length_append, List.length_replicate]
        omega
      rw [hlen, mul_assoc, hcancel, mul_one, ← List.append_assoc, Nat.ofDigitChars_append]
      congr 2
      simp only [Nat.ofDigitChars_append, Nat.ofDigitChars_replicate_zero, Nat.ofDigitChars_cons,
        Nat.ofDigitChars_nil]
      simp

/-- The digits of a decimal with an exponent. -/
def mantissaOf : List Char → List Char
  | [] => []
  | [d] => [d]
  | d :: rest => d :: '.' :: rest

/-- The exponent of a decimal. -/
def exponentOf (lead : ℤ) : List Char :=
  (if lead < 0 then '-' else '+') :: digitsOf lead.natAbs

theorem writeScientific_eq (digits : List Char) (lead : ℤ) :
    layout.writeScientific digits lead = mantissaOf digits ++ 'e' :: exponentOf lead := by
  have hexponent : (if lead < 0 then ['-'] else layout.exponentSign.toList) ++
      digitsOf lead.natAbs = exponentOf lead := by
    unfold exponentOf
    split <;> rfl
  unfold Layout.writeScientific
  rw [List.append_assoc, List.cons_append, hexponent]
  rfl

theorem mem_mantissaOf {digits : List Char} {c : Char} (h : c ∈ mantissaOf digits) :
    c ∈ digits ∨ c = '.' := by
  match digits with
  | [] => cases h
  | [d] => exact .inl h
  | d :: c' :: rest =>
    simp only [mantissaOf, List.mem_cons] at h ⊢
    tauto

theorem mantissaOf_injective {digits digits' : List Char} (h : mantissaOf digits = mantissaOf digits') :
    digits = digits' := by
  match digits, digits' with
  | [], [] => rfl
  | [], [d] => cases h
  | [], d :: c :: rest => cases h
  | [d], [] => cases h
  | [d], [d'] => exact h
  | [d], d' :: c :: rest => simp [mantissaOf] at h
  | d :: c :: rest, [] => cases h
  | d :: c :: rest, [d'] => simp [mantissaOf] at h
  | d :: c :: rest, d' :: c' :: rest' => simpa [mantissaOf] using h

theorem exponentOf_injective {lead lead' : ℤ} (h : exponentOf lead = exponentOf lead') :
    lead = lead' := by
  obtain ⟨hsign, hdigits⟩ := List.cons.inj h
  have habs := digitsOf_injective hdigits
  split at hsign <;> split at hsign <;> first | omega | cases hsign

/-- Of the two forms of a decimal only the one with an exponent has an `e`. -/
theorem notMem_writePositional {digits : List Char} (hd : AllDigits digits) (hne : digits ≠ [])
    (e : ℤ) : 'e' ∉ layout.writePositional digits e := by
  obtain ⟨whole, fraction, heq, hw, hf, -⟩ := writePositional_eq hd hne e
  rw [heq, List.mem_append, List.mem_cons]
  rintro (h | h | h)
  · exact hw.notMem (by decide) h
  · cases h
  · exact hf.notMem (by decide) h

theorem writePositional_value {digits digits' : List Char} (hd : AllDigits digits)
    (hd' : AllDigits digits') (hne : digits ≠ []) (hne' : digits' ≠ []) {e e' : ℤ}
    (h : layout.writePositional digits e = layout.writePositional digits' e') :
    (ofDigitChars 10 digits 0 : ℚ) * 10 ^ e = ofDigitChars 10 digits' 0 * 10 ^ e' := by
  obtain ⟨whole, fraction, heq, hw, hf, -, -, hv⟩ := writePositional_eq hd hne e
  obtain ⟨whole', fraction', heq', hw', hf', -, -, hv'⟩ := writePositional_eq hd' hne' e'
  rw [heq, heq'] at h
  -- the point stands in one place
  obtain ⟨rfl, -, rfl⟩ := (List.append_cons_inj_of_notMem (hw'.notMem (by decide))
    (hf'.notMem (by decide))).1 h.symm
  exact mul_right_cancel₀ (pow_ne_zero _ (by norm_num)) (hv.symm.trans hv')

theorem writeScientific_injective {digits digits' : List Char} (hd : AllDigits digits)
    {lead lead' : ℤ}
    (h : layout.writeScientific digits lead = layout.writeScientific digits' lead') :
    digits = digits' ∧ lead = lead' := by
  rw [writeScientific_eq, writeScientific_eq] at h
  have hmantissa : 'e' ∉ mantissaOf digits := fun hmem =>
    (mem_mantissaOf hmem).elim (hd.notMem (by decide)) (by decide)
  have hexponent : 'e' ∉ exponentOf lead := by
    unfold exponentOf
    rw [List.mem_cons]
    rintro (h | h)
    · split at h <;> cases h
    · exact (allDigits_digitsOf _).notMem (by decide) h
  obtain ⟨hm, -, he⟩ := (List.append_cons_inj_of_notMem hmantissa hexponent).1 h
  exact ⟨mantissaOf_injective hm, exponentOf_injective he⟩

/-- The text of a decimal determines its value. -/
theorem value_eq_of_writeDecimal {d d' : Decimal}
    (h : layout.writeDecimal d = layout.writeDecimal d') : d.value = d'.value := by
  have hd := allDigits_digitsOf d.digits
  have hd' := allDigits_digitsOf d'.digits
  have hne := digitsOf_ne_nil d.digits
  have hne' := digitsOf_ne_nil d'.digits
  have hscientific : ∀ (digits : List Char) (lead : ℤ), 'e' ∈ layout.writeScientific digits lead :=
    fun digits lead => writeScientific_eq digits lead ▸ by simp
  unfold Layout.writeDecimal at h
  dsimp only at h
  split at h <;> split at h
  · have := writePositional_value hd hd' hne hne' h
    rwa [ofDigitChars_digitsOf, ofDigitChars_digitsOf] at this
  · exact absurd (h ▸ hscientific ..) (notMem_writePositional hd hne _)
  · exact absurd (h ▸ hscientific ..) (notMem_writePositional hd' hne' _)
  · obtain ⟨hdigits, hlead⟩ := writeScientific_injective hd h
    rw [hdigits] at hlead
    unfold Decimal.value
    rw [digitsOf_injective hdigits, show d.exponent = d'.exponent by omega]

/-! ## Numbers -/

/-- The sign of a number. -/
def signOf (negative : Bool) : List Char := if negative then ['-'] else []

theorem toList_text_integer (n : ℤ) :
    (text (.integer n)).toList = signOf (n < 0) ++ digitsOf n.natAbs := by
  simp only [text, Int.toString_eq_repr, Int.repr_eq_if, signOf, decide_eq_true_eq]
  by_cases h : 0 ≤ n
  · rw [if_pos h, if_neg (by omega), Nat.toList_repr, show n.toNat = n.natAbs by omega]
    rfl
  · rw [if_neg h, if_pos (by omega), String.toList_append, Nat.toList_repr,
      show (-n).toNat = n.natAbs by omega]
    rfl

theorem toList_text_real (x : Binary64) :
    (text (.real x)).toList = signOf x.negative ++ layout.writeDecimal x.shortest := by
  simp only [text, Layout.write, String.toList_ofList, signOf]

/-- A decimal starts with a digit, has a point or an exponent, and is made of the characters of
numbers. -/
theorem writeDecimal_spec (d : Decimal) :
    (∃ c ∈ (layout.writeDecimal d).head?, c.isDigit) ∧
    ('.' ∈ layout.writeDecimal d ∨ 'e' ∈ layout.writeDecimal d) ∧
    ∀ c ∈ layout.writeDecimal d, isNumberChar c := by
  have hd := allDigits_digitsOf d.digits
  have hne := digitsOf_ne_nil d.digits
  have hdigit : ∀ {c : Char}, c.isDigit → isNumberChar c := fun h => by simp [isNumberChar, h]
  unfold Layout.writeDecimal
  dsimp only
  split
  · obtain ⟨whole, fraction, heq, hw, hf, hwne, -⟩ := writePositional_eq hd hne d.exponent
    obtain ⟨c, cs, rfl⟩ := List.exists_cons_of_ne_nil hwne
    rw [heq]
    refine ⟨⟨c, rfl, hw c List.mem_cons_self⟩, .inl (by simp), fun c' hc' => ?_⟩
    rcases List.mem_append.1 hc' with hc' | hc'
    · exact hdigit (hw c' hc')
    · rcases List.mem_cons.1 hc' with rfl | hc'
      · decide
      · exact hdigit (hf c' hc')
  · rw [writeScientific_eq]
    generalize digitsOf d.digits = digits at *
    obtain ⟨c, cs, rfl⟩ := List.exists_cons_of_ne_nil hne
    refine ⟨⟨c, ?_, hd c List.mem_cons_self⟩, .inr (by simp), fun c' hc' => ?_⟩
    · cases cs <;> rfl
    · rcases List.mem_append.1 hc' with hc' | hc'
      · rcases mem_mantissaOf hc' with hc' | rfl
        · exact hdigit (hd c' hc')
        · decide
      · simp only [exponentOf, List.mem_cons] at hc'
        rcases hc' with rfl | rfl | hc'
        · decide
        · split <;> decide
        · exact hdigit (allDigits_digitsOf _ c' hc')

theorem signOf_append_injective {negative negative' : Bool} {cs cs' : List Char}
    (hc : ∃ c ∈ cs.head?, c.isDigit) (hc' : ∃ c ∈ cs'.head?, c.isDigit)
    (h : signOf negative ++ cs = signOf negative' ++ cs') : negative = negative' ∧ cs = cs' := by
  -- a digit is no sign
  have hsign : ∀ {ds : List Char}, (∃ c ∈ ds.head?, c.isDigit) → ∀ es, ds ≠ '-' :: es := by
    rintro _ ⟨c, hc, hdigit⟩ es rfl
    cases hc
    cases hdigit
  cases negative <;> cases negative'
  · exact ⟨rfl, h⟩
  · exact (hsign hc _ h).elim
  · exact (hsign hc' _ h.symm).elim
  · exact ⟨rfl, (List.cons.inj h).2⟩

theorem head?_digitsOf (n : ℕ) : ∃ c ∈ (digitsOf n).head?, c.isDigit := by
  obtain ⟨c, cs, h⟩ := List.exists_cons_of_ne_nil (digitsOf_ne_nil n)
  exact ⟨c, by rw [h]; rfl, allDigits_digitsOf n c (by rw [h]; exact List.mem_cons_self)⟩

theorem text_integer_ne_real (n : ℤ) (x : Binary64) : text (.integer n) ≠ text (.real x) := by
  intro h
  have h := congrArg String.toList h
  rw [toList_text_integer, toList_text_real] at h
  obtain ⟨hhead, hmark, -⟩ := writeDecimal_spec x.shortest
  obtain ⟨-, hdigits⟩ := signOf_append_injective (head?_digitsOf _) hhead h
  rw [← hdigits] at hmark
  exact hmark.elim ((allDigits_digitsOf _).notMem (by decide))
    ((allDigits_digitsOf _).notMem (by decide))

/-- The text of a number determines the number. -/
theorem text_injective {m n : Number} (h : m.text = n.text) : m = n := by
  cases m with
  | integer m =>
    cases n with
    | integer n =>
      have h := congrArg String.toList h
      rw [toList_text_integer, toList_text_integer] at h
      obtain ⟨hsign, hdigits⟩ :=
        signOf_append_injective (head?_digitsOf _) (head?_digitsOf _) h
      have habs := digitsOf_injective hdigits
      have hneg := decide_eq_decide.1 hsign
      rw [show m = n by omega]
    | real y => exact absurd h (text_integer_ne_real m y)
  | real x =>
    cases n with
    | integer n => exact absurd h.symm (text_integer_ne_real n x)
    | real y =>
      have h := congrArg String.toList h
      rw [toList_text_real, toList_text_real] at h
      obtain ⟨hsign, hdecimal⟩ := signOf_append_injective (writeDecimal_spec _).1
        (writeDecimal_spec _).1 h
      have hmagnitude := Binary64.magnitude_eq_of_shortest (value_eq_of_writeDecimal hdecimal)
      obtain ⟨negative, magnitude, hlt⟩ := x
      obtain ⟨negative', magnitude', hlt'⟩ := y
      obtain rfl : negative = negative' := hsign
      obtain rfl : magnitude = magnitude' := hmagnitude
      rfl

theorem text_ne_nil (n : Number) : n.text.toList ≠ [] := by
  have happend : ∀ {negative : Bool} {cs : List Char}, (∃ c ∈ cs.head?, c.isDigit) →
      signOf negative ++ cs ≠ [] := by
    rintro negative cs ⟨c, hc, -⟩ hnil
    rw [(List.append_eq_nil_iff.1 hnil).2] at hc
    cases hc
  cases n with
  | integer n =>
    rw [toList_text_integer]
    exact happend (head?_digitsOf _)
  | real x =>
    rw [toList_text_real]
    exact happend (writeDecimal_spec _).1

/-- The text of a number is made of the characters of numbers. -/
theorem isNumberChar_of_mem {n : Number} {c : Char} (h : c ∈ n.text.toList) : isNumberChar c := by
  have hsign : ∀ {negative : Bool}, c ∈ signOf negative → isNumberChar c := by
    intro negative hc
    cases negative with
    | false => cases hc
    | true =>
      rw [List.mem_singleton.1 hc]
      decide
  cases n with
  | integer n =>
    rw [toList_text_integer] at h
    rcases List.mem_append.1 h with h | h
    · exact hsign h
    · simp [isNumberChar, allDigits_digitsOf _ c h]
  | real x =>
    rw [toList_text_real] at h
    exact (List.mem_append.1 h).elim hsign ((writeDecimal_spec _).2.2 c)

end Number

end DesignSystem.Json
