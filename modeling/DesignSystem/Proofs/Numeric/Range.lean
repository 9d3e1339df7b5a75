import DesignSystem.Numeric.Reading
import DesignSystem.Proofs.Json.Number

/-!
# The range of numbers

Values are rounded to the nearest number, and to an infinity from the middle between the greatest
finite number and the power of two behind it on.

* `quotientMagnitude_lt_iff`: where roundings pass a power of two.
* `ofQuotient_isFinite_iff`: quotients that are rounded to finite numbers.
* `ofQuotient_mul_isFinite_iff`: sixteen times a rounded quotient is finite just if that many times
  the quotient is in the range.
* `ofDigits_isFinite_iff`: the same for digits with an exponent.
-/

set_option autoImplicit false

namespace DesignSystem

/-! ## Rounding to natural numbers -/

theorem roundQuotient_bounds (num den : Nat) :
    num / den ≤ roundQuotient num den ∧ roundQuotient num den ≤ num / den + 1 := by
  unfold roundQuotient
  dsimp only
  split
  · omega
  · split
    · omega
    · split <;> omega

/-- A quotient is rounded to less than an even number just if it is more than a half below. -/
theorem roundQuotient_lt_iff {num den m : Nat} (hden : 0 < den) (hm : m % 2 = 0) (hpos : 0 < m) :
    roundQuotient num den < m ↔ 2 * num + den < 2 * (den * m) := by
  have hnum := Nat.div_add_mod num den
  have hr := Nat.mod_lt num hden
  have hbounds := roundQuotient_bounds num den
  generalize hq : num / den = q at hnum hbounds
  rcases Nat.lt_trichotomy (q + 1) m with hlt | heq | hgt
  · have hle : den * (q + 2) ≤ den * m := Nat.mul_le_mul_left den hlt
    rw [Nat.mul_add] at hle
    exact iff_of_true (by omega) (by omega)
  · -- the quotient rounded down is odd, so a half goes up
    subst heq
    rw [Nat.mul_add]
    unfold roundQuotient
    dsimp only
    rw [hq]
    split
    · omega
    · split
      · omega
      · split <;> omega
  · have hle : den * m ≤ den * q := Nat.mul_le_mul_left den (by omega)
    exact iff_of_false (by omega) (by omega)

namespace Scalar

/-! ## Magnitudes of quotients -/

/-- How many doublings leave 53 binary digits of a quotient. -/
def doublings (units den : Nat) : Nat :=
  let guess := units.log2 - den.log2 - 53
  if units / (den * Nat.pow 2 guess) < Nat.pow 2 53 then guess else guess + 1

/-- The magnitude that a quotient is rounded to. -/
def quotientMagnitude (units den : Nat) : Nat :=
  doublings units den * Nat.pow 2 52 +
    roundQuotient units (den * Nat.pow 2 (doublings units den))

/-- The number of a magnitude. -/
def ofMagnitude (negative : Bool) (magnitude : Nat) : Scalar :=
  if h : magnitude < 2047 * Nat.pow 2 52 then .finite ⟨negative, magnitude, h⟩
  else .infinite negative

theorem ofQuotient_eq (negative : Bool) (num den : Nat) : ofQuotient negative num den =
    ofMagnitude negative (quotientMagnitude (num * Nat.pow 2 1074) den) := rfl

variable {units den : Nat}

/-- There are no more than 53 digits left, and no fewer if there were more. -/
theorem doublings_spec (units : Nat) (hden : 0 < den) :
    units / (den * 2 ^ doublings units den) < 2 ^ 53 ∧
      (doublings units den ≠ 0 → 2 ^ 52 ≤ units / (den * 2 ^ doublings units den)) := by
  have hlow := Nat.log2_self_le hden.ne'
  have hhigh := Nat.lt_log2_self (n := den)
  have hunits := Nat.lt_log2_self (n := units)
  unfold doublings
  dsimp only
  generalize hguess : units.log2 - den.log2 - 53 = guess
  simp only [Nat.pow_eq]
  have hpos : 0 < den * 2 ^ guess := Nat.mul_pos hden (Nat.two_pow_pos _)
  split
  · next hlt =>
    refine ⟨hlt, fun hne => ?_⟩
    have hsum : units.log2 = den.log2 + guess + 53 := by omega
    have hnonzero : units ≠ 0 := by
      rintro rfl
      simp at hsum
    rw [Nat.le_div_iff_mul_le hpos]
    calc 2 ^ 52 * (den * 2 ^ guess)
        ≤ 2 ^ 52 * (2 ^ (den.log2 + 1) * 2 ^ guess) := by gcongr
      _ = 2 ^ units.log2 := by
        rw [hsum, ← Nat.pow_add, ← Nat.pow_add]
        congr 1
        omega
      _ ≤ units := Nat.log2_self_le hnonzero
  · next hge =>
    have hdouble : den * 2 ^ (guess + 1) = den * 2 ^ guess * 2 := by
      rw [Nat.pow_succ, Nat.mul_assoc]
    rw [hdouble, ← Nat.div_div_eq_div_mul]
    refine ⟨?_, fun _ => by omega⟩
    have hlt : units / (den * 2 ^ guess) < 2 ^ 54 := by
      rw [Nat.div_lt_iff_lt_mul hpos]
      calc units < 2 ^ (units.log2 + 1) := hunits
        _ ≤ 2 ^ (54 + (den.log2 + guess)) := Nat.pow_le_pow_right (by decide) (by omega)
        _ = 2 ^ 54 * (2 ^ den.log2 * 2 ^ guess) := by rw [Nat.pow_add, Nat.pow_add]
        _ ≤ 2 ^ 54 * (den * 2 ^ guess) := by gcongr
    omega

/-- A quotient is rounded to less than a power of two just if it is below the middle between that
and the number before it. -/
theorem quotientMagnitude_lt_iff (hden : 0 < den) (k : Nat) :
    quotientMagnitude units den < (k + 2) * 2 ^ 52 ↔
      2 * units + den * 2 ^ k < 2 ^ 54 * (den * 2 ^ k) := by
  obtain ⟨hlt, hge⟩ := doublings_spec units hden
  unfold quotientMagnitude
  simp only [Nat.pow_eq]
  generalize doublings units den = d at hlt hge
  have hpos : ∀ d, 0 < den * 2 ^ d := fun d => Nat.mul_pos hden (Nat.two_pow_pos d)
  obtain ⟨hfloor, hceil⟩ := roundQuotient_bounds units (den * 2 ^ d)
  rcases Nat.lt_trichotomy d k with hd | rfl | hd
  · obtain ⟨j, rfl⟩ := Nat.exists_eq_add_of_lt hd
    have hunits : units < 2 ^ 53 * (den * 2 ^ d) := (Nat.div_lt_iff_lt_mul (hpos d)).1 hlt
    have hle : 2 * (den * 2 ^ d) ≤ den * 2 ^ (d + j + 1) := by
      calc 2 * (den * 2 ^ d) = den * 2 ^ (d + 1) := by rw [Nat.pow_succ]; ring
        _ ≤ den * 2 ^ (d + j + 1) :=
          Nat.mul_le_mul_left den (Nat.pow_le_pow_right (by decide) (by omega))
    have := hpos (d + j + 1)
    exact iff_of_true (by omega) (by omega)
  · rw [show 2 ^ 54 * (den * 2 ^ d) = 2 * (den * 2 ^ d * 2 ^ 53) by ring,
      ← roundQuotient_lt_iff (hpos d) (by decide) (by decide)]
    omega
  · obtain ⟨j, rfl⟩ := Nat.exists_eq_add_of_lt hd
    have hunits : 2 ^ 52 * (den * 2 ^ (k + j + 1)) ≤ units :=
      (Nat.le_div_iff_mul_le (hpos _)).1 (hge (by omega))
    have hle : 2 * (den * 2 ^ k) ≤ den * 2 ^ (k + j + 1) := by
      calc 2 * (den * 2 ^ k) = den * 2 ^ (k + 1) := by rw [Nat.pow_succ]; ring
        _ ≤ den * 2 ^ (k + j + 1) :=
          Nat.mul_le_mul_left den (Nat.pow_le_pow_right (by decide) (by omega))
    have := hge (by omega)
    exact iff_of_false (by omega) (by omega)

/-- The same for a quotient that is counted in units of `2 ^ -e`. -/
theorem quotientMagnitude_units_lt_iff {num den e j k : Nat} (hden : 0 < den) (hk : j + e + 3 = k) :
    quotientMagnitude (num * Nat.pow 2 e) den < k * 2 ^ 52 ↔
      num < den * ((2 ^ 54 - 1) * 2 ^ j) := by
  subst hk
  have hpow : 2 ^ (j + e + 1) = 2 ^ j * 2 * 2 ^ e := by
    rw [Nat.pow_succ, Nat.pow_add]
    ring
  rw [quotientMagnitude_lt_iff hden (j + e + 1), hpow, Nat.pow_eq]
  have hpos : 0 < 2 * 2 ^ e := Nat.mul_pos Nat.two_pos (Nat.two_pow_pos e)
  generalize 2 ^ e = one at hpos
  have hscaled : num < den * ((2 ^ 54 - 1) * 2 ^ j) ↔
      2 * (num * one) < (2 ^ 54 - 1) * (den * (2 ^ j * 2 * one)) := by
    rw [← Nat.mul_lt_mul_right hpos]
    ring_nf
  rw [hscaled]
  omega

/-- A number is less than a power of two just if it is below the middle between that and the number
before it. -/
theorem magnitude_lt_iff (x : Binary64) (k : Nat) :
    x.magnitude < (k + 2) * 2 ^ 52 ↔ 2 * x.units < (2 ^ 54 - 1) * 2 ^ k := by
  have hmagnitude := x.magnitude_eq
  have hmantissa := x.mantissa_lt
  rw [Binary64.units, Nat.pow_eq]
  rcases Nat.lt_or_ge k x.scale with hscale | hscale
  · have hnormal := Binary64.le_mantissa (x := x) (by omega)
    have hle : 2 ^ 52 * 2 ^ (k + 1) ≤ x.mantissa * 2 ^ x.scale :=
      Nat.mul_le_mul hnormal (Nat.pow_le_pow_right (by decide) hscale)
    have hpos := Nat.two_pow_pos k
    rw [Nat.pow_succ] at hle
    exact iff_of_false (by omega) (by omega)
  · have hle : x.mantissa * 2 ^ x.scale ≤ (2 ^ 53 - 1) * 2 ^ k :=
      Nat.mul_le_mul (by omega) (Nat.pow_le_pow_right (by decide) hscale)
    have hpos := Nat.two_pow_pos k
    exact iff_of_true (by omega) (by omega)

/-! ## Finite numbers -/

/-- The number is finite. -/
def isFinite : Scalar → Bool
  | .finite _ => true
  | _ => false

/-- The middle between the greatest finite number and the power of two behind it. -/
def limit : Nat := (2 ^ 54 - 1) * 2 ^ 970

theorem ofMagnitude_isFinite_iff (negative : Bool) (magnitude : Nat) :
    (ofMagnitude negative magnitude).isFinite ↔ magnitude < 2047 * 2 ^ 52 := by
  unfold ofMagnitude
  split
  · next h => exact iff_of_true rfl h
  · next h => exact iff_of_false Bool.false_ne_true h

theorem ofQuotient_isFinite_iff (negative : Bool) {num den : Nat} (hden : 0 < den) :
    (ofQuotient negative num den).isFinite ↔ num < den * limit := by
  rw [ofQuotient_eq, ofMagnitude_isFinite_iff, quotientMagnitude_units_lt_iff hden rfl, limit]

/-- The units of a number sixteen times, in the units of products. -/
theorem units_mul_lt_iff (x : Binary64) {e j k : Nat} (hk : j + e + 3 = k) :
    x.units * (16 * Nat.pow 2 e) < Nat.pow 2 (e + e) * ((2 ^ 54 - 1) * 2 ^ (j + 4)) ↔
      x.magnitude < k * 2 ^ 52 := by
  subst hk
  rw [magnitude_lt_iff x (j + e + 1), Nat.pow_eq, Nat.pow_eq, Nat.pow_add 2 e e, Nat.pow_add 2 j 4,
    Nat.pow_add 2 (j + e) 1, Nat.pow_add 2 j e]
  have hpos : 0 < 8 * 2 ^ e := Nat.mul_pos (by decide) (Nat.two_pow_pos e)
  generalize 2 ^ e = one at hpos
  have hscaled : 2 * x.units < (2 ^ 54 - 1) * (2 ^ j * one * 2 ^ 1) ↔
      2 * x.units * (8 * one) < (2 ^ 54 - 1) * (2 ^ j * one * 2 ^ 1) * (8 * one) :=
    (Nat.mul_lt_mul_right hpos).symm
  rw [hscaled]
  ring_nf

/-- A number sixteen times is finite just if the number is below the power of two that is a
sixteenth of the one behind all numbers. -/
theorem ofMagnitude_mul_isFinite_iff (negative : Bool) (magnitude : Nat) :
    ((ofMagnitude negative magnitude).mul (ofNat 16)).isFinite ↔ magnitude < 2043 * 2 ^ 52 := by
  obtain ⟨y, hy, hunits, hzero⟩ : ∃ y, ofNat 16 = .finite y ∧ y.units = 16 * Nat.pow 2 1074 ∧
      y.isZero = false :=
    ⟨⟨false, 1027 * Nat.pow 2 52, by decide⟩, by decide +kernel, by decide +kernel, rfl⟩
  rw [hy, ofMagnitude]
  split
  · have hproduct : 0 < Nat.pow 2 2148 := Nat.two_pow_pos 2148
    have hsum : 2148 = 1074 + 1074 := rfl
    rw [mul, hunits, ofQuotient_isFinite_iff _ hproduct, hsum, limit, units_mul_lt_iff _ rfl]
  · next h =>
    refine iff_of_false (by simp [mul, isZero, hzero, isFinite]) fun hlt => h (hlt.trans ?_)
    decide

/-- Sixteen is a power of two, so it scales a rounded value without another rounding. -/
theorem ofQuotient_mul_isFinite_iff (negative : Bool) {num den : Nat} (hden : 0 < den) :
    ((ofQuotient negative num den).mul (ofNat 16)).isFinite ↔ num * 16 < den * limit := by
  have hlimit : den * limit = den * ((2 ^ 54 - 1) * 2 ^ 966) * 16 := by
    rw [limit, Nat.pow_add 2 966 4, ← Nat.mul_assoc (2 ^ 54 - 1), ← Nat.mul_assoc]
  rw [ofQuotient_eq, ofMagnitude_mul_isFinite_iff, quotientMagnitude_units_lt_iff hden rfl, hlimit,
    Nat.mul_lt_mul_right (by decide)]

/-! ## Decimals -/

theorem digitsValue_eq (n : Nat) (cs : List Char) :
    digitsValue n cs = Nat.ofDigitChars 10 cs n := by
  simp only [digitsValue, Nat.ofDigitChars_eq_foldl, Nat.mul_comm]

theorem digitsValue_lt {digits : List Char} (h : Json.AllDigits digits) :
    digitsValue 0 digits < 10 ^ digits.length := by
  rw [digitsValue_eq]
  induction digits using List.reverseRecOn with
  | nil => decide
  | append_singleton digits c ih =>
    have hdigit : c.isDigit := h c (by simp)
    have hlt := ih fun c hc => h c (List.mem_append_left _ hc)
    rw [Nat.ofDigitChars_append, Nat.ofDigitChars_cons, Nat.ofDigitChars_nil, List.length_append,
      List.length_singleton, Nat.pow_succ]
    have hnine := (Char.isDigit_iff_toNat.1 hdigit).2
    have hcode : '9'.toNat = '0'.toNat + 9 := rfl
    omega

/-- The value of digits and an exponent. -/
def decimalValue (digits : List Char) (exponent : Int) : ℚ :=
  digitsValue 0 digits * 10 ^ exponent

/-- A value is a quotient that is rounded, unless it is far too great or far too small. -/
theorem ofDigits_cases {digits : List Char} (h : Json.AllDigits digits) (negative : Bool)
    (exponent : Int) :
    (ofDigits negative digits exponent = .infinite negative ∧
      (limit : ℚ) ≤ decimalValue digits exponent) ∨
    ∃ num den, 0 < den ∧ ofDigits negative digits exponent = ofQuotient negative num den ∧
      ((num : ℚ) / den = decimalValue digits exponent ∨
        num = 0 ∧ decimalValue digits exponent < 1) := by
  have hlt : (digitsValue 0 digits : ℚ) < 10 ^ digits.length := by exact_mod_cast digitsValue_lt h
  unfold ofDigits decimalValue
  dsimp only
  split
  · next hzero =>
    refine .inr ⟨0, 1, one_pos, rfl, .inr ⟨rfl, ?_⟩⟩
    rw [hzero]
    norm_num
  · next hne =>
    split
    · next hgreat =>
      refine .inl ⟨rfl, ?_⟩
      have hone : (1 : ℚ) ≤ digitsValue 0 digits := by exact_mod_cast Nat.one_le_iff_ne_zero.2 hne
      have hlimit : limit ≤ 10 ^ 401 := by decide +kernel
      calc (limit : ℚ) ≤ (10 ^ 401 : ℕ) := by exact_mod_cast hlimit
        _ = 10 ^ (401 : ℤ) := by rw [Nat.cast_pow, ← zpow_natCast]; rfl
        _ ≤ 10 ^ exponent := zpow_le_zpow_right₀ (by norm_num) hgreat
        _ ≤ digitsValue 0 digits * 10 ^ exponent := le_mul_of_one_le_left (by positivity) hone
    · split
      · next hsmall =>
        refine .inr ⟨0, 1, one_pos, rfl, .inr ⟨rfl, ?_⟩⟩
        calc (digitsValue 0 digits : ℚ) * 10 ^ exponent
            < 10 ^ digits.length * 10 ^ exponent := by gcongr
          _ = 10 ^ (exponent + digits.length) := by
            rw [zpow_add₀ (by norm_num), zpow_natCast, mul_comm]
          _ ≤ 10 ^ (0 : ℤ) := zpow_le_zpow_right₀ (by norm_num) (by omega)
          _ = 1 := zpow_zero _
      · unfold ofDecimal
        split
        · next hexp =>
          obtain ⟨e, rfl⟩ := Int.eq_ofNat_of_zero_le hexp
          exact .inr ⟨_, 1, one_pos, rfl, .inl (by simp)⟩
        · next hexp =>
          obtain ⟨e, he⟩ := Int.eq_ofNat_of_zero_le (show 0 ≤ -exponent by omega)
          obtain rfl : exponent = -e := by omega
          exact .inr ⟨_, _, Nat.pow_pos (by decide), rfl, .inl (by simp [div_eq_mul_inv])⟩

theorem div_mul_lt_limit_iff {num den : Nat} (hden : 0 < den) (factor : Nat) :
    (num : ℚ) / den * factor < limit ↔ num * factor < den * limit := by
  have hpos : (0 : ℚ) < den := by exact_mod_cast hden
  rw [div_mul_eq_mul_div, div_lt_iff₀ hpos, mul_comm (limit : ℚ)]
  exact_mod_cast Iff.rfl

/-- Digits are rounded to a finite number just if their value is in the range. -/
theorem ofDigits_isFinite_iff {digits : List Char} (h : Json.AllDigits digits) (negative : Bool)
    (exponent : Int) : ((ofDigits negative digits exponent).isFinite ↔
      decimalValue digits exponent < limit) ∧
    (((ofDigits negative digits exponent).mul (ofNat 16)).isFinite ↔
      decimalValue digits exponent * 16 < limit) := by
  have hlimit : (16 : ℚ) < limit := by exact_mod_cast (by decide +kernel : 16 < limit)
  rcases ofDigits_cases h negative exponent with ⟨heq, hle⟩ | ⟨num, den, hden, heq, hvalue⟩
  · rw [heq]
    have hge : (limit : ℚ) ≤ decimalValue digits exponent * 16 := by linarith
    exact ⟨iff_of_false Bool.false_ne_true (not_lt.2 hle),
      iff_of_false (by cases negative <;> decide +kernel) (not_lt.2 hge)⟩
  · rw [heq, ofQuotient_isFinite_iff _ hden, ofQuotient_mul_isFinite_iff _ hden]
    rcases hvalue with hvalue | ⟨rfl, hsmall⟩
    · rw [← hvalue, ← div_mul_lt_limit_iff hden 16, ← Nat.mul_one num,
        ← div_mul_lt_limit_iff hden 1]
      simp only [Nat.cast_one, Nat.cast_ofNat, mul_one, and_self]
    · have hpos : 0 < den * limit := Nat.mul_pos hden (by decide +kernel)
      exact ⟨iff_of_true hpos (by linarith), iff_of_true (by simpa using hpos) (by linarith)⟩

end Scalar

end DesignSystem
