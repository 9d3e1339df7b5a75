import DesignSystem.Numeric.Shortest
import Mathlib.Algebra.Order.Field.Power
import Mathlib.Data.Rat.Cast.Order
import Mathlib.Tactic.FieldSimp
import Mathlib.Tactic.Linarith
import Mathlib.Tactic.LinearCombination
import Mathlib.Tactic.Positivity
import Mathlib.Tactic.Ring

/-!
# The shortest decimal of a number determines the number

`Near x q`: the rational number `q` lies between the middles of the gaps around `x`, and on one of
the middles only if `x` is even.

* `shortest_near`: the shortest decimal of `x` lies there. In particular there is one: of the grid
  with 17 digits one point always does.
* `magnitude_eq_of_near`: no rational number is near two numbers.
* `magnitude_eq_of_shortest`: numbers with decimals of one value have one magnitude.
-/

set_option autoImplicit false

namespace DesignSystem

/-- The value of a decimal. -/
def Decimal.value (d : Decimal) : ℚ := d.digits * 10 ^ d.exponent

namespace Binary64

/-! ## Mantissa and scale -/

theorem mantissa_lt (x : Binary64) : x.mantissa < 2 ^ 53 := by
  simp only [mantissa, scale, Nat.pow_eq]
  omega

theorem le_mantissa {x : Binary64} (h : x.scale ≠ 0) : 2 ^ 52 ≤ x.mantissa := by
  simp only [mantissa, scale, Nat.pow_eq] at *
  omega

theorem magnitude_eq (x : Binary64) : x.magnitude = x.scale * 2 ^ 52 + x.mantissa := by
  simp only [mantissa, scale, Nat.pow_eq]
  omega

theorem scale_lt (x : Binary64) : x.scale < 2046 := by
  have := x.magnitude_lt
  simp only [scale, Nat.pow_eq] at *
  omega

theorem mantissa_pos {x : Binary64} (h : ¬ x.isZero) : 0 < x.mantissa := by
  rcases Nat.eq_zero_or_pos x.scale with hs | hs
  · have hm := x.magnitude_eq
    simp only [isZero, decide_eq_true_eq] at h
    omega
  · have := le_mantissa hs.ne'
    omega

/-! ## Numbers near a number -/

theorem natPow_two_pos (n : ℕ) : (0 : ℚ) < (Nat.pow 2 n : ℕ) := by
  rw [Nat.pow_eq]
  exact_mod_cast Nat.two_pow_pos n

/-- A quarter of the spacing at a number. -/
def quarter (x : Binary64) : ℚ := (Nat.pow 2 x.scale : ℕ) / (4 * (Nat.pow 2 1074 : ℕ))

theorem quarter_pos (x : Binary64) : 0 < x.quarter := by
  simp only [quarter, div_pos, mul_pos, natPow_two_pos, Nat.ofNat_pos]

/-- A rational number rounds to a number. -/
structure Near (x : Binary64) (q : ℚ) : Prop where
  low : x.interval.low * x.quarter ≤ q
  high : q ≤ x.interval.high * x.quarter
  inside : x.interval.closed = false →
    x.interval.low * x.quarter < q ∧ q < x.interval.high * x.quarter

/-- A power of ten as a quotient. -/
def tenPower (e : ℤ) : ℕ × ℕ :=
  if 0 ≤ e then (Nat.pow 10 e.toNat, 1) else (1, Nat.pow 10 (-e).toNat)

theorem tenPower_pos (e : ℤ) : 0 < (tenPower e).1 ∧ 0 < (tenPower e).2 := by
  unfold tenPower
  split <;> simp only [Nat.pow_eq] <;> constructor <;> positivity

theorem tenPower_eq (e : ℤ) : ((tenPower e).1 : ℚ) = 10 ^ e * (tenPower e).2 := by
  unfold tenPower
  split
  · next h =>
    obtain ⟨n, rfl⟩ := Int.eq_ofNat_of_zero_le h
    simp [Nat.pow_eq]
  · next h =>
    obtain ⟨n, hn⟩ := Int.eq_ofNat_of_zero_le (show 0 ≤ -e by omega)
    obtain rfl : e = -n := by omega
    simp [Nat.pow_eq]

theorem gridStep_pos (x : Binary64) (e : ℤ) : 0 < (x.gridStep e).1 ∧ 0 < (x.gridStep e).2 := by
  have hpos : ∀ n, 0 < Nat.pow 2 n := fun n => Nat.two_pow_pos n
  obtain ⟨hfst, hsnd⟩ := tenPower_pos e
  simp only [tenPower] at hfst hsnd
  simp only [gridStep, Nat.mul_pos, hpos, hfst, hsnd, and_self]

theorem pow_1076 : Nat.pow 2 1076 = 4 * Nat.pow 2 1074 := by decide +kernel

theorem mul_natPow_two_div (a m n : ℕ) :
    ((a * (4 * Nat.pow 2 n) : ℕ) : ℚ) * ((Nat.pow 2 m : ℕ) / (4 * (Nat.pow 2 n : ℕ))) =
      a * (Nat.pow 2 m : ℕ) := by
  have hn := (natPow_two_pos n).ne'
  push_cast
  field_simp

theorem gridStep_eq (x : Binary64) (e : ℤ) :
    ((x.gridStep e).1 : ℚ) * x.quarter = 10 ^ e * (x.gridStep e).2 := by
  have hten := tenPower_eq e
  simp only [tenPower] at hten
  simp only [gridStep, quarter, pow_1076, mul_natPow_two_div]
  rw [hten, Nat.cast_mul, mul_assoc]

/-- A point of a decimal grid is held by the interval of a number if it rounds to the number. -/
theorem holds_iff (x : Binary64) (e : ℤ) (n : ℕ) :
    x.interval.holds (n * (x.gridStep e).1) (x.gridStep e).2 ↔ x.Near (n * 10 ^ e) := by
  have hq := x.quarter_pos
  have hden : (0 : ℚ) < (x.gridStep e).2 := by exact_mod_cast (x.gridStep_pos e).2
  have hstep := x.gridStep_eq e
  generalize (x.gridStep e).1 = num at *
  generalize (x.gridStep e).2 = den at *
  -- differences in quarters and in steps have one sign
  have hdiff : ∀ k : ℕ, ((k : ℚ) * x.quarter - n * 10 ^ e) * den = (k * den - n * num) * x.quarter :=
    fun k => by linear_combination (n : ℚ) * hstep
  have hge : ∀ k : ℕ, n * num ≤ k * den ↔ (n : ℚ) * 10 ^ e ≤ k * x.quarter := by
    intro k
    rw [← sub_nonneg (a := (k : ℚ) * x.quarter), ← mul_nonneg_iff_of_pos_right hden, hdiff,
      mul_nonneg_iff_of_pos_right hq, sub_nonneg]
    exact_mod_cast Iff.rfl
  have hle : ∀ k : ℕ, k * den ≤ n * num ↔ (k : ℚ) * x.quarter ≤ n * 10 ^ e := by
    intro k
    rw [← sub_nonneg (b := (k : ℚ) * x.quarter), ← mul_nonneg_iff_of_pos_right hden, ← neg_sub,
      neg_mul, hdiff, ← neg_mul, neg_sub, mul_nonneg_iff_of_pos_right hq, sub_nonneg]
    exact_mod_cast Iff.rfl
  unfold Interval.holds
  cases hc : x.interval.closed with
  | true =>
    simp only [↓reduceIte, Bool.and_eq_true, decide_eq_true_eq, hle, hge]
    exact ⟨fun h => ⟨h.1, h.2, by simp [hc]⟩, fun h => ⟨h.low, h.high⟩⟩
  | false =>
    simp only [Bool.false_eq_true, ↓reduceIte, Bool.and_eq_true, decide_eq_true_eq,
      ← not_le, hle, hge]
    simp only [not_le]
    exact ⟨fun h => ⟨h.1.le, h.2.le, fun _ => h⟩, fun h => h.inside hc⟩

theorem holds_of_neighbour? {i : Interval} {value num den n : ℕ}
    (h : i.neighbour? value num den = some n) : i.holds (n * num) den := by
  simp only [Interval.neighbour?] at h
  generalize value / num = below at h
  split at h
  · next hlow hhigh =>
    cases h
    split
    · exact hlow
    · exact hhigh
  · next hlow _ =>
    cases h
    exact hlow
  · next _ hhigh =>
    cases h
    exact hhigh
  · cases h

/-- What is found on a grid rounds to the number. -/
theorem near_of_onGrid? {x : Binary64} {e : ℤ} {d : Decimal} (h : x.onGrid? e = some d) :
    x.Near d.value := by
  obtain ⟨n, hn, rfl⟩ := Option.map_eq_some_iff.1 h
  exact (x.holds_iff e n).1 (holds_of_neighbour? hn)

/-- How far the interval of a number reaches. -/
theorem interval_bounds {x : Binary64} (h : ¬ x.isZero) :
    x.interval.high = 4 * x.mantissa + 2 ∧ x.interval.low < 4 * x.mantissa ∧
      (x.mantissa ≠ 2 ^ 52 → x.interval.low + 2 = 4 * x.mantissa) := by
  have hpos := mantissa_pos h
  simp only [interval, Nat.pow_eq]
  refine ⟨trivial, ?_, fun hne => ?_⟩
  · split <;> omega
  · simp only [hne, decide_false, Bool.false_and, Bool.false_eq_true, ↓reduceIte]
    omega

theorem holds_of_lt {i : Interval} {n den : ℕ} (hlow : i.low * den < n)
    (hhigh : n < i.high * den) : i.holds n den := by
  unfold Interval.holds
  split
  · simp [hlow.le, hhigh.le]
  · simp [hlow, hhigh]

/-- Of the two neighbours on a grid one lies in an interval that is wide enough: on both sides
together wider than a step, or on the upper side alone. -/
theorem neighbour?_isSome {i : Interval} {value num den : ℕ} (hpos : 0 < num)
    (hlow : i.low * den < value) (hwide : i.low * den + num < i.high * den)
    (hhigh : value + num < i.high * den ∨ i.high * den + i.low * den = 2 * value) :
    (i.neighbour? value num den).isSome := by
  simp only [Interval.neighbour?]
  generalize hbelow : value / num = below
  have hle : below * num ≤ value := by
    rw [← hbelow]
    exact Nat.div_mul_le_self _ _
  have hlt : value < (below + 1) * num := by
    rw [← hbelow]
    exact Nat.lt_mul_of_div_lt (Nat.lt_succ_self _) hpos
  have hstep : (below + 1) * num = below * num + num := Nat.succ_mul _ _
  have hone : i.holds (below * num) den = true ∨ i.holds ((below + 1) * num) den = true := by
    by_cases hnear : (below + 1) * num < i.high * den
    · exact .inr (holds_of_lt (by omega) hnear)
    · exact .inl (holds_of_lt (by omega) (by omega))
  rcases hone with h | h
  · rw [h]
    cases i.holds ((below + 1) * num) den <;> rfl
  · rw [h]
    cases i.holds (below * num) den <;> rfl

/-! ## Seventeen digits are enough -/

theorem atLeastPower_iff (x : Binary64) (e : ℤ) :
    x.atLeastPower e ↔ (tenPower e).1 * Nat.pow 2 1074 ≤ x.units * (tenPower e).2 := by
  simp only [atLeastPower, tenPower]
  split
  · simp only [decide_eq_true_eq, Nat.mul_one]
  · simp only [decide_eq_true_eq, Nat.one_mul]

/-- The guess at the leading exponent is never too great by more than one. -/
theorem tenPower_le_of_lt : ∀ l : ℕ, l < 2098 →
    (tenPower (((l : ℤ) - 1074) * 30103 / 100000 - 1)).1 * Nat.pow 2 1074 ≤
      Nat.pow 2 l * (tenPower (((l : ℤ) - 1074) * 30103 / 100000 - 1)).2 := by
  decide +kernel

theorem units_pos {x : Binary64} (h : ¬ x.isZero) : 0 < x.units :=
  Nat.mul_pos (mantissa_pos h) (Nat.two_pow_pos _)

theorem log2_units_lt {x : Binary64} (h : ¬ x.isZero) : x.units.log2 < 2098 := by
  rw [Nat.log2_lt (units_pos h).ne']
  calc x.units < 2 ^ 53 * 2 ^ x.scale := Nat.mul_lt_mul_of_pos_right x.mantissa_lt (Nat.two_pow_pos _)
    _ = 2 ^ (53 + x.scale) := (Nat.pow_add ..).symm
    _ ≤ 2 ^ 2098 := Nat.pow_le_pow_right (by decide) (by have := x.scale_lt; omega)

/-- The leading digit of a number has a place at which the number has a digit. -/
theorem atLeastPower_leadingExponent {x : Binary64} (h : ¬ x.isZero) :
    x.atLeastPower x.leadingExponent := by
  unfold leadingExponent
  dsimp only
  split
  · assumption
  · split
    · assumption
    · rw [atLeastPower_iff]
      refine (tenPower_le_of_lt _ (log2_units_lt h)).trans (Nat.mul_le_mul_right _ ?_)
      exact Nat.log2_self_le (units_pos h).ne'

/-- How many of the smallest positive numbers make one, and what that says of a number. -/
theorem exists_unit (x : Binary64) : ∃ unit : ℕ, (0 : ℚ) < unit ∧
    4 * (x.mantissa : ℚ) * x.quarter * unit = x.units ∧
    ∀ e, x.atLeastPower e ↔ (tenPower e).1 * unit ≤ x.units * (tenPower e).2 := by
  have hcancel : ∀ m s n : ℕ, 4 * (m : ℚ) * (s / (4 * (Nat.pow 2 n : ℕ))) * (Nat.pow 2 n : ℕ) =
      (m * s : ℕ) := by
    intro m s n
    have hn := (natPow_two_pos n).ne'
    push_cast
    field_simp
  refine ⟨Nat.pow 2 1074, ?_, ?_, x.atLeastPower_iff⟩
  · simp only [natPow_two_pos]
  · simp only [quarter, units, hcancel]

theorem ten_zpow_le {x : Binary64} {e : ℤ} (h : x.atLeastPower e) :
    (10 : ℚ) ^ e ≤ 4 * x.mantissa * x.quarter := by
  obtain ⟨unit, hunit, hunits, hiff⟩ := x.exists_unit
  have ht : (0 : ℚ) < (tenPower e).2 := by exact_mod_cast (tenPower_pos e).2
  have hle : ((tenPower e).1 : ℚ) * unit ≤ x.units * (tenPower e).2 := by
    exact_mod_cast (hiff e).1 h
  rw [tenPower_eq, ← hunits] at hle
  refine le_of_mul_le_mul_right ?_ (mul_pos ht hunit)
  linear_combination hle

/-- The step of the grid with 17 digits is small against the number. -/
theorem gridStep_le {x : Binary64} (h : ¬ x.isZero) :
    (x.gridStep (x.leadingExponent - 16)).1 * 10 ^ 16 ≤
      4 * x.mantissa * (x.gridStep (x.leadingExponent - 16)).2 := by
  have hstep := x.gridStep_eq (x.leadingExponent - 16)
  have hden : (0 : ℚ) < (x.gridStep (x.leadingExponent - 16)).2 := by
    exact_mod_cast (x.gridStep_pos _).2
  have hle := ten_zpow_le (atLeastPower_leadingExponent h)
  rw [zpow_sub₀ (by norm_num)] at hstep
  have hq := x.quarter_pos
  generalize (x.gridStep (x.leadingExponent - 16)).1 = num at *
  generalize (x.gridStep (x.leadingExponent - 16)).2 = den at *
  have : ((num * 10 ^ 16 : ℕ) : ℚ) ≤ (4 * x.mantissa * den : ℕ) := by
    push_cast
    refine le_of_mul_le_mul_right ?_ hq
    calc (num : ℚ) * 10 ^ 16 * x.quarter = (num * x.quarter) * 10 ^ 16 := by ring
      _ = (10 : ℚ) ^ x.leadingExponent * den := by
        rw [hstep]
        norm_num
        ring
      _ ≤ 4 * x.mantissa * x.quarter * den := mul_le_mul_of_nonneg_right hle hden.le
      _ = 4 * x.mantissa * den * x.quarter := by ring
  exact_mod_cast this

/-- On the grid with 17 digits there is a decimal that rounds to the number. -/
theorem onGrid?_isSome {x : Binary64} (h : ¬ x.isZero) :
    (x.onGrid? (x.leadingExponent - 16)).isSome := by
  have hpos := x.gridStep_pos (x.leadingExponent - 16)
  have hle := gridStep_le h
  have hlt := x.mantissa_lt
  obtain ⟨hhigh, hlow, hlow'⟩ := interval_bounds h
  simp only [onGrid?, Option.isSome_map]
  generalize (x.gridStep (x.leadingExponent - 16)).1 = num at *
  generalize (x.gridStep (x.leadingExponent - 16)).2 = den at *
  have hlow₁ : x.interval.low * den + den ≤ 4 * x.mantissa * den := by
    rw [← Nat.succ_mul]
    exact Nat.mul_le_mul_right den hlow
  have hhigh₁ : x.interval.high * den = 4 * x.mantissa * den + 2 * den := by
    rw [hhigh, Nat.add_mul]
  by_cases hm : x.mantissa = 2 ^ 52
  · -- the interval is narrow below a power of two, and there the step is smaller
    have hnum : num < 2 * den := by
      rw [hm] at hle
      omega
    exact neighbour?_isSome hpos.1 (by omega) (by omega) (.inl (by omega))
  · have hlow₂ : x.interval.low * den + 2 * den = 4 * x.mantissa * den := by
      rw [← Nat.add_mul, hlow' hm]
    have hnum : num < 4 * den := by
      have : 4 * x.mantissa * den ≤ (2 ^ 55 - 1) * den := Nat.mul_le_mul_right den (by omega)
      omega
    exact neighbour?_isSome hpos.1 (by omega) (by omega) (.inr (by omega))

theorem dropZeros_value (n : ℕ) (d : Decimal) : (Decimal.dropZeros n d).value = d.value := by
  induction n generalizing d with
  | zero => rfl
  | succ n ih =>
    unfold Decimal.dropZeros
    split
    · next h =>
      obtain ⟨k, hk⟩ := Nat.dvd_of_mod_eq_zero h.2
      rw [ih]
      simp only [Decimal.value, hk, Nat.mul_div_cancel_left _ (show 0 < 10 by decide)]
      rw [zpow_add₀ (by norm_num)]
      push_cast
      ring
    · rfl

/-- The shortest decimal of a number rounds to it. -/
theorem shortest_near (x : Binary64) : x.Near x.shortest.value := by
  unfold shortest
  split
  · next h =>
    have hm : x.magnitude = 0 := by simpa [isZero] using h
    have hzero : x.interval = ⟨0, 2, true⟩ := by simp [interval, mantissa, scale, hm]
    have hq := x.quarter_pos
    refine ⟨?_, ?_, ?_⟩
    · simp [hzero, Decimal.value]
    · simp [hzero, Decimal.value, hq.le]
    · simp [hzero]
  · next h =>
    rw [dropZeros_value]
    cases hfound : (List.range 17).findSome? fun (n : ℕ) => x.onGrid? (x.leadingExponent - n) with
    | some d =>
      obtain ⟨n, -, hn⟩ := List.exists_of_findSome?_eq_some hfound
      exact near_of_onGrid? hn
    | none =>
      have hnone := List.findSome?_eq_none_iff.1 hfound 16 (by decide)
      have hsome := onGrid?_isSome h
      rw [Nat.cast_ofNat] at hnone
      rw [hnone] at hsome
      cases hsome

/-! ## No two numbers are near one value -/

theorem interval_high (x : Binary64) : x.interval.high = 4 * x.mantissa + 2 := rfl

theorem interval_closed (x : Binary64) : x.interval.closed ↔ x.mantissa % 2 = 0 := by
  simp only [interval, decide_eq_true_eq]

/-- Where the interval of a number ends that of a greater one has not begun. Where the two meet one
of them is open. -/
theorem interval_le {x y : Binary64} (h : x.magnitude < y.magnitude) :
    x.interval.high * 2 ^ x.scale ≤ y.interval.low * 2 ^ y.scale ∧
    (x.interval.closed → y.interval.closed →
      x.interval.high * 2 ^ x.scale < y.interval.low * 2 ^ y.scale) := by
  have hx := x.magnitude_eq
  have hy := y.magnitude_eq
  have hxlt := x.mantissa_lt
  have hylt := y.mantissa_lt
  rcases Nat.lt_trichotomy x.scale y.scale with hs | hs | hs
  · have hyle := le_mantissa (show y.scale ≠ 0 by omega)
    -- the spacing at least doubles from one scale to the next
    obtain ⟨k, hk⟩ := Nat.exists_eq_add_of_lt hs
    have hpow : 2 ^ y.scale = 2 ^ x.scale * (2 * 2 ^ k) := by
      rw [hk, Nat.add_assoc, Nat.pow_add, Nat.pow_succ']
    have hone := Nat.one_le_two_pow (n := k)
    have hlow : 2 ^ 54 - 1 ≤ y.interval.low := by
      simp only [interval, Nat.pow_eq, Bool.and_eq_true, decide_eq_true_eq, bne_iff_ne]
      split <;> omega
    have hle : 2 * (2 ^ 54 - 1) ≤ y.interval.low * (2 * 2 ^ k) := by
      calc 2 * (2 ^ 54 - 1) = (2 ^ 54 - 1) * 2 := Nat.mul_comm _ _
        _ ≤ y.interval.low * (2 * 2 ^ k) := Nat.mul_le_mul hlow (by omega)
    rw [hpow, Nat.mul_left_comm, Nat.mul_comm _ (2 ^ x.scale)]
    refine ⟨Nat.mul_le_mul_left _ ?_, fun hc _ => Nat.mul_lt_mul_of_pos_left ?_ (Nat.two_pow_pos _)⟩
    · rw [interval_high]
      omega
    · rw [interval_closed] at hc
      rw [interval_high]
      omega
  · rw [hs]
    have hm : x.mantissa < y.mantissa := by omega
    -- of numbers with one spacing only the least may be narrow
    have hlow : y.interval.low + 2 = 4 * y.mantissa := by
      have hnarrow : ¬ (y.mantissa = Nat.pow 2 52 ∧ y.scale ≠ 0) := by
        rintro ⟨hm', hs'⟩
        have := le_mantissa (hs ▸ hs' : x.scale ≠ 0)
        rw [hm', Nat.pow_eq] at hm
        omega
      simp only [interval, Bool.and_eq_true, decide_eq_true_eq, bne_iff_ne, hnarrow, ↓reduceIte]
      omega
    refine ⟨Nat.mul_le_mul_right _ ?_, fun hc hc' => Nat.mul_lt_mul_of_pos_right ?_ (Nat.two_pow_pos _)⟩
    · rw [interval_high]
      omega
    · rw [interval_closed] at hc hc'
      rw [interval_high]
      omega
  · have hxle := le_mantissa (show x.scale ≠ 0 by omega)
    have : (y.scale + 1) * 2 ^ 52 ≤ x.scale * 2 ^ 52 := Nat.mul_le_mul_right _ hs
    omega

/-- A value rounds to one number. -/
theorem magnitude_eq_of_near {x y : Binary64} {q : ℚ} (hx : x.Near q) (hy : y.Near q) :
    x.magnitude = y.magnitude := by
  have hlt : ∀ {x y : Binary64}, x.magnitude < y.magnitude → x.Near q → y.Near q → False := by
    intro x y h hx hy
    obtain ⟨hle, hlt⟩ := interval_le h
    have hunit : (0 : ℚ) < 4 * (Nat.pow 2 1074 : ℕ) := by
      simp only [mul_pos, natPow_two_pos, Nat.ofNat_pos]
    have hends : ∀ m n s t : ℕ, (m : ℚ) * ((Nat.pow 2 s : ℕ) / (4 * (Nat.pow 2 1074 : ℕ))) ≤
        n * ((Nat.pow 2 t : ℕ) / (4 * (Nat.pow 2 1074 : ℕ))) ↔ m * 2 ^ s ≤ n * 2 ^ t := by
      intro m n s t
      rw [← mul_div_assoc, ← mul_div_assoc, div_le_div_iff_of_pos_right hunit, Nat.pow_eq, Nat.pow_eq]
      exact_mod_cast Iff.rfl
    have hle' : (x.interval.high : ℚ) * x.quarter ≤ y.interval.low * y.quarter := (hends ..).2 hle
    cases hxc : x.interval.closed with
    | false => exact absurd (hy.low.trans_lt (hx.inside hxc).2) (not_lt.2 hle')
    | true =>
      cases hyc : y.interval.closed with
      | false => exact absurd ((hy.inside hyc).1.trans_le hx.high) (not_lt.2 hle')
      | true =>
        have hge : (y.interval.low : ℚ) * y.quarter ≤ x.interval.high * x.quarter :=
          hy.low.trans hx.high
        exact absurd ((hends ..).1 hge) (not_le.2 (hlt hxc hyc))
  rcases Nat.lt_trichotomy x.magnitude y.magnitude with h | h | h
  · exact (hlt h hx hy).elim
  · exact h
  · exact (hlt h hy hx).elim

/-- Numbers with decimals of one value differ in their signs at most. -/
theorem magnitude_eq_of_shortest {x y : Binary64} (h : x.shortest.value = y.shortest.value) :
    x.magnitude = y.magnitude :=
  magnitude_eq_of_near x.shortest_near (h ▸ y.shortest_near)

end Binary64

end DesignSystem
