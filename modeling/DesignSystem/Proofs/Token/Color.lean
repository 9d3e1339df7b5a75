import DesignSystem.Proofs.Entries
import DesignSystem.Token.Kind
import Mathlib.Data.List.Forall2

/-!
# Colors

A color is read from the hexadecimal digits of its text. It is one number of 32 bits, opacity first,
and the eight digits of that number are what constants are written with.

* `Color.ofText?_eq_some_iff`: the texts of colors, digit by digit.
* `Color.packed?_eq`: the digits put together, with the opacity turned to the front, are the number
  of the color.
* `Color.toList_hexDigits`: the digits of a color are those of its number.
* `color_channels`: a text in the form of a color is one, and keeps all its digits; no other text is.
-/

set_option autoImplicit false

namespace DesignSystem.Token

/-! ## Hexadecimal digits -/

/-- A digit, or a letter from `a` to `f` in either case. -/
def isHexDigit (c : Char) : Bool :=
  c.isDigit || ('a' ≤ c && c ≤ 'f') || ('A' ≤ c && c ≤ 'F')

/-- The last digits of a number, in upper case. -/
def upperHex : Nat → Nat → List Char
  | 0, _ => []
  | width + 1, n => upperHex width (n / 16) ++ [(Nat.digitChar (n % 16)).toUpper]

theorem isSome_hexDigitValue? (c : Char) : (hexDigitValue? c).isSome = isHexDigit c := by
  unfold hexDigitValue? isHexDigit
  split_ifs with hdigit hlower hupper
  · simp [hdigit]
  · simp [hlower]
  · simp [hupper]
  · simp only [hdigit, Bool.false_or, Option.isSome_none, Bool.false_eq, Bool.or_eq_false_iff]
    exact ⟨by simpa using hlower, by simpa using hupper⟩

/-- A digit is told by its value, up to case. -/
theorem hexDigitValue?_eq_some {c : Char} {n : Nat} (h : hexDigitValue? c = some n) :
    n < 16 ∧ (Nat.digitChar n).toUpper = c.toUpper := by
  have hascii : ∀ k < 128, ∀ n ∈ hexDigitValue? (Char.ofNat k),
      n < 16 ∧ (Nat.digitChar n).toUpper = (Char.ofNat k).toUpper := by decide
  have hlt : c.toNat < 128 := by
    have hle : ∀ {d : Char}, c ≤ d → c.toNat ≤ d.toNat := fun hcd => UInt32.le_iff_toNat_le.1 hcd
    have hlast : c ≤ '9' ∨ c ≤ 'f' ∨ c ≤ 'F' := by
      unfold hexDigitValue? at h
      split_ifs at h with hdigit hlower hupper
      · exact .inl (of_decide_eq_true (Bool.and_eq_true_iff.1 hdigit).2)
      · exact .inr (.inl hlower.2)
      · exact .inr (.inr hupper.2)
    rcases hlast with hlast | hlast | hlast
    all_goals exact Nat.lt_of_le_of_lt (hle hlast) (by decide)
  have hc := hascii c.toNat hlt n
  rw [Char.ofNat_toNat] at hc
  exact hc h

theorem upperHex_channel (width n : Nat) {channel : Nat} (h : channel < 256) :
    upperHex (width + 2) (256 * n + channel) = upperHex width n ++ Color.channelDigits channel := by
  have hrest : (256 * n + channel) / 16 / 16 = n := by omega
  have hhigh : (256 * n + channel) / 16 % 16 = channel / 16 := by omega
  have hlow : (256 * n + channel) % 16 = channel % 16 := by omega
  rw [upperHex, upperHex, hrest, hhigh, hlow, List.append_assoc]
  rfl

namespace Color

/-! ## The number of a color -/

/-- All channels in one number: the opacity in the highest byte, then red, green and blue. -/
def argb (c : Color) : BitVec 32 :=
  .ofNat 32 (256 * (256 * (256 * c.alpha + c.red) + c.green) + c.blue)

/-- The digits of a number put together. -/
def digitsNumber (values : List Nat) : BitVec 32 :=
  values.foldl (fun n v => 16#32 * n + .ofNat 32 v) 0

/-- The number of a color from the values of its digits. A single digit per channel is doubled. A
color without an opacity is opaque; else the opacity is turned from the lowest byte to the highest. -/
def packed? (values : List Nat) : Option (BitVec 32) :=
  let pairs := if values.length = 3 then values.flatMap fun v => [v, v] else values
  let n := digitsNumber pairs
  match pairs.length with
  | 6 => some (0xff000000#32 ||| n)
  | 8 => some (n >>> 8 ||| (n &&& 0xff#32) <<< 24)
  | _ => none

theorem toNat_argb {alpha red green blue : Nat} (halpha : alpha < 256) (hred : red < 256)
    (hgreen : green < 256) (hblue : blue < 256) : (argb ⟨alpha, red, green, blue⟩).toNat =
      256 * (256 * (256 * alpha + red) + green) + blue := by
  rw [argb, BitVec.toNat_ofNat, Nat.mod_eq_of_lt]
  dsimp only
  omega

/-- Setting the bits of the highest byte, where none is set, adds them. -/
theorem toNat_opaque {n : BitVec 32} (h : n.toNat < 0x1000000) :
    (0xff000000#32 ||| n).toNat = 0x1000000 * 255 + n.toNat := by
  rw [BitVec.toNat_or]
  exact (Nat.two_pow_add_eq_or_of_lt (i := 24) h 255).symm

/-- The lowest byte is turned to the front. -/
theorem toNat_turned (n : BitVec 32) :
    (n >>> 8 ||| (n &&& 0xff#32) <<< 24).toNat =
      0x1000000 * (n.toNat % 256) + n.toNat / 256 := by
  have hn := n.isLt
  have hlow : (n &&& 0xff#32).toNat = n.toNat % 256 := by
    rw [BitVec.toNat_and]
    exact Nat.and_two_pow_sub_one_eq_mod n.toNat 8
  have hhigh : (n.toNat % 256) <<< 24 % 2 ^ 32 = 2 ^ 24 * (n.toNat % 256) := by
    rw [Nat.shiftLeft_eq]
    omega
  rw [BitVec.toNat_or, BitVec.toNat_ushiftRight, BitVec.toNat_shiftLeft, hlow, hhigh, Nat.or_comm,
    Nat.shiftRight_eq_div_pow]
  exact (Nat.two_pow_add_eq_or_of_lt (i := 24) (by omega) (n.toNat % 256)).symm

theorem packed?_six {r r' g g' b b' : Nat} (h : ∀ v ∈ [r, r', g, g', b, b'], v < 16) :
    packed? [r, r', g, g', b, b'] = (ofDigits? [r, r', g, g', b, b']).map argb := by
  simp only [List.forall_mem_cons] at h
  have hn : (digitsNumber [r, r', g, g', b, b']).toNat =
      256 * (256 * (16 * r + r') + (16 * g + g')) + (16 * b + b') := by
    simp only [digitsNumber, List.foldl_cons, List.foldl_nil]
    bv_omega
  have hfull := toNat_opaque (n := digitsNumber [r, r', g, g', b, b']) (by omega)
  refine congrArg some (BitVec.eq_of_toNat_eq (hfull.trans ?_))
  rw [hn, toNat_argb (by omega) (by omega) (by omega) (by omega)]
  omega

theorem packed?_eight {r r' g g' b b' a a' : Nat}
    (h : ∀ v ∈ [r, r', g, g', b, b', a, a'], v < 16) :
    packed? [r, r', g, g', b, b', a, a'] =
      (ofDigits? [r, r', g, g', b, b', a, a']).map argb := by
  simp only [List.forall_mem_cons] at h
  have hn : (digitsNumber [r, r', g, g', b, b', a, a']).toNat =
      256 * (256 * (256 * (16 * r + r') + (16 * g + g')) + (16 * b + b')) + (16 * a + a') := by
    simp only [digitsNumber, List.foldl_cons, List.foldl_nil]
    bv_omega
  have hturned := toNat_turned (digitsNumber [r, r', g, g', b, b', a, a'])
  refine congrArg some (BitVec.eq_of_toNat_eq (hturned.trans ?_))
  rw [hn, toNat_argb (by omega) (by omega) (by omega) (by omega)]
  omega

/-- The number of a color from its digits is that of its channels. -/
theorem packed?_eq : ∀ {values : List Nat}, (∀ v ∈ values, v < 16) →
    packed? values = (ofDigits? values).map argb
  | [r, g, b], h => by
    have hdoubled : ofDigits? [r, g, b] = ofDigits? [r, r, g, g, b, b] := by
      have hdouble : ∀ v : Nat, 17 * v = 16 * v + v := by omega
      simp only [ofDigits?, hdouble]
    rw [hdoubled]
    have hpairs : ∀ v ∈ [r, r, g, g, b, b], v < 16 := fun v hv => h v (by simpa using hv)
    exact packed?_six hpairs
  | [_, _, _, _, _, _], h => packed?_six h
  | [_, _, _, _, _, _, _, _], h => packed?_eight h
  | [], _ | [_], _ | [_, _], _ | [_, _, _, _], _ | [_, _, _, _, _], _ | [_, _, _, _, _, _, _], _ => rfl
  | _ :: _ :: _ :: _ :: _ :: _ :: _ :: _ :: _ :: rest, _ => by
    simp [packed?, ofDigits?]

/-- The digits of a color are those of its number. -/
theorem toList_hexDigits {c : Color} (h : ∀ n ∈ [c.alpha, c.red, c.green, c.blue], n < 256) :
    c.hexDigits.toList = upperHex 8 c.argb.toNat := by
  obtain ⟨alpha, red, green, blue⟩ := c
  simp only [List.forall_mem_cons] at h
  obtain ⟨halpha, hred, hgreen, hblue, -⟩ := h
  rw [toNat_argb halpha hred hgreen hblue]
  have hfirst : upperHex 2 alpha = channelDigits alpha := by
    simpa [upperHex] using upperHex_channel 0 0 halpha
  rw [upperHex_channel 6 _ hblue, upperHex_channel 4 _ hgreen, upperHex_channel 2 _ hred, hfirst]
  simp [hexDigits]

/-! ## Texts of colors -/

theorem ofText?_eq_some_iff {s : String} {c : Color} : ofText? s = some c ↔
    ∃ digits values, s.toList = '#' :: digits ∧ digits.mapM hexDigitValue? = some values ∧
      ofDigits? values = some c := by
  unfold ofText?
  split
  · next digits hs => simp [hs, Option.bind_eq_some_iff]
  · next hne =>
    refine iff_of_false nofun ?_
    rintro ⟨digits, -, hs, -⟩
    exact hne digits hs

theorem values_lt {digits : List Char} {values : List Nat}
    (h : digits.mapM hexDigitValue? = some values) : ∀ v ∈ values, v < 16 := by
  intro v hv
  obtain ⟨d, -, hd⟩ := mem_of_mapM_eq_some h hv
  exact (hexDigitValue?_eq_some hd).1

theorem ofDigits?_lt {values : List Nat} {c : Color} (hlt : ∀ v ∈ values, v < 16)
    (h : ofDigits? values = some c) : ∀ n ∈ [c.alpha, c.red, c.green, c.blue], n < 256 := by
  unfold ofDigits? at h
  split at h
  all_goals cases h
  all_goals
    simp only [List.forall_mem_cons] at hlt ⊢
    refine ⟨?_, ?_, ?_, ?_, List.forall_mem_nil _⟩ <;> omega

/-- All channels are below 256. -/
theorem channels_lt {s : String} {c : Color} (h : ofText? s = some c) :
    ∀ n ∈ [c.alpha, c.red, c.green, c.blue], n < 256 := by
  obtain ⟨digits, values, -, hvalues, hc⟩ := ofText?_eq_some_iff.1 h
  exact ofDigits?_lt (values_lt hvalues) hc

theorem isSome_ofDigits?_iff : ∀ {values : List Nat},
    (ofDigits? values).isSome ↔ values.length ∈ [3, 6, 8]
  | [] | [_] | [_, _] | [_, _, _] | [_, _, _, _] | [_, _, _, _, _] | [_, _, _, _, _, _]
  | [_, _, _, _, _, _, _] | [_, _, _, _, _, _, _, _] => by simp [ofDigits?]
  | _ :: _ :: _ :: _ :: _ :: _ :: _ :: _ :: _ :: rest => by simp [ofDigits?]

/-- The digits of a color's text in the order of its number: opacity, red, green, blue. A single
digit per channel stands twice, and a color without an opacity has the greatest. -/
def channelOrder? : List Char → Option (List Char)
  | [r, g, b] => some ['F', 'F', r, r, g, g, b, b]
  | [r, r', g, g', b, b'] => some ['F', 'F', r, r', g, g', b, b']
  | [r, r', g, g', b, b', a, a'] => some [a, a', r, r', g, g', b, b']
  | _ => none

theorem channelDigits_eq {high low : Nat} {d d' : Char} (h : hexDigitValue? d = some high)
    (h' : hexDigitValue? d' = some low) :
    channelDigits (16 * high + low) = [d.toUpper, d'.toUpper] := by
  obtain ⟨hlt, hd⟩ := hexDigitValue?_eq_some h
  obtain ⟨hlt', hd'⟩ := hexDigitValue?_eq_some h'
  have hquotient : (16 * high + low) / 16 = high := by omega
  have hremainder : (16 * high + low) % 16 = low := by omega
  rw [channelDigits, hquotient, hremainder, hd, hd']

/-- A color has the digits of its text. -/
theorem channelOrder?_eq {digits : List Char} {values : List Nat} {c : Color}
    (h : digits.mapM hexDigitValue? = some values) (hc : ofDigits? values = some c) :
    (channelOrder? digits).map (List.map Char.toUpper) = some c.hexDigits.toList := by
  have hfull : channelDigits 255 = ['F', 'F'] := by decide
  have hdouble : ∀ v : Nat, 17 * v = 16 * v + v := by omega
  have hvalues := forall₂_of_mapM_eq_some h
  unfold ofDigits? at hc
  split at hc
  · cases hc
    obtain _ | ⟨hr, _ | ⟨hg, _ | ⟨hb, ⟨⟩⟩⟩⟩ := hvalues
    simp [channelOrder?, hexDigits, hdouble, hfull, channelDigits_eq hr hr,
      channelDigits_eq hg hg, channelDigits_eq hb hb]
  · cases hc
    obtain _ | ⟨hr, _ | ⟨hr', _ | ⟨hg, _ | ⟨hg', _ | ⟨hb, _ | ⟨hb', ⟨⟩⟩⟩⟩⟩⟩⟩ := hvalues
    simp [channelOrder?, hexDigits, hfull, channelDigits_eq hr hr', channelDigits_eq hg hg',
      channelDigits_eq hb hb']
  · cases hc
    obtain _ | ⟨hr, _ | ⟨hr', _ | ⟨hg, _ | ⟨hg', _ | ⟨hb, _ | ⟨hb', _ | ⟨ha, _ | ⟨ha', ⟨⟩⟩⟩⟩⟩⟩⟩⟩⟩ :=
      hvalues
    simp [channelOrder?, hexDigits, channelDigits_eq hr hr', channelDigits_eq hg hg',
      channelDigits_eq hb hb', channelDigits_eq ha ha']
  · cases hc

end Color

/-! ## Kinds -/

theorem ofText_eq_color_iff {s : String} {c : Color} :
    ValueKind.ofText s = .color c ↔ Color.ofText? (Text.trim s) = some c := by
  unfold ValueKind.ofText
  dsimp only
  constructor
  · intro h
    split at h
    · next hc =>
      cases h
      exact hc
    · split at h
      · cases h
      · split at h <;> cases h
  · intro h
    rw [h]

theorem exists_values_iff {digits : List Char} :
    (∃ values, digits.mapM hexDigitValue? = some values) ↔ ∀ d ∈ digits, isHexDigit d = true := by
  rw [← Option.isSome_iff_exists, ← Option.ne_none_iff_isSome, Ne, mapM_eq_none_iff]
  simp only [not_exists, not_and, ← isSome_hexDigitValue?, Option.isSome_iff_ne_none]

/-- **Colors keep every channel.** A text that is, but for white space around it, a number sign and
three, six or eight hexadecimal digits is a color, and its number has the digits of the text; no
other text is a color. -/
theorem color_channels (s : String) :
    (∀ digits, (Text.trim s).toList = '#' :: digits → (∀ d ∈ digits, isHexDigit d = true) →
      digits.length ∈ [3, 6, 8] → ∃ c, ValueKind.ofLeaf (.text s) = .color c ∧
        (digits.mapM hexDigitValue?).bind Color.packed? = some c.argb ∧
        c.hexDigits.toList = upperHex 8 c.argb.toNat ∧
        (Color.channelOrder? digits).map (List.map Char.toUpper) =
          some (upperHex 8 c.argb.toNat)) ∧
    ∀ c, ValueKind.ofLeaf (.text s) = .color c → ∃ digits,
      (Text.trim s).toList = '#' :: digits ∧ (∀ d ∈ digits, isHexDigit d = true) ∧
        digits.length ∈ [3, 6, 8] := by
  constructor
  · intro digits hs hhex hlength
    obtain ⟨values, hvalues⟩ := exists_values_iff.2 hhex
    rw [(forall₂_of_mapM_eq_some hvalues).length_eq] at hlength
    obtain ⟨c, hc⟩ := Option.isSome_iff_exists.1 (Color.isSome_ofDigits?_iff.2 hlength)
    have hlt := Color.values_lt hvalues
    have hnumber := Color.toList_hexDigits (Color.ofDigits?_lt hlt hc)
    have hkind : ValueKind.ofText s = .color c :=
      ofText_eq_color_iff.2 (Color.ofText?_eq_some_iff.2 ⟨digits, values, hs, hvalues, hc⟩)
    refine ⟨c, hkind, ?_, hnumber, ?_⟩
    · rw [hvalues, Option.bind_some, Color.packed?_eq hlt, hc, Option.map_some]
    · rw [← hnumber, Color.channelOrder?_eq hvalues hc]
  · intro c hcolor
    have hkind : ValueKind.ofText s = .color c := hcolor
    obtain ⟨digits, values, hs, hvalues, hc⟩ :=
      Color.ofText?_eq_some_iff.1 (ofText_eq_color_iff.1 hkind)
    refine ⟨digits, hs, exists_values_iff.1 ⟨values, hvalues⟩, ?_⟩
    rw [(forall₂_of_mapM_eq_some hvalues).length_eq]
    exact Color.isSome_ofDigits?_iff.1 (Option.isSome_of_mem hc)

theorem color_channels_translucentBlue : ∃ c,
    ValueKind.ofLeaf (.text " #3b82F6c0\n") = .color c ∧
      upperHex 8 c.argb.toNat = "C03B82F6".toList := by
  obtain ⟨c, hc, -, -, hdigits⟩ := (color_channels " #3b82F6c0\n").1 "3b82F6c0".toList
    (by decide +kernel) (by simp [isHexDigit]) (by decide)
  exact ⟨c, hc, (Option.some.inj hdigits).symm⟩

end DesignSystem.Token
