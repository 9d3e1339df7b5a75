import DesignSystem.Platform
import Mathlib.Data.List.DropRight

/-!
# Lowercase and trimmed texts

`IsLower c`: lowercasing keeps `c` wherever it stands.

* `isSettled_lowerRuns`: no character of the table is mapped to one that is mapped further.
* `lower_lower`, `trim_lower_trim`: lowercasing twice is lowercasing once, and a trimmed text in
  lowercase is trimmed.
* `PlatformId.ofText_text`: a platform's identifier stands for itself.
-/

set_option autoImplicit false

namespace DesignSystem.Text

/-! ## The table of lowercase characters -/

namespace CaseRun

/-- The least character that a run maps to. -/
def low (r : CaseRun) : Nat := (r.first + r.shift).toNat

/-- The greatest character that a run maps to. -/
def high (r : CaseRun) : Nat := (r.last + r.shift).toNat

/-- No character that `r` maps to belongs to `r'`: they lie apart, or one has the even and the
other the odd characters. -/
def avoids (r r' : CaseRun) : Bool :=
  r.high.blt r'.first || r'.last.blt r.low ||
    (r.stride == 2 || r.first == r.last) && r'.stride == 2 && (r.low + r'.first) % 2 == 1

/-- What `r` maps to are characters, none of them blank, that are not mapped any further. -/
def isSettled (r : CaseRun) : Bool :=
  0 ≤ r.first + r.shift && (Nat.ble 128 r.low || Nat.ble 97 r.low && Nat.ble r.high 122) &&
    (r.high.blt 0xd800 || Nat.blt 0xdfff r.low && r.high.blt 0x110000) &&
    (blankRanges.all fun range => r.high.blt range.1 || range.2.blt r.low) &&
    (lowerExpansions.all fun e => r.high.blt e.1 || Nat.blt e.1 r.low) && lowerRuns.all r.avoids

end CaseRun

theorem isSettled_lowerRuns : lowerRuns.all CaseRun.isSettled = true := by decide +kernel


/-- What a run maps a character to. -/
theorem CaseRun.eq_of_shift? {r : CaseRun} {n m : Nat} (h : r.shift? n = some m) :
    r.first ≤ n ∧ n ≤ r.last ∧ (n - r.first) % r.stride = 0 ∧ m = (n + r.shift).toNat := by
  unfold CaseRun.shift? at h
  split at h
  · next hn => exact ⟨hn.1, hn.2.1, hn.2.2, (Option.some.inj h).symm⟩
  · cases h

theorem CaseRun.mem_of_shift? {r : CaseRun} {n m : Nat} (h : r.shift? n = some m) :
    r.low ≤ m ∧ m ≤ r.high := by
  obtain ⟨hfirst, hlast, -, rfl⟩ := eq_of_shift? h
  unfold low high
  omega

theorem CaseRun.shift?_eq_none_of_avoids {r r' : CaseRun} {n m : Nat} (hr : 0 ≤ r.first + r.shift)
    (h : r.avoids r' = true) (hm : r.shift? n = some m) : r'.shift? m = none := by
  obtain ⟨hlow, hhigh⟩ := mem_of_shift? hm
  obtain ⟨hfirst, hlast, hstride, rfl⟩ := eq_of_shift? hm
  have hne : ¬ (r'.first ≤ (n + r.shift).toNat ∧ (n + r.shift).toNat ≤ r'.last ∧
      ((n + r.shift).toNat - r'.first) % r'.stride = 0) := by
    simp only [avoids, Bool.or_eq_true, Bool.and_eq_true, Nat.blt_eq, beq_iff_eq] at h
    rintro ⟨hfirst', hlast', hstride'⟩
    rcases h with (h | h) | ⟨⟨heven, htwo⟩, hodd⟩
    · omega
    · omega
    · rw [htwo] at hstride'
      unfold low at hodd
      rcases heven with heven | heven
      · rw [heven] at hstride
        omega
      · omega
  rw [shift?, if_neg hne]

theorem toNat_ofNat {n : Nat} (h : n < 0xd800 ∨ 0xdfff < n ∧ n < 0x110000) :
    (Char.ofNat n).toNat = n := by
  have hvalid : n.isValidChar := by
    rcases h with h | ⟨h, h'⟩
    · exact .inl h
    · exact .inr ⟨h, h'⟩
  rw [Char.ofNat, dif_pos hvalid]
  rfl


/-! ## Lowercase characters -/

/-- A character that lowercasing keeps. -/
def IsLower (c : Char) : Prop := c ≠ 'Σ' ∧ lowerChar c = [c]

/-- The character with a number is not mapped to another one. -/
def isFixed (n : Nat) : Bool :=
  if n < 128 then n.blt 65 || Nat.blt 90 n
  else (lowerExpansions.all fun e => e.1 != n) && lowerRuns.all fun r => (r.shift? n).isNone

theorem isLower_ofNat {n : Nat} (hvalid : n < 0xd800 ∨ 0xdfff < n ∧ n < 0x110000)
    (h : isFixed n = true) : IsLower (Char.ofNat n) := by
  have hnat := toNat_ofNat hvalid
  unfold isFixed at h
  split at h
  · next hlt =>
    have hascii : ∀ k < 128, (k.blt 65 || Nat.blt 90 k) = true →
        (Char.ofNat k).toLower = Char.ofNat k := by decide
    refine ⟨fun heq => ?_, ?_⟩
    · rw [heq] at hnat
      exact absurd (hnat ▸ hlt) (by decide)
    · rw [lowerChar, hnat, if_pos hlt, hascii n hlt h]
  · next hge =>
    obtain ⟨hexpansions, hruns⟩ := Bool.and_eq_true_iff.1 h
    have hfind : lowerExpansions.find? (·.1 == n) = none :=
      List.find?_eq_none.2 fun e he => by simpa using List.all_eq_true.1 hexpansions e he
    have hshift : lowerRuns.findSome? (·.shift? n) = none :=
      List.findSome?_eq_none_iff.2 fun r hr => by simpa using List.all_eq_true.1 hruns r hr
    refine ⟨fun heq => ?_, ?_⟩
    · -- a capital sigma belongs to a run
      have hsigma : (lowerRuns.all fun r => (r.shift? 'Σ'.toNat).isNone) = false := by
        decide +kernel
      rw [← hnat, heq, hsigma] at hruns
      cases hruns
    · rw [lowerChar, hnat, if_neg hge, mapCase, hnat, hfind, hshift]

theorem isLower_of_isFixed {c : Char} (h : isFixed c.toNat = true) : IsLower c := by
  have hvalid : c.toNat < 0xd800 ∨ 0xdfff < c.toNat ∧ c.toNat < 0x110000 := c.valid
  simpa using isLower_ofNat hvalid h

/-- What a run maps to is lowercase and not blank. -/
theorem isLower_of_shift? {r : CaseRun} {n m : Nat} (hr : r ∈ lowerRuns)
    (h : r.shift? n = some m) : IsLower (Char.ofNat m) ∧ isBlankChar (Char.ofNat m) = false := by
  have hsettled := List.all_eq_true.1 isSettled_lowerRuns r hr
  simp only [CaseRun.isSettled, Bool.and_eq_true, Bool.or_eq_true, decide_eq_true_eq, Nat.blt_eq,
    Nat.ble_eq, List.all_eq_true] at hsettled
  obtain ⟨⟨⟨⟨⟨hpos, hascii⟩, hvalid⟩, hblank⟩, hexpansions⟩, havoids⟩ := hsettled
  obtain ⟨hlow, hhigh⟩ := CaseRun.mem_of_shift? h
  have hcode : m < 0xd800 ∨ 0xdfff < m ∧ m < 0x110000 := by omega
  have hfixed : isFixed m = true := by
    unfold isFixed
    split
    · simp only [Bool.or_eq_true, Nat.blt_eq]
      omega
    · simp only [Bool.and_eq_true, List.all_eq_true, bne_iff_ne, Option.isNone_iff_eq_none]
      refine ⟨fun e he => ?_, fun r' hr' => ?_⟩
      · have hapart := hexpansions e he
        omega
      · exact CaseRun.shift?_eq_none_of_avoids hpos (havoids r' hr') h
  refine ⟨isLower_ofNat hcode hfixed, ?_⟩
  rw [isBlankChar, toNat_ofNat hcode, inRanges, List.any_eq_false]
  intro range hrange
  have hapart := hblank range hrange
  simp only [Bool.and_eq_true, decide_eq_true_eq]
  omega

/-- What a character is mapped to is lowercase, and blank only if the character is. -/
theorem isLower_of_mem_lowerChar {c d : Char} (hc : c ≠ 'Σ') (hd : d ∈ lowerChar c) :
    IsLower d ∧ (isBlankChar c = false → isBlankChar d = false) := by
  by_cases hascii : c.toNat < 128
  · rw [lowerChar, if_pos hascii, List.mem_singleton] at hd
    subst hd
    have hall : ∀ k < 128, isFixed (Char.ofNat k).toLower.toNat = true ∧
        (isBlankChar (Char.ofNat k) = false → isBlankChar (Char.ofNat k).toLower = false) := by
      decide +kernel
    obtain ⟨hfixed, hblank⟩ := hall c.toNat hascii
    rw [Char.ofNat_toNat] at hfixed hblank
    exact ⟨isLower_of_isFixed hfixed, hblank⟩
  · have hlower : lowerChar c = mapCase lowerExpansions lowerRuns c := if_neg hascii
    have hmap := hlower ▸ hd
    unfold mapCase at hmap
    split at hmap
    · next several hfind =>
      have hall : ∀ e ∈ lowerExpansions, ∀ n ∈ e.2, isFixed (Char.ofNat n).toNat = true ∧
          isBlankChar (Char.ofNat n) = false := by decide +kernel
      obtain ⟨n, hn, rfl⟩ := List.mem_map.1 hmap
      obtain ⟨hfixed, hblank⟩ := hall _ (List.mem_of_find?_eq_some hfind) n hn
      exact ⟨isLower_of_isFixed hfixed, fun _ => hblank⟩
    · next hfind =>
      split at hmap
      · next one hone =>
        obtain ⟨r, hr, hshift⟩ := List.exists_of_findSome?_eq_some hone
        obtain rfl := List.mem_singleton.1 hmap
        obtain ⟨hl, hb⟩ := isLower_of_shift? hr hshift
        exact ⟨hl, fun _ => hb⟩
      · next hnone =>
        obtain rfl := List.mem_singleton.1 hmap
        refine ⟨⟨hc, ?_⟩, fun hb => hb⟩
        rw [hlower, mapCase, hfind, hnone]

theorem lowerChar_ne_nil (c : Char) : lowerChar c ≠ [] := by
  unfold lowerChar
  split
  · exact List.cons_ne_nil _ _
  · unfold mapCase
    split
    · next several hfind =>
      have hall : ∀ e ∈ lowerExpansions, e.2 ≠ [] := by decide
      simpa using hall _ (List.mem_of_find?_eq_some hfind)
    · split
      · exact List.cons_ne_nil _ _
      · exact List.cons_ne_nil _ _

/-! ## Lowercase texts -/

/-- A character in its context is mapped to characters that are lowercase. -/
theorem lowerList_cons (before cs : List Char) (c : Char) : ∃ ds,
    lowerList before (c :: cs) = ds ++ lowerList (c :: before) cs ∧ ds ≠ [] ∧
      ∀ d ∈ ds, IsLower d ∧ (isBlankChar c = false → isBlankChar d = false) := by
  have hfinal : isFixed 'ς'.toNat = true ∧ isBlankChar 'ς' = false := by decide +kernel
  have hinner : isFixed 'σ'.toNat = true ∧ isBlankChar 'σ' = false := by decide +kernel
  rw [lowerList]
  by_cases hc : c = 'Σ'
  · rw [if_pos hc]
    split
    · refine ⟨['ς'], rfl, List.cons_ne_nil _ _, fun d hd => ?_⟩
      obtain rfl := List.mem_singleton.1 hd
      exact ⟨isLower_of_isFixed hfinal.1, fun _ => hfinal.2⟩
    · refine ⟨['σ'], rfl, List.cons_ne_nil _ _, fun d hd => ?_⟩
      obtain rfl := List.mem_singleton.1 hd
      exact ⟨isLower_of_isFixed hinner.1, fun _ => hinner.2⟩
  · rw [if_neg hc]
    exact ⟨lowerChar c, rfl, lowerChar_ne_nil c, fun d hd => isLower_of_mem_lowerChar hc hd⟩

theorem isLower_of_mem_lowerList {before cs : List Char} {d : Char}
    (h : d ∈ lowerList before cs) : IsLower d := by
  induction cs generalizing before with
  | nil => cases h
  | cons c cs ih =>
    obtain ⟨ds, heq, -, hds⟩ := lowerList_cons before cs c
    rw [heq] at h
    rcases List.mem_append.1 h with h | h
    · exact (hds d h).1
    · exact ih h

theorem lowerList_of_isLower {cs : List Char} (h : ∀ c ∈ cs, IsLower c) (before : List Char) :
    lowerList before cs = cs := by
  induction cs generalizing before with
  | nil => rfl
  | cons c cs ih =>
    obtain ⟨hsigma, hlower⟩ := h c (.head _)
    rw [lowerList, if_neg hsigma, hlower, ih fun d hd => h d (.tail _ hd)]
    rfl


/-! ## Trimmed texts -/

/-- Neither the first nor the last character is blank. -/
structure Trimmed (cs : List Char) : Prop where
  first : ∀ c, cs.head? = some c → isBlankChar c = false
  last : ∀ c, cs.getLast? = some c → isBlankChar c = false

theorem dropTrailing_eq (p : Char → Bool) (cs : List Char) :
    dropTrailing p cs = cs.rdropWhile p := rfl

theorem trimmed_trim (s : String) : Trimmed (trim s).toList := by
  rw [trim, String.toList_ofList, dropTrailing_eq]
  constructor
  · intro c hc
    obtain ⟨rest, hrest⟩ := List.rdropWhile_prefix isBlankChar (s.toList.dropWhile isBlankChar)
    have hhead : (s.toList.dropWhile isBlankChar).head? = some c := by
      rw [← hrest, List.head?_append, hc]
      rfl
    rw [← List.find?_not_eq_head?_dropWhile] at hhead
    simpa using List.find?_some hhead
  · intro c hc
    have hne : (s.toList.dropWhile isBlankChar).rdropWhile isBlankChar ≠ [] := by
      intro hnil
      rw [hnil] at hc
      cases hc
    rw [List.getLast?_eq_some_getLast hne, Option.some.injEq] at hc
    simpa [hc] using List.rdropWhile_last_not isBlankChar _ hne

theorem trim_of_trimmed {s : String} (h : Trimmed s.toList) : trim s = s := by
  have hfront : s.toList.dropWhile isBlankChar = s.toList := by
    cases hs : s.toList with
    | nil => rfl
    | cons c cs => rw [List.dropWhile_cons_of_neg (by simp [h.first c (by rw [hs]; rfl)])]
  have hback : s.toList.rdropWhile isBlankChar = s.toList :=
    List.rdropWhile_eq_self_iff.2 fun hne => by
      simp [h.last _ (List.getLast?_eq_some_getLast hne)]
  rw [trim, hfront, dropTrailing_eq, hback, String.ofList_toList]

/-- The first character is not blank. -/
def StartsVisible (s : String) : Prop := ∃ c ∈ s.toList.head?, isBlankChar c = false

namespace StartsVisible

variable {s t : String}

theorem append (h : StartsVisible s) (t : String) : StartsVisible (s ++ t) := by
  obtain ⟨c, hc, hvisible⟩ := h
  exact ⟨c, by rw [String.toList_append]; exact List.mem_head?_append_of_mem_head? hc, hvisible⟩

theorem dropWhile_eq (h : StartsVisible s) : s.toList.dropWhile isBlankChar = s.toList := by
  obtain ⟨c, hc, hvisible⟩ := h
  obtain ⟨rest, hchars⟩ := List.head?_eq_some_iff.1 hc
  rw [hchars, List.dropWhile_cons_of_neg (by simp [hvisible])]

/-- It is trimmed at its end only. -/
theorem trim_isPrefix (h : StartsVisible s) : (trim s).toList <+: s.toList := by
  rw [trim, String.toList_ofList, h.dropWhile_eq, dropTrailing_eq]
  exact List.rdropWhile_prefix isBlankChar s.toList

theorem trim_append (hs : StartsVisible s) (ht : StartsVisible t) : trim (s ++ t) = s ++ trim t := by
  -- trimming stops within the second text, at its first character at the latest
  have hstop : ¬ (t.toList.reverse.dropWhile isBlankChar).isEmpty := by
    obtain ⟨c, hc, hvisible⟩ := ht
    rw [List.isEmpty_iff, List.dropWhile_eq_nil_iff]
    intro hall
    have hblank := hall c (List.mem_reverse.2 (List.mem_of_mem_head? hc))
    rw [hvisible] at hblank
    cases hblank
  rw [← String.toList_inj, trim, (hs.append t).dropWhile_eq, String.toList_append,
    String.toList_append, trim, ht.dropWhile_eq, String.toList_ofList, String.toList_ofList,
    dropTrailing, List.reverse_append, List.dropWhile_append, if_neg hstop, List.reverse_append,
    List.reverse_reverse]
  rfl

end StartsVisible

theorem lowerList_ne_nil {before cs : List Char} (h : cs ≠ []) : lowerList before cs ≠ [] := by
  cases cs with
  | nil => exact absurd rfl h
  | cons c cs =>
    obtain ⟨ds, heq, hne, -⟩ := lowerList_cons before cs c
    rw [heq]
    simp [hne]

/-- Lowercasing keeps a text trimmed. -/
theorem Trimmed.lowerList {cs : List Char} (h : Trimmed cs) (before : List Char) :
    Trimmed (lowerList before cs) := by
  constructor
  · cases cs with
    | nil => nofun
    | cons c cs =>
      intro d hd
      obtain ⟨ds, heq, hne, hds⟩ := lowerList_cons before cs c
      rw [heq, List.head?_append_of_ne_nil _ hne] at hd
      exact (hds d (List.mem_of_mem_head? hd)).2 (h.first c rfl)
  · have hlast := h.last
    clear h
    induction cs generalizing before with
    | nil => nofun
    | cons c cs ih =>
      intro d hd
      obtain ⟨ds, heq, hne, hds⟩ := lowerList_cons before cs c
      rw [heq] at hd
      cases cs with
      | nil =>
        rw [Text.lowerList, List.append_nil] at hd
        exact (hds d (List.mem_of_mem_getLast? hd)).2 (hlast c rfl)
      | cons c' cs =>
        rw [List.getLast?_append_of_ne_nil _ (lowerList_ne_nil (List.cons_ne_nil c' cs))] at hd
        exact ih _ (fun e he => hlast e (by rwa [List.getLast?_cons_cons])) d hd

theorem lower_lower (s : String) : lower (lower s) = lower s := by
  have hall : ∀ c ∈ (lower s).toList, IsLower c := by
    rw [lower, String.toList_ofList]
    exact fun c hc => isLower_of_mem_lowerList hc
  calc lower (lower s) = .ofList (lowerList [] (lower s).toList) := rfl
    _ = .ofList (lower s).toList := by rw [lowerList_of_isLower hall]
    _ = lower s := String.ofList_toList

theorem trim_lower_trim (s : String) : trim (lower (trim s)) = lower (trim s) := by
  refine trim_of_trimmed ?_
  rw [lower, String.toList_ofList]
  exact (trimmed_trim s).lowerList []

end DesignSystem.Text

namespace DesignSystem

/-- A platform's identifier stands for itself. -/
theorem PlatformId.ofText_text (s : String) : ofText (ofText s).text = ofText s := by
  refine congrArg PlatformId.mk ?_
  change Text.lower (Text.trim (Text.lower (Text.trim s))) = Text.lower (Text.trim s)
  rw [Text.trim_lower_trim, Text.lower_lower]

end DesignSystem
