import DesignSystem.Proofs.Reading.Spelling
import DesignSystem.Proofs.Text.Case
import DesignSystem.Proofs.Text.Plain
import DesignSystem.Types.Nominal

/-!
# Names that are words

A name in another style, and a name that is extended for a part of a type, is read as one word if the
name is.

* `isWordChar_of_mem_apply`: no style makes other characters out of those of words.
* `isWord_memberHint` and its companions: the names under which types are declared.
-/

set_option autoImplicit false

namespace DesignSystem

open Reading

namespace Text

/-- What is checked of the first 128 characters holds of each of them. -/
theorem of_ascii {P : Char → Prop} (h : ∀ n < 128, P (Char.ofNat n)) {c : Char} (hc : c.toNat < 128) :
    P c := by
  have hchar := h c.toNat hc
  rwa [Char.ofNat_toNat] at hchar

/-! ## Letter case -/

/-- What a run maps to are characters of words. -/
def CaseRun.isWordly (r : CaseRun) : Bool :=
  (Nat.ble 128 r.low || Nat.ble 65 r.low && Nat.ble r.high 90 ||
      Nat.ble 97 r.low && Nat.ble r.high 122) &&
    (r.high.blt 0xd800 || Nat.blt 0xdfff r.low && r.high.blt 0x110000) &&
    blankRanges.all fun range => r.high.blt range.1 || range.2.blt r.low

theorem isWordChar_of_shift? {r : CaseRun} {n m : Nat} (hr : r.isWordly)
    (h : r.shift? n = some m) : isWordChar (Char.ofNat m) := by
  simp only [CaseRun.isWordly, Bool.and_eq_true, Bool.or_eq_true, Nat.blt_eq, Nat.ble_eq,
    List.all_eq_true] at hr
  obtain ⟨⟨hrange, hvalid⟩, hblank⟩ := hr
  obtain ⟨hlow, hhigh⟩ := CaseRun.mem_of_shift? h
  have hcode : (Char.ofNat m).toNat = m := toNat_ofNat (by omega)
  by_cases hascii : m < 128
  · have hletters : ∀ k < 128, 65 ≤ k ∧ k ≤ 90 ∨ 97 ≤ k ∧ k ≤ 122 → isWordChar (Char.ofNat k) := by
      decide +kernel
    exact hletters m hascii (by omega)
  · have hnotBlank : isBlankChar (Char.ofNat m) = false := by
      rw [isBlankChar, hcode, inRanges, List.any_eq_false]
      intro range hrange
      have hapart := hblank range hrange
      simp only [Bool.and_eq_true, decide_eq_true_eq]
      omega
    rw [isWordChar, hnotBlank, hcode]
    simp
    omega

theorem isWordChar_of_mem_mapCase {expansions : List (Nat × List Nat)} {runs : List CaseRun}
    (he : ∀ e ∈ expansions, ∀ n ∈ e.2, isWordChar (Char.ofNat n)) (hr : ∀ r ∈ runs, r.isWordly)
    {c d : Char} (hc : isWordChar c) (hd : d ∈ mapCase expansions runs c) : isWordChar d := by
  unfold mapCase at hd
  split at hd
  · next several hfind =>
    obtain ⟨n, hn, rfl⟩ := List.mem_map.1 hd
    exact he _ (List.mem_of_find?_eq_some hfind) n hn
  · split at hd
    · next one hone =>
      obtain ⟨r, hmem, hshift⟩ := List.exists_of_findSome?_eq_some hone
      rw [List.mem_singleton.1 hd]
      exact isWordChar_of_shift? (hr r hmem) hshift
    · rwa [List.mem_singleton.1 hd]

theorem isWordChar_of_mem_upperChar {c d : Char} (hc : isWordChar c) (hd : d ∈ upperChar c) :
    isWordChar d := by
  unfold upperChar at hd
  split at hd
  · next hascii =>
    have hall : ∀ n < 128, isWordChar (Char.ofNat n) → isWordChar (Char.ofNat n).toUpper := by
      decide +kernel
    rw [List.mem_singleton.1 hd]
    exact of_ascii (P := fun c => isWordChar c → isWordChar c.toUpper) hall hascii hc
  · refine isWordChar_of_mem_mapCase ?_ ?_ hc hd
    · have hall : (upperExpansions.all fun e => e.2.all fun n => isWordChar (Char.ofNat n)) = true := by
        decide +kernel
      intro e he n hn
      exact List.all_eq_true.1 (List.all_eq_true.1 hall e he) n hn
    · have hall : upperRuns.all CaseRun.isWordly = true := by decide +kernel
      exact List.all_eq_true.1 hall

theorem isWordChar_of_mem_lowerChar {c d : Char} (hc : isWordChar c) (hd : d ∈ lowerChar c) :
    isWordChar d := by
  unfold lowerChar at hd
  split at hd
  · next hascii =>
    have hall : ∀ n < 128, isWordChar (Char.ofNat n) → isWordChar (Char.ofNat n).toLower := by
      decide +kernel
    rw [List.mem_singleton.1 hd]
    exact of_ascii (P := fun c => isWordChar c → isWordChar c.toLower) hall hascii hc
  · refine isWordChar_of_mem_mapCase ?_ ?_ hc hd
    · have hall : (lowerExpansions.all fun e => e.2.all fun n => isWordChar (Char.ofNat n)) = true := by
        decide +kernel
      intro e he n hn
      exact List.all_eq_true.1 (List.all_eq_true.1 hall e he) n hn
    · have hall : lowerRuns.all CaseRun.isWordly = true := by decide +kernel
      exact List.all_eq_true.1 hall

theorem isWordChar_of_mem_lowerList {d : Char} : ∀ {cs before : List Char},
    (∀ c ∈ cs, isWordChar c) → d ∈ lowerList before cs → isWordChar d
  | [], _, _, hd => by cases hd
  | c :: cs, before, h, hd => by
    rw [lowerList] at hd
    rcases List.mem_append.1 hd with hd | hd
    · split at hd
      · -- both forms of a small sigma are letters
        split at hd <;> rw [List.mem_singleton.1 hd] <;> decide
      · exact isWordChar_of_mem_lowerChar (h c List.mem_cons_self) hd
    · exact isWordChar_of_mem_lowerList (fun e he => h e (.tail _ he)) hd

/-! ## Words of a name -/

theorem clustersFrom_flatten : ∀ (cs current : List Char) (state : ClusterState),
    (clustersFrom current state cs).flatten = current.reverse ++ cs
  | [], current, _ => by simp [clustersFrom]
  | c :: cs, current, state => by
    rw [clustersFrom]
    split
    · rw [clustersFrom_flatten]
      simp
    · rw [List.flatten_cons, clustersFrom_flatten]
      rfl

theorem clusters_flatten (cs : List Char) : (clusters cs).flatten = cs := by
  cases cs with
  | nil => rfl
  | cons c cs => exact clustersFrom_flatten cs [c] (.start c)

theorem mem_of_mem_wordsFrom : ∀ {gs : List Cluster} {previous : Cluster} {word w : List Cluster},
    w ∈ wordsFrom previous word gs → ∀ g ∈ w, g ∈ word ∨ g ∈ gs
  | [], _, word, w, hw, g, hg => by
    rw [wordsFrom, List.mem_singleton] at hw
    rw [hw, List.mem_reverse] at hg
    exact .inl hg
  | first :: gs, previous, word, w, hw, g, hg => by
    have hword : w = word.reverse → g ∈ word ∨ g ∈ first :: gs := by
      rintro rfl
      exact .inl (List.mem_reverse.1 hg)
    rw [wordsFrom] at hw
    split at hw
    · rcases List.mem_cons.1 hw with hw | hw
      · exact hword hw
      · rcases mem_of_mem_wordsFrom hw g hg with h | h
        · cases h
        · exact .inr (.tail _ h)
    · split at hw
      · rcases List.mem_cons.1 hw with hw | hw
        · exact hword hw
        · rcases mem_of_mem_wordsFrom hw g hg with h | h
          · exact .inr (List.mem_singleton.1 h ▸ List.mem_cons_self)
          · exact .inr (.tail _ h)
      · rcases mem_of_mem_wordsFrom hw g hg with h | h
        · rcases List.mem_cons.1 h with rfl | h
          · exact .inr List.mem_cons_self
          · exact .inl h
        · exact .inr (.tail _ h)

/-- The characters of a name's words are characters of the name. -/
theorem mem_of_mem_wordsOf {s : String} {w : List Cluster} (hw : w ∈ wordsOf s) {c : Char}
    (hc : c ∈ w.flatten) : c ∈ s.toList := by
  obtain ⟨g, hg, hcg⟩ := List.mem_flatten.1 hc
  have hflat := clusters_flatten s.toList
  unfold wordsOf at hw
  split at hw
  · cases hw
  · next first rest hclusters =>
    rw [hclusters] at hflat
    have hmem : g = first ∨ g ∈ rest := by
      have hw := (List.mem_filter.1 hw).1
      split at hw
      · exact .inr ((mem_of_mem_wordsFrom hw g hg).resolve_left List.not_mem_nil)
      · exact (mem_of_mem_wordsFrom hw g hg).imp List.mem_singleton.1 id
    rw [← hflat]
    exact List.mem_flatten.2 ⟨g, List.mem_cons.2 hmem, hcg⟩

theorem isWordChar_of_mem_wordCase {w : List Cluster} (h : ∀ c ∈ w.flatten, isWordChar c)
    (style : WordCase) {d : Char} (hd : d ∈ style.apply w) : isWordChar d := by
  have hupper : ∀ {cs : List Char}, (∀ c ∈ cs, isWordChar c) → d ∈ cs.flatMap upperChar →
      isWordChar d := by
    intro cs hcs hd
    obtain ⟨c, hc, hd⟩ := List.mem_flatMap.1 hd
    exact isWordChar_of_mem_upperChar (hcs c hc) hd
  cases style with
  | lower => exact isWordChar_of_mem_lowerList h hd
  | upper => exact hupper h hd
  | capital =>
    cases w with
    | nil => cases hd
    | cons first rest =>
      rw [List.flatten_cons] at h
      obtain ⟨hfirst, hrest⟩ := List.forall_mem_append.1 h
      rcases List.mem_append.1 hd with hd | hd
      · exact hupper hfirst hd
      · exact isWordChar_of_mem_lowerList hrest hd

/-- A style makes characters of words out of such. -/
theorem isWordChar_of_mem_apply {style : NamingStyle} {s : String}
    (hsep : ∀ c ∈ style.separator.toList, isWordChar c) (h : ∀ c ∈ s.toList, isWordChar c) :
    ∀ d ∈ (style.apply s).toList, isWordChar d := by
  have hword : ∀ w ∈ wordsOf s, ∀ (wordCase : WordCase), ∀ d ∈ wordCase.apply w, isWordChar d :=
    fun w hw wordCase d hd => isWordChar_of_mem_wordCase (fun c hc => h c (mem_of_mem_wordsOf hw hc)) _ hd
  intro d hd
  unfold NamingStyle.apply at hd
  split at hd
  · cases hd
  · next first rest hwords =>
    rw [hwords] at hword
    rcases mem_join hd with hd | ⟨item, hitem, hd⟩
    · exact hsep d hd
    · rcases List.mem_cons.1 hitem with rfl | hitem
      · rw [String.toList_ofList] at hd
        exact hword first List.mem_cons_self _ d hd
      · obtain ⟨w, hw, rfl⟩ := List.mem_map.1 hitem
        rw [String.toList_ofList] at hd
        exact hword w (.tail _ hw) _ d hd

end Text

/-! ## Extended names -/

namespace Reading

theorem isWordChar_of_isWord {name : String} (h : isWord name) : ∀ c ∈ name.toList, isWordChar c := by
  obtain ⟨c, cs, hname, -, hall⟩ := exists_of_isWord h
  rwa [hname]

theorem isWord_append {name more : String} (h : isWord name)
    (hmore : ∀ c ∈ more.toList, isWordChar c) : isWord (name ++ more) := by
  obtain ⟨c, cs, hname, hdigit, hall⟩ := exists_of_isWord h
  rw [isWord, String.toList_append, hname, List.cons_append]
  simp only [Bool.and_eq_true, Bool.not_eq_true', List.all_eq_true]
  refine ⟨by simpa using hdigit, ?_⟩
  rw [← List.cons_append]
  exact List.forall_mem_append.2 ⟨hall, hmore⟩

end Reading

namespace NominalLanguage

variable {hint : String}

theorem isWord_memberHint (h : isWord hint) {name : String} (hname : isWord name) :
    isWord (memberHint hint name) :=
  isWord_append h (Text.isWordChar_of_mem_apply nofun (isWordChar_of_isWord hname))

theorem isWord_itemHint (h : isWord hint) : isWord (itemHint hint) := by
  have hall : "Item".toList.all isWordChar = true := rfl
  exact isWord_append h (List.all_eq_true.1 hall)

theorem isWord_resultHint (h : isWord hint) : isWord (resultHint hint) := by
  have hall : "Result".toList.all isWordChar = true := rfl
  exact isWord_append h (List.all_eq_true.1 hall)

theorem isWord_optionHint (h : isWord hint) (index : Nat) : isWord (optionHint hint index) := by
  have hall : "Option".toList.all isWordChar = true := rfl
  refine isWord_append (isWord_append h (List.all_eq_true.1 hall)) fun c hc => ?_
  have hdigit := Json.allDigits_toString (index + 1) c hc
  have hascii := Text.toNat_lt_of_plain (Text.plain_of_isDigit hdigit)
  simp [isWordChar, Text.isPlainAlphanumeric, hdigit, Text.isBlankChar, Text.inRanges,
    Text.blankRanges]
  omega

end NominalLanguage

end DesignSystem
