import DesignSystem.Proofs.Text.Recasing
import Mathlib.Data.List.SplitBy

/-!
# Identifiers in camelCase

An identifier in camelCase keeps its letters and digits and where its words start, but for words of
digits, between which nothing shows.

* `isPlain_apply`: a style that puts nothing between words leaves letters and digits.
* `IsIdentifier.head?_apply`: what it starts with, if anything is left.
* `IsWord`: a word of an identifier in lowercase is one of letters or one of digits.
* `joinNumerals`: words where those of digits next to each other are one.
* `camel_eq_iff`: identifiers are the same in camelCase just if these words (`camelWords`) are.
-/

set_option autoImplicit false

namespace DesignSystem.Text

variable {s t : String}

/-! ## Characters -/

/-- The words of an identifier have all of its characters but the underscores. -/
theorem IsIdentifier.wordChars_eq (h : IsIdentifier s) :
    wordChars s = s.toList.filter (· ≠ '_') := by
  rw [wordChars_of_printable h.printable]
  refine List.filter_congr fun c hc => ?_
  rcases h c hc with hplain | rfl
  · have hne : c ≠ '_' := by
      rintro rfl
      cases hplain
    rw [isSeparatorChar_of_plain hplain, decide_eq_true hne]
    rfl
  · rfl

theorem IsIdentifier.plain_of_mem_wordChars (h : IsIdentifier s) {c : Char}
    (hc : c ∈ wordChars s) : isPlainAlphanumeric c := by
  rw [h.wordChars_eq] at hc
  obtain ⟨hc, hne⟩ := List.mem_filter.1 hc
  exact (h c hc).resolve_right (of_decide_eq_true hne)

theorem isPrintable_of_plain_or_separator {c : Char}
    (h : isPlainAlphanumeric c ∨ isSeparatorChar c) : IsPrintable c := by
  rcases h with hplain | hsep
  · exact isPrintable_of_plain hplain
  · simp only [isSeparatorChar, Cluster.isSeparator, Bool.or_eq_true, decide_eq_true_eq,
      List.cons.injEq, and_true] at hsep
    rcases hsep with (rfl | rfl) | rfl <;> decide

/-- A style that puts nothing between words leaves letters and digits of a name that has only
separators besides. -/
theorem isPlain_apply {style : NamingStyle} (hstyle : style.separator = "")
    (h : ∀ c ∈ s.toList, isPlainAlphanumeric c ∨ isSeparatorChar c) : IsPlain (style.apply s) := by
  have hprintable : ∀ c ∈ s.toList, IsPrintable c :=
    fun c hc => isPrintable_of_plain_or_separator (h c hc)
  intro d hd
  obtain ⟨c, hc, hrecased⟩ := exists_of_forall₂ (recased_apply hstyle hprintable) hd
  rw [wordChars_of_printable hprintable] at hc
  obtain ⟨hc, hword⟩ := List.mem_filter.1 hc
  have hplain := (h c hc).resolve_right (by simpa using hword)
  rw [(hrecased.keepsLetter (isPrintable_of_plain hplain).lt).plain]
  exact hplain

theorem IsIdentifier.isPlain_apply (h : IsIdentifier s) {style : NamingStyle}
    (hstyle : style.separator = "") : IsPlain (style.apply s) := by
  refine Text.isPlain_apply hstyle fun c hc => (h c hc).imp_right ?_
  rintro rfl
  rfl

theorem isDigit_of_isRecased {c d : Char} (hc : c.toNat < 128) (h : IsRecased c d) :
    d.isDigit = c.isDigit := by
  obtain ⟨hlower, hupper⟩ := of_ascii
    (P := fun c => c.toLower.isDigit = c.isDigit ∧ c.toUpper.isDigit = c.isDigit)
    (by decide +kernel) hc
  rcases h with rfl | rfl
  · exact hlower
  · exact hupper

/-- The first character is the first one that is no underscore, recased. -/
theorem IsIdentifier.head?_apply (h : IsIdentifier s) {style : NamingStyle}
    (hstyle : style.separator = "") : (style.apply s).toList.head?.map Char.isDigit =
      (s.toList.find? (· ≠ '_')).map Char.isDigit := by
  have hrecased := recased_apply hstyle h.printable
  have hplain : ∀ c ∈ wordChars s, isPlainAlphanumeric c := fun c => h.plain_of_mem_wordChars
  rw [← List.head?_filter, ← h.wordChars_eq]
  generalize wordChars s = cs, (style.apply s).toList = ds at hrecased hplain
  cases hrecased with
  | nil => rfl
  | cons hfirst _ =>
    have hascii := (isPrintable_of_plain (hplain _ List.mem_cons_self)).lt
    exact congrArg some (isDigit_of_isRecased hascii hfirst)

theorem IsIdentifier.isPlain_camel (h : IsIdentifier s) : IsPlain (camel s) := h.isPlain_apply rfl

theorem IsIdentifier.head?_camel (h : IsIdentifier s) : (camel s).toList.head?.map Char.isDigit =
    (s.toList.find? (· ≠ '_')).map Char.isDigit := h.head?_apply rfl

/-! ## Words of letters and words of digits -/

theorem cluster_case_of_ascii {c : Char} (hc : c.toNat < 128) :
    Cluster.isUpper [c] = c.isUpper ∧ Cluster.isLower [c] = c.isLower :=
  of_ascii (P := fun c => Cluster.isUpper [c] = c.isUpper ∧ Cluster.isLower [c] = c.isLower)
    (by decide +kernel) hc

/-- A word ends between a letter and a digit. -/
theorem bordersPair_of_isDigit_ne {a b : Char} (ha : isPlainAlphanumeric a)
    (hb : isPlainAlphanumeric b) (hne : a.isDigit ≠ b.isDigit) : bordersPair [a] [b] = true := by
  have hletter : ∀ {c : Char}, isPlainAlphanumeric c → c.isDigit = false →
      c.isUpper = true ∨ c.isLower = true := by
    intro c hc hdigit
    rcases Bool.or_eq_true_iff.1 hc with h | h
    · exact Bool.or_eq_true_iff.1 h
    · rw [hdigit] at h
      cases h
  obtain ⟨haUpper, haLower⟩ := cluster_case_of_ascii (isPrintable_of_plain ha).lt
  obtain ⟨hbUpper, hbLower⟩ := cluster_case_of_ascii (isPrintable_of_plain hb).lt
  simp only [bordersPair, haUpper, haLower, hbUpper, hbLower, Cluster.isDigit, List.all_cons,
    List.all_nil, Bool.and_true]
  cases hda : a.isDigit with
  | true =>
    have hdb : b.isDigit = false := by simpa [hda] using hne.symm
    rcases hletter hb hdb with h | h <;> simp [h]
  | false =>
    have hdb : b.isDigit = true := by simpa [hda] using hne.symm
    rcases hletter ha hda with h | h <;> simp [h, hdb]

/-- Words that are cut off letters, digits and underscores have no letters besides digits, if the
word read so far has none. -/
theorem isDigit_eq_of_mem_wordsFrom : ∀ (cs : List Char) {previous : Char} (word : List Char),
    (∀ c ∈ cs, isPlainAlphanumeric c ∨ c = '_') →
    (∀ a ∈ word, isPlainAlphanumeric previous ∧ a.isDigit = previous.isDigit) →
    ∀ w ∈ wordsFrom [previous] (word.map fun c => [c]) (cs.map fun c => [c]),
      ∀ a ∈ w.flatten, ∀ b ∈ w.flatten, a.isDigit = b.isDigit
  | [], _, word, _, hword, w, hw, a, ha, b, hb => by
    rw [List.map_nil, wordsFrom, List.mem_singleton, ← List.map_reverse] at hw
    subst hw
    rw [← List.flatMap_def, List.flatMap_singleton', List.mem_reverse] at ha hb
    rw [(hword a ha).2, (hword b hb).2]
  | c :: cs, previous, word, h, hword, w, hw, a, ha, b, hb => by
    obtain ⟨hc, hcs⟩ := List.forall_mem_cons.1 h
    have hdone : w = (word.map fun c => [c]).reverse → a.isDigit = b.isDigit := by
      intro heq
      exact isDigit_eq_of_mem_wordsFrom [] word (List.forall_mem_nil _) hword w
        (List.mem_singleton.2 heq) a ha b hb
    rw [List.map_cons, wordsFrom] at hw
    split at hw
    · rcases List.mem_cons.1 hw with hw | hw
      · exact hdone hw
      · exact isDigit_eq_of_mem_wordsFrom cs [] hcs (List.forall_mem_nil _) w hw a ha b hb
    · next hsep =>
      have hplain : isPlainAlphanumeric c := by
        refine hc.resolve_right ?_
        rintro rfl
        exact hsep rfl
      have hstart : ∀ d ∈ [c], isPlainAlphanumeric c ∧ d.isDigit = c.isDigit :=
        List.forall_mem_singleton.2 ⟨hplain, rfl⟩
      split at hw
      · rcases List.mem_cons.1 hw with hw | hw
        · exact hdone hw
        · exact isDigit_eq_of_mem_wordsFrom cs [c] hcs hstart w hw a ha b hb
      · next hborder =>
        -- nothing is cut here, so `c` is a digit if and only if the character before it is
        refine isDigit_eq_of_mem_wordsFrom cs (c :: word) hcs ?_ w hw a ha b hb
        refine List.forall_mem_cons.2 ⟨⟨hplain, rfl⟩, fun d hd => ⟨hplain, ?_⟩⟩
        obtain ⟨hprevious, hdigit⟩ := hword d hd
        by_contra hne
        rw [hdigit] at hne
        exact hborder (Bool.or_eq_true_iff.2 (.inl (bordersPair_of_isDigit_ne hprevious hplain hne)))

theorem IsIdentifier.isDigit_eq_of_mem_wordsOf (h : IsIdentifier s) {w : List Cluster}
    (hw : w ∈ wordsOf s) : ∀ a ∈ w.flatten, ∀ b ∈ w.flatten, a.isDigit = b.isDigit := by
  have hclusters := clusters_of_other fun c hc => clusterRole_of_printable (h.printable c hc)
  unfold wordsOf at hw
  rw [hclusters] at hw
  cases hs : s.toList with
  | nil =>
    rw [hs] at hw
    cases hw
  | cons c cs =>
    rw [IsIdentifier, hs] at h
    obtain ⟨hc, hcs⟩ := List.forall_mem_cons.1 h
    rw [hs, List.map_cons] at hw
    have hw := (List.mem_filter.1 hw).1
    split at hw
    · exact isDigit_eq_of_mem_wordsFrom cs [] hcs (List.forall_mem_nil _) w hw
    · next hsep =>
      refine isDigit_eq_of_mem_wordsFrom cs [c] hcs ?_ w hw
      refine List.forall_mem_singleton.2 ⟨hc.resolve_right ?_, rfl⟩
      rintro rfl
      exact hsep rfl

/-- Whether a word consists of digits. -/
def isNumeral (word : String) : Bool := word.toList.all Char.isDigit

/-- A word of lowercase letters, or one of digits. -/
structure IsWord (word : String) : Prop where
  ne : word ≠ ""
  uniform : isNumeral word = true ∨ ∀ c ∈ word.toList, c.isLower

theorem IsIdentifier.isWord_of_mem_lowerWords (h : IsIdentifier s) :
    ∀ word ∈ lowerWords s, IsWord word := by
  intro word hword
  obtain ⟨w, hw, rfl⟩ := List.mem_map.1 hword
  have hplain := h.plain_of_mem_wordsOf hw
  have hsame := h.isDigit_eq_of_mem_wordsOf hw
  obtain ⟨g, rest, rfl⟩ := List.exists_cons_of_ne_nil (ne_nil_of_mem_wordsOf hw)
  obtain ⟨first, hfirst, rfl⟩ := hplain g List.mem_cons_self
  have hlower : ∀ c, isPlainAlphanumeric c →
      c.toLower.isDigit = c.isDigit ∧ (c.isDigit = false → c.toLower.isLower) := by
    intro c hc
    refine of_ascii (P := fun c => isPlainAlphanumeric c →
      c.toLower.isDigit = c.isDigit ∧ (c.isDigit = false → c.toLower.isLower))
      (by decide +kernel) (isPrintable_of_plain hc).lt hc
  have hmem : first ∈ ([first] :: rest).flatten := by simp
  rw [lower_apply hplain]
  refine ⟨by simp, ?_⟩
  rw [isNumeral, String.toList_ofList, List.all_map, List.all_eq_true]
  cases hdigit : first.isDigit with
  | true =>
    refine .inl fun c hc => ?_
    rw [Function.comp_apply, (hlower c (plain_of_mem_flatten hplain hc)).1, hsame c hc first hmem,
      hdigit]
  | false =>
    refine .inr (List.forall_mem_map.2 fun c hc => ?_)
    exact (hlower c (plain_of_mem_flatten hplain hc)).2 ((hsame c hc first hmem).trans hdigit)

/-! ## Words in camelCase -/

/-- The words as they stand in camelCase: all but the first one are capitalised. -/
def casedWords : List String → List String
  | [] => []
  | word :: rest => word :: rest.map capitalised

theorem IsIdentifier.camel_eq (h : IsIdentifier s) :
    camel s = join "" (casedWords (lowerWords s)) := by
  have hplain : ∀ w ∈ wordsOf s, ∀ g ∈ w, ∃ c, isPlainAlphanumeric c ∧ g = [c] :=
    fun w => h.plain_of_mem_wordsOf
  unfold camel NamingStyle.apply lowerWords
  cases hwords : wordsOf s with
  | nil => rfl
  | cons word rest =>
    rw [hwords] at hplain
    simp only [List.map_cons, casedWords, List.map_map]
    refine congrArg (fun items => join "" (_ :: items)) (List.map_congr_left fun w hw => ?_)
    exact capital_apply (hplain w (.tail _ hw))

/-- Words where those of digits next to each other are one. -/
def joinNumerals : List String → List String
  | [] => []
  | word :: rest =>
    match joinNumerals rest with
    | [] => [word]
    | next :: more =>
      if isNumeral word && isNumeral next then (word ++ next) :: more else word :: next :: more

theorem toList_capitalised {word : String} {c : Char} {cs : List Char} (h : word.toList = c :: cs) :
    (capitalised word).toList = c.toUpper :: cs := by
  simp [capitalised, h]

theorem capitalised_of_isNumeral {word : String} (h : isNumeral word = true) :
    capitalised word = word := by
  rw [isNumeral, List.all_eq_true] at h
  cases hword : word.toList with
  | nil => simp [capitalised, String.toList_eq_nil_iff.1 hword]
  | cons c cs =>
    rw [hword] at h
    apply String.toList_injective
    rw [toList_capitalised hword, (isCaseless_of_isDigit (h c List.mem_cons_self)).upper, hword]

theorem isNumeral_append (v w : String) : isNumeral (v ++ w) = (isNumeral v && isNumeral w) := by
  rw [isNumeral, String.toList_append, List.all_append]
  rfl

/-- Nothing shows between words of digits. -/
theorem flatMap_casedWords_joinNumerals (words : List String) :
    (casedWords (joinNumerals words)).flatMap String.toList =
      (casedWords words).flatMap String.toList ∧
    ((joinNumerals words).map capitalised).flatMap String.toList =
      (words.map capitalised).flatMap String.toList := by
  induction words with
  | nil => exact ⟨rfl, rfl⟩
  | cons word rest ih =>
    obtain ⟨-, ih⟩ := ih
    have htail : ∀ first : String,
        (first :: (joinNumerals rest).map capitalised).flatMap String.toList =
          (first :: rest.map capitalised).flatMap String.toList := by
      intro first
      rw [List.flatMap_cons, List.flatMap_cons, ih]
    rw [joinNumerals, casedWords, List.map_cons, ← htail word, ← htail (capitalised word)]
    cases hjoined : joinNumerals rest with
    | nil => exact ⟨rfl, rfl⟩
    | cons next more =>
      dsimp only
      split_ifs with hnumerals
      · obtain ⟨hword, hnext⟩ := Bool.and_eq_true_iff.1 hnumerals
        have hboth : isNumeral (word ++ next) = true := (isNumeral_append _ _).trans hnumerals
        simp [casedWords, capitalised_of_isNumeral, hword, hnext, hboth]
      · exact ⟨rfl, rfl⟩

/-- The words stay words, and no two of digits are left next to each other. -/
theorem joinNumerals_apart {words : List String} (h : ∀ word ∈ words, IsWord word) :
    (∀ word ∈ joinNumerals words, IsWord word) ∧
      (joinNumerals words).IsChain fun v w => (isNumeral v && isNumeral w) = false := by
  induction words with
  | nil => exact ⟨nofun, .nil⟩
  | cons word rest ih =>
    obtain ⟨hword, hrest⟩ := List.forall_mem_cons.1 h
    obtain ⟨hwords, hchain⟩ := ih hrest
    rw [joinNumerals]
    cases hjoined : joinNumerals rest with
    | nil => exact ⟨List.forall_mem_singleton.2 hword, .singleton _⟩
    | cons next more =>
      rw [hjoined] at hwords hchain
      obtain ⟨hnext, hmore⟩ := List.forall_mem_cons.1 hwords
      dsimp only
      split_ifs with hnumerals
      · have hboth : isNumeral (word ++ next) = true := (isNumeral_append _ _).trans hnumerals
        refine ⟨List.forall_mem_cons.2 ⟨⟨?_, .inl hboth⟩, hmore⟩, ?_⟩
        · simp [hword.ne]
        · cases hchain with
          | singleton => exact .singleton _
          | cons_cons hborder hchain =>
            refine .cons_cons ?_ hchain
            rwa [hboth, ← (Bool.and_eq_true_iff.1 hnumerals).2]
      · exact ⟨List.forall_mem_cons.2 ⟨hword, hwords⟩, .cons_cons (by simpa using hnumerals) hchain⟩

/-! ## Reading the words back -/

/-- Whether a character of a name in camelCase belongs to the word of the one before it. -/
def continuesWord (a b : Char) : Bool := !b.isUpper && a.isDigit == b.isDigit

/-- What case makes of a lowercase letter. -/
structure LowerLetter (c : Char) : Prop where
  isDigit : c.isDigit = false
  isUpper : c.isUpper = false
  lower : c.toLower = c
  upper : c.toUpper.isUpper = true ∧ c.toUpper.isDigit = false
  again : c.toUpper.toLower = c

theorem lowerLetter {c : Char} (h : c.isLower) : LowerLetter c := by
  obtain ⟨hdigit, hupper, hlower, hcapital, hagain⟩ := of_ascii
    (P := fun c => c.isLower → c.isDigit = false ∧ c.isUpper = false ∧ c.toLower = c ∧
      (c.toUpper.isUpper = true ∧ c.toUpper.isDigit = false) ∧ c.toUpper.toLower = c)
    (by decide +kernel) (isPrintable_of_plain (plain_of_isLower h)).lt h
  exact ⟨hdigit, hupper, hlower, hcapital, hagain⟩

theorem isUpper_of_isDigit {c : Char} (h : c.isDigit) : c.isUpper = false :=
  of_ascii (P := fun c => c.isDigit → c.isUpper = false) (by decide +kernel)
    (isPrintable_of_plain (plain_of_isDigit h)).lt h

/-- A word as it stands in camelCase: in lowercase, or with a capital in front. -/
structure IsCased (word item : String) : Prop where
  ne : item.toList ≠ []
  isDigit : ∀ c ∈ item.toList, c.isDigit = isNumeral word
  tail : ∀ c ∈ item.toList.tail, c.isUpper = false
  lower : item.toList.map Char.toLower = word.toList

variable {word item : String}

theorem IsWord.cased (h : IsWord word) : IsCased word word := by
  have hne : word.toList ≠ [] := fun hnil => h.ne (String.toList_eq_nil_iff.1 hnil)
  rcases h.uniform with hnumeral | hlower
  · have hdigit := List.all_eq_true.1 hnumeral
    refine ⟨hne, fun c hc => (hdigit c hc).trans hnumeral.symm,
      fun c hc => isUpper_of_isDigit (hdigit c (List.mem_of_mem_tail hc)), ?_⟩
    exact (List.map_congr_left fun c hc => (isCaseless_of_isDigit (hdigit c hc)).lower).trans
      (List.map_id _)
  · obtain ⟨c, cs, hword⟩ := List.exists_cons_of_ne_nil hne
    have hfalse : isNumeral word = false := by
      rw [isNumeral, hword, List.all_cons, (lowerLetter (hlower c (by simp [hword]))).isDigit]
      rfl
    refine ⟨hne, fun c hc => (lowerLetter (hlower c hc)).isDigit.trans hfalse.symm,
      fun c hc => (lowerLetter (hlower c (List.mem_of_mem_tail hc))).isUpper, ?_⟩
    exact (List.map_congr_left fun c hc => (lowerLetter (hlower c hc)).lower).trans (List.map_id _)

/-- A capital starts a word of letters. -/
theorem IsWord.capitalised (h : IsWord word) : IsCased word (capitalised word) ∧
    ∀ c ∈ (Text.capitalised word).toList.head?, isNumeral word = false → c.isUpper = true := by
  have hcased := h.cased
  rcases h.uniform with hnumeral | hlower
  · rw [capitalised_of_isNumeral hnumeral, hnumeral]
    exact ⟨hcased, nofun⟩
  · obtain ⟨c, cs, hword⟩ := List.exists_cons_of_ne_nil hcased.ne
    have hletter := lowerLetter (hlower c (by simp [hword]))
    obtain ⟨-, hdigit, htail, hsame⟩ := hcased
    rw [hword] at hdigit htail hsame
    obtain ⟨hfirst, hrest⟩ := List.forall_mem_cons.1 hdigit
    rw [List.map_cons, List.cons.injEq] at hsame
    have hfalse : isNumeral word = false := hfirst.symm.trans hletter.isDigit
    have hchars := toList_capitalised hword
    refine ⟨⟨by simp [hchars], ?_, by rwa [hchars], ?_⟩, ?_⟩
    · rw [hchars]
      exact List.forall_mem_cons.2 ⟨hletter.upper.2.trans hfalse.symm, hrest⟩
    · rw [hchars, List.map_cons, hletter.again, hsame.2, hword]
    · rw [hchars]
      rintro _ ⟨⟩ -
      exact hletter.upper.1

theorem IsCased.isChain (h : IsCased word item) : item.toList.IsChain fun a b => continuesWord a b := by
  obtain ⟨-, hdigit, htail, -⟩ := h
  cases hitem : item.toList with
  | nil => exact .nil
  | cons c cs =>
    rw [hitem] at hdigit htail
    refine List.Pairwise.isChain (List.pairwise_cons.2 ⟨fun b hb => ?_, ?_⟩)
    · simp [continuesWord, htail b hb, hdigit c List.mem_cons_self, hdigit b (.tail _ hb)]
    · refine List.pairwise_of_forall_mem_list fun a ha b hb => ?_
      simp [continuesWord, htail b hb, hdigit a (.tail _ ha), hdigit b (.tail _ hb)]

/-- A word that is not of digits as the one before it starts anew. -/
theorem borders_capitalised {words : List String} (h : ∀ word ∈ words, IsWord word)
    (hitem : IsCased word item)
    (hchain : (word :: words).IsChain fun v w => (isNumeral v && isNumeral w) = false) :
    ((item :: words.map capitalised).map String.toList).IsChain fun a b =>
      ∃ ha hb, continuesWord (a.getLast ha) (b.head hb) = false := by
  induction words generalizing word item with
  | nil => exact .singleton _
  | cons next words ih =>
    obtain ⟨hnext, hwords⟩ := List.forall_mem_cons.1 h
    obtain ⟨hapart, hchain⟩ := List.isChain_cons_cons.1 hchain
    obtain ⟨hcased, hcapital⟩ := hnext.capitalised
    refine .cons_cons ⟨hitem.ne, hcased.ne, ?_⟩ (ih hwords hcased hchain)
    have hlast := hitem.isDigit _ (List.getLast_mem hitem.ne)
    have hhead := hcased.isDigit _ (List.head_mem hcased.ne)
    rw [continuesWord, hlast, hhead]
    cases hnumeral : isNumeral next with
    | true =>
      rw [hnumeral, Bool.and_true] at hapart
      simp [hapart]
    | false => simp [hcapital _ (List.head_mem_head? hcased.ne) hnumeral]

/-- Words that are kept apart are read back from camelCase. -/
theorem splitBy_casedWords {words : List String} (h : ∀ word ∈ words, IsWord word)
    (hchain : words.IsChain fun v w => (isNumeral v && isNumeral w) = false) :
    ((casedWords words).flatMap String.toList).splitBy continuesWord =
      (casedWords words).map String.toList := by
  have hcased : ∀ item ∈ casedWords words, ∃ word, IsCased word item := by
    cases words with
    | nil => nofun
    | cons word rest =>
      obtain ⟨hword, hrest⟩ := List.forall_mem_cons.1 h
      refine List.forall_mem_cons.2 ⟨⟨_, hword.cased⟩, List.forall_mem_map.2 fun w hw => ?_⟩
      exact ⟨_, (hrest w hw).capitalised.1⟩
  -- no part is empty, inside of a part nothing is cut, and between two parts there is a cut
  refine List.splitBy_eq_iff.2 ⟨List.flatMap_def, fun hnil => ?_, ?_, ?_⟩
  · obtain ⟨item, hitem, hnil⟩ := List.mem_map.1 hnil
    obtain ⟨word, hword⟩ := hcased item hitem
    exact hword.ne hnil
  · refine List.forall_mem_map.2 fun item hitem => ?_
    obtain ⟨word, hword⟩ := hcased item hitem
    exact hword.isChain
  · cases words with
    | nil => exact .nil
    | cons word rest =>
      obtain ⟨hword, hrest⟩ := List.forall_mem_cons.1 h
      exact borders_capitalised hrest hword.cased hchain

/-- In lowercase the words are what they were. -/
theorem lower_casedWords {words : List String} (h : ∀ word ∈ words, IsWord word) :
    ((casedWords words).map String.toList).map (List.map Char.toLower) = words.map String.toList := by
  cases words with
  | nil => rfl
  | cons word rest =>
    obtain ⟨hword, hrest⟩ := List.forall_mem_cons.1 h
    simp only [casedWords, List.map_cons, List.map_map, hword.cased.lower]
    refine congrArg (_ :: ·) (List.map_congr_left fun w hw => ?_)
    exact (hrest w hw).capitalised.1.lower

/-- The words of a name as camelCase shows them, in lowercase. -/
def camelWords (s : String) : List String := joinNumerals (lowerWords s)

/-- Identifiers are the same in camelCase just if they have the same words, where words of digits
next to each other are one. -/
theorem camel_eq_iff (hs : IsIdentifier s) (ht : IsIdentifier t) :
    camel s = camel t ↔ camelWords s = camelWords t := by
  have hchars : ∀ {s}, IsIdentifier s → (camel s).toList =
      (casedWords (camelWords s)).flatMap String.toList := by
    intro s hs
    rw [hs.camel_eq, toList_join_nothing, camelWords, (flatMap_casedWords_joinNumerals _).1]
  obtain ⟨hwords, hchain⟩ := joinNumerals_apart hs.isWord_of_mem_lowerWords
  obtain ⟨hwords', hchain'⟩ := joinNumerals_apart ht.isWord_of_mem_lowerWords
  rw [← String.toList_inj, hchars hs, hchars ht]
  constructor
  · intro h
    have hcased := congrArg (List.splitBy continuesWord) h
    rw [camelWords, camelWords, splitBy_casedWords hwords hchain,
      splitBy_casedWords hwords' hchain'] at hcased
    have hlower := congrArg (List.map (List.map Char.toLower)) hcased
    rw [lower_casedWords hwords, lower_casedWords hwords'] at hlower
    exact List.map_injective_iff.2 (fun _ _ => String.toList_injective) hlower
  · intro h
    rw [h]

end DesignSystem.Text
