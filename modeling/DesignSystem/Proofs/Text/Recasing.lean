import DesignSystem.Proofs.Reading.Names
import DesignSystem.Text.Words
import Mathlib.Data.List.Forall2

/-!
# What a naming style keeps

A style drops the separators of a name and changes the case of its letters. Where all characters are
printable and from ASCII, this is all it does.

* `pascal_ne_empty`: a name that starts with a letter is not empty in PascalCase.
* `recased_apply`: each character but the separators becomes one character, if nothing joins words.
* `letters_apply`: the letters and digits stay the same, if case does not matter.
* `upperSnake_eq_iff`: identifiers are the same in `UPPER_SNAKE_CASE` just if they have the same
  words.
* `letters_eq_of_lowerWords_eq`: names of letters and digits with the same words differ only in
  case.
* `wordsFrom_run`: characters without case stay in one word.
* `toUpper_of_mem_camel`: when all letters are capitals in camelCase.
-/

set_option autoImplicit false

namespace DesignSystem.Text

theorem join_ne_empty {sep p : String} (h : p ≠ "") (ps : List String) : join sep (p :: ps) ≠ "" := by
  cases ps with
  | nil => simpa [join] using h
  | cons q qs =>
    rw [join, String.intercalate_cons_cons]
    simp [h]

/-- The first cluster goes on from what has been read of it. -/
theorem clustersFrom_eq_cons : ∀ (cs current : List Char) (state : ClusterState),
    ∃ more rest, clustersFrom current state cs = (current.reverse ++ more) :: rest
  | [], current, _ => ⟨[], [], by rw [clustersFrom, List.append_nil]⟩
  | c :: cs, current, state => by
    rw [clustersFrom]
    split
    · obtain ⟨more, rest, h⟩ := clustersFrom_eq_cons cs (c :: current) (state.push c)
      exact ⟨c :: more, rest, by rw [h]; simp⟩
    · exact ⟨[], _, by rw [List.append_nil]⟩

/-- The first word goes on from what has been read of it. -/
theorem wordsFrom_eq_cons : ∀ (gs : List Cluster) (previous : Cluster) (word : List Cluster),
    ∃ more rest, wordsFrom previous word gs = (word.reverse ++ more) :: rest
  | [], _, word => ⟨[], [], by rw [wordsFrom, List.append_nil]⟩
  | g :: gs, previous, word => by
    rw [wordsFrom]
    split
    · exact ⟨[], _, by rw [List.append_nil]⟩
    · split
      · exact ⟨[], _, by rw [List.append_nil]⟩
      · obtain ⟨more, rest, h⟩ := wordsFrom_eq_cons gs g (g :: word)
        exact ⟨g :: more, rest, by rw [h]; simp⟩

theorem toNat_lt_of_isAlpha {c : Char} (h : c.isAlpha) : c.toNat < 128 := by
  change (c.isUpper || c.isLower) = true at h
  change c.val.toNat < 128
  rcases Bool.or_eq_true_iff.1 h with hupper | hlower
  · have hle : c.val ≤ 'Z'.val := (of_decide_eq_true hupper).2
    exact Nat.lt_of_le_of_lt hle (by decide)
  · have hle : c.val ≤ 'z'.val := of_decide_eq_true (Bool.and_eq_true_iff.1 hlower).2
    exact Nat.lt_of_le_of_lt hle (by decide)

theorem pascal_ne_empty {s : String} {c : Char} {cs : List Char} (hs : s.toList = c :: cs)
    (hc : c.isAlpha) : pascal s ≠ "" := by
  have hne : c ≠ '-' ∧ c ≠ '_' ∧ c ≠ ' ' := by
    refine ⟨?_, ?_, ?_⟩
    all_goals
      rintro rfl
      exact absurd hc (by decide)
  obtain ⟨more, rest, hclusters⟩ : ∃ more rest, clusters s.toList = (c :: more) :: rest := by
    rw [hs]
    exact clustersFrom_eq_cons cs [c] (.start c)
  have hletter : Cluster.isSeparator (c :: more) = false := by
    simp [Cluster.isSeparator, hne]
  obtain ⟨further, words, hwords⟩ : ∃ further words,
      wordsFrom (c :: more) [c :: more] rest = ((c :: more) :: further) :: words :=
    wordsFrom_eq_cons rest (c :: more) [c :: more]
  have hfirst : wordsOf s = ((c :: more) :: further) :: words.filter (!·.isEmpty) := by
    rw [wordsOf, hclusters]
    simp [hletter, hwords]
  have hupper : upperChar c = [c.toUpper] := if_pos (toNat_lt_of_isAlpha hc)
  unfold pascal NamingStyle.apply
  rw [hfirst]
  refine join_ne_empty ?_ _
  simp [NamingStyle.pascal, WordCase.apply, hupper]

/-! ## Printable characters -/

/-- A printable character from ASCII. -/
def IsPrintable (c : Char) : Prop := 32 ≤ c.toNat ∧ c.toNat < 127

instance : DecidablePred IsPrintable := fun _ => inferInstanceAs (Decidable (_ ∧ _))

variable {c d : Char} {s t : String}

theorem IsPrintable.lt (h : IsPrintable c) : c.toNat < 128 := by
  have := h.2
  omega

theorem isPrintable_of_plain (h : isPlainAlphanumeric c) : IsPrintable c := by
  have hrange := toNat_lt_of_plain h
  constructor <;> omega

theorem clusterRole_of_printable (h : IsPrintable c) : clusterRole c = .other := by
  obtain ⟨hlow, hhigh⟩ := h
  unfold clusterRole
  rw [if_pos (by omega), if_neg (by omega)]

/-- Whether a character only separates words. -/
def isSeparatorChar (c : Char) : Bool := Cluster.isSeparator [c]

theorem isSeparatorChar_of_plain (h : isPlainAlphanumeric c) : isSeparatorChar c = false :=
  isSeparator_of_plain h

/-- The characters of the words of a name, in order. -/
def wordChars (s : String) : List Char := (wordsOf s).flatMap List.flatten

theorem wordChars_of_printable (h : ∀ c ∈ s.toList, IsPrintable c) :
    wordChars s = s.toList.filter (!isSeparatorChar ·) := by
  have hwords := flatten_wordsOf s
  rw [clusters_of_other fun c hc => clusterRole_of_printable (h c hc), List.filter_map] at hwords
  rw [wordChars, List.flatMap_def, ← List.flatten_flatten, hwords, ← List.flatMap_def,
    List.flatMap_singleton']
  rfl

/-! ## Letter case -/

/-- A character in lowercase or in uppercase. -/
def IsRecased (c d : Char) : Prop := d = c.toLower ∨ d = c.toUpper

/-- What a change of case keeps. -/
structure KeepsLetter (c d : Char) : Prop where
  plain : isPlainAlphanumeric d = isPlainAlphanumeric c
  lower : d.toLower = c.toLower
  underscore : d = '_' → c = '_'

instance (c d : Char) : Decidable (KeepsLetter c d) :=
  decidable_of_iff (isPlainAlphanumeric d = isPlainAlphanumeric c ∧ d.toLower = c.toLower ∧
    (d = '_' → c = '_')) ⟨fun ⟨hplain, hlower, hunderscore⟩ => ⟨hplain, hlower, hunderscore⟩,
    fun h => ⟨h.plain, h.lower, h.underscore⟩⟩

theorem IsRecased.keepsLetter (hc : c.toNat < 128) (h : IsRecased c d) : KeepsLetter c d := by
  obtain ⟨hlower, hupper⟩ := of_ascii
    (P := fun c => KeepsLetter c c.toLower ∧ KeepsLetter c c.toUpper) (by decide +kernel) hc
  rcases h with rfl | rfl
  · exact hlower
  · exact hupper

theorem flatMap_upperChar_of_ascii {cs : List Char} (h : ∀ c ∈ cs, c.toNat < 128) :
    cs.flatMap upperChar = cs.map Char.toUpper := by
  rw [List.flatMap_congr fun c hc => upperChar_of_ascii (h c hc), List.map_eq_flatMap]

theorem forall₂_recased_map {f : Char → Char} (hf : ∀ c, IsRecased c (f c)) (cs : List Char) :
    List.Forall₂ IsRecased cs (cs.map f) :=
  List.forall₂_map_right_iff.2 (List.forall₂_same.2 fun c _ => hf c)

/-- A case recases each character of a word. -/
theorem recased_wordCase (style : WordCase) {w : List Cluster}
    (h : ∀ c ∈ w.flatten, c.toNat < 128) : List.Forall₂ IsRecased w.flatten (style.apply w) := by
  have hlower : ∀ {cs : List Char}, (∀ c ∈ cs, c.toNat < 128) →
      List.Forall₂ IsRecased cs (lowerList [] cs) := by
    intro cs hcs
    rw [lowerList_of_ascii hcs]
    exact forall₂_recased_map (fun c => .inl rfl) cs
  have hupper : ∀ {cs : List Char}, (∀ c ∈ cs, c.toNat < 128) →
      List.Forall₂ IsRecased cs (cs.flatMap upperChar) := by
    intro cs hcs
    rw [flatMap_upperChar_of_ascii hcs]
    exact forall₂_recased_map (fun c => .inr rfl) cs
  cases style with
  | lower => exact hlower h
  | upper => exact hupper h
  | capital =>
    cases w with
    | nil => exact .nil
    | cons first rest =>
      rw [List.flatten_cons] at h ⊢
      obtain ⟨hfirst, hrest⟩ := List.forall_mem_append.1 h
      exact List.rel_append (hupper hfirst) (hlower hrest)

theorem toList_join_nothing (items : List String) :
    (join "" items).toList = items.flatMap String.toList := by
  induction items with
  | nil => rfl
  | cons item items ih =>
    cases items with
    | nil => simp [join]
    | cons next items =>
      rw [join_cons_cons, String.append_empty, String.toList_append, ih]
      exact List.flatMap_cons.symm

theorem recased_words (style : WordCase) {ws : List (List Cluster)}
    (h : ∀ w ∈ ws, ∀ c ∈ w.flatten, c.toNat < 128) :
    List.Forall₂ IsRecased (ws.flatMap List.flatten) (ws.flatMap style.apply) := by
  induction ws with
  | nil => exact .nil
  | cons w ws ih =>
    obtain ⟨hw, hws⟩ := List.forall_mem_cons.1 h
    exact List.rel_append (recased_wordCase style hw) (ih hws)

/-- In a style with nothing between words, a name without its separators is recased character by
character. -/
theorem recased_apply {style : NamingStyle} (hstyle : style.separator = "")
    (h : ∀ c ∈ s.toList, IsPrintable c) :
    List.Forall₂ IsRecased (wordChars s) (style.apply s).toList := by
  have hascii : ∀ w ∈ wordsOf s, ∀ c ∈ w.flatten, c.toNat < 128 :=
    fun w hw c hc => (h c (mem_of_mem_wordsOf hw hc)).lt
  unfold wordChars NamingStyle.apply
  cases hwords : wordsOf s with
  | nil => exact .nil
  | cons word rest =>
    rw [hwords] at hascii
    obtain ⟨hword, hrest⟩ := List.forall_mem_cons.1 hascii
    simp only [hstyle]
    rw [toList_join_nothing, List.flatMap_cons, List.flatMap_cons, String.toList_ofList,
      List.flatMap_map]
    simp only [String.toList_ofList]
    exact List.rel_append (recased_wordCase _ hword) (recased_words _ hrest)

theorem recased_camel (h : ∀ c ∈ s.toList, IsPrintable c) :
    List.Forall₂ IsRecased (wordChars s) (camel s).toList := recased_apply rfl h

/-- The letters and digits of a name, whatever their case. -/
def letters (s : String) : List Char := (s.toList.filter isPlainAlphanumeric).map Char.toLower

theorem letters_append (s t : String) : letters (s ++ t) = letters s ++ letters t := by
  rw [letters, String.toList_append, List.filter_append, List.map_append]
  rfl

theorem letters_recased {cs ds : List Char} (h : List.Forall₂ IsRecased cs ds)
    (hcs : ∀ c ∈ cs, c.toNat < 128) :
    (ds.filter isPlainAlphanumeric).map Char.toLower =
      (cs.filter isPlainAlphanumeric).map Char.toLower := by
  induction h with
  | nil => rfl
  | @cons c d cs ds hrecased _ ih =>
    obtain ⟨hc, hcs⟩ := List.forall_mem_cons.1 hcs
    obtain ⟨hplain, hlower, -⟩ := hrecased.keepsLetter hc
    rw [List.filter_cons, List.filter_cons, hplain]
    split
    · rw [List.map_cons, List.map_cons, hlower, ih hcs]
    · exact ih hcs

/-- In a style with nothing between words the letters and digits stay the same, but for their
case. -/
theorem letters_apply {style : NamingStyle} (hstyle : style.separator = "")
    (h : ∀ c ∈ s.toList, IsPrintable c) : letters (style.apply s) = letters s := by
  have hchars := wordChars_of_printable h
  have hascii : ∀ c ∈ wordChars s, c.toNat < 128 := by
    intro c hc
    rw [hchars] at hc
    exact (h c (List.mem_filter.1 hc).1).lt
  rw [letters, letters, letters_recased (recased_apply hstyle h) hascii, hchars, List.filter_filter]
  refine congrArg (List.map Char.toLower) (List.filter_congr fun c _ => ?_)
  cases hplain : isPlainAlphanumeric c with
  | false => rfl
  | true => rw [isSeparatorChar_of_plain hplain]; rfl

theorem letters_camel (h : ∀ c ∈ s.toList, IsPrintable c) : letters (camel s) = letters s :=
  letters_apply rfl h

/-- Underscores are separators. -/
theorem underscore_notMem_camel (h : ∀ c ∈ s.toList, IsPrintable c) : '_' ∉ (camel s).toList := by
  intro hmem
  obtain ⟨c, hc, hrecased⟩ := exists_of_forall₂ (recased_camel h) hmem
  rw [wordChars_of_printable h] at hc
  obtain ⟨hc, hsep⟩ := List.mem_filter.1 hc
  obtain rfl := (hrecased.keepsLetter (h c hc).lt).underscore rfl
  cases hsep

/-! ## Words -/

/-- A text of letters, digits and underscores. -/
def IsIdentifier (s : String) : Prop := ∀ c ∈ s.toList, isPlainAlphanumeric c ∨ c = '_'

theorem IsIdentifier.printable (h : IsIdentifier s) : ∀ c ∈ s.toList, IsPrintable c := by
  intro c hc
  rcases h c hc with hplain | rfl
  · exact isPrintable_of_plain hplain
  · decide

/-- The words of an identifier consist of single letters and digits. -/
theorem IsIdentifier.plain_of_mem_wordsOf (h : IsIdentifier s) {w : List Cluster}
    (hw : w ∈ wordsOf s) : ∀ g ∈ w, ∃ c, isPlainAlphanumeric c ∧ g = [c] := by
  intro g hg
  have hclusters := clusters_of_other fun c hc => clusterRole_of_printable (h.printable c hc)
  have hmem : g ∈ (wordsOf s).flatten := List.mem_flatten.2 ⟨w, hw, hg⟩
  rw [flatten_wordsOf, hclusters] at hmem
  obtain ⟨hmem, hsep⟩ := List.mem_filter.1 hmem
  obtain ⟨c, hc, rfl⟩ := List.mem_map.1 hmem
  refine ⟨c, (h c hc).resolve_right ?_, rfl⟩
  rintro rfl
  cases hsep

/-- The words of a name in uppercase. -/
def upperWords (s : String) : List String :=
  (wordsOf s).map fun w => .ofList (WordCase.upper.apply w)

theorem upper_apply {w : List Cluster} (h : ∀ g ∈ w, ∃ c, isPlainAlphanumeric c ∧ g = [c]) :
    WordCase.upper.apply w = w.flatten.map Char.toUpper :=
  flatMap_upperChar_of_ascii fun _ hc => (isPrintable_of_plain (plain_of_mem_flatten h hc)).lt

theorem join_inj {items items' : List String} (h : ∀ s ∈ items, s ≠ "" ∧ c ∉ s.toList)
    (h' : ∀ s ∈ items', s ≠ "" ∧ c ∉ s.toList)
    (heq : join (.singleton c) items = join (.singleton c) items') : items = items' := by
  have hnil : ∀ {items : List String}, (∀ s ∈ items, s ≠ "" ∧ c ∉ s.toList) →
      join (.singleton c) items = "" → items = [] := by
    intro items h hempty
    cases items with
    | nil => rfl
    | cons first rest => exact absurd hempty (join_ne_empty (h first List.mem_cons_self).1 rest)
  by_cases hne : items = []
  · subst hne
    exact (hnil h' heq.symm).symm
  · by_cases hne' : items' = []
    · subst hne'
      exact hnil h heq
    · rw [← splitAtChar_join hne fun s hs => (h s hs).2, heq,
        splitAtChar_join hne' fun s hs => (h' s hs).2]

/-- The words in one case are those in the other one, recased. -/
theorem upperWords_eq_iff (hs : IsIdentifier s) (ht : IsIdentifier t) :
    upperWords s = upperWords t ↔ lowerWords s = lowerWords t := by
  have hupper : ∀ {s}, IsIdentifier s →
      upperWords s = (lowerWords s).map fun w => .ofList (w.toList.map Char.toUpper) := by
    intro s hs
    rw [upperWords, lowerWords, List.map_map]
    refine List.map_congr_left fun w hw => ?_
    have hplain := hs.plain_of_mem_wordsOf hw
    simp only [Function.comp_apply, String.toList_ofList, upper_apply hplain, lower_apply hplain,
      List.map_map]
    refine congrArg String.ofList (List.map_congr_left fun c hc => ?_)
    exact (recases (plain_of_mem_flatten hplain hc)).again.symm
  have hlower : ∀ {s}, IsIdentifier s →
      lowerWords s = (upperWords s).map fun w => .ofList (w.toList.map Char.toLower) := by
    intro s hs
    rw [upperWords, lowerWords, List.map_map]
    refine List.map_congr_left fun w hw => ?_
    have hplain := hs.plain_of_mem_wordsOf hw
    simp only [Function.comp_apply, String.toList_ofList, upper_apply hplain, lower_apply hplain,
      List.map_map]
    refine congrArg String.ofList (List.map_congr_left fun c hc => ?_)
    have hrecased : IsRecased c c.toUpper := .inr rfl
    have hascii := (isPrintable_of_plain (plain_of_mem_flatten hplain hc)).lt
    exact (hrecased.keepsLetter hascii).lower.symm
  constructor
  · intro h
    rw [hlower hs, hlower ht, h]
  · intro h
    rw [hupper hs, hupper ht, h]

theorem upperWords_apart (h : IsIdentifier s) : ∀ w ∈ upperWords s, w ≠ "" ∧ '_' ∉ w.toList := by
  intro item hitem
  obtain ⟨w, hw, rfl⟩ := List.mem_map.1 hitem
  have hplain := h.plain_of_mem_wordsOf hw
  rw [upper_apply hplain, String.toList_ofList]
  refine ⟨fun hempty => ?_, fun hmem => ?_⟩
  · obtain ⟨g, rest, rfl⟩ := List.exists_cons_of_ne_nil (ne_nil_of_mem_wordsOf hw)
    obtain ⟨c, -, rfl⟩ := hplain g List.mem_cons_self
    simp at hempty
  · obtain ⟨c, hc, hupper⟩ := List.mem_map.1 hmem
    have hunderscore := (recases (plain_of_mem_flatten hplain hc)).upper
    rw [hupper] at hunderscore
    cases hunderscore

/-- Identifiers are the same in `UPPER_SNAKE_CASE` just if they have the same words. -/
theorem upperSnake_eq_iff (hs : IsIdentifier s) (ht : IsIdentifier t) :
    upperSnake s = upperSnake t ↔ lowerWords s = lowerWords t := by
  have hjoin : ∀ s, upperSnake s = join "_" (upperWords s) := apply_uniform .upper "_"
  rw [hjoin, hjoin, ← upperWords_eq_iff hs ht]
  exact ⟨join_inj (c := '_') (upperWords_apart hs) (upperWords_apart ht), congrArg (join "_")⟩

/-- Names of letters and digits that have the same words differ only in case. -/
theorem letters_eq_of_lowerWords_eq (hs : IsPlain s) (ht : IsPlain t)
    (h : lowerWords s = lowerWords t) : letters s = letters t := by
  have hletters : ∀ {s}, IsPlain s → letters s = (lowerWords s).flatMap String.toList := by
    intro s hs
    have hwords : (lowerWords s).flatMap String.toList =
        ((wordsOf s).flatMap List.flatten).map Char.toLower := by
      rw [lowerWords, List.flatMap_map, List.map_flatMap]
      refine List.flatMap_congr fun w hw => ?_
      rw [String.toList_ofList, lower_apply (plain_of_mem_wordsOf hs hw)]
    have hchars := wordChars_of_printable fun c hc => isPrintable_of_plain (hs c hc)
    rw [wordChars, List.filter_eq_self.2] at hchars
    · rw [hwords, hchars, letters, List.filter_eq_self.2 hs]
    · intro c hc
      rw [isSeparatorChar_of_plain (hs c hc)]
      rfl
  rw [hletters hs, hletters ht, h]

/-! ## Characters without case -/

/-- A character from ASCII that has no case. -/
structure IsCaseless (c : Char) : Prop where
  lt : c.toNat < 128
  lower : c.toLower = c
  upper : c.toUpper = c

theorem isCaseless_of_isDigit (h : c.isDigit) : IsCaseless c := by
  have hlt := (isPrintable_of_plain (plain_of_isDigit h)).lt
  obtain ⟨hlower, hupper⟩ := of_ascii (P := fun c => c.isDigit → c.toLower = c ∧ c.toUpper = c)
    (by decide +kernel) hlt h
  exact ⟨hlt, hlower, hupper⟩

theorem IsCaseless.cluster (h : IsCaseless c) :
    Cluster.isUpper [c] = false ∧ Cluster.isLower [c] = false := by
  have hupper : upperChar c = [c] := (upperChar_of_ascii h.lt).trans (congrArg ([·]) h.upper)
  have hlower : lowerList [] [c] = [c] := by
    rw [lowerList_of_ascii (List.forall_mem_singleton.2 h.lt), List.map_singleton, h.lower]
  simp [Cluster.isUpper, Cluster.isLower, hupper, hlower]

/-- A character without case that stands in a word. -/
def IsInner (c : Char) : Prop := IsCaseless c ∧ isSeparatorChar c = false

theorem isInner_of_isDigit (h : c.isDigit) : IsInner c :=
  ⟨isCaseless_of_isDigit h, isSeparatorChar_of_plain (plain_of_isDigit h)⟩

/-- No word starts at a character without case, if there is none before. -/
theorem IsCaseless.wordsFrom (hc : IsCaseless c) (hd : IsInner d) (word gs : List Cluster) :
    wordsFrom [c] word ([d] :: gs) = wordsFrom [d] ([d] :: word) gs := by
  have hsep : Cluster.isSeparator [d] = false := hd.2
  rw [Text.wordsFrom, hsep, if_neg Bool.false_ne_true]
  simp [bordersPair, startsCapitalised, hc.cluster, hd.1.cluster]

/-- Characters without case stay in one word. -/
theorem wordsFrom_run {run : List Char} {last : Char} (hc : IsCaseless c)
    (hrun : ∀ d ∈ run, IsInner d) (hlast : IsInner last) (word gs : List Cluster) :
    wordsFrom [c] word ((run ++ [last]).map (fun d => [d]) ++ gs) =
      wordsFrom [last] (((run ++ [last]).map fun d => [d]).reverse ++ word) gs := by
  induction run generalizing c word with
  | nil => exact hc.wordsFrom hlast word gs
  | cons d run ih =>
    obtain ⟨hd, hrun⟩ := List.forall_mem_cons.1 hrun
    rw [List.cons_append, List.map_cons, List.cons_append, hc.wordsFrom hd, ih hd.1 hrun]
    simp

/-- In camelCase all letters are capitals if the first word has no letter and the other ones have
letters at most in front. -/
theorem toUpper_of_mem_camel {w : List Cluster} {ws : List (List Cluster)}
    (hs : ∀ c ∈ s.toList, IsPrintable c) (hwords : wordsOf s = w :: ws)
    (hw : ∀ c ∈ w.flatten, IsCaseless c) (hws : ∀ w ∈ ws, ∀ c ∈ w.tail.flatten, IsCaseless c) :
    ∀ c ∈ (camel s).toList, c.toUpper = c := by
  have hlower : ∀ {cs : List Char}, (∀ c ∈ cs, IsCaseless c) → lowerList [] cs = cs := by
    intro cs hcs
    rw [lowerList_of_ascii fun c hc => (hcs c hc).lt]
    exact (List.map_congr_left fun c hc => (hcs c hc).lower).trans (List.map_id cs)
  intro c hc
  unfold camel NamingStyle.apply at hc
  rw [hwords] at hc
  change c ∈ (join "" _).toList at hc
  rw [toList_join_nothing, List.flatMap_cons, String.toList_ofList, List.mem_append] at hc
  rcases hc with hc | hc
  · change c ∈ lowerList [] w.flatten at hc
    rw [hlower hw] at hc
    exact (hw c hc).upper
  · obtain ⟨item, hitem, hc⟩ := List.mem_flatMap.1 hc
    obtain ⟨w', hw', rfl⟩ := List.mem_map.1 hitem
    rw [String.toList_ofList] at hc
    cases w' with
    | nil => cases hc
    | cons first rest =>
      have hrest : ∀ c ∈ rest.flatten, IsCaseless c := hws _ hw'
      rcases List.mem_append.1 hc with hc | hc
      · obtain ⟨d, hd, hc⟩ := List.mem_flatMap.1 hc
        have hascii : d.toNat < 128 := by
          refine (hs d (mem_of_mem_wordsOf (w := first :: rest) ?_ ?_)).lt
          · rw [hwords]
            exact .tail _ hw'
          · simp [hd]
        rw [upperChar_of_ascii hascii, List.mem_singleton] at hc
        subst hc
        exact of_ascii (P := fun c => c.toUpper.toUpper = c.toUpper) (by decide +kernel) hascii
      · rw [hlower hrest] at hc
        exact (hrest c hc).upper

end DesignSystem.Text
