import DesignSystem.Proofs.Text.Camel

/-!
# Names that are cut into words again

A name in one style is cut into words again when it is written in another style. In kebab-case all
words are found again. In camelCase a word can get lost: nothing shows between two words of digits,
nor between two words of one letter, unless the first of them starts the name.

* `pieces`, `lowerWords_of_printable`: cutting a name into words, character by character.
* `startsWord_eq`: where a word starts within a name.
* `kebab_kebab`: kebab-case stays as it is.
* `kebab_camel_append_eq_iff`: when camelCase keeps the words, so that kebab-case is the same with
  and without it.
-/

set_option autoImplicit false

namespace DesignSystem.Text

variable {s : String} {a b c : Char}

/-! ## Pieces of a name -/

/-- Whether a word starts at `b`, which stands between `a` and the rest. -/
def startsWord (a b : Char) (rest : List Char) : Bool :=
  bordersPair [a] [b] || startsCapitalised [a] [b] (rest.head?.map fun c => [c])

/-- The pieces of the characters that follow `previous`; `word` is the piece read so far. -/
def piecesFrom (previous : Char) (word : List Char) : List Char → List (List Char)
  | [] => [word]
  | c :: cs =>
    if isSeparatorChar c then word :: piecesFrom c [] cs
    else if startsWord previous c cs then word :: piecesFrom c [c] cs
    else piecesFrom c (word ++ [c]) cs

/-- The pieces of a name, which may be empty. -/
def pieces : List Char → List (List Char)
  | [] => []
  | c :: cs => piecesFrom c (if isSeparatorChar c then [] else [c]) cs

/-- A piece in lowercase. -/
def lowerPiece (piece : List Char) : String := .ofList (piece.map Char.toLower)

theorem wordsFrom_singletons (cs : List Char) (previous : Char) (word : List Char) :
    wordsFrom [previous] (word.map fun c => [c]).reverse (cs.map fun c => [c]) =
      (piecesFrom previous word cs).map (List.map fun c => [c]) := by
  induction cs generalizing previous word with
  | nil => rw [List.map_nil, wordsFrom, List.reverse_reverse]; rfl
  | cons c cs ih =>
    have hstep := ih c (word ++ [c])
    rw [List.map_append, List.reverse_append] at hstep
    rw [List.map_cons, wordsFrom, piecesFrom, List.reverse_reverse, List.head?_map]
    change (if isSeparatorChar c then _ else if startsWord previous c cs then _ else _) = _
    split_ifs with hsep hstart
    · exact congrArg (_ :: ·) (ih c [])
    · exact congrArg (_ :: ·) (ih c [c])
    · exact hstep

/-- The words of a name are its pieces that are not empty. -/
theorem lowerWords_of_printable (h : ∀ c ∈ s.toList, IsPrintable c) :
    lowerWords s = ((pieces s.toList).filter (!·.isEmpty)).map lowerPiece := by
  have hwords : wordsOf s =
      ((pieces s.toList).filter (!·.isEmpty)).map (List.map fun c => [c]) := by
    unfold wordsOf
    rw [clusters_of_other fun c hc => clusterRole_of_printable (h c hc)]
    cases s.toList with
    | nil => rfl
    | cons c cs =>
      have hfound : (if Cluster.isSeparator [c] then wordsFrom [c] [] (cs.map fun c => [c])
          else wordsFrom [c] [[c]] (cs.map fun c => [c])) =
            (pieces (c :: cs)).map (List.map fun c => [c]) := by
        rw [pieces, ← wordsFrom_singletons]
        change (if isSeparatorChar c then _ else _) = _
        split_ifs <;> rfl
      have hempty : (fun w : List Cluster => !w.isEmpty) ∘ (List.map fun c => [c]) =
          fun w : List Char => !w.isEmpty := by
        funext w
        cases w <;> rfl
      rw [← hempty, ← List.filter_map, ← hfound]
      rfl
  have hascii : ∀ w ∈ wordsOf s, ∀ c ∈ w.flatten, c.toNat < 128 :=
    fun w hw c hc => (h c (mem_of_mem_wordsOf hw hc)).lt
  rw [hwords] at hascii
  rw [lowerWords, hwords, List.map_map]
  refine List.map_congr_left fun piece hpiece => congrArg String.ofList ?_
  have hflat : (piece.map fun c => [c]).flatten = piece := by
    rw [← List.flatMap_def, List.flatMap_singleton']
  have hpiece := hascii _ (List.mem_map_of_mem hpiece)
  rw [WordCase.apply, hflat, lowerList_of_ascii fun c hc => hpiece c (by rwa [hflat])]

theorem piecesFrom_eq_cons (cs : List Char) (previous : Char) (word : List Char) :
    ∃ more rest, piecesFrom previous word cs = (word ++ more) :: rest := by
  induction cs generalizing previous word with
  | nil => exact ⟨[], [], by rw [piecesFrom, List.append_nil]⟩
  | cons c cs ih =>
    rw [piecesFrom]
    split_ifs with hsep hstart
    · exact ⟨[], _, by rw [List.append_nil]⟩
    · exact ⟨[], _, by rw [List.append_nil]⟩
    · obtain ⟨more, rest, h⟩ := ih c (word ++ [c])
      exact ⟨c :: more, rest, by rw [h, List.append_assoc]; rfl⟩

/-- Where no character separates words, no piece is empty. -/
theorem ne_nil_of_mem_piecesFrom {cs : List Char} (h : ∀ c ∈ cs, isSeparatorChar c = false)
    (previous : Char) {word : List Char} (hword : word ≠ []) :
    ∀ piece ∈ piecesFrom previous word cs, piece ≠ [] := by
  induction cs generalizing previous word with
  | nil => exact fun piece hpiece => List.mem_singleton.1 hpiece ▸ hword
  | cons c cs ih =>
    obtain ⟨hc, hcs⟩ := List.forall_mem_cons.1 h
    rw [piecesFrom, hc, if_neg Bool.false_ne_true]
    split_ifs with hstart
    · exact List.forall_mem_cons.2 ⟨hword, ih hcs c (List.cons_ne_nil _ _)⟩
    · exact ih hcs c (by simp)

/-! ## Where words start -/

/-- A letter or digit is a capital, a lowercase letter or a digit, and only one of them. -/
theorem cases_of_plain (h : isPlainAlphanumeric c) :
    c.isUpper = true ∧ c.isLower = false ∧ c.isDigit = false ∨
      c.isUpper = false ∧ c.isLower = true ∧ c.isDigit = false ∨
        c.isUpper = false ∧ c.isLower = false ∧ c.isDigit = true :=
  of_ascii (P := fun c => isPlainAlphanumeric c →
    c.isUpper = true ∧ c.isLower = false ∧ c.isDigit = false ∨
      c.isUpper = false ∧ c.isLower = true ∧ c.isDigit = false ∨
        c.isUpper = false ∧ c.isLower = false ∧ c.isDigit = true)
    (by decide +kernel) (isPrintable_of_plain h).lt h

/-- Where a letter or digit follows another, a word starts between a letter and a digit, at a
capital behind a lowercase letter, and at a capital before a lowercase letter. -/
theorem startsWord_eq (ha : isPlainAlphanumeric a) (hb : isPlainAlphanumeric b) {rest : List Char}
    (hrest : ∀ c ∈ rest, isPlainAlphanumeric c) : startsWord a b rest =
      (a.isDigit != b.isDigit ||
        b.isUpper && (a.isLower || a.isUpper && rest.head?.any Char.isLower)) := by
  have hafter : ((rest.head?.map fun c => [c]).map Cluster.isLower).getD false =
      rest.head?.any Char.isLower := by
    cases rest with
    | nil => rfl
    | cons c cs => exact (cluster_case_of_ascii (isPrintable_of_plain (hrest c (.head _))).lt).2
  obtain ⟨haUpper, haLower⟩ := cluster_case_of_ascii (isPrintable_of_plain ha).lt
  obtain ⟨hbUpper, hbLower⟩ := cluster_case_of_ascii (isPrintable_of_plain hb).lt
  simp only [startsWord, bordersPair, startsCapitalised, hafter, haUpper, haLower, hbUpper, hbLower,
    Cluster.isDigit, List.all_cons, List.all_nil, Bool.and_true]
  rcases cases_of_plain ha with ⟨h, h', h''⟩ | ⟨h, h', h''⟩ | ⟨h, h', h''⟩ <;>
  rcases cases_of_plain hb with ⟨k, k', k''⟩ | ⟨k, k', k''⟩ | ⟨k, k', k''⟩ <;>
  simp [h, h', h'', k, k', k'']

/-- No word starts at a character that goes on with the one before it. -/
theorem startsWord_of_continuesWord (ha : isPlainAlphanumeric a) (hb : isPlainAlphanumeric b)
    (h : continuesWord a b) (rest : List Char) : startsWord a b rest = false := by
  obtain ⟨haUpper, haLower⟩ := cluster_case_of_ascii (isPrintable_of_plain ha).lt
  obtain ⟨hbUpper, hbLower⟩ := cluster_case_of_ascii (isPrintable_of_plain hb).lt
  obtain ⟨hupper, hdigit⟩ : b.isUpper = false ∧ a.isDigit = b.isDigit := by
    simpa [continuesWord] using h
  simp only [startsWord, bordersPair, startsCapitalised, haUpper, haLower, hbUpper, hbLower,
    Cluster.isDigit, List.all_cons, List.all_nil, Bool.and_true, hupper, hdigit]
  rcases cases_of_plain ha with ⟨h, h', h''⟩ | ⟨h, h', h''⟩ | ⟨h, h', h''⟩ <;>
  rcases cases_of_plain hb with ⟨k, k', k''⟩ | ⟨k, k', k''⟩ | ⟨k, k', k''⟩ <;>
  simp_all

/-- A run of characters that go on with each other stays in one word. -/
theorem piecesFrom_run {cs : List Char} (h : (a :: cs).IsChain fun a b => continuesWord a b)
    (hplain : ∀ c ∈ a :: cs, isPlainAlphanumeric c) (word rest : List Char) :
    piecesFrom a word (cs ++ rest) =
      piecesFrom ((a :: cs).getLast (List.cons_ne_nil _ _)) (word ++ cs) rest := by
  induction cs generalizing a word with
  | nil => rw [List.nil_append, List.append_nil, List.getLast_singleton]
  | cons c cs ih =>
    obtain ⟨ha, hcs⟩ := List.forall_mem_cons.1 hplain
    have hc := hcs c (.head _)
    obtain ⟨hborder, hchain⟩ := List.isChain_cons_cons.1 h
    rw [List.cons_append, piecesFrom, isSeparatorChar_of_plain hc, if_neg Bool.false_ne_true,
      startsWord_of_continuesWord ha hc hborder, if_neg Bool.false_ne_true, ih hchain hcs,
      List.getLast_cons (List.cons_ne_nil _ _), List.append_assoc]
    rfl

/-! ## Kebab-case -/

section
variable {word item : String}

theorem IsWord.plain (h : IsWord word) : IsPlain word := by
  intro c hc
  rcases h.uniform with hnumeral | hlower
  · exact plain_of_isDigit (List.all_eq_true.1 hnumeral c hc)
  · exact plain_of_isLower (hlower c hc)

theorem lowerPiece_toList (h : IsWord word) : lowerPiece word.toList = word := by
  rw [lowerPiece, h.cased.lower, String.ofList_toList]

/-- A word at the start of a name is in its first piece. -/
theorem pieces_append_of_isWord (h : IsWord word) (rest : List Char) :
    pieces (word.toList ++ rest) =
      piecesFrom (word.toList.getLast h.cased.ne) word.toList rest := by
  have hplain := h.plain
  have hchain := h.cased.isChain
  obtain ⟨c, cs, hchars⟩ := List.exists_cons_of_ne_nil h.cased.ne
  unfold IsPlain at hplain
  simp only [hchars] at hplain hchain ⊢
  rw [List.cons_append, pieces, isSeparatorChar_of_plain (hplain c (.head _)),
    if_neg Bool.false_ne_true, piecesFrom_run hchain hplain]
  rfl

end

/-- Joined items are the first one and the others behind a separator each. -/
theorem join_cons_eq (separator item : String) (items : List String) :
    join separator (item :: items) = item ++ join "" (items.map (separator ++ ·)) := by
  induction items generalizing item with
  | nil => exact String.append_empty.symm
  | cons next items ih =>
    rw [join_cons_cons, ih, List.map_cons]
    cases items with
    | nil => simp [join, String.append_assoc]
    | cons next' items =>
      rw [List.map_cons, join_cons_cons, String.append_empty]
      simp only [String.append_assoc]

theorem toList_join_hyphen (word : String) (words : List String) :
    (join "-" (word :: words)).toList = word.toList ++ words.flatMap fun w => '-' :: w.toList := by
  rw [join_cons_eq, String.toList_append, toList_join_nothing, List.flatMap_map]
  simp only [String.toList_append]
  rfl

/-- Words between hyphens are found again. -/
theorem piecesFrom_hyphens {words : List String} (h : ∀ word ∈ words, IsWord word)
    (previous : Char) (word : List Char) :
    piecesFrom previous word (words.flatMap fun w => '-' :: w.toList) =
      word :: words.map String.toList := by
  induction words generalizing previous word with
  | nil => rfl
  | cons next words ih =>
    obtain ⟨hnext, hwords⟩ := List.forall_mem_cons.1 h
    have hplain := hnext.plain
    have hchain := hnext.cased.isChain
    obtain ⟨c, cs, hchars⟩ := List.exists_cons_of_ne_nil hnext.cased.ne
    rw [IsPlain, hchars] at hplain
    rw [hchars] at hchain
    have hfirst : startsWord '-' c (cs ++ words.flatMap fun w => '-' :: w.toList) = false := by
      have hc := hplain c (.head _)
      obtain ⟨hUpper, hLower⟩ := cluster_case_of_ascii (isPrintable_of_plain hc).lt
      have hyphen : Cluster.isUpper ['-'] = false ∧ Cluster.isLower ['-'] = false ∧
          Cluster.isDigit ['-'] = false := by decide +kernel
      simp [startsWord, bordersPair, startsCapitalised, hyphen]
    have hsep : isSeparatorChar '-' = true := by decide +kernel
    rw [List.flatMap_cons, List.cons_append, piecesFrom, hsep, if_pos rfl, hchars, List.cons_append,
      piecesFrom, isSeparatorChar_of_plain (hplain c (.head _)), if_neg Bool.false_ne_true, hfirst,
      if_neg Bool.false_ne_true, List.nil_append, piecesFrom_run hchain hplain, ih hwords,
      List.map_cons, hchars]
    rfl

/-- In kebab-case there are letters, digits and hyphens. -/
theorem IsIdentifier.mem_kebab (h : IsIdentifier s) (hc : c ∈ (kebab s).toList) :
    c = '-' ∨ isPlainAlphanumeric c := by
  rw [kebab_eq] at hc
  rcases mem_join hc with hc | ⟨word, hword, hc⟩
  · exact .inl (List.mem_singleton.1 hc)
  · exact .inr ((h.isWord_of_mem_lowerWords word hword).plain c hc)

theorem IsIdentifier.head?_kebab (h : IsIdentifier s) :
    (kebab s).toList.head? = (camel s).toList.head? := by
  rw [kebab_eq, h.camel_eq]
  cases hlower : lowerWords s with
  | nil => rfl
  | cons word words =>
    have hne := (h.isWord_of_mem_lowerWords word (hlower ▸ .head _)).cased.ne
    rw [casedWords, join_cons_eq, join_cons_eq, String.toList_append, String.toList_append,
      List.head?_append_of_ne_nil _ hne, List.head?_append_of_ne_nil _ hne]

/-- In kebab-case all words are found again. -/
theorem lowerWords_kebab (h : IsIdentifier s) : lowerWords (kebab s) = lowerWords s := by
  have hwords := h.isWord_of_mem_lowerWords
  have hprintable : ∀ c ∈ (kebab s).toList, IsPrintable c := by
    intro c hc
    rcases h.mem_kebab hc with rfl | hplain
    · decide
    · exact isPrintable_of_plain hplain
  rw [lowerWords_of_printable hprintable, kebab_eq]
  cases hlower : lowerWords s with
  | nil => rfl
  | cons word words =>
    rw [hlower] at hwords
    obtain ⟨hword, hrest⟩ := List.forall_mem_cons.1 hwords
    have hpieces : pieces (join "-" (word :: words)).toList =
        (word :: words).map String.toList := by
      rw [toList_join_hyphen, pieces_append_of_isWord hword, piecesFrom_hyphens hrest,
        List.map_cons]
    have hne : ∀ piece ∈ (word :: words).map String.toList, (!piece.isEmpty) = true :=
      List.forall_mem_map.2 fun w hw => by simpa using (hwords w hw).ne
    rw [hpieces, List.filter_eq_self.2 hne, List.map_map]
    refine (List.map_congr_left fun w hw => ?_).trans (List.map_id _)
    exact lowerPiece_toList (hwords w hw)

/-- Kebab-case stays as it is. -/
theorem kebab_kebab (h : IsIdentifier s) : kebab (kebab s) = kebab s := by
  rw [kebab_eq (kebab s), lowerWords_kebab h, ← kebab_eq]

/-! ## camelCase -/

/-- Whether a word in camelCase is a single capital. -/
def isCapital (item : String) : Bool := item.toList.length == 1 && item.toList.all Char.isUpper

/-- Whether nothing shows in camelCase between two words: both are of digits, or both are single
capitals. -/
def merges (v w : String) : Bool := isNumeral v && isNumeral w || isCapital v && isCapital w

/-- camelCase shows where the words of a name start. -/
def ShowsWords (s : String) : Prop :=
  (casedWords (lowerWords s)).IsChain fun v w => merges v w = false

instance (s : String) : Decidable (ShowsWords s) :=
  inferInstanceAs (Decidable (List.IsChain _ _))

section
variable {word item : String}

theorem IsCased.isNumeral_eq (h : IsCased word item) : isNumeral item = isNumeral word := by
  obtain ⟨c, cs, hchars⟩ := List.exists_cons_of_ne_nil h.ne
  have hdigit := h.isDigit
  rw [hchars] at hdigit
  conv_lhs => rw [isNumeral, hchars]
  cases hnumeral : isNumeral word with
  | true => exact List.all_eq_true.2 fun d hd => (hdigit d hd).trans hnumeral
  | false => rw [List.all_cons, hdigit c (.head _), hnumeral, Bool.false_and]

theorem isUpper_getLast_of_tail {cs : List Char} (hne : cs ≠ [])
    (htail : ∀ c ∈ cs.tail, c.isUpper = false) :
    (cs.getLast hne).isUpper = (cs.length == 1 && cs.all Char.isUpper) := by
  match cs with
  | [c] => simp
  | c :: d :: ds =>
    rw [List.getLast_cons_cons]
    exact htail _ (List.getLast_mem (List.cons_ne_nil d ds))

/-- A word in camelCase ends with a capital only if it is one. -/
theorem IsCased.isUpper_getLast (h : IsCased word item) :
    (item.toList.getLast h.ne).isUpper = isCapital item :=
  isUpper_getLast_of_tail h.ne h.tail

/-- A word starts in camelCase, unless it is merged with the one before it. -/
theorem startsWord_eq_not_merges {v : String} (hitem : IsCased v item) (hplain : IsPlain item)
    (hword : IsWord word) {cs rest : List Char} (hchars : (capitalised word).toList = c :: cs)
    (hrest : ∀ d ∈ rest, isPlainAlphanumeric d) (hhead : ∀ d ∈ rest.head?, d.isLower = false) :
    startsWord (item.toList.getLast hitem.ne) c (cs ++ rest) =
      !merges item (capitalised word) := by
  obtain ⟨hcased, hcapital⟩ := hword.capitalised
  have hcapitals := isPlain_capitalised hword.plain
  have htail := hcased.tail
  have hdigit := hcased.isDigit
  rw [IsPlain, hchars] at hcapitals
  rw [hchars] at htail hdigit hcapital
  obtain ⟨hc, hcs⟩ := List.forall_mem_cons.1 hcapitals
  have hafter : c.isUpper = true →
      (cs ++ rest).head?.any Char.isLower = !isCapital (capitalised word) := by
    intro hupper
    unfold isCapital
    rw [hchars]
    cases cs with
    | nil =>
      rw [List.nil_append, List.all_cons, hupper]
      cases hrest : rest.head? with
      | none => rfl
      | some d => exact hhead d hrest
    | cons d ds =>
      have hletter : d.isDigit = false := by
        rcases cases_of_plain hc with ⟨-, -, h⟩ | ⟨h, -⟩ | ⟨h, -⟩
        · rw [hdigit d (by simp), ← hdigit c (by simp), h]
        · rw [hupper] at h
          cases h
        · rw [hupper] at h
          cases h
      rcases cases_of_plain (hcs d (.head _)) with ⟨h, -⟩ | ⟨-, h, -⟩ | ⟨-, -, h⟩
      · rw [htail d (.head _)] at h
        cases h
      · exact h
      · rw [hletter] at h
        cases h
  have hp := hplain _ (List.getLast_mem hitem.ne)
  have hboth : ∀ d ∈ cs ++ rest, isPlainAlphanumeric d :=
    List.forall_mem_append.2 ⟨hcs, hrest⟩
  rw [startsWord_eq hp hc hboth, merges, ← hitem.isUpper_getLast, hitem.isNumeral_eq,
    hcased.isNumeral_eq, ← hitem.isDigit _ (List.getLast_mem hitem.ne), ← hdigit c (.head _)]
  have hletter : c.isDigit = false → c.isUpper = true :=
    fun h => hcapital c rfl ((hdigit c (.head _)).symm.trans h)
  have hsmall : c.isUpper = false → isCapital (capitalised word) = false := by
    intro h
    rw [isCapital, hchars, List.all_cons, h, Bool.false_and, Bool.and_false]
  rcases cases_of_plain hp with ⟨h, h', h''⟩ | ⟨h, h', h''⟩ | ⟨h, h', h''⟩ <;>
  rcases cases_of_plain hc with ⟨k, k', k''⟩ | ⟨k, k', k''⟩ | ⟨k, k', k''⟩ <;>
  simp_all

/-- What goes on behind the words in camelCase does not start with a lowercase letter. -/
theorem not_isLower_of_head? {words : List String} (h : ∀ word ∈ words, IsWord word) :
    ∀ d ∈ (words.flatMap fun w => (capitalised w).toList).head?, d.isLower = false := by
  cases words with
  | nil => nofun
  | cons word words =>
    obtain ⟨hcased, hcapital⟩ := (h word (.head _)).capitalised
    have hplain := isPlain_capitalised (h word (.head _)).plain
    obtain ⟨c, cs, hchars⟩ := List.exists_cons_of_ne_nil hcased.ne
    have hdigit := hcased.isDigit c (by simp [hchars])
    rw [IsPlain, hchars] at hplain
    rw [hchars] at hcapital
    rw [List.flatMap_cons, hchars]
    rintro d ⟨⟩
    rcases cases_of_plain (hplain c (.head _)) with ⟨-, h, -⟩ | ⟨hupper, -, h⟩ | ⟨-, h, -⟩
    · exact h
    · rw [hcapital c rfl (hdigit.symm.trans h)] at hupper
      cases hupper
    · exact h

/-- Words in camelCase are cut where a word is not merged with the one before it; so the words are
those that they were, whatever follows them between hyphens, just if none is. -/
theorem join_piecesFrom_append_eq_iff {words : List String} (h : ∀ word ∈ words, IsWord word)
    {v : String} (hitem : IsCased v item) (hplain : IsPlain item) (piece : List Char)
    (t t' : String) :
    join "-" ((piecesFrom (item.toList.getLast hitem.ne) piece
        (words.flatMap fun w => (capitalised w).toList)).map lowerPiece) ++ t =
      join "-" (lowerPiece piece :: words) ++ t' ↔
    (item :: words.map capitalised).IsChain (fun v w => merges v w = false) ∧ t = t' := by
  induction words generalizing v item piece with
  | nil => simp [piecesFrom]
  | cons next words ih =>
    obtain ⟨hnext, hwords⟩ := List.forall_mem_cons.1 h
    obtain ⟨hcased, -⟩ := hnext.capitalised
    have hcapitals := isPlain_capitalised hnext.plain
    have hchain := hcased.isChain
    obtain ⟨c, cs, hchars⟩ := List.exists_cons_of_ne_nil hcased.ne
    have hrest : ∀ d ∈ words.flatMap fun w => (capitalised w).toList, isPlainAlphanumeric d := by
      intro d hd
      obtain ⟨w, hw, hd⟩ := List.mem_flatMap.1 hd
      exact isPlain_capitalised (hwords w hw).plain d hd
    have hstart := startsWord_eq_not_merges hitem hplain hnext hchars hrest
      (not_isLower_of_head? hwords)
    have hrun := hcapitals
    rw [IsPlain, hchars] at hrun
    rw [hchars] at hchain
    rw [List.flatMap_cons, hchars, List.cons_append, piecesFrom,
      isSeparatorChar_of_plain (hrun c (.head _)), if_neg Bool.false_ne_true, hstart, List.map_cons,
      List.isChain_cons_cons, join_cons_cons]
    cases hmerges : merges item (capitalised next) with
    | false =>
      have hlower : lowerPiece (c :: cs) = next := by
        rw [← hchars, lowerPiece, hcased.lower, String.ofList_toList]
      have hstep := ih hwords hcased hcapitals (c :: cs)
      obtain ⟨more, rest, heq⟩ := piecesFrom_eq_cons
        (words.flatMap fun w => (capitalised w).toList) ((c :: cs).getLast (by simp)) (c :: cs)
      simp only [hchars] at hstep
      rw [hlower] at hstep
      rw [Bool.not_false, if_pos rfl, piecesFrom_run hchain hrun, List.singleton_append]
      rw [heq] at hstep ⊢
      rw [List.map_cons] at hstep
      rw [List.map_cons, List.map_cons, join_cons_cons, @String.append_assoc (_ ++ "-"),
        @String.append_assoc (_ ++ "-"), String.append_right_inj, hstep]
      simp
    | true =>
      -- the next word goes on where a hyphen should stand
      obtain ⟨more, rest, heq⟩ := piecesFrom_eq_cons
        (cs ++ words.flatMap fun w => (capitalised w).toList) c (piece ++ [c])
      rw [Bool.not_true, if_neg Bool.false_ne_true, heq, List.map_cons]
      refine iff_of_false (fun hjoin => ?_) (by simp)
      obtain ⟨further, hfurther⟩ := exists_join_cons "-" (lowerPiece (piece ++ [c] ++ more))
        (rest.map lowerPiece)
      rw [hfurther, ← String.toList_inj] at hjoin
      simp only [lowerPiece, String.toList_append, String.toList_ofList, List.map_append,
        List.append_assoc, List.map_cons, List.cons_append] at hjoin
      have hhyphen : c.toLower = '-' := (List.cons.inj (List.append_cancel_left hjoin)).1
      have hletter := (recases (hrun c (.head _))).lower
      rw [hhyphen] at hletter
      cases hletter

end

/-- Kebab-case is the same with and without camelCase before it, whatever follows, just if camelCase
shows where the words start. -/
theorem kebab_camel_append_eq_iff (h : IsIdentifier s) (t t' : String) :
    kebab (camel s) ++ t = kebab s ++ t' ↔ ShowsWords s ∧ t = t' := by
  have hwords := h.isWord_of_mem_lowerWords
  have hprintable : ∀ c ∈ (camel s).toList, IsPrintable c :=
    fun c hc => isPrintable_of_plain (h.isPlain_camel c hc)
  rw [kebab_eq (camel s), lowerWords_of_printable hprintable, kebab_eq s, h.camel_eq,
    toList_join_nothing, ShowsWords]
  cases hlower : lowerWords s with
  | nil => simp [casedWords, pieces]
  | cons word words =>
    rw [hlower] at hwords
    obtain ⟨hword, hrest⟩ := List.forall_mem_cons.1 hwords
    have hiff := join_piecesFrom_append_eq_iff hrest hword.cased hword.plain word.toList t t'
    have hall : ∀ d ∈ words.flatMap fun w => (capitalised w).toList, isSeparatorChar d = false := by
      intro d hd
      obtain ⟨w, hw, hd⟩ := List.mem_flatMap.1 hd
      exact isSeparatorChar_of_plain (isPlain_capitalised (hrest w hw).plain d hd)
    have hne := ne_nil_of_mem_piecesFrom hall (word.toList.getLast hword.cased.ne) hword.cased.ne
    rw [lowerPiece_toList hword] at hiff
    rw [casedWords, List.flatMap_cons, List.flatMap_map, pieces_append_of_isWord hword,
      List.filter_eq_self.2 fun piece hpiece => by simpa using hne piece hpiece]
    exact hiff

/-- camelCase itself shows where its words start. -/
theorem showsWords_of_camel (h : IsIdentifier s) (hcamel : camel s = s) : ShowsWords s :=
  ((kebab_camel_append_eq_iff h "" "").1 (by rw [hcamel])).1

end DesignSystem.Text
