import DesignSystem.Proofs.Text.Split
import DesignSystem.Text.Words

/-!
# Names of plain letters and digits

In a name without marks and separators every character is a cluster, and its styles differ only in
the case of letters and in what joins the words.

* `flatten_wordsOf`: cutting a name into words keeps all clusters but the separators.
* `wordsOf_flatten`: cutting a name of letters and digits into words keeps all characters.
* `pascal_eq`: PascalCase capitalises the lowercase words.
* `pascal_eq_of_kebab_eq`, `pascal_eq_of_snake_eq`: names that are the same in one of the styles with
  separators are the same in PascalCase.
* `notMem_pascal`, `notMem_kebab`, `notMem_snake`: which characters do not occur in the styles.
-/

set_option autoImplicit false

namespace DesignSystem.Text

/-- A text of letters from `a` to `z`, in either case, and digits. -/
def IsPlain (s : String) : Prop := ∀ c ∈ s.toList, isPlainAlphanumeric c

/-! ## Characters -/

theorem toNat_lt_of_plain {c : Char} (h : isPlainAlphanumeric c) : 48 ≤ c.toNat ∧ c.toNat < 123 := by
  change ((decide ('A'.val ≤ c.val ∧ c.val ≤ 'Z'.val) || ('a'.val ≤ c.val && c.val ≤ 'z'.val)) ||
    ('0'.val ≤ c.val && c.val ≤ '9'.val)) = true at h
  simp only [Bool.or_eq_true, Bool.and_eq_true, decide_eq_true_eq, UInt32.le_iff_toNat_le] at h
  change ((65 ≤ c.toNat ∧ c.toNat ≤ 90) ∨ 97 ≤ c.toNat ∧ c.toNat ≤ 122) ∨
    48 ≤ c.toNat ∧ c.toNat ≤ 57 at h
  omega

theorem plain_of_isDigit {c : Char} (h : c.isDigit) : isPlainAlphanumeric c :=
  Bool.or_eq_true_iff.2 (.inr h)

theorem plain_of_isUpper {c : Char} (h : c.isUpper) : isPlainAlphanumeric c :=
  Bool.or_eq_true_iff.2 (.inl (Bool.or_eq_true_iff.2 (.inl h)))

theorem plain_of_isLower {c : Char} (h : c.isLower) : isPlainAlphanumeric c :=
  Bool.or_eq_true_iff.2 (.inl (Bool.or_eq_true_iff.2 (.inr h)))

/-- What a case mapping makes of a letter or digit. -/
structure Recases (c : Char) : Prop where
  lower : isPlainAlphanumeric c.toLower
  upper : isPlainAlphanumeric c.toUpper
  again : c.toLower.toUpper = c.toUpper

theorem recases {c : Char} (h : isPlainAlphanumeric c) : Recases c := by
  have hall : ∀ n < 123, isPlainAlphanumeric (Char.ofNat n) →
      isPlainAlphanumeric (Char.ofNat n).toLower ∧ isPlainAlphanumeric (Char.ofNat n).toUpper ∧
        (Char.ofNat n).toLower.toUpper = (Char.ofNat n).toUpper := by decide +kernel
  have hc := hall c.toNat (toNat_lt_of_plain h).2
  rw [Char.ofNat_toNat] at hc
  obtain ⟨hlower, hupper, hagain⟩ := hc h
  exact ⟨hlower, hupper, hagain⟩

theorem clusterRole_of_plain {c : Char} (h : isPlainAlphanumeric c) : clusterRole c = .other := by
  obtain ⟨hlow, hhigh⟩ := toNat_lt_of_plain h
  unfold clusterRole
  rw [if_pos (by omega), if_neg (by omega)]

theorem upperChar_of_ascii {c : Char} (h : c.toNat < 128) : upperChar c = [c.toUpper] := if_pos h

theorem lowerList_of_ascii : ∀ {cs : List Char}, (∀ c ∈ cs, c.toNat < 128) →
    ∀ before, lowerList before cs = cs.map Char.toLower
  | [], _, _ => rfl
  | c :: cs, h, before => by
    have hc := h c List.mem_cons_self
    have hsigma : c ≠ 'Σ' := by
      rintro rfl
      revert hc
      decide
    have hlower : lowerChar c = [c.toLower] := if_pos hc
    rw [lowerList, if_neg hsigma, hlower, lowerList_of_ascii fun d hd => h d (.tail _ hd)]
    rfl

/-! ## Words -/

theorem clustersFrom_of_other : ∀ {cs : List Char} {c : Char} {state : ClusterState},
    clusterRole state.last = .other → (∀ d ∈ cs, clusterRole d = .other) →
      clustersFrom [c] state cs = [c] :: cs.map fun d => [d]
  | [], _, _, _, _ => rfl
  | d :: cs, c, state, hstate, h => by
    have hd := h d List.mem_cons_self
    have hborder : state.continues d = false := by
      unfold ClusterState.continues
      rw [hstate, hd]
    have hrest : clustersFrom [d] (.start d) cs = [d] :: cs.map fun e => [e] :=
      clustersFrom_of_other hd fun e he => h e (.tail _ he)
    rw [clustersFrom, hborder, if_neg Bool.false_ne_true, hrest]
    rfl

/-- Characters that do not act on their neighbours are clusters. -/
theorem clusters_of_other {cs : List Char} (h : ∀ c ∈ cs, clusterRole c = .other) :
    clusters cs = cs.map fun c => [c] := by
  cases cs with
  | nil => rfl
  | cons c cs =>
    exact clustersFrom_of_other (h c List.mem_cons_self) fun d hd => h d (.tail _ hd)

/-- Cutting clusters into words keeps all of them but the separators. -/
theorem wordsFrom_flatten : ∀ (gs : List Cluster) (previous : Cluster) (word : List Cluster),
    (wordsFrom previous word gs).flatten = word.reverse ++ gs.filter (!·.isSeparator)
  | [], _, word => by simp [wordsFrom]
  | g :: gs, previous, word => by
    rw [wordsFrom]
    split
    · next hg =>
      rw [List.flatten_cons, wordsFrom_flatten gs g [], List.filter_cons_of_neg (by simp [hg])]
      rfl
    · next hg =>
      rw [List.filter_cons_of_pos (by simpa using hg)]
      split
      · rw [List.flatten_cons, wordsFrom_flatten gs g [g]]
        rfl
      · rw [wordsFrom_flatten gs g (g :: word)]
        simp

theorem flatten_wordsOf (s : String) :
    (wordsOf s).flatten = (clusters s.toList).filter (!·.isSeparator) := by
  unfold wordsOf
  cases clusters s.toList with
  | nil => rfl
  | cons g gs =>
    dsimp only
    rw [List.flatten_filter_not_isEmpty]
    split
    · next hg =>
      rw [wordsFrom_flatten, List.filter_cons_of_neg (by simp [hg])]
      rfl
    · next hg =>
      rw [wordsFrom_flatten, List.filter_cons_of_pos (by simpa using hg)]
      rfl

theorem isSeparator_of_plain {c : Char} (h : isPlainAlphanumeric c) :
    Cluster.isSeparator [c] = false := by
  have hne : c ≠ '-' ∧ c ≠ '_' ∧ c ≠ ' ' := by
    refine ⟨?_, ?_, ?_⟩
    all_goals
      rintro rfl
      exact absurd h (by decide)
  simp [Cluster.isSeparator, hne]

theorem wordsOf_flatten {s : String} (h : IsPlain s) :
    (wordsOf s).flatten = s.toList.map fun c => [c] := by
  rw [flatten_wordsOf, clusters_of_other fun c hc => clusterRole_of_plain (h c hc)]
  refine List.filter_eq_self.2 fun g hg => ?_
  obtain ⟨c, hc, rfl⟩ := List.mem_map.1 hg
  rw [isSeparator_of_plain (h c hc)]
  rfl

theorem ne_nil_of_mem_wordsOf {s : String} {w : List Cluster} (hw : w ∈ wordsOf s) : w ≠ [] := by
  unfold wordsOf at hw
  split at hw
  · cases hw
  · rintro rfl
    simpa using (List.mem_filter.1 hw).2

/-- The words of a plain name consist of single letters and digits. -/
theorem plain_of_mem_wordsOf {s : String} (h : IsPlain s) {w : List Cluster} (hw : w ∈ wordsOf s) :
    ∀ g ∈ w, ∃ c, isPlainAlphanumeric c ∧ g = [c] := by
  intro g hg
  have hmem : g ∈ (wordsOf s).flatten := List.mem_flatten.2 ⟨w, hw, hg⟩
  rw [wordsOf_flatten h] at hmem
  obtain ⟨c, hc, rfl⟩ := List.mem_map.1 hmem
  exact ⟨c, h c hc, rfl⟩

theorem plain_of_mem_flatten {w : List Cluster} {c : Char}
    (h : ∀ g ∈ w, ∃ d, isPlainAlphanumeric d ∧ g = [d]) (hc : c ∈ w.flatten) :
    isPlainAlphanumeric c := by
  obtain ⟨g, hg, hc⟩ := List.mem_flatten.1 hc
  obtain ⟨d, hd, rfl⟩ := h g hg
  exact List.mem_singleton.1 hc ▸ hd

/-! ## Styles -/

/-- The words of a name in lowercase. -/
def lowerWords (s : String) : List String :=
  (wordsOf s).map fun w => .ofList (WordCase.lower.apply w)

/-- A word with its first character in uppercase. -/
def capitalised (word : String) : String :=
  match word.toList with
  | [] => ""
  | c :: cs => .ofList (c.toUpper :: cs)

/-- A style that cases all words alike joins them. -/
theorem apply_uniform (c : WordCase) (separator s : String) :
    NamingStyle.apply ⟨c, c, separator⟩ s =
      join separator ((wordsOf s).map fun w => .ofList (c.apply w)) := by
  unfold NamingStyle.apply
  cases wordsOf s with
  | nil => rfl
  | cons word rest => rfl

theorem kebab_eq (s : String) : kebab s = join "-" (lowerWords s) := apply_uniform .lower "-" s

theorem snake_eq (s : String) : snake s = join "_" (lowerWords s) := apply_uniform .lower "_" s

section
variable {s s' : String}

theorem lower_apply {w : List Cluster} (h : ∀ g ∈ w, ∃ c, isPlainAlphanumeric c ∧ g = [c]) :
    WordCase.lower.apply w = w.flatten.map Char.toLower := by
  refine lowerList_of_ascii (fun c hc => ?_) []
  have hrange := toNat_lt_of_plain (plain_of_mem_flatten h hc)
  omega

theorem capital_apply {w : List Cluster} (h : ∀ g ∈ w, ∃ c, isPlainAlphanumeric c ∧ g = [c]) :
    .ofList (WordCase.capital.apply w) = capitalised (.ofList (WordCase.lower.apply w)) := by
  rw [lower_apply h]
  cases w with
  | nil => rfl
  | cons g w =>
    obtain ⟨⟨c, hc, rfl⟩, hw⟩ := List.forall_mem_cons.1 h
    have hrest := lower_apply hw
    rw [WordCase.apply] at hrest
    unfold capitalised
    rw [WordCase.apply, hrest, String.toList_ofList]
    have hascii : c.toNat < 128 := by
      have hrange := toNat_lt_of_plain hc
      omega
    simp [upperChar_of_ascii hascii, (recases hc).again]

/-- PascalCase capitalises the lowercase words. -/
theorem pascal_eq (h : IsPlain s) : pascal s = join "" ((lowerWords s).map capitalised) := by
  have hwords : (wordsOf s).map (fun w => String.ofList (WordCase.capital.apply w)) =
      (lowerWords s).map capitalised := by
    rw [lowerWords, List.map_map]
    exact List.map_congr_left fun w hw => capital_apply (plain_of_mem_wordsOf h hw)
  rw [← hwords]
  unfold pascal NamingStyle.apply
  cases wordsOf s with
  | nil => rfl
  | cons word rest => rfl

theorem isPlain_of_mem_lowerWords (h : IsPlain s) {w : String} (hw : w ∈ lowerWords s) :
    IsPlain w := by
  obtain ⟨word, hword, rfl⟩ := List.mem_map.1 hw
  have hplain := plain_of_mem_wordsOf h hword
  rw [lower_apply hplain, IsPlain, String.toList_ofList]
  intro c hc
  obtain ⟨d, hd, rfl⟩ := List.mem_map.1 hc
  exact (recases (plain_of_mem_flatten hplain hd)).lower

theorem lowerWords_ne_nil (h : IsPlain s) (hne : s ≠ "") : lowerWords s ≠ [] := by
  intro hnil
  have hwords : wordsOf s = [] := List.map_eq_nil_iff.1 hnil
  have hflat := wordsOf_flatten h
  rw [hwords] at hflat
  exact hne (String.toList_eq_nil_iff.1 (List.map_eq_nil_iff.1 hflat.symm))

/-- Names of letters and digits have the same words if they join to the same. -/
theorem lowerWords_eq_of_join_eq {c : Char} (hc : isPlainAlphanumeric c = false) (h : IsPlain s)
    (h' : IsPlain s') (hne : s ≠ "") (hne' : s' ≠ "")
    (heq : join (.singleton c) (lowerWords s) = join (.singleton c) (lowerWords s')) :
    lowerWords s = lowerWords s' := by
  have hnot : ∀ {s}, IsPlain s → ∀ w ∈ lowerWords s, c ∉ w.toList := by
    intro s hs w hw hmem
    have hplain := isPlain_of_mem_lowerWords hs hw c hmem
    rw [hc] at hplain
    cases hplain
  rw [← splitAtChar_join (lowerWords_ne_nil h hne) (hnot h), heq,
    splitAtChar_join (lowerWords_ne_nil h' hne') (hnot h')]

theorem pascal_eq_of_kebab_eq (h : IsPlain s) (h' : IsPlain s') (hne : s ≠ "") (hne' : s' ≠ "")
    (heq : kebab s = kebab s') : pascal s = pascal s' := by
  rw [kebab_eq, kebab_eq] at heq
  rw [pascal_eq h, pascal_eq h', lowerWords_eq_of_join_eq (c := '-') rfl h h' hne hne' heq]

theorem pascal_eq_of_snake_eq (h : IsPlain s) (h' : IsPlain s') (hne : s ≠ "") (hne' : s' ≠ "")
    (heq : snake s = snake s') : pascal s = pascal s' := by
  rw [snake_eq, snake_eq] at heq
  rw [pascal_eq h, pascal_eq h', lowerWords_eq_of_join_eq (c := '_') rfl h h' hne hne' heq]

/-! ## Characters of styles -/

theorem mem_join {separator : String} {c : Char} : ∀ {items : List String},
    c ∈ (join separator items).toList →
      c ∈ separator.toList ∨ ∃ item ∈ items, c ∈ item.toList
  | [], h => by simp [join] at h
  | [item], h => .inr ⟨item, List.mem_cons_self, by simpa [join] using h⟩
  | item :: item' :: items, h => by
    rw [join, String.intercalate_cons_cons] at h
    simp only [String.toList_append, List.mem_append] at h
    rcases h with (h | h) | h
    · exact .inr ⟨item, List.mem_cons_self, h⟩
    · exact .inl h
    · change c ∈ (join separator (item' :: items)).toList at h
      rcases mem_join h with h | ⟨piece, hpiece, h⟩
      · exact .inl h
      · exact .inr ⟨piece, .tail _ hpiece, h⟩

theorem isPlain_capitalised {w : String} (h : IsPlain w) : IsPlain (capitalised w) := by
  unfold capitalised
  cases hw : w.toList with
  | nil => simp [IsPlain]
  | cons c cs =>
    rw [IsPlain, hw] at h
    rw [IsPlain, String.toList_ofList]
    obtain ⟨hc, hcs⟩ := List.forall_mem_cons.1 h
    exact List.forall_mem_cons.2 ⟨(recases hc).upper, hcs⟩

theorem isPlain_pascal (h : IsPlain s) : IsPlain (pascal s) := by
  intro c hc
  rw [pascal_eq h] at hc
  rcases mem_join hc with hc | ⟨item, hitem, hc⟩
  · cases hc
  · obtain ⟨w, hw, rfl⟩ := List.mem_map.1 hitem
    exact isPlain_capitalised (isPlain_of_mem_lowerWords h hw) c hc

theorem notMem_pascal (h : IsPlain s) {c : Char} (hc : isPlainAlphanumeric c = false) :
    c ∉ (pascal s).toList :=
  fun hmem => Bool.false_ne_true (hc.symm.trans (isPlain_pascal h c hmem))

theorem notMem_join_lowerWords {separator : String} (h : IsPlain s) {c : Char}
    (hc : isPlainAlphanumeric c = false) (hseparator : c ∉ separator.toList) :
    c ∉ (join separator (lowerWords s)).toList := by
  intro hmem
  rcases mem_join hmem with hmem | ⟨w, hw, hmem⟩
  · exact hseparator hmem
  · exact Bool.false_ne_true (hc.symm.trans (isPlain_of_mem_lowerWords h hw c hmem))

theorem notMem_kebab (h : IsPlain s) {c : Char} (hc : isPlainAlphanumeric c = false)
    (hne : c ≠ '-') : c ∉ (kebab s).toList := by
  rw [kebab_eq]
  exact notMem_join_lowerWords h hc (by simpa using hne)

theorem notMem_snake (h : IsPlain s) {c : Char} (hc : isPlainAlphanumeric c = false)
    (hne : c ≠ '_') : c ∉ (snake s).toList := by
  rw [snake_eq]
  exact notMem_join_lowerWords h hc (by simpa using hne)

end

end DesignSystem.Text
