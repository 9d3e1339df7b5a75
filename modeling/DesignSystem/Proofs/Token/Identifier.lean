import DesignSystem.Proofs.Text.Camel
import DesignSystem.Proofs.Text.Split
import DesignSystem.Token.Symbol

/-!
# Identifiers that are words of a language

The name of a token is made an identifier part by part. Each part but the first one leaves a mark: an
underscore, a capital or a digit. So an identifier without such a mark comes from a single part, and
that part from a single word.

* `identifierParts_eq`: the parts of a name are those of its segments.
* `isIdentifier_identifier`: an identifier holds nothing but letters, digits and underscores.
* `toList_identifier`: it starts with a letter, whatever the name.
* `shows_identifierParts`: what the parts of a name leave of themselves in the identifier.
* `identifier_eq_iff`: the identifier is a given lowercase word just if the name spells that word.
-/

set_option autoImplicit false

namespace DesignSystem.Token

open Text (IsPlain IsWord lowerWords capitalised casedWords)

/-- A name that has, besides separators, nothing but one word, in whatever case. -/
def Spells (name word : String) : Prop := (identifierParts name).map lowerWords = [[word]]

instance (name word : String) : Decidable (Spells name word) :=
  inferInstanceAs (Decidable (_ = _))

variable {name part word ident : String} {parts : List String}

/-! ## Parts -/

theorem of_mem_identifierParts (h : part ∈ identifierParts name) : part ≠ "" ∧ IsPlain part := by
  obtain ⟨h, hne⟩ := List.mem_filter.1 h
  obtain ⟨cs, hcs, rfl⟩ := List.mem_map.1 h
  refine ⟨fun hempty => by simp [hempty] at hne, fun c hc => ?_⟩
  rw [String.toList_ofList] at hc
  simpa using Text.of_mem_splitList hcs c hc

/-- The parts of a name are those of its segments: what separates segments separates parts, too. -/
theorem identifierParts_eq (name : String) : identifierParts name =
    (Text.splitWhere (fun c => c == '-' || c == '_') name).flatMap identifierParts := by
  have hsep : ∀ c : Char, (c == '-' || c == '_') = true → (!Text.isPlainAlphanumeric c) = true := by
    intro c hc
    rcases Bool.or_eq_true_iff.1 hc with hc | hc <;> rw [eq_of_beq hc] <;> rfl
  unfold identifierParts Text.splitWhere
  rw [← Text.flatMap_splitList hsep name.toList, List.map_flatMap, List.filter_flatMap,
    List.flatMap_map]
  simp only [String.toList_ofList]

theorem isIdentifier_extend (h : Text.IsIdentifier ident) (segment : String) :
    Text.IsIdentifier (extendIdentifier ident segment) := by
  have hrecase : ∀ recase : String → String, (∀ part, IsPlain part → IsPlain (recase part)) →
      Text.IsIdentifier (ident ++ Text.join "_" ((identifierParts segment).map recase)) := by
    intro recase hplain c hc
    rw [String.toList_append] at hc
    rcases List.mem_append.1 hc with hc | hc
    · exact h c hc
    · rcases Text.mem_join hc with hc | ⟨item, hitem, hc⟩
      · exact .inr (List.mem_singleton.1 hc)
      · obtain ⟨part, hpart, rfl⟩ := List.mem_map.1 hitem
        exact .inl (hplain part (of_mem_identifierParts hpart).2 c hc)
  unfold extendIdentifier
  split
  · exact hrecase _ fun part hpart => Text.IsIdentifier.isPlain_camel fun c hc => .inl (hpart c hc)
  · exact hrecase _ fun part hpart => Text.isPlain_pascal hpart

/-- An identifier holds nothing but letters, digits and underscores. -/
theorem isIdentifier_identifier (name : String) : Text.IsIdentifier (identifier name) := by
  have hident : Text.IsIdentifier
      ((Text.splitWhere (fun c => c == '-' || c == '_') name).foldl extendIdentifier "") :=
    List.foldlRecOn _ _ nofun fun _ h segment _ => isIdentifier_extend h segment
  unfold identifier
  dsimp only
  split
  · have hplain : "token".toList.all Text.isPlainAlphanumeric := by decide
    exact fun c hc => .inl (List.all_eq_true.1 hplain c hc)
  · split
    · intro c hc
      rw [String.toList_append] at hc
      rcases List.mem_append.1 hc with hc | hc
      · exact .inl (List.mem_singleton.1 hc ▸ rfl)
      · exact hident c hc
    · exact hident

/-! ## Marks -/

/-- A text with a character besides lowercase letters behind its first character. -/
def IsMarked (s : String) : Prop := ∃ c ∈ s.toList.tail, c.isLower = false

theorem IsMarked.append {s : String} (h : IsMarked s) (t : String) : IsMarked (s ++ t) := by
  obtain ⟨c, hc, hlower⟩ := h
  refine ⟨c, ?_, hlower⟩
  rw [String.toList_append, List.tail_append_of_ne_nil (List.ne_nil_of_mem (List.mem_of_mem_tail hc))]
  exact List.mem_append_left _ hc

/-- What is appended to a text stands behind the first character. -/
theorem isMarked_append {s t : String} {c : Char} (hs : s ≠ "") (hc : c ∈ t.toList)
    (hlower : c.isLower = false) : IsMarked (s ++ t) := by
  refine ⟨c, ?_, hlower⟩
  rw [String.toList_append, List.tail_append_of_ne_nil fun h => hs (String.toList_eq_nil_iff.1 h)]
  exact List.mem_append_right _ hc

theorem isLower_eq_false {c : Char} (hc : c.isUpper = true ∨ c.isDigit = true) :
    c.isLower = false := by
  refine Text.of_ascii (P := fun c => c.isUpper = true ∨ c.isDigit = true → c.isLower = false)
    (by decide +kernel) ?_ hc
  exact (Text.isPrintable_of_plain (hc.elim Text.plain_of_isUpper Text.plain_of_isDigit)).lt

/-- A capital or a digit is in front of a capitalised word. -/
theorem exists_mem_capitalised (h : IsWord word) :
    ∃ c ∈ (capitalised word).toList, c.isLower = false := by
  obtain ⟨hcased, hupper⟩ := h.capitalised
  refine ⟨_, List.head_mem hcased.ne, isLower_eq_false ?_⟩
  cases hnumeral : Text.isNumeral word with
  | true => exact .inr ((hcased.isDigit _ (List.head_mem hcased.ne)).trans hnumeral)
  | false => exact .inl (hupper _ (List.head_mem_head? hcased.ne) hnumeral)

theorem exists_mem_pascal (h : part ≠ "" ∧ IsPlain part) :
    ∃ c ∈ (Text.pascal part).toList, c.isLower = false := by
  obtain ⟨hne, hplain⟩ := h
  obtain ⟨word, rest, hwords⟩ := List.exists_cons_of_ne_nil (Text.lowerWords_ne_nil hplain hne)
  have hword : IsWord word := by
    refine Text.IsIdentifier.isWord_of_mem_lowerWords (fun c hc => .inl (hplain c hc)) word ?_
    rw [hwords]
    exact List.mem_cons_self
  obtain ⟨c, hc, hlower⟩ := exists_mem_capitalised hword
  refine ⟨c, ?_, hlower⟩
  rw [Text.pascal_eq hplain, Text.toList_join_nothing, hwords]
  exact List.mem_append_left _ hc

/-- In camelCase, a part shows that it has several words. -/
theorem camel_cases (h : part ≠ "" ∧ IsPlain part) :
    (∃ word, lowerWords part = [word] ∧ Text.camel part = word) ∨
      (lowerWords part).length ≠ 1 ∧ IsMarked (Text.camel part) := by
  obtain ⟨hne, hplain⟩ := h
  have hident : Text.IsIdentifier part := fun c hc => .inl (hplain c hc)
  have hallwords := hident.isWord_of_mem_lowerWords
  rw [hident.camel_eq]
  cases hwords : lowerWords part with
  | nil => exact absurd hwords (Text.lowerWords_ne_nil hplain hne)
  | cons word rest =>
    rw [hwords] at hallwords
    obtain ⟨hword, hrest⟩ := List.forall_mem_cons.1 hallwords
    cases rest with
    | nil => exact .inl ⟨word, rfl, by simp [casedWords, Text.join]⟩
    | cons next rest =>
      obtain ⟨c, hc, hlower⟩ := exists_mem_capitalised (hrest next List.mem_cons_self)
      have hmarked := isMarked_append (t := Text.join "" ((next :: rest).map capitalised))
        hword.ne (by rw [Text.toList_join_nothing]; exact List.mem_append_left _ hc) hlower
      refine .inr ⟨by simp, ?_⟩
      rw [casedWords, List.map_cons, Text.join_cons_cons, String.append_empty]
      exact hmarked

theorem camel_ne_empty (h : part ≠ "" ∧ IsPlain part) : Text.camel part ≠ "" := by
  rcases camel_cases h with ⟨word, hwords, hcamel⟩ | ⟨-, c, hc, -⟩
  · have hident : Text.IsIdentifier part := fun c hc => .inl (h.2 c hc)
    rw [hcamel]
    exact (hident.isWord_of_mem_lowerWords word (by rw [hwords]; exact List.mem_cons_self)).ne
  · intro hempty
    rw [hempty] at hc
    cases hc

/-! ## The first character -/

/-- A text that does not start with an underscore, or anything else that no part holds. -/
def StartsPlain (s : String) : Prop := ∀ c ∈ s.toList.head?, Text.isPlainAlphanumeric c

theorem StartsPlain.append {s t : String} (hs : StartsPlain s) (ht : StartsPlain t) :
    StartsPlain (s ++ t) := by
  intro c hc
  rw [String.toList_append, List.head?_append, Option.mem_def, Option.or_eq_some_iff] at hc
  rcases hc with hc | ⟨-, hc⟩
  · exact hs c hc
  · exact ht c hc

theorem startsPlain_join {first : String} (h : IsPlain first) (hne : first ≠ "")
    (rest : List String) : StartsPlain (Text.join "_" (first :: rest)) := by
  have hfirst : StartsPlain first := fun c hc => h c (List.mem_of_head? hc)
  cases rest with
  | nil => exact hfirst
  | cons next rest =>
    intro c hc
    rw [Text.join_cons_cons, String.append_assoc, String.toList_append,
      List.head?_append_of_ne_nil _ fun h => hne (String.toList_eq_nil_iff.1 h)] at hc
    exact hfirst c hc

theorem StartsPlain.extend (h : StartsPlain ident) (segment : String) :
    StartsPlain (extendIdentifier ident segment) := by
  have hrecase : ∀ recase : String → String,
      (∀ part, part ≠ "" ∧ IsPlain part → IsPlain (recase part) ∧ recase part ≠ "") →
      StartsPlain (ident ++ Text.join "_" ((identifierParts segment).map recase)) := by
    intro recase hpart
    refine h.append ?_
    cases hparts : identifierParts segment with
    | nil => exact nofun
    | cons part rest =>
      obtain ⟨hplain, hne⟩ :=
        hpart part (of_mem_identifierParts (by rw [hparts]; exact List.mem_cons_self))
      exact startsPlain_join hplain hne _
  unfold extendIdentifier
  split
  · exact hrecase _ fun part hpart =>
      ⟨Text.IsIdentifier.isPlain_camel fun c hc => .inl (hpart.2 c hc), camel_ne_empty hpart⟩
  · refine hrecase _ fun part hpart => ⟨Text.isPlain_pascal hpart.2, ?_⟩
    obtain ⟨c, hc, -⟩ := exists_mem_pascal hpart
    intro hempty
    rw [hempty] at hc
    cases hc

/-- The first character of an identifier is a letter. -/
theorem exists_letter_identifier (name : String) :
    ∃ c cs, (identifier name).toList = c :: cs ∧ c.isAlpha := by
  have hstart : StartsPlain
      ((Text.splitWhere (fun c => c == '-' || c == '_') name).foldl extendIdentifier "") :=
    List.foldlRecOn _ _ nofun fun _ h segment _ => h.extend segment
  unfold identifier
  dsimp only
  split
  · exact ⟨'t', "oken".toList, rfl, rfl⟩
  · next c cs hident =>
    split
    · exact ⟨'t', _, String.toList_append, rfl⟩
    · next hdigit =>
      have hc : c.isAlpha ∨ c.isDigit := Bool.or_eq_true_iff.1 (hstart c (by rw [hident]; rfl))
      exact ⟨c, cs, hident, hc.resolve_right hdigit⟩

/-- **The identifier of a name is one, whatever the name.** It starts with a letter, and letters,
digits and underscores follow. -/
theorem toList_identifier (name : String) :
    ∃ c cs, (identifier name).toList = c :: cs ∧ c.isAlpha ∧
      ∀ d ∈ cs, d.isAlpha ∨ d.isDigit ∨ d = '_' := by
  obtain ⟨c, cs, hname, hc⟩ := exists_letter_identifier name
  refine ⟨c, cs, hname, hc, fun d hd => ?_⟩
  have hchar := isIdentifier_identifier name d (by rw [hname]; exact List.mem_cons_of_mem _ hd)
  rwa [Text.isPlainAlphanumeric, Bool.or_eq_true, or_assoc] at hchar

/-- Only what an identifier can hold is left of a segment. -/
example : identifier "--0.5é__Blue-" = "t0_5Blue" := by decide +kernel

/-! ## The identifier of a name -/

/-- What some parts leave of themselves in an identifier: one of them is it in camelCase, and of
more, marks are left. -/
def Shows (ident : String) : List String → Prop
  | [] => ident = ""
  | [part] => ident = Text.camel part
  | _ => IsMarked ident

theorem Shows.ne_empty (h : Shows ident parts) (hparts : ∀ part ∈ parts, part ≠ "" ∧ IsPlain part)
    (hne : parts ≠ []) : ident ≠ "" := by
  match parts, hne with
  | [part], _ =>
    rw [show ident = _ from h]
    exact camel_ne_empty (hparts part List.mem_cons_self)
  | _ :: _ :: _, _ =>
    obtain ⟨c, hc, -⟩ := h
    rintro rfl
    cases hc

/-- The parts of a further segment. -/
theorem Shows.extend (h : Shows ident parts) (hparts : ∀ part ∈ parts, part ≠ "" ∧ IsPlain part)
    (segment : String) :
    Shows (extendIdentifier ident segment) (parts ++ identifierParts segment) := by
  have hmore : ∀ part ∈ identifierParts segment, part ≠ "" ∧ IsPlain part :=
    fun _ => of_mem_identifierParts
  unfold extendIdentifier
  cases parts with
  | nil =>
    -- the first part of the name is in this segment, if anywhere
    obtain rfl : ident = "" := h
    rw [String.empty_append, List.nil_append]
    show Shows (Text.join "_" ((identifierParts segment).map Text.camel)) _
    generalize identifierParts segment = found at hmore ⊢
    cases found with
    | nil => rfl
    | cons part more =>
      cases more with
      | nil => simp [Shows, Text.join]
      | cons next rest =>
        rw [List.map_cons, List.map_cons, Text.join_cons_cons, String.append_assoc]
        exact isMarked_append (c := '_') (camel_ne_empty (hmore part List.mem_cons_self))
          (by simp) rfl
  | cons part rest =>
    have hident : ident ≠ "" := h.ne_empty hparts (List.cons_ne_nil _ _)
    have hnonempty : ident.isEmpty = false := by simpa using hident
    rw [hnonempty]
    show Shows (ident ++ Text.join "_" ((identifierParts segment).map Text.pascal)) _
    generalize identifierParts segment = found at hmore ⊢
    cases found with
    | nil => simpa [Text.join] using h
    | cons next more =>
      have hmarked : IsMarked (ident ++ Text.join "_" ((next :: more).map Text.pascal)) := by
        obtain ⟨c, hc, hlower⟩ := exists_mem_pascal (hmore next List.mem_cons_self)
        exact isMarked_append hident
          ((Text.infix_join (List.mem_cons_self (a := Text.pascal next))).subset hc) hlower
      cases rest <;> exact hmarked

theorem shows_foldl (segments : List String) (h : Shows ident parts)
    (hparts : ∀ part ∈ parts, part ≠ "" ∧ IsPlain part) :
    Shows (segments.foldl extendIdentifier ident) (parts ++ segments.flatMap identifierParts) := by
  induction segments generalizing ident parts with
  | nil => simpa using h
  | cons segment segments ih =>
    rw [List.foldl_cons, List.flatMap_cons, ← List.append_assoc]
    refine ih (h.extend hparts segment) fun part hpart => ?_
    exact (List.mem_append.1 hpart).elim (hparts part) of_mem_identifierParts

/-- The identifier of a name, but for what is put in front of a digit or in place of nothing, shows
the parts of the name. -/
theorem shows_identifierParts (name : String) : ∃ ident, Shows ident (identifierParts name) ∧
    identifier name =
      match ident.toList with
      | [] => "token"
      | c :: _ => if c.isDigit then "t" ++ ident else ident := by
  refine ⟨_, ?_, rfl⟩
  have hnothing : Shows "" [] := rfl
  rw [identifierParts_eq]
  exact shows_foldl _ hnothing (List.forall_mem_nil _)

/-- A letter and lowercase letters, and not the word that stands for a name without any. -/
structure IsLanguageWord (word : String) : Prop where
  head : ∀ c ∈ word.toList.head?, c.isDigit = false
  tail : ∀ c ∈ word.toList.tail, c.isLower = true
  ne : word ≠ "token"

instance (word : String) : Decidable (IsLanguageWord word) :=
  decidable_of_iff (word.toList.head?.all (!·.isDigit) = true ∧
    word.toList.tail.all Char.isLower = true ∧ word ≠ "token")
    ⟨fun ⟨hhead, htail, hne⟩ => ⟨by simpa [Option.all_eq_true] using hhead, List.all_eq_true.1 htail, hne⟩,
      fun h => ⟨by simpa [Option.all_eq_true] using h.head, List.all_eq_true.2 h.tail, h.ne⟩⟩

theorem IsLanguageWord.not_isMarked (h : IsLanguageWord word) : ¬ IsMarked word := by
  rintro ⟨c, hc, hlower⟩
  rw [h.tail c hc] at hlower
  cases hlower

/-- **The identifier of a name is a word of a language just if the name spells that word.** -/
theorem identifier_eq_iff (h : IsLanguageWord word) : identifier name = word ↔ Spells name word := by
  obtain ⟨ident, hshows, heq⟩ := shows_identifierParts name
  have hparts : ∀ part ∈ identifierParts name, part ≠ "" ∧ IsPlain part :=
    fun _ => of_mem_identifierParts
  rw [heq]
  cases hident : ident.toList with
  | nil =>
    -- then the name has no part
    have hnil : identifierParts name = [] := by
      by_contra hne
      exact hshows.ne_empty hparts hne (String.toList_eq_nil_iff.1 hident)
    rw [Spells, hnil]
    exact iff_of_false h.ne.symm nofun
  | cons c cs =>
    show (if c.isDigit then "t" ++ ident else ident) = word ↔ _
    have hmem : c ∈ ident.toList := by rw [hident]; exact List.mem_cons_self
    -- an identifier with marks is no such word, nor is a name with a second word one
    have hmarked : IsMarked ident → (if c.isDigit then "t" ++ ident else ident) ≠ word := by
      rintro ⟨d, hd, hlower⟩ rfl
      split_ifs at h
      · exact h.not_isMarked (isMarked_append (by decide) (List.mem_of_mem_tail hd) hlower)
      · exact h.not_isMarked ⟨d, hd, hlower⟩
    match hname : identifierParts name, hshows, hparts with
    | [], hshows, _ =>
      rw [show ident = "" from hshows] at hident
      cases hident
    | [part], hshows, hparts =>
      have hspells : Spells name word ↔ lowerWords part = [word] := by simp [Spells, hname]
      rw [hspells]
      obtain rfl : ident = Text.camel part := hshows
      rcases camel_cases (hparts part List.mem_cons_self) with
        ⟨single, hsingle, hcamel⟩ | ⟨hlength, hmark⟩
      · rw [hsingle, List.cons.injEq, and_iff_left rfl, ← hcamel]
        by_cases hdigit : c.isDigit = true
        · rw [if_pos hdigit]
          constructor
          · rintro rfl
            exact absurd (isMarked_append (by decide) hmem (isLower_eq_false (.inr hdigit)))
              h.not_isMarked
          · rintro rfl
            rw [h.head c (by rw [hident]; rfl)] at hdigit
            cases hdigit
        · rw [if_neg hdigit]
      · refine iff_of_false (hmarked hmark) fun hwords => ?_
        rw [hwords] at hlength
        exact hlength rfl
    | _ :: _ :: _, hshows, _ =>
      exact iff_of_false (hmarked hshows) (by simp [Spells, hname])

end DesignSystem.Token
