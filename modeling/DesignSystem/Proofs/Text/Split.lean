import DesignSystem.Text.Basic

/-!
# Splitting what was joined, and searching

* `splitAtChar_join`: texts without a separator are the pieces of what they join to.
* `flatMap_splitList`: splitting at some separators first and then at all of them.
* `toList_unlines`, `toList_file`: a line feed follows each line, but not the last one of a text.
* `startsWith_iff`, `endsWith_iff`: what stands at the front and at the back of a text.
* `contains_iff`: the search for a part in a text.
* `infix_append_cons_iff`: a part stands on one side of a character that it lacks.
* `cutList_eq_some_iff`: a text is cut at the first separator.
-/

set_option autoImplicit false

namespace DesignSystem.Text

variable {p : Char → Bool} {c : Char} {cs rest : List Char}

theorem splitList_of_notMem (h : ∀ x ∈ cs, p x = false) : splitList p cs = [cs] := by
  induction cs with
  | nil => rfl
  | cons x cs ih =>
    have hx : p x = false := h x List.mem_cons_self
    rw [splitList, ih fun y hy => h y (.tail _ hy), hx]
    rfl

theorem splitList_append (h : ∀ x ∈ cs, p x = false) (hc : p c = true) :
    splitList p (cs ++ c :: rest) = cs :: splitList p rest := by
  induction cs with
  | nil => rw [List.nil_append, splitList, if_pos hc]
  | cons x cs ih =>
    have hx : p x = false := h x List.mem_cons_self
    rw [List.cons_append, splitList, ih fun y hy => h y (.tail _ hy), hx]
    rfl

theorem splitList_ne_nil (p : Char → Bool) (cs : List Char) : splitList p cs ≠ [] := by
  fun_cases splitList p cs <;> simp

theorem of_mem_splitList {piece : List Char} (h : piece ∈ splitList p cs) :
    ∀ x ∈ piece, p x = false := by
  induction cs generalizing piece with
  | nil =>
    obtain rfl := List.mem_singleton.1 h
    exact nofun
  | cons x cs ih =>
    by_cases hx : p x = true
    · rw [splitList, if_pos hx] at h
      rcases List.mem_cons.1 h with rfl | h
      · exact nofun
      · exact ih h
    · obtain ⟨first, more, hpieces⟩ := List.exists_cons_of_ne_nil (splitList_ne_nil p cs)
      rw [splitList, if_neg hx, hpieces] at h
      rw [hpieces] at ih
      rcases List.mem_cons.1 h with rfl | h
      · exact List.forall_mem_cons.2 ⟨Bool.eq_false_iff.2 hx, ih List.mem_cons_self⟩
      · exact ih (.tail _ h)

/-- The pieces have all characters but the separators. -/
theorem flatten_splitList (p : Char → Bool) (cs : List Char) :
    (splitList p cs).flatten = cs.filter (!p ·) := by
  induction cs with
  | nil => rfl
  | cons c cs ih =>
    rw [splitList]
    split
    · next hc => rw [List.flatten_cons, ih, List.nil_append, List.filter_cons_of_neg (by simp [hc])]
    · next hc =>
      obtain ⟨piece, pieces, hpieces⟩ := List.exists_cons_of_ne_nil (splitList_ne_nil p cs)
      rw [hpieces, List.flatten_cons] at ih
      rw [hpieces, List.filter_cons_of_pos (by simpa using hc), ← ih]
      rfl

/-- Splitting at some of the separators, and then each piece at all of them, splits at all. -/
theorem flatMap_splitList {q : Char → Bool} (hq : ∀ c, q c = true → p c = true) (cs : List Char) :
    (splitList q cs).flatMap (splitList p) = splitList p cs := by
  induction cs with
  | nil => rfl
  | cons c cs ih =>
    obtain ⟨piece, pieces, hpieces⟩ := List.exists_cons_of_ne_nil (splitList_ne_nil q cs)
    rw [hpieces, List.flatMap_cons] at ih
    by_cases hqc : q c = true
    · rw [splitList, if_pos hqc, hpieces, List.flatMap_cons, List.flatMap_cons, ih, splitList,
        splitList, if_pos (hq c hqc)]
      rfl
    · rw [splitList, if_neg hqc, hpieces]
      show splitList p (c :: piece) ++ pieces.flatMap (splitList p) = _
      by_cases hpc : p c = true
      · rw [splitList, if_pos hpc, splitList, if_pos hpc, ← ih]
        rfl
      · -- `c` stands in front of the first piece, on both sides
        obtain ⟨first, more, hfirst⟩ := List.exists_cons_of_ne_nil (splitList_ne_nil p piece)
        rw [splitList, if_neg hpc, splitList, if_neg hpc, ← ih, hfirst]
        rfl

/-- Texts without a separator are the pieces of what they join to. -/
theorem splitAtChar_join {items : List String} (hne : items ≠ [])
    (h : ∀ s ∈ items, c ∉ s.toList) : splitAtChar c (join (String.singleton c) items) = items := by
  have hpiece : ∀ s ∈ items, ∀ x ∈ s.toList, (x == c) = false := by
    intro s hs x hx
    have hxc : x ≠ c := fun he => h s hs (he ▸ hx)
    simpa using hxc
  rw [splitAtChar, splitWhere, join]
  induction items with
  | nil => exact absurd rfl hne
  | cons s items ih =>
    have hs := hpiece s List.mem_cons_self
    cases items with
    | nil => simp [splitList_of_notMem hs]
    | cons s' items =>
      have ih := ih (by simp) (fun x hx => h x (.tail _ hx)) fun x hx => hpiece x (.tail _ hx)
      rw [String.intercalate_cons_cons]
      simp only [String.toList_append, String.toList_singleton, List.append_assoc,
        List.singleton_append]
      rw [splitList_append hs (by simp), List.map_cons, ih, String.ofList_toList]

theorem toList_repeated (c : Char) (n : Nat) : (repeated c n).toList = List.replicate n c :=
  String.toList_ofList

theorem unlines_cons {items : List String} (item : String) (h : items ≠ []) :
    unlines (item :: items) = item ++ "\n" ++ unlines items := by
  cases items with
  | nil => exact absurd rfl h
  | cons next items => exact String.intercalate_cons_cons

theorem join_cons_cons (sep p q : String) (ps : List String) :
    join sep (p :: q :: ps) = p ++ sep ++ join sep (q :: ps) := String.intercalate_cons_cons

theorem exists_join_cons (sep item : String) (items : List String) :
    ∃ rest, join sep (item :: items) = item ++ rest := by
  cases items with
  | nil => exact ⟨"", by simp [join]⟩
  | cons next items => exact ⟨sep ++ join sep (next :: items), by
      rw [join_cons_cons, String.append_assoc]⟩

theorem infix_append_left (s after : String) : s.toList <:+: (s ++ after).toList := by
  rw [String.toList_append]
  exact (List.prefix_append _ _).isInfix

theorem infix_append_right (before s : String) : s.toList <:+: (before ++ s).toList := by
  rw [String.toList_append]
  exact (List.suffix_append _ _).isInfix

theorem infix_join {sep item : String} {items : List String} (h : item ∈ items) :
    item.toList <:+: (join sep items).toList := by
  induction items with
  | nil => cases h
  | cons first items ih =>
    cases items with
    | nil =>
      rw [List.mem_singleton.1 h]
      simp [join]
    | cons next items =>
      rw [join_cons_cons]
      rcases List.mem_cons.1 h with rfl | h
      · exact (infix_append_left item sep).trans (infix_append_left _ _)
      · exact (ih h).trans (infix_append_right _ _)

theorem infix_unlines {item : String} {items : List String} (h : item ∈ items) :
    item.toList <:+: (unlines items).toList := infix_join h

/-- A line feed follows each line but the last. -/
theorem toList_unlines (items : List String) (last : String) :
    (unlines (items ++ [last])).toList =
      items.flatMap (fun line => line.toList ++ ['\n']) ++ last.toList := by
  induction items with
  | nil => simp [unlines, join]
  | cons item items ih =>
    rw [List.cons_append, unlines_cons item (by simp), String.toList_append, String.toList_append,
      ih, List.flatMap_cons]
    simp

/-- A line feed follows each line of a file. -/
theorem toList_file {items : List String} (h : items ≠ []) :
    (file items).toList = items.flatMap fun line => line.toList ++ ['\n'] := by
  rw [← List.dropLast_concat_getLast h, file, String.toList_append, toList_unlines,
    List.flatMap_append, List.flatMap_singleton, List.append_assoc]
  rfl

/-- A line of a file stands between line feeds, unless it is the first. -/
theorem infix_fileLine (first line : String) {lines : List String} (hline : line ∈ lines)
    (hfirst : lines.head? = some first) (hne : line ≠ first) :
    s!"\n{line}\n".toList <:+: (file lines).toList := by
  obtain ⟨rest, rfl⟩ := List.head?_eq_some_iff.1 hfirst
  obtain ⟨before, after, rfl⟩ := List.append_of_mem ((List.mem_cons.1 hline).resolve_left hne)
  obtain ⟨init, last, hfront⟩ : ∃ init last, first :: before = init ++ [last] :=
    ⟨_, _, (List.dropLast_concat_getLast (List.cons_ne_nil first before)).symm⟩
  rw [toList_file (List.cons_ne_nil _ _), ← List.cons_append, hfront]
  change ("\n" ++ line ++ "\n").toList <:+: _
  refine ⟨init.flatMap (fun line => line.toList ++ ['\n']) ++ last.toList,
    after.flatMap fun line => line.toList ++ ['\n'], ?_⟩
  simp

/-- Lines that follow each other stand in a text one after the other. -/
theorem infix_unlines_of_infix {part lines : List String} (h : part <:+: lines) (hpart : part ≠ []) :
    (unlines part).toList <:+: (unlines lines).toList := by
  obtain ⟨before, after, rfl⟩ := h
  obtain ⟨init, last, rfl⟩ : ∃ init last, part = init ++ [last] :=
    ⟨_, _, (List.dropLast_concat_getLast hpart).symm⟩
  rw [toList_unlines]
  rcases List.eq_nil_or_concat after with rfl | ⟨more, final, rfl⟩
  · rw [List.append_nil, ← List.append_assoc, toList_unlines, List.flatMap_append,
      List.append_assoc]
    exact (List.suffix_append _ _).isInfix
  · rw [List.concat_eq_append, ← List.append_assoc, toList_unlines]
    refine ⟨before.flatMap fun line => line.toList ++ ['\n'],
      '\n' :: (more.flatMap (fun line => line.toList ++ ['\n']) ++ final.toList), ?_⟩
    simp

/-! ## Taking pieces off -/

theorem dropFrontList_append_append (common front cs : List Char) :
    dropFrontList (common ++ front) (common ++ cs) = dropFrontList front cs := by
  induction common with
  | nil => rfl
  | cons c common ih => rw [List.cons_append, List.cons_append, dropFrontList, if_pos rfl, ih]

theorem dropFrontList_append (front cs : List Char) :
    dropFrontList front (front ++ cs) = some cs := by
  have hall := dropFrontList_append_append front [] cs
  rwa [List.append_nil] at hall

theorem dropFront?_append (front s : String) : dropFront? front (front ++ s) = some s := by
  rw [dropFront?, String.toList_append, dropFrontList_append, Option.map_some, String.ofList_toList]

theorem eq_append_of_dropFrontList : ∀ {front cs rest : List Char},
    dropFrontList front cs = some rest → cs = front ++ rest
  | [], _, _, h => Option.some.inj h
  | _ :: _, [], _, h => by cases h
  | c :: front, d :: cs, rest, h => by
    rw [dropFrontList] at h
    split at h
    · next heq => rw [heq, eq_append_of_dropFrontList h, List.cons_append]
    · cases h

theorem eq_append_of_dropFront? {front s rest : String} (h : dropFront? front s = some rest) :
    s = front ++ rest := by
  obtain ⟨cs, hcs, rfl⟩ := Option.map_eq_some_iff.1 h
  rw [← String.toList_inj, eq_append_of_dropFrontList hcs, String.toList_append,
    String.toList_ofList]

theorem dropBack?_append (back s : String) : dropBack? back (s ++ back) = some s := by
  rw [dropBack?, String.toList_append, List.reverse_append, dropFrontList_append, Option.map_some,
    List.reverse_reverse, String.ofList_toList]

theorem eq_append_of_dropBack? {back s rest : String} (h : dropBack? back s = some rest) :
    s = rest ++ back := by
  obtain ⟨cs, hcs, rfl⟩ := Option.map_eq_some_iff.1 h
  rw [← String.toList_inj, ← List.reverse_inj, eq_append_of_dropFrontList hcs]
  simp

theorem dropFrontList_of_ne {c d : Char} (h : c ≠ d) (front cs : List Char) :
    dropFrontList (c :: front) (d :: cs) = none := if_neg h

theorem dropFront?_eq_none {front s : String} (hfront : front.toList.head? = some c)
    (hs : s.toList.head? ≠ some c) : dropFront? front s = none := by
  obtain ⟨front', hfront'⟩ := List.head?_eq_some_iff.1 hfront
  rw [dropFront?, hfront']
  cases h : s.toList with
  | nil => rfl
  | cons d s' =>
    rw [h] at hs
    rw [dropFrontList_of_ne fun heq => hs (congrArg some heq.symm), Option.map_none]

theorem dropFront?_append_of_ne {common front s : String} {c d : Char}
    (hfront : front.toList.head? = some c) (hs : s.toList.head? = some d) (h : c ≠ d) :
    dropFront? (common ++ front) (common ++ s) = none := by
  rw [dropFront?, String.toList_append, String.toList_append, dropFrontList_append_append]
  obtain ⟨front', hfront'⟩ := List.head?_eq_some_iff.1 hfront
  obtain ⟨s', hs'⟩ := List.head?_eq_some_iff.1 hs
  rw [hfront', hs', dropFrontList_of_ne h, Option.map_none]

theorem dropBack?_append_of_ne {common back s : String} {c d : Char}
    (hback : back.toList.getLast? = some c) (hs : s.toList.getLast? = some d) (h : c ≠ d) :
    dropBack? (back ++ common) (s ++ common) = none := by
  rw [dropBack?, String.toList_append, String.toList_append, List.reverse_append,
    List.reverse_append, dropFrontList_append_append]
  obtain ⟨back', hback'⟩ := List.getLast?_eq_some_iff.1 hback
  obtain ⟨s', hs'⟩ := List.getLast?_eq_some_iff.1 hs
  rw [hback', hs', List.reverse_concat, List.reverse_concat, dropFrontList_of_ne h, Option.map_none]

theorem isSome_dropFrontList (front cs : List Char) :
    (dropFrontList front cs).isSome ↔ front <+: cs := by
  fun_induction dropFrontList front cs with
  | case1 cs => simp
  | case2 => simp
  | case3 front c cs ih => rw [ih, List.cons_prefix_cons, and_iff_right rfl]
  | case4 a front c cs hne => simp [List.cons_prefix_cons, hne]

/-! ## How texts start and end -/

theorem startsWith_iff {front s : String} :
    startsWith front s = true ↔ front.toList <+: s.toList := by
  rw [startsWith, dropFront?, Option.isSome_map, isSome_dropFrontList]

theorem endsWith_iff {back s : String} : endsWith back s = true ↔ back.toList <:+ s.toList := by
  rw [endsWith, dropBack?, Option.isSome_map, isSome_dropFrontList, List.reverse_prefix]

theorem startsWith_append (front s : String) : startsWith front (front ++ s) = true := by
  rw [startsWith_iff, String.toList_append]
  exact List.prefix_append _ _

theorem startsWith_of_head?_ne {front s : String} (hfront : front.toList.head? = some c)
    (h : s.toList.head? ≠ some c) : startsWith front s = false := by
  rw [startsWith, dropFront?_eq_none hfront h, Option.isSome_none]

theorem startsWith_of_notMem {front s : String} (hfront : c ∈ front.toList) (h : c ∉ s.toList) :
    startsWith front s = false :=
  Bool.eq_false_iff.2 fun hstarts => h ((startsWith_iff.1 hstarts).subset hfront)

theorem startsWith_append_of_ne (common : String) {front s : String} {c d : Char}
    (hfront : front.toList.head? = some c) (hs : s.toList.head? = some d) (h : c ≠ d) :
    startsWith (common ++ front) (common ++ s) = false := by
  rw [startsWith, dropFront?_append_of_ne hfront hs h, Option.isSome_none]

theorem endsWith_append (s back : String) : endsWith back (s ++ back) = true := by
  rw [endsWith_iff, String.toList_append]
  exact List.suffix_append _ _

theorem endsWith_append_of_ne (common : String) {back s : String} {c d : Char}
    (hback : back.toList.getLast? = some c) (hs : s.toList.getLast? = some d) (h : c ≠ d) :
    endsWith (back ++ common) (s ++ common) = false := by
  rw [endsWith, dropBack?_append_of_ne hback hs h, Option.isSome_none]

theorem endsWith_of_ne (back : String) {s : String} {c d : Char}
    (hback : back.toList.getLast? = some c) (hs : s.toList.getLast? = some d) (h : c ≠ d) :
    endsWith back s = false := by
  have hempty := endsWith_append_of_ne "" hback hs h
  rwa [String.append_empty, String.append_empty] at hempty

/-! ## Searching -/

theorem isSome_cutList (sep cs : List Char) : (cutList sep cs).isSome ↔ sep <:+: cs := by
  induction cs with
  | nil =>
    rw [cutList, List.infix_nil]
    cases sep <;> simp
  | cons c cs ih =>
    rw [cutList, List.infix_cons_iff, ← isSome_dropFrontList, ← ih]
    cases dropFrontList sep (c :: cs) <;> simp

theorem contains_iff (part s : String) : contains part s ↔ part.toList <:+: s.toList :=
  isSome_cutList part.toList s.toList

/-- A part stands on one side of a character that it lacks. -/
theorem infix_append_cons_iff {part : List Char} (h : c ∉ part) (before after : List Char) :
    part <:+: before ++ c :: after ↔ part <:+: before ∨ part <:+: after := by
  have hnil : ∀ {l}, l <+: c :: after → c ∉ l → l = [] := by
    intro l hl hc
    rcases List.prefix_cons_iff.1 hl with rfl | ⟨_, rfl, -⟩
    · rfl
    · exact absurd List.mem_cons_self hc
  constructor
  · intro hpart
    rw [List.infix_append_iff, List.infix_cons_iff] at hpart
    rcases hpart with hpart | (hpart | hpart) | ⟨l, r, rfl, hl, hr⟩
    · exact .inl hpart
    · rw [hnil hpart h]
      exact .inl List.nil_infix
    · exact .inr hpart
    · rw [hnil hr fun hc => h (List.mem_append_right l hc), List.append_nil]
      exact .inl hl.isInfix
  · rintro (hpart | hpart)
    · exact hpart.trans (List.prefix_append _ _).isInfix
    · exact hpart.trans (List.suffix_append_of_suffix (List.suffix_cons c after)).isInfix

theorem infix_cons_iff_of_head?_ne {part : List Char} (h : part.head? ≠ some c) :
    part <:+: c :: cs ↔ part <:+: cs := by
  refine List.infix_cons_iff.trans (or_iff_right_of_imp fun hpart => ?_)
  rcases List.prefix_cons_iff.1 hpart with rfl | ⟨_, rfl, -⟩
  · exact List.nil_infix
  · exact absurd rfl h

theorem infix_concat_iff_of_getLast?_ne {part : List Char} (h : part.getLast? ≠ some c) :
    part <:+: cs ++ [c] ↔ part <:+: cs := by
  refine List.infix_concat_iff.trans (or_iff_right_of_imp fun hpart => ?_)
  rcases List.suffix_concat_iff.1 hpart with rfl | ⟨_, rfl, -⟩
  · exact List.nil_infix
  · exact absurd List.getLast?_concat h

/-- A part of a joined text stands in one of the texts, if separators only part it from the rest. -/
theorem infix_join_iff {part sep : String} {items : List String} (hpart : part ≠ "")
    (hsep : ∀ item ∈ items, ∀ rest : String, part.toList <:+: (item ++ sep ++ rest).toList ↔
      part.toList <:+: item.toList ∨ part.toList <:+: rest.toList) :
    part.toList <:+: (join sep items).toList ↔ ∃ item ∈ items, part.toList <:+: item.toList := by
  induction items with
  | nil =>
    show part.toList <:+: "".toList ↔ _
    simpa using hpart
  | cons item items ih =>
    cases items with
    | nil => simp [join]
    | cons next items =>
      rw [join_cons_cons, hsep item List.mem_cons_self,
        ih fun item hitem => hsep item (.tail _ hitem)]
      simp only [List.mem_cons, exists_eq_or_imp]

/-- A text is cut at a separator if none starts before it. -/
theorem cutList_append {sep before : List Char} (h : ¬ sep <:+: before ++ sep.dropLast)
    (after : List Char) : cutList sep (before ++ (sep ++ after)) = some (before, after) := by
  obtain ⟨c, rest, rfl⟩ : ∃ c rest, sep = c :: rest := by
    cases sep with
    | nil => exact absurd (List.nil_infix) h
    | cons c rest => exact ⟨c, rest, rfl⟩
  induction before with
  | nil =>
    rw [List.nil_append, List.cons_append, cutList, ← List.cons_append, dropFrontList_append]
  | cons d before ih =>
    rw [List.cons_append, List.infix_cons_iff, not_or] at h
    obtain ⟨hstart, hlater⟩ := h
    have hnone : dropFrontList (c :: rest) (d :: (before ++ (c :: rest ++ after))) = none := by
      rw [← Option.not_isSome_iff_eq_none, isSome_dropFrontList]
      intro hprefix
      have hsplit : (c :: rest).dropLast ++ (c :: rest).getLast (List.cons_ne_nil _ _) :: after =
          c :: rest ++ after := by
        rw [List.append_cons, List.dropLast_concat_getLast]
      -- it would end before the separator does
      refine hstart (List.prefix_of_prefix_length_le hprefix ?_ (by simp))
      exact ⟨_, by rw [← hsplit, List.cons_append, List.append_assoc]⟩
    rw [List.cons_append, cutList, hnone, ih hlater]
    rfl

/-- A text is cut at the first separator. -/
theorem cutList_eq_some_iff {sep before after : List Char} (hne : sep ≠ []) :
    cutList sep cs = some (before, after) ↔
      cs = before ++ (sep ++ after) ∧ ¬ sep <:+: before ++ sep.dropLast := by
  constructor
  · intro h
    induction cs generalizing before with
    | nil =>
      rw [cutList, if_neg (by simpa using hne)] at h
      cases h
    | cons c cs ih =>
      rw [cutList] at h
      cases hdrop : dropFrontList sep (c :: cs) with
      | some rest =>
        rw [hdrop] at h
        cases h
        have heq := eq_append_of_dropFrontList hdrop
        refine ⟨heq, fun hpart => ?_⟩
        have hlength := hpart.length_le
        have hpos := List.length_pos_iff.2 hne
        rw [List.nil_append, List.length_dropLast] at hlength
        omega
      | none =>
        rw [hdrop] at h
        obtain ⟨⟨before', after'⟩, hcut, heq⟩ := Option.map_eq_some_iff.1 h
        cases heq
        obtain ⟨rfl, hfirst⟩ := ih hcut
        refine ⟨rfl, ?_⟩
        rw [List.cons_append, List.infix_cons_iff, not_or]
        refine ⟨fun hstart => ?_, hfirst⟩
        have hwhole : c :: (before' ++ sep.dropLast) <+: c :: (before' ++ (sep ++ after')) := by
          refine List.cons_prefix_cons.2 ⟨rfl, (List.prefix_append_right_inj _).2 ?_⟩
          exact (List.dropLast_prefix sep).trans (List.prefix_append sep after')
        have hsome := (isSome_dropFrontList sep _).2 (hstart.trans hwhole)
        rw [hdrop] at hsome
        cases hsome
  · rintro ⟨rfl, h⟩
    exact cutList_append h after

/-- No separator starts in a text that lacks one of its characters. -/
theorem not_infix_of_notMem {sep before : List Char} (hc : c ∈ sep) (h : c ∉ before) :
    ¬ sep <:+: before ++ sep.dropLast := by
  rintro ⟨l₁, l₂, heq⟩
  have hlength := congrArg List.length heq
  have hindex := congrArg (List.idxOf c) heq
  have hlt := List.idxOf_lt_length_of_mem hc
  -- the first `c` on the right does not stand before that of a separator behind `before`
  have hlater : sep.idxOf c ≤ sep.dropLast.idxOf c := by
    by_cases hmem : c ∈ sep.dropLast
    · have heq : sep.idxOf c = sep.dropLast.idxOf c := by
        rw [← List.dropLast_concat_getLast (List.ne_nil_of_mem hc), List.idxOf_append,
          if_pos hmem, List.dropLast_concat_getLast]
      omega
    · rw [List.idxOf_eq_length hmem, List.length_dropLast]
      omega
  simp only [List.length_append, List.length_dropLast] at hlength
  rw [List.append_assoc, List.idxOf_append, List.idxOf_append, List.idxOf_append, if_neg h,
    if_pos hc] at hindex
  split at hindex
  · next hmem =>
    have hfirst := List.idxOf_lt_length_of_mem hmem
    omega
  · omega

theorem cut?_append {sep before : String} (hc : c ∈ sep.toList) (h : c ∉ before.toList)
    (after : String) : cut? sep (before ++ sep ++ after) = some (before, after) := by
  rw [cut?, String.toList_append, String.toList_append, List.append_assoc,
    cutList_append (not_infix_of_notMem hc h), Option.map_some, String.ofList_toList,
    String.ofList_toList]

theorem isSome_cut? (sep s : String) : (cut? sep s).isSome = contains sep s := Option.isSome_map

theorem cut?_eq_none_iff {sep s : String} : cut? sep s = none ↔ ¬ sep.toList <:+: s.toList := by
  rw [cut?, Option.map_eq_none_iff, ← isSome_cutList, Option.not_isSome_iff_eq_none]

theorem cut?_eq_none {sep s : String} (hc : c ∈ sep.toList) (h : c ∉ s.toList) :
    cut? sep s = none := cut?_eq_none_iff.2 fun hpart => h (hpart.subset hc)

theorem cut?_eq_some_iff {sep s before after : String} (hne : sep ≠ "") :
    cut? sep s = some (before, after) ↔
      s = before ++ sep ++ after ∧ ¬ sep.toList <:+: before.toList ++ sep.toList.dropLast := by
  have hlist : cut? sep s = some (before, after) ↔
      cutList sep.toList s.toList = some (before.toList, after.toList) := by
    rw [cut?, Option.map_eq_some_iff]
    constructor
    · rintro ⟨⟨front, back⟩, hcut, heq⟩
      cases heq
      rw [hcut, String.toList_ofList, String.toList_ofList]
    · exact fun hcut => ⟨_, hcut, by rw [String.ofList_toList, String.ofList_toList]⟩
  rw [hlist, cutList_eq_some_iff (mt String.toList_eq_nil_iff.1 hne), ← String.toList_inj,
    String.toList_append, String.toList_append, List.append_assoc]

/-- What follows has no part in where a text is cut. -/
theorem cut?_append_right {sep s before after : String} (hne : sep ≠ "")
    (h : cut? sep s = some (before, after)) (rest : String) :
    cut? sep (s ++ rest) = some (before, after ++ rest) := by
  rw [cut?_eq_some_iff hne] at h ⊢
  obtain ⟨rfl, hfirst⟩ := h
  exact ⟨String.append_assoc, hfirst⟩

/-- A text in front, in which no separator starts whatever follows it, stays in front. -/
theorem cut?_append_left {sep s before after front : String} (hne : sep ≠ "")
    (hfront : ∀ rest, sep.toList <:+: front.toList ++ rest → sep.toList <:+: rest)
    (h : cut? sep s = some (before, after)) :
    cut? sep (front ++ s) = some (front ++ before, after) := by
  rw [cut?_eq_some_iff hne] at h ⊢
  obtain ⟨rfl, hfirst⟩ := h
  refine ⟨by simp only [String.append_assoc], fun hpart => hfirst (hfront _ ?_)⟩
  rwa [String.toList_append, List.append_assoc] at hpart

end DesignSystem.Text
