import DesignSystem.Proofs.Text.Split
import Mathlib.Data.Bool.AllAny
import Mathlib.Data.List.Basic
import Mathlib.Tactic.SplitIfs

/-!
# Comments

How much of a text that stands in a comment belongs to the comment. One kind of comment ends with
its line, so that each further line of the text needs a mark of its own. The other kind goes on to
the first closing mark.

* `LineComment.marks_iff`: the texts whose lines all have the mark before them.
* `BlockComment.encloses_iff`: the texts that a comment encloses.
-/

set_option autoImplicit false

namespace DesignSystem.Text

/-! ## To the end of a line -/

def isLineEnd (c : Char) : Bool := c = '\n' || c = '\r'

/-- The lines of a source, which end with a line feed, a carriage return or both. The end of a line
at the very end starts no further one. -/
def sourceLines : List Char → List (List Char)
  | [] => [[]]
  | '\r' :: '\n' :: cs => [] :: if cs.isEmpty then [] else sourceLines cs
  | c :: cs =>
    if isLineEnd c then [] :: if cs.isEmpty then [] else sourceLines cs
    else
      match sourceLines cs with
      | [] => [[c]]
      | line :: lines => (c :: line) :: lines

/-- Whether a text is one line, with or without an end. -/
def isOneLine (cs : List Char) : Bool :=
  let rest := cs.dropWhile (!isLineEnd ·)
  rest.length ≤ 1 || rest = ['\r', '\n']

/-- A text behind a mark that starts a comment up to the end of the line. -/
structure LineComment where
  mark : String
  text : String
  deriving DecidableEq

namespace LineComment

def source (c : LineComment) : String := c.mark ++ c.text

/-- Each line of the text has the mark before it. -/
def Marks (c : LineComment) : Prop :=
  sourceLines c.source.toList = (sourceLines c.text.toList).map (c.mark.toList ++ ·)

end LineComment

section
variable {c : Char} {cs : List Char}

theorem sourceLines_ne_nil (cs : List Char) : sourceLines cs ≠ [] := by
  unfold sourceLines
  split
  · exact List.cons_ne_nil _ _
  · exact List.cons_ne_nil _ _
  · split
    · exact List.cons_ne_nil _ _
    · split <;> exact List.cons_ne_nil _ _

/-- A character that ends no line belongs to the first one. -/
theorem sourceLines_cons (h : isLineEnd c = false) (cs : List Char) :
    ∃ line lines, sourceLines cs = line :: lines ∧
      sourceLines (c :: cs) = (c :: line) :: lines := by
  obtain ⟨line, lines, hlines⟩ := List.exists_cons_of_ne_nil (sourceLines_ne_nil cs)
  refine ⟨line, lines, hlines, ?_⟩
  rw [sourceLines, h, if_neg Bool.false_ne_true, hlines]
  rintro rest rfl -
  cases h

/-- So does what stands in front of a text without the end of a line. -/
theorem sourceLines_append {mark : List Char} (h : ∀ c ∈ mark, isLineEnd c = false)
    (cs : List Char) : ∃ line lines, sourceLines cs = line :: lines ∧
      sourceLines (mark ++ cs) = (mark ++ line) :: lines := by
  induction mark with
  | nil =>
    obtain ⟨line, lines, hlines⟩ := List.exists_cons_of_ne_nil (sourceLines_ne_nil cs)
    exact ⟨line, lines, hlines, hlines⟩
  | cons c mark ih =>
    obtain ⟨hc, hmark⟩ := List.forall_mem_cons.1 h
    obtain ⟨line, lines, hlines, hrest⟩ := ih hmark
    obtain ⟨first, others, hfirst, hcons⟩ := sourceLines_cons hc (mark ++ cs)
    cases hrest.symm.trans hfirst
    exact ⟨line, lines, hlines, hcons⟩

theorem length_further_iff (rest : List Char) :
    ([] :: if rest.isEmpty then [] else sourceLines rest).length = 1 ↔ rest = [] := by
  cases rest with
  | nil => exact iff_of_true rfl rfl
  | cons c rest =>
    have hpos := List.length_pos_iff.2 (sourceLines_ne_nil (c :: rest))
    refine iff_of_false ?_ (List.cons_ne_nil _ _)
    rw [List.isEmpty_cons, if_neg Bool.false_ne_true, List.length_cons]
    omega

theorem isOneLine_cons (h : isLineEnd c = true) (cs : List Char) :
    isOneLine (c :: cs) = true ↔ cs = [] ∨ c = '\r' ∧ cs = ['\n'] := by
  unfold isOneLine
  rw [List.dropWhile_cons_of_neg (by rw [h]; decide)]
  dsimp only
  rw [Bool.or_eq_true, decide_eq_true_eq, decide_eq_true_eq, List.length_cons, List.cons_eq_cons,
    Nat.succ_le_succ_iff, Nat.le_zero, List.length_eq_zero_iff]

theorem isOneLine_iff (cs : List Char) : isOneLine cs = true ↔ (sourceLines cs).length = 1 := by
  induction cs with
  | nil => exact iff_of_true rfl rfl
  | cons c cs ih =>
    cases hc : isLineEnd c with
    | false =>
      obtain ⟨line, lines, hlines, hcons⟩ := sourceLines_cons hc cs
      rw [hlines] at ih
      rw [hcons, isOneLine, List.dropWhile_cons_of_pos (by rw [hc]; rfl)]
      exact ih
    | true =>
      rw [isOneLine_cons hc]
      -- a carriage return and a line feed behind it are one end
      by_cases hboth : c = '\r' ∧ cs.head? = some '\n'
      · obtain ⟨rfl, hhead⟩ := hboth
        obtain ⟨rest, rfl⟩ := List.head?_eq_some_iff.1 hhead
        rw [sourceLines, length_further_iff, or_iff_right (List.cons_ne_nil _ _),
          and_iff_right rfl, List.cons_inj_right]
      · have hfeed : ∀ rest, c = '\r' → cs = '\n' :: rest → False := by
          rintro rest hreturn rfl
          exact hboth ⟨hreturn, rfl⟩
        rw [sourceLines, if_pos hc, length_further_iff,
          or_iff_left fun h => hfeed [] h.1 h.2]
        exact hfeed

/-- The mark stands before each line just if the text has only one. -/
theorem LineComment.marks_iff {comment : LineComment} (hne : comment.mark ≠ "")
    (hmark : ∀ c ∈ comment.mark.toList, isLineEnd c = false) :
    comment.Marks ↔ isOneLine comment.text.toList = true := by
  obtain ⟨line, lines, hlines, happend⟩ := sourceLines_append hmark comment.text.toList
  rw [Marks, source, String.toList_append, happend, isOneLine_iff, hlines, List.map_cons,
    List.length_cons, Nat.succ_inj, List.length_eq_zero_iff]
  constructor
  · intro hmarked
    cases lines with
    | nil => rfl
    | cons next lines =>
      have hnext := (List.cons.inj (List.cons.inj hmarked).2).1
      exact absurd (String.toList_eq_nil_iff.1 (List.self_eq_append_left.1 hnext)) hne
  · rintro rfl
    rfl

example : ¬ LineComment.Marks ⟨"/// ", "One\nTwo"⟩ ∧ LineComment.Marks ⟨"/// ", "One\n"⟩ := by
  have hmark : ∀ c ∈ "/// ".toList, isLineEnd c = false := List.all_iff_forall_prop.1 (by decide)
  exact ⟨mt (LineComment.marks_iff (by decide) hmark).1 (by decide),
    (LineComment.marks_iff (by decide) hmark).2 (by decide)⟩

end

/-! ## Between marks -/

/-- The closing mark. -/
def closingMark : String := "*/"

/-- A comment between marks: the opening one, texts with what stands before each, and the rest up to
a closing mark. -/
structure BlockComment where
  opening : String
  remarks : List (String × String)
  closing : String
  deriving DecidableEq

/-- Texts with what stands before each. -/
def written : List (String × String) → String
  | [] => ""
  | remark :: remarks => remark.1 ++ remark.2 ++ written remarks

namespace BlockComment

def source (b : BlockComment) : String := b.opening ++ written b.remarks ++ b.closing

/-- Whatever follows, the comment goes on up to the end of a text at least: the first closing mark
behind the opening one comes later. -/
def Encloses (b : BlockComment) (i : Nat) : Prop :=
  ∀ rest, ∃ inside after,
    cut? closingMark (written b.remarks ++ b.closing ++ rest) = some (inside, after) ∧
      (written (b.remarks.take (i + 1))).toList <+: inside.toList

end BlockComment

/-- What stands before a text: it has blanks at both ends, and no slash. -/
structure IsMark (mark : String) : Prop where
  starts : ∃ c cs, mark.toList = c :: cs ∧ isBlankChar c = true
  ends : ∃ cs c, mark.toList = cs ++ [c] ∧ isBlankChar c = true
  slash : '/' ∉ mark.toList

/-- There is an opening mark and a closing one, which is apart from the texts, as these are from
each other. -/
structure BlockComment.IsSound (b : BlockComment) : Prop where
  opens : b.opening ∈ ["/*", "/**"]
  marks : ∀ r ∈ b.remarks, IsMark r.1
  closing : ∃ c cs, b.closing.toList = c :: cs ∧ isBlankChar c = true
  closes : closingMark.toList <:+: b.closing.toList

/-- Behind a blank and more without a slash, a mark makes a longer one. -/
theorem IsMark.behind {mark : String} (h : IsMark mark) (front : String)
    (hstarts : ∃ c cs, front.toList = c :: cs ∧ isBlankChar c = true)
    (hslash : '/' ∉ front.toList) : IsMark (front ++ mark) where
  starts := by
    obtain ⟨c, cs, hfront, hc⟩ := hstarts
    exact ⟨c, cs ++ mark.toList, by rw [String.toList_append, hfront, List.cons_append], hc⟩
  ends := by
    obtain ⟨cs, c, hmark, hc⟩ := h.ends
    exact ⟨front.toList ++ cs, c, by rw [String.toList_append, hmark, List.append_assoc], hc⟩
  slash := by
    rw [String.toList_append, List.mem_append, not_or]
    exact ⟨hslash, h.slash⟩

section
variable {b : BlockComment} {c : Char}

theorem notMem_closingMark (h : isBlankChar c = true) : c ∉ closingMark.toList := by
  intro hmem
  change c ∈ ['*', '/'] at hmem
  simp only [List.mem_cons, List.not_mem_nil, or_false] at hmem
  rcases hmem with rfl | rfl <;> cases h

theorem infix_blank_cons_iff (h : isBlankChar c = true) (cs : List Char) :
    closingMark.toList <:+: c :: cs ↔ closingMark.toList <:+: cs :=
  infix_cons_iff_of_head?_ne fun heq => notMem_closingMark h (List.mem_of_head? heq)

theorem written_append (rs rs' : List (String × String)) :
    written (rs ++ rs') = written rs ++ written rs' := by
  induction rs with
  | nil => exact String.empty_append.symm
  | cons r rs ih =>
    rw [List.cons_append, written, written, ih]
    simp only [String.append_assoc]

/-- Texts with marks, and what follows them, start with a blank. -/
theorem exists_blank_cons {rs : List (String × String)} (h : ∀ r ∈ rs, IsMark r.1)
    (tail : List Char) (htail : ∃ c cs, tail = c :: cs ∧ isBlankChar c = true) :
    ∃ c cs, (written rs).toList ++ tail = c :: cs ∧ isBlankChar c = true := by
  cases rs with
  | nil => exact htail
  | cons r rs =>
    obtain ⟨c, cs, hmark, hc⟩ := (h r (.head _)).starts
    refine ⟨c, cs ++ (r.2.toList ++ ((written rs).toList ++ tail)), ?_, hc⟩
    simp only [written, String.toList_append, hmark, List.append_assoc, List.cons_append]

/-- A closing mark that starts in texts stands in one of them. -/
theorem infix_written_iff {rs : List (String × String)} (h : ∀ r ∈ rs, IsMark r.1)
    (tail : List Char) (htail : ∃ c cs, tail = c :: cs ∧ isBlankChar c = true) :
    closingMark.toList <:+: (written rs).toList ++ tail ↔
      (∃ r ∈ rs, closingMark.toList <:+: r.2.toList) ∨ closingMark.toList <:+: tail := by
  induction rs with
  | nil => simp [written]
  | cons r rs ih =>
    obtain ⟨hr, hrs⟩ := List.forall_mem_cons.1 h
    obtain ⟨front, c, hmark, hc⟩ := hr.ends
    have hfront : ¬ closingMark.toList <:+: front := by
      intro hpart
      have hslash : '/' ∈ front := hpart.subset (by decide)
      exact hr.slash (hmark ▸ List.mem_append_left _ hslash)
    have hsource : (written (r :: rs)).toList ++ tail =
        front ++ c :: (r.2.toList ++ ((written rs).toList ++ tail)) := by
      simp only [written, String.toList_append, hmark, List.append_assoc, List.nil_append,
        List.cons_append]
    have hrest := ih hrs
    obtain ⟨d, more, hmore, hd⟩ := exists_blank_cons hrs tail htail
    rw [hmore, infix_blank_cons_iff hd] at hrest
    rw [hsource, infix_append_cons_iff (notMem_closingMark hc), or_iff_right hfront, hmore,
      infix_append_cons_iff (notMem_closingMark hd), hrest, List.exists_mem_cons_iff, or_assoc]

/-- A comment encloses a text just if no closing mark stands in it or in a text before it. -/
theorem BlockComment.IsSound.encloses_iff (h : b.IsSound) (i : Nat) :
    b.Encloses i ↔ ∀ r ∈ b.remarks.take (i + 1), ¬ closingMark.toList <:+: r.2.toList := by
  have hsplit : b.remarks = b.remarks.take (i + 1) ++ b.remarks.drop (i + 1) :=
    (List.take_append_drop _ _).symm
  have hmarks := h.marks
  rw [hsplit, List.forall_mem_append] at hmarks
  unfold Encloses
  rw [hsplit, written_append, List.take_append_drop]
  generalize b.remarks.take (i + 1) = before, b.remarks.drop (i + 1) = behind at hmarks
  have hbefore : closingMark.toList <:+: (written before).toList ↔
      ∃ r ∈ before, closingMark.toList <:+: r.2.toList := by
    have hblank := infix_written_iff hmarks.1 [' '] ⟨' ', [], rfl, rfl⟩
    have hnone : ¬ closingMark.toList <:+: [' '] := by decide
    have hnil : ¬ closingMark.toList <:+: [] := by decide
    rwa [infix_append_cons_iff (notMem_closingMark rfl), or_iff_left hnil, or_iff_left hnone]
      at hblank
  constructor
  · intro hencloses r hr hpart
    obtain ⟨inside, after, hcut, hprefix⟩ := hencloses ""
    obtain ⟨-, hfirst⟩ := (cut?_eq_some_iff (by decide)).1 hcut
    exact hfirst (((hbefore.2 ⟨r, hr, hpart⟩).trans hprefix.isInfix).trans
      (List.prefix_append _ _).isInfix)
  · intro hplain rest
    have hnone : ¬ closingMark.toList <:+: (written before).toList := by
      rw [hbefore]
      rintro ⟨r, hr, hpart⟩
      exact hplain r hr hpart
    obtain ⟨d, ds, hclosing, hd⟩ := h.closing
    obtain ⟨e, more, hmore, he⟩ := exists_blank_cons hmarks.2
      (b.closing ++ rest).toList ⟨d, _, by rw [String.toList_append, hclosing]; rfl, hd⟩
    -- the closing mark is found behind the blank that follows the text
    have hfound : closingMark.toList <:+: more := by
      rw [← infix_blank_cons_iff he, ← hmore]
      exact (h.closes.trans (infix_append_left _ rest)).trans (List.suffix_append _ _).isInfix
    obtain ⟨r, hr⟩ := Option.isSome_iff_exists.1 ((isSome_cutList _ _).2 hfound)
    have hcut : cut? closingMark (.ofList more) = some (.ofList r.1, .ofList r.2) := by
      rw [cut?, String.toList_ofList, hr, Option.map_some]
    have hfront : ∀ rest, closingMark.toList <:+: (written before ++ .singleton e).toList ++ rest →
        closingMark.toList <:+: rest := by
      intro rest hpart
      rw [String.toList_append, String.toList_singleton, List.append_assoc, List.singleton_append,
        infix_append_cons_iff (notMem_closingMark he)] at hpart
      exact hpart.resolve_left hnone
    have hwhole : written before ++ written behind ++ b.closing ++ rest =
        written before ++ .singleton e ++ .ofList more := by
      apply String.toList_inj.1
      rw [String.append_assoc, String.append_assoc, String.append_assoc, String.toList_append,
        String.toList_append, hmore]
      simp
    refine ⟨_, _, hwhole ▸ cut?_append_left (by decide) hfront hcut, ?_⟩
    rw [String.toList_append, String.toList_append, List.append_assoc]
    exact List.prefix_append _ _

end

end DesignSystem.Text
