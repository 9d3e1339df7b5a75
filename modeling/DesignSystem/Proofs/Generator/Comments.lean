import DesignSystem.Proofs.Generation.Manifest
import DesignSystem.Proofs.Generator.Calls
import DesignSystem.Proofs.Stylesheet.ModifierRules
import DesignSystem.Proofs.Text.Comment

/-!
# Descriptions in comments

What is said about a component and its props goes into comments as it is. SwiftUI and Flutter put
each text behind one mark for the rest of the line. The types for React, Compose and stylesheets put
it between an opening and a closing mark.

* `Platform.lineComments`, `Platform.blockComments`: the comments that are written.
* `Platform.writesLine`, `Platform.writesBlock`: they stand in the sources.
* `ComponentSpec.commentsOn`: whether the texts stay inside.
-/

set_option autoImplicit false

namespace DesignSystem

open Text (LineComment BlockComment)

/-! ## What is written -/

/-- The descriptions of a component and of its props, each behind a mark. -/
def ComponentModel.lineComments (m : ComponentModel) (indent : String) : List LineComment :=
  (m.description.map (⟨"/// ", ·⟩)).toList ++
    m.props.filterMap fun p => p.description.map (⟨indent ++ "/// ", ·⟩)

/-- The comment on a prop in the types of a component. -/
def PropModel.blockComment? (p : PropModel) : Option BlockComment :=
  match p.remarks with
  | [] => none
  | [remark] => some ⟨"/**", [(" ", remark)], " */"⟩
  | remarks => some ⟨"/**", remarks.map (("\n   * ", ·)), "\n   */"⟩

/-- The notes on the parameters of a composable function, with what stands before each. -/
def Compose.notes (m : ComponentModel) : List (String × String) :=
  m.props.filterMap fun p => (parameterNote? p).map fun note => (s!"\n * @param {p.ident} ", note)

/-- The comment on a composable function. An empty line parts the description from the notes. -/
def Compose.blockComment? (m : ComponentModel) : Option BlockComment :=
  match m.description, notes m with
  | none, [] => none
  | some d, note :: notes =>
    some ⟨"/**", ("\n * ", d) :: ("\n *" ++ note.1, note.2) :: notes, "\n */"⟩
  | own, notes => some ⟨"/**", (own.map (("\n * ", ·))).toList ++ notes, "\n */"⟩

/-- What the comment at the head of a stylesheet says behind the description. -/
def Css.furtherHeading (m : ComponentModel) : List String :=
  [" *"] ++ (markup m).map (" * " ++ ·) ++
    (propNotes m).map fun line => if line.isEmpty then " *" else s!" * {line}"

/-- The comment at the head of a stylesheet, if there is a description. -/
def Css.blockComment? (m : ComponentModel) : Option BlockComment :=
  m.description.map fun d => ⟨"/*", [(s!"\n * {m.pascalName}\n * ", d)],
    "\n" ++ Text.unlines (furtherHeading m ++ [" */"])⟩

/-- The comment on the rule for a compound variant. -/
def CompoundModel.blockComment? (v : CompoundModel) : Option BlockComment :=
  v.description.map fun d => ⟨"/*", [(" ", d)], " */"⟩

/-- The comments up to the end of a line. -/
def Platform.lineComments : Platform → ComponentModel → List LineComment
  | flutter, m => m.lineComments "  "
  | swiftUI, m => m.lineComments "    "
  | _, _ => []

/-- The comments between marks. -/
def Platform.blockComments : Platform → ComponentModel → List BlockComment
  | react, m => if m.typed then m.props.filterMap (·.blockComment?) else []
  | compose, m => (Compose.blockComment? m).toList
  | css, m => (Css.blockComment? m).toList ++ m.compounds.filterMap (·.blockComment?)
  | _, _ => []

/-- The text that the comments stand in: the types for React, or else the source. -/
def Platform.commented (platform : Platform) (m : ComponentModel) : String :=
  match platform with
  | react => ((React.types m).map (·.content)).getD ""
  | _ => platform.generator.source m

/-- What is said about a component and its props, in order. -/
def Platform.remarks : Platform → ComponentModel → List String
  | react, m => if m.typed then m.props.flatMap (·.remarks) else []
  | compose, m => m.description.toList ++ m.props.filterMap Compose.parameterNote?
  | css, m => m.description.toList ++ m.compounds.filterMap (·.description)
  | flutter, m | swiftUI, m => m.description.toList ++ m.props.filterMap (·.description)
  | _, _ => []

/-- All remarks are texts of comments. -/
def Platform.RemarksInComments (platform : Platform) (m : ComponentModel) : Prop :=
  (platform.lineComments m).map (·.text) ++
    (platform.blockComments m).flatMap (fun b => b.remarks.map (·.2)) = platform.remarks m

section
variable {m : ComponentModel}

theorem ComponentModel.text_lineComments (indent : String) :
    (m.lineComments indent).map (·.text) =
      m.description.toList ++ m.props.filterMap (·.description) := by
  have hown : ∀ d : Option String,
      (d.map (LineComment.mk "/// ")).toList.map (·.text) = d.toList := by
    rintro (_ | d) <;> rfl
  rw [lineComments, List.map_append, hown, List.map_filterMap]
  refine congrArg (_ ++ ·) (List.filterMap_congr fun p _ => ?_)
  cases p.description <;> rfl

theorem PropModel.text_blockComment (p : PropModel) :
    p.blockComment?.toList.flatMap (fun b => b.remarks.map (·.2)) = p.remarks := by
  unfold blockComment?
  split
  · next h => rw [h]; rfl
  · next h => rw [h]; rfl
  · simp

theorem Compose.text_notes : (notes m).map (·.2) = m.props.filterMap parameterNote? := by
  rw [notes, List.map_filterMap]
  refine List.filterMap_congr fun p _ => ?_
  cases parameterNote? p <;> rfl

theorem Compose.text_blockComment :
    (blockComment? m).toList.flatMap (fun b => b.remarks.map (·.2)) =
      m.description.toList ++ m.props.filterMap parameterNote? := by
  rw [← text_notes]
  unfold blockComment?
  cases m.description with
  | none => cases notes m <;> simp
  | some d => cases notes m <;> simp

/-- The texts of comments on several items are those of the comments on each. -/
theorem text_blockComments {α : Type} {f : α → Option BlockComment} {g : α → List String}
    (h : ∀ a, (f a).toList.flatMap (fun b => b.remarks.map (·.2)) = g a) (as : List α) :
    (as.filterMap f).flatMap (fun b => b.remarks.map (·.2)) = as.flatMap g := by
  rw [List.filterMap_eq_flatMap_toList, List.flatMap_assoc]
  exact List.flatMap_congr fun a _ => h a

theorem Platform.remarksInComments (platform : Platform) : platform.RemarksInComments m := by
  have hdescription : ∀ {f : String → BlockComment}, (∀ d, (f d).remarks.map (·.2) = [d]) →
      ∀ d : Option String, (d.map f).toList.flatMap (fun b => b.remarks.map (·.2)) = d.toList := by
    rintro f hf (_ | d)
    · rfl
    · exact (List.flatMap_singleton _ _).trans (hf d)
  cases platform with
  | flutter | swiftUI => exact (List.append_nil _).trans (m.text_lineComments _)
  | compose => exact Compose.text_blockComment
  | react =>
    change (if m.typed then m.props.filterMap (·.blockComment?) else []).flatMap _ =
      if m.typed then m.props.flatMap (·.remarks) else []
    split
    · exact text_blockComments PropModel.text_blockComment _
    · rfl
  | css =>
    change ((Css.blockComment? m).toList ++ m.compounds.filterMap (·.blockComment?)).flatMap _ =
      m.description.toList ++ m.compounds.filterMap (·.description)
    have hcompound : ∀ v : CompoundModel,
        v.blockComment?.toList.flatMap (fun b => b.remarks.map (·.2)) = v.description.toList :=
      fun v => hdescription (fun _ => rfl) v.description
    rw [List.flatMap_append, Css.blockComment?, hdescription fun _ => rfl,
      text_blockComments hcompound, List.filterMap_eq_flatMap_toList]
  | vue | angular | svelte | tailwind => rfl

/-! ## Where it stands -/

/-- Lines with texts between a first and a last line, as texts with marks that start with a line
feed. -/
theorem unlines_written (first last : String) (rs : List (String × String)) :
    Text.unlines (first :: rs.map (fun r => r.1 ++ r.2) ++ [last]) =
      first ++ Text.written (rs.map fun r => ("\n" ++ r.1, r.2)) ++ ("\n" ++ last) := by
  induction rs generalizing first with
  | nil =>
    refine (Text.unlines_cons first (List.cons_ne_nil last [])).trans ?_
    rw [List.map_nil, Text.written, String.append_empty, String.append_assoc]
    rfl
  | cons r rs ih =>
    have hne : rs.map (fun r => r.1 ++ r.2) ++ [last] ≠ [] := by simp
    rw [List.map_cons, List.cons_append, List.cons_append,
      Text.unlines_cons first (List.cons_ne_nil _ _), ← List.cons_append, ih, List.map_cons,
      Text.written]
    simp only [String.append_assoc]

/-- The comment on a prop is indented. -/
theorem PropModel.unlines_comment {p : PropModel} {b : BlockComment}
    (h : p.blockComment? = some b) : Text.unlines p.comment = "  " ++ b.source := by
  rcases hremarks : p.remarks with _ | ⟨remark, _ | ⟨next, remarks⟩⟩
  · rw [blockComment?, hremarks] at h
    cases h
  · rw [blockComment?, hremarks] at h
    cases h
    rw [comment, hremarks]
    apply String.toList_inj.1
    change ("  /** " ++ remark ++ " */").toList =
      ("  " ++ ("/**" ++ (" " ++ remark ++ "") ++ " */")).toList
    simp only [String.toList_append, List.append_assoc]
    rfl
  · rw [blockComment?, hremarks] at h
    cases h
    rw [comment, hremarks]
    have hmap : ∀ remark : String, ("\n" ++ "   * ", remark) = ("\n   * ", remark) :=
      fun _ => rfl
    have hlines := unlines_written "  /**" "   */" ((remark :: next :: remarks).map (("   * ", ·)))
    simp only [List.map_map, Function.comp_def, hmap] at hlines
    refine hlines.trans ?_
    rw [BlockComment.source]
    have hopening : "  /**" = "  " ++ "/**" := rfl
    rw [hopening]
    simp only [String.append_assoc]
    rfl

/-- The notes on parameters, as they stand in lines and as they stand in a comment. -/
theorem Compose.exists_notes (m : ComponentModel) : ∃ rs : List (String × String),
    parameterNotes m = rs.map (fun r => r.1 ++ r.2) ∧
      notes m = rs.map fun r => ("\n" ++ r.1, r.2) := by
  refine ⟨m.props.filterMap fun p =>
    (parameterNote? p).map fun note => (s!" * @param {p.ident} ", note), ?_, ?_⟩
  · rw [parameterNotes, List.map_filterMap]
    refine List.filterMap_congr fun p _ => ?_
    cases parameterNote? p <;> rfl
  · rw [notes, List.map_filterMap]
    refine List.filterMap_congr fun p _ => ?_
    have hmark : s!"\n * @param {p.ident} " = "\n" ++ s!" * @param {p.ident} " := by
      change "\n * @param " ++ p.ident ++ " " = "\n" ++ (" * @param " ++ p.ident ++ " ")
      simp only [← String.append_assoc]
      rfl
    cases parameterNote? p with
    | none => rfl
    | some note => exact congrArg some (Prod.ext hmark rfl)

theorem Compose.unlines_comment {b : BlockComment} (h : blockComment? m = some b) :
    Text.unlines (comment m) = b.source := by
  obtain ⟨rs, hlines, hnotes⟩ := exists_notes m
  have hwritten := unlines_written "/**" " */"
  unfold blockComment? at h
  unfold comment
  rw [hnotes] at h
  rw [hlines]
  cases hd : m.description with
  | none =>
    rw [hd] at h
    cases rs with
    | nil => cases h
    | cons r rs =>
      cases h
      exact hwritten (r :: rs)
  | some d =>
    rw [hd] at h
    cases rs with
    | nil =>
      cases h
      exact hwritten [(" * ", d)]
    | cons r rs =>
      cases h
      refine (hwritten ((" * ", d) :: (" *", "") :: r :: rs)).trans ?_
      apply String.toList_inj.1
      simp only [BlockComment.source, Text.written, List.map_cons, String.toList_append,
        List.append_assoc]
      rfl

theorem Css.unlines_heading {b : BlockComment} (h : blockComment? m = some b) :
    Text.unlines (["/*"] ++ heading m ++ [" */"]) = b.source := by
  obtain ⟨d, hd, rfl⟩ := Option.map_eq_some_iff.1 h
  have hlines : ["/*"] ++ heading m ++ [" */"] =
      "/*" :: s!" * {m.pascalName}" :: (" * " ++ d) :: (furtherHeading m ++ [" */"]) := by
    simp [heading, furtherHeading, hd]
  rw [hlines, Text.unlines_cons _ (List.cons_ne_nil _ _),
    Text.unlines_cons _ (List.cons_ne_nil _ _), Text.unlines_cons _ (List.append_ne_nil_of_right_ne_nil _ (List.cons_ne_nil _ _))]
  apply String.toList_inj.1
  change ("/*" ++ "\n" ++ (" * " ++ m.pascalName ++ "\n" ++ (" * " ++ d ++ "\n" ++
    Text.unlines (furtherHeading m ++ [" */"])))).toList = ("/*" ++ ("\n * " ++ m.pascalName ++
      "\n * " ++ d ++ "") ++ ("\n" ++ Text.unlines (furtherHeading m ++ [" */"]))).toList
  simp only [String.toList_append, List.append_assoc]
  rfl

/-! ## Comments that are apart from their texts -/

theorem isMark_space : Text.IsMark " " where
  starts := ⟨' ', [], rfl, rfl⟩
  ends := ⟨[], ' ', rfl, rfl⟩
  slash := by decide

/-- The start of a further line of a comment, up to its star. -/
theorem isMark_line (front : String) (h : front ∈ ["\n *", "\n   *"]) :
    Text.IsMark (front ++ " ") := by
  simp only [List.mem_cons, List.not_mem_nil, or_false] at h
  rcases h with rfl | rfl
  · exact isMark_space.behind _ ⟨_, _, rfl, rfl⟩ (by decide)
  · exact isMark_space.behind _ ⟨_, _, rfl, rfl⟩ (by decide)

theorem closes_line (closing : String) (h : closing ∈ [" */", "\n */", "\n   */"]) :
    (∃ c cs, closing.toList = c :: cs ∧ Text.isBlankChar c = true) ∧
      Text.closingMark.toList <:+: closing.toList := by
  simp only [List.mem_cons, List.not_mem_nil, or_false] at h
  rcases h with rfl | rfl | rfl <;> exact ⟨⟨_, _, rfl, rfl⟩, by decide⟩

theorem PropModel.isSound_blockComment {p : PropModel} {b : BlockComment}
    (h : p.blockComment? = some b) : b.IsSound := by
  unfold blockComment? at h
  split at h
  · cases h
  · cases h
    obtain ⟨hstarts, hcloses⟩ := closes_line " */" (by decide)
    exact ⟨by simp, List.forall_mem_singleton.2 isMark_space, hstarts, hcloses⟩
  · cases h
    obtain ⟨hstarts, hcloses⟩ := closes_line "\n   */" (by decide)
    exact ⟨by simp, List.forall_mem_map.2 fun _ _ => isMark_line "\n   *" (by decide),
      hstarts, hcloses⟩

theorem Compose.isSound_blockComment {b : BlockComment}
    (hident : ∀ p ∈ m.props, '/' ∉ p.ident.toList) (h : blockComment? m = some b) : b.IsSound := by
  obtain ⟨hstarts, hcloses⟩ := closes_line "\n */" (by decide)
  have hline : Text.IsMark "\n * " := isMark_line "\n *" (by decide)
  have hnotes : ∀ r ∈ notes m, Text.IsMark r.1 := by
    intro r hr
    obtain ⟨p, hp, hnote⟩ := List.mem_filterMap.1 hr
    obtain ⟨note, -, rfl⟩ := Option.map_eq_some_iff.1 hnote
    refine isMark_space.behind ("\n * @param " ++ p.ident)
      ⟨'\n', _, by rw [String.toList_append]; rfl, rfl⟩ ?_
    rw [String.toList_append, List.mem_append, not_or]
    exact ⟨by decide, hident p hp⟩
  unfold blockComment? at h
  split at h
  · cases h
  · next hmore =>
    cases h
    rw [hmore] at hnotes
    obtain ⟨hnote, hrest⟩ := List.forall_mem_cons.1 hnotes
    exact ⟨by simp, List.forall_mem_cons.2 ⟨hline, List.forall_mem_cons.2
      ⟨hnote.behind "\n *" ⟨_, _, rfl, rfl⟩ (by decide), hrest⟩⟩, hstarts, hcloses⟩
  · cases h
    refine ⟨by simp, List.forall_mem_append.2 ⟨?_, hnotes⟩, hstarts, hcloses⟩
    intro r hr
    obtain ⟨d, -, rfl⟩ := Option.map_eq_some_iff.1 (Option.mem_toList.1 hr)
    exact hline

theorem Css.isSound_blockComment {b : BlockComment} (hname : '/' ∉ m.pascalName.toList)
    (h : blockComment? m = some b) : b.IsSound := by
  obtain ⟨d, -, rfl⟩ := Option.map_eq_some_iff.1 h
  have hline : Text.IsMark "\n * " := isMark_line "\n *" (by decide)
  have hmark : Text.IsMark s!"\n * {m.pascalName}\n * " := by
    refine hline.behind ("\n * " ++ m.pascalName)
      ⟨'\n', _, by rw [String.toList_append]; rfl, rfl⟩ ?_
    rw [String.toList_append, List.mem_append, not_or]
    exact ⟨by decide, hname⟩
  refine ⟨by simp, List.forall_mem_singleton.2 hmark,
    ⟨'\n', _, by rw [String.toList_append]; rfl, rfl⟩, ?_⟩
  have hlast : " */" ∈ furtherHeading m ++ [" */"] := List.mem_append_right _ (.head _)
  have hcloses : Text.closingMark.toList <:+: " */".toList := by decide
  exact (hcloses.trans (Text.infix_unlines hlast)).trans (Text.infix_append_right _ _)

theorem CompoundModel.isSound_blockComment {v : CompoundModel} {b : BlockComment}
    (h : v.blockComment? = some b) : b.IsSound := by
  obtain ⟨d, -, rfl⟩ := Option.map_eq_some_iff.1 h
  obtain ⟨hstarts, hcloses⟩ := closes_line " */" (by decide)
  exact ⟨by simp, List.forall_mem_singleton.2 isMark_space, hstarts, hcloses⟩

/-! ## Sources -/

theorem ComponentModel.mark_lineComment {indent : String} {l : LineComment}
    (h : l ∈ m.lineComments indent) : l.mark ∈ ["/// ", indent ++ "/// "] := by
  rcases List.mem_append.1 h with h | h
  · obtain ⟨d, -, rfl⟩ := Option.map_eq_some_iff.1 (Option.mem_toList.1 h)
    exact .head _
  · obtain ⟨p, -, hp⟩ := List.mem_filterMap.1 h
    obtain ⟨d, -, rfl⟩ := Option.map_eq_some_iff.1 hp
    exact .tail _ (.head _)

theorem Platform.mark_lineComment {platform : Platform} {l : LineComment}
    (h : l ∈ platform.lineComments m) : l.mark ∈ ["/// ", "  /// ", "    /// "] := by
  have hmarks : ∀ indent ∈ ["  ", "    "], ∀ mark ∈ ["/// ", indent ++ "/// "],
      mark ∈ ["/// ", "  /// ", "    /// "] := by decide
  cases platform with
  | flutter => exact hmarks "  " (by decide) _ (ComponentModel.mark_lineComment h)
  | swiftUI => exact hmarks "    " (by decide) _ (ComponentModel.mark_lineComment h)
  | react | vue | angular | svelte | tailwind | compose | css => cases h

/-- The line of a comment does not start as imports do. -/
theorem Platform.head?_lineComment {platform : Platform} {l : LineComment}
    (h : l ∈ platform.lineComments m) : l.source.toList.head? ≠ some 'i' := by
  have hhead : ∀ mark ∈ ["/// ", "  /// ", "    /// "],
      mark.toList ≠ [] ∧ mark.toList.head? ≠ some 'i' := by decide
  obtain ⟨hne, hfirst⟩ := hhead _ (mark_lineComment h)
  rwa [LineComment.source, String.toList_append, List.head?_append_of_ne_nil _ hne]

/-- Line comments are among the lines of a source that has the descriptions of the component and,
with the lines for the props, of the props. -/
theorem ComponentModel.source_lineComment (propLines : PropModel → List String) {indent : String}
    {l : LineComment} (h : l ∈ m.lineComments indent) {lines : List String}
    (hown : ∀ line ∈ (m.description.map ("/// " ++ ·)).toList, line ∈ lines)
    (hprops : ∀ line ∈ (m.props.flatMap propLines).map (indent ++ ·), line ∈ lines)
    (hprop : ∀ p d, p.description = some d → "/// " ++ d ∈ propLines p) : l.source ∈ lines := by
  rcases List.mem_append.1 h with h | h
  · obtain ⟨d, hd, rfl⟩ := Option.map_eq_some_iff.1 (Option.mem_toList.1 h)
    exact hown _ (Option.mem_toList.2 (Option.map_eq_some_iff.2 ⟨d, hd, rfl⟩))
  · obtain ⟨p, hp, hnote⟩ := List.mem_filterMap.1 h
    obtain ⟨d, hd, rfl⟩ := Option.map_eq_some_iff.1 hnote
    have hline := List.mem_flatMap.2 ⟨p, hp, hprop p d hd⟩
    exact hprops _ (List.mem_map.2 ⟨_, hline, String.append_assoc.symm⟩)

theorem Platform.writesLine {platform : Platform} {l : LineComment}
    (h : l ∈ platform.lineComments m) :
    s!"\n{l.source}\n".toList <:+: (platform.commented m).toList := by
  cases platform with
  | flutter =>
    have hhead := Platform.head?_lineComment h
    refine Text.infix_fileLine "import 'package:flutter/material.dart';" _ ?_ rfl
      fun heq => hhead (heq ▸ rfl)
    refine ComponentModel.source_lineComment Flutter.fieldLines h
      (fun line hline => ?_) (fun line hline => ?_) fun p d hd => ?_
    · simp only [List.mem_append, hline, true_or, or_true]
    · simp only [List.mem_append, hline, true_or, or_true]
    · rw [Flutter.fieldLines, hd]
      simp
  | swiftUI =>
    have hhead := Platform.head?_lineComment h
    refine Text.infix_fileLine "import SwiftUI" _ ?_ rfl fun heq => hhead (heq ▸ rfl)
    refine ComponentModel.source_lineComment SwiftUI.propertyLines h
      (fun line hline => ?_) (fun line hline => ?_) fun p d hd => ?_
    · simp only [List.mem_append, hline, true_or, or_true]
    · simp only [List.mem_append, hline, true_or, or_true]
    · rw [SwiftUI.propertyLines, hd]
      simp
  | react | vue | angular | svelte | tailwind | compose | css => cases h

/-- A comment whose lines are among those of a text stands in it. -/
theorem infix_source {b : BlockComment} {comment lines : List String} {indent : String}
    (hb : b.IsSound) (hsource : Text.unlines comment = indent ++ b.source)
    (hlines : comment <:+: lines) : b.source.toList <:+: (Text.unlines lines).toList := by
  have hne : comment ≠ [] := by
    rintro rfl
    have hempty := (String.append_eq_empty_iff.1 hsource.symm).2
    rw [BlockComment.source, String.append_eq_empty_iff, String.append_eq_empty_iff] at hempty
    have hopens := hb.opens
    rw [hempty.1.1] at hopens
    revert hopens
    decide
  have hpart := Text.infix_unlines_of_infix hlines hne
  rw [hsource] at hpart
  exact (Text.infix_append_right indent _).trans hpart

theorem React.writesBlock {b : BlockComment} (h : b ∈ Platform.react.blockComments m)
    (hb : b.IsSound) : b.source.toList <:+: (Platform.react.commented m).toList := by
  change b ∈ (if m.typed then m.props.filterMap (·.blockComment?) else []) at h
  change _ <:+: (((types m).map (·.content)).getD "").toList
  unfold types
  cases htyped : m.typed with
  | false =>
    rw [htyped] at h
    cases h
  | true =>
    rw [htyped, if_pos rfl] at h
    obtain ⟨p, hp, hcomment⟩ := List.mem_filterMap.1 h
    have hprops : p.comment <:+: m.props.flatMap fun p => p.comment ++ [p.member] :=
      (List.prefix_append _ _).isInfix.trans (List.infix_of_mem_flatten (List.mem_map_of_mem hp))
    have hinterface : p.comment <:+:
        m.propsInterface m.propsHeading m.props ["className?: string;"] :=
      ((hprops.trans (List.suffix_append _ _).isInfix).trans
        (List.prefix_append _ _).isInfix).trans (List.prefix_append _ _).isInfix
    exact (infix_source hb (PropModel.unlines_comment hcomment) hinterface).trans
      (infix_between _ _ _)

theorem Compose.writesBlock {b : BlockComment} (h : b ∈ Platform.compose.blockComments m)
    (hb : b.IsSound) : b.source.toList <:+: (Platform.compose.commented m).toList := by
  have hlines := Compose.unlines_comment (Option.mem_toList.1 h)
  refine (infix_source hb (hlines.trans String.empty_append.symm) ?_).trans
    (Text.infix_append_left _ _)
  iterate 7 refine List.IsInfix.trans ?_ (List.prefix_append _ _).isInfix
  exact (List.suffix_append _ _).isInfix

theorem Css.writesBlock {b : BlockComment} (h : b ∈ Platform.css.blockComments m)
    (hb : b.IsSound) : b.source.toList <:+: (Platform.css.commented m).toList := by
  rcases List.mem_append.1 h with h | h
  · have hlines := Css.unlines_heading (Option.mem_toList.1 h)
    refine (infix_source hb (hlines.trans String.empty_append.symm) ?_).trans
      (Text.infix_append_left _ _)
    refine List.IsInfix.trans ?_ (List.prefix_append _ _).isInfix
    exact ⟨[], [""], by rw [List.nil_append, List.append_assoc]; rfl⟩
  · obtain ⟨v, hv, hcomment⟩ := List.mem_filterMap.1 h
    obtain ⟨d, hd, rfl⟩ := Option.map_eq_some_iff.1 hcomment
    have hrule : m.compoundRule v ∈ m.stylesheetRules ++ m.contentProps.map (Css.partRule m) :=
      List.mem_append_left _ (List.mem_append_right _ (List.mem_map_of_mem hv))
    have hline : s!"/* {d} */" ∈ (m.compoundRule v).lines := by
      rw [Stylesheet.Rule.lines, ComponentModel.compoundRule, hd]
      exact List.mem_append_left _ (List.mem_append_left _ (List.mem_append_left _ (.head _)))
    have hsource : BlockComment.source ⟨"/*", [(" ", d)], " */"⟩ = s!"/* {d} */" := by
      apply String.toList_inj.1
      change ("/*" ++ (" " ++ d ++ "") ++ " */").toList = ("/* " ++ d ++ " */").toList
      simp only [String.toList_append, List.append_assoc]
      rfl
    rw [hsource]
    exact infix_file List.infix_rfl (List.mem_append_right _
      ((Stylesheet.lines_infix hrule).subset hline))

theorem Platform.writesBlock {platform : Platform} {b : BlockComment}
    (h : b ∈ platform.blockComments m) (hb : b.IsSound) :
    b.source.toList <:+: (platform.commented m).toList := by
  cases platform with
  | react => exact React.writesBlock h hb
  | compose => exact Compose.writesBlock h hb
  | css => exact Css.writesBlock h hb
  | vue | angular | svelte | tailwind | flutter | swiftUI => cases h

end

/-! ## Components -/

variable {c : ComponentSpec} {platform : Platform} {options : TransformOptions} {m : ComponentModel}

theorem PropSpec.described_of_model {p : PropSpec} {t : TypeTable} {component name : String}
    {q : PropModel} (h : (p.model t component name).result = .ok q) :
    q.description = p.description ∧ q.deprecated = p.deprecated := by
  rw [model, Mapping.result_bind] at h
  obtain ⟨type, -, h⟩ := bind_eq_ok h
  cases h
  exact ⟨rfl, rfl⟩

/-- Names on Compose have no slash. -/
theorem ComponentSpec.AppearsAs.slash_notMem (h : c.AppearsAs .compose m) (hc : c.error? = none) :
    ∀ q ∈ m.props, '/' ∉ q.ident.toList := by
  intro q hq
  obtain ⟨p, -, happears⟩ := exists_of_forall₂ h.props hq
  have hname := h.isIdentifier_name hc q hq
  rw [happears.named] at hname
  have hcamel : '/' ∉ (Text.camel p.1).toList := by
    intro hmem
    have hplain := hname.isPlain_camel _ hmem
    revert hplain
    decide
  rw [happears.ident]
  change '/' ∉ (Kotlin.language.ident (Text.camel p.1)).toList
  unfold NominalLanguage.ident
  split
  · change '/' ∉ ("`" ++ Text.camel p.1 ++ "`").toList
    simp only [String.toList_append, List.mem_append, not_or]
    exact ⟨⟨by decide, hcamel⟩, by decide⟩
  · exact hcamel

/-- Where the descriptions of a component and its props stand on SwiftUI and Flutter, in the types
for React, on Compose and in stylesheets, and which of them stay inside of their comments. -/
structure ComponentSpec.CommentsOn (c : ComponentSpec) (platform : Platform) (m : ComponentModel) :
    Prop where
  description : m.description = c.description
  props : List.Forall₂ (fun p q => q.description = p.2.description ∧ q.deprecated = p.2.deprecated)
    c.props m.props
  /-- All that is said is said in comments. -/
  complete : platform.RemarksInComments m
  /-- Behind a mark stands a description as it is, on lines of its own. Each of its lines has the
  mark just if there is only one. -/
  lines : ∀ l ∈ platform.lineComments m, l.mark ∈ ["/// ", "  /// ", "    /// "] ∧
    s!"\n{l.source}\n".toList <:+: (platform.commented m).toList ∧
      (l.Marks ↔ Text.isOneLine l.text.toList)
  /-- A comment between marks goes on behind a text just if no closing mark stands in the text or
  in one before it. -/
  blocks : ∀ b ∈ platform.blockComments m, b.opening ∈ ["/*", "/**"] ∧
    b.source.toList <:+: (platform.commented m).toList ∧
      ∀ i, b.Encloses i ↔ ∀ r ∈ b.remarks.take (i + 1), ¬ Text.closingMark.toList <:+: r.2.toList

theorem ComponentSpec.described_of_model (h : c.model platform options = .ok m) :
    m.pascalName = Text.pascal c.name ∧ m.description = c.description ∧
      List.Forall₂ (fun p q => q.description = p.2.description ∧ q.deprecated = p.2.deprecated)
        c.props m.props := by
  obtain ⟨props, hprops, rfl⟩ := map_eq_ok h
  exact ⟨rfl, rfl, (Mapping.mapM_eq_ok hprops).1.imp fun p q => PropSpec.described_of_model⟩

theorem ComponentSpec.isSound_of_model (hc : c.error? = none)
    (h : c.model platform options = .ok m) (ts : FlatTokens) {b : BlockComment}
    (hb : b ∈ platform.blockComments (m.withTokens ts)) : b.IsSound := by
  have hslash : '/' ∉ (m.withTokens ts).pascalName.toList := by
    change '/' ∉ m.pascalName.toList
    rw [(described_of_model h).1]
    exact Text.notMem_pascal (Generator.isPlain_name (issues_of_error? hc)) rfl
  cases platform with
  | react =>
    change b ∈ (if m.typed then m.props.filterMap (·.blockComment?) else []) at hb
    split at hb
    · obtain ⟨p, -, hcomment⟩ := List.mem_filterMap.1 hb
      exact PropModel.isSound_blockComment hcomment
    · cases hb
  | compose =>
    exact Compose.isSound_blockComment ((appears_of_model h ts).slash_notMem hc)
      (Option.mem_toList.1 hb)
  | css =>
    rcases List.mem_append.1 hb with hb | hb
    · exact Css.isSound_blockComment hslash (Option.mem_toList.1 hb)
    · obtain ⟨v, -, hcomment⟩ := List.mem_filterMap.1 hb
      exact CompoundModel.isSound_blockComment hcomment
  | vue | angular | svelte | tailwind | flutter | swiftUI => cases hb

/-- **A description on SwiftUI or Flutter has a mark before each of its lines just if it is a single
line. In the types for React, on Compose and in stylesheets it stays inside of its comment just if
it, and what stands before it in the comment, has no closing mark.** -/
theorem ComponentSpec.commentsOn (hc : c.error? = none) (h : c.model platform options = .ok m)
    (ts : FlatTokens) : c.CommentsOn platform (m.withTokens ts) := by
  have hmarks : ∀ mark ∈ ["/// ", "  /// ", "    /// "],
      mark ≠ "" ∧ mark.toList.all (Text.isLineEnd · = false) := by decide
  obtain ⟨-, hdescription, hprops⟩ := described_of_model h
  refine ⟨hdescription, hprops, platform.remarksInComments, fun l hl => ?_, fun b hb => ?_⟩
  · have hmark := Platform.mark_lineComment hl
    obtain ⟨hne, hplain⟩ := hmarks _ hmark
    exact ⟨hmark, Platform.writesLine hl,
      Text.LineComment.marks_iff hne (List.all_iff_forall_prop.1 hplain)⟩
  · have hsound := isSound_of_model hc h ts hb
    exact ⟨hsound.opens, Platform.writesBlock hb hsound, hsound.encloses_iff⟩

/-- A notice with something said about it and about its text. -/
def describedNotice (description note : String) : ComponentSpec where
  name := "Notice"
  category := .feedback
  description := some description
  accessibility := { role := "status" }
  props := [("text", { descriptor := .text, description := some note })]

theorem ComponentSpec.commentsOn_notice :
    (describedNotice "Tells the state." "What it is.").error? = none ∧
    (∃ m, (describedNotice "Tells the state." "What it is.").model .flutter {} = .ok m ∧
      Platform.flutter.lineComments m =
        [⟨"/// ", "Tells the state."⟩, ⟨"  /// ", "What it is."⟩] ∧
      ∀ l ∈ Platform.flutter.lineComments m, l.Marks) ∧
    ∃ m, (describedNotice "Tells the state." "What it is.").model .react {} = .ok m ∧
      Platform.react.blockComments m = [⟨"/**", [(" ", "What it is.")], " */"⟩] ∧
      ∀ b ∈ Platform.react.blockComments m, b.Encloses 0 := by
  have hc : (describedNotice "Tells the state." "What it is.").error? = none := by decide +kernel
  obtain ⟨m, hm, hlines⟩ := exists_of_map_eq
    (r := (describedNotice "Tells the state." "What it is.").model .flutter {})
    (f := Platform.flutter.lineComments)
    (b := [⟨"/// ", "Tells the state."⟩, ⟨"  /// ", "What it is."⟩]) (by decide +kernel)
  obtain ⟨n, hn, hblocks⟩ := exists_of_map_eq
    (r := (describedNotice "Tells the state." "What it is.").model .react {})
    (f := Platform.react.blockComments) (b := [⟨"/**", [(" ", "What it is.")], " */"⟩])
    (by decide +kernel)
  refine ⟨hc, ⟨m, hm, hlines, fun l hl => ?_⟩, n, hn, hblocks, fun b hb => ?_⟩
  · refine ((commentsOn hc hm []).lines l hl).2.2.2 ?_
    rw [hlines] at hl
    revert l
    decide +kernel
  · refine (((commentsOn hc hn []).blocks b hb).2.2 0).2 ?_
    rw [hblocks] at hb
    cases List.mem_singleton.1 hb
    decide +kernel

/-- A notice whose texts have a line break and a closing mark passes validation, but the second line
is no comment on Flutter, and the comment on React ends in the text. -/
theorem ComponentSpec.commentsOn_brokenNotice :
    (describedNotice "First line\nSecond line" "a */ b").error? = none ∧
    (∃ m, (describedNotice "First line\nSecond line" "a */ b").model .flutter {} = .ok m ∧
      ∃ l ∈ Platform.flutter.lineComments m, l.text = "First line\nSecond line" ∧
        l.source = "/// First line\nSecond line" ∧ ¬ l.Marks ∧
        s!"\n{l.source}\n".toList <:+: (Platform.flutter.commented m).toList) ∧
    ∃ m, (describedNotice "First line\nSecond line" "a */ b").model .react {} = .ok m ∧
      ∃ b ∈ Platform.react.blockComments m, b.remarks = [(" ", "a */ b")] ∧
        b.source = "/** a */ b */" ∧ ¬ b.Encloses 0 ∧
        b.source.toList <:+: (Platform.react.commented m).toList := by
  have hc : (describedNotice "First line\nSecond line" "a */ b").error? = none := by decide +kernel
  obtain ⟨m, hm, hlines⟩ := exists_of_map_eq
    (r := (describedNotice "First line\nSecond line" "a */ b").model .flutter {})
    (f := Platform.flutter.lineComments)
    (b := [⟨"/// ", "First line\nSecond line"⟩, ⟨"  /// ", "a */ b"⟩]) (by decide +kernel)
  obtain ⟨n, hn, hblocks⟩ := exists_of_map_eq
    (r := (describedNotice "First line\nSecond line" "a */ b").model .react {})
    (f := Platform.react.blockComments) (b := [⟨"/**", [(" ", "a */ b")], " */"⟩])
    (by decide +kernel)
  have hline : ⟨"/// ", "First line\nSecond line"⟩ ∈ Platform.flutter.lineComments m := by
    rw [hlines]
    exact .head _
  have hblock : ⟨"/**", [(" ", "a */ b")], " */"⟩ ∈ Platform.react.blockComments n := by
    rw [hblocks]
    exact .head _
  have hsound := isSound_of_model hc hn [] hblock
  refine ⟨hc, ⟨m, hm, _, hline, rfl, by decide, ?_, Platform.writesLine hline⟩, n, hn, _, hblock,
    rfl, by decide, ?_, Platform.writesBlock hblock hsound⟩
  · have hplain : ∀ c ∈ "/// ".toList, Text.isLineEnd c = false :=
      List.all_iff_forall_prop.1 (by decide)
    exact mt (LineComment.marks_iff (by decide) hplain).1 (by decide)
  · exact mt (hsound.encloses_iff 0).1 (by decide)

end DesignSystem
