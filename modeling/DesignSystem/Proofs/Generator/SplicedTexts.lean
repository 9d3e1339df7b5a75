import DesignSystem.Proofs.Generation.Manifest
import DesignSystem.Proofs.Generator.ClassScope
import DesignSystem.Proofs.Script.StringLiteral
import Mathlib.Data.Bool.AllAny

/-!
# Texts in the source of a React component

The source holds two kinds of texts of the specification between quotes: the accessible label, as
what is shown until it is localized, and the classes for compound variants. The label is written
with its quotes escaped, a class as it is.

* `React.labelLiteral_eq`, `Script.splice_false`: how they are written.
* `ComponentSpec.quotesTexts_react`: where they stand, and which of them are read back.
-/

set_option autoImplicit false

namespace DesignSystem

/-! ## How texts are written -/

theorem Text.replaceList_singleton (c : Char) (new cs : List Char) :
    replaceList [c] new 0 cs = cs.flatMap fun d => if c = d then new else [d] := by
  induction cs with
  | nil => rfl
  | cons d cs ih =>
    rw [replaceList, List.flatMap_cons, dropFrontList]
    split_ifs with hd hfound hfound
    · rw [List.length_nil, ih]
    · exact absurd rfl hfound
    · cases hfound
    · rw [ih]
      rfl

theorem React.labelLiteral_eq (label : String) : labelLiteral label = Script.splice true label := by
  have hchars : label.toList.flatMap (fun d => if '\'' = d then ['\\', '\''] else [d]) =
      label.toList.flatMap (Script.spliceChar true) := by
    refine List.flatMap_congr fun d _ => ?_
    unfold Script.spliceChar
    split_ifs with h h' h'
    · rw [h]
    · exact absurd ⟨rfl, h.symm⟩ h'
    · exact absurd h'.2.symm h
    · rfl
  rw [labelLiteral, Script.splice, Text.replace]
  change "'" ++ String.ofList (Text.replaceList ['\''] _ 0 _) ++ "'" = _
  rw [Text.replaceList_singleton]
  exact congrArg (fun cs => "'" ++ String.ofList cs ++ "'") hchars

theorem Script.splice_false (text : String) : splice false text = "'" ++ text ++ "'" := by
  have hchars : text.toList.flatMap (spliceChar false) = text.toList := by
    have hchar : spliceChar false = fun c => [c] := rfl
    rw [hchar, List.flatMap_singleton']
  rw [splice, hchars, String.ofList_toList]

/-- A literal is read as the text that it was written for, whatever follows. -/
def Script.ReadsBack (literal text : String) : Prop :=
  ∀ rest, string? (literal ++ rest) = some (utf16 text, rest)

namespace Script

theorem readsBack_splice_iff {escapesQuote : Bool} {text : String} :
    ReadsBack (splice escapesQuote text) text ↔
      ∀ c ∈ text.toList, IsSpliced escapesQuote c :=
  ⟨fun h => (string?_splice_iff _ _ "").1 (h ""), fun h rest => (string?_splice_iff _ _ rest).2 h⟩

end Script

/-- A name as a title consists of letters, digits and spaces. -/
theorem Text.of_mem_title {s : String} (h : IsPlain s) {c : Char} (hc : c ∈ (title s).toList) :
    c = ' ' ∨ isPlainAlphanumeric c := by
  have htitle : title s = join " " ((lowerWords s).map capitalised) := by
    refine (apply_uniform .capital " " s).trans (congrArg (join " ") ?_)
    rw [lowerWords, List.map_map]
    exact List.map_congr_left fun w hw => capital_apply (plain_of_mem_wordsOf h hw)
  rw [htitle] at hc
  rcases mem_join hc with hc | ⟨item, hitem, hc⟩
  · exact .inl (List.mem_singleton.1 hc)
  · obtain ⟨word, hword, rfl⟩ := List.mem_map.1 hitem
    exact .inr (isPlain_capitalised (isPlain_of_mem_lowerWords h hword) c hc)

/-! ## Components -/

variable {c : ComponentSpec} {options : TransformOptions} {m : ComponentModel}

/-- The text for an accessible label that is not localized yet, as an argument of its lookup. -/
def React.labelLookup (m : ComponentModel) : String :=
  s!"t('{m.name}.a11y.label', {labelLiteral m.accessibleLabel})"

/-- Where the texts of a component stand in its source, and which of them are read back. -/
structure ComponentSpec.QuotesTexts (c : ComponentSpec) (m : ComponentModel) : Prop where
  /-- The label is the own one of the component or else its name. -/
  label : m.accessibleLabel = c.accessibility.label.getD (Text.title c.name)
  /-- It stands in the source of a localized component. -/
  writesLabel : m.localized = true → (React.labelLookup m).toList <:+: (React.source m).toList
  /-- It is read back just if the own label has no backslash and no line break. -/
  readsLabel : Script.ReadsBack (React.labelLiteral m.accessibleLabel) m.accessibleLabel ↔
    ∀ label ∈ c.accessibility.label, ∀ d ∈ label.toList, d ∉ ['\\', '\n', '\r']
  /-- The class for a compound variant is the own one of the variant or else made of its
  conditions. -/
  classes : List.Forall₂ (fun v w =>
    m.compoundClass w = v.className.getD (Text.join " " (m.conditionClasses w)))
      c.variants.compound m.compounds
  /-- It stands in the source behind the test for the conditions. -/
  writesClass : ∀ w ∈ m.compounds,
    s!"{w.guard} && '{m.compoundClass w}'".toList <:+: (React.source m).toList
  /-- It is read back just if it has no backslash, no line break and no quote. -/
  readsClass : ∀ w ∈ m.compounds,
    Script.ReadsBack s!"'{m.compoundClass w}'" (m.compoundClass w) ↔
      ∀ d ∈ (m.compoundClass w).toList, d ∉ ['\\', '\n', '\r', '\'']

theorem React.infix_labelLookup (h : m.localized = true) :
    (labelLookup m).toList <:+: (source m).toList := by
  have hattribute : labelAttribute m = "\x7b" ++ labelLookup m ++ "\x7d" := by
    rw [labelAttribute, if_pos h, labelLookup]
    apply String.toList_inj.1
    change ("\x7bt('" ++ m.name ++ ".a11y.label', " ++ labelLiteral m.accessibleLabel ++
      ")\x7d").toList = ("\x7b" ++ ("t('" ++ m.name ++ ".a11y.label', " ++
        labelLiteral m.accessibleLabel ++ ")") ++ "\x7d").toList
    simp only [String.toList_append, List.append_assoc]
    rfl
  have hmem : s!"aria-label={labelAttribute m}" ∈ attributes m := by
    simp only [attributes, List.mem_append, List.mem_cons, true_or, or_true]
  refine @infix_file _ ("      " ++ s!"aria-label={labelAttribute m}") _ ?_ ?_
  · rw [hattribute]
    exact (infix_between "\x7b" _ "\x7d").trans
      ((infix_after "aria-label=" _).trans (infix_after "      " _))
  · have hline := List.mem_map_of_mem (f := ("      " ++ ·)) hmem
    simp only [List.mem_append]
    exact .inl (.inl (.inl (.inr hline)))

theorem React.infix_compound {w : CompoundModel} (h : w ∈ m.compounds) :
    s!"{w.guard} && '{m.compoundClass w}'".toList <:+: (source m).toList := by
  have hpart : .compound w ∈ m.classParts :=
    List.mem_append_right _ (List.mem_map_of_mem h)
  have hexpression : s!"{w.guard} && '{m.compoundClass w}'" ∈ classes m :=
    List.mem_append_left _ (List.mem_map_of_mem (f := ClassPart.expression m _ _) hpart)
  exact React.writesClassScope.expressions _ hexpression

/-- The name of a component has nothing that would have to be escaped. -/
theorem ComponentSpec.forall_label_iff (hc : c.error? = none) :
    (∀ d ∈ (c.accessibility.label.getD (Text.title c.name)).toList,
        Script.IsSpliced true d) ↔
      ∀ label ∈ c.accessibility.label, ∀ d ∈ label.toList, d ∉ ['\\', '\n', '\r'] := by
  have hchar : ∀ d, Script.IsSpliced true d ↔ d ∉ ['\\', '\n', '\r'] :=
    fun d => and_iff_left fun _ => rfl
  simp only [hchar]
  cases c.accessibility.label with
  | some label => exact ⟨fun h label' heq => Option.some.inj heq ▸ h, fun h => h label rfl⟩
  | none =>
    refine ⟨fun _ => nofun, fun _ d hd => ?_⟩
    rcases Text.of_mem_title (Generator.isPlain_name (issues_of_error? hc)) hd with rfl | hplain
    · decide
    · intro hmem
      simp only [List.mem_cons, List.not_mem_nil, or_false] at hmem
      rcases hmem with rfl | rfl | rfl <;> cases hplain

/-- **In the source of a React component, the accessible label is read back from its literal just
if it has no backslash and no line break, and the class for a compound variant just if it has no
quote either.** -/
theorem ComponentSpec.quotesTexts_react (hc : c.error? = none)
    (h : c.model .react options = .ok m) (ts : FlatTokens) : c.QuotesTexts (m.withTokens ts) := by
  have happears := appears_of_model h ts
  have hlabel : (m.withTokens ts).accessibleLabel =
      c.accessibility.label.getD (Text.title c.name) := by
    obtain ⟨props, -, rfl⟩ := map_eq_ok h
    rfl
  refine ⟨hlabel, React.infix_labelLookup, ?_, ?_, fun w => React.infix_compound, ?_⟩
  · rw [React.labelLiteral_eq, Script.readsBack_splice_iff, hlabel, forall_label_iff hc]
  · rw [happears.compounds, List.forall₂_map_right_iff]
    exact List.forall₂_same.2 fun v _ => rfl
  · intro w _
    have hliteral : s!"'{(m.withTokens ts).compoundClass w}'" =
        Script.splice false ((m.withTokens ts).compoundClass w) := (Script.splice_false _).symm
    rw [hliteral, Script.readsBack_splice_iff]
    refine forall₂_congr fun d _ => ?_
    simp only [Script.IsSpliced, List.mem_cons, List.not_mem_nil, or_false, Bool.false_eq_true]
    tauto

/-- A button with a label of its own, and a styling with a class of its own. -/
def namedButton (label className : String) : ComponentSpec where
  name := "Button"
  category := .interactive
  accessibility := { role := "button", label := some label }
  props := [("size", { descriptor := .primitive .string (some [.string "sm", .string "lg"]) })]
  variants :=
    { compound := [{ conditions := [("size", .string "lg")], className := some className }] }

theorem ComponentSpec.quotesTexts_react_plainButton :
    (namedButton "Don't stop" "hero").error? = none ∧
    ∃ m, (namedButton "Don't stop" "hero").model .react {} = .ok m ∧
      m.accessibleLabel = "Don't stop" ∧ m.compounds.map m.compoundClass = ["hero"] ∧
      Script.ReadsBack (React.labelLiteral m.accessibleLabel) m.accessibleLabel ∧
      ∀ w ∈ m.compounds, Script.ReadsBack s!"'{m.compoundClass w}'" (m.compoundClass w) := by
  have hc : (namedButton "Don't stop" "hero").error? = none := by decide +kernel
  obtain ⟨m, hm, htexts⟩ := exists_of_map_eq
    (r := (namedButton "Don't stop" "hero").model .react {})
    (f := fun m => (m.accessibleLabel, m.compounds.map m.compoundClass))
    (b := ("Don't stop", ["hero"])) (by decide +kernel)
  obtain ⟨hlabel, hclasses⟩ := Prod.mk.inj htexts
  have hquotes := quotesTexts_react hc hm []
  refine ⟨hc, m, hm, hlabel, hclasses, hquotes.readsLabel.2 ?_, fun w hw =>
    (hquotes.readsClass w hw).2 ?_⟩
  · intro label hown
    cases hown
    exact List.all_iff_forall_prop.1 (by decide +kernel)
  · have hclass : m.compoundClass w = "hero" :=
      List.mem_singleton.1 (hclasses ▸ List.mem_map_of_mem hw)
    change ∀ d ∈ (m.compoundClass w).toList, _
    rw [hclass]
    exact List.all_iff_forall_prop.1 (by decide +kernel)

/-- A button whose label has a backslash and whose class has a quote passes validation, but its
label is read with a line break, and its class ends at the quote. -/
theorem ComponentSpec.quotesTexts_react_pathButton :
    (namedButton "Open C:\\new" "it's").error? = none ∧
    ∃ m, (namedButton "Open C:\\new" "it's").model .react {} = .ok m ∧
      m.accessibleLabel = "Open C:\\new" ∧ m.compounds.map m.compoundClass = ["it's"] ∧
      React.labelLiteral m.accessibleLabel = "'Open C:\\new'" ∧
      Script.string? "'Open C:\\new'" = some (Script.utf16 "Open C:\new", "") ∧
      Script.string? "'it's'" = some (Script.utf16 "it", "s'") := by
  obtain ⟨m, hm, htexts⟩ := exists_of_map_eq
    (r := (namedButton "Open C:\\new" "it's").model .react {})
    (f := fun m => (m.accessibleLabel, m.compounds.map m.compoundClass))
    (b := ("Open C:\\new", ["it's"])) (by decide +kernel)
  obtain ⟨hlabel, hclasses⟩ := Prod.mk.inj htexts
  refine ⟨by decide +kernel, m, hm, hlabel, hclasses, ?_, by decide +kernel, by decide +kernel⟩
  rw [hlabel]
  decide +kernel

end DesignSystem
