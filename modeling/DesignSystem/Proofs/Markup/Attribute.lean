import DesignSystem.Generator.React
import DesignSystem.Proofs.Generator.Calls
import DesignSystem.Proofs.Script.StringLiteral
import DesignSystem.Proofs.Text.Quoted
import Mathlib.Data.Bool.AllAny

/-!
# Attributes that hold texts

In an element of a script, an attribute holds a text between double quotes as it is, or an
expression in braces. What stands between the double quotes here is a text with the escapes of a
literal in single quotes.

* `Markup.attributeValue?`: the text that an attribute stands for.
* `Text.escapeChar_single_iff`, `Script.length_unitsOf_escape`: what escapes add to a text.
* `PropSpec.showsText`: which texts are read back from their attributes.
-/

set_option autoImplicit false

namespace DesignSystem

/-! ## Reading -/

/-- The text that the value of an attribute stands for, and what follows the value. -/
def Markup.value? : List Char → Option (List Nat × String)
  | '"' :: cs => (Text.cut? "\"" (.ofList cs)).map fun r => (Script.utf16 r.1, r.2)
  | '\x7b' :: cs => do
    let (units, rest) ← Script.string? (.ofList cs)
    let rest ← Text.dropFront? "\x7d" rest
    some (units, rest)
  | _ => none

/-- The text that an attribute of a given name stands for, and what follows the attribute. -/
def Markup.attributeValue? (name source : String) : Option (List Nat × String) :=
  (Text.dropFront? (name ++ "=") source).bind fun value => value? value.toList

example : Markup.attributeValue? "label" "label=\"it's\" />" = some (Script.utf16 "it's", " />") ∧
    Markup.attributeValue? "label" "label=\x7b'it\\'s'\x7d />" =
      some (Script.utf16 "it's", " />") := by
  decide +kernel

/-! ## Escapes -/

/-- The characters that stand in a literal in single quotes as they are. -/
theorem Text.escapeChar_single_iff {c : Char} :
    QuoteStyle.single.escapeChar c = [c] ↔ c ∉ ['\\', '\n', '\r', '\t', '\'', '$'] := by
  have hguard : (c = QuoteStyle.single.quote || QuoteStyle.single.guarded.contains c) = true ↔
      c = '\'' ∨ c = '$' := by
    rw [Bool.or_eq_true, decide_eq_true_eq, List.contains_iff_mem]
    exact or_congr_right List.mem_singleton
  unfold QuoteStyle.escapeChar
  split_ifs with hbackslash hfeed hreturn htab hguarded
  · exact iff_of_false (by simp) (by simp [hbackslash])
  · exact iff_of_false (by simp) (by simp [hfeed])
  · exact iff_of_false (by simp) (by simp [hreturn])
  · exact iff_of_false (by simp) (by simp [htab])
  · refine iff_of_false (by simp) ?_
    rcases hguard.1 hguarded with rfl | rfl <;> decide
  · have hplain := not_or.1 (mt hguard.2 hguarded)
    exact iff_of_true rfl (by simp [hbackslash, hfeed, hreturn, htab, hplain])

namespace Script

/-- An escape has more units than the character that it is written for. -/
theorem length_unitsOf_escapeChar (c : Char) :
    (codeUnits c.toNat).length ≤ (unitsOf (Text.QuoteStyle.single.escapeChar c)).length ∧
      ((unitsOf (Text.QuoteStyle.single.escapeChar c)).length ≤ (codeUnits c.toNat).length →
        Text.QuoteStyle.single.escapeChar c = [c]) := by
  rcases Text.StringLanguage.typeScript.escapeChar_cases c with
    ⟨d, hescape, hread, -⟩ | ⟨hescape, -⟩
  · have hlonger : (unitsOf ['\\', d]).length = 1 + (codeUnits d.toNat).length := by
      rw [unitsOf_cons, List.length_append, unitsOf_cons, List.length_append]
      rfl
    have hle := length_codeUnits_unescape hread
    change Text.QuoteStyle.single.escapeChar c = _ at hescape
    rw [hescape, hlonger]
    omega
  · change Text.QuoteStyle.single.escapeChar c = _ at hescape
    rw [hescape, unitsOf_cons, List.length_append]
    exact ⟨Nat.le_add_right _ _, fun _ => rfl⟩

/-- So a text has as many units as with its escapes just if there are none. -/
theorem length_unitsOf_escape (cs : List Char) :
    (unitsOf cs).length ≤ (unitsOf (cs.flatMap Text.QuoteStyle.single.escapeChar)).length ∧
      ((unitsOf (cs.flatMap Text.QuoteStyle.single.escapeChar)).length ≤ (unitsOf cs).length →
        ∀ c ∈ cs, Text.QuoteStyle.single.escapeChar c = [c]) := by
  induction cs with
  | nil => exact ⟨Nat.le_refl _, fun _ => nofun⟩
  | cons c cs ih =>
    have hc := length_unitsOf_escapeChar c
    have happend : ∀ ds ds' : List Char, unitsOf (ds ++ ds') = unitsOf ds ++ unitsOf ds' :=
      fun _ _ => List.flatMap_append
    rw [List.flatMap_cons, unitsOf_cons, happend, List.length_append, List.length_append]
    refine ⟨by omega, fun hle => List.forall_mem_cons.2 ⟨hc.2 (by omega), ih.2 (by omega)⟩⟩

end Script

/-! ## Props -/

/-- The characters that a text cannot hold in an attribute. -/
def Markup.spoilers : List Char := ['"', '\'', '\\', '$', '\n', '\r', '\t']

/-- How the sample value of a prop, which is a text, stands in examples. -/
structure PropModel.ShowsText (q : PropModel) (text markup : String) : Prop where
  emitted : q.attribute? = some markup
  /-- The attribute stands in the example of any component that shows the prop. -/
  shown : ∀ m : ComponentModel, q ∈ m.props → q.isShown = true →
    markup.toList <:+: (React.usage m).toList
  /-- It stands for the text, whatever follows, just if the text has none of some characters. -/
  denotes : (∀ rest, Markup.attributeValue? q.ident (markup ++ rest) =
      some (Script.utf16 text, rest)) ↔ ∀ c ∈ text.toList, c ∉ Markup.spoilers

/-- An attribute in double quotes is read up to the next double quote. -/
theorem Markup.attributeValue?_quoted (name inner rest : String) :
    attributeValue? name (s!"{name}=\"{inner}\"" ++ rest) =
      (Text.cut? "\"" (inner ++ "\"" ++ rest)).map fun r => (Script.utf16 r.1, r.2) := by
  have hsource : s!"{name}=\"{inner}\"" ++ rest =
      name ++ "=" ++ .ofList ('"' :: (inner ++ "\"" ++ rest).toList) := by
    apply String.toList_inj.1
    change (name ++ "=\"" ++ inner ++ "\"" ++ rest).toList = _
    simp only [String.toList_append, List.append_assoc, String.toList_ofList]
    rfl
  rw [attributeValue?, hsource, Text.dropFront?_append, Option.bind_some, String.toList_ofList,
    value?, String.ofList_toList]

/-- The literal of a text loses its quotes again. -/
theorem Text.unquoted?_quotedSingle (text : String) :
    unquoted? (quotedSingle text) = some (escapeSingle text) := by
  rw [unquoted?, quotedSingle, String.append_assoc, dropFront?_append, Option.bind_some,
    dropBack?_append]

theorem Text.toList_escapeSingle (text : String) :
    (escapeSingle text).toList = text.toList.flatMap QuoteStyle.single.escapeChar :=
  String.toList_ofList

/-- An attribute with the escapes of a literal stands for a text just if there are no escapes, and
no double quote that would end it. -/
theorem Markup.attributeValue?_escapeSingle_iff (name text rest : String) :
    attributeValue? name (s!"{name}=\"{Text.escapeSingle text}\"" ++ rest) =
        some (Script.utf16 text, rest) ↔ ∀ c ∈ text.toList, c ∉ spoilers := by
  have hspoilers : (∀ c ∈ text.toList, c ∉ spoilers) ↔ '"' ∉ text.toList ∧
      ∀ c ∈ text.toList, Text.QuoteStyle.single.escapeChar c = [c] := by
    rw [← List.forall_mem_ne, ← forall₂_and]
    refine forall₂_congr fun c _ => ?_
    rw [Text.escapeChar_single_iff]
    simp only [spoilers, List.mem_cons, List.not_mem_nil, or_false, not_or]
    tauto
  rw [attributeValue?_quoted, Option.map_eq_some_iff, hspoilers]
  constructor
  · rintro ⟨⟨before, after⟩, hcut, heq⟩
    obtain ⟨hunits, rfl⟩ := Prod.mk.inj heq
    obtain ⟨hsource, hquote⟩ := (Text.cut?_eq_some_iff (by decide)).1 hcut
    have hbefore : before = Text.escapeSingle text := by
      have hchars := congrArg String.toList hsource.symm
      simp only [String.toList_append, List.append_cancel_right_eq, String.toList_inj] at hchars
      exact hchars
    have hlength := congrArg List.length hunits
    rw [hbefore, Script.utf16, Script.utf16, Text.toList_escapeSingle] at hlength
    have hplain := (Script.length_unitsOf_escape _).2 hlength.le
    refine ⟨fun hmem => hquote ?_, hplain⟩
    have hends : '"' ∈ (Text.escapeSingle text).toList := by
      rw [Text.toList_escapeSingle]
      exact List.mem_flatMap.2 ⟨'"', hmem, by decide⟩
    rw [hbefore]
    exact ((List.singleton_infix_iff _ _).2 hends).trans (List.prefix_append _ _).isInfix
  · rintro ⟨hquote, hplain⟩
    have hescape : Text.escapeSingle text = text := by
      rw [← String.toList_inj, Text.toList_escapeSingle, List.flatMap_congr hplain,
        List.flatMap_singleton']
    exact ⟨(text, rest), by rw [hescape]; exact Text.cut?_append (c := '"') (by decide) hquote rest,
      rfl⟩

/-- An element without content holds its attributes. -/
theorem ComponentModel.infix_emptyElement {markup : String} {attributes : List String}
    (h : markup ∈ attributes) (tag : String) :
    markup.toList <:+: (emptyElement tag attributes).toList := by
  unfold emptyElement
  split
  · cases h
  · exact (Text.infix_join h).trans (infix_between _ _ _)

/-- **The attribute for the sample value of a prop, if that is a text, stands for the text just if
it has no quote of either kind, no backslash, no dollar sign, no line break and no tab.** -/
theorem PropSpec.showsText {p : PropSpec} {component name text : String} {q : PropModel}
    (h : (p.model Platform.react.types component name).result = .ok q)
    (hvalue : p.exampleValue? = some (.string text)) :
    ∃ markup, q.ShowsText text markup := by
  have hsample : q.sample = some (Text.quotedSingle text) := by
    rw [model, Mapping.result_bind] at h
    obtain ⟨type, -, h⟩ := bind_eq_ok h
    cases h
    rw [hvalue]
    rfl
  have hattribute : q.attribute? = some s!"{q.ident}=\"{Text.escapeSingle text}\"" := by
    rw [PropModel.attribute?, hsample, Option.map_some, Text.unquoted?_quotedSingle]
  refine ⟨_, hattribute, fun m hq hshown => ?_, ?_⟩
  · have hmem := List.mem_filterMap.2 ⟨q, List.mem_filter.2 ⟨hq, hshown⟩, hattribute⟩
    exact (ComponentModel.infix_emptyElement hmem m.pascalName).trans
      (Text.infix_unlines (.tail _ (.tail _ (.head _))))
  · exact ⟨fun h => (Markup.attributeValue?_escapeSingle_iff _ _ "").1 (h ""),
      fun h rest => (Markup.attributeValue?_escapeSingle_iff _ _ rest).2 h⟩

/-- A required label with an example. -/
def exampleLabel (text : String) : PropSpec where
  descriptor := .primitive .string none
  required := true
  examples := [.string text]

theorem PropSpec.showsText_plainLabel : ∃ q,
    ((exampleLabel "Save now").model Platform.react.types "Button" "label").result = .ok q ∧
      (exampleLabel "Save now").exampleValue? = some (.string "Save now") ∧
      ∃ markup, q.attribute? = some markup ∧ ∀ rest,
        Markup.attributeValue? q.ident (markup ++ rest) = some (Script.utf16 "Save now", rest) := by
  obtain ⟨q, hq⟩ : ∃ q,
      ((exampleLabel "Save now").model Platform.react.types "Button" "label").result = .ok q :=
    exists_of_isOk (by decide +kernel)
  obtain ⟨markup, hshows⟩ := showsText hq rfl
  exact ⟨q, hq, rfl, markup, hshows.emitted, hshows.denotes.2 (List.all_iff_forall_prop.1 (by decide +kernel))⟩

/-- The attribute for a text with an apostrophe shows a backslash. -/
theorem PropSpec.showsText_contraction : ∃ q,
    ((exampleLabel "it's").model Platform.react.types "Button" "label").result = .ok q ∧
      q.attribute? = some "label=\"it\\'s\"" ∧
      Markup.attributeValue? q.ident "label=\"it\\'s\"" = some (Script.utf16 "it\\'s", "") ∧
      Script.utf16 "it\\'s" ≠ Script.utf16 "it's" := by
  obtain ⟨q, hq, hfields⟩ := exists_of_map_eq
    (r := ((exampleLabel "it's").model Platform.react.types "Button" "label").result)
    (f := fun q => (q.ident, q.attribute?)) (b := ("label", some "label=\"it\\'s\""))
    (by decide +kernel)
  obtain ⟨hident, hattribute⟩ := Prod.mk.inj hfields
  exact ⟨q, hq, hattribute, by rw [hident]; decide +kernel, by decide +kernel⟩

end DesignSystem
