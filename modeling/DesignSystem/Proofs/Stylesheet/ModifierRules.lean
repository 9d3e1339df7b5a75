import DesignSystem.Proofs.Component.Styling
import DesignSystem.Proofs.Script.StringLiteral
import DesignSystem.Proofs.Stylesheet.Reading

/-!
# Rules for the values of props

Scripts apply a class for the value of each enumerated prop, and the stylesheet has a rule for each.
A value stands in the selector as it is, without escapes.

* `lines_infix`: the lines of a rule stand in a stylesheet one after the other.
* `ComponentModel.Selects`: what is applied for a value, and how its rule is read.
* `ComponentSpec.selects_values`: the selector is read as the class that is applied just if the
  value has no character that must be escaped.
-/

set_option autoImplicit false

namespace DesignSystem

namespace Stylesheet

theorem mem_intersperse_of_mem {α : Type} {a separator : α} :
    ∀ {as : List α}, a ∈ as → a ∈ as.intersperse separator
  | [_], h => h
  | b :: b' :: as, h => by
    rw [List.intersperse_cons_cons]
    rcases List.mem_cons.1 h with rfl | h
    · exact .head _
    · exact .tail _ (.tail _ (mem_intersperse_of_mem h))

theorem lines_infix {r : Rule} {rules : List Rule} (h : r ∈ rules) : r.lines <:+: lines rules :=
  List.infix_of_mem_flatten (mem_intersperse_of_mem (List.mem_map_of_mem h))

end Stylesheet

variable {c : ComponentSpec} {platform : Platform} {options : TransformOptions} {m : ComponentModel}

/-- The custom property that records the value of a prop. -/
def ComponentModel.choiceProperty (m : ComponentModel) (q : PropModel) : String :=
  s!"--{m.kebabName}-{q.kebab}"

/-- What is applied for a value of a prop, and how the rule for it is read. -/
structure ComponentModel.Selects (m : ComponentModel) (q : PropModel) (value : String) : Prop where
  /-- The rule stands in the stylesheet. -/
  lines : [s!".{m.modifierClass q.kebab value} \x7b", s!"  {m.choiceProperty q}: {value};",
    "\x7d"] <:+: m.stylesheetLines
  /-- Every list of classes has an expression for the prop: a template literal, or what it finds in
  the classes of a module. -/
  listed : ∀ own choice, choice q ∈ m.classExpressions own choice
  /-- The template literal stands for the class where the prop has the value. -/
  applied : isIdentifier q.ident → ∀ bound, bound q.ident = some value →
    Script.template? bound (m.choiceTemplate q) = some (m.modifierClass q.kebab value)
  /-- The selector is read as this class just if no character of the value must be escaped. -/
  selector : Stylesheet.class? s!".{m.modifierClass q.kebab value}" =
      some (m.modifierClass q.kebab value) ↔ ∀ c ∈ value.toList, Stylesheet.isNameChar c
  /-- The declaration is read as one just if the value is one of custom properties. -/
  declaration : Stylesheet.declaration? s!"  {m.choiceProperty q}: {value};" =
      some (m.choiceProperty q, " " ++ value) ↔ Stylesheet.isValue value
  /-- So are all values whose characters have no meaning there. -/
  inert : (∀ c ∈ value.toList, Stylesheet.isInert c) → Stylesheet.isValue value
  /-- Characters that need not be escaped have none. -/
  plain : (∀ c ∈ value.toList, Stylesheet.isNameChar c) → Stylesheet.isValue value

/-- Whether a character needs no escape, neither in stylesheets nor in template literals. -/
def IsUnescaped (c : Char) : Prop :=
  Stylesheet.isNameChar c ∧ c ≠ '`' ∧ c ≠ '\\' ∧ c ≠ '\r' ∧ c ≠ '$'

instance : DecidablePred IsUnescaped := fun _ => inferInstanceAs (Decidable (_ ∧ _))

theorem isUnescaped_hyphen : IsUnescaped '-' := by decide

theorem Text.IsIdentifier.isUnescaped_kebab {s : String} (h : Text.IsIdentifier s) :
    ∀ c ∈ (Text.kebab s).toList, IsUnescaped c := by
  intro c hc
  rcases h.mem_kebab hc with rfl | hplain
  · exact isUnescaped_hyphen
  · exact Text.of_ascii (P := fun c => Text.isPlainAlphanumeric c → IsUnescaped c)
      (by decide +kernel) (Text.isPrintable_of_plain hplain).lt hplain

/-- The name of a component is an identifier, and starts with a letter in kebab-case. -/
theorem ComponentSpec.kebab_name (h : c.error? = none) :
    Text.IsIdentifier c.name ∧ (Text.kebab c.name).toList.head?.any Char.isAlpha := by
  obtain ⟨first, rest, hname, hupper, hrest⟩ : ∃ first rest, c.name.toList = first :: rest ∧
      first.isUpper ∧ ∀ d ∈ rest, Text.isPlainAlphanumeric d := by
    have hpascal := isPascalCase_name (issues_of_error? h)
    unfold isPascalCase at hpascal
    cases hname : c.name.toList with
    | nil => simp [hname] at hpascal
    | cons first rest => exact ⟨first, rest, rfl, by simpa [hname] using hpascal⟩
  have hplain := Text.plain_of_isUpper hupper
  have hidentifier : Text.IsIdentifier c.name := by
    rw [Text.IsIdentifier, hname]
    exact List.forall_mem_cons.2 ⟨.inl hplain, fun d hd => .inl (hrest d hd)⟩
  obtain ⟨hne, hdigit⟩ := Text.of_ascii (P := fun c => c.isUpper → c ≠ '_' ∧ c.isDigit = false)
    (by decide +kernel) (Text.isPrintable_of_plain hplain).lt hupper
  have hhead := hidentifier.head?_camel
  rw [hname, List.find?_cons_of_pos (by simpa using hne), Option.map_some, hdigit] at hhead
  obtain ⟨d, hd, hletter⟩ := Option.map_eq_some_iff.1 hhead
  refine ⟨hidentifier, ?_⟩
  have hcamel := hidentifier.isPlain_camel d (List.mem_of_head? hd)
  rw [hidentifier.head?_kebab, hd, Option.any_some]
  exact Text.of_ascii (P := fun c => Text.isPlainAlphanumeric c → c.isDigit = false → c.isAlpha)
    (by decide +kernel) (Text.isPrintable_of_plain hcamel).lt hcamel hletter

/-- What stands before the value in the class for it. -/
def ComponentModel.classStart (m : ComponentModel) (q : PropModel) : String :=
  m.kebabName ++ "--" ++ q.kebab ++ "-"

theorem ComponentModel.choiceTemplate_eq (q : PropModel) :
    m.choiceTemplate q = s!"`{m.classStart q}$\x7b{q.ident}\x7d`" := by
  change "`" ++ m.kebabName ++ "--" ++ q.kebab ++ "-$\x7b" ++ q.ident ++ "\x7d`" =
    "`" ++ (m.kebabName ++ "--" ++ q.kebab ++ "-") ++ "$\x7b" ++ q.ident ++ "\x7d`"
  simp only [← String.toList_inj, String.toList_append, List.append_assoc]
  rfl

theorem ComponentModel.toList_choiceProperty (q : PropModel) :
    (m.choiceProperty q).toList = '-' :: '-' :: (m.kebabName.toList ++ '-' :: q.kebab.toList) := by
  change ("--" ++ m.kebabName ++ "-" ++ q.kebab).toList = _
  simp only [String.toList_append, List.append_assoc]
  rfl

namespace ComponentSpec.AppearsAs

variable (h : c.AppearsAs platform m) (hc : c.error? = none) {q : PropModel}
include h hc

theorem isUnescaped_kebabName : ∀ c ∈ m.kebabName.toList, IsUnescaped c := by
  rw [h.kebabName]
  exact (kebab_name hc).1.isUnescaped_kebab

/-- The name of a prop in kebab-case needs no escapes, and stays as it is when it is written in
kebab-case again. -/
theorem prop_kebab (hq : q ∈ m.props) :
    (∀ c ∈ q.kebab.toList, IsUnescaped c) ∧ Text.kebab q.kebab = q.kebab := by
  obtain ⟨p, -, happears⟩ := exists_of_forall₂ h.props hq
  have hname := h.isIdentifier_name hc q hq
  rw [happears.named] at hname
  rw [happears.kebab]
  exact ⟨hname.isUnescaped_kebab, Text.kebab_kebab hname⟩

theorem modifierClass_eq (hq : q ∈ m.props) (value : String) :
    m.modifierClass q.kebab value = m.classStart q ++ value := by
  rw [ComponentModel.modifierClass, (h.prop_kebab hc hq).2]
  rfl

theorem isUnescaped_classStart (hq : q ∈ m.props) :
    ∀ c ∈ (m.classStart q).toList, IsUnescaped c := by
  have hhyphens : ∀ c ∈ ['-', '-'], IsUnescaped c :=
    List.forall_mem_cons.2 ⟨isUnescaped_hyphen, List.forall_mem_singleton.2 isUnescaped_hyphen⟩
  simp only [ComponentModel.classStart, String.toList_append, List.forall_mem_append]
  exact ⟨⟨⟨h.isUnescaped_kebabName hc, hhyphens⟩, (h.prop_kebab hc hq).1⟩,
    List.forall_mem_singleton.2 isUnescaped_hyphen⟩

/-- The class for a value starts with a letter. -/
theorem head?_class (value : String) :
    (m.classStart q ++ value).toList.head?.any Char.isAlpha := by
  have hhead := (kebab_name hc).2
  rw [← h.kebabName] at hhead
  have hne : m.kebabName.toList ≠ [] := fun hnil => by simp [hnil] at hhead
  simp only [ComponentModel.classStart, String.toList_append, List.append_assoc]
  rwa [List.head?_append_of_ne_nil _ hne]

/-- What is declared is a custom property, without escapes. -/
theorem isNameChar_choiceProperty (hq : q ∈ m.props) :
    ['-', '-'] <+: (m.choiceProperty q).toList ∧
      ∀ c ∈ (m.choiceProperty q).toList, Stylesheet.isNameChar c := by
  have hplain : ∀ c ∈ (m.choiceProperty q).toList, IsUnescaped c := by
    rw [ComponentModel.toList_choiceProperty]
    simp only [List.forall_mem_cons, List.forall_mem_append]
    exact ⟨isUnescaped_hyphen, isUnescaped_hyphen, h.isUnescaped_kebabName hc, isUnescaped_hyphen,
      (h.prop_kebab hc hq).1⟩
  refine ⟨?_, fun c hc => (hplain c hc).1⟩
  rw [ComponentModel.toList_choiceProperty]
  exact List.prefix_append _ _

theorem selects (hq : q ∈ m.modifiers) {value : String} (hvalue : value ∈ q.choices) :
    m.Selects q value := by
  have hprop := (List.mem_filter.1 hq).1
  have hstart := h.isUnescaped_classStart hc hprop
  refine ⟨?_, fun own choice => ?_, fun hident bound hbound => ?_, ?_, ?_,
    Stylesheet.isValue_of_isInert, fun hplain =>
      Stylesheet.isValue_of_isInert fun c hc => Stylesheet.isInert_of_isNameChar (hplain c hc)⟩
  · exact Stylesheet.lines_infix (ComponentModel.mem_stylesheetRules_of_modifier hq
      (List.mem_map_of_mem hvalue))
  · refine List.mem_map.2 ⟨.modifier q, ?_, rfl⟩
    exact List.mem_append_left _ (List.mem_append_right _ (List.mem_map_of_mem hq))
  · rw [ComponentModel.choiceTemplate_eq, h.modifierClass_eq hc hprop]
    exact Script.template?_name (fun c hc => (hstart c hc).2) hident hbound
  · rw [h.modifierClass_eq hc hprop]
    change Stylesheet.class? ("." ++ (m.classStart q ++ value)) = _ ↔ _
    rw [Stylesheet.class?_self_iff (h.head?_class hc value), String.toList_append,
      List.forall_mem_append]
    exact and_iff_right fun c hc => (hstart c hc).1
  · obtain ⟨hmarked, hplain⟩ := h.isNameChar_choiceProperty hc hprop
    exact Stylesheet.declaration?_iff hmarked hplain

end ComponentSpec.AppearsAs

/-- **The rule for a value is read as the rule for the class that is applied just if no character of
the value must be escaped.** -/
theorem ComponentSpec.selects_values (hc : c.error? = none)
    (h : c.model platform options = .ok m) (ts : FlatTokens) :
    ∀ q ∈ (m.withTokens ts).modifiers, ∀ value ∈ q.choices, (m.withTokens ts).Selects q value :=
  fun _ hq _ hvalue => (appears_of_model h ts).selects hc hq hvalue

/-- A stack with a gap. -/
def gapStack (values : List String) : ComponentSpec where
  name := "Stack"
  category := .layout
  accessibility := { role := "group" }
  props := [("gap", { descriptor := .primitive .string (some (values.map .string)) })]

theorem ComponentSpec.selects_values_gapStack : (gapStack ["sm", "2xl"]).error? = none ∧
    ∃ m, (gapStack ["sm", "2xl"]).model .vue {} = .ok m ∧
      ∃ q ∈ m.modifiers, q.choices = ["sm", "2xl"] ∧ (m.withTokens []).Selects q "2xl" ∧
        Stylesheet.class? ("." ++ m.modifierClass q.kebab "2xl") =
          some (m.modifierClass q.kebab "2xl") := by
  have hc : (gapStack ["sm", "2xl"]).error? = none := by decide +kernel
  obtain ⟨m, hm, hmodifiers⟩ := exists_of_map_eq (r := (gapStack ["sm", "2xl"]).model .vue {})
    (f := fun m => m.modifiers.map (·.choices)) (b := [["sm", "2xl"]]) (by decide +kernel)
  obtain ⟨q, hq, hchoices⟩ : ∃ q ∈ m.modifiers, q.choices = ["sm", "2xl"] :=
    List.mem_map.1 (hmodifiers ▸ .head _)
  have hselects := selects_values hc hm [] q hq "2xl" (hchoices ▸ by decide)
  have hplain : ∀ c ∈ "2xl".toList, Stylesheet.isNameChar c := List.all_eq_true.1 (by decide)
  exact ⟨hc, m, hm, q, hq, hchoices, hselects, hselects.selector.2 hplain⟩

/-- The stack passes validation, but no selector is read as the class that is applied for a gap of
one and a half. -/
theorem ComponentSpec.selects_values_fractionStack : (gapStack ["1", "1.5"]).error? = none ∧
    ∃ m, (gapStack ["1", "1.5"]).model .vue {} = .ok m ∧
      m.stylesheetRules.map (·.selectors) = [[".stack"], [".stack--gap-1"], [".stack--gap-1.5"]] ∧
      Stylesheet.class? ".stack--gap-1.5" = none ∧
      ∀ r ∈ m.stylesheetRules, ∀ selector ∈ r.selectors,
        Stylesheet.class? selector ≠ some "stack--gap-1.5" := by
  obtain ⟨m, hm, hselectors⟩ := exists_of_map_eq (r := (gapStack ["1", "1.5"]).model .vue {})
    (f := fun m => m.stylesheetRules.map (·.selectors))
    (b := [[".stack"], [".stack--gap-1"], [".stack--gap-1.5"]]) (by decide +kernel)
  refine ⟨by decide +kernel, m, hm, hselectors, by decide +kernel, ?_⟩
  intro r hr selector hselector
  have hmem := List.mem_map_of_mem (f := (·.selectors)) hr
  rw [hselectors] at hmem
  have hread : ∀ selectors ∈ [[".stack"], [".stack--gap-1"], [".stack--gap-1.5"]],
      ∀ selector ∈ selectors, Stylesheet.class? selector ≠ some "stack--gap-1.5" := by
    decide +kernel
  exact hread _ hmem _ hselector

end DesignSystem
