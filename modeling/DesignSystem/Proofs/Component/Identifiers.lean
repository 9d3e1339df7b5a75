import DesignSystem.Proofs.Component.Declarations
import DesignSystem.Proofs.Text.Camel
import DesignSystem.Proofs.Types.ImplicitDefault

/-!
# The identifiers of props

The identifier of a prop is its name in camelCase, in which a word that the language reserves is
escaped. Validation looks at the name only.

* `isIdentifier_iff_of_isPlain`: which texts of letters and digits are identifiers.
* `IsEscape`: reserved words are escaped to what no name is in camelCase.
* `Platform.exists_escape`: so they are on all platforms.
* `PropSpec.IsModel.isLegal_iff`: which identifiers are legal.
* `ComponentSpec.model_identifies`: which ones are legal, and when no two are the same.
-/

set_option autoImplicit false

namespace DesignSystem

variable {name name' : String}

/-! ## Texts that are identifiers -/

theorem isIdentifier_iff : isIdentifier name = true ↔ ∃ c cs, name.toList = c :: cs ∧
    (c.isAlpha ∨ c = '_') ∧ ∀ d ∈ cs, Text.isPlainAlphanumeric d ∨ d = '_' := by
  unfold isIdentifier
  cases name.toList with
  | nil => simp
  | cons c cs => simp

theorem isIdentifier_chars (h : isIdentifier name) : Text.IsIdentifier name := by
  obtain ⟨c, cs, hname, hfirst, hrest⟩ := isIdentifier_iff.1 h
  rw [Text.IsIdentifier, hname]
  exact List.forall_mem_cons.2 ⟨hfirst.imp_left fun hc => Bool.or_eq_true_iff.2 (.inl hc), hrest⟩

/-- A text of letters and digits is an identifier just if it starts with a letter. -/
theorem isIdentifier_iff_of_isPlain (h : Text.IsPlain name) :
    isIdentifier name = true ↔ (name.toList.head?.map Char.isDigit) = some false := by
  rw [isIdentifier_iff]
  unfold Text.IsPlain at h
  revert h
  cases name.toList with
  | nil => simp
  | cons c cs =>
    intro h
    obtain ⟨hc, hcs⟩ := List.forall_mem_cons.1 h
    have hletter : (c.isAlpha ∨ c = '_') ↔ c.isDigit = false := by
      refine Text.of_ascii (P := fun c => Text.isPlainAlphanumeric c →
        ((c.isAlpha ∨ c = '_') ↔ c.isDigit = false)) (by decide +kernel)
        (Text.isPrintable_of_plain hc).lt hc
    rw [List.head?_cons, Option.map_some, Option.some_inj, ← hletter]
    constructor
    · rintro ⟨_, _, ⟨⟩, hfirst, -⟩
      exact hfirst
    · exact fun hfirst => ⟨c, cs, rfl, hfirst, fun d hd => .inl (hcs d hd)⟩

/-! ## Reserved words -/

/-- Reserved words are identifiers, and escaped to what has a mark that is no letter or digit. -/
structure IsEscape (reserved : List String) (escape : String → String) : Prop where
  plain : ∀ word ∈ reserved, Text.IsPlain word
  valid : ∀ word ∈ reserved, isIdentifier word
  marked : ∀ word ∈ reserved, ¬ Text.IsPlain (escape word)
  head : ∀ word ∈ reserved, (escape word).toList.head?.map Char.isDigit = some false
  injective : ∀ v w, escape v = escape w → v = w

/-- A name with reserved words escaped. -/
def escaped (reserved : List String) (escape : String → String) (name : String) : String :=
  if name ∈ reserved then escape name else name

namespace IsEscape

variable {reserved : List String} {escape : String → String} (h : IsEscape reserved escape)
include h

theorem escaped_notMem : escaped reserved escape name ∉ reserved := by
  unfold escaped
  split
  · next hmem => exact fun hescaped => h.marked name hmem (h.plain _ hescaped)
  · assumption

theorem escaped_inj (hname : Text.IsPlain name) (hname' : Text.IsPlain name') :
    escaped reserved escape name = escaped reserved escape name' ↔ name = name' := by
  refine ⟨fun heq => ?_, congrArg _⟩
  unfold escaped at heq
  split at heq
  · next hmem =>
    split at heq
    · exact h.injective _ _ heq
    · exact absurd (heq ▸ hname') (h.marked name hmem)
  · split at heq
    · next hmem' => exact absurd (heq ▸ hname) (h.marked name' hmem')
    · exact heq

/-- An escaped name starts with a digit just if the name does, and is empty just if it is. -/
theorem head?_escaped : (escaped reserved escape name).toList.head?.map Char.isDigit =
    name.toList.head?.map Char.isDigit := by
  unfold escaped
  split
  · next hmem =>
    rw [h.head name hmem]
    exact ((isIdentifier_iff_of_isPlain (h.plain name hmem)).1 (h.valid name hmem)).symm
  · rfl

/-- A name of letters and digits is escaped to an identifier, or to what a reserved word is, just if
it is an identifier itself. -/
theorem isIdentifier_escaped (hname : Text.IsPlain name) :
    (isIdentifier (escaped reserved escape name) ∨
      ∃ word ∈ reserved, escaped reserved escape name = escape word) ↔ isIdentifier name := by
  by_cases hmem : name ∈ reserved
  · exact iff_of_true (.inr ⟨name, hmem, if_pos hmem⟩) (h.valid name hmem)
  · rw [escaped, if_neg hmem]
    refine or_iff_left ?_
    rintro ⟨word, hword, rfl⟩
    exact h.marked word hword hname

end IsEscape

/-- A reserved word in backticks. -/
theorem isEscape_backticks {reserved : List String}
    (hwords : ∀ word ∈ reserved, (word.toList.all Text.isPlainAlphanumeric && isIdentifier word)) :
    IsEscape reserved fun word => "`" ++ word ++ "`" where
  plain word hword := List.all_eq_true.1 (Bool.and_eq_true_iff.1 (hwords word hword)).1
  valid word hword := (Bool.and_eq_true_iff.1 (hwords word hword)).2
  marked word _ hplain := by
    have hmark := hplain '`' (by simp)
    cases hmark
  head word _ := by
    rw [String.append_assoc, String.toList_append]
    rfl
  injective v w heq := by
    rwa [String.append_left_inj, String.append_right_inj] at heq

/-- A reserved word with an underscore. -/
theorem isEscape_underscore {reserved : List String}
    (hwords : ∀ word ∈ reserved, (word.toList.all Text.isPlainAlphanumeric && isIdentifier word)) :
    IsEscape reserved fun word => word ++ "_" where
  plain word hword := List.all_eq_true.1 (Bool.and_eq_true_iff.1 (hwords word hword)).1
  valid word hword := (Bool.and_eq_true_iff.1 (hwords word hword)).2
  marked word _ hplain := by
    have hmark := hplain '_' (by simp)
    cases hmark
  head word hword := by
    obtain ⟨hplain, hident⟩ := Bool.and_eq_true_iff.1 (hwords word hword)
    have hhead := (isIdentifier_iff_of_isPlain (List.all_eq_true.1 hplain)).1 hident
    rw [String.toList_append]
    cases hchars : word.toList with
    | nil => simp [hchars] at hhead
    | cons c cs =>
      rw [hchars] at hhead
      exact hhead
  injective v w heq := by rwa [String.append_left_inj] at heq

namespace Platform

variable {p : Platform}

/-- The words that the language of a platform reserves. -/
def reserved (p : Platform) : List String :=
  match p.dialect? with
  | some y => y.language.reserved
  | none => TypeScript.reserved

/-- Reserved words are escaped on all platforms. -/
theorem exists_escape (p : Platform) : ∃ escape, IsEscape p.reserved escape ∧
    ∀ name, p.types.ident name = escaped p.reserved escape name := by
  cases p with
  | swiftUI => exact ⟨_, isEscape_backticks (by decide +kernel), fun _ => rfl⟩
  | compose => exact ⟨_, isEscape_backticks (by decide +kernel), fun _ => rfl⟩
  | flutter => exact ⟨_, isEscape_underscore (by decide +kernel), fun _ => rfl⟩
  | react | vue | angular | svelte | css | tailwind =>
    exact ⟨_, isEscape_underscore (by decide +kernel), fun _ => rfl⟩

/-- A name that can stand in the sources for a platform: an identifier that is not reserved, or a
reserved word that is escaped. -/
def IsLegal (p : Platform) (name : String) : Prop :=
  name ∉ p.reserved ∧ (isIdentifier name ∨ ∃ word ∈ p.reserved, name = p.types.ident word)

end Platform

/-! ## Props -/

/-- The first character of a name that is no underscore. -/
def leading? (name : String) : Option Char := name.toList.find? (· ≠ '_')

theorem leading?_eq_none_iff : leading? name = none ↔ ∀ c ∈ name.toList, c = '_' := by
  simp [leading?]

/-- Behind its underscores an identifier goes on with a letter or a digit. -/
theorem leading?_map_isDigit (h : isIdentifier name) :
    (leading? name).map Char.isDigit = some false ↔ ∃ c, leading? name = some c ∧ c.isAlpha := by
  rw [Option.map_eq_some_iff]
  refine exists_congr fun c => and_congr_right fun hc => ?_
  unfold leading? at hc
  have hne : c ≠ '_' := by simpa using List.find?_some hc
  have hplain := (isIdentifier_chars h c (List.mem_of_find?_eq_some hc)).resolve_right hne
  exact Text.of_ascii (P := fun c => Text.isPlainAlphanumeric c → (c.isDigit = false ↔ c.isAlpha))
    (by decide +kernel) (Text.isPrintable_of_plain hplain).lt hplain

namespace PropSpec.IsModel

variable {p : PropSpec} {platform : Platform} {component : String} {q : PropModel}
  (h : p.IsModel platform.types component name q)
include h

theorem notReserved : q.ident ∉ platform.reserved := by
  obtain ⟨escape, hescape, hident⟩ := platform.exists_escape
  rw [h.ident, hident]
  exact hescape.escaped_notMem

variable (hname : isIdentifier name)
include hname

theorem head?_ident :
    q.ident.toList.head?.map Char.isDigit = (leading? q.name).map Char.isDigit := by
  obtain ⟨escape, hescape, hident⟩ := platform.exists_escape
  rw [h.ident, hident, hescape.head?_escaped, h.named]
  exact (isIdentifier_chars hname).head?_camel

theorem ident_eq_empty_iff : q.ident = "" ↔ ∀ c ∈ q.name.toList, c = '_' := by
  rw [← String.toList_eq_nil_iff, ← List.head?_eq_none_iff, ← Option.map_eq_none_iff,
    h.head?_ident hname, Option.map_eq_none_iff, leading?_eq_none_iff]

theorem startsWithDigit_iff : (∃ c, q.ident.toList.head? = some c ∧ c.isDigit) ↔
    ∃ c, leading? q.name = some c ∧ c.isDigit := by
  rw [← Option.map_eq_some_iff, ← Option.map_eq_some_iff, h.head?_ident hname]

/-- An identifier is legal just if the name has a letter, and no digit before it. -/
theorem isLegal_iff : platform.IsLegal q.ident ↔ ∃ c, leading? q.name = some c ∧ c.isAlpha := by
  obtain ⟨escape, hescape, hident⟩ := platform.exists_escape
  have hplain := (isIdentifier_chars hname).isPlain_camel
  have hwords : ∀ word ∈ platform.reserved, platform.types.ident word = escape word := by
    intro word hword
    rw [hident, escaped, if_pos hword]
  rw [Platform.IsLegal, and_iff_right h.notReserved, h.named, ← leading?_map_isDigit hname, leading?,
    ← (isIdentifier_chars hname).head?_camel, ← isIdentifier_iff_of_isPlain hplain,
    ← hescape.isIdentifier_escaped hplain, h.ident, hident]
  refine or_congr_right (exists_congr fun word => and_congr_right fun hword => ?_)
  rw [hwords word hword]

end PropSpec.IsModel

/-! ## Components -/

theorem ComponentSpec.isIdentifier_of_mem {c : ComponentSpec} (h : c.issues = []) :
    ∀ p ∈ c.props, isIdentifier p.1 := by
  intro p hp
  have hprop := prop_issues h p hp
  simp only [PropSpec.issues, List.append_eq_nil_iff] at hprop
  by_contra hnot
  simp [issueIf, hnot] at hprop

variable {c : ComponentSpec} {platform : Platform} {options : TransformOptions} {m : ComponentModel}

/-- The identifiers of a model's props. -/
structure ComponentSpec.Identifies (c : ComponentSpec) (platform : Platform) (m : ComponentModel) :
    Prop where
  /-- None is a reserved word. -/
  notReserved : ∀ q ∈ m.props, q.ident ∉ platform.reserved
  /-- Those are legal whose names have a letter, and no digit before it. -/
  legal : ∀ q ∈ m.props, platform.IsLegal q.ident ↔ ∃ c, leading? q.name = some c ∧ c.isAlpha
  /-- Nothing is left of names of underscores. -/
  empty : ∀ q ∈ m.props, q.ident = "" ↔ ∀ c ∈ q.name.toList, c = '_'
  /-- Underscores in front of a digit are lost. -/
  digit : ∀ q ∈ m.props, (∃ c, q.ident.toList.head? = some c ∧ c.isDigit) ↔
    ∃ c, leading? q.name = some c ∧ c.isDigit
  /-- Two are the same just if the names have the same words. -/
  nodup : (m.props.map (·.ident)).Nodup ↔
    c.props.Pairwise fun p p' => Text.camelWords p.1 ≠ Text.camelWords p'.1
  /-- They differ if the names do, whatever the case of letters and where underscores are. -/
  apart : (c.props.map fun p => Text.letters p.1).Nodup → (m.props.map (·.ident)).Nodup

theorem ComponentSpec.idents_of_model (h : c.model platform options = .ok m) :
    m.props.map (·.ident) = c.props.map fun p => platform.types.ident (Text.camel p.1) := by
  have hidents : List.Forall₂ (· = ·) (m.props.map (·.ident))
      (c.props.map fun p => platform.types.ident (Text.camel p.1)) := by
    rw [List.forall₂_map_left_iff, List.forall₂_map_right_iff]
    exact (props_of_model h).flip.imp fun _ _ hq => hq.ident
  rwa [List.forall₂_eq_eq_eq] at hidents

theorem ComponentSpec.nodup_idents_iff (hc : c.issues = []) (h : c.model platform options = .ok m) :
    (m.props.map (·.ident)).Nodup ↔
      c.props.Pairwise fun p p' => Text.camelWords p.1 ≠ Text.camelWords p'.1 := by
  obtain ⟨escape, hescape, hident⟩ := platform.exists_escape
  rw [idents_of_model h, List.Nodup, List.pairwise_map]
  -- names in camelCase are plain, so that no name is what another one is escaped to
  refine List.Pairwise.iff_of_mem fun {p p'} hp hp' => not_congr ?_
  have hname := isIdentifier_chars (isIdentifier_of_mem hc p hp)
  have hname' := isIdentifier_chars (isIdentifier_of_mem hc p' hp')
  rw [hident, hident, hescape.escaped_inj hname.isPlain_camel hname'.isPlain_camel,
    Text.camel_eq_iff hname hname']

/-- **The identifiers of props are never reserved words. They are legal just if the names have a
letter and no digit before it, and distinct just if no two names have the same words.** -/
theorem ComponentSpec.model_identifies (hc : c.error? = none)
    (h : c.model platform options = .ok m) : c.Identifies platform m := by
  have hissues := issues_of_error? hc
  have hprops : ∀ q ∈ m.props, ∃ p ∈ c.props, p.2.IsModel platform.types c.name p.1 q :=
    fun q hq => exists_of_forall₂ (props_of_model h) hq
  have hnames := isIdentifier_of_mem hissues
  refine ⟨fun q hq => ?_, fun q hq => ?_, fun q hq => ?_, fun q hq => ?_,
    nodup_idents_iff hissues h, fun hletters => ?_⟩
  · obtain ⟨p, -, hmodel⟩ := hprops q hq
    exact hmodel.notReserved
  · obtain ⟨p, hp, hmodel⟩ := hprops q hq
    exact hmodel.isLegal_iff (hnames p hp)
  · obtain ⟨p, hp, hmodel⟩ := hprops q hq
    exact hmodel.ident_eq_empty_iff (hnames p hp)
  · obtain ⟨p, hp, hmodel⟩ := hprops q hq
    exact hmodel.startsWithDigit_iff (hnames p hp)
  · rw [nodup_idents_iff hissues h]
    rw [List.Nodup, List.pairwise_map] at hletters
    refine hletters.imp_of_mem fun {p p'} hp hp' hne hwords => hne ?_
    have hname := isIdentifier_chars (hnames p hp)
    have hname' := isIdentifier_chars (hnames p' hp')
    rw [← Text.letters_camel hname.printable, ← Text.letters_camel hname'.printable,
      (Text.camel_eq_iff hname hname').2 hwords]

/-- A tag, two props of which have reserved names. -/
def tag : ComponentSpec where
  name := "Tag"
  category := .dataDisplay
  accessibility := { role := "status" }
  props := [("class", { descriptor := .text }), ("default", { descriptor := .text }),
    ("is_new", { descriptor := .primitive .boolean none }), ("size_2", { descriptor := .text })]

theorem ComponentSpec.model_identifies_tag : ∃ m, tag.model .react {} = .ok m ∧
    m.props.map (·.ident) = ["class_", "default_", "isNew", "size2"] ∧
    (m.props.map (·.ident)).Nodup ∧ ∀ q ∈ m.props, Platform.IsLegal .react q.ident := by
  obtain ⟨m, hm, hidents⟩ := exists_of_map_eq (f := fun m => m.props.map (·.ident))
    (by decide +kernel : ((tag.model .react {}).map _).toOption =
      some ["class_", "default_", "isNew", "size2"])
  have hmodel := model_identifies (by decide +kernel) hm
  refine ⟨m, hm, hidents, hmodel.apart (by decide +kernel), fun q hq => (hmodel.legal q hq).2 ?_⟩
  obtain ⟨p, hp, hq⟩ := exists_of_forall₂ (props_of_model hm) hq
  have hall : ∀ p ∈ tag.props, (leading? p.1).any Char.isAlpha := by decide +kernel
  have hletter := hall p hp
  rw [← hq.named, Option.any_eq_true] at hletter
  exact hletter

/-- A grid whose props have names that validation accepts. -/
def grid : ComponentSpec where
  name := "Grid"
  category := .layout
  accessibility := { role := "grid" }
  props := [("_", { descriptor := .text }), ("_1", { descriptor := .text }),
    ("row_gap", { descriptor := .text }), ("rowGap", { descriptor := .text })]

/-- On each platform one identifier of the grid is empty, one starts with a digit, and two are the
same. -/
theorem ComponentSpec.model_identifies_grid : grid.error? = none ∧ ∀ platform : Platform,
    ∃ m, grid.model platform {} = .ok m ∧
      m.props.map (·.ident) = ["", "1", "rowGap", "rowGap"] ∧ ¬ (m.props.map (·.ident)).Nodup := by
  refine ⟨by decide +kernel, fun platform => ?_⟩
  have hidents : ((grid.model platform {}).map fun m => m.props.map (·.ident)).toOption =
      some ["", "1", "rowGap", "rowGap"] := by
    cases platform <;> decide +kernel
  obtain ⟨m, hm, hidents⟩ := exists_of_map_eq hidents
  exact ⟨m, hm, hidents, by rw [hidents]; decide⟩

end DesignSystem
