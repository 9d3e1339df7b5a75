import DesignSystem.Descriptor.Basic
import DesignSystem.Proofs.Reading.Numeral
import DesignSystem.Proofs.Reading.Spelling
import DesignSystem.Proofs.Reading.Tree
import DesignSystem.Proofs.Token.Color
import DesignSystem.Types.Dart
import DesignSystem.Types.Kotlin
import DesignSystem.Types.Swift

/-!
# Literals of languages with named types can be read

Each language reads a literal from bracket trees, and says which of its types the literal has.

* `Dialect.readLiteral`: texts, numbers, truth values, lists, and calls that make a value.
* `Literal.HasType`: a literal is of a type.
* `reads_quoted`, `reads_number`, `reads_truth`, `reads_color`, `reads_url`, `reads_list`: what a
  language writes for a value is read as this value.
* `hasType_number_iff`: which numbers are written so that the language takes them.
-/

set_option autoImplicit false

namespace DesignSystem.Reading

/-- The languages whose types have names. -/
inductive Dialect
  | swift | kotlin | dart
  deriving DecidableEq

/-- A literal, whatever the language. -/
inductive Literal
  | text (content : String)
  | number (digits : String)
  | truth (value : Bool)
  /-- What the type of this name makes of a text or number. -/
  | made (type source : String)
  | list (items : List Literal)

namespace Dialect

/-! ## Forms -/

/-- The calls that make colors and addresses. -/
def made? : Dialect → List Tree → Option Literal
  | swift, [.word "Color", .group .round [[.word "hex", .mark .colon, .text _ source]]] =>
    some (.made "Color" source)
  | swift, [.word "URL", .group .round [[.word "string", .mark .colon, .text _ source]],
      .mark .bang] => some (.made "URL" source)
  | kotlin, [.word "Color", .group .round [[.number source]]] => some (.made "Color" source)
  | dart, [.word "Color", .group .round [[.number source]]] => some (.made "Color" source)
  | dart, [.word "Uri", .mark .dot, .word "parse", .group .round [[.text _ source]]] =>
    some (.made "Uri" source)
  | _, _ => none

/-- Swift and Dart write lists in brackets. -/
def bracketsLists : Dialect → Bool
  | swift | dart => true
  | kotlin => false

mutual

def readTree (y : Dialect) : Tree → Option Literal
  | .text _ content => some (.text content)
  | .number digits => some (.number digits)
  | .word w =>
    if w = "true" then some (.truth true) else if w = "false" then some (.truth false) else none
  | .group .square parts =>
    if y.bracketsLists then do some (.list (← readItems y parts)) else none
  | _ => none

def readTrees (y : Dialect) : List Tree → Option Literal
  | [t] => readTree y t
  | [.word head, .group .round parts] =>
    if head = "listOf" ∧ y.bracketsLists = false then do some (.list (← readItems y parts))
    else y.made? [.word head, .group .round parts]
  | ts => y.made? ts

def readItems (y : Dialect) : List (List Tree) → Option (List Literal)
  | [] => some []
  | [[]] => some []
  | ts :: rest => do some ((← readTrees y ts) :: (← readItems y rest))

end

/-- The literal that a text says. -/
def readLiteral (y : Dialect) (text : String) : Option Literal := do y.readTrees (← trees? text)

/-! ## Types -/

/-- The types of texts, numbers and truth values. -/
def scalarType : Dialect → PrimitiveType → String
  | _, .string => "String"
  | swift, .number | kotlin, .number => "Double"
  | dart, .number => "double"
  | swift, .boolean => "Bool"
  | kotlin, .boolean => "Boolean"
  | dart, .boolean => "bool"

/-- The type of lists. -/
def listType : Dialect → String → String
  | swift, item => "[" ++ item ++ "]"
  | kotlin, item | dart, item => "List<" ++ item ++ ">"

/-- A natural number that is the value of a 64-bit floating-point number. -/
def IsExact (n : Nat) : Prop := ∃ x : Binary64, x.units = n * Nat.pow 2 1074

/-- The numerals that may stand for a floating-point number. Kotlin takes one without a point and an
exponent for an integer; Dart accepts it if no precision is lost. -/
def TakesNumeral : Dialect → Numeral → Prop
  | swift, _ => True
  | kotlin, m => m.isFractional
  | dart, m => m.isFractional ∨ IsExact (Nat.ofDigitChars 10 m.whole 0)

end Dialect

/-- A literal is of a type of the language. -/
inductive Literal.HasType (y : Dialect) : Literal → String → Prop
  | text (content : String) : HasType y (.text content) (y.scalarType .string)
  | number {digits : String} {m : Numeral} (hm : m.IsWritten) (htext : digits.toList = m.chars)
      (h : y.TakesNumeral m) : HasType y (.number digits) (y.scalarType .number)
  | truth (value : Bool) : HasType y (.truth value) (y.scalarType .boolean)
  | made (type source : String) : HasType y (.made type source) type
  | list {items : List Literal} {item : String} (h : ∀ e ∈ items, HasType y e item) :
      HasType y (.list items) (y.listType item)

/-! ## Literals and their types -/

namespace Literal

variable {y : Dialect} {type : String}

theorem hasType_text_iff {content : String} :
    (text content).HasType y type ↔ type = y.scalarType .string := by
  constructor
  · rintro ⟨⟩
    rfl
  · rintro rfl
    exact .text content

theorem hasType_truth_iff {value : Bool} :
    (truth value).HasType y type ↔ type = y.scalarType .boolean := by
  constructor
  · rintro ⟨⟩
    rfl
  · rintro rfl
    exact .truth value

theorem hasType_made_iff {made source : String} :
    (Literal.made made source).HasType y type ↔ type = made := by
  constructor
  · rintro ⟨⟩
    rfl
  · rintro rfl
    exact .made type source

theorem hasType_list_iff {items : List Literal} :
    (list items).HasType y type ↔
      ∃ item, type = y.listType item ∧ ∀ e ∈ items, e.HasType y item := by
  constructor
  · intro h
    cases h with
    | list h => exact ⟨_, rfl, h⟩
  · rintro ⟨item, rfl, h⟩
    exact .list h

end Literal

namespace Dialect

/-- The table of the language. -/
def language : Dialect → NominalLanguage
  | swift => Swift.language
  | kotlin => Kotlin.language
  | dart => Dart.language

theorem language_primitive (y : Dialect) (kind : PrimitiveType) :
    y.language.primitive kind = y.scalarType kind := by
  cases y <;> cases kind <;> rfl

theorem language_list (y : Dialect) (item : String) : y.language.list item = y.listType item := by
  cases y <;> rfl

/-- A text says a literal. -/
def Reads (y : Dialect) (text : String) (e : Literal) : Prop :=
  ∃ ts, Spells text ts ∧ y.readTrees ts = some e

variable {y : Dialect} {text : String} {e : Literal}

theorem Reads.readLiteral (h : y.Reads text e) : y.readLiteral text = some e := by
  obtain ⟨ts, hspells, hread⟩ := h
  rw [Dialect.readLiteral, trees?_eq_iff.2 hspells]
  exact hread

/-! ## Texts and truth values -/

theorem reads_quoted (y : Dialect) (s : String) : y.Reads (y.language.quoted s) (.text s) := by
  cases y with
  | swift => exact ⟨_, .quotedDouble s, rfl⟩
  | kotlin => exact ⟨_, .quotedTemplate s, rfl⟩
  | dart => exact ⟨_, .quotedSingle s, rfl⟩

theorem reads_truth (y : Dialect) (b : Bool) :
    y.Reads (if b then "true" else "false") (.truth b) := by
  cases b with
  | false => exact ⟨[.word "false"], .word rfl, rfl⟩
  | true => exact ⟨[.word "true"], .word rfl, rfl⟩

/-! ## Numbers -/

/-- The numbers that a language takes as they are written. -/
def TakesNumber : Dialect → Json.Number → Prop
  | swift, _ => True
  | kotlin, n => ∀ i, n = .integer i → i < 0x8000000000000000
  | dart, n => ∀ i, n = .integer i → IsExact i.natAbs

theorem isNumeral_append {digits more : String} (h : IsNumeral digits)
    (hmore : ∀ c ∈ more.toList, isNumeralChar c) : IsNumeral (digits ++ more) := by
  obtain ⟨sign, c, cs, hdigits, hsign, hc, hcs⟩ := h
  refine ⟨sign, c, cs ++ more.toList, ?_, hsign, hc, List.forall_mem_append.2 ⟨hcs, hmore⟩⟩
  rw [String.toList_append, hdigits, List.append_assoc]
  rfl

theorem isNumeral_number (y : Dialect) (n : Json.Number) : IsNumeral (y.language.number n) := by
  cases y with
  | swift | dart => exact isNumeral_text n
  | kotlin =>
    change IsNumeral (Kotlin.number n)
    cases n with
    | real x => exact isNumeral_text _
    | integer i =>
      rw [Kotlin.number]
      split
      · have hmark : ".0".toList.all isNumeralChar = true := rfl
        exact isNumeral_append (isNumeral_text (.integer i)) (List.all_eq_true.1 hmark)
      · exact isNumeral_text (.integer i)

theorem reads_number (y : Dialect) (n : Json.Number) :
    y.Reads (y.language.number n) (.number (y.language.number n)) :=
  ⟨_, .number (isNumeral_number y n), rfl⟩

open Numeral

/-- A number is written so that the language takes it, just if it is one of those that it takes. -/
theorem hasType_number_iff {n : Json.Number} {type : String} :
    (Literal.number (y.language.number n)).HasType y type ↔
      type = y.scalarType .number ∧ y.TakesNumber n := by
  constructor
  · intro h
    cases h with
    | @number _ m hm htext htakes =>
      refine ⟨rfl, ?_⟩
      cases y with
      | swift => trivial
      | kotlin =>
        rintro i rfl
        by_contra hlarge
        have hplain : m.chars = (Json.Number.integer i).text.toList := by
          rw [← htext]
          change (Kotlin.number (.integer i)).toList = _
          rw [Kotlin.number, if_neg hlarge]
          rfl
        rw [Json.Number.toList_text_integer] at hplain
        rw [TakesNumeral, (whole_eq_of_chars hm hplain).1] at htakes
        cases htakes
      | dart =>
        rintro i rfl
        have hplain : m.chars = (Json.Number.integer i).text.toList := htext.symm
        rw [Json.Number.toList_text_integer] at hplain
        obtain ⟨hfractional, hwhole⟩ := whole_eq_of_chars hm hplain
        rw [TakesNumeral, hfractional, hwhole, Json.ofDigitChars_digitsOf] at htakes
        exact htakes.resolve_left Bool.false_ne_true
  · rintro ⟨rfl, h⟩
    cases n with
    | real x =>
      obtain ⟨m, hm, htext, hfractional⟩ := exists_numeral_real x
      cases y with
      | swift => exact .number hm htext trivial
      | kotlin => exact .number hm htext hfractional
      | dart => exact .number hm htext (.inl hfractional)
    | integer i =>
      obtain ⟨m, hm, htext, hplain, hwhole⟩ := exists_numeral_integer i
      cases y with
      | swift => exact .number hm htext trivial
      | dart =>
        refine .number hm htext (.inr ?_)
        rw [hwhole, Json.ofDigitChars_digitsOf]
        exact h i rfl
      | kotlin =>
        -- a point and a zero are written behind the digits
        have htext : (Kotlin.number (.integer i)).toList =
            chars ⟨decide (i < 0), Layout.digitsOf i.natAbs, some ['0'], none⟩ := by
          have hdigits := Json.Number.toList_text_integer i
          rw [Kotlin.number, if_pos (h i rfl), String.toList_append]
          change (Json.Number.integer i).text.toList ++ _ = _
          rw [hdigits]
          simp [chars]
        have hzero : ∀ ds ∈ some ['0'], ds ≠ [] ∧ Json.AllDigits ds := by
          rintro ds ⟨⟩
          exact ⟨by simp, .replicate_zero 1⟩
        exact .number ⟨⟨Json.digitsOf_ne_nil _, Json.allDigits_digitsOf _⟩, hzero, by simp⟩ htext rfl

/-! ## Colors and addresses -/

theorem isNumeral_hexDigits {c : Token.Color} (h : ∀ n ∈ [c.alpha, c.red, c.green, c.blue], n < 256) :
    IsNumeral ("0x" ++ c.hexDigits) := by
  have hall : ∀ n < 256, (Token.Color.channelDigits n).all isNumeralChar = true := by decide +kernel
  refine ⟨[], '0', 'x' :: c.hexDigits.toList, ?_, by simp, rfl, ?_⟩
  · rw [String.toList_append]
    rfl
  · refine List.forall_mem_cons.2 ⟨rfl, fun d hd => ?_⟩
    rw [Token.Color.hexDigits, String.toList_ofList] at hd
    obtain ⟨n, hn, hd⟩ := List.mem_flatMap.1 hd
    exact List.all_eq_true.1 (hall n (h n hn)) d hd

theorem spells_call {head : String} {ts : List Tree} (hhead : isWord head) (h : Spells text ts) :
    Spells (head ++ "(" ++ text ++ ")") [.word head, .group .round [ts]] := by
  have hcall := (Spells.word hhead).append h.enclosed (startsApart_append (startsApart_append rfl _) _)
  rwa [← String.append_assoc, ← String.append_assoc] at hcall

/-- A text behind the label of an argument. -/
theorem spells_labelled (s : String) {label : String} (h : isWord label) :
    Spells (label ++ ": " ++ Text.quotedDouble s) [.word label, .mark .colon, .text '"' s] :=
  (Spells.word h).joined joins_colon (.quotedDouble s)

/-- A color is made of its eight hexadecimal digits. -/
theorem hexColorLiteral?_inversion {s : String} (h : hexColorLiteral? s = some text) :
    ∃ digits, text = "Color" ++ "(" ++ digits ++ ")" ∧ IsNumeral digits := by
  unfold hexColorLiteral? at h
  split at h
  · next c hcolor =>
    cases h
    have hlt := Token.Color.channels_lt (Token.ofText_eq_color_iff.1 hcolor)
    refine ⟨"0x" ++ c.hexDigits, ?_, isNumeral_hexDigits hlt⟩
    simp only [← String.append_assoc]
    rfl
  · cases h

theorem exists_reads_hexColor (hy : y = .kotlin ∨ y = .dart) {s : String}
    (h : hexColorLiteral? s = some text) : ∃ source, y.Reads text (.made "Color" source) := by
  obtain ⟨digits, rfl, hdigits⟩ := hexColorLiteral?_inversion h
  refine ⟨digits, _, spells_call rfl (.number hdigits), ?_⟩
  rcases hy with rfl | rfl <;> rfl

theorem exists_reads_color (y : Dialect) {s : String} (h : y.language.color s = some text) :
    ∃ source, y.Reads text (.made "Color" source) := by
  cases y with
  | swift =>
    cases h
    have hcall : Spells ("Color" ++ "(" ++ ("hex" ++ ": " ++ Text.quotedDouble s) ++ ")")
        [.word "Color", .group .round [[.word "hex", .mark .colon, .text '"' s]]] :=
      spells_call rfl (spells_labelled s rfl)
    have htext : "Color" ++ "(" ++ ("hex" ++ ": " ++ Text.quotedDouble s) ++ ")" =
        "Color(hex: " ++ Text.quotedDouble s ++ ")" := by
      simp only [← String.append_assoc]
      rfl
    rw [htext] at hcall
    exact ⟨s, _, hcall, rfl⟩
  | kotlin =>
    dsimp only [language, Kotlin.language] at h
    exact exists_reads_hexColor (.inl rfl) h
  | dart =>
    dsimp only [language, Dart.language] at h
    exact exists_reads_hexColor (.inr rfl) h

/-- An address in Dart is parsed from a text. -/
theorem spells_parse (s : String) : Spells ("Uri.parse(" ++ Text.quotedSingle s ++ ")")
    [.word "Uri", .mark .dot, .word "parse", .group .round [[.text '\'' s]]] := by
  have hname : Spells "Uri.parse" [.word "Uri", .mark .dot, .word "parse"] := spells_of_trees? rfl
  have hcall := hname.append (Spells.quotedSingle s).enclosed
    (startsApart_append (startsApart_append rfl _) _)
  have htext : "Uri.parse" ++ ("(" ++ Text.quotedSingle s ++ ")") =
      "Uri.parse(" ++ Text.quotedSingle s ++ ")" := by
    simp only [← String.append_assoc]
    rfl
  rwa [htext] at hcall

/-- An address is of the type of addresses. -/
theorem exists_reads_url (y : Dialect) (s : String) :
    ∃ e : Literal, y.Reads (y.language.url s) e ∧ e.HasType y (y.language.custom .url) := by
  cases y with
  | swift =>
    have hcall : Spells ("URL" ++ "(" ++ ("string" ++ ": " ++ Text.quotedDouble s) ++ ")")
        [.word "URL", .group .round [[.word "string", .mark .colon, .text '"' s]]] :=
      spells_call rfl (spells_labelled s rfl)
    have hbang : Spells "!" [.mark .bang] := spells_of_trees? rfl
    have htext : "URL" ++ "(" ++ ("string" ++ ": " ++ Text.quotedDouble s) ++ ")" ++ "!" =
        "URL(string: " ++ Text.quotedDouble s ++ ")!" := by
      have hclose : ")!" = ")" ++ "!" := rfl
      simp only [hclose, ← String.append_assoc]
      rfl
    have hspells := hcall.append hbang rfl
    rw [htext] at hspells
    exact ⟨.made "URL" s, ⟨_, hspells, rfl⟩, .made "URL" s⟩
  | kotlin => exact ⟨_, reads_quoted .kotlin s, .text s⟩
  | dart =>
    exact ⟨.made "Uri" s, ⟨_, spells_parse s, rfl⟩, .made "Uri" s⟩

/-! ## Lists -/

theorem exists_readItems {texts : List String} {items : List Literal}
    (h : List.Forall₂ y.Reads texts items) : ∃ trees, List.Forall₂ Spells texts trees ∧
      y.readItems (partsOf trees) = some items := by
  refine exists_parts y.readTrees y.readItems rfl rfl (fun ts rest e es hts hrest => ?_) h
  rw [readItems, hts, hrest]
  · rfl
  · rintro rfl
    cases y <;> cases hts

theorem reads_list {texts : List String} {items : List Literal}
    (h : List.Forall₂ y.Reads texts items) : y.Reads (y.language.listLiteral texts) (.list items) := by
  obtain ⟨trees, htrees, hitems⟩ := exists_readItems h
  cases y with
  | swift | dart =>
    refine ⟨_, .square htrees, ?_⟩
    rw [readTrees, readTree, hitems]
    rfl
  | kotlin =>
    have hname : Spells "listOf" [.word "listOf"] := .word rfl
    have hcall := hname.append (.round htrees) (startsApart_append (startsApart_append rfl _) _)
    have htext : "listOf" ++ ("(" ++ Text.join ", " texts ++ ")") =
        "listOf(" ++ Text.join ", " texts ++ ")" := by
      simp only [← String.append_assoc]
      rfl
    refine ⟨_, htext ▸ hcall, ?_⟩
    change (readItems kotlin (partsOf trees)).bind (fun es => some (Literal.list es)) = _
    rw [hitems]
    rfl

end Dialect

end DesignSystem.Reading
