import DesignSystem.Proofs.Reading.Names
import DesignSystem.Proofs.Text.Quoted
import DesignSystem.Proofs.Types.LiteralReading

/-!
# Constant expressions of Dart

Texts, numbers, truth values and the cases of enumerations are constants. A list or the call of a
constant constructor is one behind the word `const`, or inside of such an expression, if all that
stands in it are constants.

* `isConstant`: whether a text is a constant expression, given the cases that are declared.
* `isConstant_iff`, `isConstant_const_iff`: it is told from the trees that the text stands for.
* `writes_quoted` and its companions: what generated literals stand for.
-/

set_option autoImplicit false

namespace DesignSystem.Reading

open Text.StringLanguage (bareChars bareChars_cons)

/-! ## Reading -/

/-- The constructors that may be called in a constant. -/
def constantConstructors : List String := ["Color"]

section
variable (hasCase : String → String → Bool)

mutual

/-- Whether a single tree is a constant. A list is one only inside of a constant expression. -/
def isConstantTree (inside : Bool) : Tree → Bool
  | .text _ _ => true
  | .number _ => true
  | .word w => w = "true" || w = "false"
  | .group .square parts => inside && areConstants parts
  | _ => false

/-- Whether trees are a constant expression, by themselves or inside of one. -/
def isConstantExpr (inside : Bool) : List Tree → Bool
  | [t] => isConstantTree inside t
  | [.word w, .group bracket parts] =>
    (w = "const" && bracket = .square ||
      inside && bracket = .round && constantConstructors.contains w) && areConstants parts
  | [.word w, .word head, .group .round parts] =>
    w = "const" && constantConstructors.contains head && areConstants parts
  | [.word name, .mark .dot, .word member] => hasCase name member
  | _ => false

/-- Whether all parts between two brackets are constant expressions, if there are any. -/
def areConstants : List (List Tree) → Bool
  | [] => true
  | [[]] => true
  | ts :: rest => isConstantExpr true ts && areConstants rest

end

/-- Whether a text is a constant expression. A dollar sign without a backslash would start an
interpolation. -/
def isConstant (text : String) : Bool :=
  match trees? text with
  | some ts => isConstantExpr hasCase false ts && !(bareChars text.toList).contains '$'
  | none => false

end

section
variable {hasCase : String → String → Bool} {inside : Bool} {parts : List (List Tree)}

theorem areConstants_partsOf_iff (h : ∀ ts ∈ parts, ts ≠ []) :
    areConstants hasCase (partsOf parts) = true ↔
      ∀ ts ∈ parts, isConstantExpr hasCase true ts = true := by
  have hall : ∀ {parts : List (List Tree)}, (∀ ts ∈ parts, ts ≠ []) →
      (areConstants hasCase parts = true ↔
        ∀ ts ∈ parts, isConstantExpr hasCase true ts = true) := by
    intro parts h
    induction parts with
    | nil => exact iff_of_true rfl (List.forall_mem_nil _)
    | cons ts rest ih =>
      obtain ⟨hts, hrest⟩ := List.forall_mem_cons.1 h
      rw [areConstants, Bool.and_eq_true, ih hrest, List.forall_mem_cons]
      rintro rfl
      exact absurd rfl hts
  cases parts with
  | nil => exact iff_of_true rfl (List.forall_mem_nil _)
  | cons ts rest => exact hall h

theorem isConstantExpr_list : isConstantExpr hasCase inside [.group .square parts] = true ↔
    inside = true ∧ areConstants hasCase parts = true := by
  rw [isConstantExpr, isConstantTree, Bool.and_eq_true]

theorem isConstantExpr_color (digits : String) : isConstantExpr hasCase inside
    [.word "Color", .group .round [[.number digits]]] = inside := by
  rw [isConstantExpr]
  cases inside <;> rfl

theorem isConstantExpr_truth (b : Bool) : isConstantExpr hasCase inside
    [.word (if b then "true" else "false")] = true := by
  rw [isConstantExpr]
  cases b <;> rfl

theorem isConstantExpr_const_list :
    isConstantExpr hasCase inside [.word "const", .group .square parts] =
      areConstants hasCase parts := by
  rw [isConstantExpr]
  rfl

end

/-! ## Dollar signs -/

/-- Whatever follows a text, all dollar signs in it have a backslash. -/
def Guards (text : String) : Prop :=
  ∀ rest, '$' ∈ bareChars (text.toList ++ rest) → '$' ∈ bareChars rest

section
variable {text text' : String}

theorem Guards.notMem (h : Guards text) : '$' ∉ bareChars text.toList := by
  intro hmem
  have hnil := h []
  rw [List.append_nil] at hnil
  cases hnil hmem

theorem Guards.append (h : Guards text) (h' : Guards text') : Guards (text ++ text') := by
  intro rest hmem
  rw [String.toList_append, List.append_assoc] at hmem
  exact h' rest (h _ hmem)

theorem guards_of_notMem (hbackslash : '\\' ∉ text.toList) (hdollar : '$' ∉ text.toList) :
    Guards text := by
  intro rest
  revert hbackslash hdollar
  induction text.toList with
  | nil => exact fun _ _ => id
  | cons c cs ih =>
    intro hbackslash hdollar
    rw [List.mem_cons, not_or] at hbackslash hdollar
    rw [List.cons_append, bareChars_cons (Ne.symm hbackslash.1), List.mem_cons,
      or_iff_right hdollar.1]
    exact ih hbackslash.2 hdollar.2

theorem guards_quoted (s : String) : Guards (Text.quotedSingle s) := by
  have hquote : Guards "'" := guards_of_notMem (by decide) (by decide)
  refine (hquote.append ?_).append hquote
  intro rest
  change '$' ∈ bareChars ((Text.StringLanguage.dart.escape s).toList ++ rest) → _
  rw [Text.StringLanguage.escape_eq, String.toList_ofList]
  induction s.toList with
  | nil => exact id
  | cons c cs ih =>
    rw [List.flatMap_cons, List.append_assoc]
    rcases Text.StringLanguage.dart.escapeChar_cases c with
      ⟨d, hescape, -⟩ | ⟨hescape, hplain, hguarded⟩
    · rw [hescape]
      exact ih
    · have hbackslash : c ≠ '\\' := by
        rintro rfl
        exact hplain (.head _)
      have hdollar : '$' ≠ c := by
        rintro rfl
        exact hguarded (.head _)
      rw [hescape, List.singleton_append, bareChars_cons hbackslash, List.mem_cons,
        or_iff_right hdollar]
      exact ih

theorem guards_join {texts : List String} (h : ∀ text ∈ texts, Guards text) :
    Guards (Text.join ", " texts) := by
  have hcomma : Guards ", " := guards_of_notMem (by decide) (by decide)
  induction texts with
  | nil => exact fun _ => id
  | cons text texts ih =>
    obtain ⟨htext, htexts⟩ := List.forall_mem_cons.1 h
    cases texts with
    | nil => exact htext
    | cons next texts =>
      rw [Text.join_cons_cons]
      exact (htext.append hcomma).append (ih htexts)

end

/-! ## What is written -/

/-- A text stands for trees, and interpolates nothing. -/
structure Writes (text : String) (ts : List Tree) : Prop where
  spells : Spells text ts
  guards : Guards text

section
variable {hasCase : String → String → Bool} {text : String} {ts : List Tree}

/-- What a text stands for tells whether it is a constant. -/
theorem isConstant_iff (h : Writes text ts) :
    isConstant hasCase text = true ↔ isConstantExpr hasCase false ts = true := by
  rw [isConstant, trees?_eq_iff.2 h.spells]
  dsimp only
  rw [Bool.and_eq_true, Bool.not_eq_true', List.contains_eq_mem, decide_eq_false_iff_not,
    and_iff_left h.guards.notMem]

/-- A list behind the word `const` is a constant just if its items are. -/
theorem isConstant_const_iff {parts : List (List Tree)} (h : Writes text [.group .square parts]) :
    isConstant hasCase s!"const {text}" = true ↔ areConstants hasCase parts = true := by
  have hword : Spells "const" [.word "const"] := .word rfl
  have hprefix : Guards ("const" ++ " ") := guards_of_notMem (by decide) (by decide)
  have hwrites : Writes ("const" ++ " " ++ text) [.word "const", .group .square parts] :=
    ⟨hword.joined joins_blank h.spells, hprefix.append h.guards⟩
  have htext : s!"const {text}" = "const" ++ " " ++ text := rfl
  rw [htext, isConstant_iff hwrites, isConstantExpr_const_list]

example : isConstant (fun _ _ => false) "const [1, 'a', Color(0xFF000000)]" = true ∧
    isConstant (fun _ _ => false) "Color(0xFF000000)" = false ∧
    isConstant (fun _ _ => false) "const [Uri.parse('a')]" = false ∧
    isConstant (fun _ _ => false) "'$a'" = false := by
  decide +kernel

theorem writes_quoted (s : String) : Writes (Text.quotedSingle s) [.text '\'' s] :=
  ⟨.quotedSingle s, guards_quoted s⟩

theorem guards_numeral {digits : String} (h : IsNumeral digits) : Guards digits := by
  obtain ⟨sign, c, cs, hdigits, hsign, hc, hcs⟩ := h
  have hplain : ∀ d, d = '\\' ∨ d = '$' → d ∉ digits.toList := by
    intro d hd hmem
    rw [hdigits] at hmem
    rcases List.mem_append.1 hmem with hmem | hmem
    · rcases List.mem_pair.1 hsign with rfl | rfl
      · cases hmem
      · rcases hd with rfl | rfl <;> exact absurd hmem (by decide)
    · rcases List.mem_cons.1 hmem with rfl | hmem
      · rcases hd with rfl | rfl <;> cases hc
      · rcases hd with rfl | rfl <;> cases hcs _ hmem
  exact guards_of_notMem (hplain _ (.inl rfl)) (hplain _ (.inr rfl))

theorem writes_number (n : Json.Number) : Writes n.text [.number n.text] :=
  ⟨.number (isNumeral_text n), guards_numeral (isNumeral_text n)⟩

theorem writes_truth (b : Bool) :
    Writes (if b then "true" else "false") [.word (if b then "true" else "false")] := by
  cases b with
  | false => exact ⟨.word rfl, guards_of_notMem (by decide) (by decide)⟩
  | true => exact ⟨.word rfl, guards_of_notMem (by decide) (by decide)⟩

/-- Words without a dollar sign. -/
theorem guards_word {name : String} (h : isWord name) (hdollar : '$' ∉ name.toList) :
    Guards name :=
  guards_of_notMem (fun hmem => Bool.false_ne_true (isWordChar_of_isWord h _ hmem)) hdollar

theorem writes_member {name member : String} (hname : isWord name) (hmember : isWord member)
    (hdollar : '$' ∉ name.toList) (hdollar' : '$' ∉ member.toList) :
    Writes (name ++ "." ++ member) [.word name, .mark .dot, .word member] :=
  ⟨.qualified hname hmember, ((guards_word hname hdollar).append
    (guards_of_notMem (by decide) (by decide))).append (guards_word hmember hdollar')⟩

/-- The call of the constructor of colors. -/
theorem writes_color {digits : String} (h : IsNumeral digits) :
    Writes ("Color" ++ "(" ++ digits ++ ")") [.word "Color", .group .round [[.number digits]]] :=
  ⟨Dialect.spells_call rfl (.number h), ((guards_of_notMem (by decide) (by decide)).append
    (guards_numeral h)).append (guards_of_notMem (by decide) (by decide))⟩

theorem writes_parse (s : String) : Writes ("Uri.parse(" ++ Text.quotedSingle s ++ ")")
    [.word "Uri", .mark .dot, .word "parse", .group .round [[.text '\'' s]]] :=
  ⟨Dialect.spells_parse s, ((guards_of_notMem (by decide) (by decide)).append
    (guards_quoted s)).append (guards_of_notMem (by decide) (by decide))⟩

theorem writes_list {texts : List String} {trees : List (List Tree)}
    (h : List.Forall₂ Writes texts trees) :
    Writes ("[" ++ Text.join ", " texts ++ "]") [.group .square (partsOf trees)] := by
  refine ⟨.square (h.imp fun _ _ hw => hw.spells),
    ((guards_of_notMem (by decide) (by decide)).append (guards_join fun text htext => ?_)).append (guards_of_notMem (by decide) (by decide))⟩
  obtain ⟨ts, -, hw⟩ := exists_of_forall₂ h.flip htext
  exact hw.guards

end

end DesignSystem.Reading
