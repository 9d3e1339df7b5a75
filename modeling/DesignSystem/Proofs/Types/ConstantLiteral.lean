import DesignSystem.Proofs.Component.Names
import DesignSystem.Proofs.Reading.Constant
import DesignSystem.Proofs.Types.CaseNames
import DesignSystem.Proofs.Types.LiteralType

/-!
# Literals that are constants

A literal in Dart is a list, possibly of lists, whose items are written by themselves, or is such an
item. Which constants it needs is told by these items.

* `atoms`: the values that are written by themselves.
* `Atom.IsConstant`: what is written for one is a constant.
* `exists_form`: a literal is a constant just if all atoms are.
* `atom_written`: the types of the atoms are declared for the whole.
* `Atom.IsCase.declaresCase`: so their cases are, if no declaration is replaced.
-/

set_option autoImplicit false

namespace DesignSystem

open Reading
open NominalLanguage (itemHint optionHint)

/-! ## Values that are written by themselves -/

/-- A value that is written by itself: what it is written for, the name for its type, and whether it
is an item of a list. -/
structure Atom where
  descriptor : TypeDescriptor
  value : Json.Value
  hint : String
  inList : Bool

mutual

/-- The values that a literal is written from. -/
def atoms (inList : Bool) : TypeDescriptor → Json.Value → String → List Atom
  | .union types, v, hint => atomsOfFirst inList types v hint
  | .array items low high unique, v, hint =>
    match v with
    | .array elements => elements.flatMap fun e => atoms true items e (itemHint hint)
    | v => [⟨.array items low high unique, v, hint, inList⟩]
  | .primitive kind values, v, hint => [⟨.primitive kind values, v, hint, inList⟩]
  | .complex kind, v, hint => [⟨.complex kind, v, hint, inList⟩]
  | .signed kind params returns, v, hint => [⟨.signed kind params returns, v, hint, inList⟩]
  | .custom kind values, v, hint => [⟨.custom kind values, v, hint, inList⟩]
  | .object properties strict, v, hint => [⟨.object properties strict, v, hint, inList⟩]

/-- The values that a literal of the first alternative is written from. -/
def atomsOfFirst (inList : Bool) : List TypeDescriptor → Json.Value → String → List Atom
  | [], _, _ => []
  | d :: _, v, hint => atoms inList d v (optionHint hint 0)

end

/-- Neither a union nor a list. -/
def IsWhole : TypeDescriptor → Json.Value → Prop
  | .union _, _ | .array _ _ _ _, .array _ => False
  | _, _ => True

/-- A value of such a type is written by itself. -/
theorem atoms_of_isWhole {d : TypeDescriptor} {v : Json.Value} (h : IsWhole d v) (inList : Bool)
    (hint : String) : atoms inList d v hint = [⟨d, v, hint, inList⟩] := by
  cases d with
  | union => cases h
  | array =>
    cases v with
    | array => cases h
    | null | bool | number | string | object => rw [atoms]; nofun
  | primitive | complex | signed | custom | object => rw [atoms]

theorem eq_of_mem_atoms {a : Atom} {inList : Bool} {d : TypeDescriptor} {v : Json.Value}
    {hint : String} (ha : a ∈ atoms inList d v hint) (h : IsWhole d v) :
    a = ⟨d, v, hint, inList⟩ :=
  List.mem_singleton.1 (atoms_of_isWhole h inList hint ▸ ha)

namespace Atom

/-- The value is a text that a call makes a value of a domain type from. -/
def IsMade (a : Atom) (kind : CustomType) : Prop :=
  a.descriptor = .custom kind none ∧ ∃ s, a.value = .string s

/-- The value is written as a case of an enumeration. -/
def IsCase (a : Atom) : Prop :=
  a.descriptor.enumeratedValues?.isSome ∧ isTruthValue a.value = false

theorem not_isCase {a : Atom} (h : a.descriptor.enumeratedValues? = none) : ¬ a.IsCase := by
  rintro ⟨hsome, -⟩
  rw [h] at hsome
  cases hsome

/-- What is written for the value is a constant. -/
structure IsConstant (hasCase : String → String → Bool) (a : Atom) : Prop where
  /-- Addresses are parsed. -/
  address : ¬ a.IsMade .url
  /-- The word `const` stands before lists only. -/
  color : a.IsMade .color → a.inList = true
  case : a.IsCase → hasCase a.hint (Dart.ident (caseIdent a.value)) = true

end Atom

/-- How a literal stands in source: as a list, or as what is written for one value. -/
inductive LiteralForm (hasCase : String → String → Bool) (d : TypeDescriptor) (v : Json.Value)
    (hint text : String) : List Tree → Prop
  | list {parts : List (List Tree)} (starts : Text.startsWith "[" text = true)
      (constant : ∀ inList, areConstants hasCase parts = true ↔
        ∀ a ∈ atoms inList d v hint, a.IsConstant hasCase) :
      LiteralForm hasCase d v hint text [.group .square parts]
  | atom {ts : List Tree} {inner : TypeDescriptor} {innerHint : String} (ne_nil : ts ≠ [])
      (starts : Text.startsWith "[" text = false)
      (only : ∀ inList, atoms inList d v hint = [⟨inner, v, innerHint, inList⟩])
      (address : Text.startsWith "Uri.parse(" text = true ↔
        inner = .custom .url none ∧ ∃ s, v = .string s)
      (constant : ∀ inList, isConstantExpr hasCase inList ts = true ↔
        Atom.IsConstant hasCase ⟨inner, v, innerHint, inList⟩) :
      LiteralForm hasCase d v hint text ts

section
variable {hasCase : String → String → Bool} {d : TypeDescriptor} {v : Json.Value}
  {hint text : String} {ts : List Tree}

/-- Inside of a list, a literal is a constant just if all values are that it is written from. -/
theorem LiteralForm.constant_inList (h : LiteralForm hasCase d v hint text ts) : ts ≠ [] ∧
    (isConstantExpr hasCase true ts = true ↔
      ∀ a ∈ atoms true d v hint, a.IsConstant hasCase) := by
  cases h with
  | list _ hconstant =>
    exact ⟨List.cons_ne_nil _ _, isConstantExpr_list.trans
      ((and_iff_right rfl).trans (hconstant true))⟩
  | atom hne _ honly _ hconstant =>
    rw [honly true, List.forall_mem_singleton]
    exact ⟨hne, hconstant true⟩

/-! ## How literals start -/

/-- A text stands for trees, and starts neither a list nor the call that parses an address. -/
structure WritesPlain (text : String) (ts : List Tree) : Prop extends Writes text ts where
  ne_nil : ts ≠ []
  list : Text.startsWith "[" text = false
  parse : Text.startsWith "Uri.parse(" text = false

theorem WritesPlain.of_head? (h : Writes text ts) (hne : ts ≠ [])
    (hlist : text.toList.head? ≠ some '[') (hcall : text.toList.head? ≠ some 'U') :
    WritesPlain text ts :=
  ⟨h, hne, Text.startsWith_of_head?_ne rfl hlist, Text.startsWith_of_head?_ne rfl hcall⟩

variable (hasCase) in
/-- What a text, a number or a truth value is written as is a constant. -/
theorem exists_writesPlain_scalar (h : Dart.language.scalarLiteral? v = some text) :
    ∃ ts, WritesPlain text ts ∧ ∀ inList, isConstantExpr hasCase inList ts = true := by
  cases v with
  | string s =>
    cases h
    have hhead : (Dart.language.quoted s).toList.head? = some '\'' := by
      change ("'" ++ Text.escapeSingle s ++ "'").toList.head? = _
      simp
    refine ⟨_, .of_head? (writes_quoted s) (List.cons_ne_nil _ _) ?_ ?_, fun _ => rfl⟩ <;>
      · rw [hhead]
        decide
  | number n =>
    cases h
    obtain ⟨sign, c, cs, hdigits, hsign, hc, -⟩ := isNumeral_text n
    have hhead : ∀ e, e.isDigit = false → e ≠ '-' → n.text.toList.head? ≠ some e := by
      intro e hdigit hminus heq
      rw [hdigits] at heq
      rcases List.mem_pair.1 hsign with rfl | rfl
      · cases heq
        exact Bool.false_ne_true (hdigit.symm.trans hc)
      · cases heq
        exact hminus rfl
    exact ⟨_, .of_head? (writes_number n) (List.cons_ne_nil _ _) (hhead '[' rfl (by decide))
      (hhead 'U' rfl (by decide)), fun _ => rfl⟩
  | bool b =>
    cases h
    refine ⟨_, .of_head? (writes_truth b) (List.cons_ne_nil _ _) ?_ ?_,
      fun _ => isConstantExpr_truth b⟩ <;> cases b <;> decide
  | null | array | object => cases h

/-- What is written for a value that no call is made for. -/
theorem WritesPlain.literalForm (h : WritesPlain text ts)
    (hwhole : IsWhole d v)
    (hmade : ∀ kind ∈ [CustomType.url, .color], ¬ (d = .custom kind none ∧ ∃ s, v = .string s))
    (hconstant : ∀ inList, isConstantExpr hasCase inList ts = true ↔
      ((Atom.mk d v hint inList).IsCase → hasCase hint (Dart.ident (caseIdent v)) = true)) :
    LiteralForm hasCase d v hint text ts := by
  have hurl := hmade .url (by decide)
  refine .atom h.ne_nil h.list (atoms_of_isWhole hwhole · hint) ?_ fun inList => (hconstant inList).trans
    ⟨fun hcase => ⟨hurl, fun hcolor => absurd hcolor (hmade .color (by decide)), hcase⟩,
      fun hatom => hatom.case⟩
  rw [h.parse]
  exact iff_of_false Bool.false_ne_true hurl

/-- Values that are not enumerated. -/
theorem exists_form_scalar (hwhole : IsWhole d v) (hd : d.enumeratedValues? = none)
    (hmade : ∀ kind ∈ [CustomType.url, .color], ¬ (d = .custom kind none ∧ ∃ s, v = .string s))
    (h : Dart.language.scalarLiteral? v = some text) :
    ∃ ts, Writes text ts ∧ LiteralForm hasCase d v hint text ts := by
  obtain ⟨ts, hplain, hconstant⟩ := exists_writesPlain_scalar hasCase h
  exact ⟨ts, hplain.toWrites, hplain.literalForm hwhole hmade fun inList =>
    iff_of_true (hconstant inList) fun hcase => absurd hcase (Atom.not_isCase hd)⟩

/-! ## Cases of enumerations -/

/-- A word without marks. -/
structure IsPlainWord (name : String) : Prop where
  word : isWord name = true
  marks : ∀ c ∈ ['$', '('], c ∉ name.toList

/-- A text of the characters of identifiers that starts with no digit. -/
theorem isPlainWord_of_isIdentifier {name : String} (h : Text.IsIdentifier name)
    (hhead : name.toList.head?.map Char.isDigit = some false) : IsPlainWord name := by
  have hchar : ∀ c ∈ name.toList, isWordChar c = true ∧ c ∉ ['$', '('] := fun c hc =>
    Text.of_ascii (P := fun c => Text.isPlainAlphanumeric c ∨ c = '_' →
      isWordChar c = true ∧ c ∉ ['$', '(']) (by decide +kernel) (h.printable c hc).lt (h c hc)
  refine ⟨?_, fun c hc hmem => (hchar c hmem).2 hc⟩
  unfold isWord
  revert hhead hchar
  cases name.toList with
  | nil => exact nofun
  | cons c cs =>
    intro hhead hchar
    rw [List.head?_cons, Option.map_some, Option.some_inj] at hhead
    rw [Bool.and_eq_true, hhead, List.all_eq_true]
    exact ⟨rfl, fun d hd => (hchar d hd).1⟩

theorem isPlainWord_hint (h : isIdentifier hint) : IsPlainWord hint := by
  obtain ⟨c, cs, hhint, hfirst, -⟩ := isIdentifier_iff.1 h
  have hchars := isIdentifier_chars h
  have hc : c ∈ hint.toList := hhint ▸ List.mem_cons_self
  refine isPlainWord_of_isIdentifier hchars ?_
  rw [hhint, List.head?_cons, Option.map_some, Option.some_inj]
  exact Text.of_ascii (P := fun c => c.isAlpha ∨ c = '_' → c.isDigit = false) (by decide +kernel)
    (hchars.printable c hc).lt hfirst

/-- The name of a case is a word. -/
theorem isPlainWord_case (v : Json.Value) : IsPlainWord (Dart.ident (caseIdent v)) := by
  have hchars := isIdentifier_caseIdent v
  have hhead : (caseIdent v).toList.head?.map Char.isDigit = some false := by
    rw [toList_caseIdent]
    unfold mended
    split
    · rfl
    · split
      · rfl
      · next h => simpa using h
  unfold Dart.ident
  split
  · refine isPlainWord_of_isIdentifier (fun c hc => ?_) ?_
    · rw [Dart.escapeReserved, String.toList_append, List.mem_append] at hc
      rcases hc with hc | hc
      · exact hchars c hc
      · exact .inr (List.mem_singleton.1 hc)
    · rw [Dart.escapeReserved, String.toList_append]
      revert hhead
      cases (caseIdent v).toList with
      | nil => exact nofun
      | cons c cs => exact id
  · exact isPlainWord_of_isIdentifier hchars hhead

theorem writesPlain_case (hhint : isIdentifier hint) (v : Json.Value) :
    WritesPlain (hint ++ "." ++ Dart.ident (caseIdent v))
      [.word hint, .mark .dot, .word (Dart.ident (caseIdent v))] := by
  have hname := isPlainWord_hint hhint
  have hcase := isPlainWord_case v
  refine ⟨writes_member hname.word hcase.word (hname.marks '$' (by decide))
    (hcase.marks '$' (by decide)), List.cons_ne_nil _ _, ?_, ?_⟩
  · obtain ⟨c, cs, hchars, -, hall⟩ := exists_of_isWord hname.word
    refine Text.startsWith_of_head?_ne rfl ?_
    rw [String.toList_append, String.toList_append, hchars]
    rintro ⟨⟩
    exact Bool.false_ne_true (hall '[' List.mem_cons_self)
  · refine Text.startsWith_of_notMem (c := '(') (by decide) ?_
    simp only [String.toList_append, List.mem_append, not_or]
    exact ⟨⟨hname.marks '(' (by decide), by decide⟩, hcase.marks '(' (by decide)⟩

/-- Enumerated values. -/
theorem exists_form_enumerated {values : List Json.Value}
    (hwhole : IsWhole d v) (hd : d.enumeratedValues? = some values) (hhint : isIdentifier hint)
    (h : Dart.language.enumeratedLiteral? values v hint = some text) :
    ∃ ts, Writes text ts ∧ LiteralForm hasCase d v hint text ts := by
  have hmade : ∀ kind ∈ [CustomType.url, .color],
      ¬ (d = .custom kind none ∧ ∃ s, v = .string s) := by
    rintro kind hkind ⟨rfl, -⟩
    rcases List.mem_pair.1 hkind with rfl | rfl <;> cases hd
  have hcase : ∀ inList, (Atom.mk d v hint inList).IsCase ↔ isTruthValue v = false := fun inList =>
    and_iff_right (by rw [hd]; rfl)
  simp only [NominalLanguage.enumeratedLiteral?, Option.ite_none_right_eq_some] at h
  obtain ⟨-, h⟩ := h
  cases htruth : isTruthValue v with
  | true =>
    obtain ⟨b, rfl⟩ := isTruthValue_iff.1 htruth
    obtain ⟨ts, hplain, hconstant⟩ := exists_writesPlain_scalar hasCase (v := .bool b) h
    refine ⟨ts, hplain.toWrites, hplain.literalForm hwhole hmade fun inList => ?_⟩
    rw [hcase, htruth]
    exact iff_of_true (hconstant inList) nofun
  | false =>
    have htext : text = hint ++ "." ++ Dart.ident (caseIdent v) := by
      cases v with
      | bool b => cases htruth
      | null | number | string | array | object => exact (Option.some.inj h).symm
    have hplain := writesPlain_case hhint v
    refine ⟨_, htext ▸ hplain.toWrites, htext ▸ hplain.literalForm hwhole hmade fun inList => ?_⟩
    rw [hcase, htruth]
    exact ⟨fun hmember _ => hmember, fun hmember => hmember rfl⟩

/-! ## All literals -/

/-- Values of domain types that are not enumerated. -/
theorem exists_form_custom {kind : CustomType} {values : Option (List String)}
    (hd : (TypeDescriptor.custom kind values).enumeratedValues? = none)
    (h : Dart.language.literal? (.custom kind values) v hint = some text) :
    ∃ ts, Writes text ts ∧ LiteralForm hasCase (.custom kind values) v hint text ts := by
  have hatoms := (atoms_of_isWhole (d := .custom kind values) (v := v) trivial · hint)
  have henum : (TypeDescriptor.custom kind values).enumerated? = none := Option.map_eq_none_iff.1 hd
  obtain rfl : values = none := by
    cases values with
    | none => rfl
    | some found => cases henum
  unfold NominalLanguage.literal? at h
  split at h
  · next hvalues =>
    rw [enumerationValues, henum] at hvalues
    dsimp only at hvalues
    split at hvalues <;> cases hvalues
  · split at h
    · next s _ =>
      dsimp only [Dart.language] at h
      obtain ⟨digits, rfl, hdigits⟩ := Dialect.hexColorLiteral?_inversion h
      have hhead : ("Color" ++ "(" ++ digits ++ ")").toList.head? = some 'C' := by simp
      have haddress : ¬ (TypeDescriptor.custom .color none = .custom .url none ∧
          ∃ t, Json.Value.string s = .string t) := by
        rintro ⟨⟨⟩, -⟩
      refine ⟨_, writes_color hdigits, .atom (List.cons_ne_nil _ _)
        (Text.startsWith_of_head?_ne rfl (by rw [hhead]; decide)) hatoms
        (iff_of_false ?_ haddress) fun inList => ?_⟩
      · rw [Text.startsWith_of_head?_ne (c := 'U') rfl (by rw [hhead]; decide)]
        exact Bool.false_ne_true
      · rw [isConstantExpr_color]
        exact ⟨fun hlist => ⟨haddress, fun _ => hlist, fun hcase => absurd hcase (Atom.not_isCase hd)⟩,
          fun hatom => hatom.color ⟨rfl, s, rfl⟩⟩
    · next s _ =>
      cases h
      have htext : Dart.language.url s = "Uri.parse(" ++ (Text.quotedSingle s ++ ")") :=
        String.append_assoc
      have hhead : (Dart.language.url s).toList.head? = some 'U' := by
        rw [htext]
        simp
      refine ⟨_, writes_parse s, .atom (List.cons_ne_nil _ _)
        (Text.startsWith_of_head?_ne rfl (by rw [hhead]; decide)) hatoms
        (iff_of_true ?_ ⟨rfl, s, rfl⟩) fun inList =>
          iff_of_false Bool.false_ne_true fun hatom => hatom.address ⟨rfl, s, rfl⟩⟩
      rw [htext]
      exact Text.startsWith_append _ _
    · next hcolor hurl =>
      refine exists_form_scalar trivial hd ?_ h
      rintro kind hkind ⟨heq, s, rfl⟩
      cases heq
      rcases List.mem_pair.1 hkind with rfl | rfl
      · exact hurl s rfl rfl
      · exact hcolor s rfl rfl

theorem isIdentifier_itemHint (h : isIdentifier hint) : isIdentifier (itemHint hint) :=
  isIdentifier_append h
    (NominalLanguage.IsExtension.isPlain (d := .complex .node) (.inr (.inl rfl))
      (List.forall_mem_nil _))

theorem isIdentifier_optionHint (h : isIdentifier hint) (index : Nat) :
    isIdentifier (optionHint hint index) := by
  rw [optionHint, String.append_assoc]
  exact isIdentifier_append h (NominalLanguage.IsExtension.isPlain (d := .complex .node)
    (.inr (.inr (.inr ⟨index, rfl⟩))) (List.forall_mem_nil _))

/-- The items of a list are constants just if all values are that they are written from. -/
theorem exists_form_items {items : TypeDescriptor} {elements : List Json.Value}
    {texts : List String}
    (hitem : ∀ {v text}, Dart.language.literal? items v (itemHint hint) = some text →
      ∃ ts, Writes text ts ∧ LiteralForm hasCase items v (itemHint hint) text ts)
    (h : elements.mapM (fun v => Dart.language.literal? items v (itemHint hint)) = some texts) :
    ∃ trees, List.Forall₂ Writes texts trees ∧ (areConstants hasCase (partsOf trees) = true ↔
      ∀ a ∈ elements.flatMap fun e => atoms true items e (itemHint hint),
        a.IsConstant hasCase) := by
  have htrees : ∃ trees, List.Forall₂ Writes texts trees ∧ (∀ ts ∈ trees, ts ≠ []) ∧
      ((∀ ts ∈ trees, isConstantExpr hasCase true ts = true) ↔
        ∀ a ∈ elements.flatMap fun e => atoms true items e (itemHint hint),
          a.IsConstant hasCase) := by
    have hall := forall₂_of_mapM_eq_some h
    clear h
    induction hall with
    | nil => exact ⟨[], .nil, List.forall_mem_nil _, by simp⟩
    | cons hfirst _ ih =>
      obtain ⟨ts, hwrites, hform⟩ := hitem hfirst
      obtain ⟨trees, hrest, hne, hconstant⟩ := ih
      obtain ⟨hts, hfirst⟩ := hform.constant_inList
      refine ⟨ts :: trees, .cons hwrites hrest, List.forall_mem_cons.2 ⟨hts, hne⟩, ?_⟩
      rw [List.forall_mem_cons, hfirst, hconstant, List.flatMap_cons, List.forall_mem_append]
  obtain ⟨trees, hwrites, hne, hconstant⟩ := htrees
  exact ⟨trees, hwrites, (areConstants_partsOf_iff hne).trans hconstant⟩

variable (hasCase) in
/-- **A literal in Dart is a list or what is written for one value, and a constant just if all
values are that it is written from.** -/
theorem exists_form {type : String} (hhint : isIdentifier hint)
    (hmap : (Dart.language.map d hint).result = .ok type)
    (h : Dart.language.literal? d v hint = some text) :
    ∃ ts, Writes text ts ∧ LiteralForm hasCase d v hint text ts := by
  induction d using TypeDescriptor.induct generalizing v hint type text with
  | primitive kind values =>
    cases values with
    | none => exact exists_form_scalar trivial rfl (by rintro kind - ⟨⟨⟩, -⟩) h
    | some values =>
      rw [NominalLanguage.literal?_enumeration hint rfl
        (NominalLanguage.ne_nil_of_map rfl hmap)] at h
      exact exists_form_enumerated trivial rfl hhint h
  | complex kind =>
    exact exists_form_scalar trivial rfl (by rintro kind - ⟨⟨⟩, -⟩) h
  | signed kind params returns =>
    exact exists_form_scalar trivial rfl (by rintro kind - ⟨⟨⟩, -⟩) h
  | custom kind values =>
    cases hvalues : (TypeDescriptor.custom kind values).enumeratedValues? with
    | none => exact exists_form_custom hvalues h
    | some found =>
      rw [NominalLanguage.literal?_enumeration hint hvalues
        (NominalLanguage.ne_nil_of_map hvalues hmap)] at h
      exact exists_form_enumerated trivial hvalues hhint h
  | union types ih =>
    obtain ⟨first, rest, rfl, hfirst, hliteral, -⟩ := Dialect.exists_common (y := .dart) h hmap
    obtain ⟨ts, hwrites, hform⟩ := ih first List.mem_cons_self
      (isIdentifier_optionHint hhint 0) hfirst hliteral
    refine ⟨ts, hwrites, ?_⟩
    -- the atoms of a union are those of the alternative that the value is written for
    cases hform with
    | list hstarts hconstant => exact .list hstarts hconstant
    | atom hne hstarts honly haddress hconstant => exact .atom hne hstarts honly haddress hconstant
  | array items low high unique ih =>
    obtain ⟨item, -, hitem⟩ := Dialect.map_array (y := .dart) hmap
    cases v with
    | array elements =>
      obtain ⟨texts, htexts, rfl⟩ := Option.map_eq_some_iff.1 h
      obtain ⟨trees, hwrites, hconstant⟩ := exists_form_items
        (fun hliteral => ih (isIdentifier_itemHint hhint) hitem hliteral) htexts
      refine ⟨_, writes_list hwrites, .list ?_ fun _ => hconstant⟩
      change Text.startsWith "[" ("[" ++ Text.join ", " texts ++ "]") = true
      rw [String.append_assoc]
      exact Text.startsWith_append _ _
    | null | bool | number | string | object =>
      exact exists_form_scalar trivial rfl (by rintro kind - ⟨⟨⟩, -⟩) h
  | object properties strict =>
    exact exists_form_scalar trivial rfl (by rintro kind - ⟨⟨⟩, -⟩) h

/-! ## Declared cases -/

/-- A type under a name is declared to be an enumeration with a case of a name. -/
def TypeScope.declaresCase (y : Dialect) (s : TypeScope) (name case : String) : Bool :=
  match (Entries.get? name s).bind (y.readEnumeration name) with
  | some e => e.cases.any (·.name = case)
  | none => false

/-- A value has a type and a literal by itself, and the type needs none but some declarations. -/
structure Atom.IsWritten (a : Atom) (declared : List Declaration) : Prop where
  type : ∃ type, (Dart.language.map a.descriptor a.hint).result = .ok type
  literal : ∃ text, Dart.language.literal? a.descriptor a.value a.hint = some text
  needed : (Dart.language.map a.descriptor a.hint).declared ⊆ declared

theorem Atom.IsWritten.bind {a : Atom} {α β : Type} {m : Mapping α} (h : a.IsWritten m.declared)
    (f : α → Mapping β) : a.IsWritten (m >>= f).declared := by
  refine ⟨h.type, h.literal, fun d hd => ?_⟩
  rcases Mapping.declared_bind m f with hbind | ⟨b, hbind⟩
  · exact hbind ▸ h.needed hd
  · exact hbind ▸ List.mem_append_left _ (h.needed hd)

/-- The values that a literal is written from need what the whole does. -/
theorem atom_written {a : Atom} {inList : Bool} {type : String}
    (hmap : (Dart.language.map d hint).result = .ok type)
    (h : Dart.language.literal? d v hint = some text) (ha : a ∈ atoms inList d v hint) :
    a.IsWritten (Dart.language.map d hint).declared := by
  induction d using TypeDescriptor.induct generalizing v hint type text inList with
  | primitive | complex | signed | custom | object =>
    obtain rfl := eq_of_mem_atoms ha trivial
    exact ⟨⟨_, hmap⟩, ⟨_, h⟩, List.Subset.refl _⟩
  | union types ih =>
    obtain ⟨first, rest, rfl, hfirst, hliteral, -⟩ := Dialect.exists_common (y := .dart) h hmap
    have hwritten := ih first List.mem_cons_self hfirst hliteral ha
    rw [NominalLanguage.map, List.isEmpty_cons, if_neg Bool.false_ne_true,
      NominalLanguage.mapAlternatives]
    exact (hwritten.bind _).bind _
  | array items low high unique ih =>
    obtain ⟨item, -, hitem⟩ := Dialect.map_array (y := .dart) hmap
    cases v with
    | array elements =>
      obtain ⟨texts, htexts, -⟩ := Option.map_eq_some_iff.1 h
      obtain ⟨e, he, ha⟩ := List.mem_flatMap.1 ha
      obtain ⟨text, -, hliteral⟩ := exists_of_forall₂ (forall₂_of_mapM_eq_some htexts).flip he
      have hwritten := ih hitem hliteral ha
      rw [NominalLanguage.map]
      exact hwritten.bind _
    | null | bool | number | string | object =>
      obtain rfl := eq_of_mem_atoms ha trivial
      exact ⟨⟨_, hmap⟩, ⟨_, h⟩, List.Subset.refl _⟩

end

/-- What equals a scalar is one. -/
theorem Json.Value.IsScalar.of_same {v w : Json.Value} (hv : v.IsScalar) (h : w.same v = true) :
    w.IsScalar := by
  cases w with
  | null | bool | number | string => trivial
  | array | object =>
    cases v with
    | array | object => exact hv
    | null | bool | number | string => cases h

/-- A scalar has its case in the enumeration that is declared for its type, if that is kept. -/
theorem Atom.IsCase.declaresCase {a : Atom} {s : TypeScope} {declared : List Declaration}
    (h : a.IsCase) (hscalar : a.value.IsScalar) (hwritten : a.IsWritten declared)
    (hkept : ∀ d ∈ declared, Entries.get? d.name s = some d.source) :
    s.declaresCase .dart a.hint (Dart.ident (caseIdent a.value)) = true := by
  obtain ⟨type, hmap⟩ := hwritten.type
  obtain ⟨text, hliteral⟩ := hwritten.literal
  obtain ⟨hvalues, htruth⟩ := h
  obtain ⟨values, hvalues⟩ := Option.isSome_iff_exists.1 hvalues
  have hne := NominalLanguage.ne_nil_of_map hvalues hmap
  rw [NominalLanguage.literal?_enumeration _ hvalues hne] at hliteral
  simp only [NominalLanguage.enumeratedLiteral?, Option.ite_none_right_eq_some] at hliteral
  obtain ⟨w, hw, hsame⟩ := List.any_eq_true.1 hliteral.1
  obtain ⟨hident, heq⟩ := (hscalar.of_same hsame).same hsame
  -- a value that is no truth value is listed, so that the type is an enumeration with cases
  have hsome : values.all isTruthValue = false := by
    refine List.all_eq_false.2 ⟨w, hw, ?_⟩
    rw [Bool.not_eq_true]
    rcases heq with rfl | ⟨m, n, rfl, -⟩
    · exact htruth
    · rfl
  have hdeclared : Entries.get? a.hint s = some (Dart.enumeration a.hint values) := by
    refine hkept ⟨a.hint, Dart.enumeration a.hint values⟩ (hwritten.needed ?_)
    rw [NominalLanguage.map_enumeration hvalues hne, NominalLanguage.enumerationType, hsome]
    exact List.mem_singleton.2 rfl
  have hread := Dialect.readEnumeration_enumeration .dart a.hint hne
  change Dialect.readEnumeration .dart a.hint (Dart.enumeration a.hint values) = _ at hread
  rw [TypeScope.declaresCase, hdeclared, Option.bind_some, hread]
  refine List.any_eq_true.2 ⟨_, List.mem_map_of_mem hw, decide_eq_true ?_⟩
  exact congrArg Dart.ident hident

end DesignSystem
