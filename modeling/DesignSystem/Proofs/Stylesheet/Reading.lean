import DesignSystem.Proofs.Reading.Names
import DesignSystem.Stylesheet.Component

/-!
# Reading stylesheets

How a browser reads the selector of a single class and the declaration of a custom property. A name
may hold escapes. A value goes on to the next semicolon outside of texts, comments, addresses and
brackets.

* `class?`, `class?_self_iff`: the names that are read as they are written.
* `readName_customProperty`: names that are written with escapes.
* `declaration?`, `declaration?_iff`: the values that are read as they are written.
-/

set_option autoImplicit false

namespace DesignSystem.Stylesheet

/-! ## Classes -/

/-- What a character is read as that cannot stand for itself. -/
def replacement : Char := '\uFFFD'

/-- What a character is read as that stands for itself. -/
def given (c : Char) : Char := if c = '\x00' then replacement else c

def isNewline (c : Char) : Bool := c == '\n' || c == '\r' || c == '\x0c'

def isSpace (c : Char) : Bool := isNewline c || c == ' ' || c == '\t'

def isHexDigit (c : Char) : Bool := c.isDigit || 'a' ≤ c.toLower && c.toLower ≤ 'f'

def hexValue (c : Char) : Nat := if c.isDigit then c.toNat - 48 else c.toLower.toNat - 87

/-- The character of a number. -/
def codeChar (n : Nat) : Char := if n.isValidChar ∧ n ≠ 0 then .ofNat n else replacement

/-- What the reader of a name is inside of: nothing, an escape, a number with the digits that may
still follow, or the end of a line behind a number. -/
inductive NameState
  | between
  | escape
  | code (n left : Nat)
  | lineEnd

/-- Reads a character outside of escapes, and then the others. -/
def nameStep (c : Char) (others : NameState → Option (List Char)) : Option (List Char) :=
  if c = '\\' then others .escape
  else if c = '\x00' || isNameChar c then (others .between).map (given c :: ·)
  else none

/-- Reads a character behind a number, of which one space is a part, and then the others. -/
def codeStep (c : Char) (others : NameState → Option (List Char)) : Option (List Char) :=
  if c = '\r' then others .lineEnd
  else if isSpace c then others .between
  else nameStep c others

/-- Reads a name, to the end of the text. -/
def readName : NameState → List Char → Option (List Char)
  | .between, [] | .lineEnd, [] => some []
  | .escape, [] => some [replacement]
  | .code n _, [] => some [codeChar n]
  | .between, c :: cs => nameStep c fun s => readName s cs
  | .lineEnd, c :: cs =>
    if c = '\n' then readName .between cs else nameStep c fun s => readName s cs
  | .escape, c :: cs =>
    if isNewline c then none
    else if isHexDigit c then readName (.code (hexValue c) 5) cs
    else (readName .between cs).map (given c :: ·)
  | .code n left, c :: cs =>
    if 0 < left && isHexDigit c then readName (.code (16 * n + hexValue c) (left - 1)) cs
    else (codeStep c fun s => readName s cs).map (codeChar n :: ·)

/-- Whether a name may start with a character. -/
def isNameStart (c : Char) : Bool := c.isAlpha || c == '_' || 128 ≤ c.toNat || c == '\x00'

/-- Whether a backslash before these characters starts an escape. -/
def startsEscape (cs : List Char) : Bool := !cs.head?.any isNewline

/-- Whether a text starts with a name. -/
def startsName : List Char → Bool
  | '-' :: '-' :: _ => true
  | '-' :: '\\' :: cs | '\\' :: cs => startsEscape cs
  | '-' :: c :: _ => isNameStart c
  | c :: _ => isNameStart c
  | [] => false

/-- The class that a selector is for, if it is for just one. -/
def class? (selector : String) : Option String :=
  match selector.toList with
  | '.' :: cs => if startsName cs then (readName .between cs).map .ofList else none
  | _ => none

theorem isNameChar_special : ¬ isNameChar '\\' ∧ ¬ isNameChar '\x00' := by decide

theorem nameStep_of_isNameChar {c : Char} (h : isNameChar c)
    (others : NameState → Option (List Char)) :
    nameStep c others = (others .between).map (c :: ·) := by
  have hbackslash : c ≠ '\\' := fun heq => isNameChar_special.1 (heq ▸ h)
  have hnull : c ≠ '\x00' := fun heq => isNameChar_special.2 (heq ▸ h)
  rw [nameStep, if_neg hbackslash, if_pos (by rw [h, Bool.or_true]), given, if_neg hnull]

theorem readName_append {cs : List Char} (h : ∀ c ∈ cs, isNameChar c) (rest : List Char) :
    readName .between (cs ++ rest) = (readName .between rest).map (cs ++ ·) := by
  induction cs with
  | nil => simp
  | cons c cs ih =>
    obtain ⟨hc, hcs⟩ := List.forall_mem_cons.1 h
    rw [List.cons_append, readName, nameStep_of_isNameChar hc, ih hcs, Option.map_map]
    rfl

/-- At most how many characters a name has that goes on with these. -/
def capacity : NameState → List Char → Nat
  | .between, cs | .lineEnd, cs => cs.length
  | .escape, cs => max 1 cs.length
  | .code _ _, cs => cs.length + 1

section
variable {c : Char} {cs name : List Char} {others : NameState → Option (List Char)}

theorem length_nameStep (h : ∀ s name, others s = some name → name.length ≤ capacity s cs)
    (hname : nameStep c others = some name) : name.length ≤ cs.length + 1 := by
  unfold nameStep at hname
  split_ifs at hname
  · have hlength := h _ _ hname
    simp only [capacity] at hlength
    omega
  · obtain ⟨rest, hrest, rfl⟩ := Option.map_eq_some_iff.1 hname
    exact Nat.succ_le_succ (h _ _ hrest)

theorem length_codeStep (h : ∀ s name, others s = some name → name.length ≤ capacity s cs)
    (hname : codeStep c others = some name) : name.length ≤ cs.length + 1 := by
  unfold codeStep at hname
  split_ifs at hname
  · exact Nat.le_succ_of_le (h _ _ hname)
  · exact Nat.le_succ_of_le (h _ _ hname)
  · exact length_nameStep h hname

end

/-- A name is not longer than it is written. -/
theorem length_readName (cs : List Char) (s : NameState) (name : List Char)
    (h : readName s cs = some name) : name.length ≤ capacity s cs := by
  induction cs generalizing s name with
  | nil => cases s <;> cases h <;> simp [capacity]
  | cons c cs ih =>
    cases s with
    | between => exact length_nameStep ih h
    | lineEnd =>
      rw [readName] at h
      split_ifs at h
      · exact Nat.le_succ_of_le (ih _ _ h)
      · exact length_nameStep ih h
    | escape =>
      rw [readName] at h
      split_ifs at h
      · simpa [capacity] using ih _ _ h
      · obtain ⟨rest, hrest, rfl⟩ := Option.map_eq_some_iff.1 h
        simpa [capacity] using ih _ _ hrest
    | code n left =>
      rw [readName] at h
      split_ifs at h
      · exact Nat.le_succ_of_le (ih _ _ h)
      · obtain ⟨rest, hrest, rfl⟩ := Option.map_eq_some_iff.1 h
        exact Nat.succ_le_succ (length_codeStep ih hrest)

/-- A text is read as a name of the same characters just if it has no character that must be
escaped. -/
theorem readName_self_iff {cs : List Char} :
    readName .between cs = some cs ↔ ∀ c ∈ cs, isNameChar c := by
  refine ⟨fun h => ?_, fun h => by simpa [readName] using readName_append h []⟩
  induction cs with
  | nil => exact nofun
  | cons c cs ih =>
    by_cases hc : isNameChar c
    · rw [readName, nameStep_of_isNameChar hc] at h
      obtain ⟨rest, hread, hrest⟩ := Option.map_eq_some_iff.1 h
      obtain ⟨-, rfl⟩ := List.cons.inj hrest
      exact List.forall_mem_cons.2 ⟨hc, ih hread⟩
    · rw [readName, nameStep, Bool.eq_false_iff.2 hc, Bool.or_false] at h
      split_ifs at h with hbackslash hnull
      · -- what is read for an escape is shorter than the escape
        subst hbackslash
        cases cs with
        | nil =>
          revert h
          decide
        | cons d cs =>
          have hlength := length_readName _ _ _ h
          simp only [capacity, List.length_cons] at hlength
          omega
      · obtain ⟨rest, -, hrest⟩ := Option.map_eq_some_iff.1 h
        obtain rfl : c = '\x00' := by simpa using hnull
        have hne : given '\x00' ≠ '\x00' := by decide
        exact absurd (List.cons.inj hrest).1 hne

/-- A class whose name starts with a letter is read as it is written just if it has no character
that must be escaped. -/
theorem class?_self_iff {name : String} (h : name.toList.head?.any Char.isAlpha) :
    class? ("." ++ name) = some name ↔ ∀ c ∈ name.toList, isNameChar c := by
  have hstart : startsName name.toList := by
    cases hchars : name.toList with
    | nil =>
      rw [hchars] at h
      cases h
    | cons c cs =>
      rw [hchars] at h
      have hc : c.isAlpha = true := h
      have hplain : c ≠ '-' ∧ c ≠ '\\' := by
        constructor <;> rintro rfl <;> revert hc <;> decide
      unfold startsName
      split <;> simp_all [isNameStart]
  have hchars : ("." ++ name).toList = '.' :: name.toList := by
    rw [String.toList_append]
    rfl
  rw [class?, hchars]
  change (if startsName name.toList then _ else _) = _ ↔ _
  rw [if_pos hstart, ← readName_self_iff]
  constructor
  · intro hclass
    obtain ⟨cs, hread, rfl⟩ := Option.map_eq_some_iff.1 hclass
    rwa [String.toList_ofList] at hread ⊢
  · intro hread
    rw [hread, Option.map_some, String.ofList_toList]

/-- A name in which special characters have a backslash is read as it was meant. -/
theorem readName_escaped {cs : List Char} (h : ∀ c ∈ cs, isNewline c = false ∧ c ≠ '\x00') :
    readName .between (cs.flatMap escapeNameChar) = some cs := by
  induction cs with
  | nil => rfl
  | cons c cs ih =>
    obtain ⟨⟨hnewline, hnull⟩, hcs⟩ := List.forall_mem_cons.1 h
    rw [List.flatMap_cons, escapeNameChar]
    split_ifs with hc
    · rw [List.singleton_append, readName, nameStep_of_isNameChar hc, ih hcs, Option.map_some]
    · have hlt : c.toNat < 128 := by
        simp only [isNameChar, Bool.or_eq_true, decide_eq_true_eq, not_or] at hc
        exact Nat.lt_of_not_le hc.2
      have hhex : isHexDigit c = false :=
        Text.of_ascii (P := fun c => ¬ isNameChar c → isHexDigit c = false) (by decide +kernel)
          hlt hc
      change readName .escape (c :: cs.flatMap escapeNameChar) = _
      rw [readName, hnewline, hhex, if_neg Bool.false_ne_true, if_neg Bool.false_ne_true, ih hcs,
        Option.map_some, given, if_neg hnull]

/-- So the custom property of a token is read as the token's name. -/
theorem readName_customProperty {name : String}
    (h : ∀ c ∈ name.toList, isNewline c = false ∧ c ≠ '\x00') :
    readName .between (customProperty name).toList = some ('-' :: '-' :: name.toList) := by
  have hhyphens : ∀ c ∈ ['-', '-'], isNameChar c := List.all_eq_true.1 (by decide)
  have hread := readName_append hhyphens (name.toList.flatMap escapeNameChar)
  rw [readName_escaped h] at hread
  rw [customProperty, String.toList_ofList]
  exact hread

example : class? ".stack--gap-1\\.5" = some "stack--gap-1.5" := by decide +kernel

/-! ## Declarations -/

/-- What the reader of a value is inside of. -/
inductive ValueState
  /-- Nothing; `word` is the name that is being read, the last character first. -/
  | plain (word : List Char)
  | slash
  | comment
  | star
  | escape
  | text (quote : Char)
  | textEscape (quote : Char)
  /-- An address without quotes: before it, in it, behind it, and in an escape. -/
  | address
  | addressBody
  | addressEnd
  | addressEscape
  /-- The mark `<!--`, of which two or one characters are left. -/
  | mark
  | markEnd

/-- What the reader of a value is inside of, and the brackets that are to be closed. -/
structure ValuePlace where
  state : ValueState := .plain []
  closers : List Char := []

/-- Whether a value may end here. -/
def ValuePlace.isClosed (p : ValuePlace) : Bool :=
  p.closers.isEmpty &&
    match p.state with
    | .plain _ | .slash => true
    | _ => false

/-- Whether a character belongs to the word before it. -/
def isWordChar (c : Char) : Bool := isNameChar c || c == '#' || c == '@'

/-- Reads a character outside of texts, comments and addresses. -/
def plainStep (word closers : List Char) (c : Char) : Option ValuePlace :=
  match c with
  | '"' | '\'' => some ⟨.text c, closers⟩
  | '\\' => some ⟨.escape, closers⟩
  | '/' => some ⟨.slash, closers⟩
  | '<' => some ⟨.plain ['<'], closers⟩
  | '(' =>
    if word = ['l', 'r', 'u'] then some ⟨.address, closers⟩ else some ⟨.plain [], ')' :: closers⟩
  | '[' => some ⟨.plain [], ']' :: closers⟩
  | '\x7b' => some ⟨.plain [], '\x7d' :: closers⟩
  | ')' | ']' | '\x7d' => if closers.head? = some c then some ⟨.plain [], closers.tail⟩ else none
  | ';' => if closers.isEmpty then none else some ⟨.plain [], closers⟩
  | '!' =>
    if !closers.isEmpty then some ⟨.plain [], closers⟩
    else if word = ['<'] then some ⟨.mark, closers⟩
    else none
  | c => some ⟨.plain (if isWordChar c then c.toLower :: word else []), closers⟩

/-- Reads a character of an address without quotes. -/
def addressStep (closers : List Char) (c : Char) : Option ValuePlace :=
  if c = ')' then some ⟨.plain [], closers⟩
  else if isSpace c then some ⟨.addressEnd, closers⟩
  else if c = '\\' then some ⟨.addressEscape, closers⟩
  else if c = '"' || c = '\'' || c = '(' || 0 < c.toNat && c.toNat < 32 || c.toNat = 127 then none
  else some ⟨.addressBody, closers⟩

/-- Reads a character of a value, unless it cannot stand there. -/
def valueStep (p : ValuePlace) (c : Char) : Option ValuePlace :=
  match p.state with
  | .plain word => plainStep word p.closers c
  | .slash => if c = '*' then some ⟨.comment, p.closers⟩ else plainStep [] p.closers c
  | .comment => some ⟨if c = '*' then .star else .comment, p.closers⟩
  | .star =>
    some ⟨if c = '/' then .plain [] else if c = '*' then .star else .comment, p.closers⟩
  | .escape => some ⟨.plain ['\\'], p.closers⟩
  | .text quote =>
    if c = quote then some ⟨.plain [], p.closers⟩
    else if c = '\\' then some ⟨.textEscape quote, p.closers⟩
    else if isNewline c then none
    else some ⟨.text quote, p.closers⟩
  | .textEscape quote => some ⟨.text quote, p.closers⟩
  | .address =>
    if isSpace c then some ⟨.address, p.closers⟩
    else if c = '"' || c = '\'' then some ⟨.text c, ')' :: p.closers⟩
    else addressStep p.closers c
  | .addressBody => addressStep p.closers c
  | .addressEnd =>
    if isSpace c then some ⟨.addressEnd, p.closers⟩
    else if c = ')' then some ⟨.plain [], p.closers⟩
    else none
  | .addressEscape => if isNewline c then none else some ⟨.addressBody, p.closers⟩
  | .mark => if c = '-' then some ⟨.markEnd, p.closers⟩ else none
  | .markEnd => if c = '-' then some ⟨.plain [], p.closers⟩ else none

/-- Whether a text is a whole value. -/
def isValue (value : String) : Bool :=
  (value.toList.foldlM valueStep {}).any ValuePlace.isClosed

/-- Reads a value up to its semicolon. -/
def readValue (p : ValuePlace) : List Char → Option (List Char × List Char)
  | [] => none
  | c :: cs =>
    if c = ';' && p.isClosed then some ([], cs)
    else do
      let p ← valueStep p c
      let (value, rest) ← readValue p cs
      some (c :: value, rest)

/-- The custom property that a line declares, with what stands behind the colon, if the line is one
declaration. -/
def declaration? (line : String) : Option (String × String) :=
  let cs := line.toList.dropWhile isSpace
  match cs.dropWhile (· ≠ ':') with
  | ':' :: rest => do
    let property ← readName .between (cs.takeWhile (· ≠ ':'))
    let (value, after) ← readValue {} rest
    if ['-', '-'] <+: property && after.all isSpace then some (.ofList property, .ofList value)
    else none
  | _ => none

/-- A semicolon ends a value wherever it may end. -/
theorem valueStep_semicolon {p : ValuePlace} (h : p.isClosed) : valueStep p ';' = none := by
  obtain ⟨state, closers⟩ := p
  obtain ⟨hclosers, hstate⟩ := Bool.and_eq_true_iff.1 h
  cases state with
  | plain | slash => exact if_pos hclosers
  | _ => cases hstate

theorem eq_of_readValue {p : ValuePlace} {cs value rest : List Char}
    (h : readValue p cs = some (value, rest)) : cs = value ++ ';' :: rest := by
  induction cs generalizing p value with
  | nil => cases h
  | cons c cs ih =>
    rw [readValue] at h
    split_ifs at h with hend
    · obtain ⟨rfl, -⟩ : c = ';' ∧ p.isClosed := by simpa using hend
      cases h
      rfl
    · obtain ⟨p', -, h⟩ := Option.bind_eq_some_iff.1 h
      obtain ⟨read, hread, h⟩ := Option.bind_eq_some_iff.1 h
      cases h
      rw [ih hread, List.cons_append]

/-- What stands before a semicolon is read as the value just if it is whole. -/
theorem readValue_iff {p : ValuePlace} {value rest : List Char} :
    readValue p (value ++ ';' :: rest) = some (value, rest) ↔
      (value.foldlM valueStep p).any ValuePlace.isClosed := by
  induction value generalizing p with
  | nil =>
    rw [List.nil_append, readValue, List.foldlM_nil]
    cases hclosed : p.isClosed with
    | true => simp [hclosed]
    | false =>
      cases valueStep p ';' with
      | none => simp [hclosed]
      | some p' => cases hread : readValue p' rest <;> simp [hclosed, hread]
  | cons c value ih =>
    rw [List.cons_append, readValue, List.foldlM_cons]
    by_cases hend : c = ';' ∧ p.isClosed
    · obtain ⟨rfl, hclosed⟩ := hend
      simp [hclosed, valueStep_semicolon hclosed]
    · have hgoes : (c = ';' && p.isClosed) = false := by simpa using hend
      rw [hgoes, if_neg Bool.false_ne_true]
      cases hstep : valueStep p c with
      | none => simp
      | some p' =>
        simp only [Option.bind_eq_bind, Option.bind_some]
        rw [← ih]
        cases readValue p' (value ++ ';' :: rest) with
        | none => simp
        | some read => simp [Prod.ext_iff]

/-- A line is the declaration that it was written for just if the value is whole. -/
theorem declaration?_iff {property value : String} (hmarked : ['-', '-'] <+: property.toList)
    (hproperty : ∀ c ∈ property.toList, isNameChar c) :
    declaration? s!"  {property}: {value};" = some (property, " " ++ value) ↔ isValue value := by
  have hchars : (s!"  {property}: {value};").toList =
      ' ' :: ' ' :: (property.toList ++ ':' :: ((' ' :: value.toList) ++ [';'])) := by
    change ("  " ++ property ++ ": " ++ value ++ ";").toList = _
    simp only [String.toList_append, List.append_assoc]
    rfl
  have hcolon : ∀ c ∈ property.toList, decide (c ≠ ':') = true := by
    intro c hc
    refine decide_eq_true fun heq => ?_
    have hname := hproperty c hc
    rw [heq] at hname
    revert hname
    decide
  have hspaces :
      (' ' :: ' ' :: (property.toList ++ ':' :: ((' ' :: value.toList) ++ [';']))).dropWhile
        isSpace = property.toList ++ ':' :: ((' ' :: value.toList) ++ [';']) := by
    obtain ⟨rest, hrest⟩ := hmarked
    rw [← hrest]
    rfl
  have hvalue : isValue value = ((' ' :: value.toList).foldlM valueStep {}).any
      ValuePlace.isClosed := rfl
  have htake : ∀ rest, (property.toList ++ ':' :: rest).takeWhile (· ≠ ':') = property.toList := by
    intro rest
    rw [List.takeWhile_append_of_pos hcolon, List.takeWhile_cons_of_neg (by decide),
      List.append_nil]
  have hdrop : ∀ rest, (property.toList ++ ':' :: rest).dropWhile (· ≠ ':') = ':' :: rest := by
    intro rest
    rw [List.dropWhile_append_of_pos hcolon, List.dropWhile_cons_of_neg (by decide)]
  rw [declaration?, hchars, hspaces]
  simp only [htake, hdrop, readName_self_iff.2 hproperty, Option.bind_eq_bind, Option.bind_some]
  rw [hvalue, ← @readValue_iff _ _ []]
  cases hread : readValue {} ((' ' :: value.toList) ++ [';']) with
  | none => simp
  | some read =>
    obtain ⟨found, after⟩ := read
    have hfound : String.ofList found = " " ++ value ↔ found = ' ' :: value.toList := by
      rw [← String.toList_inj, String.toList_ofList, String.toList_append]
      rfl
    simp only [Option.bind_some, Option.ite_none_right_eq_some, Option.some_inj, Prod.mk.injEq,
      String.ofList_toList, true_and, hfound, Bool.and_eq_true, decide_eq_true_eq, hmarked]
    constructor
    · rintro ⟨-, rfl⟩
      exact ⟨rfl, (List.cons.inj (List.append_cancel_left (eq_of_readValue hread))).2.symm⟩
    · rintro ⟨rfl, rfl⟩
      exact ⟨rfl, rfl⟩

/-- The characters that open, close or end something in values. -/
def valueMarks : List Char :=
  ['"', '\'', '\\', '/', '<', '(', '[', '\x7b', ')', ']', '\x7d', ';', '!']

/-- Whether a character has no meaning in values. -/
def isInert (c : Char) : Bool := !valueMarks.contains c

theorem isInert_of_isNameChar {c : Char} (h : isNameChar c) : isInert c := by
  rw [isInert, Bool.not_eq_true', ← Bool.not_eq_true, List.contains_iff_mem]
  have hmarks : valueMarks.all (!isNameChar ·) = true := by decide
  intro hmem
  have hmark := List.all_eq_true.1 hmarks c hmem
  rw [h] at hmark
  cases hmark

theorem isValue_of_isInert {value : String} (h : ∀ c ∈ value.toList, isInert c) :
    isValue value := by
  have hplain : ∀ cs : List Char, (∀ c ∈ cs, isInert c) → ∀ word, ∃ word',
      cs.foldlM valueStep ⟨.plain word, []⟩ = some ⟨.plain word', []⟩ := by
    intro cs
    induction cs with
    | nil => exact fun _ word => ⟨word, rfl⟩
    | cons c cs ih =>
      intro hcs word
      obtain ⟨hc, hrest⟩ := List.forall_mem_cons.1 hcs
      have hstep : valueStep ⟨.plain word, []⟩ c =
          some ⟨.plain (if isWordChar c then c.toLower :: word else []), []⟩ := by
        simp only [isInert, valueMarks, List.contains_cons, List.contains_nil, Bool.not_eq_true',
          Bool.or_eq_false_iff, beq_eq_false_iff_ne] at hc
        simp only [valueStep, plainStep]
        split <;> simp_all
      rw [List.foldlM_cons, hstep]
      exact ih hrest _
  obtain ⟨word, hword⟩ := hplain _ h []
  have hread : value.toList.foldlM valueStep {} = some ⟨.plain word, []⟩ := hword
  rw [isValue, hread]
  rfl

example : ["2/3", "calc(1px + 2px)", "\";\"", "url(a;b.png)", "/* ; */"].all isValue ∧
    ["a;b", "a)", "\"", "red !important", "url(a b)", "/*"].all (!isValue ·) := by
  decide +kernel

end DesignSystem.Stylesheet
