import DesignSystem.Proofs.Script.ObjectLiteral
import DesignSystem.Text.Quoted

/-!
# Literals of texts

Each of the languages has a lexer of its own for literals in one line: which character the quote is,
what a backslash stands before, and where a dollar sign starts an interpolation. The lexers leave
out what is never written: characters by number, lines that go on, and dollar signs that are neither
escaped nor certain to stand for themselves.

* `content?_escapeChar`: a lexer reads an escaped character as this character.
* `content?_escape`: it reads an escaped text up to the closing quote.
* `readsBack_escape`: a literal is read as the text that it was written for, and its quote, line
  breaks and dollar signs do not stand in it unescaped.
-/

set_option autoImplicit false

namespace DesignSystem.Text

/-- The languages that texts are quoted for. -/
inductive StringLanguage
  | typeScript | dart | swift | kotlin
  deriving DecidableEq

namespace StringLanguage

variable (l : StringLanguage)

/-! ## Reading -/

/-- The quote that literals stand between. -/
def quote : StringLanguage → Char
  | typeScript | dart => '\''
  | swift | kotlin => '"'

/-- The character that a backslash before `c` stands for, unless there is more to it. -/
def unescape? : StringLanguage → Char → Option Char
  | typeScript, c => Script.unescape? c
  | dart, c =>
    match c with
    | 'n' => some '\n'
    | 'r' => some '\r'
    | 't' => some '\t'
    | 'b' => some '\x08'
    | 'f' => some '\x0c'
    | 'v' => some '\x0b'
    | 'u' | 'x' | '\n' | '\r' => none
    | c => some c
  | swift, c =>
    match c with
    | '0' => some '\x00'
    | 'n' => some '\n'
    | 'r' => some '\r'
    | 't' => some '\t'
    | '\\' | '"' | '\'' => some c
    | _ => none
  | kotlin, c =>
    match c with
    | 'n' => some '\n'
    | 'r' => some '\r'
    | 't' => some '\t'
    | 'b' => some '\x08'
    | '\\' | '"' | '\'' | '$' => some c
    | _ => none

/-- Whether a dollar sign starts an interpolation. -/
def interpolates : StringLanguage → Bool
  | dart | kotlin => true
  | typeScript | swift => false

/-- Whether three quotes start a literal of several lines. -/
def hasLongQuotes : StringLanguage → Bool
  | dart | swift | kotlin => true
  | typeScript => false

/-- Whether a character stands for itself inside a literal. -/
def isPlainChar (c : Char) : Bool :=
  !(c = l.quote || c = '\\' || c = '\n' || c = '\r' || c = '$' && l.interpolates)

/-- What stands in a literal, from behind its opening quote, and what follows its closing quote. -/
def content? : List Char → Option (List Char × List Char)
  | [] => none
  | '\\' :: c :: cs => do
    let d ← l.unescape? c
    let (content, rest) ← content? cs
    some (d :: content, rest)
  | c :: cs =>
    if c = l.quote then some ([], cs)
    else if l.isPlainChar c then (content? cs).map fun r => (c :: r.1, r.2)
    else none

/-- The text of the literal that a source starts with, and what follows the literal. -/
def literal? (source : String) : Option (String × String) :=
  match source.toList with
  | [] => none
  | c :: cs =>
    if c = l.quote ∧ ¬ (l.hasLongQuotes ∧ cs.take 2 = [l.quote, l.quote]) then
      (l.content? cs).map fun r => (.ofList r.1, .ofList r.2)
    else none

/-! ## Writing -/

/-- A text as it is written inside a literal of the language. -/
def escape : StringLanguage → String → String
  | typeScript | dart => escapeSingle
  | swift => escapeDouble
  | kotlin => escapeTemplate

/-- The form of the literals that are written. -/
def style : StringLanguage → QuoteStyle
  | typeScript | dart => .single
  | swift => .double
  | kotlin => .template

theorem escape_eq (s : String) : l.escape s = .ofList (s.toList.flatMap l.style.escapeChar) := by
  cases l <;> rfl

theorem quote_style : l.style.quote = l.quote := by
  cases l <;> rfl

/-- The characters that no backslash stands before. -/
def bareChars : List Char → List Char
  | [] => []
  | '\\' :: _ :: cs => bareChars cs
  | c :: cs => c :: bareChars cs

/-- What becomes of a character: the line breaks and the tab have a letter, the backslash, the quote
and the characters that the style guards have a backslash, and all others stand for themselves. -/
theorem escapeChar_cases (c : Char) :
    (∃ d, l.style.escapeChar c = ['\\', d] ∧ l.unescape? d = some c ∧ d ∉ ['\n', '\r', '\t']) ∨
      l.style.escapeChar c = [c] ∧ c ∉ ['\\', '\n', '\r', '\t', l.quote] ∧
        c ∉ l.style.guarded := by
  unfold QuoteStyle.escapeChar
  split_ifs with hbackslash hfeed hreturn htab hguarded
  · subst hbackslash
    exact .inl ⟨'\\', rfl, by cases l <;> rfl, by decide⟩
  · subst hfeed
    exact .inl ⟨'n', rfl, by cases l <;> rfl, by decide⟩
  · subst hreturn
    exact .inl ⟨'r', rfl, by cases l <;> rfl, by decide⟩
  · subst htab
    exact .inl ⟨'t', rfl, by cases l <;> rfl, by decide⟩
  · refine .inl ⟨c, rfl, ?_, by simp [hfeed, hreturn, htab]⟩
    rw [Bool.or_eq_true, decide_eq_true_eq, List.contains_iff_mem] at hguarded
    cases l with
    | typeScript | dart | kotlin =>
      rcases hguarded with rfl | hguarded
      · rfl
      · obtain rfl := List.mem_singleton.1 hguarded
        rfl
    | swift =>
      rcases hguarded with rfl | hguarded
      · rfl
      · cases hguarded
  · rw [Bool.or_eq_true, decide_eq_true_eq, List.contains_iff_mem, not_or, quote_style] at hguarded
    exact .inr ⟨rfl, by simp [hbackslash, hfeed, hreturn, htab, hguarded.1], hguarded.2⟩

/-! ## Reading what is written -/

theorem content?_cons {c : Char} (hc : c ≠ '\\') (cs : List Char) :
    l.content? (c :: cs) = if c = l.quote then some ([], cs)
      else if l.isPlainChar c then (l.content? cs).map fun r => (c :: r.1, r.2) else none := by
  rw [content?]
  rintro d ds rfl
  exact absurd rfl hc

theorem bareChars_cons {c : Char} (hc : c ≠ '\\') (cs : List Char) :
    bareChars (c :: cs) = c :: bareChars cs := by
  rw [bareChars]
  rintro d ds rfl
  exact absurd rfl hc

theorem isPlainChar_of_notMem {c : Char} (hc : c ∉ ['\\', '\n', '\r', '\t', l.quote])
    (hguarded : c ∉ l.style.guarded) : l.isPlainChar c := by
  have hdollar : l.interpolates → c ≠ '$' := by
    rintro hl rfl
    cases l with
    | typeScript | swift => cases hl
    | dart | kotlin => exact hguarded (List.mem_singleton.2 rfl)
  simp only [List.mem_cons, List.not_mem_nil, or_false, not_or] at hc
  simp only [isPlainChar, hc, Bool.not_eq_true', Bool.or_eq_false_iff, Bool.and_eq_false_iff,
    decide_false, true_and, decide_eq_false_iff_not]
  by_cases hl : l.interpolates
  · exact .inl (hdollar hl)
  · exact .inr (by simpa using hl)

/-- An escaped character is read as this character. -/
theorem content?_escapeChar (c : Char) (cs : List Char) :
    l.content? (l.style.escapeChar c ++ cs) = (l.content? cs).map fun r => (c :: r.1, r.2) := by
  rcases l.escapeChar_cases c with ⟨d, hescape, hread, -⟩ | ⟨hescape, hplain, hguarded⟩
  · rw [hescape, List.cons_append, List.singleton_append, content?, hread, Option.map_eq_bind]
    rfl
  · have hbackslash : c ≠ '\\' := by
      rintro rfl
      exact hplain (.head _)
    have hquote : c ≠ l.quote := by
      rintro rfl
      simp at hplain
    rw [hescape, List.singleton_append, l.content?_cons hbackslash, if_neg hquote,
      if_pos (l.isPlainChar_of_notMem hplain hguarded)]

theorem quote_ne_backslash : l.quote ≠ '\\' := by
  cases l <;> decide

/-- The closing quote is found behind an escaped text, whatever follows. -/
theorem content?_escape (cs rest : List Char) :
    l.content? (cs.flatMap l.style.escapeChar ++ l.quote :: rest) = some (cs, rest) := by
  induction cs with
  | nil => rw [List.flatMap_nil, List.nil_append, l.content?_cons l.quote_ne_backslash, if_pos rfl]
  | cons c cs ih =>
    rw [List.flatMap_cons, List.append_assoc, content?_escapeChar, ih]
    rfl

/-- No two further quotes follow the opening one. -/
theorem take_escape_ne (cs : List Char) {rest : List Char} (hrest : rest.head? ≠ some l.quote) :
    (cs.flatMap l.style.escapeChar ++ l.quote :: rest).take 2 ≠ [l.quote, l.quote] := by
  intro htake
  cases cs with
  | nil =>
    have htail : rest.take 1 = [l.quote] := (List.cons.inj htake).2
    rw [List.head?_eq_getElem?, ← List.getElem?_take_of_lt Nat.zero_lt_one, htail] at hrest
    exact hrest rfl
  | cons c cs =>
    rw [List.flatMap_cons] at htake
    rcases l.escapeChar_cases c with ⟨d, hescape, -⟩ | ⟨hescape, hplain, -⟩
    · rw [hescape] at htake
      exact l.quote_ne_backslash (List.cons.inj htake).1.symm
    · rw [hescape] at htake
      rw [(List.cons.inj htake).1] at hplain
      simp at hplain

/-- A literal is read up to its closing quote, unless a further quote follows. -/
theorem literal?_escape (s : String) {rest : String} (hrest : rest.toList.head? ≠ some l.quote) :
    l.literal? (.singleton l.quote ++ l.escape s ++ .singleton l.quote ++ rest) =
      some (s, rest) := by
  have hsource : (String.singleton l.quote ++ l.escape s ++ .singleton l.quote ++ rest).toList =
      l.quote :: (s.toList.flatMap l.style.escapeChar ++ l.quote :: rest.toList) := by
    simp [escape_eq]
  unfold literal?
  rw [hsource]
  dsimp only
  rw [if_pos ⟨rfl, fun h => l.take_escape_ne _ hrest h.2⟩, content?_escape, Option.map_some,
    String.ofList_toList, String.ofList_toList]

/-! ## What stands in a literal -/

theorem mem_escape {s : String} {d : Char} (hd : d ∈ (l.escape s).toList) :
    ∃ c ∈ s.toList, d ∈ l.style.escapeChar c := by
  rw [escape_eq, String.toList_ofList] at hd
  exact List.mem_flatMap.1 hd

/-- Line breaks and tabs do not stand in a literal. -/
theorem notMem_escape (s : String) {d : Char} (hd : d ∈ ['\n', '\r', '\t']) :
    d ∉ (l.escape s).toList := by
  intro hmem
  obtain ⟨c, -, hc⟩ := l.mem_escape hmem
  rcases l.escapeChar_cases c with ⟨e, hescape, -, he⟩ | ⟨hescape, hplain, -⟩
  · rw [hescape] at hc
    rcases List.mem_cons.1 hc with rfl | hc
    · revert hd
      decide
    · obtain rfl := List.mem_singleton.1 hc
      exact he hd
  · rw [hescape] at hc
    obtain rfl := List.mem_singleton.1 hc
    refine hplain ?_
    simp only [List.mem_cons, List.not_mem_nil, or_false] at hd ⊢
    tauto

/-- The quote and the characters that the style guards have a backslash before them. -/
theorem notMem_bareChars (s : String) {d : Char} (hd : d = l.quote ∨ d ∈ l.style.guarded) :
    d ∉ bareChars (l.escape s).toList := by
  rw [escape_eq, String.toList_ofList]
  induction s.toList with
  | nil => exact List.not_mem_nil
  | cons c cs ih =>
    rw [List.flatMap_cons]
    rcases l.escapeChar_cases c with ⟨e, hescape, -⟩ | ⟨hescape, hplain, hguarded⟩
    · rw [hescape]
      exact ih
    · have hbackslash : c ≠ '\\' := by
        rintro rfl
        exact hplain (.head _)
      rw [hescape, List.singleton_append, bareChars_cons hbackslash, List.mem_cons, not_or]
      refine ⟨?_, ih⟩
      rintro rfl
      rcases hd with rfl | hd
      · simp at hplain
      · exact hguarded hd

/-- A text that is read back from its literal. -/
structure ReadsBack (s : String) : Prop where
  /-- The text between quotes is one literal, whose value is the text. -/
  whole : l.literal? (.singleton l.quote ++ l.escape s ++ .singleton l.quote) = some (s, "")
  /-- The literal ends at the closing quote, whatever follows, unless it makes a quote of several
  lines. -/
  ends : ∀ rest : String, rest.toList.head? ≠ some l.quote →
    l.literal? (.singleton l.quote ++ l.escape s ++ .singleton l.quote ++ rest) = some (s, rest)
  /-- Line breaks and tabs do not stand in it. -/
  unbroken : ∀ c ∈ ['\n', '\r', '\t'], c ∉ (l.escape s).toList
  /-- The quote does not stand in it without a backslash. -/
  quoted : l.quote ∉ bareChars (l.escape s).toList
  /-- Nor does a dollar sign that would start an interpolation. -/
  uninterpolated : l.interpolates → '$' ∉ bareChars (l.escape s).toList

/-- **Every text is read back from its literal, in each of the languages.** -/
theorem readsBack_escape (s : String) : l.ReadsBack s where
  whole := by
    have hempty : "".toList.head? ≠ some l.quote := nofun
    have hwhole := l.literal?_escape s hempty
    rwa [String.append_empty] at hwhole
  ends _ hrest := l.literal?_escape s hrest
  unbroken _ := l.notMem_escape s
  quoted := l.notMem_bareChars s (.inl rfl)
  uninterpolated hl := by
    refine l.notMem_bareChars s (.inr ?_)
    cases l with
    | typeScript | swift => cases hl
    | dart | kotlin => exact List.mem_singleton.2 rfl

example : kotlin.escape "\\$x" = "\\\\\\$x" ∧
    kotlin.literal? "\"\\\\\\$x\";" = some ("\\$x", ";") := by
  decide +kernel

end StringLanguage

end DesignSystem.Text
