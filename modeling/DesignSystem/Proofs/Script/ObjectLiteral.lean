import DesignSystem.Proofs.Entries
import DesignSystem.Proofs.Text.Plain
import DesignSystem.Script.TokenObject

/-!
# Object literals

What a script says that exports an object of texts: the text is cut into lexemes, and an object is
read from these, with its entries as they are written. A script takes an entry `__proto__` for the
prototype of the object; it is read as an entry like any other.

* `Literal.follow`, `Literal.leaves`: what keys lead to, and all texts with the keys before them.
* `scan_append`: a text is cut where one of its parts ends.
* `scan_quotedSingle`, `scan_key`: texts in quotes and keys are read as what they were written for.
* `readValue_lexemes`: an object is read from its lexemes.
-/

set_option autoImplicit false

namespace DesignSystem.Script

/-- A text, or an object with its entries in order. -/
inductive Literal
  | text (content : String)
  | object (fields : List (String × Literal))

/-- A part of a script: a name, a text in quotes, or a mark. -/
inductive Lexeme
  | word (name : String)
  | text (content : String)
  | mark (c : Char)
  deriving DecidableEq

/-! ## Cutting a script -/

/-- What a scanner is inside of, with the characters read so far. -/
inductive ScanState
  | between
  | word (cs : List Char)
  | text (cs : List Char)
  | escape (cs : List Char)
  deriving DecidableEq

/-- The character that a backslash before `c` stands for, unless there is more to it. -/
def unescape? (c : Char) : Option Char :=
  match c with
  | 'n' => some '\n'
  | 'r' => some '\r'
  | 't' => some '\t'
  | 'b' => some '\x08'
  | 'f' => some '\x0c'
  | 'v' => some '\x0b'
  | 'u' | 'x' | '\n' | '\r' | '\u2028' | '\u2029' => none
  | c => if c.isDigit then none else some c

def isNameChar (c : Char) : Bool := TokenObject.isIdentStart c || c.isDigit

def scanFirst (c : Char) : Option (List Lexeme × ScanState) :=
  if Text.isBlankChar c then some ([], .between)
  else if c = '\'' then some ([], .text [])
  else if TokenObject.isIdentStart c then some ([], .word [c])
  else if c ∈ ['\x7b', '\x7d', ':', ',', ';', '='] then some ([.mark c], .between)
  else none

def scanChar : ScanState → Char → Option (List Lexeme × ScanState)
  | .between, c => scanFirst c
  | .word cs, c =>
    if isNameChar c then some ([], .word (cs ++ [c]))
    else (scanFirst c).map fun r => (.word (.ofList cs) :: r.1, r.2)
  | .text cs, c =>
    if c = '\'' then some ([.text (.ofList cs)], .between)
    else if c = '\\' then some ([], .escape cs)
    else if c = '\n' ∨ c = '\r' then none
    else some ([], .text (cs ++ [c]))
  | .escape cs, c => (unescape? c).map fun d => ([], .text (cs ++ [d]))

def scan : ScanState → List Char → Option (List Lexeme × ScanState)
  | s, [] => some ([], s)
  | s, c :: cs => do
    let (first, s) ← scanChar s c
    let (rest, s) ← scan s cs
    some (first ++ rest, s)

/-- The lexemes of a script that does not end inside one. -/
def lexemes? (script : String) : Option (List Lexeme) :=
  match scan .between script.toList with
  | some (ls, .between) => some ls
  | _ => none

/-! ## Reading an object -/

def Lexeme.key? : Lexeme → Option String
  | .word name => some name
  | .text content => some content
  | .mark _ => none

mutual

/-- Reads a value of at most so many lexemes, and what follows it. -/
def readValue : Nat → List Lexeme → Option (Literal × List Lexeme)
  | _, .text content :: rest => some (.text content, rest)
  | n + 1, .mark '\x7b' :: rest => do
    let (fields, rest) ← readFields n rest
    some (.object fields, rest)
  | _, _ => none

/-- Reads entries up to the closing brace. -/
def readFields : Nat → List Lexeme → Option (List (String × Literal) × List Lexeme)
  | _, .mark '\x7d' :: rest => some ([], rest)
  | n + 1, l :: .mark ':' :: rest => do
    let key ← l.key?
    let (value, rest) ← readValue n rest
    match rest with
    | .mark ',' :: rest =>
      let (fields, rest) ← readFields n rest
      some ((key, value) :: fields, rest)
    | .mark '\x7d' :: rest => some ([(key, value)], rest)
    | _ => none
  | _, _ => none

end

/-- Whether a declaration ends after its value. -/
def endsDeclaration : List Lexeme → Bool
  | .mark ';' :: _ => true
  | .word "as" :: .word "const" :: .mark ';' :: _ => true
  | _ => false

/-- The constant that a script exports first, if that is its name. -/
def exported? (name script : String) : Option Literal := do
  match ← lexemes? script with
  | .word "export" :: .word "const" :: .word n :: .mark '=' :: ls =>
    let (value, rest) ← readValue ls.length ls
    if n = name ∧ endsDeclaration rest then some value else none
  | _ => none

namespace Literal

/-- The literal that keys lead to. -/
def follow : List String → Literal → Option Literal
  | [], l => some l
  | key :: keys, object fields => (Entries.get? key fields).bind (follow keys)
  | _ :: _, text _ => none

mutual

/-- The texts in a literal with the keys that lead to them, in order. -/
def leaves : Literal → List (List String × String)
  | text content => [([], content)]
  | object fields => fieldLeaves fields

def fieldLeaves : List (String × Literal) → List (List String × String)
  | [] => []
  | (key, l) :: rest => (leaves l).map (fun leaf => (key :: leaf.1, leaf.2)) ++ fieldLeaves rest

end

def keyLexeme (name : String) : Lexeme :=
  if TokenObject.isPlainKey name then .word name else .text name

mutual

/-- The lexemes of a literal; a comma follows every entry. -/
def lexemes : Literal → List Lexeme
  | text content => [.text content]
  | object fields => .mark '\x7b' :: (fieldLexemes fields ++ [.mark '\x7d'])

def fieldLexemes : List (String × Literal) → List Lexeme
  | [] => []
  | (key, l) :: rest => keyLexeme key :: .mark ':' :: (lexemes l ++ .mark ',' :: fieldLexemes rest)

end

end Literal

/-! ## Scanning -/

variable {s s' s'' : ScanState} {cs cs' : List Char} {ls ls' rest : List Lexeme}

theorem scan_cons {c : Char} (hc : scanChar s c = some (ls, s'))
    (h : scan s' cs = some (ls', s'')) : scan s (c :: cs) = some (ls ++ ls', s'') := by
  rw [scan, hc]
  simp only [Option.bind_eq_bind, Option.bind_some, h]

theorem scan_singleton {c : Char} (h : scanChar s c = some (ls, s')) :
    scan s [c] = some (ls, s') := by
  have hend : scan s' [] = some ([], s') := rfl
  simpa using scan_cons h hend

theorem scan_append (h : scan s cs = some (ls, s')) (h' : scan s' cs' = some (ls', s'')) :
    scan s (cs ++ cs') = some (ls ++ ls', s'') := by
  induction cs generalizing s ls with
  | nil =>
    cases h
    exact h'
  | cons c cs ih =>
    rw [scan] at h
    obtain ⟨⟨first, s₁⟩, hc, h⟩ := Option.bind_eq_some_iff.1 h
    obtain ⟨⟨more, s₂⟩, hcs, h⟩ := Option.bind_eq_some_iff.1 h
    cases h
    simpa using scan_cons hc (ih hcs)

theorem scan_spaces (n : Nat) : scan .between (List.replicate n ' ') = some ([], .between) := by
  induction n with
  | zero => rfl
  | succ n ih =>
    have hspace : scanChar .between ' ' = some ([], .between) := rfl
    exact scan_cons hspace ih

/-- An escaped character is read as itself. -/
theorem scan_escapeChar (cs : List Char) (c : Char) :
    scan (.text cs) (Text.QuoteStyle.single.escapeChar c) = some ([], .text (cs ++ [c])) := by
  by_cases hbackslash : c = '\\'
  · subst hbackslash
    rfl
  by_cases hfeed : c = '\n'
  · subst hfeed
    rfl
  by_cases hreturn : c = '\r'
  · subst hreturn
    rfl
  by_cases htab : c = '\t'
  · subst htab
    rfl
  by_cases hquote : c = '\''
  · subst hquote
    rfl
  by_cases hdollar : c = '$'
  · subst hdollar
    rfl
  have hplain : Text.QuoteStyle.single.escapeChar c = [c] := by
    simp [Text.QuoteStyle.escapeChar, Text.QuoteStyle.single, hbackslash, hfeed, hreturn, htab,
      hquote, hdollar]
  rw [hplain]
  refine scan_singleton ?_
  rw [scanChar, if_neg hquote, if_neg hbackslash, if_neg (not_or.2 ⟨hfeed, hreturn⟩)]

theorem scan_escaped (content before : List Char) :
    scan (.text before) (content.flatMap Text.QuoteStyle.single.escapeChar) =
      some ([], .text (before ++ content)) := by
  induction content generalizing before with
  | nil => simp [scan]
  | cons c content ih => simpa using scan_append (scan_escapeChar before c) (ih (before ++ [c]))

theorem scan_quotedSingle (content : String) :
    scan .between (Text.quotedSingle content).toList = some ([.text content], .between) := by
  have hopen : scan .between ['\''] = some ([], .text []) := rfl
  have hclose : scan (.text content.toList) ['\''] = some ([.text content], .between) := by
    refine scan_singleton ?_
    rw [scanChar, if_pos rfl, String.ofList_toList]
  have h := scan_append (scan_append hopen (scan_escaped content.toList [])) hclose
  simpa [Text.quotedSingle, Text.escapeSingle, Text.QuoteStyle.escape] using h

theorem scan_nameChars (name before : List Char) (h : ∀ c ∈ name, isNameChar c) :
    scan (.word before) name = some ([], .word (before ++ name)) := by
  induction name generalizing before with
  | nil => simp [scan]
  | cons c name ih =>
    have hc : scanChar (.word before) c = some ([], .word (before ++ [c])) := by
      rw [scanChar, if_pos (h c (.head _))]
    simpa using scan_cons hc (ih (before ++ [c]) fun d hd => h d (.tail _ hd))

theorem scanFirst_of_isIdentStart {c : Char} (h : TokenObject.isIdentStart c) :
    scanFirst c = some ([], .word [c]) := by
  have hrange : c.toNat = 36 ∨ 48 ≤ c.toNat ∧ c.toNat < 123 := by
    simp only [TokenObject.isIdentStart, Bool.or_eq_true, beq_iff_eq] at h
    rcases h with (halpha | rfl) | rfl
    · exact .inr (Text.toNat_lt_of_plain (Bool.or_eq_true_iff.2 (.inl halpha)))
    · exact .inr (by decide)
    · exact .inl rfl
  have hblank : Text.isBlankChar c = false := by
    simp [Text.isBlankChar, Text.inRanges, Text.blankRanges]
    omega
  have hquote : c ≠ '\'' := by
    rintro rfl
    simp at hrange
  rw [scanFirst, hblank, if_neg (by decide), if_neg hquote, if_pos h]

/-- A name is read up to a character that cannot stand in it. -/
theorem scan_word {name : String} (hname : TokenObject.isPlainKey name) {c : Char}
    (hc : isNameChar c = false) (hfirst : scanFirst c = some (ls, s)) :
    scan .between (name.toList ++ [c]) = some (.word name :: ls, s) := by
  unfold TokenObject.isPlainKey at hname
  split at hname
  · cases hname
  · next first rest hchars =>
    obtain ⟨hstart, hrest⟩ := Bool.and_eq_true_iff.1 hname
    have hopen : scanChar .between first = some ([], .word [first]) :=
      scanFirst_of_isIdentStart hstart
    have hword := scan_cons hopen (scan_nameChars rest [first] (List.all_eq_true.1 hrest))
    have hclose : scan (.word ([first] ++ rest)) [c] = some (.word name :: ls, s) := by
      refine scan_singleton ?_
      rw [scanChar, hc, hfirst, List.singleton_append, ← hchars, String.ofList_toList]
      rfl
    simpa [hchars] using scan_append hword hclose

theorem scan_key (name : String) : scan .between ((TokenObject.key name).toList ++ [':']) =
    some ([Literal.keyLexeme name, .mark ':'], .between) := by
  unfold TokenObject.key Literal.keyLexeme
  split
  · next hplain => exact scan_word hplain rfl rfl
  · have hcolon : scan .between [':'] = some ([.mark ':'], .between) := rfl
    exact scan_append (scan_quotedSingle name) hcolon

/-! ## Reading what is written -/

mutual

theorem readValue_lexemes (rest : List Lexeme) : ∀ (l : Literal) {n : Nat}, l.lexemes.length ≤ n →
    readValue n (l.lexemes ++ rest) = some (l, rest)
  | .text content, n, _ => by cases n <;> rfl
  | .object fields, n, h => by
    rw [Literal.lexemes, List.length_cons, List.length_append] at h
    cases n with
    | zero => omega
    | succ n =>
      have hfields := readFields_fieldLexemes rest fields (n := n) (by omega)
      rw [Literal.lexemes, List.cons_append, List.append_assoc]
      change (readFields n (Literal.fieldLexemes fields ++ .mark '\x7d' :: rest)).bind _ = _
      rw [hfields]
      rfl

theorem readFields_fieldLexemes (rest : List Lexeme) :
    ∀ (fields : List (String × Literal)) {n : Nat}, (Literal.fieldLexemes fields).length ≤ n →
    readFields n (Literal.fieldLexemes fields ++ .mark '\x7d' :: rest) = some (fields, rest)
  | [], n, _ => by cases n <;> rfl
  | (key, l) :: fields, n, h => by
    rw [Literal.fieldLexemes, List.length_cons, List.length_cons, List.length_append,
      List.length_cons] at h
    cases n with
    | zero => omega
    | succ n =>
      have hvalue := readValue_lexemes
        (.mark ',' :: (Literal.fieldLexemes fields ++ .mark '\x7d' :: rest)) l (n := n) (by omega)
      have hfields := readFields_fieldLexemes rest fields (n := n) (by omega)
      rw [Literal.fieldLexemes, List.cons_append, List.cons_append, List.append_assoc,
        List.cons_append, Literal.keyLexeme]
      split <;> simp only [readFields, Lexeme.key?, hvalue, hfields, Option.bind_eq_bind,
        Option.bind_some]

end

end DesignSystem.Script
