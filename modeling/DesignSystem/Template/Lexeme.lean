import DesignSystem.Json.Draft
import DesignSystem.Template.Tree
import DesignSystem.Text.Basic

/-!
# Lexemes of tags

A tag holds words, strings and punctuation. A word is the text of a path; whether it stands for a
value, a helper or a literal depends on where it stands in the tag.
-/

set_option autoImplicit false

namespace DesignSystem.Template

/-- A lexeme of a tag. -/
inductive Lexeme
  | word (text : String) (path : Path)
  | string (s : String)
  | openCall | closeCall | equals | bar

/-- White space inside tags. -/
def isSpace (c : Char) : Bool := c = ' ' || c = '\t' || c = '\n' || c = '\r'

/-- A character of a name. -/
def isNameChar (c : Char) : Bool :=
  Text.isPlainAlphanumeric c || c == '_' || c == '-' || c == '$' || 128 ≤ c.toNat

/-- Whether a text is one plain name. -/
def isName (s : String) : Bool := !s.isEmpty && s.toList.all isNameChar

/-! ## Paths -/

/-- A character that separates the names of a path. -/
def isSeparator (c : Char) : Bool := c == '.' || c == '/'

/-- Whether a text starts with a name of a path, plain or in brackets. -/
def startsName : List Char → Bool
  | c :: _ => isNameChar c || c == '['
  | [] => false

/-- Where the reader of names stands: before a name, inside a plain one or one in brackets, or after
the closing bracket; the characters read so far are last first. -/
inductive NamePlace
  | before
  | plain (read : List Char)
  | bracketed (read : List Char)
  | ended (read : List Char)

/-- The names of a path, and what follows them. -/
def spanNames : NamePlace → List Char → Option (List String × List Char)
  | .before, [] => none
  | .before, c :: cs =>
    if c == '[' then spanNames (.bracketed []) cs
    else if isNameChar c then spanNames (.plain [c]) cs
    else none
  | .bracketed _, [] => none
  | .bracketed read, c :: cs =>
    if c == ']' then spanNames (.ended read) cs else spanNames (.bracketed (c :: read)) cs
  | .plain read, [] => some ([.ofList read.reverse], [])
  | .plain read, c :: cs =>
    if isNameChar c then spanNames (.plain (c :: read)) cs
    else if isSeparator c && startsName cs then
      (spanNames .before cs).map fun r => (.ofList read.reverse :: r.1, r.2)
    else some ([.ofList read.reverse], c :: cs)
  | .ended read, [] => some ([.ofList read.reverse], [])
  | .ended read, c :: cs =>
    if isSeparator c && startsName cs then
      (spanNames .before cs).map fun r => (.ofList read.reverse :: r.1, r.2)
    else some ([.ofList read.reverse], c :: cs)

/-- Drops the name of the value in scope with the separator after it. -/
def dropHere : List Char → List Char
  | whole@('t' :: 'h' :: 'i' :: 's' :: c :: cs) => if isSeparator c then cs else whole
  | '.' :: '/' :: cs => cs
  | cs => cs

/-- Where a path starts, and what follows. -/
def spanStart : List Char → PathStart × List Char
  | '@' :: rest@('r' :: 'o' :: 'o' :: 't' :: c :: cs) =>
    if isSeparator c then
      match cs with
      | '@' :: cs => (.root, cs)
      | cs => (.root, cs)
    else (.marker, rest)
  | '@' :: cs => (.marker, cs)
  | cs => (.here, cs)

/-- How many scopes further out a path starts, and what follows. -/
def spanUps (ups : Nat) : List Char → Nat × List Char
  | whole@('.' :: '.' :: c :: cs) => if isSeparator c then spanUps (ups + 1) cs else (ups, whole)
  | cs => (ups, cs)

/-- A path, and what follows it. The name of the value in scope leads nowhere further. -/
def spanPath (cs : List Char) : Option (Path × List Char) :=
  let (start, rest) := spanStart (dropHere cs)
  let (ups, rest) := spanUps 0 rest
  (spanNames .before rest).map fun r => (⟨start, ups, r.1.filter (· ≠ "this")⟩, r.2)

/-! ## Strings -/

/-- Whether a character may follow a backslash in a string with a quote. -/
def isEscape (quote c : Char) : Bool :=
  c == quote || ['\\', '/', 'b', 'f', 'n', 'r', 't', 'u'].contains c

/-- A character as it is written in a JSON string, where the quote is always double. -/
def jsonChar (c : Char) : List Char := if c == '"' then ['\\', '"'] else [c]

/-- The characters of a string up to its closing quote, as they are written in a JSON string, and
what follows the quote; `escaped` says that a backslash stands before the first. -/
def spanString (quote : Char) : Bool → List Char → Option (List Char × List Char)
  | _, [] => none
  | true, c :: cs =>
    if isEscape quote c then
      (spanString quote false cs).map fun r =>
        ((if c == '\'' then [c] else ['\\', c]) ++ r.1, r.2)
    else none
  | false, c :: cs =>
    if c == quote then some ([], cs)
    else if c == '\\' then spanString quote true cs
    else (spanString quote false cs).map fun r => (jsonChar c ++ r.1, r.2)

/-- A string after its opening quote, and what follows it. -/
def lexString (quote : Char) (cs : List Char) : Option (Lexeme × List Char) := do
  let (body, rest) ← spanString quote false cs
  match Json.Value.parse (.ofList ('"' :: body ++ ['"'])) with
  | .ok (.string s) => some (.string s, rest)
  | _ => none

/-! ## Lexemes up to the end of a tag -/

/-- The lexeme at the front of a text, and what follows it. -/
def lexOne (cs : List Char) : Option (Lexeme × List Char) :=
  match cs with
  | '(' :: rest => some (.openCall, rest)
  | ')' :: rest => some (.closeCall, rest)
  | '=' :: rest => some (.equals, rest)
  | '|' :: rest => some (.bar, rest)
  | '"' :: rest => lexString '"' rest
  | '\'' :: rest => lexString '\'' rest
  | cs => (spanPath cs).map fun r =>
    (.word (.ofList (cs.take (cs.length - r.2.length))) r.1, r.2)

/-- Drops white space at the front. -/
def dropSpace (cs : List Char) : List Char := cs.dropWhile isSpace

/-- The end of a tag, with the sign that the white space after it is dropped. -/
def endOfTag? (cs : List Char) : Option (Bool × List Char) :=
  match cs with
  | '\x7d' :: '\x7d' :: rest => some (false, rest)
  | '~' :: rest =>
    match dropSpace rest with
    | '\x7d' :: '\x7d' :: rest => some (true, rest)
    | _ => none
  | _ => none

/-- The end of a tag with an inner pair of braces. -/
def endOfBraced? (cs : List Char) : Option (Bool × List Char) :=
  match cs with
  | '\x7d' :: rest => endOfTag? (dropSpace rest)
  | '~' :: rest =>
    match dropSpace rest with
    | '\x7d' :: '\x7d' :: '\x7d' :: rest => some (true, rest)
    | _ => none
  | _ => none

/-- What a tag holds, whether the white space after it is dropped, and what follows it. `ending`
recognises the end of the tag. -/
def lexemes (ending : List Char → Option (Bool × List Char)) (cs : List Char) :
    Option (List Lexeme × Bool × List Char) :=
  let here := dropSpace cs
  match ending here with
  | some (trims, rest) => some ([], trims, rest)
  | none =>
    match lexOne here with
    | none => none
    | some (lexeme, rest) =>
      -- every lexeme holds at least one character
      if rest.length < cs.length then
        (lexemes ending rest).map fun r => (lexeme :: r.1, r.2)
      else none
  termination_by cs.length

end DesignSystem.Template
