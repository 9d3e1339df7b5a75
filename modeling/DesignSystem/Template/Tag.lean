import DesignSystem.Template.Lexeme

/-!
# Tags

The lexemes of a tag read as an expression, the start or the end of a block, or another kind of tag.
-/

set_option autoImplicit false

namespace DesignSystem.Template

open Json (Value)

/-- A tag. -/
inductive Tag
  | comment
  /-- A tag that stands for a part of the template by itself. -/
  | element (e : Element)
  | openBlock (c : Call)
  | closeBlock (name : String)
  /-- What follows stands for the block otherwise. -/
  | otherwise
  /-- What follows stands for the block otherwise, if another call takes it. -/
  | otherwiseCall (c : Call)

/-! ## Operands -/

/-- Whether a text has the form of a number. -/
def isNumeral (s : String) : Bool :=
  let unsigned := match s.toList with
    | '-' :: cs => cs
    | cs => cs
  let (whole, rest) := spanDigits unsigned
  let rest := match rest with
    | '.' :: cs => (spanDigits cs).2
    | cs => cs
  let exponentEnds := match rest with
    | 'E' :: '-' :: cs => !(spanDigits cs).1.isEmpty && (spanDigits cs).2.isEmpty
    | 'E' :: cs => !(spanDigits cs).1.isEmpty && (spanDigits cs).2.isEmpty
    | cs => cs.isEmpty
  !whole.isEmpty && exponentEnds

/-- A word as an argument: a literal, or the value of its path. -/
def wordOperand? (text : String) (path : Path) : Option Operand :=
  if text = "null" then some (.literal .null)
  else if text = "true" then some (.literal (.bool true))
  else if text = "false" then some (.literal (.bool false))
  else if isNumeral text then
    match Value.parse text with
    | .ok v => some (.literal v)
    | .error _ => none
  else
    match Value.parse text with
    | .ok (.array items) => some (.literal (.array items))
    | _ => some (.path path)

/-- A call that is being read. -/
structure OpenCall where
  /-- The option of the outer call that it is the value of. -/
  option : Option String
  name : String
  /-- The arguments, last first. -/
  arguments : List Operand := []
  options : Entries Operand := []

namespace OpenCall

/-- Puts a value under an option, or after the arguments. -/
def put (f : OpenCall) (option : Option String) (o : Operand) : OpenCall :=
  match option with
  | some key => { f with options := f.options.insert key o }
  | none => { f with arguments := o :: f.arguments }

/-- The call as an operand. A call with arguments has a plain name. -/
def operand? (f : OpenCall) : Option Operand :=
  if isName f.name || (f.arguments.isEmpty && f.options.isEmpty) then
    some (.call f.name f.arguments.reverse f.options)
  else none

end OpenCall

/-- Reads arguments into a call, inside the calls that are open. The result is the call with the
lexemes after its arguments, which start with `as` if there are any. `option` waits for a value. -/
def readArguments : List OpenCall → OpenCall → Option String → List Lexeme →
    Option (OpenCall × List Lexeme)
  | [], f, none, [] => some (f, [])
  | outer, f, none, .word key _ :: .equals :: rest =>
    if isName key then readArguments outer f (some key) rest else none
  | outer, f, option, .word text path :: rest =>
    if text = "as" then
      if outer.isEmpty && option.isNone then some (f, .word text path :: rest) else none
    else if text = "else" then none
    else
      match wordOperand? text path with
      | some o => readArguments outer (f.put option o) none rest
      | none => none
  | outer, f, option, .string s :: rest =>
    readArguments outer (f.put option (.literal (.string s))) none rest
  | outer, f, option, .openCall :: .word name _ :: rest =>
    readArguments (f :: outer) ⟨option, name, [], []⟩ none rest
  | f :: outer, inner, none, .closeCall :: rest =>
    match inner.operand? with
    | some o => readArguments outer (f.put inner.option o) none rest
    | none => none
  | _, _, _, _ => none

/-- A call with its arguments, and the lexemes after them. -/
def readCall? : List Lexeme → Option (Call × List Lexeme)
  | .word name _ :: rest =>
    if isName name then
      (readArguments [] ⟨none, name, [], []⟩ none rest).map fun r =>
        (⟨name, r.1.arguments.reverse, r.1.options, []⟩, r.2)
    else none
  | _ => none

/-- The names that a block binds. -/
def readBound? : List Lexeme → Option (List String)
  | [] => some []
  | [.word "as" _, .bar, .word a _, .bar] => if isName a then some [a] else none
  | [.word "as" _, .bar, .word a _, .word b _, .bar] =>
    if isName a && isName b then some [a, b] else none
  | _ => none

/-- The call at the start of a block. -/
def readBlockCall? (ls : List Lexeme) : Option Call := do
  let (c, rest) ← readCall? ls
  let bound ← readBound? rest
  some { c with bound := bound }

/-- A value without arguments: that of a word, a path, or a call in parentheses. -/
def readValue? (ls : List Lexeme) : Option Element :=
  match ls with
  | [.word text path] => some (if isName text then .word text else .value (.path path))
  | .openCall :: _ =>
    match readArguments [] ⟨none, "", [], []⟩ none ls with
    | some (⟨_, _, [o], []⟩, []) => some (.value o)
    | _ => none
  | _ => none

/-- An expression: a value, or a call with arguments. -/
def readExpression? (ls : List Lexeme) : Option Element :=
  match readValue? ls with
  | some e => some e
  | none =>
    match readCall? ls with
    | some (c, []) => some (.call c)
    | _ => none

/-! ## Tags -/

/-- A tag with its signs that the white space before and after it is dropped. -/
structure TrimmedTag where
  tag : Tag
  trimsBefore : Bool
  trimsAfter : Bool

/-- A tag read from the lexemes after the sign that tells its kind. -/
def readTag? (sign : Option Char) (ls : List Lexeme) : Option Tag :=
  match sign, ls with
  | some '#', ls => (readBlockCall? ls).map .openBlock
  | some '/', [.word name _] => if isName name then some (.closeBlock name) else none
  | some '^', [] => some .otherwise
  | some '^', ls => (readBlockCall? ls).map .otherwiseCall
  | some '>', .word name _ :: _ => some (.element (.part name))
  | some '>', .string name :: _ => some (.element (.part name))
  | some '&', ls => (readValue? ls).map .element
  | some '\x7b', ls => (readExpression? ls).map .element
  | none, [.word "else" _] => some .otherwise
  | none, .word "else" _ :: ls => (readBlockCall? ls).map .otherwiseCall
  | none, ls => (readExpression? ls).map .element
  | _, _ => none

/-- Reads a tag up to its end. -/
def finishTag? (trimsBefore : Bool) (sign : Option Char)
    (ending : List Char → Option (Bool × List Char)) (cs : List Char) :
    Option (TrimmedTag × List Char) := do
  let (ls, trimsAfter, rest) ← lexemes ending cs
  let tag ← readTag? sign ls
  some (⟨tag, trimsBefore, trimsAfter⟩, rest)

/-- Drops a sign that white space is dropped, and the white space after it. -/
def dropTrimSign (cs : List Char) : Bool × List Char :=
  match dropSpace cs with
  | '~' :: rest => (true, dropSpace rest)
  | rest => (false, rest)

/-- The text after a comment, given the text after its opening. A comment that opens with two
hyphens goes on to the next two hyphens before the end of a tag, if there are any. -/
def skipComment? (cs : List Char) : Option (List Char) :=
  let long := match dropSpace cs with
    | '-' :: '-' :: rest => Text.cutList ['-', '-', '\x7d', '\x7d'] rest
    | _ => none
  match long with
  | some (_, rest) => some rest
  | none => (Text.cutList ['\x7d', '\x7d'] cs).map (·.2)

/-- The tag whose opening braces have been read, and what follows it. -/
def spanTag? (cs : List Char) : Option (TrimmedTag × List Char) :=
  match cs with
  | '!' :: rest => (skipComment? rest).map fun rest => (⟨.comment, false, false⟩, rest)
  | cs =>
    match dropTrimSign cs with
    | (trims, '\x7b' :: rest) =>
      let (inner, rest) := dropTrimSign rest
      finishTag? (trims || inner) (some '\x7b') endOfBraced? rest
    | (trims, c :: rest) =>
      if ['#', '/', '^', '>', '&'].contains c then finishTag? trims (some c) endOfTag? rest
      else finishTag? trims none endOfTag? (c :: rest)
    | (_, []) => none

end DesignSystem.Template
