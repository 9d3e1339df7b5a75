import DesignSystem.Text.Basic

/-!
# YAML tokens

A document is read line by line, and each line from left to right. Marks are told from text by what
follows them: a dash or a colon is a mark if white space follows, and inside brackets a colon also
before another bracket or a comma. A scalar ends on the line on which it began.
-/

set_option autoImplicit false

namespace DesignSystem.Yaml

/-- A mark or a scalar. -/
inductive Mark
  | dash | colon | comma | openList | closeList | openMap | closeMap
  | scalar (text : String) (plain : Bool)
  | documentStart | documentEnd
  /-- What no document can hold. -/
  | broken
  deriving DecidableEq

/-- A mark at its place. -/
structure Token where
  line : Nat
  column : Nat
  mark : Mark

/-- White space inside a line. -/
def isSpace (c : Char) : Bool := c = ' ' || c = '\t'

/-- Whether white space or the end of the line comes next. -/
def spaceFollows : List Char → Bool
  | [] => true
  | c :: _ => isSpace c

/-- Brackets and the comma. -/
def isFlowMark (c : Char) : Bool := ['[', ']', '\x7b', '\x7d', ','].contains c

/-- Whether a bracket or a comma comes next. -/
def flowMarkFollows : List Char → Bool
  | [] => false
  | c :: _ => isFlowMark c

/-- Characters that begin what is not read. -/
def isReserved (c : Char) : Bool :=
  ['&', '*', '!', '|', '>', '%', '@', '\x60', '#'].contains c

/-- The mark of a bracket or a comma at a depth of brackets, and the depth after it. -/
def flowMark? (depth : Nat) (c : Char) : Option (Mark × Nat) :=
  match c, depth with
  | '[', depth => some (.openList, depth + 1)
  | '\x7b', depth => some (.openMap, depth + 1)
  | ']', depth + 1 => some (.closeList, depth)
  | '\x7d', depth + 1 => some (.closeMap, depth)
  | ',', depth + 1 => some (.comma, depth + 1)
  | ',', 0 => some (.broken, 0)
  | ']', 0 => some (.broken, 0)
  | '\x7d', 0 => some (.broken, 0)
  | _, _ => none

/-! ## Quoted scalars -/

/-- The value of hexadecimal digits, if all are. -/
def hexValue? (cs : List Char) : Option Nat :=
  cs.foldl (fun n c => do
    let n ← n
    let d ← if c.isDigit then some (c.toNat - 48)
      else if 'a' ≤ c ∧ c ≤ 'f' then some (c.toNat - 87)
      else if 'A' ≤ c ∧ c ≤ 'F' then some (c.toNat - 55)
      else none
    some (n * 16 + d)) (some 0)

/-- The character of a code. -/
def charOf? (code : Nat) : Option Char := if code.isValidChar then some (.ofNat code) else none

/-- The character that a letter stands for after a backslash. -/
def escaped? (c : Char) : Option Char :=
  ([('0', '\x00'), ('a', '\x07'), ('b', '\x08'), ('t', '\t'), ('\t', '\t'), ('n', '\n'),
    ('v', '\x0b'), ('f', '\x0c'), ('r', '\r'), ('e', '\x1b'), (' ', ' '), ('"', '"'), ('/', '/'),
    ('\\', '\\'), ('N', '\u0085'), ('_', '\u00a0'), ('L', '\u2028'), ('P', '\u2029')].find?
      (·.1 = c)).map (·.2)

/-- The characters between double quotes. -/
def unescape : List Char → Option (List Char)
  | [] => some []
  | '\\' :: 'x' :: a :: b :: cs => do
    (← charOf? (← hexValue? [a, b])) :: (← unescape cs)
  | '\\' :: 'u' :: a :: b :: c :: d :: cs => do
    (← charOf? (← hexValue? [a, b, c, d])) :: (← unescape cs)
  | '\\' :: 'U' :: a :: b :: c :: d :: e :: f :: g :: h :: cs => do
    (← charOf? (← hexValue? [a, b, c, d, e, f, g, h])) :: (← unescape cs)
  | '\\' :: c :: cs => do (← escaped? c) :: (← unescape cs)
  | c :: cs => do c :: (← unescape cs)

/-- The scalar of what stands between double quotes. -/
def quotedMark (raw : List Char) : Mark :=
  match unescape raw with
  | some cs => .scalar (.ofList cs) false
  | none => .broken

/-! ## Lines -/

/-- Where reading a line is. -/
inductive Place
  /-- Between tokens; `fresh` if a scalar can begin. -/
  | between (fresh : Bool)
  /-- In a scalar that began at a column, its characters last first. -/
  | plain (column : Nat) (read : List Char)
  | single (column : Nat) (read : List Char)
  | double (column : Nat) (read : List Char)

/-- The scalar of the characters of a plain one, last first. -/
def plainMark (read : List Char) : Mark :=
  .scalar (.ofList (read.dropWhile isSpace).reverse) true

/-- Whether a colon is a mark: `joined` if it follows a quoted scalar or a bracket at once. -/
def colonMarks (depth : Nat) (joined : Bool) (rest : List Char) : Bool :=
  spaceFollows rest || (0 < depth && (joined || flowMarkFollows rest))

/-- Whether a character can begin a plain scalar. -/
def beginsPlain (depth : Nat) (c : Char) (rest : List Char) : Bool :=
  !isReserved c && !isFlowMark c &&
    (!List.contains ['-', '?', ':'] c ||
      !(spaceFollows rest || (0 < depth && flowMarkFollows rest)))

/-- The marks of a line from a column on, at a depth of brackets, and the depth after it. -/
def marks (depth column : Nat) (place : Place) : List Char → List (Nat × Mark) × Nat
  | [] =>
    match place with
    | .between _ => ([], depth)
    | .plain start read => ([(start, plainMark read)], depth)
    | _ => ([(column, .broken)], depth)
  | c :: cs =>
    let go (depth : Nat) (place : Place) := marks depth (column + 1) place cs
    let emit (mark : Nat × Mark) (r : List (Nat × Mark) × Nat) := (mark :: r.1, r.2)
    match place with
    | .between fresh =>
      if isSpace c then go depth (.between true)
      else if c = '#' && fresh then ([], depth)
      else
        match flowMark? depth c with
        | some (mark, depth) => emit (column, mark) (go depth (.between (c ≠ ']' && c ≠ '\x7d')))
        | none =>
          if c = ':' && colonMarks depth (!fresh) cs then
            emit (column, .colon) (go depth (.between true))
          else if !fresh then ([(column, .broken)], depth)
          else if c = '-' && spaceFollows cs && depth = 0 then
            emit (column, .dash) (go depth (.between false))
          else if c = '"' then go depth (.double column [])
          else if c = '\'' then go depth (.single column [])
          else if beginsPlain depth c cs then go depth (.plain column [c])
          else ([(column, .broken)], depth)
    | .plain start read =>
      if c = ':' && colonMarks depth false cs then
        emit (start, plainMark read) (emit (column, .colon) (go depth (.between true)))
      else if c = '#' && spaceFollows read then ([(start, plainMark read)], depth)
      else if 0 < depth && isFlowMark c then
        match flowMark? depth c with
        | some (mark, depth) =>
          emit (start, plainMark read)
            (emit (column, mark) (go depth (.between (c ≠ ']' && c ≠ '\x7d'))))
        | none => ([(column, .broken)], depth)
      else go depth (.plain start (c :: read))
    | .single start read =>
      if c = '\'' then
        match cs with
        | '\'' :: cs => marks depth (column + 2) (.single start ('\'' :: read)) cs
        | cs => emit (start, .scalar (.ofList read.reverse) false)
          (marks depth (column + 1) (.between false) cs)
      else go depth (.single start (c :: read))
    | .double start read =>
      if c = '"' then emit (start, quotedMark read.reverse) (go depth (.between false))
      else if c = '\\' then
        match cs with
        | e :: cs => marks depth (column + 2) (.double start (e :: c :: read)) cs
        | [] => ([(column, .broken)], depth)
      else go depth (.double start (c :: read))

/-- Whether a line is one of three characters that mark a document, up to white space. -/
def isDocumentMark (mark : List Char) (line : List Char) : Bool :=
  line.take 3 = mark && spaceFollows (line.drop 3)

/-- Whether a tab stands in the space before the text of a line. -/
def tabIndents (line : List Char) : Bool :=
  (line.takeWhile isSpace).contains '\t' &&
    match line.dropWhile isSpace with
    | [] => false
    | c :: _ => c ≠ '#'

/-- The marks of a line at a depth of brackets, and the depth after it. -/
def lineMarks (depth : Nat) (line : List Char) : List (Nat × Mark) × Nat :=
  if 0 < depth then marks depth 0 (.between true) line
  else if isDocumentMark ['-', '-', '-'] line then
    let (rest, depth) := marks 0 3 (.between true) (line.drop 3)
    ((0, .documentStart) :: rest, depth)
  else if isDocumentMark ['.', '.', '.'] line then
    let (rest, depth) := marks 0 3 (.between true) (line.drop 3)
    ((0, .documentEnd) :: rest, depth)
  else if tabIndents line then ([(0, .broken)], 0)
  else marks 0 0 (.between true) line

/-- The tokens of lines, numbered from `n` on. -/
def tokensFrom (n depth : Nat) : List (List Char) → List Token
  | [] => []
  | line :: lines =>
    let (marks, depth) := lineMarks depth line
    marks.map (fun m => ⟨n, m.1, m.2⟩) ++ tokensFrom (n + 1) depth lines

/-- The lines of a text. A carriage return ends a line too, alone or before a line feed. -/
def linesOf (s : String) : List (List Char) :=
  Text.splitList (· == '\n') ((Text.replace "\r\n" "\n" s).toList.map fun c =>
    if c = '\r' then '\n' else c)

/-- The tokens of a text. -/
def tokens (s : String) : List Token := tokensFrom 0 0 (linesOf s)

end DesignSystem.Yaml
